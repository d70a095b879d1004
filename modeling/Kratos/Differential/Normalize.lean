/- source: packages/differential/src/normalize.ts
   digest: The rules that rewrite an observation, and the fields that they must not reach. -/

import Kratos.Differential.Observation
import Kratos.Foundation.Replacing
import Kratos.Foundation.Sha256

set_option autoImplicit false

namespace Kratos.Differential

open Foundation.Text Foundation.JsonText Foundation.JsonPlaces Foundation.Collections
open Foundation.Lines (utf8Length)
open Foundation.Replacing (replaceAll)
open Foundation.Sha256 (sha256)

/-- What `Object.prototype` holds under a name; a rule may have written a string there. -/
inductive Inherited
  | function
  | text (value : JsString)

/-- The own names of `Object.prototype`, its accessor apart. -/
def prototypeNames : List JsString :=
  ["constructor", "__defineGetter__", "__defineSetter__", "hasOwnProperty", "__lookupGetter__",
    "__lookupSetter__", "isPrototypeOf", "propertyIsEnumerable", "toString", "valueOf",
    "toLocaleString"].map js

def accessorName : JsString := js "__proto__"

/-- `Object.prototype`: whether the accessor `__proto__` still stands, and its other properties. -/
structure Prototype where
  accessor : Bool
  properties : List (JsString × Inherited)
  known : ∀ property ∈ properties, property.1 ∈ prototypeNames

def Prototype.initial : Prototype where
  accessor := true
  properties := prototypeNames.map fun name => (name, .function)
  known := by simp

inductive Slot
  | undefined
  | function (name : JsString)
  | prototype
  | value (json : Json)

def Slot.isUndefined : Slot → Bool
  | .undefined => true
  | _ => false

def isString : Slot → Option JsString
  | .value (.string value) => some value
  | _ => none

def itemsOf : Slot → Option (List Json)
  | .value (.array items) => some items
  | _ => none

/-- What an object without the own property reads. -/
def Prototype.inherited (prototype : Prototype) (name : JsString) : Slot :=
  if name == accessorName then if prototype.accessor then .prototype else .undefined
  else
    match mapGet prototype.properties name with
    | none => .undefined
    | some .function => .function name
    | some (.text value) => .value (.string value)

/-- `Object.prototype[name] = value`: the accessor ignores a string. -/
def Prototype.assign (prototype : Prototype) (name value : JsString) : Prototype where
  accessor := prototype.accessor
  properties := prototype.properties.map fun property =>
    if property.1 == name then (property.1, .text value) else property
  known := by
    intro property member
    obtain ⟨old, listed, rfl⟩ := List.mem_map.mp member
    split
    · exact prototype.known old listed
    · exact prototype.known old listed

def Prototype.delete (prototype : Prototype) (name : JsString) : Prototype where
  accessor := prototype.accessor && name != accessorName
  properties := prototype.properties.filter fun property => property.1 != name
  known := fun property member => prototype.known property (List.mem_of_mem_filter member)

/-- `slot[name]`; an array is only ever asked for an index. -/
def read (prototype : Prototype) (slot : Slot) (name : JsString) : Slot :=
  match slot with
  | .value (.array items) => (child (.array items) name).elim .undefined .value
  | .value (.object members) => (mapGet members name).elim (prototype.inherited name) .value
  | .prototype =>
      if name == accessorName then if prototype.accessor then .value .null else .undefined
      else prototype.inherited name
  | _ => .undefined

inductive Failure
  | invalidPointer | missingPointer | protectedField | stringRequired | workspaceRequired
  | arrayRequired | arrayItemRemoved | identityMissing | identityInvalid
  deriving DecidableEq

def Failure.message : Failure → String
  | .invalidPointer => "Differential normalization pointer is invalid"
  | .missingPointer => "Differential normalization pointer does not exist"
  | .protectedField => "Differential normalization targets a protected field"
  | .stringRequired => "Differential normalization requires a string"
  | .workspaceRequired => "Differential normalization requires a workspace string"
  | .arrayRequired => "Differential normalization requires an array"
  | .arrayItemRemoved => "Differential normalization cannot remove array items"
  | .identityMissing => "Differential normalization sort identity is missing"
  | .identityInvalid => "Differential normalization sort identity is invalid"

def decodeSegment (segment : JsString) : JsString :=
  replaceAll (replaceAll segment (js "~1") (js "/")) (js "~0") (js "~")

def decodePointer (pointer : JsString) : Except Failure Place :=
  if !startsWith pointer (js "/") || pointer == js "/" then .error .invalidPointer
  else .ok (((pointer.drop 1).splitOn (unit '/')).map decodeSegment)

def decisionFields : List JsString :=
  ["status", "exitCode", "reasonCode", "stateChanged", "retryable"].map js

/-- What `.` does not match. -/
def isLineTerminator (u : CodeUnit) : Bool :=
  u == 0x0A || u == 0x0D || u == 0x2028 || u == 0x2029

/-- `/^\/structured(?:\/(\d+)(?:\/(.*))?)?$/u`: none without a match, else the second group. -/
def structuredRest (pointer : JsString) : Option (Option JsString) :=
  if pointer == js "/structured" then some none
  else if startsWith pointer (js "/structured/") then
    let after := pointer.drop 12
    if (after.takeWhile isDigit).isEmpty then none
    else
      match after.dropWhile isDigit with
      | [] => some none
      | u :: rest =>
          if u == unit '/' && !rest.any isLineTerminator then some (some rest) else none
  else none

def isProtected (pointer : JsString) : Bool :=
  if pointer == js "/process/stdout/content" || pointer == js "/process/stderr/content" then false
  else if ["/process", "/filesystem", "/git"].any fun root =>
      pointer == js root || startsWith pointer (js root ++ js "/") ||
        startsWith (js root) (pointer ++ js "/") then true
  else
    match structuredRest pointer with
    | none => false
    | some none => true
    | some (some rest) =>
        let segments := rest.splitOn (unit '/')
        if segments.head? != some (js "value") then true
        else segments.length == 1 || segments.tail.any fun segment => decisionFields.contains segment

/-- Where a rule is applied: `Object.prototype`, or a container of the observation. -/
inductive Parent
  | prototype
  | container (place : Place) (value : Json)

/-- The walk along the segments, over inherited properties too. -/
def walk (prototype : Prototype) (current : Slot) : Place → Except Failure Slot
  | [] => .ok current
  | segment :: rest =>
      let next := read prototype current segment
      if next.isUndefined then .error .missingPointer else walk prototype next rest

def locateParent (prototype : Prototype) (root : Json) (pointer : JsString) :
    Except Failure (Parent × JsString) := do
  let segments ← decodePointer pointer
  match ← walk prototype (.value root) segments.dropLast with
  | .prototype => .ok (.prototype, segments.getLastD [])
  | .value (.array items) =>
      .ok (.container segments.dropLast (.array items), segments.getLastD [])
  | .value (.object members) =>
      .ok (.container segments.dropLast (.object members), segments.getLastD [])
  | _ => .error .missingPointer

def readValue (prototype : Prototype) (parent : Parent) (key : JsString) : Except Failure Slot :=
  let value := match parent with
    | .prototype => read prototype .prototype key
    | .container _ value => read prototype (.value value) key
  if value.isUndefined then .error .missingPointer else .ok value

/-- `parent[key] = value` with a string, which the accessor of a plain object ignores. -/
def writeValue (parent : Json) (key value : JsString) : Json :=
  match parent with
  | .object members =>
      if key == accessorName && (mapGet members key).isNone then .object members
      else .object (setMember members key (.string value))
  | other => setChild other key (.string value)

/-- Keep a stream's `bytes` and `sha256` describing the content they accompany. -/
def resynchronizeStream (parent : Json) (key : JsString) : Json :=
  match parent with
  | .object members =>
      if key == js "content" then
        match mapGet members (js "content") with
        | some (.string content) =>
            .object (setMember (setMember members (js "bytes") (.integer (utf8Length content)))
              (js "sha256") (.string (sha256 content)))
        | _ => .object members
      else .object members
  | other => other

/-- `String(value)` of a number that is no safe integer. -/
def numberText (literal : JsString) : JsString :=
  if literal == js "-0" then js "0" else literal

def identity (prototype : Prototype) (value : Json) (key : JsString) : Except Failure JsString :=
  match value with
  | .object members =>
      match read prototype (.value (.object members)) key with
      | .undefined => .error .identityMissing
      | .value (.string text) => .ok (js "string:" ++ text)
      | .value (.integer number) => .ok (js "number:" ++ integerText number)
      | .value (.double literal) => .ok (js "number:" ++ numberText literal)
      | _ => .error .identityInvalid
  | _ => .error .identityMissing

/-- An array of fewer than two items is sorted without a comparison. Of several bad items an
engine may meet another one first. -/
def sortItems (localeCompare : JsString → JsString → Int) (prototype : Prototype)
    (identityKey : JsString) (items : List Json) : Except Failure (List Json) :=
  if items.length < 2 then .ok items
  else do
    let identified ← items.mapM fun item => do
      let text ← identity prototype item identityKey
      pure (text, item)
    pure ((identified.mergeSort fun left right =>
      decide (localeCompare left.1 right.1 ≤ 0)).map Prod.snd)

/-- A rule that reaches into an artifact a side never produced is skipped. -/
def targetsAbsentArtifact (observation : Json) (pointer : JsString) : Bool :=
  if startsWith pointer (js "/structured/") then
    let after := pointer.drop 12
    let digits := after.takeWhile isDigit
    let rest := after.dropWhile isDigit
    !digits.isEmpty && (rest == js "/value" || startsWith rest (js "/value/")) &&
      match valueAt observation [js "structured", decimal (digitsValue digits), js "state"] with
      | some (.string state) => state != js "valid"
      | _ => true
  else false

/-- The observation being rewritten, beside the prototype that every object shares. -/
structure World where
  prototype : Prototype
  observation : Json

/-- A container of the observation put back after a change. -/
def World.replace (world : World) (place : Place) (value : Json) : World :=
  { world with observation := replaceAt world.observation place value }

/-- A string written by a rule that then keeps a stream's description. -/
def World.rewrite (world : World) (parent : Parent) (key value : JsString) : World :=
  match parent with
  | .prototype => { world with prototype := world.prototype.assign key value }
  | .container place container =>
      world.replace place (resynchronizeStream (writeValue container key value) key)

def applyOperation (localeCompare : JsString → JsString → Int) (workspace : JsString)
    (world : World) (parent : Parent) (key : JsString) (value : Slot) :
    Operation → Except Failure World
  | .lineEndings =>
      match isString value with
      | none => .error .stringRequired
      | some text => .ok (world.rewrite parent key (replaceAll text (js "\r\n") (js "\n")))
  | .workspacePath =>
      match isString value with
      | none => .error .workspaceRequired
      | some text =>
          if workspace.isEmpty then .error .workspaceRequired
          else .ok (world.rewrite parent key (replaceAll text workspace (js "<WORKSPACE>")))
  | .replaceJsonValue token =>
      match parent with
      | .prototype => .ok { world with prototype := world.prototype.assign key token.text }
      | .container place container => .ok (world.replace place (writeValue container key token.text))
  | .sortJsonArray identityKey =>
      match itemsOf value with
      | none => .error .arrayRequired
      | some items => do
          let sorted ← sortItems localeCompare world.prototype identityKey items
          match parent with
          | .prototype => pure world
          | .container place container =>
              pure (world.replace place (setChild container key (.array sorted)))
  | .removeField _ =>
      match parent with
      | .prototype => .ok { world with prototype := world.prototype.delete key }
      | .container place container =>
          match container with
          | .object members => .ok (world.replace place (.object (removeMember members key)))
          | _ => .error .arrayItemRemoved

def normalizeRule (localeCompare : JsString → JsString → Int) (workspace : JsString)
    (world : World) (rule : NormalizationRule) : Except Failure World :=
  if isProtected rule.pointer then .error .protectedField
  else if targetsAbsentArtifact world.observation rule.pointer then .ok world
  else do
    let (parent, key) ← locateParent world.prototype world.observation rule.pointer
    let value ← readValue world.prototype parent key
    applyOperation localeCompare workspace world parent key value rule.operation

def normalizeObservation (localeCompare : JsString → JsString → Int) (prototype : Prototype)
    (observation : DifferentialObservation) (rules : List NormalizationRule)
    (workspace : JsString) : Except Failure World :=
  rules.foldlM (normalizeRule localeCompare workspace) ⟨prototype, observation.json⟩

end Kratos.Differential
