/- source: packages/differential/src/compare.ts
   digest: The comparison of two observations with the expected one, and the report on it. -/

import Kratos.Differential.Normalize
import Kratos.Foundation.JsonAlike
import Kratos.Foundation.Sorting
import Kratos.Schema.CanonicalJson

set_option autoImplicit false

namespace Kratos.Differential

open Foundation.Text Foundation.JsonText Foundation.JsonPlaces Foundation.JsonAlike

open Foundation.Lines (utf8Length)
open Foundation.Replacing (replaceAll)
open Foundation.Sha256 (sha256)
open Foundation.Sorting (sortedUnique)
open Schema (notAfter)

inductive Side
  | oracle | candidate
  deriving DecidableEq

def Side.text : Side → JsString
  | .oracle => js "oracle"
  | .candidate => js "candidate"

inductive MismatchKind
  | missing | unexpected | type | value | timeout | crash | partialMutation
  deriving DecidableEq

def MismatchKind.text : MismatchKind → JsString
  | .missing => js "missing"
  | .unexpected => js "unexpected"
  | .type => js "type"
  | .value => js "value"
  | .timeout => js "timeout"
  | .crash => js "crash"
  | .partialMutation => js "partial_mutation"

structure Mismatch where
  pointer : JsString
  kind : MismatchKind
  scenarioId : JsString
  parityContractIds : List JsString
  oracle : Option Json
  candidate : Option Json

structure DifferentialReport where
  scenarioId : JsString
  parityContractIds : List JsString
  equal : Bool
  mismatches : List Mismatch
  normalization : List NormalizationRule

def escapePointer (segment : JsString) : JsString :=
  replaceAll (replaceAll segment (js "~") (js "~0")) (js "/") (js "~1")

/-- `/^\d+$/u`. -/
def isDigits (text : JsString) : Bool := !text.isEmpty && text.all isDigit

/-- `/^\/(?:filesystem\/(?:before|after|mutations)\/\d+|structured\/\d+)\/(?:path|id)$/u`. -/
def isDisclosablePath (pointer : JsString) : Bool :=
  match pointer.splitOn (unit '/') with
  | [start, first, list, index, last] =>
      start.isEmpty && first == js "filesystem" &&
        [js "before", js "after", js "mutations"].contains list && isDigits index &&
        [js "path", js "id"].contains last
  | [start, first, index, last] =>
      start.isEmpty && first == js "structured" && isDigits index &&
        [js "path", js "id"].contains last
  | _ => false

/-- `/^[a-f0-9]{64}$/u`. -/
def isDigest (text : JsString) : Bool :=
  text.length == 64 && text.all fun u => between 'a' 'f' u || isDigit u

def endsWith (text suffix : JsString) : Bool := suffix.isSuffixOf text

def typeOf : Slot → JsString
  | .undefined => js "undefined"
  | .function _ => js "function"
  | .prototype => js "object"
  | .value .null => js "object"
  | .value (.bool _) => js "boolean"
  | .value (.integer _) => js "number"
  | .value (.double _) => js "number"
  | .value (.string _) => js "string"
  | .value (.array _) => js "object"
  | .value (.object _) => js "object"

def isArray : Slot → Bool
  | .value (.array _) => true
  | _ => false

def isRecord : Slot → Bool
  | .value (.object _) => true
  | .prototype => true
  | _ => false

def isNumber : Slot → Option Json
  | .value (.integer value) => some (.integer value)
  | .value (.double literal) => some (.double literal)
  | _ => none

/-- What is shown of a record: its digest, or else its path, or else its type. -/
def recordSummary (prototype : Prototype) (value : Slot) : Json :=
  match isNumber (read prototype value (js "bytes")),
      isString (read prototype value (js "sha256")) with
  | some bytes, some digest => .object [(js "bytes", bytes), (js "sha256", .string digest)]
  | _, _ =>
      match isString (read prototype value (js "path")) with
      | some path => .object [(js "path", .string path)]
      | none => .object [(js "type", .string (typeOf value))]

def safeSummary (prototype : Prototype) (value : Slot) (pointer : JsString) : Json :=
  match value with
  | .value .null => .null
  | .value (.bool value) => .bool value
  | .value (.integer value) => .integer value
  | .value (.double literal) => .double literal
  | .value (.string value) =>
      if endsWith pointer (js "/sha256") && isDigest value then .string value
      else if isDisclosablePath pointer then .string value
      else .object [(js "type", .string (js "string")), (js "bytes", .integer (utf8Length value)),
        (js "sha256", .string (sha256 value))]
  | .value (.array _) => .object [(js "type", .string (js "array"))]
  | other =>
      if isRecord other then recordSummary prototype other
      else .object [(js "type", .string (typeOf other))]

/-- `JSON.stringify` of a number that is no safe integer. -/
def stringifyNumber (literal : JsString) : JsString :=
  if literal == js "Infinity" || literal == js "-Infinity" then js "null" else numberText literal

section Canonical

variable (localeCompare : JsString → JsString → Int)

def collates (left right : JsString) : Bool := decide (localeCompare left right ≤ 0)

mutual

def canonical : Json → JsString
  | .array items => unit '[' :: (joinEntries [] (canonicalEntries items) ++ [unit ']'])
  | .object members =>
      unit '{' :: (joinEntries [] ((arrange (collates localeCompare)
        (canonicalProperties members)).map fun property =>
          quote property.1 ++ unit ':' :: property.2) ++ [unit '}'])
  | .null => js "null"
  | .bool value => if value then js "true" else js "false"
  | .integer value => integerText value
  | .double literal => stringifyNumber literal
  | .string value => quote value

def canonicalEntries : List Json → List JsString
  | [] => []
  | item :: rest => canonical item :: canonicalEntries rest

def canonicalProperties : List (JsString × Json) → List (JsString × JsString)
  | [] => []
  | (key, value) :: rest => (key, canonical value) :: canonicalProperties rest

end

def artifactDigest (value : Json) : Nat × JsString :=
  (utf8Length (canonical localeCompare value), sha256 (canonical localeCompare value))

end Canonical

/-- `/^\/structured\/\d+\/value$/u`, where artifacts are disclosed as digests. -/
def isOpaqueArtifact (pointer : JsString) (scenario : DifferentialScenario) : Bool :=
  scenario.artifacts == .digest &&
    match pointer.splitOn (unit '/') with
    | [start, first, index, last] =>
        start.isEmpty && first == js "structured" && isDigits index && last == js "value"
    | _ => false

/-- The run of the candidate ended by itself with the code zero. -/
def exitedClean (candidate : Json) : Bool :=
  match valueAt candidate [js "process", js "outcome"],
      valueAt candidate [js "process", js "exitCode"] with
  | some (.string outcome), some (.integer code) => outcome == js "exit" && code == 0
  | _, _ => false

def mismatchKind (pointer : JsString) (expected actual : Slot) (candidate : Json) : MismatchKind :=
  if pointer == js "/process/outcome" && isString actual == some (js "timeout") then .timeout
  else if pointer == js "/process/outcome" && isString actual == some (js "signal") then .crash
  else if startsWith pointer (js "/filesystem/mutations/") && !exitedClean candidate then
    .partialMutation
  else if expected.isUndefined then .unexpected
  else if actual.isUndefined then .missing
  else if isArray expected != isArray actual || typeOf expected != typeOf actual then .type
  else .value

/-- `Object.is`; two containers are never one object. -/
def same : Slot → Slot → Bool
  | .undefined, .undefined => true
  | .function name, .function other => name == other
  | .prototype, .prototype => true
  | .value .null, .value .null => true
  | .value (.bool value), .value (.bool other) => value == other
  | .value (.integer value), .value (.integer other) => value == other
  | .value (.double literal), .value (.double other) => literal == other
  | .value (.string value), .value (.string other) => value == other
  | _, _ => false

/-- `Object.keys(value)`: the properties of `Object.prototype` are not enumerable. -/
def keys : Slot → List JsString
  | .value (.object members) => members.map Prod.fst
  | _ => []

/-- `items[index]`. -/
def item (items : List Json) (index : Nat) : Slot := items[index]?.elim .undefined .value

def bothItems : Slot → Slot → Option (List Json × List Json)
  | .value (.array items), .value (.array others) => some (items, others)
  | _, _ => none

def Slot.json : Slot → Option Json
  | .value json => some json
  | _ => none

section Comparison

variable (localeCompare : JsString → JsString → Int) (prototype : Prototype)
  (scenario : DifferentialScenario)

def mismatch (side : Side) (observation : Json) (pointer : JsString) (expected actual : Slot)
    (oracle candidate : Option Json) : Mismatch where
  pointer := unit '/' :: side.text ++ pointer
  kind := mismatchKind pointer expected actual observation
  scenarioId := scenario.id
  parityContractIds := scenario.parityContractIds
  oracle := oracle
  candidate := candidate

def digestSummary (value : Json) : Json :=
  .object [(js "bytes", .integer (artifactDigest localeCompare value).1),
    (js "sha256", .string (artifactDigest localeCompare value).2)]

/-- The fuel is more than the containers nested in both values. -/
def collect (side : Side) (observation : Json) : Nat → Slot → Slot → JsString → List Mismatch
  | 0, _, _, _ => []
  | fuel + 1, expected, actual, pointer =>
      if same expected actual then []
      else if isOpaqueArtifact pointer scenario then
        if expected.json.map (fun value => (artifactDigest localeCompare value).2) =
            actual.json.map fun value => (artifactDigest localeCompare value).2 then []
        else [mismatch scenario side observation pointer expected actual
          (expected.json.map (digestSummary localeCompare))
          (actual.json.map (digestSummary localeCompare))]
      else
        match bothItems expected actual with
        | some (items, others) =>
            (List.range (max items.length others.length)).flatMap fun index =>
              collect side observation fuel (item items index) (item others index)
                (pointer ++ unit '/' :: decimal index)
        | none =>
            if isRecord expected && isRecord actual then
              (sortedUnique (fun left right => notAfter left right = true)
                (keys expected ++ keys actual)).flatMap fun key =>
                  collect side observation fuel (read prototype expected key)
                    (read prototype actual key) (pointer ++ unit '/' :: escapePointer key)
            else [mismatch scenario side observation pointer expected actual
              (some (safeSummary prototype expected pointer))
              (some (safeSummary prototype actual pointer))]

def compareGolden (side : Side) (actual : Json) : List Mismatch :=
  collect localeCompare prototype scenario side actual
    (depth scenario.expected.json + depth actual + 1) (.value scenario.expected.json)
    (.value actual) []

/-- `${mismatch.pointer}\u0000${mismatch.kind}`. -/
def Mismatch.sortKey (mismatch : Mismatch) : JsString := mismatch.pointer ++ 0 :: mismatch.kind.text

def compareObservations (oracle candidate : Json) : DifferentialReport :=
  let mismatches :=
    (compareGolden localeCompare prototype scenario .oracle oracle ++
      compareGolden localeCompare prototype scenario .candidate candidate).mergeSort
        fun left right => decide (localeCompare left.sortKey right.sortKey ≤ 0)
  { scenarioId := scenario.id
    parityContractIds := scenario.parityContractIds
    equal := mismatches.isEmpty
    mismatches := mismatches
    normalization := scenario.normalization }

end Comparison

end Kratos.Differential
