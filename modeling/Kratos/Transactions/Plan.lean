/- source: domain/transactions/normalize.ts, composition/transactions.ts
   digest: How requested effects become a managed plan, and what the executor accepts of it. -/

import Kratos.Durable
import Kratos.Foundation.Collections
import Kratos.Transactions.Surface

set_option autoImplicit false

namespace Kratos.Transactions

open Foundation.Text Foundation.Collections Foundation.Lines Foundation.Paths Patterns Durable

inductive PlanRefusal
  | outsideAllow
  | stateCorrupt
  deriving DecidableEq, Repr

inductive ManagedKind
  | createDirectory
  | writeFile (content : JsString)
  | deleteFile
  deriving DecidableEq, Repr

/-- `Effect`, with what the planner reads of it. -/
inductive Effect
  | assertFile (path : JsString)
  | managed (kind : ManagedKind) (path : JsString)
  | appendEvent
  | emit
  deriving DecidableEq, Repr

structure ManagedEffect where
  kind : ManagedKind
  path : JsString
  deriving DecidableEq, Repr

structure DraftOperation where
  kind : ManagedKind
  path : JsString
  expected : PathFingerprint
  result : PathFingerprint
  deriving DecidableEq, Repr

structure ManagedOperation extends DraftOperation where
  operationId : JsString
  stagedPath : Option JsString
  deriving DecidableEq, Repr

/-- `ReadonlyMap<string, PathFingerprint>`. -/
abbrev Observations := List (JsString × PathFingerprint)

abbrev Tree := JsString → PathFingerprint

/-- `observations.get(path) ?? missing`. -/
def lookup (observations : Observations) (path : JsString) : PathFingerprint :=
  (mapGet observations path).getD .missing

section Relationships

variable (lower : CaseMapping)

/-- Every path has one spelling for each collision key. -/
def checkSpellings (spellings : List (JsString × JsString)) :
    List JsString → Except PlanRefusal Unit
  | [] => .ok ()
  | path :: rest =>
      let key := lower.toLowerCase path
      match mapGet spellings key with
      | some prior =>
          if prior ≠ path then .error .stateCorrupt
          else checkSpellings (spellings ++ [(key, path)]) rest
      | none => checkSpellings (spellings ++ [(key, path)]) rest

/-- A check of every entry against the entries after it. -/
def checkPairs {α : Type} (check : α → α → Except PlanRefusal Unit) :
    List α → Except PlanRefusal Unit
  | [] => .ok ()
  | left :: rest => do
      rest.forM (check left)
      checkPairs check rest

def checkEffectPair (left right : ManagedEffect) : Except PlanRefusal Unit :=
  let leftPath := lower.toLowerCase left.path
  let rightPath := lower.toLowerCase right.path
  if leftPath = rightPath then .error .stateCorrupt
  else if isParent leftPath rightPath then
    if left.kind ≠ .createDirectory then .error .stateCorrupt else .ok ()
  else if isParent rightPath leftPath then .error .stateCorrupt
  else .ok ()

def validateRelationships (effects : List ManagedEffect) : Except PlanRefusal Unit := do
  checkSpellings lower [] (effects.flatMap fun effect => prefixes effect.path)
  checkPairs (checkEffectPair lower) effects

def checkOperationPair (left right : ManagedOperation) : Except PlanRefusal Unit :=
  let leftPath := lower.toLowerCase left.path
  let rightPath := lower.toLowerCase right.path
  if leftPath = rightPath then .error .stateCorrupt
  else if isParent leftPath rightPath then
    if left.kind ≠ .createDirectory ∨ right.expected ≠ .missing then .error .stateCorrupt
    else .ok ()
  else if isParent rightPath leftPath then .error .stateCorrupt
  else .ok ()

/-- Beneath a directory the plan creates, every parent is one it creates. -/
def checkBeneath (createdDirectories : List JsString) (beneath : Bool) :
    List JsString → Except PlanRefusal Unit
  | [] => .ok ()
  | pre :: rest =>
      if createdDirectories.contains (lower.toLowerCase pre) then
        checkBeneath createdDirectories true rest
      else if beneath then .error .stateCorrupt
      else checkBeneath createdDirectories beneath rest

def checkCreated (createdDirectories : List JsString) :
    List ManagedOperation → Except PlanRefusal Unit
  | [] => .ok ()
  | operation :: rest => do
      checkBeneath lower createdDirectories false (prefixes operation.path).dropLast
      checkCreated
        (if operation.kind = .createDirectory then
          createdDirectories ++ [lower.toLowerCase operation.path]
        else createdDirectories) rest

def validateManagedRelationships (operations : List ManagedOperation) : Except PlanRefusal Unit := do
  checkSpellings lower [] (operations.flatMap fun operation => prefixes operation.path)
  checkPairs (checkOperationPair lower) operations
  checkCreated lower [] operations

end Relationships

section Planning

variable (lower : CaseMapping) (sha256 : JsString → JsString)

def assertManagedPath (path : JsString) : Except PlanRefusal Unit :=
  if isManagedDestination lower path then .ok () else .error .outsideAllow

def assertManagedDirectory (path : JsString) : Except PlanRefusal Unit :=
  if isManagedDirectoryDestination lower path then .ok () else .error .outsideAllow

/-- Whether an operation of a kind may target a path. -/
def assertDestination (kind : ManagedKind) (path : JsString) : Except PlanRefusal Unit :=
  match kind with
  | .createDirectory => assertManagedDirectory lower path
  | .writeFile _ | .deleteFile => assertManagedPath lower path

def selectManagedEffects : List Effect → Except PlanRefusal (List ManagedEffect)
  | [] => .ok []
  | .assertFile path :: rest => do
      assertManagedPath lower path
      selectManagedEffects rest
  | .emit :: rest => selectManagedEffects rest
  | .appendEvent :: _ => .error .stateCorrupt
  | .managed kind path :: rest => do
      assertDestination lower kind path
      return ⟨kind, path⟩ :: (← selectManagedEffects rest)

/-- The depth of the first directory a plan creates on the way to a path. -/
def firstOwnedDepth (path : JsString) : Nat := if startsWith path (js ".brain/") then 2 else 1

/-- The parents of a path a plan creates when they are missing. -/
def ownedParents (path : JsString) : List JsString :=
  (prefixes path).dropLast.drop (firstOwnedDepth path - 1)

/-- The state the planner threads through the effects. -/
structure PlanState where
  observedState : Observations
  drafts : List DraftOperation
  deriving DecidableEq, Repr

def PlanState.observe (state : PlanState) (path : JsString) (fingerprint : PathFingerprint) :
    PlanState :=
  { state with observedState := state.observedState ++ [(path, fingerprint)] }

def PlanState.push (state : PlanState) (draft : DraftOperation) : PlanState :=
  { state with drafts := state.drafts ++ [draft] }

def synthesizeParent (state : PlanState) (parent : JsString) : Except PlanRefusal PlanState :=
  match lookup state.observedState parent with
  | .file _ _ => .error .stateCorrupt
  | .directory => .ok state
  | .missing =>
      .ok ((state.push ⟨.createDirectory, parent, .missing, .directory⟩).observe parent .directory)

def synthesizeMissingParents (path : JsString) (state : PlanState) :
    Except PlanRefusal PlanState :=
  (ownedParents path).foldlM synthesizeParent state

def normalizeCreateDirectory (path : JsString) (expected : PathFingerprint) (state : PlanState) :
    Except PlanRefusal PlanState :=
  match expected with
  | .file _ _ => .error .stateCorrupt
  | .missing =>
      .ok ((state.push ⟨.createDirectory, path, expected, .directory⟩).observe path .directory)
  | .directory => .ok (state.observe path .directory)

def contentFingerprint (content : JsString) : PathFingerprint :=
  .file (utf8Length content) (sha256 content)

def normalizeWriteFile (path content : JsString) (expected : PathFingerprint) (state : PlanState) :
    Except PlanRefusal PlanState :=
  let result := contentFingerprint sha256 content
  if expected = .directory then .error .stateCorrupt
  else if expected = result then .ok (state.observe path result)
  else .ok ((state.push ⟨.writeFile content, path, expected, result⟩).observe path result)

def normalizeDeleteFile (path : JsString) (expected : PathFingerprint) (state : PlanState) :
    Except PlanRefusal PlanState :=
  match expected with
  | .directory => .error .stateCorrupt
  | .file _ _ => .ok ((state.push ⟨.deleteFile, path, expected, .missing⟩).observe path .missing)
  | .missing => .ok (state.observe path .missing)

def normalizeEffect (state : PlanState) (effect : ManagedEffect) : Except PlanRefusal PlanState :=
  match effect.kind with
  | .createDirectory => do
      let state ← synthesizeMissingParents effect.path state
      normalizeCreateDirectory effect.path (lookup state.observedState effect.path) state
  | .writeFile content => do
      let state ← synthesizeMissingParents effect.path state
      normalizeWriteFile sha256 effect.path content (lookup state.observedState effect.path) state
  | .deleteFile =>
      normalizeDeleteFile effect.path (lookup state.observedState effect.path) state

/-- `String(index + 1).padStart(4, "0")` behind its name. -/
def operationIdAt (index : Nat) : JsString :=
  js "operation-" ++ List.replicate (4 - (decimal (index + 1)).length) (unit '0') ++
    decimal (index + 1)

def stagedPathAt (kind : ManagedKind) (index : Nat) : Option JsString :=
  match kind with
  | .writeFile _ => some (js "staging/" ++ operationIdAt index ++ js ".payload")
  | .createDirectory | .deleteFile => none

def finalizeOperation (index : Nat) (draft : DraftOperation) : ManagedOperation where
  toDraftOperation := draft
  operationId := operationIdAt index
  stagedPath := stagedPathAt draft.kind index

inductive NormalizedPlan
  | noop
  | ready (operations : List ManagedOperation)
  deriving DecidableEq, Repr

def normalizeManagedMutationPlan (effects : List Effect) (observations : Observations) :
    Except PlanRefusal NormalizedPlan := do
  let managedEffects ← selectManagedEffects lower effects
  validateRelationships lower managedEffects
  let state ← managedEffects.foldlM (normalizeEffect sha256) ⟨observations, []⟩
  if state.drafts = [] then return .noop
  else return .ready (state.drafts.mapIdx finalizeOperation)

end Planning

section Observing

variable (lower : CaseMapping)

/-- The path an effect is about, and whatever lies on the way to it. -/
def Effect.observationPaths : Effect → List JsString
  | .assertFile path | .managed _ path =>
      if isManagedDirectoryDestination lower path then js ".brain" :: prefixes path else []
  | .appendEvent | .emit => []

def managedObservationPaths (effects : List Effect) : List JsString :=
  (effects.flatMap (Effect.observationPaths lower)).eraseDups

def observeManagedPaths (effects : List Effect) (tree : Tree) : Observations :=
  (managedObservationPaths lower effects).map fun path => (path, tree path)

end Observing

section Freezing

variable (lower : CaseMapping) (sha256 : JsString → JsString)

/-- `freezeFingerprint`. -/
def validFingerprint : PathFingerprint → Bool
  | .missing | .directory => true
  | .file size sha256 => decide (size ≤ 9007199254740991) && sha256Pattern sha256

def isFile : PathFingerprint → Bool
  | .file _ _ => true
  | .missing | .directory => false

/-- What an operation of a kind may be written with. -/
def exactOperation (operation : ManagedOperation) : Bool :=
  match operation.kind with
  | .createDirectory => operation.expected == .missing && operation.result == .directory
  | .writeFile content =>
      operation.expected != .directory && operation.result == contentFingerprint sha256 content
  | .deleteFile => isFile operation.expected && operation.result == .missing

def freezeManagedOperation (index : Nat) (operation : ManagedOperation) :
    Except PlanRefusal Unit :=
  if operation.operationId ≠ operationIdAt index then .error .stateCorrupt
  else do
    assertDestination lower operation.kind operation.path
    if !validFingerprint operation.expected || !validFingerprint operation.result then
      .error .stateCorrupt
    else if operation.expected = operation.result then .error .stateCorrupt
    else if operation.stagedPath ≠ stagedPathAt operation.kind index ∨
        !exactOperation sha256 operation then .error .stateCorrupt
    else .ok ()

/-- The operations are copied as they are once every one of them is accepted. -/
def freezeManagedPlan (operations : List ManagedOperation) :
    Except PlanRefusal (List ManagedOperation) :=
  if operations = [] then .error .stateCorrupt
  else do
    (operations.mapIdx fun index operation => (index, operation)).forM fun entry =>
      freezeManagedOperation lower sha256 entry.1 entry.2
    validateManagedRelationships lower operations
    return operations

end Freezing

section Publishing

variable (sha256 : JsString → JsString)

/-- The directory a destination sits in; a path with no separator sits in the project root. -/
def parentOf (path : JsString) : JsString :=
  match (segments path).dropLast with
  | [] => js "."
  | parts => joinSegments parts

/-- What publishing an operation of a kind leaves at its path. -/
def published : ManagedKind → PathFingerprint
  | .createDirectory => .directory
  | .writeFile content => contentFingerprint sha256 content
  | .deleteFile => .missing

inductive PublishFailure
  | stateCorrupt (ref : JsString)
  | revisionConflict (ref : JsString)
  deriving DecidableEq, Repr

/-- `assertPublishable` and the publication of one operation. -/
def publishOperation (tree : Tree) (operation : DraftOperation) : Except PublishFailure Tree :=
  if tree (parentOf operation.path) ≠ .directory then .error (.stateCorrupt operation.path)
  else if tree operation.path ≠ operation.expected then .error (.revisionConflict operation.path)
  else .ok (Function.update tree operation.path (published sha256 operation.kind))

end Publishing

end Kratos.Transactions
