/- source: domain/write-guard/decision.ts, application/write-guard/policy.ts
   digest: The policy decision on one path and on a request, and what an admitted request can reach. -/

import Kratos.Foundation.Runs
import Kratos.WriteGuard.Inspection
import Kratos.WriteGuard.ScopeDocument

set_option autoImplicit false

namespace Kratos.WriteGuard

open Foundation.Text Foundation.Paths Transactions

section Decision

inductive WriteGuardReason
  | writeBlock
  | scopeDeny
  | outsideAllow
  | scopeCorrupt
  | pathEscape
  | targetUninspectable
deriving DecidableEq, Repr

inductive WriteTargetDecision
  | allowed (target : JsString)
  | refused (reasonCode : WriteGuardReason) (target : JsString)
deriving DecidableEq, Repr

/-- What the guard reads of the guardrails. -/
structure Guardrails where
  writeBlocks : List JsString
deriving DecidableEq, Repr

/-- `value.split(".")`. -/
def dotParts (value : JsString) : List JsString := value.splitOn (unit '.')

def isRealEnvironmentFile (basename : JsString) : Bool :=
  if basename = js ".env" then true
  else if !startsWith basename (js ".env.") then false
  else
    !(dotParts (basename.drop 5)).any fun part =>
      part == js "example" || part == js "sample" || part == js "template"

def immutableWriteBlock (target : JsString) : Bool :=
  let basename := ((segments target).getLast?).getD []
  (segments target).contains (js "migrations") || basename == js "AGENTS.md" ||
    basename == js "CLAUDE.md" || isRealEnvironmentFile basename

def isBrainTarget (target : JsString) : Bool := startsWith target (js ".brain/")

def scopesAgree (recorded reviewed : FeatureScope) : Bool :=
  decide (recorded.allow = reviewed.allow) && decide (recorded.deny = reviewed.deny)

def scopesDiffer : Option FeatureScope → Option FeatureScope → Bool
  | some scope, some reviewerScope => !scopesAgree scope reviewerScope
  | _, _ => false

def decideScope (target : JsString) : Option FeatureScope → WriteTargetDecision
  | none => .allowed target
  | some scope =>
      if matchesOrderedGlobs scope.deny target then .refused .scopeDeny target
      else if !isBrainTarget target && decide (0 < scope.allow.length) &&
          !matchesOrderedGlobs scope.allow target then
        .refused .outsideAllow target
      else .allowed target

def writeBlocksOf (guardrails : Option Guardrails) : List JsString :=
  (guardrails.map Guardrails.writeBlocks).getD []

def decideWriteTarget (target : JsString) (guardrails : Option Guardrails)
    (scope reviewerScope : Option FeatureScope) : WriteTargetDecision :=
  match canonicalizeProjectPath target with
  | .refused .pathEscape resolvedPath => .refused .pathEscape resolvedPath
  | .refused .targetUninspectable resolvedPath => .refused .targetUninspectable resolvedPath
  | .canonical target =>
      if immutableWriteBlock target || matchesOrderedGlobs (writeBlocksOf guardrails) target then
        .refused .writeBlock target
      else if scopesDiffer scope reviewerScope then .refused .scopeCorrupt target
      else decideScope target scope

end Decision

section Policy

inductive PolicyFault
  | activeFeatureCorrupt
  | guardrailsCorrupt
  | guardrailsMissing
  | scopeCorrupt
deriving DecidableEq, Repr

inductive PolicyState
  | valid (guardrails : Guardrails) (scope reviewerScope : Option FeatureScope)
  | invalid (guardrails : Option Guardrails) (reasonCode : PolicyFault) (evidenceRef : JsString)
deriving DecidableEq, Repr

inductive RefusalCode
  | target (reasonCode : WriteGuardReason)
  | policy (reasonCode : PolicyFault)
deriving DecidableEq, Repr

structure CanonicalTarget where
  ordinal : Nat
  lexicalPath : JsString
  canonicalPath : JsString
deriving DecidableEq, Repr

def targetIdentities (target : CanonicalTarget) : List JsString :=
  if target.lexicalPath = target.canonicalPath then [target.lexicalPath]
  else [target.lexicalPath, target.canonicalPath]

/-- A refusal: its reason and the evidence it names. -/
abbrev Refusal := RefusalCode × JsString

/-- One identity of a target against the policy. -/
def evaluateIdentity (guardrails : Option Guardrails) (scope reviewerScope : Option FeatureScope)
    (lexicalPath identity : JsString) : Except Refusal Unit :=
  match decideWriteTarget identity guardrails scope reviewerScope with
  | .allowed _ => .ok ()
  | .refused reasonCode _ => .error (.target reasonCode, lexicalPath)

def evaluateTarget (state : PolicyState) (target : CanonicalTarget) : Except Refusal Unit :=
  match state with
  | .invalid guardrails reasonCode evidenceRef => do
      (targetIdentities target).forM (evaluateIdentity guardrails none none target.lexicalPath)
      if (targetIdentities target).all isBrainTarget then .ok ()
      else .error (.policy reasonCode, evidenceRef)
  | .valid guardrails scope reviewerScope =>
      (targetIdentities target).forM
        (evaluateIdentity (some guardrails) scope reviewerScope target.lexicalPath)

/-- The targets in order, refused at the first refusal. -/
def evaluateWriteRequest (targets : List CanonicalTarget) (state : PolicyState) :
    Except Refusal Unit :=
  targets.forM (evaluateTarget state)

end Policy

section Unblocked

def PolicyState.writeBlocks : PolicyState → List JsString
  | .valid guardrails _ _ => guardrails.writeBlocks
  | .invalid guardrails _ _ => writeBlocksOf guardrails

def PolicyState.scope : PolicyState → Option FeatureScope
  | .valid _ scope _ => scope
  | .invalid _ _ _ => none

def PolicyState.isValid : PolicyState → Bool
  | .valid _ _ _ => true
  | .invalid _ _ _ => false

/-- What the policy promises of a path that it lets through. -/
structure Unblocked (state : PolicyState) (path : JsString) : Prop where
  mutable : immutableWriteBlock path = false
  unguarded : matchesOrderedGlobs state.writeBlocks path = false
  undenied : ∀ scope, state.scope = some scope → matchesOrderedGlobs scope.deny path = false
  repair : state.isValid = false → isBrainTarget path = true

variable {names : List Name} {guardrails : Option Guardrails} {scope reviewerScope : Option FeatureScope}
  {state : PolicyState} {target : CanonicalTarget}

private theorem decideScope_allowed {path shown : JsString}
    (allowed : decideScope path scope = .allowed shown) :
    ∀ present, scope = some present → matchesOrderedGlobs present.deny path = false := by
  rintro present rfl
  rw [decideScope] at allowed
  split at allowed
  · cases allowed
  · rename_i undenied
    simpa using undenied

private theorem evaluateIdentity_ok {lexicalPath : JsString} (filled : names ≠ [])
    (passed : evaluateIdentity guardrails scope reviewerScope lexicalPath (namesPath names) = .ok ()) :
    immutableWriteBlock (namesPath names) = false ∧
      matchesOrderedGlobs (writeBlocksOf guardrails) (namesPath names) = false ∧
      ∀ present, scope = some present →
        matchesOrderedGlobs present.deny (namesPath names) = false := by
  rw [evaluateIdentity] at passed
  split at passed
  · rename_i shown allowed
    rw [decideWriteTarget] at allowed
    split at allowed
    · cases allowed
    · cases allowed
    · rename_i path canonical
      rw [canonicalizeProjectPath_namesPath filled canonical] at allowed
      split at allowed
      · cases allowed
      · rename_i unblocked
        rw [Bool.or_eq_true, not_or, Bool.not_eq_true, Bool.not_eq_true] at unblocked
        split at allowed
        · cases allowed
        · exact ⟨unblocked.1, unblocked.2, decideScope_allowed allowed⟩
  · cases passed

theorem mem_targetIdentities {identity : JsString} :
    identity ∈ targetIdentities target ↔
      identity = target.lexicalPath ∨ identity = target.canonicalPath := by
  rw [targetIdentities]
  split
  · rename_i same
    rw [List.mem_singleton, same, or_self]
  · rw [List.mem_cons, List.mem_singleton]

theorem evaluateTarget_ok (passed : evaluateTarget state target = .ok ()) (filled : names ≠ [])
    (identity : namesPath names ∈ targetIdentities target) : Unblocked state (namesPath names) := by
  cases state with
  | valid guardrails scope reviewerScope =>
      rw [evaluateTarget, Foundation.Runs.forM_ok_iff] at passed
      obtain ⟨mutable, unguarded, undenied⟩ := evaluateIdentity_ok filled (passed _ identity)
      exact ⟨mutable, unguarded, undenied, fun invalid => nomatch invalid⟩
  | invalid guardrails reasonCode evidenceRef =>
      rw [evaluateTarget, Foundation.Runs.bind_ok_iff] at passed
      obtain ⟨⟨⟩, each, repaired⟩ := passed
      rw [Foundation.Runs.forM_ok_iff] at each
      obtain ⟨mutable, unguarded, -⟩ := evaluateIdentity_ok filled (each _ identity)
      refine ⟨mutable, unguarded, fun _ absent => (nomatch absent), fun _ => ?_⟩
      split at repaired
      · rename_i brain
        exact List.all_eq_true.mp brain _ identity
      · cases repaired

theorem evaluateWriteRequest_ok_iff {targets : List CanonicalTarget} :
    evaluateWriteRequest targets state = .ok () ↔
      ∀ target ∈ targets, evaluateTarget state target = .ok () :=
  Foundation.Runs.forM_ok_iff

end Unblocked

end Kratos.WriteGuard
