/- source: domain/acceptance-criteria/policy.ts, composition/workflow.ts
   digest: Current declarations compared with a frozen snapshot and the latest outcomes. -/

import Kratos.Acceptance.DeclaredLine

set_option autoImplicit false

namespace Kratos.Acceptance

open Foundation.Text
open Foundation.Collections (mapGet mapGet_append)

inductive AcceptancePhase
  | prd | spec | plan | code | review | acceptance
deriving DecidableEq, Repr

structure FrozenCriterion where
  criterionId : JsString
  workUnit : JsString
  task : JsString
  kind : AcceptanceCriterionKind
  ordinal : Nat
  declarationDigest : JsString
deriving DecidableEq, Repr

structure CurrentCriterion extends FrozenCriterion where
  checked : Bool
deriving DecidableEq, Repr

inductive CriteriaChangeDecision
  | unchanged
  | append (appendedIds : List JsString)
  | refused (reasonCode : String) (criterionId : JsString)
deriving DecidableEq, Repr

/-- The criterion a declaration is compared as. -/
def currentCriterion (sha256 : JsString → JsString) (declaration : AcceptanceCriterionDeclaration) :
    CurrentCriterion where
  criterionId := declaration.criterionId
  workUnit := declaration.workUnit
  task := declaration.task
  kind := declaration.criterionKind
  ordinal := declaration.ordinal
  declarationDigest := sha256 declaration.normalizedDeclaration
  checked := declaration.checked

def sameDeclaration (left right : FrozenCriterion) : Bool := decide (left = right)

/-- The first frozen criterion whose place holds another declaration. -/
def firstChanged : List FrozenCriterion → List CurrentCriterion → Option FrozenCriterion
  | frozen :: later, current :: rest =>
      if sameDeclaration frozen current.toFrozenCriterion then firstChanged later rest
      else some frozen
  | _, _ => none

/-- The box the latest outcome of a criterion calls for. -/
def expectedBox (latestOutcomes : Outcomes) (criterionId : JsString) : Bool :=
  decide (mapGet latestOutcomes criterionId = some .passed)

/-- The declarations beyond the frozen ones; only acceptance may add any. -/
def appendDecision (phase : AcceptancePhase) : List CurrentCriterion → CriteriaChangeDecision
  | [] => .unchanged
  | first :: rest =>
      if phase = .acceptance then .append ((first :: rest).map (·.criterionId))
      else .refused "gate.ac_append_forbidden" first.criterionId

def compareCriteriaSnapshot (phase : AcceptancePhase) (frozen : List FrozenCriterion)
    (current : List CurrentCriterion) (latestOutcomes : Outcomes) : CriteriaChangeDecision :=
  match firstChanged frozen current with
  | some changed => .refused "gate.ac_declaration_changed" changed.criterionId
  | none =>
  match frozen.drop current.length with
  | removed :: _ => .refused "gate.ac_declaration_changed" removed.criterionId
  | [] =>
  match current.find? fun criterion =>
      criterion.checked != expectedBox latestOutcomes criterion.criterionId with
  | some criterion => .refused "gate.ac_checkbox_forbidden" criterion.criterionId
  | none => appendDecision phase (current.drop frozen.length)

def CriteriaChangeDecision.isRefused : CriteriaChangeDecision → Bool
  | .refused _ _ => true
  | _ => false

/-- The declaration with its box as the outcomes leave it. -/
def AcceptanceCriterionDeclaration.after (outcomes : Outcomes)
    (declaration : AcceptanceCriterionDeclaration) : AcceptanceCriterionDeclaration :=
  { declaration with
    checked := checkedAfter outcomes declaration.criterionId declaration.checked }

section Comparison

variable {sha256 : JsString → JsString} {outcomes : Outcomes}

private theorem currentCriterion_after (declaration : AcceptanceCriterionDeclaration) :
    (currentCriterion sha256 (declaration.after outcomes)).toFrozenCriterion =
      (currentCriterion sha256 declaration).toFrozenCriterion := rfl

private theorem firstChanged_after (frozen : List FrozenCriterion)
    (declarations : List AcceptanceCriterionDeclaration) :
    firstChanged frozen ((declarations.map (·.after outcomes)).map (currentCriterion sha256)) =
      firstChanged frozen (declarations.map (currentCriterion sha256)) := by
  induction declarations generalizing frozen with
  | nil => rfl
  | cons declaration rest ih =>
      cases frozen with
      | nil => rfl
      | cons first later =>
          simp only [List.map_cons, firstChanged, currentCriterion_after, ih]

private theorem box_after {latest : Outcomes} {declaration : AcceptanceCriterionDeclaration}
    (before : mapGet outcomes declaration.criterionId = none →
      declaration.checked = expectedBox latest declaration.criterionId) :
    (declaration.after outcomes).checked =
      expectedBox (latest ++ outcomes) declaration.criterionId := by
  show checkedAfter outcomes declaration.criterionId declaration.checked = _
  unfold checkedAfter expectedBox
  rw [mapGet_append]
  cases reported : mapGet outcomes declaration.criterionId with
  | none => exact before reported
  | some outcome =>
      show decide (outcome = .passed) = decide (some outcome = some .passed)
      exact decide_eq_decide.mpr ⟨congrArg some, Option.some.inj⟩

private theorem boxes_agree {latest : Outcomes}
    {declarations : List AcceptanceCriterionDeclaration}
    (before : ∀ d ∈ declarations, mapGet outcomes d.criterionId = none →
      d.checked = expectedBox latest d.criterionId) :
    (((declarations.map (·.after outcomes)).map (currentCriterion sha256)).find? fun criterion =>
      criterion.checked != expectedBox (latest ++ outcomes) criterion.criterionId) = none := by
  rw [List.find?_eq_none]
  intro criterion member
  obtain ⟨_, inner, rfl⟩ := List.mem_map.mp member
  obtain ⟨declaration, inside, rfl⟩ := List.mem_map.mp inner
  have agrees := box_after (before declaration inside)
  show ¬ ((declaration.after outcomes).checked !=
    expectedBox (latest ++ outcomes) declaration.criterionId) = true
  rw [agrees, bne_self_eq_false]
  exact Bool.false_ne_true

private theorem appendDecision_after (phase : AcceptancePhase)
    (declarations : List AcceptanceCriterionDeclaration) :
    appendDecision phase ((declarations.map (·.after outcomes)).map (currentCriterion sha256)) =
      appendDecision phase (declarations.map (currentCriterion sha256)) := by
  cases declarations with
  | nil => rfl
  | cons first rest =>
      simp only [List.map_cons, List.map_map, appendDecision]
      rfl

theorem compare_eq {phase : AcceptancePhase} {frozen : List FrozenCriterion}
    {current : List CurrentCriterion} {latest : Outcomes}
    (same : firstChanged frozen current = none) (long : frozen.drop current.length = [])
    (shown : (current.find? fun criterion =>
      criterion.checked != expectedBox latest criterion.criterionId) = none) :
    compareCriteriaSnapshot phase frozen current latest =
      appendDecision phase (current.drop frozen.length) := by
  unfold compareCriteriaSnapshot
  rw [same, long, shown]

theorem compare_admitted {phase : AcceptancePhase} {frozen : List FrozenCriterion}
    {current : List CurrentCriterion} {latest : Outcomes}
    (admitted : (compareCriteriaSnapshot phase frozen current latest).isRefused = false) :
    firstChanged frozen current = none ∧ frozen.drop current.length = [] ∧
      (current.find? fun criterion =>
        criterion.checked != expectedBox latest criterion.criterionId) = none := by
  unfold compareCriteriaSnapshot at admitted
  split at admitted
  · cases admitted
  split at admitted
  · cases admitted
  split at admitted
  · cases admitted
  · next same _ long _ shown => exact ⟨same, long, shown⟩

/-- A document that was not refused is judged the same once the outcomes are written in its boxes
and recorded. -/
theorem compare_after (phase : AcceptancePhase) (frozen : List FrozenCriterion) (latest : Outcomes)
    {declarations : List AcceptanceCriterionDeclaration}
    (admitted : (compareCriteriaSnapshot phase frozen (declarations.map (currentCriterion sha256))
      latest).isRefused = false) :
    compareCriteriaSnapshot phase frozen
        ((declarations.map (·.after outcomes)).map (currentCriterion sha256)) (latest ++ outcomes) =
      compareCriteriaSnapshot phase frozen (declarations.map (currentCriterion sha256)) latest := by
  obtain ⟨same, long, shown⟩ := compare_admitted admitted
  have before : ∀ d ∈ declarations, mapGet outcomes d.criterionId = none →
      d.checked = expectedBox latest d.criterionId := by
    intro d member _
    have agrees := List.find?_eq_none.mp shown (currentCriterion sha256 d)
      (List.mem_map_of_mem member)
    have equal : (d.checked != expectedBox latest d.criterionId) = false :=
      (Bool.not_eq_true _).mp agrees
    exact bne_eq_false_iff_eq.mp equal
  rw [compare_eq same long shown, compare_eq]
  · rw [← List.map_drop, ← List.map_drop, ← List.map_drop, appendDecision_after]
  · rw [firstChanged_after, same]
  · rw [List.length_map, List.length_map]
    rw [List.length_map] at long
    exact long
  · exact boxes_agree before

/-- Against the snapshot of the document itself, nothing has changed once the outcomes are written,
as long as the boxes without a new outcome show the latest one. -/
theorem compare_fresh (phase : AcceptancePhase) {latest : Outcomes}
    {declarations : List AcceptanceCriterionDeclaration}
    (before : ∀ d ∈ declarations, mapGet outcomes d.criterionId = none →
      d.checked = expectedBox latest d.criterionId) :
    compareCriteriaSnapshot phase
        (declarations.map fun d => (currentCriterion sha256 d).toFrozenCriterion)
        ((declarations.map (·.after outcomes)).map (currentCriterion sha256))
        (latest ++ outcomes) = .unchanged := by
  have same : ∀ all : List AcceptanceCriterionDeclaration,
      firstChanged (all.map fun d => (currentCriterion sha256 d).toFrozenCriterion)
        (all.map (currentCriterion sha256)) = none := by
    intro all
    induction all with
    | nil => rfl
    | cons first rest ih =>
        have head : sameDeclaration (currentCriterion sha256 first).toFrozenCriterion
            (currentCriterion sha256 first).toFrozenCriterion = true := decide_eq_true rfl
        rw [List.map_cons, List.map_cons, firstChanged, if_pos head, ih]
  rw [compare_eq]
  · rw [List.drop_of_length_le (by simp only [List.length_map, Nat.le_refl])]
    rfl
  · rw [firstChanged_after, same]
  · exact List.drop_of_length_le (by simp only [List.length_map, Nat.le_refl])
  · exact boxes_agree before

end Comparison

end Kratos.Acceptance
