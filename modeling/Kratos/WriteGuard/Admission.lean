/- source: application/write-guard/targets.ts, application/write-guard/policy.ts
   digest: What the writes of an admitted request can reach, and the links that deceive the guard. -/

import Kratos.Relay.PatchReader
import Kratos.WriteGuard.Decision

set_option autoImplicit false

namespace Kratos.WriteGuard

open Foundation.Text Foundation.PathWalk Foundation.Runs
open Relay (Mutation)
open Transactions (Kept)

section Requests

variable (tree : Foundation.PathWalk.Tree Name) (limit : Nat) (root : List Name)

/-- Flatten mutations without losing request order; moves are source first. -/
def extractMutationTargets (mutations : List Mutation) : List JsString :=
  mutations.flatMap fun mutation =>
    match mutation with
    | .move source destination => [source, destination]
    | .change _ path => [path]

def inspectMutationTarget (target : JsString) (ordinal : Nat) :
    Except (WriteGuardReason × Nat) CanonicalTarget :=
  match inspect tree limit root target with
  | .inside lexicalPath canonicalPath => .ok ⟨ordinal, lexicalPath, canonicalPath⟩
  | .escape => .error (.pathEscape, ordinal)
  | .uninspectable => .error (.targetUninspectable, ordinal)

/-- The targets in order, stopped at the first refusal. -/
def inspectMutationTargets (mutations : List Mutation) :
    Except (WriteGuardReason × Nat) (List CanonicalTarget) :=
  ((extractMutationTargets mutations).zipIdx 1).mapM fun (target, ordinal) =>
    inspectMutationTarget tree limit root target ordinal

def parentFollowsLink (target : JsString) : Bool :=
  dropsLink tree limit (startOf root target) (stepsOf target)

/-- Wherever a write through the target ends is below the root and unblocked. -/
def LandsUnblocked (state : PolicyState) (target : JsString) : Prop :=
  ∀ place, location tree limit root target = .ok place →
    ∃ rest, place = root ++ rest ∧ Unblocked state (namesPath rest)

end Requests

section Admission

variable {tree : Foundation.PathWalk.Tree Name} {limit : Nat} {root : List Name} {state : PolicyState}
  {mutations : List Mutation} {inspected : List CanonicalTarget}

theorem inspectMutationTarget_ok {target : JsString} {ordinal : Nat} {found : CanonicalTarget}
    (inspected : inspectMutationTarget tree limit root target ordinal = .ok found) :
    ∃ names real,
      Inspected tree limit root target found.lexicalPath found.canonicalPath names real := by
  rw [inspectMutationTarget] at inspected
  split at inspected
  · rename_i lexicalPath canonicalPath within
    obtain rfl := Except.ok.inj inspected
    exact inspect_inside within
  · cases inspected
  · cases inspected

private theorem allowed_target {target : JsString} {ordinal : Nat} {found : CanonicalTarget}
    (inspected : inspectMutationTarget tree limit root target ordinal = .ok found)
    (allowed : evaluateTarget state found = .ok ()) :
    Unblocked state found.lexicalPath ∧
      (parentFollowsLink tree limit root target = false →
        LandsUnblocked tree limit root state target) := by
  obtain ⟨names, real, stands⟩ := inspectMutationTarget_ok inspected
  constructor
  · rw [stands.lexical]
    exact evaluateTarget_ok allowed stands.named (mem_targetIdentities.mpr (.inl stands.lexical.symm))
  · intro kept place located
    refine ⟨real, stands.location located kept, ?_⟩
    exact evaluateTarget_ok allowed stands.placed
      (mem_targetIdentities.mpr (.inr stands.canonical.symm))

private theorem mem_inspected
    (inspectedAll : inspectMutationTargets tree limit root mutations = .ok inspected) :
    (∀ target ∈ extractMutationTargets mutations, ∃ ordinal, ∃ found ∈ inspected,
      inspectMutationTarget tree limit root target ordinal = .ok found) ∧
    ∀ found ∈ inspected, ∃ target ordinal,
      inspectMutationTarget tree limit root target ordinal = .ok found := by
  obtain ⟨forward, backward⟩ := mapM_ok_mem inspectedAll
  constructor
  · intro target member
    rw [← List.zipIdx_map_fst 1 (extractMutationTargets mutations)] at member
    obtain ⟨⟨_, ordinal⟩, inside, rfl⟩ := List.mem_map.mp member
    obtain ⟨found, present, passed⟩ := forward _ inside
    exact ⟨ordinal, found, present, passed⟩
  · intro found present
    obtain ⟨⟨target, ordinal⟩, -, passed⟩ := backward found present
    exact ⟨target, ordinal, passed⟩

/-- Where the targets of a request lie below the root and no policy blocks them: exactly where this
holds of the targets whose parent segments follow a link. -/
theorem admitted_request_iff
    (inspectedAll : inspectMutationTargets tree limit root mutations = .ok inspected) :
    (evaluateWriteRequest inspected state = .ok () ↔
      ∀ target ∈ inspected, evaluateWriteRequest [target] state = .ok ()) ∧
    (evaluateWriteRequest inspected state = .ok () →
      (((∀ target ∈ extractMutationTargets mutations, LandsUnblocked tree limit root state target) ∧
          ∀ target ∈ inspected, Unblocked state target.lexicalPath) ↔
        ∀ target ∈ extractMutationTargets mutations,
          parentFollowsLink tree limit root target = true →
            LandsUnblocked tree limit root state target)) := by
  obtain ⟨each, back⟩ := mem_inspected inspectedAll
  constructor
  · rw [evaluateWriteRequest_ok_iff]
    constructor
    · intro all target member
      rw [evaluateWriteRequest_ok_iff]
      intro only same
      rw [List.mem_singleton.mp same]
      exact all target member
    · intro all target member
      exact evaluateWriteRequest_ok_iff.mp (all target member) target (List.mem_singleton_self _)
  · intro allowed
    rw [evaluateWriteRequest_ok_iff] at allowed
    constructor
    · rintro ⟨lands, -⟩ target member -
      exact lands target member
    · intro linked
      constructor
      · intro target member
        obtain ⟨ordinal, found, inside, inspected⟩ := each target member
        cases followed : parentFollowsLink tree limit root target with
        | true => exact linked target member followed
        | false => exact (allowed_target inspected (allowed found inside)).2 followed
      · intro found inside
        obtain ⟨target, ordinal, inspected⟩ := back found inside
        exact (allowed_target inspected (allowed found inside)).1

end Admission

section Example

/-- A project `p` that holds a link `l` to a directory `o` beside it. -/
def nameOf (text : String) (kept : Kept (js text)) (plain : unit '/' ∉ js text) : Name :=
  ⟨js text, kept, plain⟩

def project : Name := nameOf "p" (by decide) (by decide)
def linkName : Name := nameOf "l" (by decide) (by decide)
def other : Name := nameOf "o" (by decide) (by decide)
def deep : Name := nameOf "d" (by decide) (by decide)

def linkedEntry (place : List Name) : Option (Entry Name) :=
  if place = [] ∨ place = [project] ∨ place = [other] ∨ place = [other, deep] then some .directory
  else if place = [project, linkName] then some (.link true [.name other, .name deep])
  else none

private theorem linkedEntry_parent (place : List Name) (n : Name)
    (present : linkedEntry (place ++ [n]) ≠ none) : linkedEntry place = some .directory := by
  match place, present with
  | [], _ => rfl
  | [first], present =>
      have known : first = project ∨ first = other := by
        by_contra stranger
        rw [not_or] at stranger
        apply present
        simp [linkedEntry, stranger]
      rcases known with rfl | rfl <;> rfl
  | first :: second :: rest, present =>
      refine absurd ?_ present
      simp [linkedEntry]

def linkedTree : Foundation.PathWalk.Tree Name where
  entry := linkedEntry
  root := rfl
  parent := linkedEntry_parent

def openPolicy : PolicyState := .valid ⟨[]⟩ none none

/-- The target `l/../x` is judged as `x` and reaches `/o/x`. -/
theorem parent_of_link_escapes :
    ∃ found, inspectMutationTargets linkedTree 40 [project] [.change .create (js "l/../x")] = .ok found ∧
      evaluateWriteRequest found openPolicy = .ok () ∧
      ¬ LandsUnblocked linkedTree 40 [project] openPolicy (js "l/../x") := by
  refine ⟨[⟨1, js "x", js "x"⟩], by decide +kernel, by decide +kernel, ?_⟩
  intro lands
  obtain ⟨rest, outside, -⟩ := lands [other, nameOf "x" (by decide) (by decide)] (by decide +kernel)
  exact absurd (List.cons.inj outside).1 (by decide)

/-- A parent segment that drops a plain name lands where it was judged. -/
theorem parent_of_name_lands :
    LandsUnblocked linkedTree 40 [project] openPolicy (js "x/../y") := by
  have inspected : inspectMutationTargets linkedTree 40 [project]
      [.change .update (js "x/../y")] = .ok [⟨1, js "y", js "y"⟩] := by decide +kernel
  have allowed : evaluateWriteRequest [⟨1, js "y", js "y"⟩] openPolicy = .ok () := by decide +kernel
  refine (((admitted_request_iff inspected).2 allowed).mpr ?_).1 _ (List.mem_singleton_self _)
  intro target member followed
  rw [extractMutationTargets, List.flatMap_singleton, List.mem_singleton] at member
  subst member
  exact absurd followed (by decide +kernel)

end Example

end Kratos.WriteGuard
