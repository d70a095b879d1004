/- source: composition/index.ts
   digest: A plan that is applied with a preview commits what was previewed, or nothing at all. -/

import Kratos.Transactions.CrashRecovery

set_option autoImplicit false

namespace Kratos.Transactions

open Foundation.Text Foundation.JsonText Foundation.Crashes Schema Durable Locks.Guard
open Transactions.Driver

section Previews

/-- One decided destination, never with its bytes. -/
structure PreviewOperation where
  operationId : JsString
  kind : PersistedKind
  path : JsString
  expected : PathFingerprint
  result : PathFingerprint
  deriving DecidableEq, Repr

inductive MutationPreview
  | noop
  | ready (operations : List PreviewOperation) (planDigest : JsString)
  | blocked (reasonCode : ReasonCode) (evidence : List JsString)

inductive ApplyPlanOutcome
  | committed | noop
  deriving DecidableEq, Repr

def previewOperation (operation : ManagedOperation) : PreviewOperation :=
  ⟨operation.operationId, Locks.Guard.persistedKind operation.kind, operation.path, operation.expected,
    operation.result⟩

def MutationPreview.operations : MutationPreview → List PreviewOperation
  | .ready operations _ => operations
  | .noop | .blocked _ _ => []

def planDigestOf (sha256 : JsString → JsString) (plan : List ManagedOperation) : JsString :=
  sha256 (operationsText (plan.map toPersistedManagedOperation))

/-- `previewPlan`, once the mutation is decided. -/
def previewPlan (sha256 : JsString → JsString) : NormalizedPlan → MutationPreview
  | .noop => .noop
  | .ready plan => .ready (plan.map previewOperation) (planDigestOf sha256 plan)

def sameDecision : MutationPreview → MutationPreview → Bool
  | .noop, .noop => true
  | .ready _ expected, .ready _ decided => expected == decided
  | .blocked _ _, .blocked _ _ => true
  | _, _ => false

def sameOperation (left right : PreviewOperation) : Bool :=
  left.kind == right.kind && left.path == right.path && sameFingerprint left.expected right.expected &&
    sameFingerprint left.result right.result

/-- The destination a person can look at to see what moved. -/
def firstDivergence : List PreviewOperation → List PreviewOperation → JsString
  | [], after => (after.head?.map PreviewOperation.path).getD brain
  | operation :: _, [] => operation.path
  | operation :: before, current :: after =>
      if sameOperation current operation then firstDivergence before after else operation.path

def assertPreviewStillHolds (sha256 : JsString → JsString) (normalized : NormalizedPlan) :
    Option MutationPreview → Driver Unit
  | none => return ()
  | some expected =>
      let decided := previewPlan sha256 normalized
      if sameDecision expected decided then return ()
      else .fail (.transaction .revisionConflict [firstDivergence expected.operations decided.operations])

/-- `applyPlan`, once the mutation is decided. -/
def applyPlan (services : TransactionServices) (normalized : NormalizedPlan)
    (options : ExecuteManagedMutationOptions) (transactionId : JsString)
    (expectPreview : Option MutationPreview) : Driver ApplyPlanOutcome := do
  assertPreviewStillHolds services.sha256 normalized expectPreview
  match normalized with
  | .noop => return .noop
  | .ready plan =>
      let receipt ← driveExecution services plan options transactionId
      if receipt.phase ≠ .committed then
        .fail (.transaction .stateCorrupt [progressPath (transactionRoot receipt.transactionId)])
      else return .committed

end Previews

section Digests

abbrev Sized (plan : List ManagedOperation) : Prop :=
  ∀ operation ∈ plan, validFingerprint operation.expected = true ∧ validFingerprint operation.result = true

private theorem formed_operations {plan : List ManagedOperation} (sized : Sized plan) :
    WellFormed (.object [(js "operations",
      (Schema.list persistedOperation).encode (plan.map toPersistedManagedOperation))]) := by
  have operations : WellFormed
      ((Schema.list persistedOperation).encode (plan.map toPersistedManagedOperation)) := by
    refine wellFormed_list fun stored member => ?_
    obtain ⟨operation, inside, rfl⟩ := List.mem_map.mp member
    exact wellFormed_operation (sized operation inside).1 (sized operation inside).2
  simp only [WellFormed, WellFormedMembers, List.map_cons, List.map_nil, List.nodup_singleton, true_and,
    and_true]
  exact operations

/-- The text a plan digest is taken of has every persisted operation of the plan in it. -/
theorem operationsText_injective {left right : List ManagedOperation} (leftSized : Sized left)
    (rightSized : Sized right) (same : operationsText (left.map toPersistedManagedOperation) =
      operationsText (right.map toPersistedManagedOperation)) :
    left.map toPersistedManagedOperation = right.map toPersistedManagedOperation := by
  have blank : Blank [] := fun _ member => absurd member List.not_mem_nil
  have first := parse_canonicalizeJson (formed_operations leftSized) blank
  have second := parse_canonicalizeJson (formed_operations rightSized) blank
  unfold operationsText at same
  rw [same, second] at first
  exact member_injective (Option.some.inj first).symm (List.nodup_singleton _) (List.nodup_singleton _)
    (Schema.list persistedOperation) (js "operations") List.mem_cons_self List.mem_cons_self

theorem previewed_of_persisted {left right : List ManagedOperation}
    (same : left.map toPersistedManagedOperation = right.map toPersistedManagedOperation) :
    left.map previewOperation = right.map previewOperation := by
  let shown (stored : PersistedOperation) : PreviewOperation :=
    ⟨stored.operationId, stored.kind, stored.path, stored.expected, stored.result⟩
  have projected := congrArg (List.map shown) same
  rwa [List.map_map, List.map_map] at projected

end Digests

section Applying

def NormalizedPlan.operations : NormalizedPlan → List ManagedOperation
  | .noop => []
  | .ready plan => plan

variable {u : Undertaking} {previewed : NormalizedPlan} {options : ExecuteManagedMutationOptions}

/-- Plans that are persisted differently have different digests. -/
def Separated (sha256 : JsString → JsString) (left right : List ManagedOperation) : Prop :=
  planDigestOf sha256 left = planDigestOf sha256 right →
    operationsText (left.map toPersistedManagedOperation) =
      operationsText (right.map toPersistedManagedOperation)

/-- An apply of the plan of an undertaking that is given a preview. -/
def applyPreviewed (u : Undertaking) (options : ExecuteManagedMutationOptions)
    (previewed : NormalizedPlan) : Driver ApplyPlanOutcome :=
  applyPlan u.services (.ready u.plan) options u.transactionId
    (some (previewPlan u.services.sha256 previewed))

private theorem ensures_commitDecided (sound : u.Sound) :
    Ensures u.machine (Begun u)
      (fun outcome final => outcome = .committed ∧ ∃ last, Shows u last final ∧
        Destinations u u.plan.length last) (fun _ _ => True)
      (applyPlan u.services (.ready u.plan) options u.transactionId none) u.start := by
  refine (ensures_driveExecution sound).bind fun receipt final ⟨last, shows, settled⟩ => ?_
  have phase : receipt.phase = .committed := settled.phase
  show Ensures _ _ _ _ (if receipt.phase ≠ .committed then _ else _) _
  rw [if_neg (not_not.mpr phase)]
  exact ⟨(shows.upheld (.inr settled.standing.recoverable)).begun, rfl, last, shows, settled.destinations⟩

private theorem applyPreviewed_cases (sound : u.Sound) (sized : Sized previewed.operations)
    (separated : Separated u.services.sha256 previewed.operations u.plan) :
    applyPreviewed u options previewed = .fail (.transaction .revisionConflict [firstDivergence
        (previewed.operations.map previewOperation) (u.plan.map previewOperation)]) ∨
      previewed.operations.map previewOperation = u.plan.map previewOperation ∧
        applyPreviewed u options previewed =
          applyPlan u.services (.ready u.plan) options u.transactionId none := by
  have planned : Sized u.plan := by
    intro operation member
    obtain ⟨index, -, -, frozen⟩ := sound.at_index member
    exact frozen.sized
  cases previewed with
  | noop => exact .inl rfl
  | ready operations =>
      unfold applyPreviewed applyPlan assertPreviewStillHolds
      by_cases same : planDigestOf u.services.sha256 operations = planDigestOf u.services.sha256 u.plan
      · have persisted := operationsText_injective sized planned (separated same)
        refine .inr ⟨previewed_of_persisted persisted, ?_⟩
        simp only [previewPlan, sameDecision, same, BEq.rfl, if_true]
      · refine .inl ?_
        simp only [previewPlan, sameDecision, beq_eq_false_iff_ne.mpr same, Bool.false_eq_true, if_false]
        rfl

/-- An apply that is not refused leaves every previewed result, and nothing else; one whose plan is not
the previewed one is refused before its first durable call. -/
theorem applied_as_previewed (sound : u.Sound) (sized : Sized previewed.operations)
    (separated : Separated u.services.sha256 previewed.operations u.plan) :
    (previewed.operations.map previewOperation ≠ u.plan.map previewOperation →
      run u.machine (applyPreviewed u options previewed) u.start =
          .error (.transaction .revisionConflict [firstDivergence
            (previewed.operations.map previewOperation) (u.plan.map previewOperation)]) ∧
      ∀ left, Cut u.machine (applyPreviewed u options previewed) u.start left → left = u.start) ∧
    ∀ outcome final, run u.machine (applyPreviewed u options previewed) u.start = .ok (outcome, final) →
      outcome = .committed ∧
      (∀ shown ∈ previewed.operations.map previewOperation,
        Node.entry u.services.sha256 (final.held shown.path) = entryOf shown.result) ∧
      ∀ path, Storage.within u.root path = false →
        (∀ shown ∈ previewed.operations.map previewOperation, shown.path ≠ path) →
          final.held path = u.start.held path := by
  rcases applyPreviewed_cases (u := u) sound sized separated with refused | ⟨same, unguarded⟩
  · rw [refused]
    refine ⟨fun _ => ⟨rfl, fun left halted => ?_⟩, fun outcome final ended => by cases ended⟩
    cases halted
    rfl
  · refine ⟨fun changed => absurd same changed, fun outcome final ended => ?_⟩
    rw [unguarded] at ended
    rcases (ensures_commitDecided sound).run with
      ⟨answer, later, answered, committed, last, shows, destinations⟩ | ⟨failure, later, threw, -⟩
    · rw [ended] at answered
      cases answered
      rw [same]
      refine ⟨committed, fun shown member => ?_, fun path outside apart => ?_⟩
      · obtain ⟨operation, inside, rfl⟩ := List.mem_map.mp member
        obtain ⟨index, held⟩ := List.mem_iff_getElem?.mp inside
        have entry := destinations.entry sound held
        rw [if_pos (List.getElem?_eq_some_iff.mp held).1] at entry
        rw [previewOperation, shows.outside (outside_root (sound.outside inside))]
        exact entry
      · rw [shows.outside outside]
        exact destinations.untouched path outside fun operation inside =>
          apart _ (List.mem_map_of_mem inside)
    · rw [ended] at threw
      cases threw

theorem notes_applied :
    ∃ final, run notesUndertaking.machine
        (applyPreviewed notesUndertaking ⟨.existing, [], none⟩ (.ready notesPlan)) notesUndertaking.start =
          .ok (.committed, final) ∧
      ∀ shown ∈ notesPlan.map previewOperation, Node.entry notesUndertaking.services.sha256
        (final.held shown.path) = entryOf shown.result := by
  have ends : (run notesUndertaking.machine
      (applyPreviewed notesUndertaking ⟨.existing, [], none⟩ (.ready notesPlan))
        notesUndertaking.start).isOk = true := by
    decide +kernel
  have sized : Sized (NormalizedPlan.ready notesPlan).operations := (by decide : Sized notesPlan)
  cases ended : run notesUndertaking.machine
      (applyPreviewed notesUndertaking ⟨.existing, [], none⟩ (.ready notesPlan)) notesUndertaking.start with
  | error failure =>
      rw [ended] at ends
      cases ends
  | ok answer =>
      obtain ⟨outcome, final⟩ := answer
      obtain ⟨rfl, results, -⟩ :=
        (applied_as_previewed notes_sound sized fun _ => rfl).2 outcome final ended
      exact ⟨final, rfl, results⟩

end Applying

end Kratos.Transactions
