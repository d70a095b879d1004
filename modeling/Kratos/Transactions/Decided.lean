/- source: domain/transactions/recovery.ts
   digest: What recovery decides on an observation that agrees with the manifest and the progress. -/

import Kratos.Foundation.Sorting
import Kratos.Transactions.RecoverySoundness

set_option autoImplicit false

namespace Kratos.Transactions

open Foundation.Text Foundation.Collections
open Locks.Guard (PersistedOperation)

variable {manifest : TransactionManifest} {progress : TransactionProgress}
  {observation : TransactionObservation} {destinations : Observations}
  {operations : List PersistedOperation} {front : Nat}

/-- The manifest and the progress belong together, and nothing unknown is staged. -/
structure Coherent (manifest : TransactionManifest) (progress : TransactionProgress)
    (observation : TransactionObservation) : Prop where
  identity : hasValidIdentity manifest progress = true
  sane : findManifestFailure [] [] [] manifest.operations = none
  published : hasValidPublishedPrefix progress
    (manifest.operations.map PersistedOperation.operationId) = true
  known : hasUnexpectedStagedContent manifest observation = false

theorem Coherent.decide (coherent : Coherent manifest progress observation) :
    decideRecovery manifest progress observation = decidePhase manifest progress observation := by
  simp only [decideRecovery, coherent.identity, coherent.sane, coherent.published, coherent.known,
    Bool.not_true, Bool.false_eq_true, if_false]

theorem Coherent.changes (coherent : Coherent manifest progress observation)
    {operation : PersistedOperation} (member : operation ∈ manifest.operations) :
    operation.expected ≠ operation.result :=
  ((findManifestFailure_none_iff List.nodup_nil List.nodup_nil List.nodup_nil).mp coherent.sane).2.2.2
    operation member

section Prefixes

/-- How many of the operations may be recorded at a phase. -/
def mayRecord (total count : Nat) : TransactionPhase → Prop
  | .begun | .prepared | .aborted => count = 0
  | .committed => total ≤ count
  | .publishing => True

/-- The first operations of a manifest are a valid record at every phase they may stand at. -/
theorem hasValidPublishedPrefix_take {operationIds : List JsString} (distinct : operationIds.Nodup)
    {count : Nat} (recorded : progress.publishedOperationIds = operationIds.take count)
    (allowed : mayRecord operationIds.length count progress.phase) :
    hasValidPublishedPrefix progress operationIds = true := by
  have unique : progress.publishedOperationIds.Nodup := by
    rw [recorded]
    exact distinct.sublist (List.take_sublist count operationIds)
  have once : progress.publishedOperationIds.eraseDups = progress.publishedOperationIds :=
    Foundation.Sorting.eraseDups_eq_self unique
  have agree : ¬ ∃ entry ∈ progress.publishedOperationIds.zipIdx,
      (operationIds[entry.2]? != some entry.1) = true := by
    rintro ⟨⟨operationId, index⟩, member, differs⟩
    have held := List.mem_zipIdx_iff_getElem?.mp member
    rw [recorded, List.getElem?_take] at held
    split at held
    · simp [held] at differs
    · cases held
  simp only [hasValidPublishedPrefix, once, ne_eq, not_true_eq_false, if_false, List.any_eq_true]
  rw [if_neg agree]
  cases phase : progress.phase with
  | begun | prepared | aborted =>
      rw [phase] at allowed
      have none : count = 0 := allowed
      simp [recorded, none]
  | committed =>
      rw [phase] at allowed
      simp [recorded, List.take_of_length_le allowed]
  | publishing => simp [recorded]

end Prefixes

section Counting

private theorem countResults_rest {counted : Nat} (changes : ∀ operation ∈ operations,
      operation.expected ≠ operation.result) (standing : AtFront destinations operations 0) :
    countResults destinations counted true operations = .ok counted := by
  induction operations with
  | nil => rfl
  | cons operation rest ih =>
      have first := atFront_zero_iff.mp standing operation List.mem_cons_self
      have later : AtFront destinations rest 0 := atFront_zero_iff.mpr fun other member =>
        atFront_zero_iff.mp standing other (List.mem_cons_of_mem _ member)
      have other : sameFingerprint operation.expected operation.result = false := by
        rw [Bool.eq_false_iff]
        intro same
        exact changes operation List.mem_cons_self (sameFingerprint_iff.mp same)
      rw [countResults, first]
      simp only [other, sameFingerprint_iff.mpr rfl, Bool.false_eq_true, if_false, if_true]
      exact ih (fun other member => changes other (List.mem_cons_of_mem _ member)) later

theorem countResults_front {counted : Nat} (changes : ∀ operation ∈ operations,
      operation.expected ≠ operation.result) (bounded : front ≤ operations.length)
    (standing : AtFront destinations operations front) :
    countResults destinations counted false operations = .ok (counted + front) := by
  induction operations generalizing counted front with
  | nil =>
      obtain rfl : front = 0 := by simpa using bounded
      rfl
  | cons operation rest ih =>
      cases front with
      | zero =>
          have first := standing 0 operation rfl
          rw [if_neg (Nat.lt_irrefl 0)] at first
          have other : sameFingerprint operation.expected operation.result = false := by
            rw [Bool.eq_false_iff]
            intro same
            exact changes operation List.mem_cons_self (sameFingerprint_iff.mp same)
          have later : AtFront destinations rest 0 := atFront_zero_iff.mpr fun other member =>
            atFront_zero_iff.mp standing other (List.mem_cons_of_mem _ member)
          rw [countResults, first]
          simp only [other, sameFingerprint_iff.mpr rfl, Bool.false_eq_true, if_false, if_true]
          exact countResults_rest (fun other member => changes other (List.mem_cons_of_mem _ member))
            later
      | succ front =>
          have first := standing 0 operation rfl
          rw [if_pos (Nat.succ_pos front)] at first
          have later : AtFront destinations rest front := by
            intro index other held
            have there := standing (index + 1) other held
            simpa only [Nat.add_lt_add_iff_right] using there
          rw [countResults, first]
          simp only [sameFingerprint_iff.mpr rfl, Bool.false_eq_true, if_false, if_true]
          rw [ih (fun other member => changes other (List.mem_cons_of_mem _ member))
            (Nat.le_of_succ_le_succ bounded) later]
          congr 1
          omega

end Counting

section Payloads

/-- Every payload that is left is its operation's result. -/
def Leftover (observation : TransactionObservation) (operation : PersistedOperation) : Prop :=
  ∀ stagedPath ∈ operation.stagedPath,
    lookup observation.stagedPayloads stagedPath = .missing ∨
      lookup observation.stagedPayloads stagedPath = operation.result

theorem inspectPayloads_leftover (hasPayload : Bool)
    (each : ∀ operation ∈ operations, Leftover observation operation) :
    ∃ left, inspectPayloads observation hasPayload operations = .ok left := by
  induction operations generalizing hasPayload with
  | nil => exact ⟨hasPayload, rfl⟩
  | cons operation rest ih =>
      have later : ∀ other ∈ rest, Leftover observation other :=
        fun other member => each other (List.mem_cons_of_mem _ member)
      have first := each operation List.mem_cons_self
      rw [inspectPayloads]
      cases staged : operation.stagedPath with
      | none => exact ih hasPayload later
      | some stagedPath =>
          simp only
          split
          · exact ih hasPayload later
          · rename_i there
            have result := (first stagedPath staged).resolve_left there
            rw [result, sameFingerprint_iff.mpr rfl]
            exact ih true later

theorem inspectPayloads_gone {hasPayload : Bool}
    (each : ∀ operation ∈ operations, ∀ stagedPath ∈ operation.stagedPath,
      lookup observation.stagedPayloads stagedPath = .missing) :
    inspectPayloads observation hasPayload operations = .ok hasPayload := by
  induction operations with
  | nil => rfl
  | cons operation rest ih =>
      have later := ih fun other member => each other (List.mem_cons_of_mem _ member)
      rw [inspectPayloads]
      cases staged : operation.stagedPath with
      | none => exact later
      | some stagedPath =>
          simp only
          rw [if_pos (each operation List.mem_cons_self stagedPath staged)]
          exact later

end Payloads

section Decisions

/-- A prepared transaction with untouched destinations and whole payloads is aborted. -/
theorem decide_prepared (coherent : Coherent manifest progress observation)
    (phase : progress.phase = .prepared)
    (standing : ∀ operation ∈ manifest.operations,
      mapGet observation.destinations operation.path = some operation.expected)
    (intact : ∀ operation ∈ manifest.operations, ∀ stagedPath ∈ operation.stagedPath,
      mapGet observation.stagedPayloads stagedPath = some operation.result) :
    decideRecovery manifest progress observation = .abort := by
  have payloads : findUnpublishablePayload manifest observation = none := by
    rw [findUnpublishablePayload, Option.map_eq_none_iff, List.find?_eq_none]
    intro operation member
    cases staged : operation.stagedPath with
    | none => simp
    | some stagedPath => simp [intact operation member stagedPath staged]
  have untouched : findUnexpectedPrepublicationDestination manifest observation = none :=
    findOtherDestination_none_iff.mpr standing
  rw [coherent.decide, decidePhase, phase]
  simp only [untouched, payloads]

/-- An aborted transaction is cleaned up while payloads are left, and complete when none is. -/
theorem decide_aborted (coherent : Coherent manifest progress observation)
    (phase : progress.phase = .aborted)
    (leftover : ∀ operation ∈ manifest.operations, Leftover observation operation) :
    decideRecovery manifest progress observation = .cleanup .aborted ∨
      decideRecovery manifest progress observation = .complete .aborted := by
  obtain ⟨left, inspected⟩ := inspectPayloads_leftover false leftover
  rw [coherent.decide, decidePhase, phase]
  simp only [decideTerminal, inspected]
  cases left with
  | true => exact .inl rfl
  | false => exact .inr rfl

theorem decide_aborted_gone (coherent : Coherent manifest progress observation)
    (phase : progress.phase = .aborted)
    (gone : ∀ operation ∈ manifest.operations, ∀ stagedPath ∈ operation.stagedPath,
      lookup observation.stagedPayloads stagedPath = .missing) :
    decideRecovery manifest progress observation = .complete .aborted := by
  rw [coherent.decide, decidePhase, phase]
  simp only [decideTerminal, inspectPayloads_gone gone]

theorem decide_committed (coherent : Coherent manifest progress observation)
    (phase : progress.phase = .committed)
    (standing : ∀ operation ∈ manifest.operations,
      mapGet observation.destinations operation.path = some operation.result)
    (gone : ∀ operation ∈ manifest.operations, ∀ stagedPath ∈ operation.stagedPath,
      lookup observation.stagedPayloads stagedPath = .missing) :
    decideRecovery manifest progress observation = .complete .committed := by
  have published : findNonResultDestination manifest observation = none :=
    findOtherDestination_none_iff.mpr standing
  rw [coherent.decide, decidePhase, phase]
  simp only [published, decideTerminal, inspectPayloads_gone gone]

/-- A transaction that is being published goes on where it stands: what is done but not recorded is
recorded, then the next operation is published, and after the last one it is committed. -/
theorem decide_publishing (coherent : Coherent manifest progress observation)
    (phase : progress.phase = .publishing) (bounded : front ≤ manifest.operations.length)
    (standing : AtFront observation.destinations manifest.operations front)
    (payloads : ∀ index operation, manifest.operations[index]? = some operation →
      if index < front then
        ∀ stagedPath ∈ operation.stagedPath, lookup observation.stagedPayloads stagedPath = .missing
      else Intact observation operation) {count : Nat} (behind : count ≤ front)
    (recorded : progress.publishedOperationIds =
      (manifest.operations.map PersistedOperation.operationId).take count) :
    decideRecovery manifest progress observation =
      if count < front then
        match manifest.operations[count]? with
        | some operation => .recordPublished operation.operationId
        | none => .commit
      else
        match manifest.operations[front]? with
        | some operation => .publish operation.operationId
        | none => .commit := by
  have counted : countResults observation.destinations 0 false manifest.operations = .ok front := by
    rw [countResults_front (fun operation member => coherent.changes member) bounded standing,
      Nat.zero_add]
  have length : progress.publishedOperationIds.length = count := by
    rw [recorded, List.length_take, List.length_map]
    omega
  have nothing : (progress.publishedOperationIds.drop front).head? = none := by
    rw [List.drop_eq_nil_of_le (by omega)]
    rfl
  have whole : findPublishingPayloadFailure manifest observation front = none :=
    findPublishingPayloadFailure_none_iff.mpr payloads
  rw [coherent.decide, decidePhase, phase]
  simp only [decidePublishing, counted, nothing, whole, length]
  by_cases less : count < front
  · have there : count < manifest.operations.length := Nat.lt_of_lt_of_le less bounded
    have head : ((manifest.operations.take front).drop count).head? = some manifest.operations[count] := by
      rw [List.head?_drop, List.getElem?_take, if_pos less, List.getElem?_eq_getElem there]
    simp only [head, if_pos less, List.getElem?_eq_getElem there]
  · have same : count = front := by omega
    have head : ((manifest.operations.take front).drop count).head? = none := by
      rw [List.head?_drop, List.getElem?_take, if_neg less]
    simp only [head, if_neg less]
    cases manifest.operations[front]? <;> rfl

end Decisions

end Kratos.Transactions
