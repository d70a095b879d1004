/- source: domain/transactions/recovery.ts, tests/transaction-recovery-properties.test.ts
   digest: Recovery answers only what the observed destinations bear out. -/

import Kratos.Transactions.Recovery

set_option autoImplicit false

namespace Kratos.Transactions

open Foundation.Text Foundation.Collections Durable
open Locks.Guard (PersistedOperation)

section Front

/-- Destinations whose operations before the front are done and whose others are not begun. -/
def AtFront (destinations : Observations) (operations : List PersistedOperation) (front : Nat) : Prop :=
  ∀ index operation, operations[index]? = some operation →
    mapGet destinations operation.path =
      some (if index < front then operation.result else operation.expected)

variable {destinations : Observations} {operation : PersistedOperation}
  {operations : List PersistedOperation} {front : Nat}

theorem atFront_nil : AtFront destinations [] front := by
  intro index operation held
  cases held

theorem atFront_zero_iff : AtFront destinations operations 0 ↔
    ∀ operation ∈ operations, mapGet destinations operation.path = some operation.expected := by
  constructor
  · intro standing operation member
    obtain ⟨index, held⟩ := List.mem_iff_getElem?.mp member
    exact standing index operation held
  · intro each index operation held
    exact each operation (List.mem_of_getElem? held)

theorem atFront_length_iff : AtFront destinations operations operations.length ↔
    ∀ operation ∈ operations, mapGet destinations operation.path = some operation.result := by
  constructor
  · intro standing operation member
    obtain ⟨index, held⟩ := List.mem_iff_getElem?.mp member
    have within := (List.getElem?_eq_some_iff.mp held).1
    have there := standing index operation held
    rwa [if_pos within] at there
  · intro each index operation held
    rw [if_pos (List.getElem?_eq_some_iff.mp held).1]
    exact each operation (List.mem_of_getElem? held)

theorem AtFront.cons (first : mapGet destinations operation.path = some operation.result)
    (standing : AtFront destinations operations front) :
    AtFront destinations (operation :: operations) (front + 1) := by
  intro index other held
  cases index with
  | zero =>
      cases held
      rw [if_pos (Nat.succ_pos front)]
      exact first
  | succ index =>
      rw [standing index other held]
      simp only [Nat.add_lt_add_iff_right]

theorem AtFront.within (standing : AtFront destinations operations front)
    (member : operation ∈ operations) :
    mapGet destinations operation.path = some operation.expected ∨
      mapGet destinations operation.path = some operation.result := by
  obtain ⟨index, held⟩ := List.mem_iff_getElem?.mp member
  have there := standing index operation held
  split at there
  · exact .inr there
  · exact .inl there

end Front

section Checks

@[simp] theorem sameFingerprint_iff {left right : PathFingerprint} :
    sameFingerprint left right = true ↔ left = right := by
  cases left <;> cases right <;> simp [sameFingerprint]

variable {observation : TransactionObservation} {manifest : TransactionManifest}
  {progress : TransactionProgress}

/-- A destination check passes exactly when every destination holds what it should. -/
theorem findOtherDestination_none_iff {wanted : PersistedOperation → PathFingerprint} :
    findOtherDestination wanted manifest observation = none ↔
      ∀ operation ∈ manifest.operations,
        mapGet observation.destinations operation.path = some (wanted operation) := by
  rw [findOtherDestination, Option.map_eq_none_iff, List.find?_eq_none]
  refine forall₂_congr fun operation member => ?_
  cases mapGet observation.destinations operation.path with
  | none => simp
  | some destination => simp

/-- The identifiers, paths and payloads of a manifest that has no failure are its operations' own, and
every operation changes something. -/
theorem findManifestFailure_none_iff {operations : List PersistedOperation}
    {operationIds paths stagedPaths : List JsString} (ids : operationIds.Nodup) (targets : paths.Nodup)
    (payloads : stagedPaths.Nodup) :
    findManifestFailure operationIds paths stagedPaths operations = none ↔
      (operationIds ++ operations.map PersistedOperation.operationId).Nodup ∧
        (paths ++ operations.map PersistedOperation.path).Nodup ∧
        (stagedPaths ++ operations.filterMap PersistedOperation.stagedPath).Nodup ∧
        ∀ operation ∈ operations, operation.expected ≠ operation.result := by
  induction operations generalizing operationIds paths stagedPaths with
  | nil => simp [findManifestFailure, ids, targets, payloads]
  | cons operation rest ih =>
      have longer : ∀ {seen : List JsString} {item : JsString} {items : List JsString},
          (seen ++ item :: items).Nodup → item ∉ seen := by
        intro seen item items unique member
        exact (List.nodup_append.mp unique).2.2 item member item List.mem_cons_self rfl
      have staged : (stagedPaths ++ (operation :: rest).filterMap PersistedOperation.stagedPath) =
          stagedPaths ++ operation.stagedPath.toList ++ rest.filterMap PersistedOperation.stagedPath := by
        cases payload : operation.stagedPath with
        | none => simp [payload]
        | some path => simp [payload]
      rw [findManifestFailure, List.map_cons, List.map_cons, staged]
      split
      · rename_i repeated
        rw [Bool.or_eq_true, Bool.or_eq_true, List.contains_iff_mem, List.contains_iff_mem,
          Option.any_eq_true] at repeated
        refine ⟨(nomatch ·), fun ⟨idsKept, targetsKept, payloadsKept, _⟩ => ?_⟩
        rcases repeated with (seen | seen) | ⟨path, held, seen⟩
        · exact absurd seen (longer idsKept)
        · exact absurd seen (longer targetsKept)
        · rw [held, Option.toList_some, List.append_assoc] at payloadsKept
          exact absurd (List.contains_iff_mem.mp seen) (longer payloadsKept)
      · rename_i fresh
        rw [Bool.or_eq_true, Bool.or_eq_true, List.contains_iff_mem, List.contains_iff_mem,
          Option.any_eq_true, not_or, not_or] at fresh
        obtain ⟨⟨freshId, freshPath⟩, freshPayload⟩ := fresh
        split
        · rename_i idle
          rw [sameFingerprint_iff] at idle
          exact ⟨(nomatch ·), fun ⟨_, _, _, each⟩ => absurd idle (each operation List.mem_cons_self)⟩
        · rename_i changes
          rw [sameFingerprint_iff] at changes
          have appended : ∀ {seen : List JsString} {item : JsString}, seen.Nodup → item ∉ seen →
              (seen ++ [item]).Nodup := fun unique absent =>
            unique.append (List.nodup_singleton _) (List.disjoint_singleton.mpr absent)
          have grown : (stagedPaths ++ operation.stagedPath.toList).Nodup := by
            cases payload : operation.stagedPath with
            | none => simpa using payloads
            | some path =>
                refine appended payloads fun member => ?_
                exact freshPayload ⟨path, payload, List.contains_iff_mem.mpr member⟩
          rw [ih (appended ids freshId) (appended targets freshPath) grown]
          simp [changes]

/-- The published operations are the first ones of the manifest, as many as the phase allows. -/
theorem hasValidPublishedPrefix_spec {operationIds : List JsString}
    (valid : hasValidPublishedPrefix progress operationIds = true) :
    progress.publishedOperationIds = operationIds.take progress.publishedOperationIds.length ∧
      match progress.phase with
      | .begun | .prepared | .aborted => progress.publishedOperationIds = []
      | .committed => progress.publishedOperationIds = operationIds
      | .publishing => progress.publishedOperationIds.length ≤ operationIds.length := by
  unfold hasValidPublishedPrefix at valid
  simp only at valid
  split at valid
  · cases valid
  · split at valid
    · cases valid
    · rename_i agree
      have each : ∀ (index : Nat) (operationId : JsString), progress.publishedOperationIds[index]? = some operationId →
          operationIds[index]? = some operationId := by
        intro index operationId held
        rw [List.any_eq_true, not_exists] at agree
        by_contra other
        refine agree (operationId, index) ⟨List.mem_zipIdx_iff_getElem?.mpr held, ?_⟩
        simpa using other
      have front : progress.publishedOperationIds =
          operationIds.take progress.publishedOperationIds.length := by
        apply List.ext_getElem?
        intro index
        rw [List.getElem?_take]
        split
        · rename_i within
          rw [each index _ (List.getElem?_eq_getElem within), List.getElem?_eq_getElem within]
        · rename_i beyond
          exact List.getElem?_eq_none (Nat.le_of_not_lt beyond)
      refine ⟨front, ?_⟩
      cases phase : progress.phase with
      | begun | prepared | aborted =>
          rw [phase, decide_eq_true_eq] at valid
          exact List.eq_nil_of_length_eq_zero valid
      | committed =>
          rw [phase, decide_eq_true_eq] at valid
          rw [valid, List.take_length] at front
          exact front
      | publishing =>
          rw [phase, decide_eq_true_eq] at valid
          exact valid

end Checks

section Publishing

variable {manifest : TransactionManifest} {progress : TransactionProgress}
  {observation : TransactionObservation} {destinations : Observations}
  {operations : List PersistedOperation}

private theorem countResults_found {counted count : Nat}
    (done : countResults destinations counted true operations = .ok count) :
    count = counted ∧ AtFront destinations operations 0 := by
  induction operations with
  | nil =>
      rw [countResults] at done
      cases done
      exact ⟨rfl, atFront_nil⟩
  | cons operation rest ih =>
      rw [countResults] at done
      split at done
      · cases done
      · rename_i destination held
        rw [if_pos rfl] at done
        split at done
        · cases done
        · split at done
          · rename_i expected
            rw [sameFingerprint_iff] at expected
            obtain ⟨same, standing⟩ := ih done
            refine ⟨same, atFront_zero_iff.mpr ?_⟩
            intro other member
            rcases List.mem_cons.mp member with rfl | later
            · rw [held, expected]
            · exact atFront_zero_iff.mp standing other later
          · cases done

theorem countResults_spec {counted count : Nat}
    (done : countResults destinations counted false operations = .ok count) :
    ∃ front ≤ operations.length, count = counted + front ∧ AtFront destinations operations front := by
  induction operations generalizing counted with
  | nil =>
      rw [countResults] at done
      cases done
      exact ⟨0, Nat.zero_le _, rfl, atFront_nil⟩
  | cons operation rest ih =>
      rw [countResults] at done
      split at done
      · cases done
      · rename_i destination held
        split at done
        · rename_i result
          rw [sameFingerprint_iff] at result
          rw [if_neg Bool.false_ne_true] at done
          obtain ⟨front, bounded, rfl, standing⟩ := ih done
          refine ⟨front + 1, Nat.succ_le_succ bounded, by omega, standing.cons ?_⟩
          rw [held, result]
        · split at done
          · rename_i expected
            rw [sameFingerprint_iff] at expected
            obtain ⟨same, standing⟩ := countResults_found done
            refine ⟨0, Nat.zero_le _, same, atFront_zero_iff.mpr ?_⟩
            intro other member
            rcases List.mem_cons.mp member with rfl | later
            · rw [held, expected]
            · exact atFront_zero_iff.mp standing other later
          · cases done

/-- The staged payload of an operation, where it has one, is its result. -/
def Intact (observation : TransactionObservation) (operation : PersistedOperation) : Prop :=
  ∀ stagedPath ∈ operation.stagedPath,
    lookup observation.stagedPayloads stagedPath = operation.result

/-- Before the front no payload is left; from it on every payload is its operation's result. -/
theorem findPublishingPayloadFailure_none_iff {front : Nat} :
    findPublishingPayloadFailure manifest observation front = none ↔
      ∀ index operation, manifest.operations[index]? = some operation →
        if index < front then
          ∀ stagedPath ∈ operation.stagedPath, lookup observation.stagedPayloads stagedPath = .missing
        else Intact observation operation := by
  rw [findPublishingPayloadFailure, Option.map_eq_none_iff, List.find?_eq_none]
  constructor
  · intro each index operation held
    have passed := each (operation, index) (List.mem_zipIdx_iff_getElem?.mpr held)
    unfold Intact
    cases staged : operation.stagedPath with
    | none => simp
    | some stagedPath =>
        simp only [staged] at passed
        by_cases before : index < front
        · simpa [before] using passed
        · simpa [before] using passed
  · rintro each ⟨operation, index⟩ member
    have passed := each index operation (List.mem_zipIdx_iff_getElem?.mp member)
    unfold Intact at passed
    cases staged : operation.stagedPath with
    | none => simp [staged]
    | some stagedPath =>
        rw [staged] at passed
        by_cases before : index < front
        · simpa [staged, before] using passed
        · simpa [staged, before] using passed

end Publishing

section Soundness

variable (manifest : TransactionManifest) (progress : TransactionProgress)
  (observation : TransactionObservation)

/-- What each decision says of the destinations, the payloads and the recorded progress. -/
def Justified : RecoveryDecision → Prop
  | .abort =>
      (progress.phase = .begun ∨ progress.phase = .prepared) ∧
        ∀ operation ∈ manifest.operations,
          mapGet observation.destinations operation.path = some operation.expected
  | .publish operationId =>
      progress.phase = .publishing ∧
        (manifest.operations.map PersistedOperation.operationId).Nodup ∧
        ∃ index operation, manifest.operations[index]? = some operation ∧
          operation.operationId = operationId ∧ Intact observation operation ∧
          AtFront observation.destinations manifest.operations index ∧
          progress.publishedOperationIds =
            (manifest.operations.map PersistedOperation.operationId).take index
  | .recordPublished operationId =>
      progress.phase = .publishing ∧
        ∃ front ≤ manifest.operations.length,
          AtFront observation.destinations manifest.operations front ∧
          ∃ recorded < front, progress.publishedOperationIds =
              (manifest.operations.map PersistedOperation.operationId).take recorded ∧
            (manifest.operations.map PersistedOperation.operationId)[recorded]? = some operationId
  | .commit =>
      progress.phase = .publishing ∧
        AtFront observation.destinations manifest.operations manifest.operations.length ∧
        progress.publishedOperationIds = manifest.operations.map PersistedOperation.operationId
  | .cleanup .committed | .complete .committed =>
      progress.phase = .committed ∧
        AtFront observation.destinations manifest.operations manifest.operations.length ∧
        progress.publishedOperationIds = manifest.operations.map PersistedOperation.operationId
  | .cleanup .aborted | .complete .aborted =>
      progress.phase = .aborted ∧ progress.publishedOperationIds = []
  | .blocked reasonCode _ => reasonCode = js "runtime.state_corrupt"

variable {manifest progress observation}

private theorem justified_blocked (operationId : Option JsString) :
    Justified manifest progress observation (blocked operationId) := by
  rw [blocked, Justified]

private theorem justified_publishing
    (unique : (manifest.operations.map PersistedOperation.operationId).Nodup)
    (phase : progress.phase = .publishing)
    (recorded : progress.publishedOperationIds =
      (manifest.operations.map PersistedOperation.operationId).take progress.publishedOperationIds.length) :
    Justified manifest progress observation (decidePublishing manifest progress observation) := by
  unfold decidePublishing
  split
  · exact justified_blocked _
  · rename_i count counted
    obtain ⟨front, bounded, rfl, standing⟩ := countResults_spec counted
    rw [Nat.zero_add] at *
    split
    · exact justified_blocked _
    · rename_i covered
      rw [List.head?_eq_none_iff, List.drop_eq_nil_iff] at covered
      split
      · exact justified_blocked _
      · rename_i payloads
        have intact := findPublishingPayloadFailure_none_iff.mp payloads
        split
        · rename_i operation pending
          rw [List.head?_drop, List.getElem?_take] at pending
          split at pending
          · rename_i before
            refine ⟨phase, front, bounded, standing, _, before, recorded, ?_⟩
            rw [List.getElem?_map, pending, Option.map_some]
          · cases pending
        · rename_i settled
          rw [List.head?_eq_none_iff, List.drop_eq_nil_iff, List.length_take, Nat.min_eq_left bounded]
            at settled
          have length : progress.publishedOperationIds.length = front := Nat.le_antisymm covered settled
          rw [length] at recorded
          split
          · rename_i ended
            rw [List.getElem?_eq_none_iff] at ended
            have whole : front = manifest.operations.length := Nat.le_antisymm bounded ended
            subst whole
            refine ⟨phase, standing, ?_⟩
            rwa [List.take_of_length_le (Nat.le_of_eq (List.length_map _))] at recorded
          · rename_i next held
            have kept := intact front next held
            rw [if_neg (Nat.lt_irrefl front)] at kept
            exact ⟨phase, unique, front, next, held, rfl, kept, standing, recorded⟩

private theorem justified_terminal {terminal : Terminal}
    (held : Justified manifest progress observation (.cleanup terminal)) :
    Justified manifest progress observation (decideTerminal terminal manifest observation) := by
  unfold decideTerminal
  split
  · exact justified_blocked _
  · exact held
  · cases terminal <;> exact held

private theorem justified_phase
    (unique : (manifest.operations.map PersistedOperation.operationId).Nodup)
    (recorded : hasValidPublishedPrefix progress
      (manifest.operations.map PersistedOperation.operationId) = true) :
    Justified manifest progress observation (decidePhase manifest progress observation) := by
  obtain ⟨front, counted⟩ := hasValidPublishedPrefix_spec recorded
  unfold decidePhase
  split
  · rename_i phase
    rw [phase] at counted
    exact justified_terminal ⟨phase, counted⟩
  · rename_i phase
    split
    · exact justified_blocked _
    · rename_i standing
      split
      · exact justified_blocked _
      · exact ⟨.inl phase, findOtherDestination_none_iff.mp standing⟩
  · rename_i phase
    split
    · exact justified_blocked _
    · rename_i standing
      split
      · exact justified_blocked _
      · exact ⟨.inr phase, findOtherDestination_none_iff.mp standing⟩
  · rename_i phase
    rw [phase] at counted
    split
    · exact justified_blocked _
    · rename_i standing
      refine justified_terminal ⟨phase, ?_, counted⟩
      exact atFront_length_iff.mpr (findOtherDestination_none_iff.mp standing)
  · rename_i phase
    exact justified_publishing unique phase front

private theorem blocked_outside (active : progress.phase ≠ .aborted) {operation : PersistedOperation}
    (member : operation ∈ manifest.operations)
    (expected : mapGet observation.destinations operation.path ≠ some operation.expected)
    (result : mapGet observation.destinations operation.path ≠ some operation.result) :
    ∃ operationId, decidePhase manifest progress observation = blocked operationId := by
  have before : ∀ wanted, mapGet observation.destinations operation.path ≠ some (wanted operation) →
      ∃ operationId, findOtherDestination wanted manifest observation = some operationId := by
    intro wanted other
    by_contra passed
    rw [not_exists] at passed
    exact other (findOtherDestination_none_iff.mp (Option.eq_none_iff_forall_ne_some.mpr passed)
      operation member)
  unfold decidePhase
  split
  · rename_i phase
    exact absurd phase active
  · obtain ⟨found, failed⟩ := before PersistedOperation.expected expected
    rw [findUnexpectedPrepublicationDestination, failed]
    exact ⟨_, rfl⟩
  · obtain ⟨found, failed⟩ := before PersistedOperation.expected expected
    rw [findUnexpectedPrepublicationDestination, failed]
    exact ⟨_, rfl⟩
  · obtain ⟨found, failed⟩ := before PersistedOperation.result result
    rw [findNonResultDestination, failed]
    exact ⟨_, rfl⟩
  · unfold decidePublishing
    split
    · exact ⟨_, rfl⟩
    · rename_i counted
      obtain ⟨front, -, -, standing⟩ := countResults_spec counted
      exact absurd (standing.within member) (by simp [expected, result])

/-- Recovery decisions are sound under arbitrary observations. -/
theorem decideRecovery_sound (manifest : TransactionManifest) (progress : TransactionProgress)
    (observation : TransactionObservation) :
    Justified manifest progress observation (decideRecovery manifest progress observation) ∧
      ((progress.phase ≠ .aborted ∧ ∃ operation ∈ manifest.operations,
          mapGet observation.destinations operation.path ≠ some operation.expected ∧
          mapGet observation.destinations operation.path ≠ some operation.result) →
        ∃ operationId, decideRecovery manifest progress observation =
          .blocked (js "runtime.state_corrupt") operationId) := by
  unfold decideRecovery
  split
  · exact ⟨justified_blocked _, fun _ => ⟨_, rfl⟩⟩
  · split
    · exact ⟨justified_blocked _, fun _ => ⟨_, rfl⟩⟩
    · rename_i sound
      obtain ⟨unique, -, -, -⟩ :=
        (findManifestFailure_none_iff List.nodup_nil List.nodup_nil List.nodup_nil).mp sound
      split
      · exact ⟨justified_blocked _, fun _ => ⟨_, rfl⟩⟩
      · rename_i recorded
        rw [Bool.not_eq_true', Bool.not_eq_false] at recorded
        split
        · exact ⟨justified_blocked _, fun _ => ⟨_, rfl⟩⟩
        · refine ⟨justified_phase unique recorded, ?_⟩
          rintro ⟨active, operation, member, expected, result⟩
          exact blocked_outside active member expected result

end Soundness

section Aborted

def sampleOperation : PersistedOperation where
  operationId := js "operation-0001"
  kind := .writeFile
  path := js ".brain/first.json"
  expected := .missing
  result := .file 1 (List.replicate 64 (unit 'a'))
  stagedPath := some (js ".brain/transactions/transaction-01/staging/operation-0001.payload")

def sampleManifest : TransactionManifest where
  transactionId := js "transaction-01"
  createdAt := js "2026-08-09T00:00:00.000Z"
  operations := [sampleOperation]

def abortedProgress : TransactionProgress where
  transactionId := js "transaction-01"
  manifestDigest := none
  recoveryToken := List.replicate 64 (unit 'd')
  phase := .aborted
  publishedOperationIds := []
  createdAt := js "2026-08-09T00:00:00.000Z"

/-- An aborted transaction is complete whatever was written to its destination since. -/
theorem aborted_beside_front :
    let observation : TransactionObservation := ⟨[(js ".brain/first.json", .directory)], []⟩
    decideRecovery sampleManifest abortedProgress observation = .complete .aborted ∧
      ¬∃ front, AtFront observation.destinations sampleManifest.operations front := by
  refine ⟨by decide, ?_⟩
  rintro ⟨front, standing⟩
  rcases standing.within List.mem_cons_self with expected | result
  · exact absurd expected (by decide)
  · exact absurd result (by decide)

end Aborted

end Kratos.Transactions
