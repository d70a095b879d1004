/- source: domain/workflow/reducer.ts
   digest: What every replayed run satisfies, and when a retired run stays retired. -/

import Kratos.Events.Semantics
import Kratos.Foundation.Runs
import Kratos.Workflow.Reducer

set_option autoImplicit false

namespace Kratos.Workflow

open Foundation.Text Foundation.Runs Patterns Events

/-- What the loop over the attempts of a decision establishes. -/
structure CanonicalAttempt (state : WorkflowState) (ceiling : Nat) (attempt : AcceptanceAttempt) :
    Prop where
  identifier : isAcceptanceCriterionId attempt.criterionId = true
  next : attempt.attempt = previousAttempt state attempt.criterionId + 1
  capped : attempt.attempt ≤ ceiling

theorem canonicalAttempts_spec {state : WorkflowState} {ceiling : Nat} {seen : List JsString}
    {attempts : List AcceptanceAttempt}
    (canonical : canonicalAttempts state ceiling seen attempts = true) :
    (attempts.map (·.criterionId)).Nodup ∧
      (∀ attempt ∈ attempts, attempt.criterionId ∉ seen) ∧
      ∀ attempt ∈ attempts, CanonicalAttempt state ceiling attempt := by
  induction attempts generalizing seen with
  | nil => simp
  | cons attempt rest ih =>
      simp only [canonicalAttempts, Bool.and_eq_true, Bool.not_eq_true', List.contains_eq_mem,
        decide_eq_false_iff_not, decide_eq_true_eq, beq_iff_eq] at canonical
      obtain ⟨⟨⟨⟨identifier, unseen⟩, next⟩, capped⟩, later⟩ := canonical
      obtain ⟨distinct, fresh, each⟩ := ih later
      refine ⟨?_, ?_, ?_⟩
      · refine List.nodup_cons.mpr ⟨?_, distinct⟩
        intro member
        obtain ⟨other, otherMember, same⟩ := List.mem_map.mp member
        exact fresh other otherMember (by rw [same]; exact List.mem_cons_self)
      · intro other member
        rcases List.mem_cons.mp member with rfl | member
        · exact unseen
        · exact fun inSeen => fresh other member (List.mem_cons_of_mem _ inSeen)
      · intro other member
        rcases List.mem_cons.mp member with rfl | member
        · exact ⟨identifier, next, capped⟩
        · exact each other member

theorem stopsMatch_spec {artifactRefs : List JsString} {stops : List RepairStop}
    {tripping : List AcceptanceAttempt}
    (matched : stopsMatch artifactRefs stops tripping = true)
    (sameLength : stops.length = tripping.length) :
    stops.map (fun stop => (stop.criterionId, stop.attempt)) =
        tripping.map (fun attempt => (attempt.criterionId, attempt.attempt)) ∧
      ∀ stop ∈ stops, stop.artifactRef ∈ artifactRefs := by
  induction stops generalizing tripping with
  | nil =>
      cases tripping with
      | nil => simp
      | cons attempt rest => simp at sameLength
  | cons stop stops ih =>
      cases tripping with
      | nil => simp at sameLength
      | cons attempt rest =>
          simp only [stopsMatch, Bool.and_eq_true, beq_iff_eq, List.contains_eq_mem,
            decide_eq_true_eq] at matched
          obtain ⟨⟨⟨criterion, count⟩, reference⟩, later⟩ := matched
          obtain ⟨pairs, references⟩ := ih later (by simpa using sameLength)
          refine ⟨by simp only [List.map_cons, pairs, criterion, count], ?_⟩
          intro other member
          rcases List.mem_cons.mp member with rfl | member
          · exact reference
          · exact references other member

/-- The inversion of `hasCanonicalAcceptanceDecision`. -/
structure CanonicalDecision (state : WorkflowState) (event : EventDraft)
    (decision : AcceptanceDecision) (outcome : AcceptanceOutcome) (ceiling : Nat) : Prop where
  limit : state.acceptanceAttemptCeiling = some ceiling
  step : state.currentStep = some .acceptance
  unstopped : state.activeRepairStops = []
  recorded : decision.outcome = outcome
  distinct : (decision.attempts.map (·.criterionId)).Nodup
  each : ∀ attempt ∈ decision.attempts, CanonicalAttempt state ceiling attempt
  shape : outcomeShape event decision ceiling outcome = true

theorem canonicalDecision_of {state : WorkflowState} {event : EventDraft}
    {decision : AcceptanceDecision} {outcome : AcceptanceOutcome}
    (canonical : hasCanonicalAcceptanceDecision state event decision outcome = true) :
    ∃ ceiling, CanonicalDecision state event decision outcome ceiling := by
  unfold hasCanonicalAcceptanceDecision at canonical
  split at canonical
  · cases canonical
  · rename_i ceiling limit
    simp only [Bool.and_eq_true, beq_iff_eq, List.isEmpty_iff] at canonical
    obtain ⟨⟨⟨⟨step, unstopped⟩, outcome⟩, attempts⟩, shape⟩ := canonical
    obtain ⟨distinct, -, each⟩ := canonicalAttempts_spec attempts
    exact ⟨ceiling, limit, step, unstopped, outcome, distinct, each, shape⟩

theorem mem_mergeAttempts {state : WorkflowState} {updates : List AcceptanceAttempt}
    {attempt : AcceptanceAttempt} :
    attempt ∈ mergeAttempts state updates ↔
      attempt ∈ updates ∨
        attempt ∈ state.attempts ∧ attempt.criterionId ∉ updates.map (·.criterionId) := by
  simp only [mergeAttempts, List.mem_append, List.mem_filter, Bool.not_eq_true',
    List.contains_eq_mem, decide_eq_false_iff_not]

theorem mergeAttempts_nodup {state : WorkflowState} {updates : List AcceptanceAttempt}
    (held : (state.attempts.map (·.criterionId)).Nodup)
    (distinct : (updates.map (·.criterionId)).Nodup) :
    ((mergeAttempts state updates).map (·.criterionId)).Nodup := by
  simp only [mergeAttempts, List.map_append]
  refine List.nodup_append.mpr ⟨distinct, held.sublist (List.filter_sublist.map _), ?_⟩
  rintro left leftMember right rightMember rfl
  obtain ⟨attempt, member, same⟩ := List.mem_map.mp rightMember
  simp only [List.mem_filter, Bool.not_eq_true', List.contains_eq_mem,
    decide_eq_false_iff_not] at member
  exact member.2 (same ▸ leftMember)

/-- What holds of every replayed run. -/
structure RunInvariant (state : WorkflowState) : Prop where
  unique : (state.attempts.map (·.criterionId)).Nodup
  bounded : ∀ attempt ∈ state.attempts, ∃ ceiling,
    state.acceptanceAttemptCeiling = some ceiling ∧ 1 ≤ attempt.attempt ∧
      attempt.attempt ≤ ceiling
  tripped : ∀ attempt ∈ state.attempts,
    state.acceptanceAttemptCeiling = some attempt.attempt →
      (∃ stop ∈ state.activeRepairStops, stop.criterionId = attempt.criterionId) ∨
        ∃ restart, state.specificationRestart = some restart ∧
          restart.criterionId = attempt.criterionId
  blocked : state.activeRepairStops ≠ [] →
    state.status = .blocked ∧ state.currentStep = some .acceptance

/-- Nothing is known of a run no event has touched. -/
structure Untouched (state : WorkflowState) : Prop where
  attempts : state.attempts = []
  stops : state.activeRepairStops = []
  restart : state.specificationRestart = none

/-- The invariant the induction carries: a run at revision zero is untouched. -/
structure RunLedger (state : WorkflowState) : Prop where
  run : RunInvariant state
  untouched : state.revision = 0 → Untouched state

theorem Untouched.run {state : WorkflowState} (untouched : Untouched state) :
    RunInvariant state := by
  obtain ⟨attempts, stops, -⟩ := untouched
  refine ⟨?_, ?_, ?_, fun some => absurd stops some⟩
  · simp [attempts]
  · simp [attempts]
  · simp [attempts]

theorem workflowSeed_untouched (configuration : WorkflowReducerConfiguration) :
    Untouched (workflowSeed configuration) :=
  ⟨rfl, rfl, rfl⟩

private theorem isPristineLegacy_untouched {state : WorkflowState}
    (pristine : isPristineLegacy state = true) : Untouched state := by
  simp only [isPristineLegacy, Bool.and_eq_true, beq_iff_eq, List.isEmpty_iff] at pristine
  obtain ⟨⟨⟨⟨⟨⟨⟨-, attempts⟩, stops⟩, -⟩, -⟩, restart⟩, -⟩, -⟩ := pristine
  exact ⟨attempts, stops, restart⟩

private theorem runInvariant_frame {state next : WorkflowState} (held : RunInvariant state)
    (attempts : next.attempts = state.attempts)
    (ceiling : next.acceptanceAttemptCeiling = state.acceptanceAttemptCeiling)
    (stops : next.activeRepairStops = state.activeRepairStops)
    (restart : next.specificationRestart = state.specificationRestart)
    (position : state.activeRepairStops ≠ [] →
      next.status = .blocked ∧ next.currentStep = some .acceptance) : RunInvariant next := by
  obtain ⟨unique, bounded, tripped, -⟩ := held
  refine ⟨?_, ?_, ?_, ?_⟩
  · rw [attempts]; exact unique
  · rw [attempts, ceiling]; exact bounded
  · rw [attempts, ceiling, stops, restart]; exact tripped
  · rw [stops]; exact position

theorem moveRun_position {state : WorkflowState} {event : EventDraft} {reason : KnownReason}
    {status : RunStatus} {currentStep : Option RunPhase} (begun : state.revision ≠ 0)
    (closed : state.activeRepairStops ≠ [] ∨ state.specificationRestart ≠ none)
    (unblocked : blockedByRepairStop state event = false)
    (known : knownReason event.reasonCode = some reason)
    (move : moveRun state reason = .ok (status, currentStep)) :
    (status = .blocked ∨ status = state.status) ∧ currentStep = state.currentStep := by
  have guarded : (!state.activeRepairStops.isEmpty || state.specificationRestart != none) = true := by
    rcases closed with stops | restart
    · simp [stops]
    · simp [restart]
  simp only [blockedByRepairStop, guarded, Bool.true_and, Bool.or_eq_false_iff, beq_eq_false_iff_ne,
    ne_eq] at unblocked
  obtain ⟨⟨notResumed, notAccepted⟩, notCompleted⟩ := unblocked
  cases reason with
  | started => exact absurd (moveRun_started move).1 begun
  | resumed => exact absurd (List.mem_singleton.mp (knownReason_mem known)) notResumed
  | accepted => exact absurd (List.mem_singleton.mp (knownReason_mem known)) notAccepted
  | completed => exact absurd (List.mem_singleton.mp (knownReason_mem known)) notCompleted
  | rejected =>
      simp only [moveRun] at move
      split at move
      · cases move
      · cases move
        exact ⟨.inl rfl, rfl⟩
  | fact =>
      simp only [moveRun] at move
      split at move
      · cases move
      · cases move
        exact ⟨.inr rfl, rfl⟩

private theorem mergeAttempts_bounded {state : WorkflowState} {event : EventDraft}
    {decision : AcceptanceDecision} {outcome : AcceptanceOutcome} {ceiling : Nat}
    (held : RunInvariant state)
    (canonical : CanonicalDecision state event decision outcome ceiling) :
    ∀ attempt ∈ mergeAttempts state decision.attempts, ∃ limit,
      state.acceptanceAttemptCeiling = some limit ∧ 1 ≤ attempt.attempt ∧
        attempt.attempt ≤ limit := by
  intro attempt member
  rcases mem_mergeAttempts.mp member with updated | ⟨kept, -⟩
  · have entry := canonical.each attempt updated
    exact ⟨ceiling, canonical.limit, by have := entry.next; omega, entry.capped⟩
  · exact held.bounded attempt kept

private theorem kept_tripped {state : WorkflowState} {event : EventDraft}
    {decision : AcceptanceDecision} {outcome : AcceptanceOutcome} {ceiling : Nat}
    (held : RunInvariant state)
    (canonical : CanonicalDecision state event decision outcome ceiling)
    {attempt : AcceptanceAttempt} (kept : attempt ∈ state.attempts)
    (atCeiling : state.acceptanceAttemptCeiling = some attempt.attempt) :
    ∃ restart, state.specificationRestart = some restart ∧
      restart.criterionId = attempt.criterionId := by
  rcases held.tripped attempt kept atCeiling with ⟨stop, member, -⟩ | restart
  · rw [canonical.unstopped] at member
    cases member
  · exact restart

private theorem repair_invariant {state : WorkflowState} {event : EventDraft}
    {decision : AcceptanceDecision} (held : RunInvariant state)
    (canonical : hasCanonicalAcceptanceDecision state event decision .repair = true) :
    RunInvariant (acceptRepair state event decision) := by
  obtain ⟨ceiling, canonical⟩ := canonicalDecision_of canonical
  have shape := canonical.shape
  simp only [outcomeShape, Bool.and_eq_true, Bool.not_eq_true', List.isEmpty_eq_false_iff,
    List.isEmpty_iff] at shape
  refine ⟨mergeAttempts_nodup held.unique canonical.distinct,
    mergeAttempts_bounded held canonical, ?_, fun stops => absurd canonical.unstopped stops⟩
  intro attempt member atCeiling
  refine .inr ?_
  rcases mem_mergeAttempts.mp member with updated | ⟨kept, -⟩
  · -- No attempt of a repair decision reaches the ceiling.
    have sameCeiling : attempt.attempt = ceiling :=
      Option.some.inj (atCeiling.symm.trans canonical.limit)
    have tripping : attempt ∈ trippingAttempts decision ceiling :=
      List.mem_filter.mpr ⟨updated, by simpa using sameCeiling⟩
    rw [shape.1.2] at tripping
    cases tripping
  · exact kept_tripped held canonical kept atCeiling

private theorem stopped_invariant {state : WorkflowState} {event : EventDraft}
    {decision : AcceptanceDecision} (held : RunInvariant state)
    (canonical : hasCanonicalAcceptanceDecision state event decision .stopped = true) :
    RunInvariant (acceptStopped state event decision) := by
  obtain ⟨ceiling, canonical⟩ := canonicalDecision_of canonical
  have shape := canonical.shape
  simp only [outcomeShape, Bool.and_eq_true, Bool.not_eq_true', List.isEmpty_eq_false_iff,
    beq_iff_eq] at shape
  obtain ⟨⟨⟨-, -⟩, sameLength⟩, matched⟩ := shape
  have pairs := (stopsMatch_spec matched sameLength).1
  refine ⟨mergeAttempts_nodup held.unique canonical.distinct,
    mergeAttempts_bounded held canonical, ?_, fun _ => ⟨rfl, canonical.step⟩⟩
  intro attempt member atCeiling
  rcases mem_mergeAttempts.mp member with updated | ⟨kept, -⟩
  · have sameCeiling : attempt.attempt = ceiling :=
      Option.some.inj (atCeiling.symm.trans canonical.limit)
    have tripping : attempt ∈ trippingAttempts decision ceiling :=
      List.mem_filter.mpr ⟨updated, by simpa using sameCeiling⟩
    have paired : (attempt.criterionId, attempt.attempt) ∈
        decision.repairStops.map (fun stop => (stop.criterionId, stop.attempt)) := by
      rw [pairs]
      exact List.mem_map.mpr ⟨attempt, tripping, rfl⟩
    obtain ⟨stop, stopMember, same⟩ := List.mem_map.mp paired
    exact .inl ⟨stop, stopMember, congrArg Prod.fst same⟩
  · exact .inr (kept_tripped held canonical kept atCeiling)

private theorem mem_remainingStops {state : WorkflowState} {resolution : RepairResolution}
    {stop : RepairStop} :
    stop ∈ remainingStops state resolution ↔
      stop ∈ state.activeRepairStops ∧ stop.criterionId ≠ resolution.criterionId := by
  simp only [remainingStops, List.mem_filter, bne_iff_ne]

private theorem stopped_position {state : WorkflowState} {stop : RepairStop}
    {resolution : RepairResolution} (held : RunInvariant state)
    (found : state.activeRepairStops.find? (·.criterionId == resolution.criterionId) = some stop) :
    state.status = .blocked ∧ state.currentStep = some .acceptance := by
  refine held.blocked ?_
  intro none
  rw [none] at found
  cases found

private theorem retired_invariant {state : WorkflowState} {event : EventDraft} {stop : RepairStop}
    {resolution : RepairResolution} {nextRunId restartTicketRef restartTicketDigest : JsString}
    (held : RunInvariant state) (unretired : state.specificationRestart = none)
    (found : state.activeRepairStops.find? (·.criterionId == resolution.criterionId) = some stop) :
    RunInvariant
      (retireRun state event resolution nextRunId restartTicketRef restartTicketDigest) := by
  refine ⟨held.unique, held.bounded, ?_, fun _ => ⟨rfl, (stopped_position held found).2⟩⟩
  intro attempt member atCeiling
  rcases held.tripped attempt member atCeiling with ⟨active, activeMember, same⟩ | ⟨restart, some, -⟩
  · by_cases resolved : active.criterionId = resolution.criterionId
    · exact .inr ⟨_, rfl, resolved.symm.trans same⟩
    · exact .inl ⟨active, mem_remainingStops.mpr ⟨activeMember, resolved⟩, same⟩
  · rw [unretired] at some
    cases some

private theorem reopened_invariant {state : WorkflowState} {event : EventDraft}
    {resolution : RepairResolution} {stop : RepairStop} (held : RunInvariant state)
    (found : state.activeRepairStops.find? (·.criterionId == resolution.criterionId) = some stop) :
    RunInvariant (reopenRun state event resolution) := by
  refine ⟨held.unique.sublist (List.filter_sublist.map _), ?_, ?_, ?_⟩
  · intro attempt member
    exact held.bounded attempt (List.mem_of_mem_filter member)
  · intro attempt member atCeiling
    obtain ⟨kept, other⟩ := List.mem_filter.mp member
    rcases held.tripped attempt kept atCeiling with ⟨active, activeMember, same⟩ | restart
    · refine .inl ⟨active, mem_remainingStops.mpr ⟨activeMember, ?_⟩, same⟩
      rw [same]
      exact bne_iff_ne.mp other
    · exact .inr restart
  · intro stops
    have remaining : (remainingStops state resolution).isEmpty = false :=
      List.isEmpty_eq_false_iff.mpr stops
    have step := (stopped_position held found).2
    exact ⟨by simp [reopenRun, remaining], by simpa [reopenRun, remaining] using step⟩

private theorem untouched_frame {state next : WorkflowState} (untouched : Untouched state)
    (attempts : next.attempts = state.attempts)
    (stops : next.activeRepairStops = state.activeRepairStops)
    (restart : next.specificationRestart = state.specificationRestart) : Untouched next :=
  ⟨attempts.trans untouched.attempts, stops.trans untouched.stops,
    restart.trans untouched.restart⟩

private theorem accepted_invariant {state next : WorkflowState} {event : EventDraft}
    (held : RunLedger state) (accepted : Accepted state event next) : RunInvariant next := by
  cases accepted with
  | moved prior unblocked known move policy =>
      refine runInvariant_frame held.run rfl rfl rfl rfl fun stops => ?_
      have begun : state.revision ≠ 0 := fun zero => stops (held.untouched zero).stops
      obtain ⟨status, currentStep⟩ := moveRun_position begun (.inl stops) unblocked known move
      obtain ⟨blocked, step⟩ := held.run.blocked stops
      refine ⟨?_, currentStep.trans step⟩
      rcases status with blockedNow | same
      · exact blockedNow
      · exact same.trans blocked
  | started limits prior fresh policy code =>
      exact Untouched.run (untouched_frame (held.untouched fresh) rfl rfl rfl)
  | upgraded limits prior begun pristine code =>
      exact Untouched.run (untouched_frame (isPristineLegacy_untouched pristine) rfl rfl rfl)
  | startedFromSpec limits source prior fresh retired code =>
      exact Untouched.run (untouched_frame (held.untouched fresh) rfl rfl rfl)
  | passed carried prior canonical code =>
      exact runInvariant_frame held.run rfl rfl rfl rfl held.run.blocked
  | repair carried prior canonical code => exact repair_invariant held.run canonical
  | stopped carried prior canonical code => exact stopped_invariant held.run canonical
  | retired carried prior blocked unretired found specification agrees successor ticket digest
      noCode code => exact retired_invariant held.run unretired found
  | reopened carried prior blocked unretired found repaired agrees noSuccessor noTicket noDigest
      code => exact reopened_invariant held.run found

theorem registryReduce_ledger {state next : WorkflowState} {event : EventDraft}
    (held : RunLedger state) (accepted : registryReduce state event = .ok next) :
    RunLedger next := by
  have cases := registryReduce_cases accepted
  refine ⟨accepted_invariant held cases, fun zero => ?_⟩
  rw [accepted_revision cases] at zero
  exact absurd zero (Nat.pos_iff_ne_zero.mp event.resulting_pos)

abbrev Replays (configuration : WorkflowReducerConfiguration) (events : List EventDraft)
    (state : WorkflowState) : Prop :=
  Reaches registryReduce (workflowSeed configuration) events state

theorem replays_ledger {configuration : WorkflowReducerConfiguration} {events : List EventDraft}
    {state : WorkflowState} (run : Replays configuration events state) : RunLedger state := by
  refine run.invariant RunLedger ?_ fun state event next held accepted =>
    registryReduce_ledger held accepted
  have untouched := workflowSeed_untouched configuration
  exact ⟨untouched.run, fun _ => untouched⟩

/-- The condition on one step: a retired run records no repair round. -/
def NoRepairOnceRetired (state : WorkflowState) (event : EventDraft) : Prop :=
  state.specificationRestart ≠ none → event.reasonCode ≠ js "run.acceptance.repair_required"

/-- A run with a specification restart stays where it stopped: no later event of the history
makes it active, completes it or moves its step. -/
def RetirementFinal (configuration : WorkflowReducerConfiguration) (events : List EventDraft) :
    Prop :=
  ∀ front between back, events = front ++ (between ++ back) → ∀ middle later,
    Replays configuration front middle → Reaches registryReduce middle between later →
    middle.specificationRestart ≠ none →
      later.status ≠ .active ∧ later.status ≠ .completed ∧
        later.currentStep = middle.currentStep

def RetiredPosition (state : WorkflowState) : Prop :=
  state.specificationRestart ≠ none →
    state.status = .blocked ∧ state.currentStep = some .acceptance

private theorem retirement_kept {state next : WorkflowState} {event : EventDraft}
    (held : RunLedger state) (accepted : Accepted state event next)
    (condition : NoRepairOnceRetired state event) (retired : state.specificationRestart ≠ none) :
    next.specificationRestart ≠ none ∧ (next.status = .blocked ∨ next.status = state.status) ∧
      next.currentStep = state.currentStep := by
  have begun : state.revision ≠ 0 := fun zero => retired (held.untouched zero).restart
  cases accepted with
  | moved prior unblocked known move policy =>
      exact ⟨retired, moveRun_position begun (.inr retired) unblocked known move⟩
  | started limits prior fresh policy code => exact absurd fresh begun
  | upgraded limits prior begun pristine code =>
      exact absurd (isPristineLegacy_untouched pristine).restart retired
  | startedFromSpec limits source prior fresh empty code => exact absurd fresh begun
  | passed carried prior canonical code => exact ⟨retired, .inr rfl, rfl⟩
  | repair carried prior canonical code => exact absurd code (condition retired)
  | stopped carried prior canonical code => exact ⟨retired, .inl rfl, rfl⟩
  | retired carried prior blocked unretired found specification agrees successor ticket digest
      noCode code => exact absurd unretired retired
  | reopened carried prior blocked unretired found repaired agrees noSuccessor noTicket noDigest
      code => exact absurd unretired retired

private theorem retirement_entered {state next : WorkflowState} {event : EventDraft}
    (held : RunLedger state) (accepted : Accepted state event next)
    (unretired : state.specificationRestart = none) : RetiredPosition next := by
  intro retired
  cases accepted with
  | retired carried prior blocked unretired found specification agrees successor ticket digest
      noCode code => exact ⟨rfl, (stopped_position held.run found).2⟩
  | started limits prior fresh policy code => exact absurd unretired retired
  | _ => exact absurd unretired retired

private theorem retiredPosition_step {state next : WorkflowState} {event : EventDraft}
    (held : RunLedger state) (accepted : Accepted state event next)
    (condition : NoRepairOnceRetired state event) (position : RetiredPosition state) :
    RetiredPosition next := by
  by_cases retired : state.specificationRestart = none
  · exact retirement_entered held accepted retired
  · intro _
    obtain ⟨blocked, step⟩ := position retired
    obtain ⟨-, status, currentStep⟩ := retirement_kept held accepted condition retired
    refine ⟨?_, currentStep.trans step⟩
    rcases status with blockedNow | same
    · exact blockedNow
    · exact same.trans blocked

private theorem retirement_run {start final : WorkflowState} {events : List EventDraft}
    (run : Reaches registryReduce start events final)
    (all : Throughout registryReduce NoRepairOnceRetired start events)
    (held : RunLedger start) (position : RetiredPosition start) :
    RetiredPosition final ∧
      (start.specificationRestart ≠ none → final.specificationRestart ≠ none) := by
  have carried := run.invariant_of
    (fun state => RunLedger state ∧ RetiredPosition state ∧
      (start.specificationRestart ≠ none → state.specificationRestart ≠ none))
    NoRepairOnceRetired all ⟨held, position, id⟩
    (by
      rintro state event next ⟨held, position, kept⟩ condition accepted
      have cases := registryReduce_cases accepted
      refine ⟨registryReduce_ledger held accepted,
        retiredPosition_step held cases condition position, fun retired => ?_⟩
      exact (retirement_kept held cases condition (kept retired)).1)
  exact ⟨carried.2.1, carried.2.2⟩

private theorem repair_activates {state next : WorkflowState} {event : EventDraft}
    (accepted : registryReduce state event = .ok next)
    (code : event.reasonCode = js "run.acceptance.repair_required") : next.status = .active := by
  have cases := registryReduce_cases accepted
  cases cases with
  | moved prior unblocked known move policy =>
      rw [code] at known
      cases known
  | repair carried prior canonical code => rfl
  | startedFromSpec limits source prior fresh retired code => rfl
  | started limits prior fresh policy code => rfl
  | upgraded limits prior begun pristine other => exact absurd (code.symm.trans other) (by decide)
  | passed carried prior canonical other => exact absurd (code.symm.trans other) (by decide)
  | stopped carried prior canonical other => exact absurd (code.symm.trans other) (by decide)
  | retired carried prior blocked unretired found specification agrees successor ticket digest
      noCode other => exact absurd (code.symm.trans other) (by decide)
  | reopened carried prior blocked unretired found repaired agrees noSuccessor noTicket noDigest
      other => exact absurd (code.symm.trans other) (by decide)

/-- Every accepted history keeps the attempt ledger, and it keeps retirement final exactly when
no repair round is recorded on a retired run. -/
theorem replay_run_invariants (configuration : WorkflowReducerConfiguration)
    (events : List EventDraft) (state : WorkflowState)
    (run : Replays configuration events state) :
    RunInvariant state ∧
      (RetirementFinal configuration events ↔
        Throughout registryReduce NoRepairOnceRetired (workflowSeed configuration) events) := by
  refine ⟨(replays_ledger run).run, ?_, ?_⟩
  · intro final front event back shape middle reached retired code
    obtain ⟨start, before, after⟩ := reaches_append.mp (shape ▸ run)
    obtain rfl := reaches_unique reached before
    obtain ⟨next, first, -⟩ := reaches_cons.mp after
    -- The repair round itself is the later event that reactivates the run.
    have single : Reaches registryReduce middle [event] next :=
      reaches_cons.mpr ⟨next, first, reaches_nil.mpr rfl⟩
    exact (final front [event] back shape middle next reached single retired).1
      (repair_activates first code)
  · intro all front between back shape middle later before after retired
    have split : events = (front ++ between) ++ back := by rw [shape, List.append_assoc]
    have allFront : Throughout registryReduce NoRepairOnceRetired (workflowSeed configuration)
        (front ++ between) := (split ▸ all).front
    have seed : RetiredPosition (workflowSeed configuration) := fun some => absurd rfl some
    have position := (retirement_run before allFront.front
      (replays_ledger (reaches_nil.mpr rfl)) seed).1
    obtain ⟨laterPosition, kept⟩ :=
      retirement_run after (allFront.suffix before) (replays_ledger before) position
    obtain ⟨blocked, step⟩ := laterPosition (kept retired)
    refine ⟨by rw [blocked]; decide, by rw [blocked]; decide, ?_⟩
    exact step.trans (position retired).2.symm

/-- An event of the second policy at a revision, in the latest contract. -/
def historyEvent (revision : Nat) (eventType : EventType) (effect : EventEffect)
    (operation reasonCode : JsString) : EventDraft where
  contractVersion := .v1_4
  stateContract := .v1_4
  eventId := js "e"
  eventType
  occurredAt := js "2026-01-01T00:00:00Z"
  operation
  policyVersion := workflowPolicyVersion
  priorRevision := revision
  resultingRevision := revision + 1
  reasonCode
  effect
  artifactRefs := [js "stop.json"]
  evidenceRefs := []
  observedIdentity := ⟨js "claude", none, some none⟩
  gateFailures := some []
  resulting_pos := Nat.succ_pos revision

def advanceEvent (revision : Nat) (phase : RunPhase) : EventDraft :=
  { historyEvent revision .transition .state (js "sdd.continue:c") (js "run.transition.accepted")
      with resolvedAssignment := some ⟨phase, phaseModelRole phase, js "m", js "high"⟩ }

def acceptanceEvent (revision : Nat) (reasonCode : JsString) (decision : AcceptanceDecision) :
    EventDraft :=
  { historyEvent revision .decision .stateAndArtifact (js "sdd.acceptance.record:c") reasonCode
      with acceptanceDecision := some decision }

def sampleDigest : JsString := List.replicate 64 (unit 'a')

/-- A run of ceiling two up to its specification restart: one repair round, a second rejection
of the same criterion, and the resolution that retires the run. -/
def retiredHistory : List EventDraft :=
  [{ historyEvent 0 .transition .state (js "sdd.start:c") (js "run.started")
       with runLimits := some ⟨2, none⟩ },
    advanceEvent 1 .prd, advanceEvent 2 .spec, advanceEvent 3 .plan, advanceEvent 4 .code,
    advanceEvent 5 .review,
    acceptanceEvent 6 (js "run.acceptance.repair_required") ⟨.repair, [⟨js "AC-1.1.1", 1⟩], []⟩,
    advanceEvent 7 .code, advanceEvent 8 .review,
    acceptanceEvent 9 (js "run.stop_loss.repeated_rejection")
      ⟨.stopped, [⟨js "AC-1.1.1", 2⟩],
        [⟨js "AC-1.1.1", 2, .specification, js "stop.json", sampleDigest⟩]⟩,
    { historyEvent 10 .recovery .stateAndArtifact (js "sdd.repair.resolve:c")
        (js "run.repair_stop.resolved") with
      repairResolution := some
        ⟨js "AC-1.1.1", .specification, js "stop.json", sampleDigest, some (js "r2"),
          some (js "stop.json"), some sampleDigest⟩ }]

def strayRepairRound : EventDraft :=
  acceptanceEvent 11 (js "run.acceptance.repair_required") ⟨.repair, [⟨js "AC-1.1.2", 1⟩], []⟩

def sampleConfiguration : WorkflowReducerConfiguration :=
  ⟨js "p", js "f", js "r", ⟨sampleDigest, sampleDigest⟩⟩

theorem retired_history_invariants :
    ∃ state, Replays sampleConfiguration retiredHistory state ∧
      state.specificationRestart ≠ none ∧ RunInvariant state ∧
      (RetirementFinal sampleConfiguration retiredHistory ↔
        Throughout registryReduce NoRepairOnceRetired (workflowSeed sampleConfiguration)
          retiredHistory) := by
  obtain ⟨state, run, retired⟩ := reaches_of_evaluate registryReduce
    (workflowSeed sampleConfiguration) retiredHistory
    (fun state => state.specificationRestart != none) (by decide)
  have kept := replay_run_invariants sampleConfiguration retiredHistory state run
  exact ⟨state, run, by simpa using retired, kept⟩

/-- Events the semantic policy admits reactivate a retired run. -/
theorem replay_reactivates_retired_run :
    (∀ event ∈ retiredHistory ++ [strayRepairRound], assertEventSemanticPolicy event = .ok ()) ∧
      ¬ ∀ configuration events state, Replays configuration events state →
        RunInvariant state ∧ RetirementFinal configuration events := by
  refine ⟨by decide, fun claim => ?_⟩
  obtain ⟨middle, reached, retired⟩ := reaches_of_evaluate registryReduce
    (workflowSeed sampleConfiguration) retiredHistory
    (fun state => state.specificationRestart != none) (by decide)
  obtain ⟨final, run, active⟩ := reaches_of_evaluate registryReduce
    (workflowSeed sampleConfiguration) (retiredHistory ++ [strayRepairRound])
    (fun state => state.status == .active) (by decide)
  obtain ⟨before, first, second⟩ := reaches_append.mp run
  obtain rfl := reaches_unique reached first
  have final := (claim sampleConfiguration _ _ run).2 retiredHistory [strayRepairRound] []
    (by simp) middle final reached second (by simpa using retired)
  exact final.1 (by simpa using active)

end Kratos.Workflow
