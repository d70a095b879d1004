/- source: domain/repair-loop/model.ts, domain/repair-loop/decision.ts
   digest: One acceptance verdict decided as passed, repaired or stopped, criterion by criterion. -/

import Kratos.Events.Model
import Kratos.Foundation.Collections
import Kratos.Foundation.Runs
import Kratos.Patterns

set_option autoImplicit false

namespace Kratos.RepairLoop

open Foundation.Text Foundation.Collections Foundation.Runs Patterns Events

inductive CriterionOutcome
  | passed | failed
  deriving DecidableEq, Repr

structure RepairLoopCriterion where
  criterionId : JsString
  outcome : CriterionOutcome
  deriving DecidableEq, Repr

structure RepairLoopFault where
  criterionId : JsString
  classification : Classification
  diagnosis : JsString
  deriving DecidableEq, Repr

structure RepairLoopStop extends RepairLoopFault where
  attempt : Nat
  deriving DecidableEq, Repr

structure RepairLoopCandidate where
  attemptCeiling : Nat
  attempts : List AcceptanceAttempt
  criteria : List RepairLoopCriterion
  faults : List RepairLoopFault
  deriving DecidableEq, Repr

inductive RefusalReason
  | activeStop | duplicateCriterion | invalidAttempt | invalidCeiling | invalidCriterion
  | invalidFault | missingFault | unexpectedFault
  deriving DecidableEq, Repr

/-- A verdict without a decision: refused for a reason, or the error no verdict raises. -/
inductive RepairLoopRefusal
  | refused (reason : RefusalReason) (criterionId : Option JsString)
  | missingValidatedFault
  deriving DecidableEq, Repr

/-- `Exclude<RepairLoopDecision, { kind: "refused" }>`. -/
inductive RepairLoopDecision
  | passed (attempts : List AcceptanceAttempt)
  | repair (attempts : List AcceptanceAttempt)
  | stopped (attempts : List AcceptanceAttempt) (stops : List RepairLoopStop)
  deriving DecidableEq, Repr

/-- `Number.MAX_SAFE_INTEGER`. -/
def maxSafeInteger : Nat := 9007199254740991

def validPositiveInteger (value : Nat) : Bool := decide (value ≤ maxSafeInteger) && decide (0 < value)

def validFault (fault : RepairLoopFault) : Bool :=
  isAcceptanceCriterionId fault.criterionId && !isBlank fault.diagnosis &&
    decide (fault.diagnosis.length ≤ 2048) &&
    !(codePoints fault.diagnosis).any fun codePoint => codePoint ≤ 31 || codePoint == 127

/-- The loop over `candidate.attempts`, carrying the criteria already entered in `prior`. -/
def checkAttempts (attemptCeiling : Nat) (prior : List JsString) :
    List AcceptanceAttempt → Except RepairLoopRefusal Unit
  | [] => .ok ()
  | attempt :: rest =>
      if !isAcceptanceCriterionId attempt.criterionId || !validPositiveInteger attempt.attempt then
        .error (.refused .invalidAttempt (some attempt.criterionId))
      else if prior.contains attempt.criterionId then
        .error (.refused .duplicateCriterion (some attempt.criterionId))
      else if attempt.attempt ≥ attemptCeiling then
        .error (.refused .activeStop (some attempt.criterionId))
      else checkAttempts attemptCeiling (attempt.criterionId :: prior) rest

/-- The loop over `candidate.criteria`, carrying the criteria already seen. -/
def checkCriteria (criteria : List JsString) :
    List RepairLoopCriterion → Except RepairLoopRefusal Unit
  | [] => .ok ()
  | criterion :: rest =>
      if !isAcceptanceCriterionId criterion.criterionId then
        .error (.refused .invalidCriterion (some criterion.criterionId))
      else if criteria.contains criterion.criterionId then
        .error (.refused .duplicateCriterion (some criterion.criterionId))
      else checkCriteria (criterion.criterionId :: criteria) rest

/-- The loop over `candidate.faults`, carrying the criteria already diagnosed. -/
def checkFaults (faults : List JsString) : List RepairLoopFault → Except RepairLoopRefusal Unit
  | [] => .ok ()
  | fault :: rest =>
      if !validFault fault then .error (.refused .invalidFault (some fault.criterionId))
      else if faults.contains fault.criterionId then
        .error (.refused .invalidFault (some fault.criterionId))
      else checkFaults (fault.criterionId :: faults) rest

/-- `prior.get(criterionId) ?? 0`. -/
def priorAttempt (candidate : RepairLoopCandidate) (criterionId : JsString) : Nat :=
  (mapGet (candidate.attempts.map fun attempt => (attempt.criterionId, attempt.attempt))
    criterionId).getD 0

def failedAttempt (candidate : RepairLoopCandidate) (criterion : RepairLoopCriterion) :
    Option AcceptanceAttempt :=
  if criterion.outcome = .failed then
    some ⟨criterion.criterionId, priorAttempt candidate criterion.criterionId + 1⟩
  else none

/-- `candidate.criteria.flatMap(...)`. -/
def failedAttempts (candidate : RepairLoopCandidate) : List AcceptanceAttempt :=
  candidate.criteria.filterMap (failedAttempt candidate)

/-- The attempts that reach or pass the ceiling. -/
def tripping (candidate : RepairLoopCandidate) : List AcceptanceAttempt :=
  (failedAttempts candidate).filter fun attempt => attempt.attempt ≥ candidate.attemptCeiling

def faultOf (candidate : RepairLoopCandidate) (criterionId : JsString) : Option RepairLoopFault :=
  mapGet (candidate.faults.map fun fault => (fault.criterionId, fault)) criterionId

/-- `{ ...fault, attempt }`. -/
def stopOf (candidate : RepairLoopCandidate) (attempt : AcceptanceAttempt) :
    Except RepairLoopRefusal RepairLoopStop :=
  match faultOf candidate attempt.criterionId with
  | none => .error .missingValidatedFault
  | some fault => .ok { fault with attempt := attempt.attempt }

/-- The decision once attempts, criteria and faults are checked. -/
def settle (candidate : RepairLoopCandidate) : Except RepairLoopRefusal RepairLoopDecision :=
  if failedAttempts candidate = [] then
    match candidate.faults with
    | [] => .ok (.passed candidate.attempts)
    | unexpected :: _ => .error (.refused .unexpectedFault (some unexpected.criterionId))
  else
    match (tripping candidate).find? fun attempt =>
        (faultOf candidate attempt.criterionId).isNone with
    | some attempt => .error (.refused .missingFault (some attempt.criterionId))
    | none =>
        match candidate.faults.find? fun fault =>
            !(tripping candidate).any fun attempt => attempt.criterionId == fault.criterionId with
        | some fault => .error (.refused .unexpectedFault (some fault.criterionId))
        | none =>
            if tripping candidate = [] then .ok (.repair (failedAttempts candidate))
            else ((tripping candidate).mapM (stopOf candidate)).map
              (.stopped (failedAttempts candidate))

/-- Decide one complete acceptance verdict without mutating replay state. -/
def decideRepairLoop (candidate : RepairLoopCandidate) :
    Except RepairLoopRefusal RepairLoopDecision :=
  if !validPositiveInteger candidate.attemptCeiling then .error (.refused .invalidCeiling none)
  else do
    checkAttempts candidate.attemptCeiling [] candidate.attempts
    checkCriteria [] candidate.criteria
    checkFaults [] candidate.faults
    settle candidate

private theorem checkAttempts_spec {attemptCeiling : Nat} {prior : List JsString}
    {attempts : List AcceptanceAttempt}
    (checked : checkAttempts attemptCeiling prior attempts = .ok ()) :
    (attempts.map (·.criterionId)).Nodup ∧ (∀ attempt ∈ attempts, attempt.criterionId ∉ prior) ∧
      ∀ attempt ∈ attempts, attempt.attempt < attemptCeiling := by
  induction attempts generalizing prior with
  | nil => simp
  | cons attempt rest ih =>
      simp only [checkAttempts, guard_ok_iff, List.contains_eq_mem, decide_eq_true_eq] at checked
      obtain ⟨-, fresh, below, later⟩ := checked
      obtain ⟨distinct, apart, each⟩ := ih later
      refine ⟨?_, ?_, ?_⟩
      · refine List.nodup_cons.mpr ⟨?_, distinct⟩
        intro member
        obtain ⟨other, otherMember, same⟩ := List.mem_map.mp member
        exact apart other otherMember (by rw [same]; exact List.mem_cons_self)
      · intro other member
        rcases List.mem_cons.mp member with rfl | member
        · exact fresh
        · exact fun seen => apart other member (List.mem_cons_of_mem _ seen)
      · intro other member
        rcases List.mem_cons.mp member with rfl | member
        · omega
        · exact each other member

private theorem checkCriteria_spec {seen : List JsString} {criteria : List RepairLoopCriterion}
    (checked : checkCriteria seen criteria = .ok ()) :
    (criteria.map (·.criterionId)).Nodup ∧
      (∀ criterion ∈ criteria, criterion.criterionId ∉ seen) ∧
      ∀ criterion ∈ criteria, isAcceptanceCriterionId criterion.criterionId = true := by
  induction criteria generalizing seen with
  | nil => simp
  | cons criterion rest ih =>
      simp only [checkCriteria, guard_ok_iff, List.contains_eq_mem, decide_eq_true_eq,
        Bool.not_eq_true', Bool.not_eq_false] at checked
      obtain ⟨identifier, fresh, later⟩ := checked
      obtain ⟨distinct, apart, each⟩ := ih later
      refine ⟨?_, ?_, ?_⟩
      · refine List.nodup_cons.mpr ⟨?_, distinct⟩
        intro member
        obtain ⟨other, otherMember, same⟩ := List.mem_map.mp member
        exact apart other otherMember (by rw [same]; exact List.mem_cons_self)
      · intro other member
        rcases List.mem_cons.mp member with rfl | member
        · exact fresh
        · exact fun inSeen => apart other member (List.mem_cons_of_mem _ inSeen)
      · intro other member
        rcases List.mem_cons.mp member with rfl | member
        · exact identifier
        · exact each other member

/-- The candidate a decision was made for. -/
structure CheckedCandidate (candidate : RepairLoopCandidate) : Prop where
  positive : 0 < candidate.attemptCeiling
  attempts : (candidate.attempts.map (·.criterionId)).Nodup
  below : ∀ attempt ∈ candidate.attempts, attempt.attempt < candidate.attemptCeiling
  criteria : (candidate.criteria.map (·.criterionId)).Nodup
  identified : ∀ criterion ∈ candidate.criteria,
    isAcceptanceCriterionId criterion.criterionId = true

/-- The inversion of the decision: the checks hold and the verdict is settled. -/
theorem decideRepairLoop_ok {candidate : RepairLoopCandidate} {decision : RepairLoopDecision}
    (decided : decideRepairLoop candidate = .ok decision) :
    CheckedCandidate candidate ∧ settle candidate = .ok decision := by
  simp only [decideRepairLoop, guard_ok_iff, bind_ok_iff] at decided
  obtain ⟨ceiling, ⟨⟩, checkedAttempts, ⟨⟩, checkedCriteria, ⟨⟩, -, settled⟩ := decided
  obtain ⟨distinct, -, below⟩ := checkAttempts_spec checkedAttempts
  obtain ⟨criteria, -, identified⟩ := checkCriteria_spec checkedCriteria
  have positive : 0 < candidate.attemptCeiling := by
    simp only [validPositiveInteger, Bool.not_eq_true', Bool.not_eq_false, Bool.and_eq_true,
      decide_eq_true_eq] at ceiling
    exact ceiling.2
  exact ⟨⟨positive, distinct, below, criteria, identified⟩, settled⟩

theorem mem_failedAttempts {candidate : RepairLoopCandidate} {attempt : AcceptanceAttempt} :
    attempt ∈ failedAttempts candidate ↔
      (∃ criterion ∈ candidate.criteria, criterion.outcome = .failed ∧
        criterion.criterionId = attempt.criterionId) ∧
        attempt.attempt = priorAttempt candidate attempt.criterionId + 1 := by
  simp only [failedAttempts, List.mem_filterMap, failedAttempt]
  constructor
  · rintro ⟨criterion, member, produced⟩
    split at produced
    · rename_i failed
      obtain rfl := Option.some.inj produced
      exact ⟨⟨criterion, member, failed, rfl⟩, rfl⟩
    · cases produced
  · rintro ⟨⟨criterion, member, failed, same⟩, next⟩
    refine ⟨criterion, member, ?_⟩
    rw [if_pos failed, same, ← next]

theorem failedAttempts_sublist (candidate : RepairLoopCandidate) :
    ((failedAttempts candidate).map (·.criterionId)).Sublist
      (candidate.criteria.map (·.criterionId)) := by
  unfold failedAttempts
  induction candidate.criteria with
  | nil => exact List.Sublist.slnil
  | cons criterion rest ih =>
      by_cases failed : criterion.outcome = .failed
      · rw [List.filterMap_cons_some (by rw [failedAttempt, if_pos failed]), List.map_cons,
          List.map_cons]
        exact ih.cons_cons _
      · rw [List.filterMap_cons_none (by rw [failedAttempt, if_neg failed]), List.map_cons]
        exact ih.cons _

theorem CheckedCandidate.priorAttempt_lt {candidate : RepairLoopCandidate}
    (checked : CheckedCandidate candidate) (criterionId : JsString) :
    priorAttempt candidate criterionId < candidate.attemptCeiling := by
  unfold priorAttempt
  cases found : mapGet (candidate.attempts.map fun attempt =>
      (attempt.criterionId, attempt.attempt)) criterionId with
  | none => exact checked.positive
  | some count =>
      obtain ⟨attempt, member, same⟩ := List.mem_map.mp (mapGet_mem found)
      have below := checked.below attempt member
      obtain ⟨-, rfl⟩ := Prod.mk.inj same
      exact below

theorem CheckedCandidate.failedAttempt_le {candidate : RepairLoopCandidate}
    (checked : CheckedCandidate candidate) {attempt : AcceptanceAttempt}
    (member : attempt ∈ failedAttempts candidate) :
    attempt.attempt ≤ candidate.attemptCeiling := by
  have next := (mem_failedAttempts.mp member).2
  have below := checked.priorAttempt_lt attempt.criterionId
  omega

theorem CheckedCandidate.failedAttempts_nodup {candidate : RepairLoopCandidate}
    (checked : CheckedCandidate candidate) :
    ((failedAttempts candidate).map (·.criterionId)).Nodup :=
  checked.criteria.sublist (failedAttempts_sublist candidate)

/-- At the ceiling and past it are the same for the attempts of a checked candidate. -/
theorem CheckedCandidate.tripping_eq {candidate : RepairLoopCandidate}
    (checked : CheckedCandidate candidate) :
    tripping candidate = (failedAttempts candidate).filter fun attempt =>
      attempt.attempt == candidate.attemptCeiling := by
  refine List.filter_congr fun attempt member => ?_
  have capped := checked.failedAttempt_le member
  rw [Bool.eq_iff_iff, decide_eq_true_eq, beq_iff_eq]
  omega

/-- What a settled verdict says of the failed criteria. -/
inductive Settled (candidate : RepairLoopCandidate) : RepairLoopDecision → Prop
  | passed (unfailed : failedAttempts candidate = []) :
      Settled candidate (.passed candidate.attempts)
  | repair (failed : failedAttempts candidate ≠ []) (below : tripping candidate = []) :
      Settled candidate (.repair (failedAttempts candidate))
  | stopped {stops : List RepairLoopStop} (tripped : tripping candidate ≠ [])
      (each : List.Forall₂ (fun attempt stop => stopOf candidate attempt = .ok stop)
        (tripping candidate) stops) :
      Settled candidate (.stopped (failedAttempts candidate) stops)

theorem settle_ok {candidate : RepairLoopCandidate} {decision : RepairLoopDecision}
    (settled : settle candidate = .ok decision) : Settled candidate decision := by
  unfold settle at settled
  split at settled
  · rename_i unfailed
    split at settled
    · obtain rfl := Except.ok.inj settled
      exact .passed unfailed
    · cases settled
  · rename_i failed
    split at settled
    · cases settled
    · split at settled
      · cases settled
      · split at settled
        · rename_i below
          obtain rfl := Except.ok.inj settled
          exact .repair failed below
        · rename_i tripped
          cases stopped : (tripping candidate).mapM (stopOf candidate) with
          | error refusal =>
              rw [stopped] at settled
              cases settled
          | ok stops =>
              rw [stopped] at settled
              obtain rfl := Except.ok.inj settled
              exact .stopped tripped (mapM_ok_iff.mp stopped)

theorem stopOf_ok {candidate : RepairLoopCandidate} {attempt : AcceptanceAttempt}
    {stop : RepairLoopStop} (stopped : stopOf candidate attempt = .ok stop) :
    stop.criterionId = attempt.criterionId ∧ stop.attempt = attempt.attempt := by
  unfold stopOf at stopped
  split at stopped
  · cases stopped
  · rename_i fault found
    obtain rfl := Except.ok.inj stopped
    obtain ⟨entry, -, same⟩ := List.mem_map.mp (mapGet_mem found)
    obtain ⟨criterion, rfl⟩ := Prod.mk.inj same
    exact ⟨criterion, rfl⟩

end Kratos.RepairLoop
