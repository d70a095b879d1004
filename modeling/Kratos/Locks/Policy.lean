/- source: domain/locks/policy.ts
   digest: Which lease an acquire, a renewal, a release or a takeover is granted at a time. -/

import Kratos.Events.Semantics
import Kratos.Locks.Lease

set_option autoImplicit false

namespace Kratos.Locks

open Foundation.Text Foundation.Calendar Foundation.Runs Patterns
open Events (LockLifecycleAction)

structure LeasePolicyBinding where
  action : LockLifecycleAction
  lease : LockLease
  deriving DecidableEq, Repr

structure ExpectedLeaseIdentity where
  resource : JsString
  owner : JsString
  leaseId : JsString
  fencingToken : Nat
  stateRevision : Nat
  deriving DecidableEq, Repr

inductive LeasePolicyDecision
  | transition (action : LockLifecycleAction) (lease : LockLease)
  | conflict
  | takeoverRequired
  deriving DecidableEq, Repr

structure DecideAcquireInput where
  now : JsDate
  current : Option LeasePolicyBinding
  stateRevision : Int
  resource : JsString
  owner : JsString
  leaseId : JsString
  ttlMs : Int
  deriving DecidableEq, Repr

structure DecideRenewInput where
  now : JsDate
  current : LeasePolicyBinding
  stateRevision : Int
  expectedIdentity : ExpectedLeaseIdentity
  ttlMs : Int
  deriving DecidableEq, Repr

structure DecideReleaseInput where
  now : JsDate
  current : LeasePolicyBinding
  stateRevision : Int
  expectedIdentity : ExpectedLeaseIdentity
  deriving DecidableEq, Repr

structure DecideTakeoverInput where
  now : JsDate
  current : LeasePolicyBinding
  stateRevision : Int
  expectedIdentity : ExpectedLeaseIdentity
  owner : JsString
  leaseId : JsString
  ttlMs : Int
  deriving DecidableEq, Repr

def validNow (now : JsDate) : Except LeasePolicyError JsString :=
  match now with
  | none => .error .invalidInput
  | some time =>
      if timestampPattern (toISOString time) then .ok (toISOString time)
      else .error .invalidInput

def validateLeaseId (leaseId : JsString) : Except LeasePolicyError Unit :=
  (lockPaths (js "run:" ++ leaseId)).map fun _ => ()

def validRevision (value : Int) : Except LeasePolicyError Nat :=
  if !isSafeNumber value ∨ value < 0 then .error .invalidInput else .ok value.toNat

def exactIdentity (lease : LockLease) (expected : ExpectedLeaseIdentity) : Bool :=
  lease.resource == expected.resource && lease.owner == expected.owner &&
    lease.leaseId == expected.leaseId && lease.fencingToken == expected.fencingToken &&
    lease.stateRevision == expected.stateRevision

def nextExpiry (now : JsDate) (ttlMs : Int) : Except LeasePolicyError JsString := do
  let ttlMs ← validateTtl ttlMs
  validNow (now.bind fun time => timeClip (time + ttlMs))

def nextFencingToken (token : Nat) : Except LeasePolicyError Nat :=
  if token ≥ 9007199254740991 then .error .invalidTransition else .ok (token + 1)

def currentState (current : LeasePolicyBinding) (now : JsDate) :
    Except LeasePolicyError LeaseTimeState :=
  classifyLeaseTime now (dateParse current.lease.expiresAt)

/-- The actions after which a lease is held. -/
def activeEpoch (action : LockLifecycleAction) : Bool :=
  action == .acquire || action == .renew || action == .takeover

def decideAcquire (input : DecideAcquireInput) : Except LeasePolicyError LeasePolicyDecision := do
  let acquiredAt ← validNow input.now
  let stateRevision ← validRevision input.stateRevision
  let _ ← lockPaths input.resource
  let _ ← parseOwner input.owner
  validateLeaseId input.leaseId
  let _ ← validateTtl input.ttlMs
  match input.current with
  | some current =>
      if current.action = .release then
        if current.lease.resource ≠ input.resource then .error .invalidTransition
        else do
          let expiresAt ← nextExpiry input.now input.ttlMs
          let fencingToken ← nextFencingToken current.lease.fencingToken
          .ok (.transition .acquire
            { current.lease with
              owner := input.owner
              leaseId := input.leaseId
              acquiredAt, expiresAt, fencingToken, stateRevision })
      else do
        let state ← currentState current input.now
        .ok (if state = .takeoverEligible then .takeoverRequired else .conflict)
  | none => do
      let expiresAt ← nextExpiry input.now input.ttlMs
      .ok (.transition .acquire
        { resource := input.resource
          owner := input.owner
          leaseId := input.leaseId
          acquiredAt, expiresAt
          fencingToken := 1
          stateRevision })

def decideRenew (input : DecideRenewInput) : Except LeasePolicyError LeasePolicyDecision := do
  let _ ← validNow input.now
  let stateRevision ← validRevision input.stateRevision
  if !exactIdentity input.current.lease input.expectedIdentity then .ok .conflict
  else if !activeEpoch input.current.action then .ok .conflict
  else do
    let state ← currentState input.current input.now
    if state ≠ .writable then .ok .conflict
    else do
      let expiresAt ← nextExpiry input.now input.ttlMs
      .ok (.transition .renew { input.current.lease with expiresAt, stateRevision })

def decideRelease (input : DecideReleaseInput) : Except LeasePolicyError LeasePolicyDecision := do
  let releasedAt ← validNow input.now
  let stateRevision ← validRevision input.stateRevision
  if !exactIdentity input.current.lease input.expectedIdentity then .ok .conflict
  else if !activeEpoch input.current.action then .ok .conflict
  else do
    let state ← currentState input.current input.now
    if state ≠ .writable then .ok .conflict
    else .ok (.transition .release { input.current.lease with expiresAt := releasedAt, stateRevision })

def decideTakeover (input : DecideTakeoverInput) :
    Except LeasePolicyError LeasePolicyDecision := do
  let acquiredAt ← validNow input.now
  let stateRevision ← validRevision input.stateRevision
  let _ ← parseOwner input.owner
  validateLeaseId input.leaseId
  let _ ← validateTtl input.ttlMs
  if !exactIdentity input.current.lease input.expectedIdentity then .ok .conflict
  else if !activeEpoch input.current.action then .ok .conflict
  else do
    let state ← currentState input.current input.now
    if state ≠ .takeoverEligible then .ok .conflict
    else do
      let expiresAt ← nextExpiry input.now input.ttlMs
      let fencingToken ← nextFencingToken input.current.lease.fencingToken
      .ok (.transition .takeover
        { input.current.lease with
          owner := input.owner
          leaseId := input.leaseId
          acquiredAt, expiresAt, fencingToken, stateRevision })

/-- The four requests, each with its own arguments; the current binding is the trail's. -/
inductive LeaseRequest
  | acquire (resource owner leaseId : JsString) (ttlMs stateRevision : Int)
  | renew (expectedIdentity : ExpectedLeaseIdentity) (ttlMs stateRevision : Int)
  | release (expectedIdentity : ExpectedLeaseIdentity) (stateRevision : Int)
  | takeover (expectedIdentity : ExpectedLeaseIdentity) (owner leaseId : JsString)
      (ttlMs stateRevision : Int)
  deriving DecidableEq, Repr

/-- The decision of the policy on a request; all but an acquire need a lease to act on. -/
def decideLease (now : JsDate) (current : Option LeasePolicyBinding) :
    LeaseRequest → Except LeasePolicyError LeasePolicyDecision
  | .acquire resource owner leaseId ttlMs stateRevision =>
      decideAcquire ⟨now, current, stateRevision, resource, owner, leaseId, ttlMs⟩
  | .renew expectedIdentity ttlMs stateRevision =>
      match current with
      | none => .error .invalidInput
      | some current => decideRenew ⟨now, current, stateRevision, expectedIdentity, ttlMs⟩
  | .release expectedIdentity stateRevision =>
      match current with
      | none => .error .invalidInput
      | some current => decideRelease ⟨now, current, stateRevision, expectedIdentity⟩
  | .takeover expectedIdentity owner leaseId ttlMs stateRevision =>
      match current with
      | none => .error .invalidInput
      | some current =>
          decideTakeover ⟨now, current, stateRevision, expectedIdentity, owner, leaseId, ttlMs⟩

/-- Everything the policy grants: what the new lease keeps and what allowed it. -/
inductive Granted (now : JsDate) : Option LeasePolicyBinding → LockLifecycleAction → LockLease → Prop
  | acquired {lease : LockLease} (first : lease.fencingToken = 1) : Granted now none .acquire lease
  | reacquired {current : LeasePolicyBinding} {lease : LockLease}
      (released : current.action = .release)
      (resource : lease.resource = current.lease.resource)
      (token : lease.fencingToken = current.lease.fencingToken + 1) :
      Granted now (some current) .acquire lease
  | renewed {current : LeasePolicyBinding} {lease : LockLease}
      (active : activeEpoch current.action = true)
      (writable : currentState current now = .ok .writable)
      (resource : lease.resource = current.lease.resource)
      (token : lease.fencingToken = current.lease.fencingToken)
      (owner : lease.owner = current.lease.owner)
      (leaseId : lease.leaseId = current.lease.leaseId) :
      Granted now (some current) .renew lease
  | released {current : LeasePolicyBinding} {lease : LockLease}
      (active : activeEpoch current.action = true)
      (writable : currentState current now = .ok .writable)
      (resource : lease.resource = current.lease.resource)
      (token : lease.fencingToken = current.lease.fencingToken)
      (owner : lease.owner = current.lease.owner)
      (leaseId : lease.leaseId = current.lease.leaseId) :
      Granted now (some current) .release lease
  | takenOver {current : LeasePolicyBinding} {lease : LockLease}
      (active : activeEpoch current.action = true)
      (eligible : currentState current now = .ok .takeoverEligible)
      (resource : lease.resource = current.lease.resource)
      (token : lease.fencingToken = current.lease.fencingToken + 1) :
      Granted now (some current) .takeover lease

private theorem nextFencingToken_ok {token next : Nat} (given : nextFencingToken token = .ok next) :
    next = token + 1 := by
  obtain ⟨-, same⟩ := guard_ok_iff.mp given
  exact (Except.ok.inj same).symm

private theorem decideAcquire_granted {input : DecideAcquireInput} {action : LockLifecycleAction}
    {lease : LockLease} (decided : decideAcquire input = .ok (.transition action lease)) :
    Granted input.now input.current action lease := by
  simp only [decideAcquire, bind_ok_iff] at decided
  obtain ⟨acquiredAt, -, stateRevision, -, paths, -, owner, -, ⟨⟩, -, ttl, -, decided⟩ := decided
  cases held : input.current with
  | none =>
      rw [held] at decided
      obtain ⟨expiresAt, -, same⟩ := bind_ok_iff.mp decided
      cases same
      exact .acquired rfl
  | some current =>
      simp only [held] at decided
      by_cases released : current.action = .release
      · rw [if_pos released] at decided
        obtain ⟨-, decided⟩ := guard_ok_iff.mp decided
        obtain ⟨expiresAt, -, decided⟩ := bind_ok_iff.mp decided
        obtain ⟨token, given, same⟩ := bind_ok_iff.mp decided
        cases same
        exact .reacquired released rfl (nextFencingToken_ok given)
      · rw [if_neg released] at decided
        obtain ⟨state, -, same⟩ := bind_ok_iff.mp decided
        split at same <;> cases same

private theorem decideRenew_granted {input : DecideRenewInput} {action : LockLifecycleAction}
    {lease : LockLease} (decided : decideRenew input = .ok (.transition action lease)) :
    Granted input.now (some input.current) action lease := by
  simp only [decideRenew, bind_ok_iff] at decided
  obtain ⟨now, -, stateRevision, -, decided⟩ := decided
  split at decided
  · cases decided
  split at decided
  · cases decided
  rename_i active
  obtain ⟨state, classified, decided⟩ := bind_ok_iff.mp decided
  split at decided
  · cases decided
  rename_i writable
  obtain ⟨expiresAt, -, same⟩ := bind_ok_iff.mp decided
  cases same
  rw [not_not.mp writable] at classified
  exact .renewed (by simpa using active) classified rfl rfl rfl rfl

private theorem decideRelease_granted {input : DecideReleaseInput} {action : LockLifecycleAction}
    {lease : LockLease} (decided : decideRelease input = .ok (.transition action lease)) :
    Granted input.now (some input.current) action lease := by
  simp only [decideRelease, bind_ok_iff] at decided
  obtain ⟨now, -, stateRevision, -, decided⟩ := decided
  split at decided
  · cases decided
  split at decided
  · cases decided
  rename_i active
  obtain ⟨state, classified, decided⟩ := bind_ok_iff.mp decided
  split at decided
  · cases decided
  rename_i writable
  cases decided
  rw [not_not.mp writable] at classified
  exact .released (by simpa using active) classified rfl rfl rfl rfl

private theorem decideTakeover_granted {input : DecideTakeoverInput} {action : LockLifecycleAction}
    {lease : LockLease} (decided : decideTakeover input = .ok (.transition action lease)) :
    Granted input.now (some input.current) action lease := by
  simp only [decideTakeover, bind_ok_iff] at decided
  obtain ⟨now, -, stateRevision, -, owner, -, ⟨⟩, -, ttl, -, decided⟩ := decided
  split at decided
  · cases decided
  split at decided
  · cases decided
  rename_i active
  obtain ⟨state, classified, decided⟩ := bind_ok_iff.mp decided
  split at decided
  · cases decided
  rename_i eligible
  obtain ⟨expiresAt, -, decided⟩ := bind_ok_iff.mp decided
  obtain ⟨token, given, same⟩ := bind_ok_iff.mp decided
  cases same
  rw [not_not.mp eligible] at classified
  exact .takenOver (by simpa using active) classified rfl (nextFencingToken_ok given)

/-- The inversion of the policy: every granted transition is one of the five. -/
theorem decideLease_granted {now : JsDate} {current : Option LeasePolicyBinding}
    {request : LeaseRequest} {action : LockLifecycleAction} {lease : LockLease}
    (decided : decideLease now current request = .ok (.transition action lease)) :
    Granted now current action lease := by
  cases request with
  | acquire resource owner leaseId ttlMs stateRevision => exact decideAcquire_granted decided
  | renew expectedIdentity ttlMs stateRevision =>
      cases current with
      | none => cases decided
      | some current => exact decideRenew_granted decided
  | release expectedIdentity stateRevision =>
      cases current with
      | none => cases decided
      | some current => exact decideRelease_granted decided
  | takeover expectedIdentity owner leaseId ttlMs stateRevision =>
      cases current with
      | none => cases decided
      | some current => exact decideTakeover_granted decided

end Kratos.Locks
