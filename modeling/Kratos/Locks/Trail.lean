/- source: domain/locks/policy.ts, domain/locks/lifecycle.ts, composition/locks.ts
   digest: Every granted decision appended to its trail, and the laws of the whole trail. -/

import Kratos.Locks.RoundTrip
import Mathlib.Data.List.Chain

set_option autoImplicit false

namespace Kratos.Locks

open Foundation.Text Foundation.Calendar Foundation.Runs Schema Events

section Source

/-- The two files of a scope. -/
structure StoredLease where
  eventsText : JsString
  leaseText : JsString
  deriving DecidableEq, Repr

/-- A request, the time its decision reads and what its event records. -/
structure LeaseCall where
  now : JsDate
  request : LeaseRequest
  eventId : JsString
  occurredAt : JsString
  observedIdentity : LeaseActor
  deriving DecidableEq, Repr

inductive LeaseFailure
  | corrupt | policy | refused
  deriving DecidableEq, Repr

/-- A decision that was granted, and the time it was granted at. -/
structure Grant where
  now : JsDate
  action : LockLifecycleAction
  lease : LockLease
  deriving DecidableEq, Repr

/-- The files of one resource, and every decision that went into them. -/
structure LeaseStore where
  files : Option StoredLease
  grants : List Grant
  deriving DecidableEq, Repr

def emptyStore : LeaseStore := ⟨none, []⟩

def LeaseStore.trailText (store : LeaseStore) : JsString :=
  (store.files.map StoredLease.eventsText).getD []

/-- `currentBinding`: what the stored files are bound to. -/
def currentBinding (services : EventServices) :
    Option StoredLease → Except LeaseFailure (Option LeasePolicyBinding)
  | none => .ok none
  | some files =>
      match verifyLeaseBinding services files.eventsText files.leaseText with
      | .error _ => .error .corrupt
      | .ok binding => .ok (some ⟨binding.action, binding.lease⟩)

def transitionInput (store : LeaseStore) (call : LeaseCall) (action : LockLifecycleAction)
    (lease : LockLease) (paths : LockPaths) : PrepareLeaseTransitionInput where
  action
  priorEvents := store.trailText
  lease
  leaseRef := paths.lease
  eventId := call.eventId
  occurredAt := call.occurredAt
  observedIdentity := call.observedIdentity

def publishLeaseTransition (services : EventServices) (store : LeaseStore) (call : LeaseCall)
    (action : LockLifecycleAction) (lease : LockLease) : Except LeaseFailure LeaseStore :=
  match lockPaths lease.resource with
  | .error _ => .error .policy
  | .ok paths =>
      match prepareLeaseTransition services (transitionInput store call action lease paths) with
      | .error _ => .error .corrupt
      | .ok prepared =>
          .ok
            { files := some ⟨prepared.eventsText, prepared.leaseText⟩
              grants := store.grants ++ [⟨call.now, action, lease⟩] }

/-- One decision over the stored files, published when it is a transition. -/
def grantStep (services : EventServices) (store : LeaseStore) (call : LeaseCall) :
    Except LeaseFailure LeaseStore := do
  let current ← currentBinding services store.files
  match decideLease call.now current call.request with
  | .error _ => .error .policy
  | .ok .conflict => .error .refused
  | .ok .takeoverRequired => .error .refused
  | .ok (.transition action lease) => publishLeaseTransition services store call action lease

end Source

section Laws

/-- What a grant and the one after it have in common. -/
structure Succeeds (previous next : Grant) : Prop where
  resource : next.lease.resource = previous.lease.resource
  token : next.lease.fencingToken = expectedToken next.action previous.lease.fencingToken
  holder : expectedToken next.action previous.lease.fencingToken = previous.lease.fencingToken →
    next.lease.owner = previous.lease.owner ∧ next.lease.leaseId = previous.lease.leaseId
  acquire : next.action = .acquire → previous.action = .release
  takeover : next.action = .takeover → activeEpoch previous.action = true ∧
    ∃ current expiry, next.now = some current ∧ dateParse previous.lease.expiresAt = some expiry ∧
      expiry + leaseSkewMs ≤ current

/-- What any two grants of a trail have in common. -/
structure Fenced (earlier later : Grant) : Prop where
  resource : later.lease.resource = earlier.lease.resource
  token : earlier.lease.fencingToken ≤ later.lease.fencingToken
  holder : later.lease.fencingToken = earlier.lease.fencingToken →
    later.lease.owner = earlier.lease.owner ∧ later.lease.leaseId = earlier.lease.leaseId

theorem Fenced.trans {first second third : Grant} (early : Fenced first second)
    (late : Fenced second third) : Fenced first third := by
  refine ⟨late.resource.trans early.resource, early.token.trans late.token, fun same => ?_⟩
  have one := early.token
  have two := late.token
  obtain ⟨owner, leaseId⟩ := early.holder (by omega)
  obtain ⟨laterOwner, laterId⟩ := late.holder (by omega)
  exact ⟨laterOwner.trans owner, laterId.trans leaseId⟩

theorem Succeeds.fenced {previous next : Grant} (follows : Succeeds previous next) :
    Fenced previous next := by
  have rises : previous.lease.fencingToken ≤
      expectedToken next.action previous.lease.fencingToken := by
    unfold expectedToken
    split <;> omega
  refine ⟨follows.resource, follows.token ▸ rises, fun same => follows.holder ?_⟩
  rw [← follows.token, same]

theorem succeeds_of_granted {previous : Grant} {now : JsDate} {action : LockLifecycleAction}
    {lease : LockLease} (granted : Granted now (some ⟨previous.action, previous.lease⟩) action lease) :
    Succeeds previous ⟨now, action, lease⟩ := by
  have raised : ∀ token : Nat, token + 1 ≠ token := by omega
  cases granted with
  | reacquired released resource token =>
      exact ⟨resource, token, fun same => absurd same (raised _), fun _ => released, nofun⟩
  | renewed active writable resource token owner leaseId =>
      exact ⟨resource, token, fun _ => ⟨owner, leaseId⟩, nofun, nofun⟩
  | released active writable resource token owner leaseId =>
      exact ⟨resource, token, fun _ => ⟨owner, leaseId⟩, nofun, nofun⟩
  | takenOver active eligible resource token =>
      exact ⟨resource, token, fun same => absurd same (raised _), nofun,
        fun _ => ⟨active, classifyLeaseTime_takeover eligible⟩⟩

end Laws

section Runs

variable {services : EventServices}

def Grant.operation (services : EventServices) (grant : Grant) : JsString :=
  lockOperationText grant.action grant.lease.fencingToken (services.sha256 (leaseText grant.lease))

/-- The stored files are bound, when they can be read, to the last grant. -/
def BoundToLast (services : EventServices) (store : LeaseStore) : Prop :=
  match store.files with
  | none => store.grants = []
  | some files => ∃ front last, store.grants = front ++ [last] ∧ ∀ binding,
      verifyLeaseBinding services files.eventsText files.leaseText = .ok binding →
        binding.action = last.action ∧ binding.lease = last.lease

/-- The trail is one event for each grant, in order. -/
def TrailOf (services : EventServices) (store : LeaseStore) : Prop :=
  ∃ events, store.trailText = eventText events ∧
    (∀ event ∈ events, validSealedEvent event = true) ∧
      events.map (fun event => event.draft.operation) = store.grants.map (Grant.operation services)

/-- What every reachable store satisfies. -/
structure TrailInvariant (services : EventServices) (store : LeaseStore) : Prop where
  chain : store.grants.IsChain Succeeds
  first : ∀ grant ∈ store.grants.head?, grant.action = .acquire ∧ grant.lease.fencingToken = 1
  bound : BoundToLast services store
  trail : TrailOf services store

theorem emptyStore_invariant : TrailInvariant services emptyStore := by
  refine ⟨.nil, by simp [emptyStore], rfl, [], rfl, ?_, rfl⟩
  intro event member
  cases member

private theorem currentBinding_some {files : StoredLease} {current : Option LeasePolicyBinding}
    (found : currentBinding services (some files) = .ok current) :
    ∃ binding, verifyLeaseBinding services files.eventsText files.leaseText = .ok binding ∧
      current = some ⟨binding.action, binding.lease⟩ := by
  simp only [currentBinding] at found
  split at found
  · cases found
  · rename_i binding read
    exact ⟨binding, read, (Except.ok.inj found).symm⟩

theorem grantStep_ok {store next : LeaseStore} {call : LeaseCall}
    (accepted : grantStep services store call = .ok next) :
    ∃ current action lease paths prepared, currentBinding services store.files = .ok current ∧
      Granted call.now current action lease ∧
      prepareLeaseTransition services (transitionInput store call action lease paths) =
        .ok prepared ∧
      next = ⟨some ⟨prepared.eventsText, prepared.leaseText⟩,
        store.grants ++ [⟨call.now, action, lease⟩]⟩ := by
  obtain ⟨current, bound, accepted⟩ := bind_ok_iff.mp accepted
  split at accepted
  · cases accepted
  · cases accepted
  · cases accepted
  · rename_i action lease decided
    unfold publishLeaseTransition at accepted
    split at accepted
    · cases accepted
    · rename_i paths located
      split at accepted
      · cases accepted
      · rename_i prepared produced
        obtain rfl := Except.ok.inj accepted
        exact ⟨current, action, lease, paths, prepared, bound, decideLease_granted decided, produced,
          rfl⟩

private theorem published_bound {store : LeaseStore} {call : LeaseCall}
    {action : LockLifecycleAction} {lease : LockLease} {paths : LockPaths}
    {prepared : PreparedLeaseTransition} {binding : LeaseBinding}
    (produced : prepareLeaseTransition services (transitionInput store call action lease paths) =
      .ok prepared)
    (read : verifyLeaseBinding services prepared.eventsText prepared.leaseText = .ok binding) :
    binding.action = action ∧ binding.lease = lease := by
  obtain ⟨events, expected⟩ := transition_reads produced (fits_of_reads produced read)
  obtain rfl := Except.ok.inj (read.symm.trans expected)
  exact ⟨rfl, rfl⟩

private theorem published_trail {store : LeaseStore} {call : LeaseCall}
    {action : LockLifecycleAction} {lease : LockLease} {paths : LockPaths}
    {prepared : PreparedLeaseTransition} (trail : TrailOf services store)
    (produced : prepareLeaseTransition services (transitionInput store call action lease paths) =
      .ok prepared) :
    TrailOf services ⟨some ⟨prepared.eventsText, prepared.leaseText⟩,
      store.grants ++ [⟨call.now, action, lease⟩]⟩ := by
  obtain ⟨events, written, valid, operations⟩ := trail
  obtain ⟨prior, located, position, made⟩ := prepareLeaseTransition_ok produced
  obtain ⟨draft, -, -, -, -, -, eventValid⟩ := sealEvent_ok_iff.mp made.sealed
  have priorValid : ∀ event ∈ prior.events, validSealedEvent event = true :=
    fun event member => (prior.readable event member).1
  have same : prior.events = events :=
    eventText_injective priorValid valid (prior.text.symm.trans (made.verified.trans written))
  refine ⟨prior.events ++ [prepared.event], made.eventsText, ?_, ?_⟩
  · exact List.forall_mem_append.mpr ⟨priorValid, List.forall_mem_singleton.mpr eventValid⟩
  · rw [List.map_append, List.map_append, same, operations, List.map_singleton,
      List.map_singleton, ← draft]
    rfl

theorem trailInvariant_step {store next : LeaseStore} {call : LeaseCall}
    (held : TrailInvariant services store) (accepted : grantStep services store call = .ok next) :
    TrailInvariant services next := by
  obtain ⟨current, action, lease, paths, prepared, found, granted, produced, rfl⟩ :=
    grantStep_ok accepted
  have trail := published_trail held.trail produced
  have bound : BoundToLast services ⟨some ⟨prepared.eventsText, prepared.leaseText⟩,
      store.grants ++ [⟨call.now, action, lease⟩]⟩ :=
    ⟨store.grants, _, rfl, fun binding read => published_bound produced read⟩
  have before := held.bound
  unfold BoundToLast at before
  cases files : store.files with
  | none =>
      rw [files] at before found
      obtain rfl := Except.ok.inj found
      cases granted with
      | acquired first =>
          refine ⟨?_, ?_, bound, trail⟩
          · rw [before]
            exact .singleton _
          · rw [before]
            simpa using first
  | some stored =>
      rw [files] at before found
      obtain ⟨front, last, grants, reads⟩ := before
      obtain ⟨binding, read, rfl⟩ := currentBinding_some found
      obtain ⟨actionAt, leaseAt⟩ := reads binding read
      rw [actionAt, leaseAt] at granted
      have follows := succeeds_of_granted granted
      refine ⟨?_, ?_, bound, trail⟩
      · refine List.isChain_append.mpr ⟨held.chain, .singleton _, ?_⟩
        intro previous member later single
        rw [grants, List.getLast?_concat] at member
        obtain rfl := Option.some.inj member
        obtain rfl := Option.some.inj single
        exact follows
      · intro grant member
        refine held.first grant ?_
        rw [grants] at member ⊢
        cases front <;> exact member

/-- Every trail the policy grants keeps the laws of its token and its holder. -/
theorem lease_trail_laws {calls : List LeaseCall} {store : LeaseStore}
    (run : Reaches (grantStep services) emptyStore calls store) :
    store.grants.IsChain Succeeds ∧ store.grants.Pairwise Fenced ∧
      (∀ grant ∈ store.grants.head?, grant.action = .acquire ∧ grant.lease.fencingToken = 1) ∧
      TrailOf services store := by
  have held := run.invariant (TrailInvariant services) emptyStore_invariant
    fun _ _ _ => trailInvariant_step
  have fenced : store.grants.IsChain Fenced := held.chain.imp fun _ _ => Succeeds.fenced
  have : IsTrans Grant Fenced := ⟨fun _ _ _ => Fenced.trans⟩
  exact ⟨held.chain, List.isChain_iff_pairwise.mp fenced, held.first, held.trail⟩

end Runs

section Samples

def sampleCall (now : JsDate) (request : LeaseRequest) : LeaseCall where
  now
  request
  eventId := js "e"
  occurredAt := js "1970-01-01T00:00:00.000Z"
  observedIdentity := ⟨js "claude", none⟩

def releasedLease : LockLease := { sampleLease with expiresAt := js "1970-01-01T00:00:00.000Z" }

/-- The lease of the holder that comes after. -/
def laterLease : LockLease :=
  { sampleLease with owner := js "codex:t", leaseId := js "m", fencingToken := 2 }

theorem releasedLease_grant : SampleGrant releasedLease .release :=
  ⟨by decide +kernel, by decide, by decide +kernel, by decide +kernel⟩

theorem laterLease_grant : SampleGrant laterLease .acquire :=
  ⟨by decide +kernel, by decide, by decide +kernel, by decide +kernel⟩

def acquireCall : LeaseCall :=
  sampleCall (some 0) (.acquire (js "project") (js "claude:s") (js "l") 5000 0)

def releaseCall : LeaseCall :=
  sampleCall (some 0) (.release ⟨js "project", js "claude:s", js "l", 1, 0⟩ 0)

def reacquireCall : LeaseCall :=
  sampleCall (some 0) (.acquire (js "project") (js "codex:t") (js "m") 5000 0)

/-- A store whose files are a verified trail and the lease it is bound to. -/
structure SampleStore (store : LeaseStore) (action : LockLifecycleAction) (lease : LockLease)
    (count : Nat) : Prop where
  grant : SampleGrant lease action
  held : ∃ stream front cursor, SampleTrail stream (some action, lease.fencingToken) count ∧
    stream.events = front ++ [sampleLine lease action cursor] ∧
      store.files = some ⟨stream.canonical, leaseText lease⟩

private theorem publish_sample (store : LeaseStore) {stream : VerifiedEventStream sampleServices}
    {position : LifecyclePosition} {count : Nat} (trail : SampleTrail stream position count)
    (text : store.trailText = stream.canonical) (room : count < eventStreamCount)
    {action : LockLifecycleAction} {lease : LockLease} (grant : SampleGrant lease action)
    (allowed : actionAllowed action position.1 = true)
    (token : validateTokenTransition action position.2 lease.fencingToken = .ok ())
    (now : JsDate) (request : LeaseRequest) :
    ∃ next, publishLeaseTransition sampleServices store (sampleCall now request) action lease =
        .ok next ∧ next.grants = store.grants ++ [⟨now, action, lease⟩] ∧
      SampleStore next action lease (count + 1) := by
  obtain ⟨longer, events, -, longerTrail⟩ := trail.extend room grant allowed token
  have input : transitionInput store (sampleCall now request) action lease samplePaths =
      sampleTransition lease action stream.canonical := by
    rw [transitionInput, text]
    rfl
  have produced := trail.prepared grant allowed token
  have located := (validateLease_ok grant.valid).2
  have written : eventText (stream.events ++ [sampleLine lease action stream.cursor]) =
      longer.canonical := by
    rw [longer.text, events]
  rw [← input, written] at produced
  refine ⟨⟨some ⟨longer.canonical, leaseText lease⟩, store.grants ++ [⟨now, action, lease⟩]⟩, ?_,
    rfl, grant, longer, stream.events, stream.cursor, longerTrail, events, rfl⟩
  simp only [publishLeaseTransition, located, produced]
  rfl

theorem SampleStore.step {store : LeaseStore} {previous : LockLifecycleAction}
    {current : LockLease} {count : Nat} (held : SampleStore store previous current count)
    (room : count < eventStreamCount) {now : JsDate} {request : LeaseRequest}
    {action : LockLifecycleAction} {lease : LockLease} (grant : SampleGrant lease action)
    (decided : decideLease now (some ⟨previous, current⟩) request = .ok (.transition action lease))
    (allowed : actionAllowed action (some previous) = true)
    (token : validateTokenTransition action current.fencingToken lease.fencingToken = .ok ()) :
    ∃ next, grantStep sampleServices store (sampleCall now request) = .ok next ∧
      next.grants = store.grants ++ [⟨now, action, lease⟩] ∧
        SampleStore next action lease (count + 1) := by
  obtain ⟨stream, front, cursor, trail, events, files⟩ := held.held
  have bound : currentBinding sampleServices store.files = .ok (some ⟨previous, current⟩) := by
    simp only [files, currentBinding, trail.binding held.grant events]
  have text : store.trailText = stream.canonical := by
    rw [LeaseStore.trailText, files]
    rfl
  obtain ⟨next, published, grants, later⟩ := publish_sample store trail text room grant allowed
    token now request
  refine ⟨next, ?_, grants, later⟩
  simp only [grantStep, bound, bind, Except.bind]
  have same : decideLease (sampleCall now request).now (some ⟨previous, current⟩)
      (sampleCall now request).request = .ok (.transition action lease) := decided
  rw [same]
  exact published

theorem reacquired_run :
    ∃ store, Reaches (grantStep sampleServices) emptyStore [acquireCall, releaseCall, reacquireCall]
        store ∧
      store.grants = [⟨some 0, .acquire, sampleLease⟩, ⟨some 0, .release, releasedLease⟩,
        ⟨some 0, .acquire, laterLease⟩] := by
  have acquired : decideLease (some 0) none
      (.acquire (js "project") (js "claude:s") (js "l") 5000 0) =
        .ok (.transition .acquire sampleLease) := by
    decide +kernel
  have released : decideLease (some 0) (some ⟨.acquire, sampleLease⟩)
      (.release ⟨js "project", js "claude:s", js "l", 1, 0⟩ 0) =
        .ok (.transition .release releasedLease) := by
    decide +kernel
  have reacquired : decideLease (some 0) (some ⟨.release, releasedLease⟩)
      (.acquire (js "project") (js "codex:t") (js "m") 5000 0) =
        .ok (.transition .acquire laterLease) := by
    decide +kernel
  obtain ⟨first, published, firstGrants, one⟩ := publish_sample emptyStore
    emptyStream_trail rfl (by decide) (sampleLease_grant .acquire) rfl rfl (some 0) _
  have start : grantStep sampleServices emptyStore acquireCall = .ok first := by
    simp only [grantStep, emptyStore, currentBinding, bind, Except.bind]
    have same : decideLease acquireCall.now none acquireCall.request =
        .ok (.transition .acquire sampleLease) := acquired
    rw [same]
    exact published
  obtain ⟨second, releasing, secondGrants, two⟩ := one.step (by decide) releasedLease_grant released
    rfl rfl
  obtain ⟨third, acquiring, thirdGrants, -⟩ := two.step (by decide) laterLease_grant reacquired
    rfl rfl
  refine ⟨third, ?_, ?_⟩
  · exact reaches_cons.mpr ⟨first, start, reaches_cons.mpr ⟨second, releasing,
      reaches_cons.mpr ⟨third, acquiring, reaches_nil.mpr rfl⟩⟩⟩
  · rw [thirdGrants, secondGrants, firstGrants]
    rfl

/-- The second acquire is granted within the skew window of the lease released before it. -/
theorem reacquired_within_skew :
    ∃ calls store front previous next,
      Reaches (grantStep sampleServices) emptyStore calls store ∧
      store.grants = front ++ [previous, next] ∧ next.action = .acquire ∧
      classifyLeaseTime next.now (dateParse previous.lease.expiresAt) = .ok .skew := by
  obtain ⟨store, run, grants⟩ := reacquired_run
  exact ⟨_, store, [_], _, _, run, grants, rfl, by decide +kernel⟩

theorem reacquired_trail_laws :
    ∃ store, Reaches (grantStep sampleServices) emptyStore [acquireCall, releaseCall, reacquireCall]
        store ∧ store.grants.length = 3 ∧ store.grants.IsChain Succeeds ∧
      store.grants.Pairwise Fenced ∧ TrailOf sampleServices store := by
  obtain ⟨store, run, grants⟩ := reacquired_run
  obtain ⟨chain, fenced, -, trail⟩ := lease_trail_laws run
  exact ⟨store, run, by rw [grants]; rfl, chain, fenced, trail⟩

end Samples

end Kratos.Locks
