/- source: domain/locks/lifecycle.ts, domain/events/parse.ts
   digest: When a prepared transition reads back, and a trail that has come to the reader's limit. -/

import Kratos.Locks.Policy
import Kratos.Locks.TransitionText

set_option autoImplicit false

namespace Kratos.Locks

open Foundation.Text Foundation.JsonText Foundation.Lines Foundation.Runs Patterns Schema Events

section RoundTrip

variable {services : EventServices}

/-- The condition on a transition: the trail it extends leaves room for one more line. -/
def TransitionFits (input : PrepareLeaseTransitionInput) : Prop :=
  input.priorEvents.count lineFeed < eventStreamCount ∧
    utf8Length input.priorEvents + transitionLength input (input.priorEvents.count lineFeed) + 1 ≤
      eventStreamBytes

private theorem decimal_safe {n : Nat} (safe : safeNatural n = true) : (decimal n).length ≤ 16 := by
  refine decimal_length 15 ?_
  have bound : n ≤ maxSafeInteger := by simpa [safeNatural] using safe
  have value : maxSafeInteger < 10 ^ 16 := by decide
  exact Nat.lt_of_le_of_lt bound value

private theorem nullableLength_id {value : Option JsString}
    (valid : nullableBy idPattern value = true) : nullableLength value ≤ 130 := by
  cases value with
  | none => simp [nullableLength]
  | some text =>
      have bound := idPattern_length (s := text) (by simpa [nullableBy] using valid)
      simp only [nullableLength]
      omega

private theorem nullableLength_hash {cursor : EventChainCursor} (sound : Sound cursor)
    (valid : nullableBy sha256Pattern cursor.hash = true) :
    nullableLength cursor.hash = if cursor.revision = 0 then 4 else 66 := by
  obtain ⟨revision, hash⟩ := cursor
  cases hash with
  | none =>
      have zero : revision = 0 := by simpa [Sound] using sound
      simp [nullableLength, zero]
  | some digest =>
      have later : revision ≠ 0 := by simpa [Sound] using sound
      have length := sha256_length (s := digest) (by simpa [nullableBy] using valid)
      simp [nullableLength, later, length]

private theorem digest_of_policy {input : PrepareLeaseTransitionInput} {digest : JsString}
    {revision : Nat}
    (policy : assertEventSemanticPolicy (transitionDraft input digest revision) = .ok ()) :
    sha256Pattern digest = true := by
  have later : (transitionDraft input digest revision).stateContract ≠ .v1_0 := by
    intro same
    cases same
  obtain ⟨-, -, operation⟩ := (assertEventSemanticPolicy_ok_iff later).mp policy
  have begins : startsWith (transitionDraft input digest revision).operation (js "lock.") = true := by
    have shape : (transitionDraft input digest revision).operation = js "lock." ++
        (input.action.text ++ (js ".t" ++
          (decimal input.lease.fencingToken ++ (js ".d" ++ digest)))) := by
      simp only [transitionDraft, lockOperationText, List.append_assoc]
    rw [shape]
    exact startsWith_append _ _
  rw [operationPolicyValid, if_pos begins, lockPolicyValid, Bool.and_eq_true] at operation
  by_contra invalid
  have unread : lockOperation (transitionDraft input digest revision).operation = none := by
    have read := lockOperation_text input.action input.lease.fencingToken digest
    rwa [if_neg invalid] at read
  rw [unread] at operation
  cases operation.2

/-- The event of a transition and what the sealing checked of it. -/
structure SealedTransition (services : EventServices) (input : PrepareLeaseTransitionInput)
    (cursor : EventChainCursor) (event : SealedEvent) : Prop where
  shape : event = ⟨transitionDraft input (services.sha256 (leaseText input.lease)) cursor.revision,
    cursor.hash, event.eventHash⟩
  digest : sha256Pattern (services.sha256 (leaseText input.lease)) = true
  sound : Sound cursor
  valid : validSealedEvent event = true
  step : verifyStep services cursor event = .ok (cursorAfter event)
  readable : Readable event

private theorem sealedTransition_of_sealing {input : PrepareLeaseTransitionInput}
    {cursor : EventChainCursor} {event : SealedEvent}
    (produced : sealEvent services
      (transitionDraft input (services.sha256 (leaseText input.lease)) cursor.revision) cursor =
        .ok event) :
    SealedTransition services input cursor event := by
  obtain ⟨draft, -, policy, follows, sound, hash, valid⟩ := sealEvent_ok_iff.mp produced
  have step := verifyStep_ok_iff.mpr ⟨follows, hash, rfl⟩
  have digest := digest_of_policy (draft ▸ policy)
  obtain ⟨eventDraft, previousHash, eventHash⟩ := event
  obtain rfl : _ = eventDraft := draft
  obtain rfl : previousHash = cursor.hash := follows.previous
  exact ⟨rfl, digest, sound, valid, step, valid, policy⟩

private theorem sealedTransition_bytes {input : PrepareLeaseTransitionInput}
    {cursor : EventChainCursor} {event : SealedEvent} {paths : LockPaths}
    (made : SealedTransition services input cursor event)
    (located : lockPaths input.lease.resource = .ok paths) (reference : input.leaseRef = paths.lease) :
    utf8Length (canonicalLine event) = transitionLength input cursor.revision := by
  have plainRef : Plain input.leaseRef := reference ▸ (plain_lockPaths located).1
  have valid := made.valid
  rw [made.shape] at valid
  have plain := plain_transition plainRef valid
  have previous : nullableBy sha256Pattern cursor.hash = true ∧ sha256Pattern event.eventHash = true := by
    simp only [validSealedEvent, Bool.and_eq_true] at valid
    exact ⟨valid.1.2, valid.2⟩
  have length := transition_length input (sha256_length made.digest) (sha256_length previous.2)
    (nullableLength_hash made.sound previous.1)
  rw [canonicalLine, made.shape]
  exact (utf8Length_plain plain).trans length

private theorem transitionLength_bound {input : PrepareLeaseTransitionInput} {paths : LockPaths}
    {digest : JsString} {previousHash : Option JsString} {eventHash : JsString} {revision : Nat}
    (valid : validSealedEvent ⟨transitionDraft input digest revision, previousHash, eventHash⟩ =
      true) (leaseValid : validLockLease input.lease = true)
    (located : lockPaths input.lease.resource = .ok paths) (reference : input.leaseRef = paths.lease) :
    transitionLength input revision ≤ eventRecordBytes := by
  simp only [validSealedEvent, validDraft, transitionDraft, validIdentity, positiveInteger,
    Bool.and_eq_true] at valid
  obtain ⟨⟨⟨⟨⟨⟨⟨⟨⟨⟨⟨⟨⟨⟨⟨⟨⟨⟨⟨-, eventId⟩, occurredAt⟩, -⟩, -⟩, prior⟩, resulting⟩, -⟩, -⟩, -⟩,
    ⟨⟨host, model⟩, -⟩⟩, -⟩, -⟩, -⟩, -⟩, -⟩, -⟩, -⟩, -⟩, -⟩ := valid
  have token : safeNatural input.lease.fencingToken = true := by
    simp only [validLockLease, Bool.and_eq_true] at leaseValid
    exact leaseValid.1.2
  have a := idPattern_length eventId
  have b := (plain_timestamp occurredAt).2
  have c := decimal_safe prior
  have d := decimal_safe resulting.2
  have e := decimal_safe token
  have f := (plain_lockPaths located).2
  have g := idPattern_length host
  have h := nullableLength_id model
  have action : (lockEventFacts input.action).eventType.text.length ≤ 9 ∧
      input.action.text.length ≤ 8 := by
    cases input.action <;> exact ⟨by decide, by decide⟩
  have record : eventRecordBytes = 65536 := rfl
  rw [transitionLength, record, reference]
  split <;> omega

private theorem withinLimits_iff_fits {input : PrepareLeaseTransitionInput}
    {prior : VerifiedEventStream services} {event : SealedEvent} {paths : LockPaths}
    (made : SealedTransition services input prior.cursor event)
    (leaseValid : validLockLease input.lease = true)
    (located : lockPaths input.lease.resource = .ok paths) (reference : input.leaseRef = paths.lease)
    (verified : prior.canonical = input.priorEvents) :
    WithinLimits (prior.events ++ [event]) ↔ TransitionFits input := by
  have line := sealedTransition_bytes made located reference
  have valid := made.valid
  rw [made.shape] at valid
  have short := transitionLength_bound valid leaseValid located reference
  have written : input.priorEvents = eventText prior.events := verified.symm.trans prior.text
  have feeds := count_eventText fun entry member => (prior.readable entry member).1
  have revision := (cursor_of_verified prior.chained).1
  have bytes := utf8Length_concat prior.events event
  unfold TransitionFits
  rw [written, feeds, ← revision, ← line]
  constructor
  · intro limits
    have count := limits.count
    have total := limits.bytes
    rw [List.length_append, List.length_singleton, ← revision] at count
    exact ⟨count, bytes ▸ total⟩
  · rintro ⟨count, total⟩
    refine ⟨List.forall_mem_append.mpr ⟨prior.withinLimits.record, ?_⟩, bytes.symm ▸ total, ?_⟩
    · exact List.forall_mem_singleton.mpr (line.symm ▸ short)
    · rw [List.length_append, List.length_singleton, ← revision]
      exact count

private theorem extended_stream {input : PrepareLeaseTransitionInput}
    {prior : VerifiedEventStream services} {event : SealedEvent}
    (made : SealedTransition services input prior.cursor event)
    (limits : WithinLimits (prior.events ++ [event])) :
    ∃ stream : VerifiedEventStream services,
      stream.events = prior.events ++ [event] ∧ stream.cursor = cursorAfter event := by
  have readable : ∀ entry ∈ prior.events ++ [event], Readable entry :=
    List.forall_mem_append.mpr ⟨prior.readable, List.forall_mem_singleton.mpr made.readable⟩
  exact ⟨⟨prior.events ++ [event], cursorAfter event, eventText (prior.events ++ [event]),
    parseEventLines_ok_iff.mpr ⟨rfl, readable, limits⟩,
    reaches_snoc.mpr ⟨prior.cursor, prior.chained, made.step⟩⟩, rfl, rfl⟩

private theorem transition_continues {input : PrepareLeaseTransitionInput} {event : SealedEvent}
    {cursor : EventChainCursor} {paths : LockPaths} {position : LifecyclePosition}
    (made : SealedTransition services input cursor event)
    (leaseValid : validLockLease input.lease = true) (reference : input.leaseRef = paths.lease)
    (allowed : actionAllowed input.action position.1 = true)
    (token : validateTokenTransition input.action position.2 input.lease.fencingToken = .ok ()) :
    Continues paths.lease position event
      ⟨input.action, input.lease.fencingToken, services.sha256 (leaseText input.lease)⟩ := by
  have safe : safeNatural input.lease.fencingToken = true := by
    simp only [validLockLease, Bool.and_eq_true] at leaseValid
    exact leaseValid.1.2
  have draft : event.draft =
      transitionDraft input (services.sha256 (leaseText input.lease)) cursor.revision :=
    congrArg SealedEvent.draft made.shape
  refine ⟨?_, allowed, token, ?_⟩
  · rw [draft]
    exact parseLockOperation_text made.digest safe
  · rw [draft, lifecycleFacts, ← reference]
    simp [transitionDraft]

theorem transition_reads {input : PrepareLeaseTransitionInput} {prepared : PreparedLeaseTransition}
    (produced : prepareLeaseTransition services input = .ok prepared) (fits : TransitionFits input) :
    ∃ events, verifyLeaseBinding services prepared.eventsText prepared.leaseText =
      .ok ⟨input.action, prepared.event, events, input.lease⟩ := by
  obtain ⟨prior, paths, position, made⟩ := prepareLeaseTransition_ok produced
  obtain ⟨leaseValid, located⟩ := validateLease_ok made.valid
  have sealing := sealedTransition_of_sealing made.sealed
  have limits := (withinLimits_iff_fits sealing leaseValid located made.reference made.verified).mpr
    fits
  obtain ⟨extended, events, -⟩ := extended_stream sealing limits
  have continues := transition_continues sealing leaseValid made.reference made.allowed made.token
  have trail : Reaches (lifecycleStep paths.lease) (none, 0) extended.events
      (some input.action, input.lease.fencingToken) := by
    rw [events]
    exact reaches_snoc.mpr ⟨position, made.trail, lifecycleStep_ok_iff.mpr ⟨_, continues, rfl⟩⟩
  have last : extended.events.getLast? = some prepared.event := by
    rw [events, List.getLast?_concat]
  have read := verifyLeaseBinding_of made.valid trail last continues.operation
  refine ⟨extended.events, ?_⟩
  rwa [extended.text.trans (congrArg eventText events), ← made.eventsText, ← made.leaseText] at read

theorem fits_of_reads {input : PrepareLeaseTransitionInput} {prepared : PreparedLeaseTransition}
    {binding : LeaseBinding} (produced : prepareLeaseTransition services input = .ok prepared)
    (read : verifyLeaseBinding services prepared.eventsText prepared.leaseText = .ok binding) :
    TransitionFits input := by
  obtain ⟨prior, paths, position, made⟩ := prepareLeaseTransition_ok produced
  obtain ⟨leaseValid, located⟩ := validateLease_ok made.valid
  have sealing := sealedTransition_of_sealing made.sealed
  obtain ⟨stream, canonical⟩ := verifyLeaseBinding_ok read
  have valid : ∀ event ∈ prior.events ++ [prepared.event], validSealedEvent event = true :=
    List.forall_mem_append.mpr ⟨fun event member => (prior.readable event member).1,
      List.forall_mem_singleton.mpr sealing.valid⟩
  have texts : eventText stream.events = eventText (prior.events ++ [prepared.event]) := by
    rw [← stream.text, canonical, made.eventsText]
  have same := eventText_injective (fun event member => (stream.readable event member).1) valid texts
  have limits := stream.withinLimits
  rw [same] at limits
  exact (withinLimits_iff_fits sealing leaseValid located made.reference made.verified).mp limits

/-- A prepared transition reads back as the lease it was made for exactly when the trail it extends
leaves room for it. -/
theorem lease_trail_round_trip {services : EventServices} {input : PrepareLeaseTransitionInput}
    {prepared : PreparedLeaseTransition}
    (produced : prepareLeaseTransition services input = .ok prepared) :
    (∃ binding, verifyLeaseBinding services prepared.eventsText prepared.leaseText = .ok binding ∧
      binding.action = input.action ∧ binding.event = prepared.event ∧
        binding.lease = input.lease) ↔ TransitionFits input := by
  constructor
  · rintro ⟨binding, read, -⟩
    exact fits_of_reads produced read
  · intro fits
    obtain ⟨events, read⟩ := transition_reads produced fits
    exact ⟨_, read, rfl, rfl, rfl⟩

end RoundTrip

section Samples

def sampleLease : LockLease where
  resource := js "project"
  owner := js "claude:s"
  leaseId := js "l"
  acquiredAt := js "1970-01-01T00:00:00.000Z"
  expiresAt := js "1970-01-01T00:00:05.000Z"
  fencingToken := 1
  stateRevision := 0

def samplePaths : LockPaths := pathsUnder (js ".brain/locks/project")

/-- A transition to a lease, recorded at the time the sample lease was acquired. -/
def sampleTransition (lease : LockLease) (action : LockLifecycleAction) (priorEvents : JsString) :
    PrepareLeaseTransitionInput where
  action
  priorEvents
  lease
  leaseRef := samplePaths.lease
  eventId := js "e"
  occurredAt := js "1970-01-01T00:00:00.000Z"
  observedIdentity := ⟨js "claude", none⟩

def sampleLine (lease : LockLease) (action : LockLifecycleAction) (cursor : EventChainCursor) :
    SealedEvent :=
  ⟨transitionDraft (sampleTransition lease action []) sampleHash cursor.revision, cursor.hash,
    sampleHash⟩

/-- What a lease needs for every transition to it to be sealed. -/
structure SampleGrant (lease : LockLease) (action : LockLifecycleAction) : Prop where
  valid : validateLease lease = .ok samplePaths
  token : lease.fencingToken < 10
  line : validSealedEvent (sampleLine lease action emptyCursor) = true
  policy : assertEventSemanticPolicy (sampleLine lease action emptyCursor).draft = .ok ()

/-- The cursors of a trail whose every hash is the one value of the digest. -/
def SampleCursor (cursor : EventChainCursor) : Prop :=
  Sound cursor ∧ (cursor.hash = none ∨ cursor.hash = some sampleHash) ∧
    cursor.revision < maxSafeInteger

theorem SampleGrant.sealed {lease : LockLease} {action : LockLifecycleAction}
    (grant : SampleGrant lease action) {cursor : EventChainCursor} (held : SampleCursor cursor)
    (priorEvents : JsString) :
    sealEvent sampleServices (transitionDraft (sampleTransition lease action priorEvents) sampleHash
      cursor.revision) cursor = .ok (sampleLine lease action cursor) := by
  obtain ⟨sound, hash, safe⟩ := held
  have prior : safeNatural cursor.revision = true := by
    simp only [safeNatural, decide_eq_true_eq]
    omega
  have resulting : safeNatural (cursor.revision + 1) = true := by
    simp only [safeNatural, decide_eq_true_eq]
    omega
  have positive : positiveInteger (cursor.revision + 1) = true := by
    simp [positiveInteger, resulting]
  have previous : nullableBy sha256Pattern cursor.hash = true := by
    rcases hash with none | some
    · rw [none]
      rfl
    · rw [some]
      decide
  have valid : validSealedEvent (sampleLine lease action cursor) = true := by
    have first := grant.line
    simp only [validSealedEvent, validDraft, sampleLine, transitionDraft, Bool.and_eq_true] at first ⊢
    simp only [first, prior, positive, previous, and_true, true_and]
    rfl
  have draftValid : validDraft (sampleLine lease action cursor).draft = true := by
    simp only [validSealedEvent, Bool.and_eq_true] at valid
    exact valid.1.1
  have copies := copiesDraft_of_valid draftValid rfl
  have policy : assertEventSemanticPolicy (sampleLine lease action cursor).draft = .ok () :=
    grant.policy
  exact sealEvent_ok_iff.mpr ⟨rfl, copies, policy, ⟨rfl, rfl, rfl⟩, sound, rfl, valid⟩

private theorem sampleTransition_length {lease : LockLease} (action : LockLifecycleAction)
    (short : lease.fencingToken < 10) (priorEvents : JsString) {revision : Nat}
    (small : revision < 100000) :
    transitionLength (sampleTransition lease action priorEvents) revision + 1 ≤ 660 := by
  have first : (decimal revision).length ≤ 6 := decimal_length 5 (by omega)
  have second : (decimal (revision + 1)).length ≤ 6 := decimal_length 5 (by omega)
  have token : (decimal lease.fencingToken).length ≤ 1 := decimal_length 0 (by simpa using short)
  have names : (lockEventFacts action).eventType.text.length ≤ 9 ∧ action.text.length ≤ 8 := by
    cases action <;> exact ⟨by decide, by decide⟩
  have eventId : (js "e").length = 1 := rfl
  have occurredAt : (js "1970-01-01T00:00:00.000Z").length = 24 := rfl
  have leaseRef : samplePaths.lease.length = 31 := rfl
  have host : (js "claude").length = 6 := rfl
  have model : nullableLength none = 4 := rfl
  simp only [transitionLength, sampleTransition, eventId, occurredAt, leaseRef, host, model]
  split <;> omega

/-- A verified trail of a known length and position. -/
structure SampleTrail (stream : VerifiedEventStream sampleServices) (position : LifecyclePosition)
    (count : Nat) : Prop where
  cursor : stream.cursor.revision = count
  hash : stream.cursor.hash = none ∨ stream.cursor.hash = some sampleHash
  trail : Reaches (lifecycleStep samplePaths.lease) (none, 0) stream.events position
  bytes : utf8Length stream.canonical ≤ 660 * count

theorem SampleTrail.current {stream : VerifiedEventStream sampleServices}
    {position : LifecyclePosition} {count : Nat} (held : SampleTrail stream position count) :
    SampleCursor stream.cursor := by
  have count_le := stream.withinLimits.count
  obtain ⟨revision, sound⟩ := cursor_of_verified stream.chained
  have limit : eventStreamCount < maxSafeInteger := by decide
  exact ⟨sound, held.hash, by omega⟩

theorem SampleTrail.prepared {stream : VerifiedEventStream sampleServices}
    {position : LifecyclePosition} {count : Nat} (held : SampleTrail stream position count)
    {lease : LockLease} {action : LockLifecycleAction} (grant : SampleGrant lease action)
    (allowed : actionAllowed action position.1 = true)
    (token : validateTokenTransition action position.2 lease.fencingToken = .ok ()) :
    prepareLeaseTransition sampleServices (sampleTransition lease action stream.canonical) =
      .ok ⟨sampleLine lease action stream.cursor, lease, leaseText lease,
        eventText (stream.events ++ [sampleLine lease action stream.cursor])⟩ :=
  prepareLeaseTransition_of grant.valid rfl rfl held.trail allowed token
    (grant.sealed held.current stream.canonical)

theorem SampleTrail.extend {stream : VerifiedEventStream sampleServices}
    {position : LifecyclePosition} {count : Nat} (held : SampleTrail stream position count)
    (room : count < eventStreamCount) {lease : LockLease} {action : LockLifecycleAction}
    (grant : SampleGrant lease action) (allowed : actionAllowed action position.1 = true)
    (token : validateTokenTransition action position.2 lease.fencingToken = .ok ()) :
    ∃ longer : VerifiedEventStream sampleServices,
      longer.events = stream.events ++ [sampleLine lease action stream.cursor] ∧
        longer.cursor = ⟨count + 1, some sampleHash⟩ ∧
          SampleTrail longer (some action, lease.fencingToken) (count + 1) := by
  have count_eq : eventStreamCount = 100000 := rfl
  have stream_eq : eventStreamBytes = 67108864 := rfl
  have revision := (cursor_of_verified stream.chained).1
  obtain ⟨leaseValid, located⟩ := validateLease_ok grant.valid
  have made := sealedTransition_of_sealing (grant.sealed held.current stream.canonical)
  have feeds := count_eventText fun entry member => (stream.readable entry member).1
  have length := sampleTransition_length action grant.token stream.canonical
    (by omega : count < 100000)
  have bytes := held.bytes
  have fits : TransitionFits (sampleTransition lease action stream.canonical) := by
    have written : (sampleTransition lease action stream.canonical).priorEvents =
        stream.canonical := rfl
    unfold TransitionFits
    rw [written, stream.text, feeds, ← stream.text, ← revision, held.cursor]
    omega
  have limits := (withinLimits_iff_fits made leaseValid located rfl rfl).mpr fits
  obtain ⟨longer, events, cursor⟩ := extended_stream made limits
  have continues := transition_continues made leaseValid rfl allowed token
  have line := sealedTransition_bytes made located rfl
  have next : longer.cursor = ⟨count + 1, some sampleHash⟩ := by
    rw [cursor, ← held.cursor]
    rfl
  refine ⟨longer, events, next, ?_, ?_, ?_, ?_⟩
  · rw [next]
  · rw [next]
    exact .inr rfl
  · rw [events]
    exact reaches_snoc.mpr ⟨position, held.trail, lifecycleStep_ok_iff.mpr ⟨_, continues, rfl⟩⟩
  · rw [longer.text, events, utf8Length_concat, ← stream.text, line, held.cursor]
    omega

theorem SampleTrail.binding {stream : VerifiedEventStream sampleServices} {count : Nat}
    {lease : LockLease} {action : LockLifecycleAction} {front : List SealedEvent}
    {cursor : EventChainCursor} (grant : SampleGrant lease action)
    (held : SampleTrail stream (some action, lease.fencingToken) count)
    (events : stream.events = front ++ [sampleLine lease action cursor]) :
    verifyLeaseBinding sampleServices stream.canonical (leaseText lease) =
      .ok ⟨action, sampleLine lease action cursor, stream.events, lease⟩ := by
  have safe : safeNatural lease.fencingToken = true := by
    have short := grant.token
    have largest : maxSafeInteger = 9007199254740991 := rfl
    simp only [safeNatural, decide_eq_true_eq]
    omega
  have operation : parseLockOperation (sampleLine lease action cursor).draft.operation =
      .ok ⟨action, lease.fencingToken, sampleHash⟩ :=
    parseLockOperation_text (by decide) safe
  have last : stream.events.getLast? = some (sampleLine lease action cursor) := by
    rw [events, List.getLast?_concat]
  exact verifyLeaseBinding_of grant.valid held.trail last operation

def emptyStream : VerifiedEventStream sampleServices :=
  ⟨[], emptyCursor, [], rfl, reaches_nil.mpr rfl⟩

theorem emptyStream_trail : SampleTrail emptyStream (none, 0) 0 :=
  ⟨rfl, .inl rfl, reaches_nil.mpr rfl, Nat.le_refl 0⟩

theorem sampleLease_grant (action : LockLifecycleAction) : SampleGrant sampleLease action := by
  refine ⟨by decide +kernel, by decide, ?_, ?_⟩
  · cases action <;> decide +kernel
  · cases action <;> decide +kernel

/-- An acquire and then so many renewals of the sample lease, all at one time. -/
def renewedEvents : Nat → List SealedEvent
  | 0 => [sampleLine sampleLease .acquire emptyCursor]
  | n + 1 => renewedEvents n ++ [sampleLine sampleLease .renew ⟨n + 1, some sampleHash⟩]

def renewedTrail (n : Nat) : JsString := eventText (renewedEvents n)

def renewedAction : Nat → LockLifecycleAction
  | 0 => .acquire
  | _ + 1 => .renew

theorem renewedTrail_verified (n : Nat) (room : n < eventStreamCount) :
    ∃ stream : VerifiedEventStream sampleServices, stream.canonical = renewedTrail n ∧
      stream.events = renewedEvents n ∧ stream.cursor = ⟨n + 1, some sampleHash⟩ ∧
        SampleTrail stream (some (renewedAction n), 1) (n + 1) := by
  induction n with
  | zero =>
      obtain ⟨stream, events, cursor, held⟩ := emptyStream_trail.extend room
        (sampleLease_grant .acquire) (rfl : actionAllowed .acquire none = true)
        (rfl : validateTokenTransition .acquire 0 1 = .ok ())
      exact ⟨stream, stream.text.trans (congrArg eventText events), events, cursor, held⟩
  | succ n ih =>
      obtain ⟨prior, -, priorEvents, priorCursor, held⟩ := ih (by omega)
      have allowed : actionAllowed .renew (some (renewedAction n)) = true := by
        cases n <;> rfl
      obtain ⟨stream, events, cursor, longer⟩ := held.extend room (sampleLease_grant .renew) allowed
        (rfl : validateTokenTransition .renew 1 1 = .ok ())
      rw [priorEvents, priorCursor] at events
      exact ⟨stream, stream.text.trans (congrArg eventText events), events, cursor, longer⟩

/-- The renewal of the lease its trail holds, granted at the time it was acquired. -/
theorem sampleRenewal_granted :
    decideLease (some 0) (some ⟨.renew, sampleLease⟩)
      (.renew ⟨js "project", js "claude:s", js "l", 1, 0⟩ 5000 0) =
        .ok (.transition .renew sampleLease) := by
  decide +kernel

private theorem renewal_refused (n : Nat) (full : n + 2 = eventStreamCount) :
    ∃ binding prepared,
      verifyLeaseBinding sampleServices (renewedTrail (n + 1)) (leaseText sampleLease) =
        .ok binding ∧
      decideLease (some 0) (some ⟨binding.action, binding.lease⟩)
        (.renew ⟨js "project", js "claude:s", js "l", 1, 0⟩ 5000 0) =
          .ok (.transition .renew sampleLease) ∧
      prepareLeaseTransition sampleServices
        (sampleTransition sampleLease .renew (renewedTrail (n + 1))) = .ok prepared ∧
      prepared.lease = sampleLease ∧
      ∀ read, verifyLeaseBinding sampleServices prepared.eventsText prepared.leaseText ≠
        .ok read := by
  obtain ⟨stream, canonical, events, cursor, held⟩ := renewedTrail_verified (n + 1) (by omega)
  have bound := held.binding (sampleLease_grant .renew) events
  have produced := held.prepared (sampleLease_grant .renew) (rfl : actionAllowed .renew _ = true)
    (rfl : validateTokenTransition .renew 1 1 = .ok ())
  rw [canonical] at bound produced
  refine ⟨_, _, bound, sampleRenewal_granted, produced, rfl, fun read accepted => ?_⟩
  have room := (fits_of_reads produced accepted).1
  have feeds := count_eventText fun entry member => (stream.readable entry member).1
  have written : (sampleTransition sampleLease .renew (renewedTrail (n + 1))).priorEvents =
      eventText stream.events := canonical.symm.trans stream.text
  have filled : stream.events.length = n + 2 := by
    rw [← (cursor_of_verified stream.chained).1, cursor]
  rw [written, feeds, filled] at room
  omega

/-- The trail of 100000 events is full. -/
theorem renewal_past_the_limit :
    ∃ binding prepared,
      verifyLeaseBinding sampleServices (renewedTrail 99999) (leaseText sampleLease) = .ok binding ∧
      decideLease (some 0) (some ⟨binding.action, binding.lease⟩)
        (.renew ⟨js "project", js "claude:s", js "l", 1, 0⟩ 5000 0) =
          .ok (.transition .renew sampleLease) ∧
      prepareLeaseTransition sampleServices
        (sampleTransition sampleLease .renew (renewedTrail 99999)) = .ok prepared ∧
      prepared.lease = sampleLease ∧
      ∀ read, verifyLeaseBinding sampleServices prepared.eventsText prepared.leaseText ≠
        .ok read :=
  renewal_refused 99998 rfl

/-- The first acquire of the sample lease reads back. -/
theorem first_acquire_reads :
    ∃ prepared, prepareLeaseTransition sampleServices (sampleTransition sampleLease .acquire []) =
        .ok prepared ∧
      ((∃ binding, verifyLeaseBinding sampleServices prepared.eventsText prepared.leaseText =
        .ok binding ∧ binding.action = .acquire ∧ binding.event = prepared.event ∧
          binding.lease = sampleLease) ↔
        TransitionFits (sampleTransition sampleLease .acquire [])) := by
  have produced := emptyStream_trail.prepared (sampleLease_grant .acquire)
    (rfl : actionAllowed .acquire none = true) (rfl : validateTokenTransition .acquire 0 1 = .ok ())
  exact ⟨_, produced, lease_trail_round_trip produced⟩

end Samples

end Kratos.Locks
