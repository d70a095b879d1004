/- source: domain/locks/lifecycle.ts
   digest: A lease transition appended to its hash-linked trail, and the binding read back. -/

import Kratos.Events.Chain
import Kratos.Locks.Lease

set_option autoImplicit false

namespace Kratos.Locks

open Foundation.Text Foundation.JsonText Foundation.Runs Patterns Schema Events

section Source

/-- `EventV1["observedIdentity"]`. -/
structure LeaseActor where
  host : JsString
  model : Option JsString
  deriving DecidableEq, Repr

structure PrepareLeaseTransitionInput where
  action : LockLifecycleAction
  priorEvents : JsString
  lease : LockLease
  leaseRef : JsString
  eventId : JsString
  occurredAt : JsString
  observedIdentity : LeaseActor
  deriving DecidableEq, Repr

structure PreparedLeaseTransition where
  event : SealedEvent
  lease : LockLease
  leaseText : JsString
  eventsText : JsString

structure LeaseBinding where
  action : LockLifecycleAction
  event : SealedEvent
  events : List SealedEvent
  lease : LockLease

/-- What an acquire or a takeover adds to the token. -/
def expectedToken (action : LockLifecycleAction) (priorToken : Nat) : Nat :=
  if action = .acquire ∨ action = .takeover then priorToken + 1 else priorToken

def validateTokenTransition (action : LockLifecycleAction) (priorToken nextToken : Nat) :
    Except LeaseIntegrityError Unit :=
  if !safeNatural priorToken ∨ !safeNatural nextToken ∨
      !safeNatural (expectedToken action priorToken) ∨
      nextToken ≠ expectedToken action priorToken then
    .error .failed
  else .ok ()

structure ParsedLockOperation where
  action : LockLifecycleAction
  token : Nat
  digest : JsString
  deriving DecidableEq, Repr

/-- A token past the safe integers is read as a number that is not safe either. -/
def parseLockOperation (operation : JsString) : Except LeaseIntegrityError ParsedLockOperation :=
  match lockOperation operation with
  | none => .error .failed
  | some found =>
      if !safeNatural (digitsValue found.token) then .error .failed
      else .ok ⟨found.action, digitsValue found.token, found.digest⟩

/-- Whether an action may follow the previous one of its trail. -/
def actionAllowed (action : LockLifecycleAction) : Option LockLifecycleAction → Bool
  | none => action == .acquire
  | some previous =>
      if action = .acquire then previous == .release
      else previous == .acquire || previous == .renew || previous == .takeover

def validateActionOrder (action : LockLifecycleAction) (previous : Option LockLifecycleAction) :
    Except LeaseIntegrityError Unit :=
  if !actionAllowed action previous then .error .failed else .ok ()

/-- What every event of a trail says of its lease. -/
def lifecycleFacts (leaseRef : JsString) (action : LockLifecycleAction) (event : EventDraft) :
    Bool :=
  event.eventType == (lockEventFacts action).eventType && event.policyVersion == js "locks-v1" &&
    event.reasonCode == (lockEventFacts action).reasonCode &&
    event.effect == (lockEventFacts action).effect && event.artifactRefs == [leaseRef] &&
    event.evidenceRefs.isEmpty

/-- The action and the token a trail has come to. -/
abbrev LifecyclePosition := Option LockLifecycleAction × Nat

/-- One turn of the loop of `validateLifecycleEvents`. -/
def lifecycleStep (leaseRef : JsString) (previous : LifecyclePosition) (event : SealedEvent) :
    Except LeaseIntegrityError LifecyclePosition := do
  let parsed ← parseLockOperation event.draft.operation
  validateActionOrder parsed.action previous.1
  validateTokenTransition parsed.action previous.2 parsed.token
  if !lifecycleFacts leaseRef parsed.action event.draft then .error .failed
  else .ok (some parsed.action, parsed.token)

def validateLifecycleEvents (events : List SealedEvent) (leaseRef : JsString) :
    Except LeaseIntegrityError LockLifecycleAction := do
  let final ← events.foldlM (lifecycleStep leaseRef) (none, 0)
  match final.1 with
  | none => .error .failed
  | some action => .ok action

def verifiedPrior (text : JsString) (services : EventServices) :
    Except LeaseIntegrityError (VerifiedEventStream services) :=
  match verifyEventStream text services with
  | .error _ => .error .failed
  | .ok stream => .ok stream

def lastOperation (events : List SealedEvent) :
    Except LeaseIntegrityError (Option ParsedLockOperation) :=
  match events.getLast? with
  | none => .ok none
  | some event => (parseLockOperation event.draft.operation).map some

/-- `lock.<action>.t<token>.d<digest>`. -/
def lockOperationText (action : LockLifecycleAction) (token : Nat) (digest : JsString) : JsString :=
  js "lock." ++ action.text ++ js ".t" ++ (decimal token ++ (js ".d" ++ digest))

def transitionDraft (input : PrepareLeaseTransitionInput) (digest : JsString) (revision : Nat) :
    EventDraft where
  contractVersion := .v1_2
  stateContract := .v1_2
  eventId := input.eventId
  eventType := (lockEventFacts input.action).eventType
  occurredAt := input.occurredAt
  operation := lockOperationText input.action input.lease.fencingToken digest
  policyVersion := js "locks-v1"
  priorRevision := revision
  resultingRevision := revision + 1
  reasonCode := (lockEventFacts input.action).reasonCode
  effect := (lockEventFacts input.action).effect
  artifactRefs := [input.leaseRef]
  evidenceRefs := []
  observedIdentity := ⟨input.observedIdentity.host, input.observedIdentity.model, some none⟩
  gateFailures := some []
  resulting_pos := Nat.succ_pos _

def sealTransition (services : EventServices) (input : PrepareLeaseTransitionInput)
    (prior : VerifiedEventStream services) : Except LeaseIntegrityError PreparedLeaseTransition :=
  let text := leaseText input.lease
  match sealEvent services
      (transitionDraft input (services.sha256 text) prior.cursor.revision) prior.cursor with
  | .error _ => .error .failed
  | .ok event =>
      .ok
        { event
          lease := input.lease
          leaseText := text
          eventsText := prior.canonical ++ (canonicalLine event ++ [Kratos.Foundation.Lines.lineFeed]) }

def prepareLeaseTransition (services : EventServices) (input : PrepareLeaseTransitionInput) :
    Except LeaseIntegrityError PreparedLeaseTransition := do
  let paths ← validateLease input.lease
  if input.leaseRef ≠ paths.lease then .error .failed
  else do
    let prior ← verifiedPrior input.priorEvents services
    if prior.events ≠ [] then
      let _ ← validateLifecycleEvents prior.events paths.lease
    let previous ← lastOperation prior.events
    validateActionOrder input.action (previous.map (·.action))
    validateTokenTransition input.action ((previous.map (·.token)).getD 0)
      input.lease.fencingToken
    sealTransition services input prior

def verifyLeaseBinding (services : EventServices) (eventsText leaseTextRead : JsString) :
    Except LeaseIntegrityError LeaseBinding := do
  let stream ← verifiedPrior eventsText services
  match parse leaseTextRead with
  | none => .error .failed
  | some value => do
      let lease ← validateLeaseValue value
      if leaseText lease ≠ leaseTextRead then .error .failed
      else do
        let paths ← validateLease lease
        let finalAction ← validateLifecycleEvents stream.events paths.lease
        match stream.events.getLast? with
        | none => .error .failed
        | some event => do
            let operation ← parseLockOperation event.draft.operation
            if operation.digest ≠ services.sha256 leaseTextRead ∨
                operation.token ≠ lease.fencingToken then
              .error .failed
            else .ok ⟨finalAction, event, stream.events, lease⟩

end Source

section Operations

private theorem takeWhile_token (token : Nat) (rest : JsString) :
    (decimal token ++ (js ".d" ++ rest)).takeWhile isDigit = decimal token ∧
      (decimal token ++ (js ".d" ++ rest)).dropWhile isDigit = js ".d" ++ rest := by
  have dot : isDigit (unit '.') = false := by decide
  have shape : js ".d" ++ rest = unit '.' :: (unit 'd' :: rest) := rfl
  rw [List.takeWhile_append_of_pos (decimal_digits token),
    List.dropWhile_append_of_pos (decimal_digits token), shape]
  simp [dot]

private theorem canonicalToken_decimal (token : Nat) : canonicalToken (decimal token) = true := by
  have digits : (decimal token).all isDigit = true := List.all_eq_true.mpr (decimal_digits token)
  by_cases zero : token = 0
  · subst zero
    decide
  · obtain ⟨u, rest, shape, nonzero⟩ := decimal_head (Nat.pos_of_ne_zero zero)
    rw [shape] at digits ⊢
    simp only [canonicalToken, digits, Bool.and_true, Bool.or_eq_true, bne_iff_ne]
    exact .inl nonzero

def lockOperationHead (action : LockLifecycleAction) : JsString :=
  js "lock." ++ action.text ++ js ".t"

private theorem literal_append (head rest : JsString) : literal head (head ++ rest) = some rest := by
  rw [literal, startsWith_append, if_pos rfl, List.drop_left]

private theorem literal_other {head other : JsString} (forward : startsWith head other = false)
    (backward : startsWith other head = false) (rest : JsString) :
    literal other (head ++ rest) = none := by
  rw [literal, startsWith_append_of_disjoint forward backward rest]
  rfl

private theorem lockOperationHead_disjoint {action other : LockLifecycleAction}
    (different : action ≠ other) :
    startsWith (lockOperationHead action) (lockOperationHead other) = false := by
  cases action <;> cases other <;> first | exact absurd rfl different | decide

private theorem lockOperationOf_own (action : LockLifecycleAction) (token : Nat)
    (digest : JsString) :
    lockOperationOf (lockOperationText action token digest) action =
      if sha256Pattern digest then some ⟨action, decimal token, digest⟩ else none := by
  obtain ⟨digits, after⟩ := takeWhile_token token digest
  have head : literal (js "lock." ++ action.text ++ js ".t")
      (lockOperationText action token digest) = some (decimal token ++ (js ".d" ++ digest)) :=
    literal_append _ _
  have dot : literal (js ".d") (js ".d" ++ digest) = some digest := literal_append _ _
  simp only [lockOperationOf, head, Option.bind_eq_bind, Option.bind_some, digits, after, dot,
    canonicalToken_decimal, Bool.true_and]

private theorem lockOperationOf_other {action other : LockLifecycleAction}
    (different : action ≠ other) (token : Nat) (digest : JsString) :
    lockOperationOf (lockOperationText action token digest) other = none := by
  have head : literal (js "lock." ++ other.text ++ js ".t")
      (lockOperationText action token digest) = none :=
    literal_other (lockOperationHead_disjoint different)
      (lockOperationHead_disjoint different.symm) _
  simp only [lockOperationOf, head, Option.bind_eq_bind, Option.bind_none]

/-- A lock operation is read back as the action, the token and the digest it was built from. -/
theorem lockOperation_text (action : LockLifecycleAction) (token : Nat) (digest : JsString) :
    lockOperation (lockOperationText action token digest) =
      if sha256Pattern digest then some ⟨action, decimal token, digest⟩ else none := by
  have own := lockOperationOf_own action token digest
  have others := fun other (different : action ≠ other) =>
    lockOperationOf_other different token digest
  unfold lockOperation
  by_cases valid : sha256Pattern digest = true
  · rw [if_pos valid] at own ⊢
    cases action with
    | acquire => simp [List.findSome?, own]
    | renew => simp [List.findSome?, own, others .acquire (by decide)]
    | release =>
        simp [List.findSome?, own, others .acquire (by decide), others .renew (by decide)]
    | takeover =>
        simp [List.findSome?, own, others .acquire (by decide), others .renew (by decide),
          others .release (by decide)]
  · rw [if_neg valid] at own ⊢
    refine List.findSome?_eq_none_iff.mpr fun other _ => ?_
    by_cases same : action = other
    · exact same ▸ own
    · exact others other same

theorem parseLockOperation_text {action : LockLifecycleAction} {token : Nat} {digest : JsString}
    (hashed : sha256Pattern digest = true) (safe : safeNatural token = true) :
    parseLockOperation (lockOperationText action token digest) = .ok ⟨action, token, digest⟩ := by
  rw [parseLockOperation, lockOperation_text, if_pos hashed]
  simp [digitsValue_decimal, safe]

end Operations

section Readings

variable {services : EventServices} {leaseRef : JsString}

theorem verifiedPrior_ok_iff {text : JsString} {stream : VerifiedEventStream services} :
    verifiedPrior text services = .ok stream ↔ stream.canonical = text := by
  rw [← verifyEventStream_ok_iff]
  unfold verifiedPrior
  cases verifyEventStream text services with
  | error kind => simp
  | ok read => simp

/-- What one turn of the loop accepts, and where it leaves the trail. -/
structure Continues (leaseRef : JsString) (previous : LifecyclePosition) (event : SealedEvent)
    (parsed : ParsedLockOperation) : Prop where
  operation : parseLockOperation event.draft.operation = .ok parsed
  allowed : actionAllowed parsed.action previous.1 = true
  token : validateTokenTransition parsed.action previous.2 parsed.token = .ok ()
  facts : lifecycleFacts leaseRef parsed.action event.draft = true

theorem lifecycleStep_ok_iff {previous next : LifecyclePosition} {event : SealedEvent} :
    lifecycleStep leaseRef previous event = .ok next ↔
      ∃ parsed, Continues leaseRef previous event parsed ∧
        next = (some parsed.action, parsed.token) := by
  unfold lifecycleStep
  rw [bind_ok_iff]
  constructor
  · rintro ⟨parsed, operation, accepted⟩
    obtain ⟨⟨⟩, order, accepted⟩ := bind_ok_iff.mp accepted
    obtain ⟨⟨⟩, token, accepted⟩ := bind_ok_iff.mp accepted
    obtain ⟨facts, same⟩ := guard_ok_iff.mp accepted
    obtain ⟨allowed, -⟩ := guard_ok_iff.mp order
    exact ⟨parsed, ⟨operation, by simpa using allowed, token, by simpa using facts⟩,
      (Except.ok.inj same).symm⟩
  · rintro ⟨parsed, ⟨operation, allowed, token, facts⟩, rfl⟩
    refine ⟨parsed, operation, ?_⟩
    simp only [validateActionOrder, allowed, token, facts, bind, Except.bind, Bool.not_true,
      Bool.false_eq_true, if_false]

theorem validateLifecycleEvents_ok_iff {events : List SealedEvent} {action : LockLifecycleAction} :
    validateLifecycleEvents events leaseRef = .ok action ↔
      ∃ token, Reaches (lifecycleStep leaseRef) (none, 0) events (some action, token) := by
  unfold validateLifecycleEvents
  rw [bind_ok_iff]
  constructor
  · rintro ⟨⟨reached, token⟩, run, found⟩
    cases reached with
    | none => cases found
    | some last =>
        obtain rfl := Except.ok.inj found
        exact ⟨token, run⟩
  · rintro ⟨token, run⟩
    exact ⟨(some action, token), run, rfl⟩

theorem lastOperation_of_reaches {events : List SealedEvent} {position : LifecyclePosition}
    (run : Reaches (lifecycleStep leaseRef) (none, 0) events position) :
    ∃ previous, lastOperation events = .ok previous ∧ previous.map (·.action) = position.1 ∧
      (previous.map (·.token)).getD 0 = position.2 := by
  induction events using List.reverseRecOn with
  | nil =>
      obtain rfl := reaches_nil.mp run
      exact ⟨none, rfl, rfl, rfl⟩
  | append_singleton events event _ =>
      obtain ⟨middle, -, last⟩ := reaches_snoc.mp run
      obtain ⟨parsed, continues, rfl⟩ := lifecycleStep_ok_iff.mp last
      refine ⟨some parsed, ?_, rfl, rfl⟩
      rw [lastOperation, List.getLast?_concat]
      simp only [continues.operation, Except.map]

/-- What a prepared transition was made from and what it consists of. -/
structure Prepared (services : EventServices) (input : PrepareLeaseTransitionInput)
    (prepared : PreparedLeaseTransition) (prior : VerifiedEventStream services)
    (paths : LockPaths) (position : LifecyclePosition) : Prop where
  valid : validateLease input.lease = .ok paths
  reference : input.leaseRef = paths.lease
  verified : prior.canonical = input.priorEvents
  trail : Reaches (lifecycleStep paths.lease) (none, 0) prior.events position
  allowed : actionAllowed input.action position.1 = true
  token : validateTokenTransition input.action position.2 input.lease.fencingToken = .ok ()
  sealed : sealEvent services
    (transitionDraft input (services.sha256 (leaseText input.lease)) prior.cursor.revision)
      prior.cursor = .ok prepared.event
  lease : prepared.lease = input.lease
  leaseText : prepared.leaseText = leaseText input.lease
  eventsText : prepared.eventsText = eventText (prior.events ++ [prepared.event])

private theorem sealTransition_ok {input : PrepareLeaseTransitionInput}
    {prior : VerifiedEventStream services} {prepared : PreparedLeaseTransition}
    (sealing : sealTransition services input prior = .ok prepared) :
    sealEvent services
        (transitionDraft input (services.sha256 (leaseText input.lease)) prior.cursor.revision)
          prior.cursor = .ok prepared.event ∧
      prepared.lease = input.lease ∧ prepared.leaseText = leaseText input.lease ∧
      prepared.eventsText = eventText (prior.events ++ [prepared.event]) := by
  simp only [sealTransition] at sealing
  split at sealing
  · cases sealing
  · rename_i event produced
    obtain rfl := Except.ok.inj sealing
    refine ⟨produced, rfl, rfl, ?_⟩
    rw [eventText_concat, prior.text]

theorem prepareLeaseTransition_ok {input : PrepareLeaseTransitionInput}
    {prepared : PreparedLeaseTransition}
    (produced : prepareLeaseTransition services input = .ok prepared) :
    ∃ prior paths position, Prepared services input prepared prior paths position := by
  simp only [prepareLeaseTransition, bind_ok_iff] at produced
  obtain ⟨paths, valid, produced⟩ := produced
  obtain ⟨reference, produced⟩ := guard_ok_iff.mp produced
  obtain ⟨prior, verified, produced⟩ := bind_ok_iff.mp produced
  have continued : (∃ position, Reaches (lifecycleStep paths.lease) (none, 0) prior.events position) ∧
      (do
        let previous ← lastOperation prior.events
        validateActionOrder input.action (previous.map ParsedLockOperation.action)
        validateTokenTransition input.action ((previous.map ParsedLockOperation.token).getD 0)
          input.lease.fencingToken
        sealTransition services input prior) = .ok prepared := by
    by_cases empty : prior.events = []
    · rw [if_neg (not_not.mpr empty)] at produced
      exact ⟨⟨(none, 0), by rw [empty]; exact reaches_nil.mpr rfl⟩, produced⟩
    · rw [if_pos empty] at produced
      obtain ⟨action, trail, produced⟩ := bind_ok_iff.mp produced
      obtain ⟨token, run⟩ := validateLifecycleEvents_ok_iff.mp trail
      exact ⟨⟨_, run⟩, produced⟩
  obtain ⟨⟨position, trail⟩, produced⟩ := continued
  obtain ⟨previous, last, actionAt, tokenAt⟩ := lastOperation_of_reaches trail
  obtain ⟨found, same, produced⟩ := bind_ok_iff.mp produced
  obtain rfl := Except.ok.inj (last.symm.trans same)
  obtain ⟨⟨⟩, order, produced⟩ := bind_ok_iff.mp produced
  obtain ⟨⟨⟩, token, produced⟩ := bind_ok_iff.mp produced
  obtain ⟨allowed, -⟩ := guard_ok_iff.mp order
  rw [actionAt] at allowed
  rw [tokenAt] at token
  obtain ⟨sealed, lease, text, events⟩ := sealTransition_ok produced
  exact ⟨prior, paths, position, valid, not_not.mp reference, verifiedPrior_ok_iff.mp verified,
    trail, by simpa using allowed, token, sealed, lease, text, events⟩

/-- A verified trail whose last operation names the lease is read as a binding. -/
theorem verifyLeaseBinding_of {stream : VerifiedEventStream services} {lease : LockLease}
    {paths : LockPaths} {action : LockLifecycleAction} {event : SealedEvent} {token : Nat}
    (valid : validateLease lease = .ok paths)
    (trail : Reaches (lifecycleStep paths.lease) (none, 0) stream.events (some action, token))
    (last : stream.events.getLast? = some event)
    (operation : parseLockOperation event.draft.operation =
      .ok ⟨action, lease.fencingToken, services.sha256 (leaseText lease)⟩) :
    verifyLeaseBinding services stream.canonical (leaseText lease) =
      .ok ⟨action, event, stream.events, lease⟩ := by
  obtain ⟨value, parsed, read⟩ := leaseText_reads valid
  have verified := verifiedPrior_ok_iff.mpr (rfl : stream.canonical = stream.canonical)
  have final := validateLifecycleEvents_ok_iff.mpr ⟨token, trail⟩
  simp only [verifyLeaseBinding, verified, parsed, read, valid, final, last, operation, bind,
    Except.bind, ne_eq, not_true_eq_false, or_self, if_false]

theorem verifyLeaseBinding_ok {eventsText leaseTextRead : JsString} {binding : LeaseBinding}
    (verified : verifyLeaseBinding services eventsText leaseTextRead = .ok binding) :
    ∃ stream : VerifiedEventStream services, stream.canonical = eventsText := by
  obtain ⟨stream, prior, -⟩ := bind_ok_iff.mp verified
  exact ⟨stream, verifiedPrior_ok_iff.mp prior⟩

theorem prepareLeaseTransition_of {input : PrepareLeaseTransitionInput}
    {prior : VerifiedEventStream services} {paths : LockPaths} {position : LifecyclePosition}
    {event : SealedEvent} (valid : validateLease input.lease = .ok paths)
    (reference : input.leaseRef = paths.lease) (verified : prior.canonical = input.priorEvents)
    (trail : Reaches (lifecycleStep paths.lease) (none, 0) prior.events position)
    (allowed : actionAllowed input.action position.1 = true)
    (token : validateTokenTransition input.action position.2 input.lease.fencingToken = .ok ())
    (sealing : sealEvent services
      (transitionDraft input (services.sha256 (leaseText input.lease)) prior.cursor.revision)
        prior.cursor = .ok event) :
    prepareLeaseTransition services input =
      .ok ⟨event, input.lease, leaseText input.lease, eventText (prior.events ++ [event])⟩ := by
  obtain ⟨previous, last, actionAt, tokenAt⟩ := lastOperation_of_reaches trail
  have ordered : validateActionOrder input.action (previous.map (·.action)) = .ok () := by
    rw [actionAt, validateActionOrder, allowed]
    rfl
  rw [← tokenAt] at token
  have made : sealTransition services input prior =
      .ok ⟨event, input.lease, leaseText input.lease, eventText (prior.events ++ [event])⟩ := by
    simp only [sealTransition, sealing]
    rw [eventText_concat, prior.text]
  have checked : prior.events ≠ [] → ∃ action,
      validateLifecycleEvents prior.events paths.lease = .ok action := by
    intro filled
    obtain ⟨front, final, shape⟩ := (List.eq_nil_or_concat' prior.events).resolve_left filled
    rw [shape] at trail
    obtain ⟨middle, -, step⟩ := reaches_snoc.mp trail
    obtain ⟨parsed, -, rfl⟩ := lifecycleStep_ok_iff.mp step
    exact ⟨parsed.action, validateLifecycleEvents_ok_iff.mpr ⟨parsed.token, shape ▸ trail⟩⟩
  simp only [prepareLeaseTransition, valid, reference, verifiedPrior_ok_iff.mpr verified, bind,
    Except.bind, ne_eq, not_true_eq_false, if_false]
  by_cases empty : prior.events = []
  · rw [if_neg (not_not.mpr empty)]
    simp only [last, ordered, token, made]
  · obtain ⟨action, lifecycle⟩ := checked empty
    rw [if_pos empty]
    simp only [lifecycle, last, ordered, token, made]

end Readings

end Kratos.Locks
