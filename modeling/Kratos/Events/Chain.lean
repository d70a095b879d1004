/- source: domain/events/redaction.ts, domain/events/seal.ts, domain/events/parse.ts, domain/events/verify.ts
   digest: Sealing drafts into a hash chain, reading the lines of a stream back, verifying it. -/

import Kratos.Events.Contract
import Kratos.Events.Semantics
import Kratos.Foundation.HashChain
import Kratos.Foundation.Lines
import Kratos.Foundation.Runs

set_option autoImplicit false

namespace Kratos.Events

open Foundation.Text Foundation.JsonText Foundation.Lines Foundation.Runs Foundation.HashChain
open Schema Gates

section Source

/-- The digest of a text, the one service the chain relies on. -/
structure EventServices where
  sha256 : JsString → JsString

/-- `EVENT_RECORD_BYTES`, `EVENT_STREAM_BYTES`, `EVENT_STREAM_COUNT`. -/
def eventRecordBytes : Nat := 64 * 1024
def eventStreamBytes : Nat := 64 * 1024 * 1024
def eventStreamCount : Nat := 100000

def maxReferenceCount : Nat := 256

/-- `{ revision: 0, hash: null }`. -/
def emptyCursor : EventChainCursor := ⟨0, none⟩

def copyReferences (refs : List JsString) (maxCount : Nat) : Bool := decide (refs.length ≤ maxCount)

def copyGateFailure (failure : GateFailure) : Bool :=
  safeNatural failure.priority && copyReferences failure.evidenceRefs 16

def copyGateFailures (failures : List GateFailure) : Bool :=
  decide (failures.length ≤ gateIds.length) && failures.all copyGateFailure

def copyRunLimits (limits : RunLimits) : Bool := safeNatural limits.acceptanceAttemptCeiling

def copyAcceptanceDecision (decision : AcceptanceDecision) : Bool :=
  decide (decision.attempts.length ≤ maxReferenceCount) &&
    decision.attempts.all (fun entry => safeNatural entry.attempt) &&
    decide (decision.repairStops.length ≤ maxReferenceCount) &&
    decision.repairStops.all (fun stop => safeNatural stop.attempt)

def copyStartedFromSpec (restart : StartedFromSpec) : Bool :=
  copyReferences restart.retiredCriterionIds maxReferenceCount &&
    !restart.retiredCriterionIds.isEmpty

/-- What the typed copy of a draft checks: the keys it requires and the bounds of its parts. -/
def copiesDraft (draft : EventDraft) : Bool :=
  safeNatural draft.priorRevision && safeNatural draft.resultingRevision &&
    copyReferences draft.artifactRefs maxReferenceCount &&
    copyReferences draft.evidenceRefs maxReferenceCount &&
    draft.observedIdentity.effort.isSome &&
    (draft.gateFailures.map copyGateFailures).getD false &&
    (draft.runLimits.map copyRunLimits).getD true &&
    (draft.acceptanceDecision.map copyAcceptanceDecision).getD true &&
    (draft.startedFromSpec.map copyStartedFromSpec).getD true

def assertEventPolicy (event : EventDraft) : Except EventIntegrityKind Unit :=
  match assertEventSemanticPolicy event with
  | .ok () => .ok ()
  | .error _ => .error .invalidEvent

def snapshotEventDraft (draft : EventDraft) : Except EventIntegrityKind EventDraft := do
  if !copiesDraft draft then throw .invalidEvent
  assertEventPolicy draft
  pure draft

/-- The hash of an event: the digest of everything else it holds. -/
def eventHashOf (services : EventServices) (draft : EventDraft) (previousHash : Option JsString) :
    JsString :=
  services.sha256 (canonicalizeJson (unsignedEvent draft previousHash))

def sealEvent (services : EventServices) (input : EventDraft) (cursor : EventChainCursor) :
    Except EventIntegrityKind SealedEvent := do
  let draft ← snapshotEventDraft input
  if draft.priorRevision ≠ cursor.revision ∨ draft.resultingRevision ≠ cursor.revision + 1 ∨
      (cursor.revision == 0) ≠ cursor.hash.isNone then
    throw .invalidSequence
  let event : SealedEvent := ⟨draft, cursor.hash, eventHashOf services draft cursor.hash⟩
  if !validSealedEvent event then throw .invalidEvent
  pure event

/-- `canonicalizeJson(event)`, the line of an event in its stream. -/
def canonicalLine (event : SealedEvent) : JsString := canonicalizeJson (sealedEvent.encode event)

def validateEvent (value : Json) : Except EventIntegrityKind SealedEvent :=
  match sealedEvent.decode value with
  | none => .error .invalidEvent
  | some event => do
      if !validSealedEvent event then throw .invalidEvent
      assertEventPolicy event.draft
      pure event

def parseEventLine (line : JsString) : Except EventIntegrityKind SealedEvent := do
  if utf8Length line > eventRecordBytes then throw .resourceLimit
  match parse line with
  | none => throw .invalidEvent
  | some parsed =>
      let event ← validateEvent parsed
      if canonicalLine event ≠ line then throw .nonCanonical
      pure event

def parseEventLines (text : JsString) : Except EventIntegrityKind (List SealedEvent) := do
  if utf8Length text > eventStreamBytes then throw .resourceLimit
  if text = [] then return []
  if 0x0D ∈ text ∨ text.getLast? ≠ some lineFeed then throw .nonCanonical
  let lines := (splitLines text).dropLast
  if lines.length > eventStreamCount then throw .resourceLimit
  if [] ∈ lines then throw .nonCanonical
  lines.mapM parseEventLine

def verifyStep (services : EventServices) (cursor : EventChainCursor) (event : SealedEvent) :
    Except EventIntegrityKind EventChainCursor := do
  if event.draft.priorRevision ≠ cursor.revision ∨
      event.draft.resultingRevision ≠ cursor.revision + 1 ∨ event.previousHash ≠ cursor.hash then
    throw .invalidSequence
  if event.eventHash ≠ eventHashOf services event.draft event.previousHash then throw .invalidEvent
  pure ⟨event.draft.resultingRevision, some event.eventHash⟩

/-- A stream that was verified: its provenance is part of the value. -/
structure VerifiedEventStream (services : EventServices) where
  events : List SealedEvent
  cursor : EventChainCursor
  canonical : JsString
  parsed : parseEventLines canonical = .ok events
  chained : Reaches (verifyStep services) emptyCursor events cursor

def verifyEventStream (text : JsString) (services : EventServices) :
    Except EventIntegrityKind (VerifiedEventStream services) :=
  match parsed : parseEventLines text with
  | .error kind => .error kind
  | .ok events =>
      match chained : events.foldlM (verifyStep services) emptyCursor with
      | .error kind => .error kind
      | .ok cursor => .ok ⟨events, cursor, text, parsed, chained⟩

end Source

section Readings

theorem assertEventPolicy_ok_iff {event : EventDraft} :
    assertEventPolicy event = .ok () ↔ assertEventSemanticPolicy event = .ok () := by
  unfold assertEventPolicy
  cases assertEventSemanticPolicy event with
  | ok value => simp
  | error message => simp

theorem snapshotEventDraft_ok_iff {input draft : EventDraft} :
    snapshotEventDraft input = .ok draft ↔
      copiesDraft input = true ∧ assertEventSemanticPolicy input = .ok () ∧ draft = input := by
  unfold snapshotEventDraft
  rw [← assertEventPolicy_ok_iff]
  cases copiesDraft input <;> cases assertEventPolicy input <;>
    simp [bind, Except.bind, pure, Except.pure, throw, throwThe, MonadExceptOf.throw, eq_comm]

/-- What an event and the cursor before it have in common. -/
structure Follows (cursor : EventChainCursor) (event : SealedEvent) : Prop where
  prior : event.draft.priorRevision = cursor.revision
  resulting : event.draft.resultingRevision = cursor.revision + 1
  previous : event.previousHash = cursor.hash

/-- A hash is missing before the first event alone. -/
def Sound (cursor : EventChainCursor) : Prop := (cursor.revision == 0) = cursor.hash.isNone

def cursorAfter (event : SealedEvent) : EventChainCursor :=
  ⟨event.draft.resultingRevision, some event.eventHash⟩

theorem cursorAfter_sound (event : SealedEvent) : Sound (cursorAfter event) := by
  have positive := event.draft.resulting_pos
  have different : event.draft.resultingRevision ≠ 0 := by omega
  simp [Sound, cursorAfter, different]

theorem sealEvent_ok_iff {services : EventServices} {input : EventDraft}
    {cursor : EventChainCursor} {event : SealedEvent} :
    sealEvent services input cursor = .ok event ↔
      input = event.draft ∧ copiesDraft event.draft = true ∧
        assertEventSemanticPolicy event.draft = .ok () ∧ Follows cursor event ∧ Sound cursor ∧
        event.eventHash = eventHashOf services event.draft event.previousHash ∧
        validSealedEvent event = true := by
  unfold sealEvent
  constructor
  · intro accepted
    cases snapshot : snapshotEventDraft input with
    | error kind =>
        rw [snapshot] at accepted
        cases accepted
    | ok draft =>
        obtain ⟨copies, policy, rfl⟩ := snapshotEventDraft_ok_iff.mp snapshot
        simp only [snapshot, bind, Except.bind, pure, Except.pure, throw, throwThe,
          MonadExceptOf.throw] at accepted
        obtain ⟨position, checked⟩ := guard_ok_iff.mp accepted
        obtain ⟨valid, same⟩ := guard_ok_iff.mp checked
        obtain rfl := Except.ok.inj same
        simp only [not_or, not_not] at position
        exact ⟨rfl, copies, policy, ⟨position.1, position.2.1, rfl⟩, position.2.2, rfl,
          by simpa using valid⟩
  · obtain ⟨draft, previousHash, eventHash⟩ := event
    rintro ⟨rfl, copies, policy, ⟨prior, resulting, previous⟩, sound, hash, valid⟩
    simp only at copies policy prior resulting previous hash
    subst previous hash
    have snapshot := snapshotEventDraft_ok_iff.mpr ⟨copies, policy, rfl⟩
    unfold Sound at sound
    simp [snapshot, bind, Except.bind, pure, Except.pure, prior, resulting, sound, valid]

theorem validateEvent_ok_iff {value : Json} {event : SealedEvent} :
    validateEvent value = .ok event ↔
      sealedEvent.decode value = some event ∧ validSealedEvent event = true ∧
        assertEventSemanticPolicy event.draft = .ok () := by
  unfold validateEvent
  cases decoded : sealedEvent.decode value with
  | none => simp
  | some read =>
      rw [Option.some.injEq]
      constructor
      · intro accepted
        simp only [bind, Except.bind, pure, Except.pure, throw, throwThe,
          MonadExceptOf.throw] at accepted
        obtain ⟨valid, checked⟩ := guard_ok_iff.mp accepted
        cases policy : assertEventPolicy read.draft with
        | error kind =>
            rw [policy] at checked
            cases checked
        | ok value =>
            rw [policy] at checked
            obtain rfl := Except.ok.inj checked
            exact ⟨rfl, by simpa using valid, assertEventPolicy_ok_iff.mp policy⟩
      · rintro ⟨rfl, valid, policy⟩
        have passed := assertEventPolicy_ok_iff.mpr policy
        simp [valid, passed, bind, Except.bind, pure, Except.pure]

/-- What holds of every event that is read: its schema and its semantic policy. -/
def Readable (event : SealedEvent) : Prop :=
  validSealedEvent event = true ∧ assertEventSemanticPolicy event.draft = .ok ()

theorem canonicalLine_parse {event : SealedEvent} (valid : validSealedEvent event = true) :
    parse (canonicalLine event) = some (canonicalForm (sealedEvent.encode event)) := by
  have nothing : Blank ([] : JsString) := by
    intro u member
    cases member
  have read := parse_canonicalizeJson (wellFormed_sealedEvent valid) nothing
  rwa [List.append_nil] at read

/-- A line that is read is the canonical line of a readable event within the record bound. -/
theorem parseEventLine_ok_iff {line : JsString} {event : SealedEvent} :
    parseEventLine line = .ok event ↔
      canonicalLine event = line ∧ Readable event ∧ utf8Length line ≤ eventRecordBytes := by
  unfold parseEventLine
  simp only [bind, Except.bind, pure, Except.pure, throw, throwThe, MonadExceptOf.throw]
  rw [guard_ok_iff, Nat.not_lt]
  constructor
  · rintro ⟨within, accepted⟩
    cases parsed : parse line with
    | none =>
        rw [parsed] at accepted
        cases accepted
    | some value =>
        cases checked : validateEvent value with
        | error kind =>
            simp only [parsed, checked] at accepted
            cases accepted
        | ok read =>
            simp only [parsed, checked] at accepted
            obtain ⟨canonical, same⟩ := guard_ok_iff.mp accepted
            obtain rfl := Except.ok.inj same
            obtain ⟨-, readable⟩ := validateEvent_ok_iff.mp checked
            exact ⟨by simpa using canonical, readable, within⟩
  · rintro ⟨rfl, ⟨valid, policy⟩, within⟩
    have decoded : sealedEvent.decode (canonicalForm (sealedEvent.encode event)) = some event :=
      sealedEvent.decode_same event _ (sameValue_canonicalForm _)
    have checked := validateEvent_ok_iff.mpr ⟨decoded, valid, policy⟩
    refine ⟨within, ?_⟩
    simp only [canonicalLine_parse valid, checked, ne_eq, not_true_eq_false, if_false]

end Readings

section Streams

def eventText (events : List SealedEvent) : JsString := terminated (events.map canonicalLine)

/-- The bounds of the reader: on each line, on the bytes of the text and on its events. -/
structure WithinLimits (events : List SealedEvent) : Prop where
  record : ∀ event ∈ events, utf8Length (canonicalLine event) ≤ eventRecordBytes
  bytes : utf8Length (eventText events) ≤ eventStreamBytes
  count : events.length ≤ eventStreamCount

theorem canonicalLine_printable {event : SealedEvent} (valid : validSealedEvent event = true) :
    Printable (canonicalLine event) :=
  canonicalizeJson_printable (wellFormed_sealedEvent valid)

theorem canonicalLine_ne_nil (event : SealedEvent) : canonicalLine event ≠ [] := by
  unfold canonicalLine
  exact List.cons_ne_nil _ _

theorem eventText_lines {events : List SealedEvent}
    (valid : ∀ event ∈ events, validSealedEvent event = true) :
    splitLines (eventText events) = events.map canonicalLine ++ [[]] := by
  refine splitLines_terminated fun line listed => ?_
  obtain ⟨event, member, rfl⟩ := List.mem_map.mp listed
  exact (canonicalLine_printable (valid event member)).not_mem (by decide)

theorem eventText_nil : eventText [] = [] := rfl

theorem eventText_ends {events : List SealedEvent} (filled : events ≠ []) :
    (eventText events).getLast? = some lineFeed := by
  induction events using List.reverseRecOn with
  | nil => exact absurd rfl filled
  | append_singleton events event _ =>
      rw [eventText, List.map_append, terminated, List.flatMap_append]
      simp

theorem eventText_ne_nil {events : List SealedEvent} (filled : events ≠ []) :
    eventText events ≠ [] := by
  intro empty
  have ends := eventText_ends filled
  rw [empty] at ends
  cases ends

theorem eventText_no_return {events : List SealedEvent}
    (valid : ∀ event ∈ events, validSealedEvent event = true) : 0x0D ∉ eventText events := by
  intro member
  obtain ⟨line, listed, inLine⟩ := List.mem_flatMap.mp member
  obtain ⟨event, held, rfl⟩ := List.mem_map.mp listed
  rcases List.mem_append.mp inLine with inside | last
  · exact (canonicalLine_printable (valid event held)).not_mem (by decide) inside
  · exact absurd (List.mem_singleton.mp last) (by decide)

theorem eventText_concat (events : List SealedEvent) (event : SealedEvent) :
    eventText (events ++ [event]) = eventText events ++ (canonicalLine event ++ [lineFeed]) := by
  simp [eventText, terminated]

theorem utf8Length_concat (events : List SealedEvent) (event : SealedEvent) :
    utf8Length (eventText (events ++ [event])) =
      utf8Length (eventText events) + utf8Length (canonicalLine event) + 1 := by
  have line := utf8Length_line (canonicalLine event) []
  have nothing : utf8Length [] = 0 := rfl
  rw [nothing] at line
  cases events using List.reverseRecOn with
  | nil =>
      rw [eventText_concat, eventText_nil, nothing, List.nil_append, line]
      omega
  | append_singleton front last =>
      have before := utf8Length_line (eventText front ++ canonicalLine last) []
      have after := utf8Length_line (eventText front ++ canonicalLine last)
        (canonicalLine event ++ [lineFeed])
      rw [nothing] at before
      rw [eventText_concat, eventText_concat, List.append_assoc, List.append_assoc,
        List.singleton_append, ← List.append_assoc, after, ← List.append_assoc, before, line]
      omega

theorem count_eventText {events : List SealedEvent}
    (valid : ∀ event ∈ events, validSealedEvent event = true) :
    (eventText events).count lineFeed = events.length := by
  induction events with
  | nil => rfl
  | cons event events ih =>
      rw [List.forall_mem_cons] at valid
      have absent : lineFeed ∉ canonicalLine event :=
        (canonicalLine_printable valid.1).not_mem (by decide)
      have shape : eventText (event :: events) =
          (canonicalLine event ++ [lineFeed]) ++ eventText events := by
        simp [eventText, terminated]
      rw [shape, List.count_append, List.count_append, List.count_eq_zero_of_not_mem absent,
        ih valid.2, List.count_singleton_self, List.length_cons]
      omega

theorem canonicalLine_injective {left right : SealedEvent}
    (leftValid : validSealedEvent left = true) (rightValid : validSealedEvent right = true)
    (same : canonicalLine left = canonicalLine right) : left = right := by
  have one := canonicalLine_parse leftValid
  rw [same, canonicalLine_parse rightValid] at one
  have forms := Option.some.inj one
  exact (sealedEvent.encode_injective forms).symm

theorem eventText_injective {left right : List SealedEvent}
    (leftValid : ∀ event ∈ left, validSealedEvent event = true)
    (rightValid : ∀ event ∈ right, validSealedEvent event = true)
    (same : eventText left = eventText right) : left = right := by
  have lines : left.map canonicalLine = right.map canonicalLine := by
    have split := eventText_lines leftValid
    rw [same, eventText_lines rightValid] at split
    exact (List.append_cancel_right split).symm
  clear same
  induction left generalizing right with
  | nil => exact (List.map_eq_nil_iff.mp lines.symm).symm
  | cons event left ih =>
      cases right with
      | nil => cases lines
      | cons other right =>
          obtain ⟨first, later⟩ := List.cons.inj lines
          rw [List.forall_mem_cons] at leftValid rightValid
          have heads := canonicalLine_injective leftValid.1 rightValid.1 first
          rw [heads, ih leftValid.2 rightValid.2 later]

/-- A text that is read is the text of readable events within the bounds of the reader. -/
theorem parseEventLines_ok_iff {text : JsString} {events : List SealedEvent} :
    parseEventLines text = .ok events ↔
      text = eventText events ∧ (∀ event ∈ events, Readable event) ∧ WithinLimits events := by
  unfold parseEventLines
  simp only [bind, Except.bind, pure, Except.pure, throw, throwThe, MonadExceptOf.throw]
  rw [guard_ok_iff, Nat.not_lt]
  by_cases empty : text = []
  · subst empty
    rw [if_pos rfl]
    constructor
    · rintro ⟨bytes, same⟩
      obtain rfl := Except.ok.inj same
      rw [← eventText_nil] at bytes
      refine ⟨eventText_nil.symm, ?_, ⟨?_, bytes, Nat.zero_le _⟩⟩
      · intro event member
        cases member
      · intro event member
        cases member
    · rintro ⟨same, -, limits⟩
      have none : events = [] := by
        by_contra filled
        exact eventText_ne_nil filled same.symm
      subst none
      have bytes := limits.bytes
      rw [eventText_nil] at bytes
      exact ⟨bytes, rfl⟩
  · rw [if_neg empty, guard_ok_iff, guard_ok_iff, guard_ok_iff, Nat.not_lt, mapM_ok_iff]
    constructor
    · rintro ⟨bytes, shape, count, -, read⟩
      simp only [not_or, not_not] at shape
      have each : List.Forall₂ (fun line event => line = canonicalLine event ∧
          Readable event ∧ utf8Length line ≤ eventRecordBytes) (splitLines text).dropLast events :=
        read.imp fun line event parsed => by
          obtain ⟨canonical, readable, within⟩ := parseEventLine_ok_iff.mp parsed
          exact ⟨canonical.symm, readable, within⟩
      have lines : (splitLines text).dropLast = events.map canonicalLine := by
        have same := each.imp fun _ _ held => held.1
        rwa [← List.forall₂_map_right_iff, List.forall₂_eq_eq_eq] at same
      have restored := terminated_splitLines shape.2
      rw [lines] at restored each count
      have held := List.forall₂_map_left_iff.mp each
      have every := List.forall₂_same.mp held
      rw [List.length_map] at count
      refine ⟨restored.symm, fun event member => (every event member).2.1,
        ⟨fun event member => (every event member).2.2, ?_, count⟩⟩
      rwa [eventText, restored]
    · rintro ⟨rfl, readable, limits⟩
      have valid : ∀ event ∈ events, validSealedEvent event = true :=
        fun event member => (readable event member).1
      have filled : events ≠ [] := by
        rintro rfl
        exact empty rfl
      have lines : (splitLines (eventText events)).dropLast = events.map canonicalLine := by
        rw [eventText_lines valid, List.dropLast_concat]
      rw [lines]
      refine ⟨limits.bytes, ?_, ?_, ?_, ?_⟩
      · simp only [not_or, not_not]
        exact ⟨eventText_no_return valid, eventText_ends filled⟩
      · rw [List.length_map]
        exact limits.count
      · intro member
        obtain ⟨event, -, blank⟩ := List.mem_map.mp member
        exact canonicalLine_ne_nil event blank
      · refine List.forall₂_map_left_iff.mpr (List.forall₂_same.mpr fun event member => ?_)
        exact parseEventLine_ok_iff.mpr ⟨rfl, readable event member, limits.record event member⟩

theorem verifyStep_ok_iff {services : EventServices} {cursor next : EventChainCursor}
    {event : SealedEvent} :
    verifyStep services cursor event = .ok next ↔
      Follows cursor event ∧
        event.eventHash = eventHashOf services event.draft event.previousHash ∧
        next = cursorAfter event := by
  unfold verifyStep
  simp only [bind, Except.bind, pure, Except.pure, throw, throwThe, MonadExceptOf.throw]
  rw [guard_ok_iff, guard_ok_iff]
  simp only [not_or, not_not]
  constructor
  · rintro ⟨⟨prior, resulting, previous⟩, hash, same⟩
    exact ⟨⟨prior, resulting, previous⟩, hash, (Except.ok.inj same).symm⟩
  · rintro ⟨⟨prior, resulting, previous⟩, hash, rfl⟩
    exact ⟨⟨prior, resulting, previous⟩, hash, rfl⟩

theorem cursor_of_verified {services : EventServices} {events : List SealedEvent}
    {cursor : EventChainCursor}
    (chained : Reaches (verifyStep services) emptyCursor events cursor) :
    cursor.revision = events.length ∧ Sound cursor := by
  induction events using List.reverseRecOn generalizing cursor with
  | nil =>
      obtain rfl := reaches_nil.mp chained
      exact ⟨rfl, rfl⟩
  | append_singleton events event ih =>
      obtain ⟨middle, front, last⟩ := reaches_snoc.mp chained
      obtain ⟨follows, -, rfl⟩ := verifyStep_ok_iff.mp last
      refine ⟨?_, cursorAfter_sound event⟩
      rw [List.length_append, List.length_singleton, ← (ih front).1]
      exact follows.resulting

theorem verifyEventStream_ok_iff {services : EventServices} {text : JsString}
    {stream : VerifiedEventStream services} :
    verifyEventStream text services = .ok stream ↔ stream.canonical = text := by
  unfold verifyEventStream
  constructor
  · intro accepted
    split at accepted
    · cases accepted
    · split at accepted
      · cases accepted
      · exact (Except.ok.inj accepted) ▸ rfl
  · obtain ⟨events, cursor, canonical, parsed, chained⟩ := stream
    rintro rfl
    split
    · rename_i refused
      rw [parsed] at refused
      cases refused
    · rename_i found read
      obtain rfl := Except.ok.inj (parsed.symm.trans read)
      split
      · rename_i refused
        have run : events.foldlM (verifyStep services) emptyCursor = .ok cursor := chained
        rw [run] at refused
        cases refused
      · rename_i last run
        obtain rfl := reaches_unique chained run
        rfl

end Streams

section Sealing

variable {services : EventServices}

/-- Sealing one more draft after the events sealed so far. -/
def sealNext (services : EventServices) (sealed : List SealedEvent × EventChainCursor)
    (draft : EventDraft) : Except EventIntegrityKind (List SealedEvent × EventChainCursor) := do
  let event ← sealEvent services draft sealed.2
  pure (sealed.1 ++ [event], cursorAfter event)

/-- The events are what sealing some drafts one after another from the empty cursor gives. -/
def SealedFromEmpty (services : EventServices) (events : List SealedEvent) : Prop :=
  ∃ drafts cursor, Reaches (sealNext services) ([], emptyCursor) drafts (events, cursor)

/-- Some text verifies to exactly these events. -/
def AcceptedStream (services : EventServices) (events : List SealedEvent) : Prop :=
  ∃ text stream, verifyEventStream text services = .ok stream ∧ stream.events = events

/-- The event was sealed, rather than written by an older contract. -/
def CurrentContract (event : SealedEvent) : Prop :=
  isDraftContract event.draft.stateContract = true

theorem sealNext_ok_iff {sealed next : List SealedEvent × EventChainCursor} {draft : EventDraft} :
    sealNext services sealed draft = .ok next ↔
      ∃ event, sealEvent services draft sealed.2 = .ok event ∧
        next = (sealed.1 ++ [event], cursorAfter event) := by
  unfold sealNext
  cases sealEvent services draft sealed.2 with
  | error kind => simp [bind, Except.bind]
  | ok event => simp [bind, Except.bind, pure, Except.pure, eq_comm]

private theorem optional_mono {α : Type} {valid copies : α → Bool}
    (implied : ∀ a, valid a = true → copies a = true) {value : Option α}
    (holds : (value.map valid).getD true = true) : (value.map copies).getD true = true := by
  cases value with
  | none => rfl
  | some a => exact implied a holds

theorem copyGateFailures_of_valid {failures : List GateFailure}
    (valid : (decide (failures.length ≤ 8) && failures.all validGateFailure) = true) :
    copyGateFailures failures = true := by
  simp only [Bool.and_eq_true, List.all_eq_true] at valid
  simp only [copyGateFailures, Bool.and_eq_true, List.all_eq_true]
  refine ⟨valid.1, fun failure member => ?_⟩
  have checked := valid.2 failure member
  simp only [validGateFailure, references, Bool.and_eq_true] at checked
  simp only [copyGateFailure, Bool.and_eq_true]
  exact ⟨checked.1.1, checked.1.2.2⟩

theorem copyRunLimits_of_valid (limits : RunLimits) (valid : validRunLimits limits = true) :
    copyRunLimits limits = true := by
  simp only [validRunLimits, positiveInteger, Bool.and_eq_true] at valid
  exact valid.1.2

theorem copyAcceptanceDecision_of_valid (decision : AcceptanceDecision)
    (valid : validDecision decision = true) : copyAcceptanceDecision decision = true := by
  simp only [validDecision, Bool.and_eq_true, List.all_eq_true] at valid
  obtain ⟨⟨⟨⟨⟨⟨attempts, -⟩, attemptCount⟩, stops⟩, -⟩, stopCount⟩, -⟩ := valid
  simp only [copyAcceptanceDecision, Bool.and_eq_true, List.all_eq_true]
  refine ⟨⟨⟨attemptCount, fun entry member => ?_⟩, stopCount⟩, fun stop member => ?_⟩
  · have checked := attempts entry member
    simp only [validAttempt, positiveInteger, Bool.and_eq_true] at checked
    exact checked.2.2
  · have checked := stops stop member
    simp only [validRepairStop, positiveInteger, Bool.and_eq_true] at checked
    exact checked.1.1.2.2

theorem copyStartedFromSpec_of_valid (restart : StartedFromSpec)
    (valid : validStartedFromSpec restart = true) : copyStartedFromSpec restart = true := by
  simp only [validStartedFromSpec, Bool.and_eq_true] at valid
  obtain ⟨⟨⟨⟨-, filled⟩, count⟩, -⟩, -⟩ := valid
  simp only [copyStartedFromSpec, Bool.and_eq_true]
  exact ⟨count, filled⟩

/-- The schema of a draft contract implies the bounds its typed copy checks. -/
theorem copiesDraft_of_valid {draft : EventDraft} (valid : validDraft draft = true)
    (current : isDraftContract draft.stateContract = true) : copiesDraft draft = true := by
  simp only [validDraft, Bool.and_eq_true] at valid
  obtain ⟨⟨⟨⟨⟨⟨⟨⟨⟨⟨⟨⟨⟨-, prior⟩, resulting⟩, -⟩, artifacts⟩, evidence⟩, -⟩, presence⟩, failures⟩, -⟩,
    limits⟩, decision⟩, -⟩, restart⟩ := valid
  have bound : referenceBound draft.stateContract = some 256 := by
    rw [referenceBound, if_pos current]
  rw [bound] at artifacts evidence
  simp only [references, Bool.and_eq_true, Option.map_some, Option.getD_some] at artifacts evidence
  have present : draft.observedIdentity.effort.isSome = true ∧ draft.gateFailures.isSome = true := by
    cases version : draft.stateContract <;> simp_all [isDraftContract, validPresence]
  obtain ⟨failureList, held⟩ := Option.isSome_iff_exists.mp present.2
  rw [held] at failures
  simp only [positiveInteger, Bool.and_eq_true] at resulting
  simp only [copiesDraft, Bool.and_eq_true, held]
  exact ⟨⟨⟨⟨⟨⟨⟨⟨prior, resulting.2⟩, artifacts.2⟩, evidence.2⟩, present.1⟩,
    copyGateFailures_of_valid failures⟩, optional_mono copyRunLimits_of_valid limits⟩,
    optional_mono copyAcceptanceDecision_of_valid decision⟩,
    optional_mono copyStartedFromSpec_of_valid restart⟩

/-- Only drafts of the later contracts pass both the typed copy and their schema. -/
theorem currentContract_of_copies {draft : EventDraft} (copies : copiesDraft draft = true)
    (valid : validDraft draft = true) : isDraftContract draft.stateContract = true := by
  simp only [copiesDraft, Bool.and_eq_true] at copies
  have failures := copies.1.1.1.2
  simp only [validDraft, Bool.and_eq_true] at valid
  have presence := valid.1.1.1.1.1.1.2
  cases version : draft.stateContract with
  | v1_0 => simp_all [validPresence]
  | v1_1 => simp_all [validPresence]
  | v1_2 => rfl
  | v1_3 => rfl
  | v1_4 => rfl

/-- A sealed event is one the verifier accepts from the same cursor, of a draft contract. -/
theorem sealEvent_iff_verifyStep {cursor : EventChainCursor} (sound : Sound cursor)
    {event : SealedEvent} :
    sealEvent services event.draft cursor = .ok event ↔
      verifyStep services cursor event = .ok (cursorAfter event) ∧ Readable event ∧
        CurrentContract event := by
  rw [sealEvent_ok_iff, verifyStep_ok_iff]
  constructor
  · rintro ⟨-, copies, policy, follows, -, hash, valid⟩
    have draftValid : validDraft event.draft = true := by
      simp only [validSealedEvent, Bool.and_eq_true] at valid
      exact valid.1.1
    exact ⟨⟨follows, hash, rfl⟩, ⟨valid, policy⟩, currentContract_of_copies copies draftValid⟩
  · rintro ⟨⟨follows, hash, -⟩, ⟨valid, policy⟩, current⟩
    have draftValid : validDraft event.draft = true := by
      simp only [validSealedEvent, Bool.and_eq_true] at valid
      exact valid.1.1
    exact ⟨rfl, copiesDraft_of_valid draftValid current, policy, follows, sound, hash, valid⟩

/-- What sealing produces: a chain of readable events of the later contracts. -/
structure SealedChain (services : EventServices) (events : List SealedEvent)
    (cursor : EventChainCursor) : Prop where
  chained : Reaches (verifyStep services) emptyCursor events cursor
  readable : ∀ event ∈ events, Readable event
  current : ∀ event ∈ events, CurrentContract event
  sound : Sound cursor

theorem sealedChain_empty : SealedChain services [] emptyCursor := by
  refine ⟨reaches_nil.mpr rfl, ?_, ?_, rfl⟩
  · intro event member
    cases member
  · intro event member
    cases member

theorem SealedChain.snoc {events : List SealedEvent} {cursor : EventChainCursor}
    (chain : SealedChain services events cursor) {draft : EventDraft} {event : SealedEvent}
    (produced : sealEvent services draft cursor = .ok event) :
    SealedChain services (events ++ [event]) (cursorAfter event) := by
  obtain ⟨rfl, -⟩ := sealEvent_ok_iff.mp produced
  obtain ⟨step, readable, current⟩ := (sealEvent_iff_verifyStep chain.sound).mp produced
  refine ⟨reaches_snoc.mpr ⟨cursor, chain.chained, step⟩, ?_, ?_, cursorAfter_sound event⟩
  · exact List.forall_mem_append.mpr ⟨chain.readable, List.forall_mem_singleton.mpr readable⟩
  · exact List.forall_mem_append.mpr ⟨chain.current, List.forall_mem_singleton.mpr current⟩

theorem sealedChain_of_sealing {drafts : List EventDraft} {events : List SealedEvent}
    {cursor : EventChainCursor}
    (run : Reaches (sealNext services) ([], emptyCursor) drafts (events, cursor)) :
    SealedChain services events cursor := by
  refine run.invariant (fun sealed => SealedChain services sealed.1 sealed.2) sealedChain_empty ?_
  intro sealed draft next chain accepted
  obtain ⟨event, produced, rfl⟩ := sealNext_ok_iff.mp accepted
  exact chain.snoc produced

/-- A verified chain of readable events of the later contracts can be sealed again. -/
theorem sealing_of_sealedChain {events : List SealedEvent} {cursor : EventChainCursor}
    (chained : Reaches (verifyStep services) emptyCursor events cursor)
    (readable : ∀ event ∈ events, Readable event)
    (current : ∀ event ∈ events, CurrentContract event) :
    Sound cursor ∧ Reaches (sealNext services) ([], emptyCursor)
      (events.map SealedEvent.draft) (events, cursor) := by
  induction events using List.reverseRecOn generalizing cursor with
  | nil =>
      obtain rfl := reaches_nil.mp chained
      exact ⟨rfl, reaches_nil.mpr rfl⟩
  | append_singleton events event ih =>
      obtain ⟨middle, front, last⟩ := reaches_snoc.mp chained
      rw [List.forall_mem_append, List.forall_mem_singleton] at readable current
      obtain ⟨sound, run⟩ := ih front readable.1 current.1
      obtain ⟨follows, hash, rfl⟩ := verifyStep_ok_iff.mp last
      have produced : sealEvent services event.draft middle = .ok event :=
        (sealEvent_iff_verifyStep sound).mpr ⟨last, readable.2, current.2⟩
      refine ⟨cursorAfter_sound event, ?_⟩
      rw [List.map_append]
      exact reaches_snoc.mpr ⟨_, run, sealNext_ok_iff.mpr ⟨event, produced, rfl⟩⟩

theorem VerifiedEventStream.readable (stream : VerifiedEventStream services) :
    ∀ event ∈ stream.events, Readable event :=
  (parseEventLines_ok_iff.mp stream.parsed).2.1

theorem VerifiedEventStream.withinLimits (stream : VerifiedEventStream services) :
    WithinLimits stream.events :=
  (parseEventLines_ok_iff.mp stream.parsed).2.2

theorem VerifiedEventStream.text (stream : VerifiedEventStream services) :
    stream.canonical = eventText stream.events :=
  (parseEventLines_ok_iff.mp stream.parsed).1

theorem sealed_iff_accepted (events : List SealedEvent) :
    SealedFromEmpty services events ∧ WithinLimits events ↔
      AcceptedStream services events ∧ ∀ event ∈ events, CurrentContract event := by
  constructor
  · rintro ⟨⟨drafts, cursor, run⟩, limits⟩
    have chain := sealedChain_of_sealing run
    have parsed := parseEventLines_ok_iff.mpr ⟨rfl, chain.readable, limits⟩
    let stream : VerifiedEventStream services :=
      ⟨events, cursor, eventText events, parsed, chain.chained⟩
    exact ⟨⟨_, stream, verifyEventStream_ok_iff.mpr rfl, rfl⟩, chain.current⟩
  · rintro ⟨⟨text, stream, -, rfl⟩, current⟩
    obtain ⟨-, run⟩ := sealing_of_sealedChain stream.chained stream.readable current
    exact ⟨⟨_, _, run⟩, stream.withinLimits⟩

/-- An event as a record of the hash chain. -/
def link (event : SealedEvent) : Link EventDraft JsString :=
  ⟨event.draft, event.previousHash, event.eventHash⟩

theorem link_injective : Function.Injective link := by
  rintro ⟨draft, previous, hash⟩ ⟨otherDraft, otherPrevious, otherHash⟩ same
  injection same with drafts previouses hashes
  simp only at drafts previouses hashes
  rw [drafts, previouses, hashes]

theorem linked_of_verified {events : List SealedEvent} {cursor : EventChainCursor}
    (chained : Reaches (verifyStep services) emptyCursor events cursor) :
    Linked (eventHashOf services) none (events.map link) cursor.hash := by
  induction events using List.reverseRecOn generalizing cursor with
  | nil =>
      obtain rfl := reaches_nil.mp chained
      rfl
  | append_singleton events event ih =>
      obtain ⟨middle, front, last⟩ := reaches_snoc.mp chained
      obtain ⟨follows, hash, rfl⟩ := verifyStep_ok_iff.mp last
      rw [List.map_append]
      refine linked_snoc.mpr ⟨?_, hash, rfl⟩
      have before := ih front
      rwa [← follows.previous] at before

/-- The digest never maps two of the texts hashed in the two streams to one value. -/
def DigestInjective (services : EventServices) (left right : List SealedEvent) : Prop :=
  ∀ a ∈ left, ∀ b ∈ right,
    services.sha256 (canonicalizeJson (unsignedEvent a.draft a.previousHash)) =
        services.sha256 (canonicalizeJson (unsignedEvent b.draft b.previousHash)) →
      canonicalizeJson (unsignedEvent a.draft a.previousHash) =
        canonicalizeJson (unsignedEvent b.draft b.previousHash)

theorem collisionFree_of_digest {left right : List SealedEvent}
    (leftReadable : ∀ event ∈ left, Readable event)
    (rightReadable : ∀ event ∈ right, Readable event)
    (injective : DigestInjective services left right) :
    CollisionFree (eventHashOf services) (left.map link) (right.map link) := by
  intro a memberA b memberB collision
  obtain ⟨first, heldA, rfl⟩ := List.mem_map.mp memberA
  obtain ⟨second, heldB, rfl⟩ := List.mem_map.mp memberB
  have texts := injective first heldA second heldB collision
  have firstValid := (leftReadable first heldA).1
  have secondValid := (rightReadable second heldB).1
  simp only [validSealedEvent, Bool.and_eq_true] at firstValid secondValid
  exact unsignedEvent_injective firstValid.1.1 secondValid.1.1 texts

theorem stream_determined {left right : VerifiedEventStream services}
    (cursors : left.cursor = right.cursor)
    (injective : DigestInjective services left.events right.events) :
    left.events = right.events ∧ left.canonical = right.canonical := by
  have one := linked_of_verified left.chained
  have two := linked_of_verified right.chained
  rw [cursors] at one
  have free := collisionFree_of_digest left.readable right.readable injective
  have events := link_injective.list_map (linked_unique one two free)
  exact ⟨events, by rw [left.text, right.text, events]⟩

/-- A sealed event is read back from its canonical line, when the line is within its bound. -/
theorem sealed_line_parses {draft : EventDraft} {cursor : EventChainCursor} {event : SealedEvent}
    (produced : sealEvent services draft cursor = .ok event)
    (within : utf8Length (canonicalLine event) ≤ eventRecordBytes) :
    parseEventLine (canonicalLine event) = .ok event := by
  obtain ⟨-, -, policy, -, -, -, valid⟩ := sealEvent_ok_iff.mp produced
  exact parseEventLine_ok_iff.mpr ⟨rfl, ⟨valid, policy⟩, within⟩

/-- What the reader accepts is what the sealer produces, within the bounds of the reader; the
cursor determines the stream; a sealed event is read back from its line. -/
theorem event_chain_exact (services : EventServices) :
    (∀ events, SealedFromEmpty services events ∧ WithinLimits events ↔
      AcceptedStream services events ∧ ∀ event ∈ events, CurrentContract event) ∧
    (∀ leftText rightText left right,
      verifyEventStream leftText services = .ok left →
      verifyEventStream rightText services = .ok right →
      DigestInjective services left.events right.events → left.cursor = right.cursor →
        left.events = right.events ∧ leftText = rightText) ∧
    (∀ draft cursor event, sealEvent services draft cursor = .ok event →
      utf8Length (canonicalLine event) ≤ eventRecordBytes →
        parseEventLine (canonicalLine event) = .ok event) := by
  refine ⟨sealed_iff_accepted, ?_, fun _ _ _ => sealed_line_parses⟩
  intro leftText rightText left right leftVerified rightVerified injective cursors
  rw [← verifyEventStream_ok_iff.mp leftVerified, ← verifyEventStream_ok_iff.mp rightVerified]
  exact stream_determined cursors injective

end Sealing

section Samples

def sampleHash : JsString := List.replicate 64 (unit 'a')

def sampleServices : EventServices := ⟨fun _ => sampleHash⟩

/-- The first event of a stream, a rejection. -/
def sampleEvent (version : ContractVersion) (effort : Option (Option JsString))
    (gateFailures : Option (List GateFailure)) : SealedEvent where
  draft :=
    { contractVersion := version
      stateContract := version
      eventId := js "e"
      eventType := .decision
      occurredAt := js "2026-01-01T00:00:00Z"
      operation := js "sdd.continue:c"
      policyVersion := js "workflow-v2"
      priorRevision := 0
      resultingRevision := 1
      reasonCode := js "run.transition.rejected"
      effect := .state
      artifactRefs := []
      evidenceRefs := []
      observedIdentity := ⟨js "claude", none, effort⟩
      gateFailures
      resulting_pos := Nat.one_pos }
  previousHash := none
  eventHash := sampleHash

def legacyEvent : SealedEvent := sampleEvent .v1_0 none none

def rejectedEvent : SealedEvent := sampleEvent .v1_4 (some none) (some [])

def quotedDetail : JsString := List.replicate 4096 (unit '"')

/-- Every gate fails, each with the longest detail, all of it escaped in the line. -/
def crowdedFailure (gate : GateId) : GateFailure :=
  ⟨gate, (gateReasonCodes gate).headD .contextUnreadable, gatePriorities gate, .enforce, [],
    some quotedDetail⟩

def crowdedEvent : SealedEvent :=
  sampleEvent .v1_4 (some none) (some (gateIds.map crowdedFailure))

theorem limits_of_short {event : SealedEvent}
    (short : utf8Length (canonicalLine event) ≤ eventRecordBytes) : WithinLimits [event] := by
  have text : eventText [event] = canonicalLine event ++ [lineFeed] := by
    simp [eventText, terminated]
  have room : eventRecordBytes + 1 ≤ eventStreamBytes := by decide
  have one : 1 ≤ eventStreamCount := by decide
  refine ⟨List.forall_mem_singleton.mpr short, ?_, one⟩
  rw [text, utf8Length_feed]
  omega

theorem sealed_first {event : SealedEvent}
    (produced : sealEvent sampleServices event.draft emptyCursor = .ok event) :
    SealedFromEmpty sampleServices [event] :=
  ⟨[event.draft], cursorAfter event, reaches_cons.mpr
    ⟨_, sealNext_ok_iff.mpr ⟨event, produced, rfl⟩, reaches_nil.mpr rfl⟩⟩

theorem rejectedEvent_sealed :
    sealEvent sampleServices rejectedEvent.draft emptyCursor = .ok rejectedEvent :=
  sealEvent_ok_iff.mpr ⟨rfl, by decide, by decide, ⟨rfl, rfl, rfl⟩, rfl, rfl, by decide +kernel⟩

theorem rejectedEvent_short : utf8Length (canonicalLine rejectedEvent) ≤ eventRecordBytes := by
  decide +kernel

theorem rejected_stream_exact :
    AcceptedStream sampleServices [rejectedEvent] ∧
      parseEventLine (canonicalLine rejectedEvent) = .ok rejectedEvent := by
  obtain ⟨exact, -, reads⟩ := event_chain_exact sampleServices
  have first := sealed_first rejectedEvent_sealed
  exact ⟨((exact [rejectedEvent]).mp ⟨first, limits_of_short rejectedEvent_short⟩).1,
    reads _ _ _ rejectedEvent_sealed rejectedEvent_short⟩

theorem quoteUnits_quotes (n : Nat) :
    (quoteUnits (List.replicate n (unit '"'))).length = 2 * n := by
  have escaped : (quoteLone (unit '"')).length = 2 := by decide
  induction n with
  | zero => rfl
  | succ n ih =>
      cases n with
      | zero => rfl
      | succ n =>
          rw [List.replicate_succ, List.replicate_succ, quoteUnits, if_neg (by decide),
            ← List.replicate_succ, List.length_append, ih, escaped]
          omega

theorem crowdedEvent_long : eventRecordBytes < utf8Length (canonicalLine crowdedEvent) := by
  have detail : 8194 ≤ (canonicalizeJson (.string quotedDetail)).length := by
    have quotes := quoteUnits_quotes 4096
    rw [canonicalizeJson, quote]
    simp only [List.length_cons, List.length_append, quotedDetail, quotes]
    decide
  have failure : ∀ json ∈ (gateIds.map crowdedFailure).map gateFailure.encode,
      8194 ≤ (canonicalizeJson json).length := by
    rw [List.map_map]
    refine List.forall_mem_map.mpr fun gate _ => ?_
    have member : (js "detail", Json.string quotedDetail) ∈
        (gateFailureShape (crowdedFailure gate)).members := by
      refine List.mem_append_left _ ?_
      simp [gateFailureShape, crowdedFailure, nullableText, nullable, encodeNullable, text]
    exact Nat.le_trans detail (member_le_object member)
  have failures := items_le_array failure
  have member : (js "gateFailures", (list gateFailure).encode (gateIds.map crowdedFailure)) ∈
      (sealedEventShape crowdedEvent).members := by
    refine List.mem_append_right _ ?_
    exact List.mem_filterMap.mpr ⟨_, List.mem_cons_self, rfl⟩
  have line := member_le_object member
  have bytes := length_le_utf8Length (canonicalLine crowdedEvent)
  have bound : eventRecordBytes < 8194 * 8 := by decide
  exact Nat.lt_of_lt_of_le bound (Nat.le_trans failures (Nat.le_trans line bytes))

/-- An older event is accepted though it cannot be sealed, and a sealed event can be too long
to be read. -/
theorem event_chain_inexact :
    (∃ events, AcceptedStream sampleServices events ∧ ¬ SealedFromEmpty sampleServices events) ∧
      ∃ event, sealEvent sampleServices event.draft emptyCursor = .ok event ∧
        SealedFromEmpty sampleServices [event] ∧ ¬ AcceptedStream sampleServices [event] ∧
          parseEventLine (canonicalLine event) = .error .resourceLimit := by
  constructor
  · have short : utf8Length (canonicalLine legacyEvent) ≤ eventRecordBytes := by decide +kernel
    have readable : Readable legacyEvent := ⟨by decide +kernel, by decide⟩
    have step : verifyStep sampleServices emptyCursor legacyEvent = .ok (cursorAfter legacyEvent) :=
      verifyStep_ok_iff.mpr ⟨⟨rfl, rfl, rfl⟩, rfl, rfl⟩
    have parsed : parseEventLines (eventText [legacyEvent]) = .ok [legacyEvent] :=
      parseEventLines_ok_iff.mpr
        ⟨rfl, List.forall_mem_singleton.mpr readable, limits_of_short short⟩
    let stream : VerifiedEventStream sampleServices :=
      ⟨[legacyEvent], cursorAfter legacyEvent, _, parsed,
        reaches_cons.mpr ⟨_, step, reaches_nil.mpr rfl⟩⟩
    refine ⟨[legacyEvent], ⟨_, stream, verifyEventStream_ok_iff.mpr rfl, rfl⟩, ?_⟩
    rintro ⟨drafts, cursor, run⟩
    have current := (sealedChain_of_sealing run).current legacyEvent List.mem_cons_self
    cases current
  · have produced : sealEvent sampleServices crowdedEvent.draft emptyCursor = .ok crowdedEvent :=
      sealEvent_ok_iff.mpr
        ⟨rfl, by decide, by decide, ⟨rfl, rfl, rfl⟩, rfl, rfl, by decide +kernel⟩
    refine ⟨crowdedEvent, produced, sealed_first produced, ?_, ?_⟩
    · rintro ⟨text, stream, -, events⟩
      have limits := stream.withinLimits.record crowdedEvent (by rw [events]; simp)
      have long := crowdedEvent_long
      omega
    · unfold parseEventLine
      rw [if_pos crowdedEvent_long]
      rfl

end Samples

end Kratos.Events
