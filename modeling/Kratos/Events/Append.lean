/- source: composition/events.ts
   digest: Appending one event to the stored stream and projection of a run. -/

import Kratos.Durable
import Kratos.Events.Replay

set_option autoImplicit false

namespace Kratos.Events

open Durable Foundation.Text Foundation.JsonText Foundation.Lines Foundation.Runs Patterns Schema

section Source

inductive EvidenceKind
  | event | artifact
  deriving DecidableEq, Repr

structure EventEvidence where
  kind : EvidenceKind
  ref : JsString
  deriving DecidableEq, Repr

/-- The boundary sentinels: `DependencyFailure`, `IntegrityFailure`, `RevisionConflict`. -/
inductive BoundaryFailure
  | dependency
  | integrity
  | revisionConflict (evidence : List EventEvidence)
  deriving DecidableEq, Repr

structure TransactionFailure where
  reason : JsString
  evidence : List EventEvidence
  deriving DecidableEq, Repr

structure EventStorePaths where
  events : JsString
  snapshot : JsString
  deriving DecidableEq, Repr

/-- Which run a stream belongs to. -/
structure RunLocation where
  feature : JsString
  runId : JsString
  deriving DecidableEq, Repr

structure AppendRequest where
  location : RunLocation
  event : EventDraft
  deriving DecidableEq, Repr

structure PreparedEventWrite where
  path : JsString
  content : JsString
  deriving DecidableEq, Repr

structure PreparedEventAppend where
  paths : EventStorePaths
  event : SealedEvent
  effects : List PreparedEventWrite
  expected : List (JsString × PathFingerprint)

/-- `eventDomain`: integrity errors of the domain become the sentinel of the boundary. -/
def eventDomain {α : Type} : Except EventIntegrityKind α → Except BoundaryFailure α
  | .ok a => .ok a
  | .error _ => .error .integrity

def storageCall {α : Type} : Option α → Except BoundaryFailure α
  | some a => .ok a
  | none => .error .dependency

def runRoot (location : RunLocation) : JsString :=
  js ".brain/02-features/" ++ location.feature ++ js "/runs/" ++ location.runId

def storePaths (location : RunLocation) : EventStorePaths where
  events := runRoot location ++ js "/events.jsonl"
  snapshot := runRoot location ++ js "/state.json"

def derivePaths (location : RunLocation) : Except BoundaryFailure EventStorePaths :=
  if !featurePattern location.feature || !idPattern location.runId then .error .integrity
  else .ok (storePaths location)

def snapshotRequest (input : AppendRequest) : Except BoundaryFailure AppendRequest := do
  let draft ← eventDomain (snapshotEventDraft input.event)
  if !isDraftContract draft.stateContract then throw .integrity
  pure ⟨input.location, draft⟩

def fileFingerprint (entry : DurableEntry) (stream : Bool) :
    Except BoundaryFailure PathFingerprint :=
  match entry with
  | .missing => .ok .missing
  | .file size sha256 =>
      if size > maxSafeInteger then .error .integrity
      else if stream && decide (size > eventStreamBytes) then .error .integrity
      else .ok (.file size sha256)
  | _ => .error .integrity

def eventEvidence (paths : EventStorePaths) : List EventEvidence :=
  [⟨.event, paths.events⟩, ⟨.artifact, paths.snapshot⟩]

/-- `path.endsWith("events.jsonl")`. -/
def eventEvidenceFor (path : JsString) : List EventEvidence :=
  [⟨if (js "events.jsonl").isSuffixOf path then .event else .artifact, path⟩]

def readExact (path : JsString) (size : Nat) (sha256 : JsString)
    (durableFileSystem : DurableFileSystem) (services : EventServices) :
    Except BoundaryFailure JsString := do
  let text ← storageCall (durableFileSystem.readText path)
  if utf8Length text ≠ size ∨ services.sha256 text ≠ sha256 then
    throw (.revisionConflict (eventEvidenceFor path))
  pure text

def assertReplayRunId (state : Snapshot) (runId : JsString) : Except BoundaryFailure Unit :=
  if state.runId ≠ runId then .error .integrity else .ok ()

/-- `prepareContract(schemaRegistry, { id: "state.snapshot", ... })` of a parsed text. -/
def prepareSnapshot (value : Json) : Option Snapshot :=
  (snapshot.decode value).filter validSnapshot

def assertPersistedSnapshot (text replayCanonical : JsString) : Except BoundaryFailure Unit :=
  match parse text with
  | none => .error .integrity
  | some value =>
      match prepareSnapshot value with
      | none => .error .integrity
      | some state =>
          if text ≠ replayCanonical ++ [lineFeed] ∨ canonicalSnapshot state ≠ replayCanonical then
            .error .integrity
          else .ok ()

def canonicalEventLine (event : SealedEvent) : JsString := canonicalLine event ++ [lineFeed]

def prepared (paths : EventStorePaths) (event : SealedEvent)
    (expected : List (JsString × PathFingerprint)) (priorEvents snapshotCanonical : JsString) :
    PreparedEventAppend where
  paths
  event
  effects :=
    [⟨paths.events, priorEvents ++ canonicalEventLine event⟩,
      ⟨paths.snapshot, snapshotCanonical ++ [lineFeed]⟩]
  expected

variable {State : Type}

/-- Seal the draft after `cursor`, verify and replay the longer text. -/
def extend (eventsText : JsString) (cursor : EventChainCursor) (draft : EventDraft)
    (runId : JsString) (services : EventServices) (registry : EventReducerRegistry State) :
    Except BoundaryFailure (SealedEvent × ReplayResult State) := do
  let event ← eventDomain (sealEvent services draft cursor)
  let extended ← eventDomain (verifyEventStream (eventsText ++ canonicalEventLine event) services)
  let nextReplay ← eventDomain (replayEventStream extended registry)
  assertReplayRunId nextReplay.snapshot runId
  pure (event, nextReplay)

def prepareFirstAppend (paths : EventStorePaths) (expected : List (JsString × PathFingerprint))
    (runId : JsString) (draft : EventDraft) (registry : EventReducerRegistry State)
    (services : EventServices) : Except BoundaryFailure PreparedEventAppend := do
  let (event, replay) ← extend [] emptyCursor draft runId services registry
  pure (prepared paths event expected [] replay.canonical)

/-- The second block of `prepareEventAppend`: everything after the request is trusted. -/
def appendStored (paths : EventStorePaths) (request : AppendRequest) (services : EventServices)
    (registry : EventReducerRegistry State) (durableFileSystem : DurableFileSystem) :
    Except BoundaryFailure PreparedEventAppend := do
  let eventEntry ← storageCall (durableFileSystem.inspect paths.events)
  let snapshotEntry ← storageCall (durableFileSystem.inspect paths.snapshot)
  let expectedEvents ← fileFingerprint eventEntry true
  let expectedSnapshot ← fileFingerprint snapshotEntry false
  let expected := [(paths.events, expectedEvents), (paths.snapshot, expectedSnapshot)]
  match expectedEvents, expectedSnapshot with
  | .missing, .missing =>
      prepareFirstAppend paths expected request.location.runId request.event registry services
  | .file eventSize eventHash, .file snapshotSize snapshotHash =>
      let eventsText ← readExact paths.events eventSize eventHash durableFileSystem services
      let snapshotText ←
        readExact paths.snapshot snapshotSize snapshotHash durableFileSystem services
      let verified ← eventDomain (verifyEventStream eventsText services)
      let replay ← eventDomain (replayEventStream verified registry)
      assertReplayRunId replay.snapshot request.location.runId
      assertPersistedSnapshot snapshotText replay.canonical
      let (event, nextReplay) ← extend eventsText verified.cursor request.event
        request.location.runId services registry
      pure (prepared paths event expected eventsText nextReplay.canonical)
  | _, _ => throw .integrity

def classifiedFailure (evidence : List EventEvidence) : BoundaryFailure → TransactionFailure
  | .revisionConflict conflict => ⟨js "runtime.revision_conflict", conflict⟩
  | .integrity => ⟨js "runtime.state_corrupt", evidence⟩
  | .dependency => ⟨js "runtime.internal_failure", []⟩

def prepareEventAppend (input : AppendRequest) (services : EventServices)
    (registry : EventReducerRegistry State) (durableFileSystem : DurableFileSystem) :
    Except TransactionFailure PreparedEventAppend := do
  let (request, paths) ← (do
    let request ← snapshotRequest input
    let paths ← derivePaths request.location
    pure (request, paths)).mapError (classifiedFailure [])
  (appendStored paths request services registry durableFileSystem).mapError
    (classifiedFailure (eventEvidence paths))

end Source

section Paths

theorem featurePattern_no_slash {feature : JsString} (valid : featurePattern feature = true) :
    unit '/' ∉ feature := by
  intro member
  cases feature with
  | nil => cases member
  | cons first rest =>
      simp only [featurePattern, Bool.and_eq_true, List.all_eq_true] at valid
      rcases List.mem_cons.mp member with same | later
      · have head := valid.1.1
        rw [← same] at head
        revert head
        decide
      · have unitOf := valid.2 _ later
        revert unitOf
        decide

theorem idPattern_no_slash {id : JsString} (valid : idPattern id = true) : unit '/' ∉ id := by
  intro member
  cases id with
  | nil => cases member
  | cons first rest =>
      simp only [idPattern, Bool.and_eq_true, List.all_eq_true] at valid
      rcases List.mem_cons.mp member with same | later
      · have head := valid.1.1
        rw [← same] at head
        revert head
        decide
      · have unitOf := valid.2 _ later
        revert unitOf
        decide

/-- Two texts without a slash that are followed by one are equal when their wholes are. -/
theorem segment_injective {left right leftRest rightRest : JsString}
    (leftPlain : unit '/' ∉ left) (rightPlain : unit '/' ∉ right)
    (same : left ++ unit '/' :: leftRest = right ++ unit '/' :: rightRest) :
    left = right ∧ leftRest = rightRest := by
  induction left generalizing right with
  | nil =>
      cases right with
      | nil => exact ⟨rfl, (List.cons.inj same).2⟩
      | cons v right =>
          obtain ⟨head, -⟩ := List.cons.inj same
          exact absurd (head ▸ List.mem_cons_self) rightPlain
  | cons u left ih =>
      cases right with
      | nil =>
          obtain ⟨head, -⟩ := List.cons.inj same
          exact absurd (head ▸ List.mem_cons_self) leftPlain
      | cons v right =>
          obtain ⟨rfl, tails⟩ := List.cons.inj same
          have plain := fun member => leftPlain (List.mem_cons_of_mem u member)
          have other := fun member => rightPlain (List.mem_cons_of_mem u member)
          obtain ⟨rfl, rest⟩ := ih plain other tails
          exact ⟨rfl, rest⟩

/-- A location the event store accepts. -/
structure ValidLocation (location : RunLocation) : Prop where
  feature : featurePattern location.feature = true
  runId : idPattern location.runId = true

theorem derivePaths_ok_iff {location : RunLocation} {paths : EventStorePaths} :
    derivePaths location = .ok paths ↔ ValidLocation location ∧ paths = storePaths location := by
  unfold derivePaths
  rw [guard_ok_iff]
  simp only [Bool.or_eq_true, Bool.not_eq_true', not_or, Bool.not_eq_false]
  constructor
  · rintro ⟨⟨feature, runId⟩, same⟩
    exact ⟨⟨feature, runId⟩, (Except.ok.inj same).symm⟩
  · rintro ⟨⟨feature, runId⟩, rfl⟩
    exact ⟨⟨feature, runId⟩, rfl⟩

/-- Files of different runs, and the two files of one run, have different paths. -/
theorem runFile_injective {left right : RunLocation} (leftValid : ValidLocation left)
    (rightValid : ValidLocation right) {leftFile rightFile : JsString}
    (same : runRoot left ++ unit '/' :: leftFile = runRoot right ++ unit '/' :: rightFile) :
    left = right ∧ leftFile = rightFile := by
  have runs : js "/runs/" = unit '/' :: js "runs/" := by decide
  simp only [runRoot, runs, List.append_assoc, List.append_cancel_left_eq] at same
  obtain ⟨features, rest⟩ := segment_injective (featurePattern_no_slash leftValid.feature)
    (featurePattern_no_slash rightValid.feature) same
  obtain ⟨runIds, files⟩ := segment_injective (idPattern_no_slash leftValid.runId)
    (idPattern_no_slash rightValid.runId) (List.append_cancel_left rest)
  refine ⟨?_, files⟩
  cases left
  cases right
  simp only at features runIds
  rw [features, runIds]

end Paths

section Texts

variable {services : EventServices}

theorem eventText_snoc (events : List SealedEvent) (event : SealedEvent) :
    eventText (events ++ [event]) = eventText events ++ canonicalEventLine event :=
  eventText_concat events event

theorem extended_events {events : List SealedEvent} {after : VerifiedEventStream services}
    {event : SealedEvent} (readable : ∀ entry ∈ events, Readable entry)
    (valid : validSealedEvent event = true)
    (longer : after.canonical = eventText events ++ canonicalEventLine event) :
    after.events = events ++ [event] := by
  have afterValid : ∀ entry ∈ after.events, validSealedEvent entry = true :=
    fun entry member => (after.readable entry member).1
  have beforeValid : ∀ entry ∈ events ++ [event], validSealedEvent entry = true :=
    List.forall_mem_append.mpr
      ⟨fun entry member => (readable entry member).1, List.forall_mem_singleton.mpr valid⟩
  refine eventText_injective afterValid beforeValid ?_
  rw [eventText_snoc, ← after.text, longer]

end Texts

section Appending

variable {State : Type} {services : EventServices} {registry : EventReducerRegistry State}

theorem eventDomain_ok_iff {α : Type} {outcome : Except EventIntegrityKind α} {a : α} :
    eventDomain outcome = .ok a ↔ outcome = .ok a := by
  cases outcome with
  | ok b => simp [eventDomain]
  | error kind => simp [eventDomain]

theorem storageCall_ok_iff {α : Type} {outcome : Option α} {a : α} :
    storageCall outcome = .ok a ↔ outcome = some a := by
  cases outcome with
  | some b => simp [storageCall]
  | none => simp [storageCall]

theorem mapError_ok_iff {α ε δ : Type} {f : ε → δ} {outcome : Except ε α} {a : α} :
    outcome.mapError f = .ok a ↔ outcome = .ok a := by
  cases outcome with
  | ok b => simp [Except.mapError]
  | error e => simp [Except.mapError]

/-- The longer stream an append verified and replayed. -/
structure Extended (services : EventServices) (registry : EventReducerRegistry State)
    (eventsText : JsString) (runId : JsString) (event : SealedEvent)
    (replay : ReplayResult State) : Prop where
  stream : ∃ extended, replayEventStream extended registry = .ok replay ∧
    verifyEventStream (eventsText ++ canonicalEventLine event) services = .ok extended
  owner : replay.snapshot.runId = runId

theorem extend_spec {eventsText runId : JsString} {cursor : EventChainCursor} {draft : EventDraft}
    {event : SealedEvent} {replay : ReplayResult State}
    (accepted : extend eventsText cursor draft runId services registry = .ok (event, replay)) :
    sealEvent services draft cursor = .ok event ∧
      Extended services registry eventsText runId event replay := by
  unfold extend at accepted
  obtain ⟨produced, sealing, accepted⟩ := bind_ok_iff.mp accepted
  obtain ⟨extended, verified, accepted⟩ := bind_ok_iff.mp accepted
  obtain ⟨next, replayed, accepted⟩ := bind_ok_iff.mp accepted
  obtain ⟨done, owner, accepted⟩ := bind_ok_iff.mp accepted
  obtain ⟨rfl, rfl⟩ := Prod.mk.inj (Except.ok.inj accepted)
  have owned := (guard_ok_iff.mp owner).1
  exact ⟨eventDomain_ok_iff.mp sealing,
    ⟨extended, eventDomain_ok_iff.mp replayed, eventDomain_ok_iff.mp verified⟩,
    by simpa using owned⟩

/-- The two files of a run: both missing, or a stream that verifies and the projection its
replay through the registry makes. -/
inductive InStep (services : EventServices) (registry : EventReducerRegistry State) :
    Option Node → Option Node → List SealedEvent → Prop
  | absent : InStep services registry none none []
  | stored {text : JsString} {stream : VerifiedEventStream services}
      {replay : ReplayResult State} (verified : verifyEventStream text services = .ok stream)
      (replayed : replayEventStream stream registry = .ok replay) :
      InStep services registry (some (.file text))
        (some (.file (replay.canonical ++ [lineFeed]))) stream.events

/-- The text an events file holds; a missing file holds none. -/
def storedText (node : Option Node) : JsString := (Node.text node).getD []

/-- What an accepted append did: it found the pair in step, sealed the draft at its cursor and
prepared the text with one more line and the projection of the longer stream. -/
structure Appended (services : EventServices) (registry : EventReducerRegistry State)
    (workspace : Workspace) (request : AppendRequest) (result : PreparedEventAppend) : Prop where
  valid : ValidLocation request.location
  before : ∃ events cursor,
    InStep services registry (workspace (storePaths request.location).events)
      (workspace (storePaths request.location).snapshot) events ∧
    Reaches (verifyStep services) emptyCursor events cursor ∧
    sealEvent services request.event cursor = .ok result.event
  after : ∃ replay,
    Extended services registry (storedText (workspace (storePaths request.location).events))
      request.location.runId result.event replay ∧
    result.effects =
      [⟨(storePaths request.location).events,
          storedText (workspace (storePaths request.location).events) ++
            canonicalEventLine result.event⟩,
        ⟨(storePaths request.location).snapshot, replay.canonical ++ [lineFeed]⟩]

theorem snapshotRequest_ok {input request : AppendRequest}
    (accepted : snapshotRequest input = .ok request) : request = input := by
  unfold snapshotRequest at accepted
  obtain ⟨draft, copied, accepted⟩ := bind_ok_iff.mp accepted
  obtain ⟨-, -, rfl⟩ := snapshotEventDraft_ok_iff.mp (eventDomain_ok_iff.mp copied)
  have checked := (guard_ok_iff.mp accepted).2
  exact (Except.ok.inj checked).symm

theorem fileFingerprint_missing {entry : DurableEntry} {stream : Bool}
    (accepted : fileFingerprint entry stream = .ok .missing) : entry = .missing := by
  unfold fileFingerprint at accepted
  split at accepted
  · rfl
  · have checked := (guard_ok_iff.mp (guard_ok_iff.mp accepted).2).2
    cases checked
  · cases accepted

theorem assertPersistedSnapshot_ok {text replayCanonical : JsString}
    (accepted : assertPersistedSnapshot text replayCanonical = .ok ()) :
    text = replayCanonical ++ [lineFeed] := by
  unfold assertPersistedSnapshot at accepted
  split at accepted
  · cases accepted
  · split at accepted
    · cases accepted
    · have checked := (guard_ok_iff.mp accepted).1
      simp only [not_or, not_not] at checked
      exact checked.1

theorem readExact_ok {path : JsString} {size : Nat} {sha256 : JsString} {workspace : Workspace}
    {text : JsString}
    (accepted : readExact path size sha256 (workspace.fileSystem services.sha256) services =
      .ok text) : workspace path = some (.file text) := by
  unfold readExact at accepted
  obtain ⟨read, stored, accepted⟩ := bind_ok_iff.mp accepted
  obtain rfl := Except.ok.inj (guard_ok_iff.mp accepted).2
  have held : Node.text (workspace path) = some read := storageCall_ok_iff.mp stored
  cases node : workspace path with
  | none =>
      rw [node] at held
      cases held
  | some entry =>
      rw [node] at held
      cases entry with
      | file content =>
          obtain rfl := Option.some.inj held
          rfl
      | directory => cases held
      | symlink => cases held
      | special => cases held

theorem appendStored_spec {workspace : Workspace} {request : AppendRequest}
    {result : PreparedEventAppend} (valid : ValidLocation request.location)
    (accepted : appendStored (storePaths request.location) request services registry
      (workspace.fileSystem services.sha256) = .ok result) :
    Appended services registry workspace request result := by
  unfold appendStored at accepted
  obtain ⟨eventEntry, inspected, accepted⟩ := bind_ok_iff.mp accepted
  obtain ⟨snapshotEntry, seen, accepted⟩ := bind_ok_iff.mp accepted
  obtain ⟨expectedEvents, eventsPrint, accepted⟩ := bind_ok_iff.mp accepted
  obtain ⟨expectedSnapshot, snapshotPrint, accepted⟩ := bind_ok_iff.mp accepted
  have eventsHeld := Option.some.inj (storageCall_ok_iff.mp inspected)
  have snapshotHeld := Option.some.inj (storageCall_ok_iff.mp seen)
  split at accepted
  · have eventsMissing := inspect_missing (eventsHeld.trans (fileFingerprint_missing eventsPrint))
    have snapshotMissing :=
      inspect_missing (snapshotHeld.trans (fileFingerprint_missing snapshotPrint))
    unfold prepareFirstAppend at accepted
    obtain ⟨⟨event, replay⟩, extension, accepted⟩ := bind_ok_iff.mp accepted
    obtain rfl := Except.ok.inj accepted
    obtain ⟨produced, extended⟩ := extend_spec extension
    have nothing : storedText (workspace (storePaths request.location).events) = [] := by
      rw [eventsMissing]
      rfl
    refine ⟨valid, ⟨[], emptyCursor, ?_, reaches_nil.mpr rfl, produced⟩, replay, ?_, ?_⟩
    · rw [eventsMissing, snapshotMissing]
      exact .absent
    · rw [nothing]
      exact extended
    · rw [nothing]
      rfl
  · rename_i size digest snapshotSize snapshotDigest
    obtain ⟨eventsText, readEvents, accepted⟩ := bind_ok_iff.mp accepted
    obtain ⟨snapshotText, readSnapshot, accepted⟩ := bind_ok_iff.mp accepted
    obtain ⟨verified, checked, accepted⟩ := bind_ok_iff.mp accepted
    obtain ⟨replay, replayed, accepted⟩ := bind_ok_iff.mp accepted
    obtain ⟨done, owner, accepted⟩ := bind_ok_iff.mp accepted
    obtain ⟨again, persisted, accepted⟩ := bind_ok_iff.mp accepted
    obtain ⟨⟨event, nextReplay⟩, extension, accepted⟩ := bind_ok_iff.mp accepted
    obtain rfl := Except.ok.inj accepted
    obtain ⟨produced, extended⟩ := extend_spec extension
    have eventsFile := readExact_ok readEvents
    have snapshotFile := readExact_ok readSnapshot
    have text : storedText (workspace (storePaths request.location).events) = eventsText := by
      rw [eventsFile]
      rfl
    refine ⟨valid, ⟨verified.events, verified.cursor, ?_, verified.chained, produced⟩,
      nextReplay, ?_, ?_⟩
    · rw [eventsFile, snapshotFile, assertPersistedSnapshot_ok persisted]
      exact .stored (eventDomain_ok_iff.mp checked) (eventDomain_ok_iff.mp replayed)
    · rw [text]
      exact extended
    · rw [text]
      rfl
  · cases accepted

theorem prepareEventAppend_spec {workspace : Workspace} {request : AppendRequest}
    {result : PreparedEventAppend}
    (accepted : prepareEventAppend request services registry
      (workspace.fileSystem services.sha256) = .ok result) :
    Appended services registry workspace request result := by
  unfold prepareEventAppend at accepted
  obtain ⟨⟨copied, paths⟩, asked, accepted⟩ := bind_ok_iff.mp accepted
  obtain ⟨draft, snapshot, rest⟩ := bind_ok_iff.mp (mapError_ok_iff.mp asked)
  obtain ⟨found, derived, rest⟩ := bind_ok_iff.mp rest
  obtain ⟨rfl, rfl⟩ := Prod.mk.inj (Except.ok.inj rest)
  obtain rfl := snapshotRequest_ok snapshot
  obtain ⟨valid, rfl⟩ := derivePaths_ok_iff.mp derived
  exact appendStored_spec valid (mapError_ok_iff.mp accepted)

end Appending

section Runs

variable {State : Type} {services : EventServices} {registry : EventReducerRegistry State}

/-- What a pair in step determines: the text is that of its readable events. -/
theorem InStep.text {eventsNode snapshotNode : Option Node} {events : List SealedEvent}
    (pair : InStep services registry eventsNode snapshotNode events) :
    storedText eventsNode = eventText events ∧ ∀ event ∈ events, Readable event := by
  cases pair with
  | absent =>
      refine ⟨eventText_nil.symm, ?_⟩
      intro event member
      cases member
  | stored verified replayed =>
      rename_i text stream replay
      have same := verifyEventStream_ok_iff.mp verified
      exact ⟨same.symm.trans stream.text, stream.readable⟩

theorem InStep.unique {eventsNode snapshotNode : Option Node} {left right : List SealedEvent}
    (one : InStep services registry eventsNode snapshotNode left)
    (two : InStep services registry eventsNode snapshotNode right) : left = right := by
  have texts : eventText left = eventText right := one.text.1.symm.trans two.text.1
  exact eventText_injective (fun event member => (one.text.2 event member).1)
    (fun event member => (two.text.2 event member).1) texts

/-- Publishing the effects of an append, if it is not refused. -/
def publish (services : EventServices) (registry : EventReducerRegistry State)
    (workspace : Workspace) (request : AppendRequest) : Workspace :=
  match prepareEventAppend request services registry (workspace.fileSystem services.sha256) with
  | .error _ => workspace
  | .ok result =>
      result.effects.foldl (fun held effect => held.write effect.path effect.content) workspace

/-- The draft an append adds to the run at a location. -/
def draftedBy (services : EventServices) (registry : EventReducerRegistry State)
    (location : RunLocation) (workspace : Workspace) (request : AppendRequest) :
    List EventDraft :=
  match prepareEventAppend request services registry (workspace.fileSystem services.sha256) with
  | .error _ => []
  | .ok _ => if request.location = location then [request.event] else []

/-- The drafts a sequence of appends adds to the run at a location, in order. -/
def drafted (services : EventServices) (registry : EventReducerRegistry State)
    (location : RunLocation) : Workspace → List AppendRequest → List EventDraft
  | _, [] => []
  | workspace, request :: rest =>
      draftedBy services registry location workspace request ++
        drafted services registry location (publish services registry workspace request) rest

/-- The run at a location: its files are in step and hold exactly these drafts, sealed. -/
def StoredRun (services : EventServices) (registry : EventReducerRegistry State)
    (workspace : Workspace) (location : RunLocation) (drafts : List EventDraft) : Prop :=
  ∃ events cursor,
    InStep services registry (workspace (storePaths location).events)
      (workspace (storePaths location).snapshot) events ∧
    Reaches (sealNext services) ([], emptyCursor) drafts (events, cursor)

theorem storePaths_distinct {left right : RunLocation} (leftValid : ValidLocation left)
    (rightValid : ValidLocation right) :
    (storePaths left).events ≠ (storePaths right).snapshot ∧
      (left ≠ right → (storePaths left).events ≠ (storePaths right).events ∧
        (storePaths left).snapshot ≠ (storePaths right).snapshot) := by
  have eventsFile : js "/events.jsonl" = unit '/' :: js "events.jsonl" := by decide
  have stateFile : js "/state.json" = unit '/' :: js "state.json" := by decide
  simp only [storePaths, eventsFile, stateFile]
  refine ⟨fun same => ?_, fun different => ⟨fun same => ?_, fun same => ?_⟩⟩
  · have files := (runFile_injective leftValid rightValid same).2
    exact absurd files (by decide)
  · exact different (runFile_injective leftValid rightValid same).1
  · exact different (runFile_injective leftValid rightValid same).1

theorem publish_accepted {workspace : Workspace} {request : AppendRequest}
    {result : PreparedEventAppend}
    (accepted : prepareEventAppend request services registry
      (workspace.fileSystem services.sha256) = .ok result) :
    publish services registry workspace request =
      result.effects.foldl (fun held effect => held.write effect.path effect.content)
        workspace := by
  unfold publish
  rw [accepted]

theorem publish_other {workspace : Workspace} {request : AppendRequest}
    {result : PreparedEventAppend}
    (appended : Appended services registry workspace request result)
    (accepted : prepareEventAppend request services registry
      (workspace.fileSystem services.sha256) = .ok result)
    {path : JsString} (notEvents : path ≠ (storePaths request.location).events)
    (notSnapshot : path ≠ (storePaths request.location).snapshot) :
    publish services registry workspace request path = workspace path := by
  obtain ⟨replay, -, effects⟩ := appended.after
  rw [publish_accepted accepted, effects]
  simp only [List.foldl_cons, List.foldl_nil]
  rw [write_other notSnapshot, write_other notEvents]

theorem storedRun_frame {workspace : Workspace} {request : AppendRequest}
    {result : PreparedEventAppend}
    (accepted : prepareEventAppend request services registry
      (workspace.fileSystem services.sha256) = .ok result)
    {location : RunLocation} (valid : ValidLocation location)
    (different : location ≠ request.location) {drafts : List EventDraft}
    (stored : StoredRun services registry workspace location drafts) :
    StoredRun services registry (publish services registry workspace request) location drafts := by
  have appended := prepareEventAppend_spec accepted
  obtain ⟨cross, apart⟩ := storePaths_distinct valid appended.valid
  have back := (storePaths_distinct appended.valid valid).1
  obtain ⟨events, snapshots⟩ := apart different
  unfold StoredRun at stored ⊢
  rwa [publish_other appended accepted events cross,
    publish_other appended accepted back.symm snapshots]

/-- An accepted append finds the pair of its run in step and leaves it in step, one event
longer. -/
theorem publish_extends {workspace : Workspace} {request : AppendRequest}
    {result : PreparedEventAppend}
    (accepted : prepareEventAppend request services registry
      (workspace.fileSystem services.sha256) = .ok result) :
    ∃ events cursor,
      InStep services registry (workspace (storePaths request.location).events)
        (workspace (storePaths request.location).snapshot) events ∧
      Reaches (verifyStep services) emptyCursor events cursor ∧
      sealEvent services request.event cursor = .ok result.event ∧
      InStep services registry
        (publish services registry workspace request (storePaths request.location).events)
        (publish services registry workspace request (storePaths request.location).snapshot)
        (events ++ [result.event]) := by
  have appended := prepareEventAppend_spec accepted
  obtain ⟨events, cursor, pair, chained, produced⟩ := appended.before
  obtain ⟨replay, extended, effects⟩ := appended.after
  obtain ⟨stream, replayed, verified⟩ := extended.stream
  refine ⟨events, cursor, pair, chained, produced, ?_⟩
  have distinct := (storePaths_distinct appended.valid appended.valid).1
  rw [publish_accepted accepted, effects]
  simp only [List.foldl_cons, List.foldl_nil]
  rw [write_same, write_other distinct, write_same]
  obtain ⟨text, readable⟩ := pair.text
  have canonical := verifyEventStream_ok_iff.mp verified
  rw [text] at canonical verified ⊢
  obtain ⟨-, -, -, -, -, -, valid⟩ := sealEvent_ok_iff.mp produced
  rw [← extended_events readable valid canonical]
  exact .stored verified replayed

theorem storedRun_append {workspace : Workspace} {request : AppendRequest}
    {result : PreparedEventAppend}
    (accepted : prepareEventAppend request services registry
      (workspace.fileSystem services.sha256) = .ok result) {drafts : List EventDraft}
    (stored : StoredRun services registry workspace request.location drafts) :
    StoredRun services registry (publish services registry workspace request) request.location
      (drafts ++ [request.event]) := by
  obtain ⟨events, cursor, pair, sealed⟩ := stored
  obtain ⟨held, last, found, chained, produced, after⟩ := publish_extends accepted
  obtain rfl := InStep.unique pair found
  obtain rfl := reaches_unique (sealedChain_of_sealing sealed).chained chained
  exact ⟨_, _, after, reaches_snoc.mpr
    ⟨_, sealed, sealNext_ok_iff.mpr ⟨result.event, produced, rfl⟩⟩⟩

theorem storedRun_publish {workspace : Workspace} {location : RunLocation}
    (valid : ValidLocation location) {drafts : List EventDraft}
    (stored : StoredRun services registry workspace location drafts) (request : AppendRequest) :
    StoredRun services registry (publish services registry workspace request) location
      (drafts ++ draftedBy services registry location workspace request) := by
  cases outcome : prepareEventAppend request services registry
      (workspace.fileSystem services.sha256) with
  | error failure =>
      unfold publish draftedBy
      rw [outcome, List.append_nil]
      exact stored
  | ok result =>
      by_cases own : request.location = location
      · subst own
        have added : draftedBy services registry request.location workspace request =
            [request.event] := by
          unfold draftedBy
          rw [outcome, if_pos rfl]
        rw [added]
        exact storedRun_append outcome stored
      · have none : draftedBy services registry location workspace request = [] := by
          unfold draftedBy
          rw [outcome, if_neg own]
        rw [none, List.append_nil]
        exact storedRun_frame outcome valid (fun same => own same.symm) stored

theorem storedRun_run {workspace : Workspace} {location : RunLocation}
    (valid : ValidLocation location) {drafts : List EventDraft}
    (stored : StoredRun services registry workspace location drafts)
    (requests : List AppendRequest) :
    StoredRun services registry (requests.foldl (publish services registry) workspace) location
      (drafts ++ drafted services registry location workspace requests) := by
  induction requests generalizing workspace drafts with
  | nil => rwa [drafted, List.append_nil]
  | cons request requests ih =>
      have next := ih (storedRun_publish valid stored request)
      rwa [List.append_assoc] at next

theorem append_refused {workspace : Workspace} {request : AppendRequest}
    (outOfStep : ∀ events,
      ¬ InStep services registry (workspace (storePaths request.location).events)
        (workspace (storePaths request.location).snapshot) events) :
    (∃ failure, prepareEventAppend request services registry
      (workspace.fileSystem services.sha256) = .error failure) ∧
      publish services registry workspace request = workspace := by
  cases outcome : prepareEventAppend request services registry
      (workspace.fileSystem services.sha256) with
  | error failure =>
      refine ⟨⟨failure, rfl⟩, ?_⟩
      unfold publish
      rw [outcome]
  | ok result =>
      obtain ⟨events, -, pair, -⟩ := (prepareEventAppend_spec outcome).before
      exact absurd pair (outOfStep events)

/-- Every sequence of appends keeps each run's stream and projection in step and adds to it
exactly the accepted drafts in order; a pair out of step is refused. -/
theorem event_append_in_step (services : EventServices)
    (registry : EventReducerRegistry State) :
    (∀ requests location, ValidLocation location →
      StoredRun services registry
        (requests.foldl (publish services registry) fun _ => none) location
        (drafted services registry location (fun _ => none) requests)) ∧
    (∀ (workspace : Workspace) request result,
      prepareEventAppend request services registry
          (workspace.fileSystem services.sha256) = .ok result →
        ∃ events, InStep services registry (workspace (storePaths request.location).events)
            (workspace (storePaths request.location).snapshot) events ∧
          result.event.draft = request.event ∧
          InStep services registry
            (publish services registry workspace request (storePaths request.location).events)
            (publish services registry workspace request (storePaths request.location).snapshot)
            (events ++ [result.event])) ∧
    (∀ (workspace : Workspace) request,
      (∀ events, ¬ InStep services registry (workspace (storePaths request.location).events)
        (workspace (storePaths request.location).snapshot) events) →
        (∃ failure, prepareEventAppend request services registry
          (workspace.fileSystem services.sha256) = .error failure) ∧
          publish services registry workspace request = workspace) := by
  refine ⟨?_, ?_, fun _ _ => append_refused⟩
  · intro requests location valid
    have initial : StoredRun services registry (fun _ => none) location [] :=
      ⟨[], emptyCursor, .absent, reaches_nil.mpr rfl⟩
    exact storedRun_run valid initial requests
  · intro workspace request result accepted
    obtain ⟨events, cursor, pair, -, produced, after⟩ := publish_extends accepted
    obtain ⟨same, -⟩ := sealEvent_ok_iff.mp produced
    exact ⟨events, pair, same.symm, after⟩

end Runs

section Samples

def sampleRequest : AppendRequest := ⟨⟨js "f", js "r"⟩, rejectedEvent.draft⟩

def rejectedStream : VerifiedEventStream sampleServices where
  events := [rejectedEvent]
  cursor := cursorAfter rejectedEvent
  canonical := eventText [rejectedEvent]
  parsed := by
    obtain ⟨-, -, policy, -, -, -, valid⟩ := sealEvent_ok_iff.mp rejectedEvent_sealed
    exact parseEventLines_ok_iff.mpr ⟨rfl, List.forall_mem_singleton.mpr ⟨valid, policy⟩,
      limits_of_short rejectedEvent_short⟩
  chained := (sealedChain_empty.snoc rejectedEvent_sealed).chained

theorem rejectedStream_replay :
    ∃ replay, replayEventStream rejectedStream sampleRegistry = .ok replay ∧
      replay.snapshot.runId = js "r" := by
  have normal : normalizeJson sampleRegistry.json sampleSnapshot = .ok sampleSnapshot :=
    sampleRegistry.seed_normal
  have step : replayStep sampleRegistry sampleSnapshot rejectedEvent = .ok sampleSnapshot :=
    replayStep_of rfl normal rfl normal
  have made : materializeOnce sampleRegistry sampleSnapshot rejectedStream.cursor =
      .ok { sampleSnapshot with eventCursor := 1, eventHash := sampleHash } := by
    unfold materializeOnce
    rw [normal]
    rfl
  refine ⟨_, replayEventStream_of (List.cons_ne_nil _ _)
    (reaches_cons.mpr ⟨_, step, reaches_nil.mpr rfl⟩) made (by decide) (by decide) normal, rfl⟩

theorem sampleRequest_extends {replay : ReplayResult Snapshot}
    (replayed : replayEventStream rejectedStream sampleRegistry = .ok replay)
    (owner : replay.snapshot.runId = js "r") :
    extend [] emptyCursor sampleRequest.event (js "r") sampleServices sampleRegistry =
      .ok (rejectedEvent, replay) := by
  have line : eventText [rejectedEvent] = [] ++ canonicalEventLine rejectedEvent :=
    eventText_snoc [] rejectedEvent
  have verified : verifyEventStream ([] ++ canonicalEventLine rejectedEvent) sampleServices =
      .ok rejectedStream := verifyEventStream_ok_iff.mpr line
  unfold extend
  refine bind_ok_iff.mpr ⟨rejectedEvent, eventDomain_ok_iff.mpr rejectedEvent_sealed, ?_⟩
  refine bind_ok_iff.mpr ⟨rejectedStream, eventDomain_ok_iff.mpr verified, ?_⟩
  refine bind_ok_iff.mpr ⟨replay, eventDomain_ok_iff.mpr replayed, ?_⟩
  refine bind_ok_iff.mpr ⟨(), guard_ok_iff.mpr ⟨not_not.mpr owner, rfl⟩, rfl⟩

/-- A first append to an empty project is accepted and leaves its run in step. -/
theorem first_append_in_step :
    (∃ result, prepareEventAppend sampleRequest sampleServices sampleRegistry
      (Workspace.fileSystem (fun _ => none) sampleServices.sha256) = .ok result) ∧
      StoredRun sampleServices sampleRegistry
        (publish sampleServices sampleRegistry (fun _ => none) sampleRequest)
        sampleRequest.location [rejectedEvent.draft] := by
  obtain ⟨replay, replayed, owner⟩ := rejectedStream_replay
  obtain ⟨-, copies, policy, -⟩ := sealEvent_ok_iff.mp rejectedEvent_sealed
  have valid : ValidLocation sampleRequest.location := ⟨by decide, by decide⟩
  have asked : snapshotRequest sampleRequest = .ok sampleRequest :=
    bind_ok_iff.mpr ⟨_, eventDomain_ok_iff.mpr
      (snapshotEventDraft_ok_iff.mpr ⟨copies, policy, rfl⟩), rfl⟩
  have derived := derivePaths_ok_iff.mpr ⟨valid, rfl⟩
  have first : ∃ result, prepareEventAppend sampleRequest sampleServices sampleRegistry
      (Workspace.fileSystem (fun _ => none) sampleServices.sha256) = .ok result := by
    refine ⟨prepared (storePaths sampleRequest.location) rejectedEvent
      [((storePaths sampleRequest.location).events, .missing),
        ((storePaths sampleRequest.location).snapshot, .missing)] [] replay.canonical, ?_⟩
    unfold prepareEventAppend
    refine bind_ok_iff.mpr ⟨(sampleRequest, storePaths sampleRequest.location),
      mapError_ok_iff.mpr ?_, mapError_ok_iff.mpr ?_⟩
    · exact bind_ok_iff.mpr ⟨_, asked, bind_ok_iff.mpr ⟨_, derived, rfl⟩⟩
    · unfold appendStored
      refine bind_ok_iff.mpr ⟨.missing, rfl, bind_ok_iff.mpr ⟨.missing, rfl, ?_⟩⟩
      refine bind_ok_iff.mpr ⟨.missing, rfl, bind_ok_iff.mpr ⟨.missing, rfl, ?_⟩⟩
      exact bind_ok_iff.mpr ⟨_, sampleRequest_extends replayed owner, rfl⟩
  refine ⟨first, ?_⟩
  obtain ⟨result, accepted⟩ := first
  have run := (event_append_in_step sampleServices sampleRegistry).1 [sampleRequest]
    sampleRequest.location valid
  have added : drafted sampleServices sampleRegistry sampleRequest.location (fun _ => none)
      [sampleRequest] = [rejectedEvent.draft] := by
    unfold drafted draftedBy drafted
    rw [accepted, if_pos rfl]
    rfl
  rw [added, List.foldl_cons, List.foldl_nil] at run
  exact run

end Samples

end Kratos.Events
