/- source: domain/events/reduce.ts, schemas/state/snapshot.v1.schema.json
   digest: Replay of a verified stream through a reducer registry, and the snapshot it makes. -/

import Kratos.Events.Chain

set_option autoImplicit false

namespace Kratos.Events

open Foundation.Text Foundation.JsonText Foundation.Runs Patterns Schema

structure SnapshotLineage where
  prdDigest : JsString
  specDigest : JsString
  deriving DecidableEq, Repr

/-- `SnapshotV1`. -/
structure Snapshot where
  contractVersion : ContractVersion
  stateContract : ContractVersion
  projectId : JsString
  runId : JsString
  status : RunStatus
  currentStep : Option JsString
  eventCursor : Nat
  eventHash : JsString
  policyVersion : JsString
  lineage : SnapshotLineage
  createdAt : JsString
  updatedAt : JsString
  deriving DecidableEq, Repr

section Forms

def runStatus : Codec RunStatus :=
  enumeration [.idle, .active, .blocked, .completed] RunStatus.text
    (by intro status; cases status <;> decide) (by decide)

def lineageKeys : List JsString := [js "prdDigest", js "specDigest"]

def lineageShape (lineage : SnapshotLineage) : Shape where
  required :=
    [(js "prdDigest", text.encode lineage.prdDigest),
      (js "specDigest", text.encode lineage.specDigest)]
  optional := []

def decodeLineage (members : Members) : Option SnapshotLineage := do
  let prdDigest ← field text (js "prdDigest") members
  let specDigest ← field text (js "specDigest") members
  pure ⟨prdDigest, specDigest⟩

def lineage : Codec SnapshotLineage :=
  record lineageKeys lineageShape decodeLineage (fun _ => rfl) (by
    intro lineage members agree
    have distinct : (lineageShape lineage).keys.Nodup := (by decide : lineageKeys.Nodup)
    simp only [decodeLineage, field_at text agree distinct 0 rfl, field_at text agree distinct 1
      rfl, Option.bind_eq_bind, Option.bind_some]
    rfl)

def snapshotKeys : List JsString :=
  [js "contractVersion", js "stateContract", js "projectId", js "runId", js "status",
    js "currentStep", js "eventCursor", js "eventHash", js "policyVersion", js "lineage",
    js "createdAt", js "updatedAt"]

def snapshotShape (snapshot : Snapshot) : Shape where
  required :=
    [(js "contractVersion", contractVersion.encode snapshot.contractVersion),
      (js "stateContract", contractVersion.encode snapshot.stateContract),
      (js "projectId", text.encode snapshot.projectId),
      (js "runId", text.encode snapshot.runId),
      (js "status", runStatus.encode snapshot.status),
      (js "currentStep", nullableText.encode snapshot.currentStep),
      (js "eventCursor", natural.encode snapshot.eventCursor),
      (js "eventHash", text.encode snapshot.eventHash),
      (js "policyVersion", text.encode snapshot.policyVersion),
      (js "lineage", lineage.encode snapshot.lineage),
      (js "createdAt", text.encode snapshot.createdAt),
      (js "updatedAt", text.encode snapshot.updatedAt)]
  optional := []

def decodeSnapshot (members : Members) : Option Snapshot := do
  let version ← field contractVersion (js "contractVersion") members
  let stateContract ← field contractVersion (js "stateContract") members
  let projectId ← field text (js "projectId") members
  let runId ← field text (js "runId") members
  let status ← field runStatus (js "status") members
  let currentStep ← field nullableText (js "currentStep") members
  let eventCursor ← field natural (js "eventCursor") members
  let eventHash ← field text (js "eventHash") members
  let policyVersion ← field text (js "policyVersion") members
  let held ← field lineage (js "lineage") members
  let createdAt ← field text (js "createdAt") members
  let updatedAt ← field text (js "updatedAt") members
  pure ⟨version, stateContract, projectId, runId, status, currentStep, eventCursor, eventHash,
    policyVersion, held, createdAt, updatedAt⟩

def snapshot : Codec Snapshot :=
  record snapshotKeys snapshotShape decodeSnapshot (fun _ => rfl) (by
    intro snapshot members agree
    have distinct : (snapshotShape snapshot).keys.Nodup := (by decide : snapshotKeys.Nodup)
    simp only [decodeSnapshot, field_at contractVersion agree distinct 0 rfl, field_at
      contractVersion agree distinct 1 rfl, field_at text agree distinct 2 rfl, field_at text
      agree distinct 3 rfl, field_at runStatus agree distinct 4 rfl, field_at nullableText agree
      distinct 5 rfl, field_at natural agree distinct 6 rfl, field_at text agree distinct 7 rfl,
      field_at text agree distinct 8 rfl, field_at lineage agree distinct 9 rfl, field_at text
      agree distinct 10 rfl, field_at text agree distinct 11 rfl, Option.bind_eq_bind,
      Option.bind_some]
    rfl)

/-- The snapshot schema; contract 1.0.0 is the only published one. -/
def validSnapshot (state : Snapshot) : Bool :=
  state.contractVersion == .v1_0 && state.stateContract == .v1_0 && idPattern state.projectId &&
    idPattern state.runId && nullableBy idPattern state.currentStep &&
    safeNatural state.eventCursor && sha256Pattern state.eventHash &&
    idPattern state.policyVersion && sha256Pattern state.lineage.prdDigest &&
    sha256Pattern state.lineage.specDigest && timestampPattern state.createdAt &&
    timestampPattern state.updatedAt

/-- `canonicalizeJson(snapshot)`. -/
def canonicalSnapshot (state : Snapshot) : JsString := canonicalizeJson (snapshot.encode state)

theorem wellFormed_snapshot {state : Snapshot} (valid : validSnapshot state = true) :
    WellFormed (snapshot.encode state) := by
  have held : WellFormed (lineage.encode state.lineage) := by
    refine wellFormed_shape (by decide : lineageKeys.Nodup) ?_ (by rintro _ ⟨⟩)
    simp only [lineageShape, List.forall_mem_cons]
    exact ⟨wellFormed_text _, wellFormed_text _, by rintro _ ⟨⟩⟩
  simp only [validSnapshot, safeNatural, Bool.and_eq_true, decide_eq_true_eq] at valid
  obtain ⟨⟨⟨⟨⟨⟨⟨-, cursor⟩, -⟩, -⟩, -⟩, -⟩, -⟩, -⟩ := valid
  refine wellFormed_shape (by decide : snapshotKeys.Nodup) ?_ (by rintro _ ⟨⟩)
  simp only [snapshotShape, List.forall_mem_cons]
  exact ⟨wellFormed_enumeration _, wellFormed_enumeration _, wellFormed_text _,
    wellFormed_text _, wellFormed_enumeration _, wellFormed_nullableText _,
    wellFormed_natural cursor, wellFormed_text _, wellFormed_text _, held, wellFormed_text _,
    wellFormed_text _, by rintro _ ⟨⟩⟩

end Forms

section Registry

variable {State : Type}

/-- `normalizeJson`: a state read back from its own canonical text. -/
def normalizeJson (json : Codec State) (state : State) : Except EventIntegrityKind State :=
  match (parse (canonicalizeJson (json.encode state))).bind json.decode with
  | none => .error .invalidEvent
  | some normal => .ok normal

/-- The closed registry view used by replay. Reducers and the materializer are functions that
may throw; the seed is normal. -/
structure EventReducerRegistry (State : Type) where
  json : Codec State
  seed : State
  reducers : JsString → Option (State → SealedEvent → Except String State)
  materialize : State → EventChainCursor → Except String Snapshot
  seed_normal : normalizeJson json seed = .ok seed

structure ReplayResult (State : Type) where
  state : State
  snapshot : Snapshot
  canonical : JsString

/-- Whatever a registry throws is an invalid event. -/
def caught {α : Type} : Except String α → Except EventIntegrityKind α
  | .ok a => .ok a
  | .error _ => .error .invalidEvent

def reduceOnce (registry : EventReducerRegistry State)
    (reducer : State → SealedEvent → Except String State) (state : State) (event : SealedEvent) :
    Except EventIntegrityKind State := do
  let stateInput ← normalizeJson registry.json state
  let result ← caught (reducer stateInput event)
  normalizeJson registry.json result

def materializeOnce (registry : EventReducerRegistry State) (state : State)
    (cursor : EventChainCursor) : Except EventIntegrityKind Snapshot := do
  let stateInput ← normalizeJson registry.json state
  caught (registry.materialize stateInput cursor)

/-- One turn of the loop over the events: every reduction is made twice and compared. -/
def replayStep (registry : EventReducerRegistry State) (state : State) (event : SealedEvent) :
    Except EventIntegrityKind State :=
  match registry.reducers event.draft.policyVersion with
  | none => .error .unsupportedPolicy
  | some reducer => do
      let first ← reduceOnce registry reducer state event
      let second ← reduceOnce registry reducer state event
      if canonicalizeJson (registry.json.encode first) ≠
          canonicalizeJson (registry.json.encode second) then
        throw .invalidEvent
      normalizeJson registry.json first

variable {services : EventServices}

def hasFinalBindings (state : Snapshot) (stream : VerifiedEventStream services) : Bool :=
  match stream.events.getLast? with
  | none => false
  | some event =>
      state.eventCursor == stream.cursor.revision && some state.eventHash == stream.cursor.hash &&
        state.policyVersion == event.draft.policyVersion &&
        state.updatedAt == event.draft.occurredAt

def replayEventStream (stream : VerifiedEventStream services)
    (registry : EventReducerRegistry State) : Except EventIntegrityKind (ReplayResult State) := do
  if stream.events = [] then throw .invalidEvent
  let seed ← normalizeJson registry.json registry.seed
  let state ← stream.events.foldlM (replayStep registry) seed
  let firstSnapshot ← materializeOnce registry state stream.cursor
  let secondSnapshot ← materializeOnce registry state stream.cursor
  if canonicalSnapshot firstSnapshot ≠ canonicalSnapshot secondSnapshot then throw .invalidEvent
  if !hasFinalBindings firstSnapshot stream then throw .invalidEvent
  if !validSnapshot firstSnapshot then throw .invalidEvent
  let state ← normalizeJson registry.json state
  pure ⟨state, firstSnapshot, canonicalSnapshot firstSnapshot⟩

theorem replayStep_of {registry : EventReducerRegistry State}
    {reducer : State → SealedEvent → Except String State} {state next : State} {event : SealedEvent}
    (registered : registry.reducers event.draft.policyVersion = some reducer)
    (normal : normalizeJson registry.json state = .ok state)
    (reduced : reducer state event = .ok next)
    (nextNormal : normalizeJson registry.json next = .ok next) :
    replayStep registry state event = .ok next := by
  have once : reduceOnce registry reducer state event = .ok next := by
    unfold reduceOnce
    simp [bind, Except.bind, normal, reduced, caught, nextNormal]
  unfold replayStep
  simp [registered, bind, Except.bind, once, nextNormal]

theorem replayEventStream_of {stream : VerifiedEventStream services}
    {registry : EventReducerRegistry State} {state : State} {made : Snapshot}
    (nonempty : stream.events ≠ [])
    (reduced : Reaches (replayStep registry) registry.seed stream.events state)
    (materialized : materializeOnce registry state stream.cursor = .ok made)
    (bound : hasFinalBindings made stream = true) (valid : validSnapshot made = true)
    (normal : normalizeJson registry.json state = .ok state) :
    replayEventStream stream registry = .ok ⟨state, made, canonicalSnapshot made⟩ := by
  have run : stream.events.foldlM (replayStep registry) registry.seed = .ok state := reduced
  unfold replayEventStream
  simp [bind, Except.bind, pure, Except.pure, registry.seed_normal, nonempty, run, materialized,
    bound, valid, normal]

end Registry

section Samples

theorem normalizeJson_snapshot {state : Snapshot} (valid : validSnapshot state = true) :
    normalizeJson snapshot state = .ok state := by
  have nothing : Blank ([] : JsString) := by
    intro u member
    cases member
  have parsed := parse_canonicalizeJson (wellFormed_snapshot valid) nothing
  rw [List.append_nil] at parsed
  have decoded := snapshot.decode_same state _ (sameValue_canonicalForm (snapshot.encode state))
  unfold normalizeJson
  rw [parsed, Option.bind_some, decoded]

def sampleSnapshot : Snapshot where
  contractVersion := .v1_0
  stateContract := .v1_0
  projectId := js "p"
  runId := js "r"
  status := .active
  currentStep := none
  eventCursor := 0
  eventHash := sampleHash
  policyVersion := js "workflow-v2"
  lineage := ⟨sampleHash, sampleHash⟩
  createdAt := js "2026-01-01T00:00:00Z"
  updatedAt := js "2026-01-01T00:00:00Z"

/-- A registry whose state is the snapshot itself, moved by every event. -/
def sampleRegistry : EventReducerRegistry Snapshot where
  json := snapshot
  seed := sampleSnapshot
  reducers := fun _ => some fun state event =>
    .ok { state with policyVersion := event.draft.policyVersion, updatedAt := event.draft.occurredAt }
  materialize := fun state cursor =>
    match cursor.hash with
    | none => .error "Workflow state cannot be materialized"
    | some hash => .ok { state with eventCursor := cursor.revision, eventHash := hash }
  seed_normal := normalizeJson_snapshot (by decide)

end Samples

end Kratos.Events
