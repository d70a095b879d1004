/- source: domain/measurements/index.ts, schemas/state/phase-measurement.v1.schema.json
   digest: The measurement records of the phases of a run and the checks every set of them passes. -/

import Kratos.Foundation.Calendar
import Kratos.Foundation.Counters
import Kratos.Foundation.Grouping
import Kratos.Patterns
import Kratos.Vocabulary
import Mathlib.Data.List.Lex

set_option autoImplicit false

namespace Kratos.Measurements

open Foundation.Text Foundation.Calendar Foundation.Counters
open Foundation.Grouping Foundation.Sorting
open Patterns (idPattern)

inductive MeasurementError
  | chronologyInvalid
  | checkpointStateInvalid
  | checkpointResidualInvalid
  | checkpointConservationUnprovable
  | recoveryStateInvalid
  | recoveryConservationInvalid
  | recoveryDidNotClose
  | contributorOwnershipInvalid
  | assignmentConflicts
  | checkpointChronologyInvalid
  | baselineChronologyInvalid
  | checkpointOwnershipInvalid
  deriving DecidableEq, Repr

def MeasurementError.message : MeasurementError → JsString
  | .chronologyInvalid => js "Phase measurement chronology is invalid"
  | .checkpointStateInvalid => js "Phase measurement checkpoint state is invalid"
  | .checkpointResidualInvalid => js "Phase measurement checkpoint residual is invalid"
  | .checkpointConservationUnprovable =>
      js "Phase measurement checkpoint conservation is unprovable"
  | .recoveryStateInvalid => js "Phase measurement recovery state is invalid"
  | .recoveryConservationInvalid => js "Phase measurement recovery conservation is invalid"
  | .recoveryDidNotClose => js "Phase measurement recovery did not close the record"
  | .contributorOwnershipInvalid => js "Phase measurement contributor ownership is invalid"
  | .assignmentConflicts => js "Phase measurement assignment conflicts with the open record"
  | .checkpointChronologyInvalid => js "Phase measurement checkpoint chronology is invalid"
  | .baselineChronologyInvalid => js "Phase measurement baseline chronology is invalid"
  | .checkpointOwnershipInvalid => js "Phase measurement checkpoint ownership is invalid"

structure ContributorCheckpoint where
  sessionId : JsString
  cumulativeGrossTokens : Nat
  occurredAt : JsString
  deriving DecidableEq, Repr

inductive MeasurementStatus
  | running | completed | interrupted
  deriving DecidableEq, Repr

inductive CloseReason
  | phaseCompleted | sessionInterrupted | recoveredCompleted | recoveredInterrupted
  deriving DecidableEq, Repr

def CloseReason.status : CloseReason → MeasurementStatus
  | .phaseCompleted | .recoveredCompleted => .completed
  | .sessionInterrupted | .recoveredInterrupted => .interrupted

/-- The members that are null while a record is running and present once it is closed. -/
structure Closing where
  endedAt : JsString
  durationMs : Nat
  finalGrossTokens : Nat
  closeReason : CloseReason
  deriving DecidableEq, Repr

structure MeasuredAssignment where
  host : JsString
  role : ModelRole
  model : JsString
  effort : JsString
  deriving DecidableEq, Repr

structure MeasuredIdentity where
  model : Option JsString
  effort : Option JsString
  deriving DecidableEq, Repr

/-- `PhaseMeasurement`; its status follows from how it was closed. -/
structure PhaseMeasurement where
  feature : JsString
  runId : JsString
  phase : RunPhase
  sessionId : JsString
  contributingSessionIds : List JsString
  contributorCheckpoints : List ContributorCheckpoint
  correlationId : JsString
  startedAt : JsString
  closing : Option Closing
  baselineGrossTokens : Nat
  grossTokens : Nat
  assignmentDigest : JsString
  resolvedAssignment : MeasuredAssignment
  observedIdentity : MeasuredIdentity
  updatedAt : JsString
  deriving DecidableEq, Repr

def PhaseMeasurement.status (record : PhaseMeasurement) : MeasurementStatus :=
  match record.closing with
  | none => .running
  | some closing => closing.closeReason.status

def maxPhaseMeasurementContributors : Nat := 256

/-- `Number.isSafeInteger(value) && value >= 0`. -/
def isCount (value : Int) : Bool := decide (0 ≤ value ∧ value ≤ 9007199254740991)

/-- The sum of two counts in doubles: past `2 ^ 53` only every other integer is one. -/
def addCounts (left right : Nat) : Nat :=
  let sum := left + right
  if sum ≤ 9007199254740992 ∨ sum % 2 = 0 then sum
  else if sum / 2 % 2 = 0 then sum - 1 else sum + 1

/-- `Math.max(0, total - baseline)`. -/
def grossTokens (baseline total : Nat) : Nat := total - baseline

def durationMs (startedAt endedAt : JsString) : Except MeasurementError Nat :=
  match dateParse startedAt, dateParse endedAt with
  | some started, some ended =>
      if ended - started < 0 then .error .chronologyInvalid else .ok (ended - started).toNat
  | _, _ => .error .chronologyInvalid

section Timestamps

/-- The code units of an order key; strings compare by their code units. -/
abbrev OrderKey := List Nat

/-- `(?:\.(\d{1,9}))?Z` at the end of a timestamp: the digits of the fraction. -/
def orderFraction (s : JsString) : Option JsString :=
  if s = js "Z" then some []
  else do
    let s ← expect '.' s
    let digits := s.takeWhile isDigit
    if 1 ≤ digits.length ∧ digits.length ≤ 9 ∧ s.dropWhile isDigit = js "Z" then some digits
    else none

def timestampOrderKey (timestamp : JsString) : Option OrderKey := do
  let (_, s) ← readFixed 4 0 9999 timestamp
  let s ← expect '-' s
  let (_, s) ← readFixed 2 1 12 s
  let s ← expect '-' s
  let (_, s) ← readFixed 2 1 31 s
  let s ← expect 'T' s
  let (_, s) ← readFixed 2 0 23 s
  let s ← expect ':' s
  let (_, s) ← readFixed 2 0 59 s
  let s ← expect ':' s
  let (_, s) ← readFixed 2 0 59 s
  let fraction ← orderFraction s
  let _ ← dateParse timestamp
  some ((timestamp.take 19 ++ unit '.' :: fraction ++
    List.replicate (9 - fraction.length) (unit '0')).map UInt16.toNat)

example : timestampOrderKey (js "2026-08-30T10:00:00.5Z") =
    some ((js "2026-08-30T10:00:00.500000000").map UInt16.toNat) := by decide +kernel

def latestTimestamp (left right : JsString) : Except MeasurementError JsString :=
  match timestampOrderKey left, timestampOrderKey right with
  | some leftKey, some rightKey => .ok (if leftKey < rightKey then right else left)
  | _, _ => .error .checkpointStateInvalid

def PhaseMeasurement.startKey (record : PhaseMeasurement) : Option OrderKey :=
  timestampOrderKey record.startedAt

end Timestamps

section Ownership

inductive OwnerResolution
  | owned (record : PhaseMeasurement) (claimContributor : Bool)
  | absent
  | ambiguous
  deriving DecidableEq, Repr

/-- The interval of a record; one that runs has no end. -/
structure OwnerInterval where
  record : PhaseMeasurement
  started : Option OrderKey
  ended : Option (Option OrderKey)

def intervalOf (record : PhaseMeasurement) : OwnerInterval where
  record := record
  started := record.startKey
  ended := record.closing.map fun closing => timestampOrderKey closing.endedAt

def OwnerInterval.applicable (interval : OwnerInterval) (occurred : OrderKey) : Bool :=
  interval.started.any fun started => decide (started ≤ occurred)

def OwnerInterval.contains (interval : OwnerInterval) (occurred : OrderKey) : Bool :=
  interval.applicable occurred &&
    match interval.ended with
    | none => true
    | some ended => ended.any fun ended => decide (occurred ≤ ended)

/-- The later of the starts met so far and the next one. -/
def laterStart (latest : Option OrderKey) (interval : OwnerInterval) : Option OrderKey :=
  match latest, interval.started with
  | none, started => started
  | some latest, some started => some (if latest < started then started else latest)
  | some latest, none => some latest

/-- The interval that contains the instant, or else the one that started last before it. -/
def selectInterval (intervals : List OwnerInterval) (occurred : OrderKey) : Option OwnerInterval :=
  match intervals.filter fun interval => interval.contains occurred with
  | [selected] => some selected
  | _ :: _ :: _ => none
  | [] =>
      let applicable := intervals.filter fun interval => interval.applicable occurred
      let latestStarted := applicable.foldl laterStart none
      match applicable.filter fun interval => decide (interval.started = latestStarted) with
      | [selected] => some selected
      | _ => none

/-- One session resolved by event time across its durable owners and one candidate. -/
def resolvePhaseMeasurementOwner (records : List PhaseMeasurement) (sessionId occurredAt : JsString)
    (additionalCandidate : Option PhaseMeasurement) : OwnerResolution :=
  let owners := records.filter fun record => sessionId ∈ record.contributingSessionIds
  let candidates :=
    match additionalCandidate with
    | none => owners
    | some candidate => if candidate ∈ owners then owners else owners ++ [candidate]
  if candidates = [] then .absent
  else
    let intervals := candidates.map intervalOf
    match timestampOrderKey occurredAt with
    | none => .ambiguous
    | some occurred =>
        if intervals.any fun interval =>
            interval.started.isNone || interval.ended.any Option.isNone then .ambiguous
        else
          match selectInterval intervals occurred with
          | none => .ambiguous
          | some selected =>
              .owned selected.record (decide (sessionId ∉ selected.record.contributingSessionIds))

end Ownership

section Records

-- `left.localeCompare(right, "en-US") <= 0` decides which session comes first.
variable (precedes : JsString → JsString → Prop) [DecidableRel precedes]

def addPhaseMeasurementContributor (record : PhaseMeasurement) (sessionId : JsString) :
    Except MeasurementError PhaseMeasurement :=
  let values := sortedUnique precedes (record.contributingSessionIds ++ [sessionId])
  if values = [] ∨ maxPhaseMeasurementContributors < values.length then
    .error .contributorOwnershipInvalid
  else .ok { record with contributingSessionIds := values }

def hasValidContributorOwnership (record : PhaseMeasurement) : Bool :=
  let canonical := sortedUnique precedes record.contributingSessionIds
  decide (0 < canonical.length) &&
    decide (canonical.length ≤ maxPhaseMeasurementContributors) &&
    decide (record.sessionId ∈ canonical) &&
    decide (canonical = record.contributingSessionIds)

/-- Checkpoints in the order of their sessions. -/
def sortCheckpoints (checkpoints : List ContributorCheckpoint) : List ContributorCheckpoint :=
  checkpoints.insertionSort fun left right => precedes left.sessionId right.sessionId

def hasValidCheckpoint (record : PhaseMeasurement) (startedAt : OrderKey)
    (checkpoint : ContributorCheckpoint) : Bool :=
  idPattern checkpoint.sessionId && isCount checkpoint.cumulativeGrossTokens &&
    ((timestampOrderKey checkpoint.occurredAt).any fun occurredAt => decide (startedAt ≤ occurredAt)) &&
    decide (checkpoint.sessionId ∈ record.contributingSessionIds)

def hasValidCheckpointState (record : PhaseMeasurement) : Bool :=
  let checkpoints := record.contributorCheckpoints
  match record.startKey with
  | none => false
  | some startedAt =>
      decide (checkpoints.length ≤ maxPhaseMeasurementContributors) &&
        decide (checkpoints.map ContributorCheckpoint.sessionId).Nodup &&
        decide (sortCheckpoints precedes checkpoints = checkpoints) &&
        checkpoints.all (hasValidCheckpoint record startedAt)

/-- One checkpoint with the record that holds it and the start of that record. -/
structure CheckpointEntry where
  record : PhaseMeasurement
  checkpoint : ContributorCheckpoint
  startedAt : OrderKey

def checkpointEntries (record : PhaseMeasurement) : Except MeasurementError (List CheckpointEntry) :=
  match record.startKey with
  | none => .error .checkpointStateInvalid
  | some startedAt =>
      if hasValidCheckpointState precedes record = false then .error .checkpointStateInvalid
      else .ok (record.contributorCheckpoints.map fun checkpoint => { record, checkpoint, startedAt })

/-- The contributions of one session to the records, from its checkpoints in chronological order. -/
def sessionContributions (values : List CheckpointEntry) :
    Except MeasurementError (List (PhaseMeasurement × Nat)) :=
  let readings := values.map fun value =>
    ({ start := value.startedAt, owner := value.record,
       total := value.checkpoint.cumulativeGrossTokens } : Reading OrderKey PhaseMeasurement)
  match increments none 0 (readings.insertionSort fun left right => left.start ≤ right.start) with
  | none => .error .checkpointChronologyInvalid
  | some contributions => .ok contributions

/-- The tokens the checkpoints give each record: `allocations.get(record) ?? 0`. -/
def checkpointAllocations (records : List PhaseMeasurement) :
    Except MeasurementError (PhaseMeasurement → Nat) := do
  let entries ← records.mapM (checkpointEntries precedes)
  let bySession := groupBy (fun entry => entry.checkpoint.sessionId) entries.flatten
  let contributions ← bySession.mapM fun group => sessionContributions group.2
  pure fun record =>
    ((contributions.flatten.filter fun contribution => contribution.1 = record).map Prod.snd).sum

end Records

section Sets

def phaseOrder (phase : RunPhase) : Nat := runPhases.idxOf phase

def PhaseMeasurement.runKey (record : PhaseMeasurement) : JsString × JsString :=
  (record.feature, record.runId)

/-- The comparison of the chronological sort: by start, then by the order of the phases. -/
def startsNoLater (left right : PhaseMeasurement) : Prop :=
  left.startKey.getD [] < right.startKey.getD [] ∨
    left.startKey.getD [] = right.startKey.getD [] ∧ phaseOrder left.phase ≤ phaseOrder right.phase

instance : DecidableRel startsNoLater := fun _ _ => inferInstanceAs (Decidable (_ ∨ _))

/-- The comparison is made, and can fail, as soon as there are two records. -/
def chronologicalRunRecords (records : List PhaseMeasurement) :
    Except MeasurementError (List PhaseMeasurement) :=
  if 2 ≤ records.length ∧ records.any fun record => record.startKey.isNone then
    .error .baselineChronologyInvalid
  else .ok (records.insertionSort startsNoLater)

def earliestRunBaseline (records : List PhaseMeasurement) : Except MeasurementError Nat := do
  match (← chronologicalRunRecords records) with
  | [] => .error .baselineChronologyInvalid
  | first :: _ => .ok first.baselineGrossTokens

/-- No baseline is below the one before it. -/
def baselinesClimb : Option Nat → List PhaseMeasurement → Bool
  | _, [] => true
  | previous, record :: rest =>
      !(previous.any fun previous => decide (record.baselineGrossTokens < previous)) &&
        baselinesClimb (some record.baselineGrossTokens) rest

def runGroups (records : List PhaseMeasurement) : List ((JsString × JsString) × List PhaseMeasurement) :=
  groupBy PhaseMeasurement.runKey records

def hasValidBaselineChronology (records : List PhaseMeasurement) : Bool :=
  (runGroups records).all fun group =>
    match chronologicalRunRecords group.2 with
    | .error _ => false
    | .ok chronological => baselinesClimb none chronological

variable (precedes : JsString → JsString → Prop) [DecidableRel precedes]

def hasValidCheckpointChronology (records : List PhaseMeasurement) : Bool :=
  (runGroups records).all fun group => (checkpointAllocations precedes group.2).toOption.isSome

def hasValidCheckpointResiduals (records : List PhaseMeasurement) : Bool :=
  (runGroups records).all fun group =>
    match checkpointAllocations precedes group.2 with
    | .error _ => false
    | .ok allocations => group.2.all fun record => decide (allocations record ≤ record.grossTokens)

/-- Each checkpoint was observed while its own record is the one its session resolves to. -/
def hasValidCheckpointOwnership (records : List PhaseMeasurement) : Bool :=
  records.all fun record => record.contributorCheckpoints.all fun checkpoint =>
    match resolvePhaseMeasurementOwner records checkpoint.sessionId checkpoint.occurredAt none with
    | .owned owner _ => decide (owner = record)
    | _ => false

def assertValidMeasurementSet (records : List PhaseMeasurement) : Except MeasurementError Unit :=
  if hasValidBaselineChronology records = false then .error .baselineChronologyInvalid
  else if hasValidCheckpointChronology precedes records = false then
    .error .checkpointChronologyInvalid
  else if hasValidCheckpointResiduals precedes records = false then
    .error .checkpointResidualInvalid
  else if hasValidCheckpointOwnership records = false then .error .checkpointOwnershipInvalid
  else .ok ()

def hasValidMeasurementSemantics (record : PhaseMeasurement) : Bool :=
  hasValidContributorOwnership precedes record && hasValidCheckpointState precedes record &&
    match record.closing with
    | none => true
    | some closing =>
        decide (record.grossTokens =
          grossTokens record.baselineGrossTokens closing.finalGrossTokens) &&
        match durationMs record.startedAt closing.endedAt with
        | .error _ => false
        | .ok duration => decide (closing.durationMs = duration)

/-- The numbers of a record are counts, as its contract says. -/
def hasCounts (record : PhaseMeasurement) : Bool :=
  isCount record.baselineGrossTokens && isCount record.grossTokens &&
    (record.contributorCheckpoints.all fun checkpoint => isCount checkpoint.cumulativeGrossTokens) &&
    record.closing.all fun closing => isCount closing.durationMs && isCount closing.finalGrossTokens

/-- What `parsePhaseMeasurementLog` accepts: records that satisfy their contract and their own
semantics, one for each phase of a run, that together form a valid set. -/
structure ValidMeasurementSet (records : List PhaseMeasurement) : Prop where
  counted : ∀ record ∈ records, hasCounts record = true
  meaningful : ∀ record ∈ records, hasValidMeasurementSemantics precedes record = true
  keyed : (records.map fun record => (record.runId, record.phase)).Nodup
  accepted : assertValidMeasurementSet precedes records = .ok ()

end Sets

end Kratos.Measurements
