/- source: domain/cli/gaps.ts, composition/workflow.ts
   digest: The gap files of a run and what the gap commands do to them. -/

import Kratos.Gaps.Record

set_option autoImplicit false

namespace Kratos.Gaps

open Foundation.Text
open Gates (GateMode)

/-- Where the gaps of a run are kept: `.brain/02-features/<feature>/runs/<runId>/gaps`. -/
structure GapSite where
  feature : JsString
  runId : JsString
  deriving DecidableEq, Repr

/-- The readable gap files of a run. A file is named by the identifier it holds, so that no two
hold the same, and it holds the run it is kept under. -/
@[ext] structure GapLog (runId : JsString) where
  records : List GapRecord
  distinct : (records.map GapRecord.gapId).Nodup
  own : ∀ gap ∈ records, gap.runId = runId

/-- Whether a file is read at all: its name is that of the record in it, and the run is its own. -/
def readsGap (runId : JsString) (file : JsString × Option GapRecord) : Option GapRecord :=
  file.2.bind fun gap =>
    if gap.runId = runId ∧ gap.gapId ++ js ".json" = file.1 then some gap else none

/-- `observeGaps` over the listing of the directory; one file that is not read spoils all. -/
def observeGaps (localeCompare : JsString → JsString → Int) (runId : JsString)
    (files : List (JsString × Option GapRecord)) : Option (List GapRecord) :=
  (files.mapM (readsGap runId)).map (sortGaps localeCompare)

/-- What becomes of the event that records a fact: appended, refused, or already there. -/
inductive CommitOutcome
  | appended | refused | reflected
  deriving DecidableEq, Repr

/-- What a command observes besides the gaps. -/
structure Surroundings where
  usable : Bool
  specApproved : Bool
  phase : Option GapPhase
  prdDigest : JsString
  specDigest : JsString
  policyMode : GateMode
  occurredAt : JsString
  stopLoss : StopLossFacts
  partitionRequired : Bool
  partitionApproved : Bool
  commit : CommitOutcome

inductive GapCommand
  | record (proposal : List ProposedGap)
  | resolve (gapId : JsString) (decision : GapVerdict) (documentChanged : Bool)
      (decidedBy observation : JsString)
  | waive (gapId acknowledgedBy observation : JsString)

def boundaryOf (surroundings : Surroundings) : ApprovalBoundary :=
  if surroundings.specApproved || surroundings.phase.isNone then .postApproval else .preApproval

/-- The facts derived by a command from the gaps it leaves. -/
def factsOf (localeCompare : JsString → JsString → Int) (runId : JsString)
    (surroundings : Surroundings) (gaps : List GapRecord) : GateFacts :=
  deriveGateFacts localeCompare
    { runId, gaps, boundary := boundaryOf surroundings, stopLoss := surroundings.stopLoss,
      partitionRequired := surroundings.partitionRequired,
      partitionApproved := surroundings.partitionApproved, derivedAt := surroundings.occurredAt }

/-- Writing the file of a gap: in place of the one of that name, or beside the others. -/
def writeGap (records : List GapRecord) (gap : GapRecord) : List GapRecord :=
  if gap.gapId ∈ records.map GapRecord.gapId then
    records.map fun held => if held.gapId = gap.gapId then gap else held
  else records ++ [gap]

/-- What a command comes to: refused, nothing to do, its event already in the history, or gap
files and the facts to write. -/
inductive GapPlan
  | refused
  | settled
  | reflected
  | write (gaps : List GapRecord) (facts : GateFacts)

def decideRecord (localeCompare : JsString → JsString → Int) (runId : JsString)
    (surroundings : Surroundings) (observed : List GapRecord) (proposal : List ProposedGap) :
    GapPlan :=
  match decideGapRecord localeCompare
    { proposal, runId, phase := surroundings.phase.getD .prd, boundary := boundaryOf surroundings,
      prdDigest := surroundings.prdDigest, specDigest := surroundings.specDigest,
      policyMode := surroundings.policyMode, recordedAt := surroundings.occurredAt,
      existing := observed } with
  | .refused _ => .refused
  | .unchanged => .settled
  | .recorded gaps => .write gaps (factsOf localeCompare runId surroundings (observed ++ gaps))

def decideUpdate (localeCompare : JsString → JsString → Int) (runId : JsString)
    (surroundings : Surroundings) (observed : List GapRecord) : GapUpdateDecision → GapPlan
  | .refused _ => .refused
  | .unchanged _ => .settled
  | .updated gap =>
      .write [gap] (factsOf localeCompare runId surroundings
        (observed.map fun held => if held.gapId = gap.gapId then gap else held))

/-- The plan of a command over the gaps it observes. -/
def planOf (localeCompare : JsString → JsString → Int) (runId : JsString)
    (surroundings : Surroundings) (observed : List GapRecord) : GapCommand → GapPlan
  | .record proposal => decideRecord localeCompare runId surroundings observed proposal
  | .resolve gapId decision documentChanged decidedBy observation =>
      decideUpdate localeCompare runId surroundings observed (decideGapVerdict
        { gapId, decision, documentChanged, decidedBy, decidedAt := surroundings.occurredAt,
          observation, gaps := observed })
  | .waive gapId acknowledgedBy observation =>
      decideUpdate localeCompare runId surroundings observed (decideGapWaiver
        { gapId, acknowledgedBy, acknowledgedAt := surroundings.occurredAt, observation,
          gaps := observed })

/-- The plan a command carries out: none where the state is unusable or the event is not
appended. -/
def outcome (localeCompare : JsString → JsString → Int) (runId : JsString)
    (surroundings : Surroundings) (records : List GapRecord) (command : GapCommand) : GapPlan :=
  if surroundings.usable = false then .refused
  else
    match planOf localeCompare runId surroundings (sortGaps localeCompare records) command with
    | .write gaps facts =>
        match surroundings.commit with
        | .appended => .write gaps facts
        | .refused => .refused
        | .reflected => .reflected
    | plan => plan

def performed (records : List GapRecord) : GapPlan → List GapRecord
  | .write gaps _ => gaps.foldl writeGap records
  | .refused | .settled | .reflected => records

end Kratos.Gaps
