/- source: domain/gaps/model.ts, domain/gaps/record.ts, domain/gaps/derive.ts
   digest: Gap records, the decisions that record, answer and waive them, and the gate facts. -/

import Kratos.Gates.Policy
import Kratos.Patterns

set_option autoImplicit false

namespace Kratos.Gaps

open Foundation.Text Patterns
open Gates (GateMode)

inductive GapCategory
  | ambiguousRule | documentContradiction | ownerDecision | unconfirmedDependency
  deriving DecidableEq, Repr

inductive GapWeight
  | high | medium | low
  deriving DecidableEq, Repr

inductive GapPhase
  | prd | spec
  deriving DecidableEq, Repr

inductive ApprovalBoundary
  | preApproval | postApproval
  deriving DecidableEq, Repr

inductive GapVerdict
  | accepted | adjusted | rejected
  deriving DecidableEq, Repr

/-- `MAX_PROPOSED_GAPS`. -/
def maxProposedGaps : Nat := 64

/-- `MAX_DOCUMENT_REFS`. -/
def maxDocumentRefs : Nat := 16

def maxTextLength : Nat := 2048

def maxReferenceLength : Nat := 1024

inductive GapRefusal
  | conflictingGap | conflictingVerdict | documentRefLimit | duplicateProposalId | gapLimit
  | invalidRequest | postApproval | unknownGap
  deriving DecidableEq, Repr

structure GapResolution where
  decision : GapVerdict
  documentChanged : Bool
  decidedBy : JsString
  decidedAt : JsString
  observation : JsString
  deriving DecidableEq, Repr

structure GapWaiver where
  acknowledgedBy : JsString
  acknowledgedAt : JsString
  observation : JsString
  deriving DecidableEq, Repr

/-- What was found, as the proposal words it. The references are a non-empty tuple. -/
structure ProposedGap where
  gapId : JsString
  category : GapCategory
  weight : GapWeight
  description : JsString
  recommendation : JsString
  reasoning : JsString
  documentRefs : List JsString
  cited : documentRefs ≠ []

/-- A stored gap; its contract versions are the same for all. -/
structure GapRecord where
  gapId : JsString
  runId : JsString
  phase : GapPhase
  category : GapCategory
  weight : GapWeight
  description : JsString
  recommendation : JsString
  reasoning : JsString
  documentRefs : List JsString
  prdDigest : JsString
  specDigest : JsString
  policyMode : GateMode
  recordedAt : JsString
  resolution : Option GapResolution
  waiver : Option GapWaiver
  deriving DecidableEq, Repr

/-- A gap nobody has answered and nobody has explicitly proceeded over. -/
def isOpenGap (gap : GapRecord) : Bool := gap.resolution.isNone && gap.waiver.isNone

/-- Single-line text, its length counted in code points. -/
def printableText (value : JsString) (maximum : Nat) : Bool :=
  decide (0 < (codePoints value).length) && decide ((codePoints value).length ≤ maximum) &&
    !(codePoints value).any fun code => decide (code < 0x20) || code == 0x7f

structure GapRecordRequest where
  proposal : List ProposedGap
  runId : JsString
  phase : GapPhase
  boundary : ApprovalBoundary
  prdDigest : JsString
  specDigest : JsString
  policyMode : GateMode
  recordedAt : JsString
  existing : List GapRecord

inductive GapRecordDecision
  | recorded (gaps : List GapRecord)
  | unchanged
  | refused (reason : GapRefusal)
  deriving DecidableEq

structure GapVerdictRequest where
  gapId : JsString
  decision : GapVerdict
  documentChanged : Bool
  decidedBy : JsString
  decidedAt : JsString
  observation : JsString
  gaps : List GapRecord

structure GapWaiverRequest where
  gapId : JsString
  acknowledgedBy : JsString
  acknowledgedAt : JsString
  observation : JsString
  gaps : List GapRecord

inductive GapUpdateDecision
  | updated (gap : GapRecord)
  | unchanged (gap : GapRecord)
  | refused (reason : GapRefusal)
  deriving DecidableEq

def validGap (gap : GapRecord) : Bool :=
  idPattern gap.gapId && printableText gap.description maxTextLength &&
    printableText gap.recommendation maxTextLength && printableText gap.reasoning maxTextLength &&
    gap.documentRefs.all (fun ref => printableText ref maxReferenceLength) &&
    decide gap.documentRefs.Nodup

/-- The same finding; the policy mode and the instant of recording are left out. -/
def sameFinding (left right : GapRecord) : Bool :=
  left.runId == right.runId && left.phase == right.phase && left.category == right.category &&
    left.weight == right.weight && left.description == right.description &&
    left.recommendation == right.recommendation && left.reasoning == right.reasoning &&
    left.documentRefs == right.documentRefs && left.prdDigest == right.prdDigest &&
    left.specDigest == right.specDigest

/-- The same answer; the instant it was given at is left out. -/
def sameResolution (left right : GapResolution) : Bool :=
  left.decision == right.decision && left.documentChanged == right.documentChanged &&
    left.decidedBy == right.decidedBy && left.observation == right.observation

def sameWaiver (left right : GapWaiver) : Bool :=
  left.acknowledgedBy == right.acknowledgedBy && left.observation == right.observation

def candidate (request : GapRecordRequest) (gap : ProposedGap) : GapRecord where
  gapId := gap.gapId
  runId := request.runId
  phase := request.phase
  category := gap.category
  weight := gap.weight
  description := gap.description
  recommendation := gap.recommendation
  reasoning := gap.reasoning
  documentRefs := gap.documentRefs
  prdDigest := request.prdDigest
  specDigest := request.specDigest
  policyMode := request.policyMode
  recordedAt := request.recordedAt
  resolution := none
  waiver := none

/-- The loop over the proposal: the candidates that the run does not hold yet. -/
def collectGaps (request : GapRecordRequest) : List ProposedGap → Except GapRefusal (List GapRecord)
  | [] => .ok []
  | gap :: rest =>
      if validGap (candidate request gap) = false then .error .invalidRequest
      else
        match request.existing.find? fun held => held.gapId == gap.gapId with
        | none => (collectGaps request rest).map (candidate request gap :: ·)
        | some existing =>
            if sameFinding existing (candidate request gap) then collectGaps request rest
            else .error .conflictingGap

/-- `gaps.sort` by identifier. -/
def sortGaps (localeCompare : JsString → JsString → Int) (gaps : List GapRecord) : List GapRecord :=
  gaps.mergeSort fun left right => decide (localeCompare left.gapId right.gapId ≤ 0)

def decideGapRecord (localeCompare : JsString → JsString → Int) (request : GapRecordRequest) :
    GapRecordDecision :=
  if (idPattern request.runId && sha256Pattern request.prdDigest &&
      sha256Pattern request.specDigest && timestampPattern request.recordedAt) = false then
    .refused .invalidRequest
  else if request.boundary = .postApproval then .refused .postApproval
  else if maxProposedGaps < request.proposal.length then .refused .gapLimit
  else if ¬(request.proposal.map ProposedGap.gapId).Nodup then .refused .duplicateProposalId
  else if request.proposal.any fun gap => decide (maxDocumentRefs < gap.documentRefs.length) then
    .refused .documentRefLimit
  else
    match collectGaps request request.proposal with
    | .error reason => .refused reason
    | .ok [] => .unchanged
    | .ok recorded => .recorded (sortGaps localeCompare recorded)

def decideGapVerdict (request : GapVerdictRequest) : GapUpdateDecision :=
  match request.gaps.find? fun held => held.gapId == request.gapId with
  | none => .refused .unknownGap
  | some gap =>
      if (idPattern request.decidedBy && timestampPattern request.decidedAt &&
          printableText request.observation maxTextLength) = false then .refused .invalidRequest
      else
        let resolution : GapResolution :=
          { decision := request.decision, documentChanged := request.documentChanged,
            decidedBy := request.decidedBy, decidedAt := request.decidedAt,
            observation := request.observation }
        match gap.resolution with
        | some answered =>
            if sameResolution answered resolution then .unchanged gap
            else .refused .conflictingVerdict
        | none => .updated { gap with resolution := some resolution }

def decideGapWaiver (request : GapWaiverRequest) : GapUpdateDecision :=
  match request.gaps.find? fun held => held.gapId == request.gapId with
  | none => .refused .unknownGap
  | some gap =>
      if (idPattern request.acknowledgedBy && timestampPattern request.acknowledgedAt &&
          printableText request.observation maxTextLength) = false then .refused .invalidRequest
      else if gap.resolution.isSome then .refused .conflictingVerdict
      else
        let waiver : GapWaiver :=
          { acknowledgedBy := request.acknowledgedBy, acknowledgedAt := request.acknowledgedAt,
            observation := request.observation }
        match gap.waiver with
        | some waived =>
            if sameWaiver waived waiver then .unchanged gap else .refused .conflictingVerdict
        | none => .updated { gap with waiver := some waiver }

structure StopLossFacts where
  tripped : Bool
  exhausted : Bool
  deriving DecidableEq, Repr

structure GateFactsRequest where
  runId : JsString
  gaps : List GapRecord
  boundary : ApprovalBoundary
  stopLoss : StopLossFacts
  partitionRequired : Bool
  partitionApproved : Bool
  derivedAt : JsString

structure GateFacts where
  runId : JsString
  openGaps : Nat
  openGapIds : List JsString
  stopLoss : StopLossFacts
  partitionRequired : Bool
  partitionApproved : Bool
  derivedAt : JsString
  deriving DecidableEq, Repr

/-- The identifiers of the open gaps of a run; none once the specification is approved. -/
def openGapIds (localeCompare : JsString → JsString → Int) (request : GateFactsRequest) :
    List JsString :=
  match request.boundary with
  | .postApproval => []
  | .preApproval =>
      ((request.gaps.filter fun gap => gap.runId == request.runId && isOpenGap gap).map
        GapRecord.gapId).mergeSort fun left right => decide (localeCompare left right ≤ 0)

def deriveGateFacts (localeCompare : JsString → JsString → Int) (request : GateFactsRequest) :
    GateFacts where
  runId := request.runId
  openGaps := (openGapIds localeCompare request).length
  openGapIds := openGapIds localeCompare request
  stopLoss := request.stopLoss
  partitionRequired := request.partitionRequired
  partitionApproved := request.partitionApproved
  derivedAt := request.derivedAt

end Kratos.Gaps
