/- source: domain/gates/model.ts, domain/gates/policy.ts
   digest: Gate identities, modes, failure order and the aggregation of failures. -/

import Kratos.Foundation.Text
import Mathlib.Data.List.Sort

set_option autoImplicit false

namespace Kratos.Gates

open Foundation.Text

inductive GateMode
  | shadow | warn | enforce
  deriving DecidableEq, Repr

inductive GateId
  | contextReadable | stopLoss | prdPresent | specApproved | gapsClosed | partitionApproved
  | acceptanceCriteria | finalAcceptance
  deriving DecidableEq, Repr

/-- `GATE_IDS`, in source order. -/
def gateIds : List GateId :=
  [.contextReadable, .stopLoss, .prdPresent, .specApproved, .gapsClosed, .partitionApproved,
    .acceptanceCriteria, .finalAcceptance]

def GateId.text : GateId → JsString
  | .contextReadable => js "context-readable"
  | .stopLoss => js "stop-loss"
  | .prdPresent => js "prd-present"
  | .specApproved => js "spec-approved"
  | .gapsClosed => js "gaps-closed"
  | .partitionApproved => js "partition-approved"
  | .acceptanceCriteria => js "acceptance-criteria"
  | .finalAcceptance => js "final-acceptance"

inductive ProjectPolicyMode
  | standard | strict
  deriving DecidableEq, Repr

inductive GateOutcome
  | pass | warn | block
  deriving DecidableEq, Repr

abbrev GateModes := GateId → GateMode

/-- `GATE_PRIORITIES`. -/
def gatePriorities : GateId → Nat
  | .contextReadable => 10
  | .stopLoss => 20
  | .prdPresent => 30
  | .specApproved => 40
  | .gapsClosed => 50
  | .partitionApproved => 60
  | .acceptanceCriteria => 70
  | .finalAcceptance => 80

inductive GateFailureReason
  | contextUnreadable | stopLossBudget | stopLossFlag | stopLossRejections
  | aceitacaoFinal | acIncomplete | aprovacaoSpec | gapsAbertos | particionamento
  | prdAusente | prdSectionMissing | prdUntouched
  deriving DecidableEq, Repr

def GateFailureReason.text : GateFailureReason → JsString
  | .contextUnreadable => js "blocked.context_unreadable"
  | .stopLossBudget => js "blocked.stop_loss_budget"
  | .stopLossFlag => js "blocked.stop_loss_flag"
  | .stopLossRejections => js "blocked.stop_loss_rejections"
  | .aceitacaoFinal => js "gate.aceitacao_final"
  | .acIncomplete => js "gate.ac_incomplete"
  | .aprovacaoSpec => js "gate.aprovacao_spec"
  | .gapsAbertos => js "gate.gaps_abertos"
  | .particionamento => js "gate.particionamento"
  | .prdAusente => js "gate.prd_ausente"
  | .prdSectionMissing => js "gate.prd_section_missing"
  | .prdUntouched => js "gate.prd_untouched"

/-- `GATE_REASON_CODES`. -/
def gateReasonCodes : GateId → List GateFailureReason
  | .contextReadable => [.contextUnreadable]
  | .stopLoss => [.stopLossBudget, .stopLossFlag, .stopLossRejections]
  | .prdPresent => [.prdAusente, .prdSectionMissing, .prdUntouched]
  | .specApproved => [.aprovacaoSpec]
  | .gapsClosed => [.gapsAbertos]
  | .partitionApproved => [.particionamento]
  | .acceptanceCriteria => [.acIncomplete]
  | .finalAcceptance => [.aceitacaoFinal]

structure GateFailure where
  gateId : GateId
  reasonCode : GateFailureReason
  priority : Nat
  mode : GateMode
  evidenceRefs : List JsString
  detail : Option JsString
  deriving DecidableEq, Repr

structure GateAggregation where
  outcome : GateOutcome
  primary : Option GateFailure
  failures : List GateFailure
  deriving DecidableEq, Repr

def severity : GateOutcome → Nat
  | .block => 0
  | .warn => 1
  | .pass => 2

def outcomeForMode : GateMode → GateOutcome
  | .enforce => .block
  | .warn => .warn
  | .shadow => .pass

def resolveGateModes (policyMode : ProjectPolicyMode)
    (overrides : GateId → Option GateMode) : GateModes := fun id =>
  (overrides id).getD (match policyMode with | .strict => .enforce | .standard => .warn)

/-- The rank of an identifier in the `en-US` collation of the eight gate identifiers. -/
def collationRank : GateId → Nat
  | .acceptanceCriteria => 0
  | .contextReadable => 1
  | .finalAcceptance => 2
  | .gapsClosed => 3
  | .partitionApproved => 4
  | .prdPresent => 5
  | .specApproved => 6
  | .stopLoss => 7

/-- `left.localeCompare(right, "en-US")` on gate identifiers. -/
def localeCompare (left right : GateId) : Int :=
  if collationRank left < collationRank right then -1
  else if collationRank right < collationRank left then 1 else 0

def compareGateFailures (left right : GateFailure) : Int :=
  let bySeverity : Int := severity (outcomeForMode left.mode) - severity (outcomeForMode right.mode)
  let byPriority : Int := left.priority - right.priority
  if bySeverity ≠ 0 then bySeverity
  else if byPriority ≠ 0 then byPriority
  else localeCompare left.gateId right.gateId

/-- The relation a stable sort with the comparator establishes between neighbours. -/
def NotAfter (left right : GateFailure) : Prop := compareGateFailures left right ≤ 0

instance : DecidableRel NotAfter := fun left right =>
  inferInstanceAs (Decidable (compareGateFailures left right ≤ 0))

/-- `[...input].sort(compareGateFailures)`, a stable sort. -/
def sortGateFailures (input : List GateFailure) : List GateFailure :=
  input.insertionSort NotAfter

def aggregateGateFailures (input : List GateFailure) : GateAggregation :=
  let failures := sortGateFailures input
  { outcome := match failures.head? with
      | none => .pass
      | some first => outcomeForMode first.mode
    primary := failures.head?
    failures }

private theorem localeCompare_nonpos (left right : GateId) :
    localeCompare left right ≤ 0 ↔ collationRank left ≤ collationRank right := by
  unfold localeCompare
  split_ifs <;> omega

/-- The comparator is the lexicographic order of severity, priority and collation rank. -/
theorem notAfter_iff (left right : GateFailure) :
    NotAfter left right ↔
      severity (outcomeForMode left.mode) < severity (outcomeForMode right.mode) ∨
      severity (outcomeForMode left.mode) = severity (outcomeForMode right.mode) ∧
        (left.priority < right.priority ∨
          left.priority = right.priority ∧
            collationRank left.gateId ≤ collationRank right.gateId) := by
  have byRank := localeCompare_nonpos left.gateId right.gateId
  unfold NotAfter compareGateFailures
  dsimp only
  split_ifs <;> omega

theorem notAfter_total (left right : GateFailure) :
    NotAfter left right ∨ NotAfter right left := by
  rw [notAfter_iff, notAfter_iff]
  omega

theorem notAfter_trans {first second third : GateFailure}
    (left : NotAfter first second) (right : NotAfter second third) : NotAfter first third := by
  rw [notAfter_iff] at *
  omega

instance : Std.Total NotAfter := ⟨notAfter_total⟩
instance : IsTrans GateFailure NotAfter := ⟨fun _ _ _ => notAfter_trans⟩

theorem sortGateFailures_perm (input : List GateFailure) :
    (sortGateFailures input).Perm input :=
  List.perm_insertionSort NotAfter input

theorem sortGateFailures_sorted (input : List GateFailure) :
    (sortGateFailures input).Pairwise NotAfter :=
  List.pairwise_insertionSort NotAfter input

end Kratos.Gates
