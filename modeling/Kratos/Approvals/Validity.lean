/- source: domain/approvals/index.ts
   digest: An approval is good for exactly the binding it was issued for, while it is in force. -/

import Kratos.Approvals.Binding
import Kratos.Foundation.Sha256

set_option autoImplicit false

namespace Kratos.Approvals

open Foundation.Text Foundation.JsonText Foundation.Calendar Foundation.Instants

section Validity

variable {sha256 : JsString → JsString} {parseDate : JsString → Option Int}

/-- At an instant of the clock the approval is decided and not yet expired. -/
def InForce (parseDate : JsString → Option Int) (decidedAt expiresAt now : JsString) : Prop :=
  ∃ observed decided expires, parseDate now = some observed ∧
    parseDate decidedAt = some decided ∧ parseDate expiresAt = some expires ∧
    decided ≤ observed ∧ observed ≤ expires

/-- The stored approval and the binding agree on every field that the approval carries, and on
the challenge. -/
structure BoundTo (sha256 : JsString → JsString) (approval : ApprovalV1)
    (binding : ApprovalBinding) : Prop where
  runId : approval.runId = binding.runId
  gate : approval.gate = binding.gate
  prdDigest : approval.prdDigest = binding.prdDigest
  specDigest : approval.specDigest = binding.specDigest
  policyVersion : approval.policyVersion = binding.policyVersion
  challenge : approval.challenge = approvalChallenge sha256 binding

theorem not_stale_iff {approval : ApprovalV1} {binding : ApprovalBinding} :
    BoundTo sha256 approval binding ↔
      ¬(approval.runId ≠ binding.runId ∨ approval.gate ≠ binding.gate ∨
        approval.prdDigest ≠ binding.prdDigest ∨ approval.specDigest ≠ binding.specDigest ∨
        approval.policyVersion ≠ binding.policyVersion) ∧
      ¬approval.challenge ≠ approvalChallenge sha256 binding := by
  simp only [not_or, not_not]
  constructor
  · rintro ⟨runId, gate, prd, spec, policy, challenge⟩
    exact ⟨⟨runId, gate, prd, spec, policy⟩, challenge⟩
  · rintro ⟨⟨runId, gate, prd, spec, policy⟩, challenge⟩
    exact ⟨runId, gate, prd, spec, policy, challenge⟩

theorem validateApproval_eq_valid_iff {approval result : ApprovalV1} {binding : ApprovalBinding}
    {now : JsString} {seen : List JsString} :
    validateApproval sha256 parseDate approval binding now seen = .valid result ↔
      result = approval ∧ approval.approvalId ∉ seen ∧ BoundTo sha256 approval binding ∧
        InForce parseDate approval.decidedAt approval.expiresAt now ∧
        approval.decision = .approved := by
  rw [not_stale_iff, validateApproval]
  by_cases replayed : approval.approvalId ∈ seen
  · rw [if_pos replayed]
    exact iff_of_false nofun fun holds => holds.2.1 replayed
  rw [if_neg replayed]
  by_cases stale : approval.runId ≠ binding.runId ∨ approval.gate ≠ binding.gate ∨
      approval.prdDigest ≠ binding.prdDigest ∨ approval.specDigest ≠ binding.specDigest ∨
      approval.policyVersion ≠ binding.policyVersion
  · rw [if_pos stale]
    exact iff_of_false nofun fun holds => holds.2.2.1.1 stale
  rw [if_neg stale]
  by_cases tampered : approval.challenge ≠ approvalChallenge sha256 binding
  · rw [if_pos tampered]
    exact iff_of_false nofun fun holds => holds.2.2.1.2 tampered
  rw [if_neg tampered]
  simp only [replayed, stale, tampered, not_false_eq_true, true_and]
  split
  next observed decided expires observes decides ends =>
    have inForce : InForce parseDate approval.decidedAt approval.expiresAt now ↔
        decided ≤ observed ∧ observed ≤ expires := by
      simp [InForce, observes, decides, ends]
    rw [inForce]
    split_ifs with expired rejected
    · simp only [false_iff]
      omega
    · simp only [rejected, and_false]
    · have within : decided ≤ observed ∧ observed ≤ expires := by omega
      simp only [ApprovalValidation.valid.injEq, within, not_not.mp rejected, and_true]
      exact eq_comm
  next unread =>
    simp only [reduceCtorEq, false_iff]
    rintro ⟨rfl, ⟨observed, decided, expires, observes, decides, ends, -⟩, -⟩
    exact unread _ _ _ observes decides ends

/-- What was issued for a request is bound to a binding when the digests of the two challenges
agree, and with the fields inside the challenge alone this is agreement on all eight. -/
theorem boundTo_issued_iff {request : ApprovalRequest} {binding : ApprovalBinding}
    (injective : sha256 (challengeText request.toApprovalBinding) = sha256 (challengeText binding) →
      challengeText request.toApprovalBinding = challengeText binding) :
    BoundTo sha256 (issueApproval sha256 request) binding ↔
      Agrees request.toApprovalBinding binding := by
  constructor
  · intro bound
    exact challengeText_eq_iff.mp (injective bound.challenge)
  · intro agree
    have challenge := congrArg sha256 (challengeText_eq_iff.mpr agree)
    exact ⟨agree.runId, agree.gate, agree.prdDigest, agree.specDigest, agree.policyVersion,
      challenge⟩

theorem BoundTo.unique {first second : ApprovalV1} {binding : ApprovalBinding}
    (left : BoundTo sha256 first binding) (right : BoundTo sha256 second binding) :
    first.runId = second.runId ∧ first.gate = second.gate ∧ first.prdDigest = second.prdDigest ∧
      first.specDigest = second.specDigest ∧ first.policyVersion = second.policyVersion ∧
      first.challenge = second.challenge :=
  ⟨left.runId.trans right.runId.symm, left.gate.trans right.gate.symm,
    left.prdDigest.trans right.prdDigest.symm, left.specDigest.trans right.specDigest.symm,
    left.policyVersion.trans right.policyVersion.symm, left.challenge.trans right.challenge.symm⟩

/-- An approval is valid for exactly the binding it was issued for, at the milliseconds that
the clock's texts are read as; a valid one whose bound fields are changed is not. -/
theorem approval_valid_exact (sha256 : JsString → JsString) (parseDate : JsString → Option Int)
    (request : ApprovalRequest) (binding : ApprovalBinding) (now : JsString)
    (seen : List JsString)
    (injective : sha256 (challengeText request.toApprovalBinding) = sha256 (challengeText binding) →
      challengeText request.toApprovalBinding = challengeText binding) :
    ((∃ result, validateApproval sha256 parseDate (issueApproval sha256 request) binding now seen =
        .valid result) ↔
      Agrees request.toApprovalBinding binding ∧ request.decision = .approved ∧
        InForce parseDate request.decidedAt request.expiresAt now ∧ request.approvalId ∉ seen) ∧
    ∀ valid changed : ApprovalV1, ∀ later laterSeen result,
      validateApproval sha256 parseDate valid binding now seen = .valid valid →
      ¬(valid.runId = changed.runId ∧ valid.gate = changed.gate ∧
        valid.prdDigest = changed.prdDigest ∧ valid.specDigest = changed.specDigest ∧
        valid.policyVersion = changed.policyVersion ∧ valid.challenge = changed.challenge) →
      validateApproval sha256 parseDate changed binding later laterSeen ≠ .valid result := by
  constructor
  · simp only [validateApproval_eq_valid_iff, exists_eq_left, boundTo_issued_iff injective]
    constructor
    · rintro ⟨unseen, agree, inForce, approved⟩
      exact ⟨agree, approved, inForce, unseen⟩
    · rintro ⟨agree, approved, inForce, unseen⟩
      exact ⟨unseen, agree, inForce, approved⟩
  · intro valid changed later laterSeen result accepted differs again
    have bound := (validateApproval_eq_valid_iff.mp accepted).2.2.1
    have boundAgain := (validateApproval_eq_valid_iff.mp again).2.2.1
    exact differs (bound.unique boundAgain)

end Validity

/-- The approval that both cases below are about. -/
private def sampleRequest : ApprovalRequest where
  runId := js "run-1"
  gate := js "G1"
  prdDigest := List.replicate 64 (unit 'a')
  specDigest := List.replicate 64 (unit 'b')
  policyVersion := js "1.0.0"
  policyMode := js "standard"
  objectiveDigest := List.replicate 64 (unit 'c')
  revision := ⟨.integer 3, .inl ⟨3, rfl⟩, by simp [WellFormed, isSafeInteger, maxSafeInteger]⟩
  approvalId := js "approval-1"
  decision := .approved
  approver := js "owner"
  observation := js "Reviewed."
  decidedAt := js "2026-01-01T00:00:00.0005Z"
  expiresAt := js "2026-01-02T00:00:00Z"

private theorem sampleRequest_inForce :
    InForce dateParse sampleRequest.decidedAt sampleRequest.expiresAt
      (js "2026-01-01T00:00:00.0001Z") :=
  ⟨1767225600000, 1767225600000, 1767312000000, by decide +kernel, by decide +kernel,
    by decide +kernel, by omega, by omega⟩

private theorem sampleRequest_accepted :
    validateApproval Foundation.Sha256.sha256 dateParse
      (issueApproval Foundation.Sha256.sha256 sampleRequest) sampleRequest.toApprovalBinding
      (js "2026-01-01T00:00:00.0001Z") [] =
        .valid (issueApproval Foundation.Sha256.sha256 sampleRequest) :=
  validateApproval_eq_valid_iff.mpr ⟨rfl, List.not_mem_nil,
    (boundTo_issued_iff fun _ => rfl).mpr (challengeText_eq_iff.mp rfl), sampleRequest_inForce, rfl⟩

theorem sampleRequest_valid :
    (∃ result, validateApproval Foundation.Sha256.sha256 dateParse
      (issueApproval Foundation.Sha256.sha256 sampleRequest) sampleRequest.toApprovalBinding
      (js "2026-01-01T00:00:00.0001Z") [] = .valid result) ∧
    ∀ later laterSeen result, validateApproval Foundation.Sha256.sha256 dateParse
      { issueApproval Foundation.Sha256.sha256 sampleRequest with gate := js "G2" }
      sampleRequest.toApprovalBinding later laterSeen ≠ .valid result := by
  have exactly := approval_valid_exact Foundation.Sha256.sha256 dateParse sampleRequest
    sampleRequest.toApprovalBinding (js "2026-01-01T00:00:00.0001Z") [] fun _ => rfl
  constructor
  · exact exactly.1.mpr
      ⟨challengeText_eq_iff.mp rfl, rfl, sampleRequest_inForce, List.not_mem_nil⟩
  · intro later laterSeen result
    refine exactly.2 _ _ later laterSeen result sampleRequest_accepted fun same => ?_
    exact absurd same.2.1 (by decide : js "G1" ≠ js "G2")

/-- Within one millisecond an approval is already valid before the instant it was decided at. -/
theorem valid_before_decided :
    (∃ result, validateApproval Foundation.Sha256.sha256 dateParse
      (issueApproval Foundation.Sha256.sha256 sampleRequest) sampleRequest.toApprovalBinding
      (js "2026-01-01T00:00:00.0001Z") [] = .valid result) ∧
    ∃ decided observed, instantOf sampleRequest.decidedAt = some decided ∧
      instantOf (js "2026-01-01T00:00:00.0001Z") = some observed ∧ observed < decided :=
  ⟨⟨_, sampleRequest_accepted⟩, 1767225600000500000, 1767225600000100000, by decide +kernel,
    by decide +kernel, by omega⟩

end Kratos.Approvals
