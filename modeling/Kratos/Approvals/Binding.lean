/- source: domain/approvals/index.ts
   digest: Approvals issued for a binding, and the bindings and instants they are valid for. -/

import Kratos.Foundation.Instants
import Kratos.Schema.Codec

set_option autoImplicit false

namespace Kratos.Approvals

open Foundation.Text Foundation.JsonText Foundation.Collections Schema

/-- A finite number of the language, held as the JSON value that is written for it. -/
structure FiniteNumber where
  json : Json
  number : (∃ value, json = .integer value) ∨ ∃ literal, json = .double literal
  formed : WellFormed json

structure ApprovalBinding where
  runId : JsString
  gate : JsString
  prdDigest : JsString
  specDigest : JsString
  policyVersion : JsString
  policyMode : JsString
  objectiveDigest : JsString
  revision : FiniteNumber

inductive ApprovalDecision
  | approved | rejected
  deriving DecidableEq, Repr

structure ApprovalRequest extends ApprovalBinding where
  approvalId : JsString
  decision : ApprovalDecision
  approver : JsString
  observation : JsString
  decidedAt : JsString
  expiresAt : JsString

/-- A stored approval; its contract versions are the same for all. -/
structure ApprovalV1 where
  approvalId : JsString
  runId : JsString
  gate : JsString
  decision : ApprovalDecision
  prdDigest : JsString
  specDigest : JsString
  policyVersion : JsString
  approver : JsString
  observation : JsString
  challenge : JsString
  decidedAt : JsString
  expiresAt : JsString
  deriving DecidableEq, Repr

inductive ApprovalValidation
  | valid (approval : ApprovalV1)
  | expired | rejected | replayed | stale | tampered
  deriving DecidableEq, Repr

def challengeMembers (binding : ApprovalBinding) : Members :=
  [(js "gate", .string binding.gate),
    (js "policyVersion", .string binding.policyVersion),
    (js "policyMode", .string binding.policyMode),
    (js "objectiveDigest", .string binding.objectiveDigest),
    (js "prdDigest", .string binding.prdDigest),
    (js "runId", .string binding.runId),
    (js "revision", binding.revision.json),
    (js "specDigest", .string binding.specDigest)]

def challengeText (binding : ApprovalBinding) : JsString :=
  canonicalizeJson (.object (challengeMembers binding))

section Validation

variable (sha256 : JsString → JsString)

def approvalChallenge (binding : ApprovalBinding) : JsString := sha256 (challengeText binding)

def issueApproval (request : ApprovalRequest) : ApprovalV1 where
  approvalId := request.approvalId
  runId := request.runId
  gate := request.gate
  decision := request.decision
  prdDigest := request.prdDigest
  specDigest := request.specDigest
  policyVersion := request.policyVersion
  approver := request.approver
  observation := request.observation
  challenge := approvalChallenge sha256 request.toApprovalBinding
  decidedAt := request.decidedAt
  expiresAt := request.expiresAt

/-- `Date.parse` may be any reading of texts as instants; an invalid date has none. -/
def validateApproval (parseDate : JsString → Option Int) (approval : ApprovalV1)
    (binding : ApprovalBinding) (now : JsString) (seenApprovalIds : List JsString) :
    ApprovalValidation :=
  if approval.approvalId ∈ seenApprovalIds then .replayed
  else if approval.runId ≠ binding.runId ∨ approval.gate ≠ binding.gate ∨
      approval.prdDigest ≠ binding.prdDigest ∨ approval.specDigest ≠ binding.specDigest ∨
      approval.policyVersion ≠ binding.policyVersion then .stale
  else if approval.challenge ≠ approvalChallenge sha256 binding then .tampered
  else
    match parseDate now, parseDate approval.decidedAt, parseDate approval.expiresAt with
    | some observed, some decided, some expires =>
        if observed < decided ∨ expires < observed ∨ expires < decided then .expired
        else if approval.decision ≠ .approved then .rejected
        else .valid approval
    | _, _, _ => .expired

end Validation

section Challenges

/-- Two bindings have the same value in each of the eight fields. -/
structure Agrees (left right : ApprovalBinding) : Prop where
  runId : left.runId = right.runId
  gate : left.gate = right.gate
  prdDigest : left.prdDigest = right.prdDigest
  specDigest : left.specDigest = right.specDigest
  policyVersion : left.policyVersion = right.policyVersion
  policyMode : left.policyMode = right.policyMode
  objectiveDigest : left.objectiveDigest = right.objectiveDigest
  revision : left.revision.json = right.revision.json

theorem challengeMembers_keys (binding : ApprovalBinding) :
    ((challengeMembers binding).map Prod.fst).Nodup := by
  show [js "gate", js "policyVersion", js "policyMode", js "objectiveDigest", js "prdDigest",
    js "runId", js "revision", js "specDigest"].Nodup
  decide

theorem challengeMembers_formed (binding : ApprovalBinding) :
    WellFormed (.object (challengeMembers binding)) := by
  rw [WellFormed, wellFormedMembers_iff]
  refine ⟨challengeMembers_keys binding, ?_⟩
  simp only [challengeMembers, List.forall_mem_cons, WellFormed, binding.revision.formed, true_and]
  exact fun _ member => nomatch member

theorem FiniteNumber.canonicalForm (number : FiniteNumber) :
    canonicalForm number.json = number.json := by
  rcases number.number with ⟨value, same⟩ | ⟨literal, same⟩
  · rw [same, Schema.canonicalForm]
  · rw [same, Schema.canonicalForm]

theorem challengeText_sameValue {left right : ApprovalBinding}
    (same : challengeText left = challengeText right) :
    SameValue (.object (challengeMembers left)) (.object (challengeMembers right)) :=
  canonicalForm_of_canonicalizeJson (challengeMembers_formed left) (challengeMembers_formed right)
    same

theorem revision_of_sameValue {left right : ApprovalBinding}
    (same : SameValue (.object (challengeMembers left)) (.object (challengeMembers right))) :
    left.revision.json = right.revision.json := by
  obtain ⟨members, equal, agree⟩ := sameValue_object same
  obtain rfl := Json.object.inj equal
  have listed : (js "revision", right.revision.json) ∈ challengeMembers right := by
    simp [challengeMembers]
  have held : (js "revision", left.revision.json) ∈ challengeMembers left := by
    simp [challengeMembers]
  obtain ⟨found, lookup, sameForm⟩ := mapGet_same agree (challengeMembers_keys right) listed
  rw [mapGet_of_mem (challengeMembers_keys left) held] at lookup
  obtain rfl := Option.some.inj lookup
  rwa [SameValue, left.revision.canonicalForm, right.revision.canonicalForm] at sameForm

theorem challengeText_eq_iff {left right : ApprovalBinding} :
    challengeText left = challengeText right ↔ Agrees left right := by
  constructor
  · intro same
    have forms := challengeText_sameValue same
    have field (key : JsString) {a b : JsString}
        (first : (key, Json.string a) ∈ challengeMembers left)
        (second : (key, Json.string b) ∈ challengeMembers right) : a = b :=
      member_injective forms (challengeMembers_keys left) (challengeMembers_keys right) text key
        first second
    refine ⟨field (js "runId") ?_ ?_, field (js "gate") ?_ ?_, field (js "prdDigest") ?_ ?_,
      field (js "specDigest") ?_ ?_, field (js "policyVersion") ?_ ?_,
      field (js "policyMode") ?_ ?_, field (js "objectiveDigest") ?_ ?_,
      revision_of_sameValue forms⟩
    all_goals simp [challengeMembers]
  · intro agree
    simp only [challengeText, challengeMembers, agree.runId, agree.gate, agree.prdDigest,
      agree.specDigest, agree.policyVersion, agree.policyMode, agree.objectiveDigest, agree.revision]

end Challenges

end Kratos.Approvals
