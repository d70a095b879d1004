/- source: domain/extensions/policy-packs.ts
   digest: What a shadow comparison reports about requirements, alone and along a chain. -/

import Kratos.Extensions.PolicyPacks
import Mathlib.Data.List.Chain

set_option autoImplicit false

namespace Kratos.Extensions

open Foundation.Text

section Reports

/-- The change that the comparison of a decision with a selected candidate reports. -/
def reportedChange (historical : HistoricalRigorDecision) (candidate : SelectedProfile) :
    ShadowChange :=
  match comparePolicyPackShadow historical (.selected candidate) with
  | .compared change _ _ => change
  | .blocked => .wouldWeaken

/-- Sets and counts of two requirements are equal. -/
def SameRequirements (before after : RigorRequirements) : Prop := before ≤ after ∧ after ≤ before

/-- What a report should tell: no loss unnoticed, nothing called stricter or the same that is not. -/
structure SoundReport (change : ShadowChange) (before after : RigorRequirements) : Prop where
  same : change = .same → SameRequirements before after
  tightened : change = .tightened → before < after
  weakened : ¬ before ≤ after → change = .wouldWeaken

/-- A gate, an approval or a judge is dropped. -/
def DropsCounted (before after : RigorRequirements) : Prop :=
  ¬ (before.gateIds ⊆ after.gateIds ∧ before.minimumApprovals ≤ after.minimumApprovals ∧
    before.independentJudges ≤ after.independentJudges)

instance (before after : RigorRequirements) : Decidable (DropsCounted before after) :=
  inferInstanceAs (Decidable (¬ (_ ∧ _ ∧ _)))

/-- The kinds of evidence do not decide: a kind is dropped only beside a gate, an approval or a
judge, and added alone only if one of these is added or dropped too. -/
def EvidenceFollows (before after : RigorRequirements) : Prop :=
  DropsCounted before after ∨
    (before.evidenceKinds ⊆ after.evidenceKinds ∧
      (DropsCounted after before ∨ after.evidenceKinds ⊆ before.evidenceKinds))

variable {historical : HistoricalRigorDecision} {candidate : SelectedProfile}

private theorem filter_new_ne_nil {left right : List JsString} :
    sortedSet (left.filter fun id => decide (id ∉ right)) ≠ [] ↔ ¬ left ⊆ right := by
  simp only [ne_eq, List.eq_nil_iff_forall_not_mem, mem_sortedSet, List.mem_filter,
    decide_eq_true_eq, List.subset_def, not_forall]
  constructor
  · rintro ⟨id, inside⟩
    exact ⟨id, (not_not.mp inside).1, (not_not.mp inside).2⟩
  · rintro ⟨id, member, absent⟩
    exact ⟨id, not_not.mpr ⟨member, absent⟩⟩

private theorem drops_iff (before after : RigorRequirements) :
    (sortedSet (before.gateIds.filter fun id => decide (id ∉ after.gateIds)) ≠ [] ∨
      after.minimumApprovals < before.minimumApprovals ∨
      after.independentJudges < before.independentJudges) ↔ DropsCounted before after := by
  rw [filter_new_ne_nil, DropsCounted, not_and_or, not_and_or, not_le, not_le]

theorem reportedChange_eq (historical : HistoricalRigorDecision) (candidate : SelectedProfile) :
    reportedChange historical candidate =
      if DropsCounted historical.requirements candidate.requirements then .wouldWeaken
      else if DropsCounted candidate.requirements historical.requirements then .tightened
      else .same := by
  simp only [reportedChange, comparePolicyPackShadow, drops_iff]

theorem le_iff_not_dropsCounted {before after : RigorRequirements} :
    before ≤ after ↔ ¬ DropsCounted before after ∧ before.evidenceKinds ⊆ after.evidenceKinds := by
  rw [DropsCounted, not_not, le_def]
  tauto

/-- A report is sound exactly when the kinds of evidence follow gates and counts. -/
theorem soundReport_iff (historical : HistoricalRigorDecision) (candidate : SelectedProfile) :
    SoundReport (reportedChange historical candidate) historical.requirements
        candidate.requirements ↔
      EvidenceFollows historical.requirements candidate.requirements := by
  rw [reportedChange_eq]
  by_cases dropped : DropsCounted historical.requirements candidate.requirements
  · rw [if_pos dropped]
    exact ⟨fun _ => .inl dropped, fun _ => ⟨nofun, nofun, fun _ => rfl⟩⟩
  · rw [if_neg dropped]
    have forward : historical.requirements ≤ candidate.requirements ↔
        historical.requirements.evidenceKinds ⊆ candidate.requirements.evidenceKinds := by
      rw [le_iff_not_dropsCounted, and_iff_right dropped]
    rw [EvidenceFollows, or_iff_right dropped]
    by_cases added : DropsCounted candidate.requirements historical.requirements
    · rw [if_pos added, and_iff_left (.inl added), ← forward]
      have strict : ¬ candidate.requirements ≤ historical.requirements := by
        rw [le_iff_not_dropsCounted]
        exact fun both => both.1 added
      constructor
      · intro sound
        by_contra lost
        cases sound.weakened lost
      · exact fun kept => ⟨nofun, fun _ => ⟨kept, strict⟩, fun lost => absurd kept lost⟩
    · have backward : candidate.requirements ≤ historical.requirements ↔
          candidate.requirements.evidenceKinds ⊆ historical.requirements.evidenceKinds := by
        rw [le_iff_not_dropsCounted, and_iff_right added]
      rw [if_neg added, or_iff_right added, ← forward, ← backward]
      exact ⟨fun sound => sound.same rfl,
        fun both => ⟨fun _ => both, nofun, fun lost => absurd both.1 lost⟩⟩

end Reports

section Chains

/-- One decision of a chain: what it selected, compared with the decision before it. -/
def Accepted (before after : SelectedProfile) : Prop :=
  reportedChange ⟨before.profileId, before.requirements⟩ after ≠ .wouldWeaken

instance (before after : SelectedProfile) : Decidable (Accepted before after) :=
  inferInstanceAs (Decidable (_ ≠ _))

/-- Along a chain without a report of weakening, and of evidence that follows, nothing the first
decision asked for is lost. -/
theorem chain_keeps {first : SelectedProfile} {later : List SelectedProfile}
    (accepted : (first :: later).IsChain Accepted)
    (follows : (first :: later).IsChain fun before after =>
      EvidenceFollows before.requirements after.requirements) :
    ∀ decision ∈ later, first.requirements ≤ decision.requirements := by
  induction later generalizing first with
  | nil => simp
  | cons next later ih =>
      obtain ⟨step, accepted⟩ := List.isChain_cons_cons.mp accepted
      obtain ⟨sound, follows⟩ := List.isChain_cons_cons.mp follows
      have report := (soundReport_iff ⟨first.profileId, first.requirements⟩ next).mpr sound
      have kept : first.requirements ≤ next.requirements := by
        by_contra lost
        exact step (report.weakened lost)
      rw [List.forall_mem_cons]
      exact ⟨kept, fun decision member => kept.trans (ih accepted follows decision member)⟩

end Chains

/-- The shadow comparison: each report exactly, and chains of reports. -/
theorem shadow_comparison_exact (historical : HistoricalRigorDecision)
    (candidate first : SelectedProfile) (later : List SelectedProfile) :
    (SoundReport (reportedChange historical candidate) historical.requirements
        candidate.requirements ↔
      EvidenceFollows historical.requirements candidate.requirements) ∧
    ((first :: later).IsChain Accepted →
      ((first :: later).IsChain fun before after =>
        EvidenceFollows before.requirements after.requirements) →
      ∀ decision ∈ later, first.requirements ≤ decision.requirements) :=
  ⟨soundReport_iff historical candidate, fun accepted follows => chain_keeps accepted follows⟩

/-- A selection that asks for the given evidence and nothing else. -/
def asksEvidence (evidenceKinds : List JsString) : SelectedProfile where
  profileId := js "standard"
  packId := js "org-default"
  packVersion := js "1.0.0"
  packDigest := []
  matchedRuleIds := []
  requirements := ⟨[], evidenceKinds, 1, 0⟩

/-- A chain that adds a gate keeps the evidence of its first decision. -/
def withGate (decision : SelectedProfile) (gate : JsString) : SelectedProfile :=
  { decision with requirements := { decision.requirements with gateIds := [gate] } }

theorem gate_added_keeps :
    ∀ decision ∈ [withGate (asksEvidence [js "test"]) (js "tests")],
      (asksEvidence [js "test"]).requirements ≤ decision.requirements :=
  (shadow_comparison_exact ⟨js "standard", (asksEvidence [js "test"]).requirements⟩
    (asksEvidence [js "test"]) (asksEvidence [js "test"])
    [withGate (asksEvidence [js "test"]) (js "tests")]).2
    (by simp only [List.isChain_cons_cons, List.isChain_singleton, and_true]
        decide +kernel)
    (by simp only [List.isChain_cons_cons, List.isChain_singleton, and_true, EvidenceFollows]
        decide +kernel)

/-- A candidate that drops the only kind of evidence is reported as the same. -/
theorem dropped_evidence_unreported :
    ¬ ∀ historical candidate,
      SoundReport (reportedChange historical candidate) historical.requirements
        candidate.requirements := by
  intro claimed
  have report := claimed ⟨js "standard", (asksEvidence [js "security-scan"]).requirements⟩
    (asksEvidence [])
  have same : reportedChange ⟨js "standard", (asksEvidence [js "security-scan"]).requirements⟩
      (asksEvidence []) = .same := by decide +kernel
  have lost := (report.same same).1.2.1 List.mem_cons_self
  cases lost

end Kratos.Extensions
