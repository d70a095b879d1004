/- source: domain/gaps/record.ts, domain/cli/gaps.ts
   digest: What each decision over the gaps of a run can come to. -/

import Kratos.Gaps.Log

set_option autoImplicit false

namespace Kratos.Gaps

open Foundation.Text

section Records

variable {records : List GapRecord}

abbrev gapIds (records : List GapRecord) : List JsString := records.map GapRecord.gapId

theorem gap_unique (distinct : (gapIds records).Nodup) {left right : GapRecord}
    (first : left ∈ records) (second : right ∈ records) (same : left.gapId = right.gapId) :
    left = right :=
  List.inj_on_of_nodup_map distinct first second same

theorem sortGaps_perm (localeCompare : JsString → JsString → Int) (records : List GapRecord) :
    (sortGaps localeCompare records).Perm records := List.mergeSort_perm _ _

theorem mem_sortGaps {localeCompare : JsString → JsString → Int} {gap : GapRecord} :
    gap ∈ sortGaps localeCompare records ↔ gap ∈ records :=
  (sortGaps_perm localeCompare records).mem_iff

theorem find_gap {gapId : JsString} {gap : GapRecord}
    (found : records.find? (fun held => held.gapId == gapId) = some gap) :
    gap ∈ records ∧ gap.gapId = gapId :=
  ⟨List.mem_of_find?_eq_some found, by simpa using List.find?_some found⟩

theorem find_gap_none {gapId : JsString} :
    records.find? (fun held => held.gapId == gapId) = none ↔ gapId ∉ gapIds records := by
  simp only [List.find?_eq_none, beq_iff_eq, gapIds, List.mem_map, not_exists, not_and]

end Records

section Writing

variable {records gaps : List GapRecord}

/-- The record that the file of a gap holds after another was written. -/
def replaced (gap held : GapRecord) : GapRecord := if held.gapId = gap.gapId then gap else held

theorem replaced_gapId (gap held : GapRecord) : (replaced gap held).gapId = held.gapId := by
  unfold replaced
  split
  next same => exact same.symm
  next => rfl

theorem writeGap_present {gap : GapRecord} (present : gap.gapId ∈ gapIds records) :
    writeGap records gap = records.map (replaced gap) := if_pos present

theorem writeGaps_fresh (once : (gapIds gaps).Nodup)
    (fresh : ∀ gap ∈ gaps, gap.gapId ∉ gapIds records) :
    gaps.foldl writeGap records = records ++ gaps := by
  induction gaps generalizing records with
  | nil => exact (List.append_nil records).symm
  | cons gap rest ih =>
      obtain ⟨alone, once⟩ := List.nodup_cons.mp once
      have added : writeGap records gap = records ++ [gap] := if_neg (fresh gap List.mem_cons_self)
      rw [List.foldl_cons, added, ih once, List.append_assoc, List.singleton_append]
      intro later member inside
      rw [gapIds, List.map_append, List.mem_append] at inside
      rcases inside with before | same
      · exact fresh later (List.mem_cons_of_mem _ member) before
      · have same : later.gapId = gap.gapId := List.mem_singleton.mp same
        exact alone (List.mem_map.mpr ⟨later, member, same⟩)

end Writing

section Recording

variable {request : GapRecordRequest}

theorem collectGaps_ok {proposed : List ProposedGap} {recorded : List GapRecord}
    (collected : collectGaps request proposed = .ok recorded) :
    recorded = (proposed.filter fun gap => decide (gap.gapId ∉ gapIds request.existing)).map
      (candidate request) := by
  induction proposed generalizing recorded with
  | nil => exact (Except.ok.inj collected).symm
  | cons gap rest ih =>
      rw [collectGaps] at collected
      split at collected
      next => cases collected
      split at collected
      next absent =>
        have fresh := find_gap_none.mp absent
        cases later : collectGaps request rest with
        | error reason =>
            rw [later] at collected
            cases collected
        | ok tail =>
            rw [later] at collected
            simp only [List.filter_cons, fresh, not_false_eq_true, decide_true, if_true,
              List.map_cons, ← ih later]
            exact (Except.ok.inj collected).symm
      next existing present =>
        have held : ¬gap.gapId ∉ gapIds request.existing := by
          rw [← find_gap_none, present]
          exact nofun
        split at collected
        next =>
          simp only [List.filter_cons, held, decide_false, Bool.false_eq_true, if_false]
          exact ih collected
        next => cases collected

/-- What recording a proposal adds. -/
structure Addition (request : GapRecordRequest) (gaps : List GapRecord) : Prop where
  boundary : request.boundary = .preApproval
  someNew : gaps ≠ []
  once : (gapIds gaps).Nodup
  made : ∀ gap, gap ∈ gaps ↔ ∃ proposed ∈ request.proposal,
    proposed.gapId ∉ gapIds request.existing ∧ gap = candidate request proposed

theorem decideGapRecord_recorded {localeCompare : JsString → JsString → Int}
    {gaps : List GapRecord} (decided : decideGapRecord localeCompare request = .recorded gaps) :
    Addition request gaps := by
  unfold decideGapRecord at decided
  split at decided
  next => cases decided
  split at decided
  next => cases decided
  next boundary =>
  split at decided
  next => cases decided
  split at decided
  next => cases decided
  next distinct =>
  split at decided
  next => cases decided
  split at decided
  next => cases decided
  next => cases decided
  next recorded nonempty collected =>
  obtain rfl := GapRecordDecision.recorded.inj decided
  have gathered := collectGaps_ok collected
  refine ⟨?_, ?_, ?_, ?_⟩
  · cases side : request.boundary with
    | preApproval => rfl
    | postApproval => exact absurd side boundary
  · intro empty
    exact nonempty (List.nil_perm.mp (empty ▸ sortGaps_perm localeCompare recorded))
  · apply ((sortGaps_perm localeCompare recorded).map _).nodup_iff.mpr
    rw [gathered, List.map_map]
    exact (List.filter_sublist.map ProposedGap.gapId).nodup (not_not.mp distinct)
  · intro gap
    rw [mem_sortGaps, gathered, List.mem_map]
    simp only [List.mem_filter, decide_eq_true_eq, and_assoc]
    constructor
    · rintro ⟨proposed, listed, fresh, rfl⟩
      exact ⟨proposed, listed, fresh, rfl⟩
    · rintro ⟨proposed, listed, fresh, rfl⟩
      exact ⟨proposed, listed, fresh, rfl⟩

theorem decideGapRecord_unchanged {localeCompare : JsString → JsString → Int}
    (decided : decideGapRecord localeCompare request = .unchanged) :
    ∀ proposed ∈ request.proposal, proposed.gapId ∈ gapIds request.existing := by
  unfold decideGapRecord at decided
  iterate 5
    split at decided
    next => cases decided
  split at decided
  next => cases decided
  next collected =>
    intro proposed member
    have none_left := (List.map_eq_nil_iff.mp (collectGaps_ok collected).symm)
    simpa using List.filter_eq_nil_iff.mp none_left proposed member
  next => cases decided

end Recording

section Answering

/-- What a verdict or a waiver does to the gap it names. -/
structure Continues (gap later : GapRecord) : Prop where
  finding : { later with resolution := gap.resolution, waiver := gap.waiver } = gap
  resolution : ∀ answer, gap.resolution = some answer → later.resolution = some answer
  waiver : ∀ answer, gap.waiver = some answer → later.waiver = some answer

theorem Continues.refl (gap : GapRecord) : Continues gap gap := ⟨rfl, fun _ => id, fun _ => id⟩

theorem Continues.trans {first second third : GapRecord} (left : Continues first second)
    (right : Continues second third) : Continues first third := by
  refine ⟨?_, fun answer given => right.resolution _ (left.resolution _ given),
    fun answer given => right.waiver _ (left.waiver _ given)⟩
  rw [← left.finding, ← right.finding]

theorem Continues.gapId {gap later : GapRecord} (continues : Continues gap later) :
    later.gapId = gap.gapId := by
  rw [← continues.finding]

theorem Continues.runId {gap later : GapRecord} (continues : Continues gap later) :
    later.runId = gap.runId := by
  rw [← continues.finding]

theorem closed_of_resolution {gap : GapRecord} (answered : gap.resolution.isSome) :
    isOpenGap gap = false := by
  obtain ⟨answer, given⟩ := Option.isSome_iff_exists.mp answered
  simp [isOpenGap, given]

theorem closed_of_waiver {gap : GapRecord} (waived : gap.waiver.isSome) :
    isOpenGap gap = false := by
  obtain ⟨answer, given⟩ := Option.isSome_iff_exists.mp waived
  simp [isOpenGap, given]

theorem Continues.closed {gap later : GapRecord} (continues : Continues gap later)
    (closed : isOpenGap gap = false) : isOpenGap later = false := by
  rcases Bool.and_eq_false_iff.mp closed with answered | waived
  · obtain ⟨answer, given⟩ := Option.isSome_iff_exists.mp (by simpa using answered)
    exact closed_of_resolution (Option.isSome_of_eq_some (continues.resolution answer given))
  · obtain ⟨answer, given⟩ := Option.isSome_iff_exists.mp (by simpa using waived)
    exact closed_of_waiver (Option.isSome_of_eq_some (continues.waiver answer given))

theorem decideGapVerdict_updated {request : GapVerdictRequest} {later : GapRecord}
    (decided : decideGapVerdict request = .updated later) :
    ∃ gap ∈ request.gaps, gap.gapId = request.gapId ∧ gap.resolution = none ∧
      Continues gap later ∧ later.resolution.isSome := by
  unfold decideGapVerdict at decided
  split at decided
  next => cases decided
  next gap found =>
  split at decided
  next => cases decided
  simp only at decided
  split at decided
  next => split at decided <;> cases decided
  next unanswered =>
    obtain ⟨listed, named⟩ := find_gap found
    obtain rfl := GapUpdateDecision.updated.inj decided
    refine ⟨gap, listed, named, unanswered, ⟨rfl, ?_, fun _ => id⟩, rfl⟩
    intro answer given
    rw [unanswered] at given
    cases given

theorem decideGapVerdict_unchanged {request : GapVerdictRequest} {gap : GapRecord}
    (decided : decideGapVerdict request = .unchanged gap) :
    gap ∈ request.gaps ∧ gap.gapId = request.gapId ∧ gap.resolution.isSome := by
  unfold decideGapVerdict at decided
  split at decided
  next => cases decided
  next held found =>
  split at decided
  next => cases decided
  simp only at decided
  split at decided
  next answer answered =>
    split at decided
    next =>
      obtain ⟨listed, named⟩ := find_gap found
      obtain rfl := GapUpdateDecision.unchanged.inj decided
      exact ⟨listed, named, Option.isSome_iff_exists.mpr ⟨answer, answered⟩⟩
    next => cases decided
  next => cases decided

theorem decideGapWaiver_updated {request : GapWaiverRequest} {later : GapRecord}
    (decided : decideGapWaiver request = .updated later) :
    ∃ gap ∈ request.gaps, gap.gapId = request.gapId ∧ isOpenGap gap = true ∧
      Continues gap later ∧ later.waiver.isSome := by
  unfold decideGapWaiver at decided
  split at decided
  next => cases decided
  next gap found =>
  split at decided
  next => cases decided
  split at decided
  next => cases decided
  next unanswered =>
  simp only at decided
  split at decided
  next => split at decided <;> cases decided
  next unwaived =>
    obtain ⟨listed, named⟩ := find_gap found
    obtain rfl := GapUpdateDecision.updated.inj decided
    have unresolved : gap.resolution = none := by simpa using unanswered
    refine ⟨gap, listed, named, by simp [isOpenGap, unresolved, unwaived], ⟨rfl, fun _ => id, ?_⟩,
      rfl⟩
    intro answer given
    rw [unwaived] at given
    cases given

theorem decideGapWaiver_unchanged {request : GapWaiverRequest} {gap : GapRecord}
    (decided : decideGapWaiver request = .unchanged gap) :
    gap ∈ request.gaps ∧ gap.gapId = request.gapId ∧ isOpenGap gap = false := by
  unfold decideGapWaiver at decided
  split at decided
  next => cases decided
  next held found =>
  split at decided
  next => cases decided
  split at decided
  next => cases decided
  simp only at decided
  split at decided
  next answer waived =>
    split at decided
    next =>
      obtain ⟨listed, named⟩ := find_gap found
      obtain rfl := GapUpdateDecision.unchanged.inj decided
      exact ⟨listed, named, by simp [isOpenGap, waived]⟩
    next => cases decided
  next => cases decided

end Answering

end Kratos.Gaps
