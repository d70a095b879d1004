/- source: domain/acceptance-criteria/policy.ts
   digest: Reported verdicts bound to the declared criteria, and exactly which of them are accepted. -/

import Kratos.Acceptance.Snapshot
import Kratos.Foundation.Runs

set_option autoImplicit false

namespace Kratos.Acceptance

open Foundation.Text Foundation.Collections
open Foundation.Runs (guard_ok_iff bind_ok_iff mapM_ok_iff mapM_ok_exists forall₂_mem)

section Model

structure ReportedCriterion where
  criterionId : JsString
  outcome : AcceptanceCriterionOutcome
  evidenceRef : JsString
deriving DecidableEq, Repr

/-- What a verdict reads of `EvidenceV1`. -/
structure EvidenceV1 where
  evidenceId : JsString
  ref : JsString
  sha256 : JsString
deriving DecidableEq, Repr

structure BoundCriterionVerdict where
  criterionId : JsString
  outcome : AcceptanceCriterionOutcome
  evidenceId : JsString
  evidenceRef : JsString
  evidenceDigest : JsString
deriving DecidableEq, Repr

inductive GlobalVerdict
  | accepted | rejected
deriving DecidableEq, Repr

/-- The reason code of a refusal and the criterion it names. -/
structure VerdictRefusal where
  reasonCode : String
  criterionId : JsString
deriving DecidableEq, Repr

inductive AcceptanceVerdictDecision
  | refused (refusal : VerdictRefusal)
  | accepted (criteria : List BoundCriterionVerdict) (checkboxOutcomes : Outcomes)
deriving DecidableEq, Repr

def collectReports (declared : List JsString) (reports : List (JsString × ReportedCriterion)) :
    List ReportedCriterion → Except VerdictRefusal (List (JsString × ReportedCriterion))
  | [] => .ok reports
  | report :: rest =>
      if report.criterionId ∉ declared ∨ (mapGet reports report.criterionId).isSome = true then
        .error ⟨"gate.ac_verdict_mismatch", report.criterionId⟩
      else collectReports declared (reports ++ [(report.criterionId, report)]) rest

/-- `new Map(evidence.map((item) => [item.ref, item]))`. -/
def evidenceByRef (evidence : List EvidenceV1) : List (JsString × EvidenceV1) :=
  evidence.map fun item => (item.ref, item)

def bindEvidence (report : ReportedCriterion) (evidence : EvidenceV1) : BoundCriterionVerdict where
  criterionId := report.criterionId
  outcome := report.outcome
  evidenceId := evidence.evidenceId
  evidenceRef := evidence.ref
  evidenceDigest := evidence.sha256

/-- One turn of the loop over the declarations. -/
def bindCriterion (reports : List (JsString × ReportedCriterion)) (evidence : List EvidenceV1)
    (invalidEvidenceIds : List JsString) (declaration : CurrentCriterion) :
    Except VerdictRefusal BoundCriterionVerdict :=
  match mapGet reports declaration.criterionId with
  | none => .error ⟨"gate.ac_verdict_mismatch", declaration.criterionId⟩
  | some report =>
  match mapGet (evidenceByRef evidence) report.evidenceRef with
  | none => .error ⟨"gate.ac_evidence_missing", declaration.criterionId⟩
  | some item =>
      if item.evidenceId ∈ invalidEvidenceIds then
        .error ⟨"gate.ac_evidence_invalid", declaration.criterionId⟩
      else .ok { bindEvidence report item with criterionId := declaration.criterionId }

/-- The criterion that a wrong global verdict is refused under. -/
def mismatched (bound : List BoundCriterionVerdict) : JsString :=
  match bound.find? fun criterion => decide (criterion.outcome ≠ .passed) with
  | some criterion => criterion.criterionId
  | none => (bound.head?.map (·.criterionId)).getD (js "AC-0.0.0")

def bindVerdict (declarations : List CurrentCriterion) (globalVerdict : GlobalVerdict)
    (criteria : List ReportedCriterion) (evidence : List EvidenceV1)
    (invalidEvidenceIds : List JsString) :
    Except VerdictRefusal (List BoundCriterionVerdict) := do
  let reports ← collectReports (declarations.map (·.criterionId)) [] criteria
  let bound ← declarations.mapM (bindCriterion reports evidence invalidEvidenceIds)
  let allPassed := bound.all fun criterion => decide (criterion.outcome = .passed)
  if decide (globalVerdict = .accepted) ≠ allPassed then
    .error ⟨"gate.ac_verdict_mismatch", mismatched bound⟩
  else .ok bound

def decideAcceptanceVerdict (declarations : List CurrentCriterion) (globalVerdict : GlobalVerdict)
    (criteria : List ReportedCriterion) (evidence : List EvidenceV1)
    (invalidEvidenceIds : List JsString) : AcceptanceVerdictDecision :=
  match bindVerdict declarations globalVerdict criteria evidence invalidEvidenceIds with
  | .error refusal => .refused refusal
  | .ok bound => .accepted bound (bound.map fun criterion => (criterion.criterionId, criterion.outcome))

def AcceptanceVerdictDecision.isAccepted : AcceptanceVerdictDecision → Bool
  | .accepted _ _ => true
  | .refused _ => false

end Model

section Specification

variable (declarations : List CurrentCriterion) (globalVerdict : GlobalVerdict)
  (criteria : List ReportedCriterion) (evidence : List EvidenceV1)
  (invalidEvidenceIds : List JsString)

/-- Every declared identifier is reported once, and nothing else is reported. -/
structure ReportsEach : Prop where
  once : (criteria.map (·.criterionId)).Nodup
  same : ∀ criterionId, criterionId ∈ criteria.map (·.criterionId) ↔
    criterionId ∈ declarations.map (·.criterionId)

/-- The record its reference finds has not been found invalid. -/
def CarriesEvidence (report : ReportedCriterion) : Prop :=
  ∃ item, mapGet (evidenceByRef evidence) report.evidenceRef = some item ∧
    item.evidenceId ∉ invalidEvidenceIds

def AllPassed : Prop := ∀ report ∈ criteria, report.outcome = .passed

/-- What an accepted verdict is. -/
structure Justified : Prop where
  reported : ReportsEach declarations criteria
  supported : ∀ report ∈ criteria, CarriesEvidence evidence invalidEvidenceIds report
  agreed : globalVerdict = .accepted ↔ AllPassed criteria

end Specification

section Reports

variable {declared : List JsString} {criteria : List ReportedCriterion}
  {reports found : List (JsString × ReportedCriterion)}

def reportEntry (report : ReportedCriterion) : JsString × ReportedCriterion :=
  (report.criterionId, report)

private theorem reportEntry_ids (criteria : List ReportedCriterion) :
    (criteria.map reportEntry).map Prod.fst = criteria.map (·.criterionId) := by
  rw [List.map_map]
  rfl

private theorem collectReports_ok_iff :
    collectReports declared reports criteria = .ok found ↔
      (∀ report ∈ criteria, report.criterionId ∈ declared) ∧
      (∀ report ∈ criteria, report.criterionId ∉ reports.map Prod.fst) ∧
      (criteria.map (·.criterionId)).Nodup ∧ found = reports ++ criteria.map reportEntry := by
  induction criteria generalizing reports with
  | nil =>
      rw [collectReports, List.map_nil, List.map_nil, List.append_nil]
      constructor
      · intro same
        exact ⟨nofun, nofun, List.nodup_nil, (Except.ok.inj same).symm⟩
      · rintro ⟨-, -, -, same⟩
        rw [same]
  | cons report rest ih =>
      rw [collectReports, guard_ok_iff, ih, not_or, not_not, Bool.not_eq_true,
        Option.isSome_eq_false_iff, Option.isNone_iff_eq_none, mapGet_eq_none_iff,
        List.forall_mem_cons, List.forall_mem_cons, List.map_cons, List.map_cons, List.nodup_cons,
        List.append_assoc]
      have ids : (reports ++ [(report.criterionId, report)]).map Prod.fst =
          reports.map Prod.fst ++ [report.criterionId] := by
        rw [List.map_append]
        rfl
      have entry : [(report.criterionId, report)] ++ rest.map reportEntry =
          reportEntry report :: rest.map reportEntry := rfl
      rw [ids, entry]
      constructor
      · rintro ⟨⟨known, fresh⟩, knownLater, freshLater, distinct, same⟩
        refine ⟨⟨known, knownLater⟩, ⟨fresh, ?_⟩, ⟨?_, distinct⟩, same⟩
        · intro other member inside
          exact freshLater other member (List.mem_append_left _ inside)
        · intro inside
          obtain ⟨other, member, equal⟩ := List.mem_map.mp inside
          refine freshLater other member (List.mem_append_right _ ?_)
          rw [equal]
          exact List.mem_singleton_self _
      · rintro ⟨⟨known, knownLater⟩, ⟨fresh, freshLater⟩, ⟨apart, distinct⟩, same⟩
        refine ⟨⟨known, fresh⟩, knownLater, ?_, distinct, same⟩
        intro other member inside
        rcases List.mem_append.mp inside with earlier | here
        · exact freshLater other member earlier
        · refine apart ?_
          rw [← List.mem_singleton.mp here]
          exact List.mem_map_of_mem member

end Reports

section Binding

variable {criteria : List ReportedCriterion} {evidence : List EvidenceV1}
  {invalidEvidenceIds : List JsString} {declarations : List CurrentCriterion}

/-- The verdict a declared criterion is bound to: its report and the record the report names. -/
def BoundTo (criteria : List ReportedCriterion) (evidence : List EvidenceV1)
    (invalidEvidenceIds : List JsString) (declaration : CurrentCriterion)
    (verdict : BoundCriterionVerdict) : Prop :=
  ∃ report ∈ criteria, report.criterionId = declaration.criterionId ∧
    ∃ item, mapGet (evidenceByRef evidence) report.evidenceRef = some item ∧
      item.evidenceId ∉ invalidEvidenceIds ∧ verdict = bindEvidence report item

private theorem bindCriterion_ok_iff (once : (criteria.map (·.criterionId)).Nodup)
    {declaration : CurrentCriterion} {verdict : BoundCriterionVerdict} :
    bindCriterion (criteria.map reportEntry) evidence invalidEvidenceIds declaration = .ok verdict ↔
      BoundTo criteria evidence invalidEvidenceIds declaration verdict := by
  have keys : ((criteria.map reportEntry).map Prod.fst).Nodup := by
    rw [reportEntry_ids]
    exact once
  constructor
  · intro bound
    unfold bindCriterion at bound
    split at bound
    · cases bound
    · next report found =>
        obtain ⟨source, member, same⟩ := List.mem_map.mp (mapGet_mem found)
        have named : source.criterionId = declaration.criterionId := congrArg Prod.fst same
        obtain rfl : source = report := congrArg Prod.snd same
        split at bound
        · cases bound
        · next item cited =>
            obtain ⟨valid, same⟩ := guard_ok_iff.mp bound
            refine ⟨source, member, named, item, cited, valid, ?_⟩
            rw [← Except.ok.inj same, ← named]
            rfl
  · rintro ⟨report, member, named, item, cited, valid, rfl⟩
    have entry : (declaration.criterionId, report) ∈ criteria.map reportEntry := by
      rw [← named]
      exact List.mem_map_of_mem (f := reportEntry) member
    unfold bindCriterion
    rw [mapGet_of_mem keys entry]
    simp only [cited]
    rw [if_neg valid, ← named]
    rfl

variable {bound : List BoundCriterionVerdict}

private theorem report_of_id (once : (criteria.map (·.criterionId)).Nodup)
    {left right : ReportedCriterion} (first : left ∈ criteria) (second : right ∈ criteria)
    (same : left.criterionId = right.criterionId) : left = right :=
  List.inj_on_of_nodup_map once first second same

private theorem outcomes_bound (each : ReportsEach declarations criteria)
    (reached : ∀ declaration ∈ declarations, ∃ verdict ∈ bound,
      BoundTo criteria evidence invalidEvidenceIds declaration verdict)
    (sourced : ∀ verdict ∈ bound, ∃ declaration ∈ declarations,
      BoundTo criteria evidence invalidEvidenceIds declaration verdict) :
    (bound.all fun criterion => decide (criterion.outcome = .passed)) = true ↔
      AllPassed criteria := by
  simp only [List.all_eq_true, decide_eq_true_eq]
  constructor
  · intro passed report member
    obtain ⟨declaration, inside, named⟩ :=
      List.mem_map.mp ((each.same _).mp (List.mem_map_of_mem member))
    obtain ⟨verdict, held, other, otherMember, same, item, -, -, rfl⟩ := reached declaration inside
    have equal := report_of_id each.once otherMember member (same.trans named)
    rw [← equal]
    exact passed _ held
  · intro passed verdict held
    obtain ⟨-, -, report, member, -, item, -, -, rfl⟩ := sourced verdict held
    exact passed report member

private theorem bindAll_ok_iff (once : (criteria.map (·.criterionId)).Nodup) :
    declarations.mapM (bindCriterion (criteria.map reportEntry) evidence invalidEvidenceIds) =
        .ok bound ↔
      List.Forall₂ (BoundTo criteria evidence invalidEvidenceIds) declarations bound := by
  rw [mapM_ok_iff]
  constructor
  · intro all
    exact all.imp fun _ _ => (bindCriterion_ok_iff once).mp
  · intro all
    exact all.imp fun _ _ => (bindCriterion_ok_iff once).mpr

private theorem bindVerdict_ok_iff {globalVerdict : GlobalVerdict} :
    bindVerdict declarations globalVerdict criteria evidence invalidEvidenceIds = .ok bound ↔
      (criteria.map (·.criterionId)).Nodup ∧
      (∀ report ∈ criteria, report.criterionId ∈ declarations.map (·.criterionId)) ∧
      List.Forall₂ (BoundTo criteria evidence invalidEvidenceIds) declarations bound ∧
      decide (globalVerdict = .accepted) =
        bound.all fun criterion => decide (criterion.outcome = .passed) := by
  unfold bindVerdict
  rw [bind_ok_iff]
  constructor
  · rintro ⟨reports, collected, rest⟩
    obtain ⟨known, -, once, rfl⟩ := collectReports_ok_iff.mp collected
    obtain ⟨all, bindings, ended⟩ := bind_ok_iff.mp rest
    obtain ⟨agreed, same⟩ := guard_ok_iff.mp ended
    obtain rfl := Except.ok.inj same
    exact ⟨once, known, (bindAll_ok_iff once).mp bindings, not_not.mp agreed⟩
  · rintro ⟨once, known, bindings, agreed⟩
    refine ⟨criteria.map reportEntry, collectReports_ok_iff.mpr ⟨known, fun _ _ => nofun, once, rfl⟩,
      bind_ok_iff.mpr ⟨bound, (bindAll_ok_iff once).mpr bindings, ?_⟩⟩
    exact guard_ok_iff.mpr ⟨not_not.mpr agreed, rfl⟩

private theorem bindings_exist (each : ReportsEach declarations criteria)
    (supported : ∀ report ∈ criteria, CarriesEvidence evidence invalidEvidenceIds report) :
    ∃ bound, List.Forall₂ (BoundTo criteria evidence invalidEvidenceIds) declarations bound := by
  have binds : ∀ declaration ∈ declarations, ∃ verdict,
      bindCriterion (criteria.map reportEntry) evidence invalidEvidenceIds declaration =
        .ok verdict := by
    intro declaration inside
    obtain ⟨report, member, named⟩ :=
      List.mem_map.mp ((each.same _).mpr (List.mem_map_of_mem inside))
    obtain ⟨item, cited, valid⟩ := supported report member
    exact ⟨bindEvidence report item,
      (bindCriterion_ok_iff each.once).mpr ⟨report, member, named, item, cited, valid, rfl⟩⟩
  obtain ⟨bound, all⟩ := mapM_ok_exists binds
  exact ⟨bound, (bindAll_ok_iff each.once).mp all⟩

private theorem justified_of_bindings (once : (criteria.map (·.criterionId)).Nodup)
    (known : ∀ report ∈ criteria, report.criterionId ∈ declarations.map (·.criterionId))
    (reached : ∀ declaration ∈ declarations, ∃ verdict ∈ bound,
      BoundTo criteria evidence invalidEvidenceIds declaration verdict) :
    ReportsEach declarations criteria ∧
      ∀ report ∈ criteria, CarriesEvidence evidence invalidEvidenceIds report := by
  refine ⟨⟨once, ?_⟩, ?_⟩
  · intro criterionId
    constructor
    · intro inside
      obtain ⟨report, member, rfl⟩ := List.mem_map.mp inside
      exact known report member
    · intro inside
      obtain ⟨declaration, member, rfl⟩ := List.mem_map.mp inside
      obtain ⟨-, -, report, reported, named, -⟩ := reached declaration member
      rw [← named]
      exact List.mem_map_of_mem reported
  · intro report member
    obtain ⟨declaration, inside, named⟩ := List.mem_map.mp (known report member)
    obtain ⟨-, -, other, reported, same, item, cited, valid, -⟩ := reached declaration inside
    obtain rfl := report_of_id once reported member (same.trans named)
    exact ⟨item, cited, valid⟩

private theorem verdict_agrees {globalVerdict : GlobalVerdict} {allPassed : Bool}
    (exact_ : allPassed = true ↔ AllPassed criteria) :
    decide (globalVerdict = .accepted) = allPassed ↔
      (globalVerdict = .accepted ↔ AllPassed criteria) := by
  rw [Bool.eq_iff_iff, decide_eq_true_iff, exact_]

theorem decideAcceptanceVerdict_accepted_iff {globalVerdict : GlobalVerdict} :
    (decideAcceptanceVerdict declarations globalVerdict criteria evidence
        invalidEvidenceIds).isAccepted = true ↔
      Justified declarations globalVerdict criteria evidence invalidEvidenceIds := by
  have binds : (decideAcceptanceVerdict declarations globalVerdict criteria evidence
      invalidEvidenceIds).isAccepted = true ↔
      ∃ bound, bindVerdict declarations globalVerdict criteria evidence invalidEvidenceIds =
        .ok bound := by
    unfold decideAcceptanceVerdict
    cases bindVerdict declarations globalVerdict criteria evidence invalidEvidenceIds with
    | error refusal => exact ⟨nofun, nofun⟩
    | ok bound => exact ⟨fun _ => ⟨bound, rfl⟩, fun _ => rfl⟩
  rw [binds]
  constructor
  · rintro ⟨bound, accepted⟩
    obtain ⟨once, known, all, agreed⟩ := bindVerdict_ok_iff.mp accepted
    obtain ⟨reached, sourced⟩ := forall₂_mem all
    obtain ⟨each, supported⟩ := justified_of_bindings once known reached
    exact ⟨each, supported, (verdict_agrees (outcomes_bound each reached sourced)).mp agreed⟩
  · intro justified
    obtain ⟨each, supported, agreed⟩ := justified
    obtain ⟨bound, all⟩ := bindings_exist each supported
    obtain ⟨reached, sourced⟩ := forall₂_mem all
    refine ⟨bound, bindVerdict_ok_iff.mpr ⟨each.once, ?_, all, ?_⟩⟩
    · intro report member
      exact (each.same _).mp (List.mem_map_of_mem member)
    · exact (verdict_agrees (outcomes_bound each reached sourced)).mpr agreed

/-- An accepted verdict binds every declared criterion, in its order, to its report and evidence,
and asks for the boxes that the bound outcomes call for. -/
theorem decideAcceptanceVerdict_binds {globalVerdict : GlobalVerdict} {outcomes : Outcomes}
    (accepted : decideAcceptanceVerdict declarations globalVerdict criteria evidence
      invalidEvidenceIds = .accepted bound outcomes) :
    List.Forall₂ (BoundTo criteria evidence invalidEvidenceIds) declarations bound ∧
      outcomes = bound.map fun criterion => (criterion.criterionId, criterion.outcome) := by
  unfold decideAcceptanceVerdict at accepted
  cases verdict : bindVerdict declarations globalVerdict criteria evidence invalidEvidenceIds with
  | error refusal =>
      rw [verdict] at accepted
      cases accepted
  | ok found =>
      rw [verdict] at accepted
      injection accepted with same boxes
      subst same
      exact ⟨(bindVerdict_ok_iff.mp verdict).2.2.1, boxes.symm⟩

end Binding

section Comparison

variable {phase : AcceptancePhase} {frozen : List FrozenCriterion}
  {current : List CurrentCriterion} {latestOutcomes : Outcomes}

/-- Every box shows what the latest outcome of its criterion calls for. -/
def BoxesRecorded (latestOutcomes : Outcomes) (current : List CurrentCriterion) : Prop :=
  ∀ criterion ∈ current, criterion.checked = expectedBox latestOutcomes criterion.criterionId

def declared (current : List CurrentCriterion) : List FrozenCriterion :=
  current.map (·.toFrozenCriterion)

private theorem firstChanged_none_iff :
    firstChanged frozen current = none ∧ frozen.drop current.length = [] ↔
      frozen <+: declared current := by
  induction frozen generalizing current with
  | nil =>
      have empty : firstChanged [] current = none := by
        unfold firstChanged
        rfl
      exact ⟨fun _ => List.nil_prefix, fun _ => ⟨empty, List.drop_nil⟩⟩
  | cons first later ih =>
      cases current with
      | nil =>
          rw [List.length_nil, List.drop_zero]
          constructor
          · intro removed
            exact absurd removed.2 (List.cons_ne_nil first later)
          · intro short
            exact absurd (List.prefix_nil.mp short) (List.cons_ne_nil first later)
      | cons criterion rest =>
          have head : declared (criterion :: rest) =
              criterion.toFrozenCriterion :: declared rest := rfl
          rw [firstChanged, head, List.cons_prefix_cons, ← ih, List.length_cons,
            List.drop_succ_cons]
          by_cases same : first = criterion.toFrozenCriterion
          · have kept : sameDeclaration first criterion.toFrozenCriterion = true := decide_eq_true same
            rw [if_pos kept]
            exact ⟨fun both => ⟨same, both⟩, fun all => all.2⟩
          · have changed : sameDeclaration first criterion.toFrozenCriterion = false :=
              decide_eq_false same
            rw [if_neg (Bool.eq_false_iff.mp changed)]
            constructor
            · intro both
              cases both.1
            · intro all
              exact absurd all.1 same

private theorem boxes_recorded_iff :
    (current.find? fun criterion =>
        criterion.checked != expectedBox latestOutcomes criterion.criterionId) = none ↔
      BoxesRecorded latestOutcomes current := by
  rw [List.find?_eq_none]
  constructor
  · intro shown criterion member
    exact bne_eq_false_iff_eq.mp ((Bool.not_eq_true _).mp (shown criterion member))
  · intro recorded criterion member
    rw [recorded criterion member, bne_self_eq_false]
    exact Bool.false_ne_true

theorem compare_iff {decision : CriteriaChangeDecision} (passed : decision.isRefused = false) :
    compareCriteriaSnapshot phase frozen current latestOutcomes = decision ↔
      frozen <+: declared current ∧ BoxesRecorded latestOutcomes current ∧
        appendDecision phase (current.drop frozen.length) = decision := by
  rw [← firstChanged_none_iff, ← boxes_recorded_iff]
  constructor
  · rintro rfl
    obtain ⟨same, long, shown⟩ := compare_admitted passed
    exact ⟨⟨same, long⟩, shown, (compare_eq same long shown).symm⟩
  · rintro ⟨⟨same, long⟩, shown, rfl⟩
    exact compare_eq same long shown

theorem compare_append_iff {appendedIds : List JsString} :
    compareCriteriaSnapshot phase frozen current latestOutcomes = .append appendedIds ↔
      phase = .acceptance ∧ frozen <+: declared current ∧ frozen ≠ declared current ∧
        BoxesRecorded latestOutcomes current ∧
        appendedIds = (current.drop frozen.length).map (·.criterionId) := by
  rw [compare_iff rfl]
  constructor
  · rintro ⟨kept, recorded, added⟩
    cases rest : current.drop frozen.length with
    | nil =>
        rw [rest] at added
        cases added
    | cons first later =>
        rw [rest, appendDecision] at added
        split at added
        · next allowed =>
            injection added with ids
            refine ⟨allowed, kept, ?_, recorded, ids.symm⟩
            intro same
            have length := congrArg List.length rest
            rw [same, declared, List.length_drop, List.length_map, List.length_cons] at length
            omega
        · cases added
  · rintro ⟨rfl, kept, longer, recorded, rfl⟩
    refine ⟨kept, recorded, ?_⟩
    cases rest : current.drop frozen.length with
    | nil =>
        refine absurd (kept.eq_of_length_le ?_) longer
        rw [declared, List.length_map]
        exact List.drop_eq_nil_iff.mp rest
    | cons first later => rfl

theorem compare_unchanged_iff :
    compareCriteriaSnapshot phase frozen current latestOutcomes = .unchanged ↔
      frozen = declared current ∧ BoxesRecorded latestOutcomes current := by
  rw [compare_iff rfl]
  constructor
  · rintro ⟨kept, recorded, added⟩
    refine ⟨kept.eq_of_length_le ?_, recorded⟩
    rw [declared, List.length_map]
    cases rest : current.drop frozen.length with
    | nil => exact List.drop_eq_nil_iff.mp rest
    | cons first later =>
        rw [rest, appendDecision] at added
        split at added
        · cases added
        · cases added
  · rintro ⟨rfl, recorded⟩
    refine ⟨List.prefix_rfl, recorded, ?_⟩
    have whole : current.drop (declared current).length = [] := by
      rw [declared, List.length_map, List.drop_length]
    rw [whole]
    rfl

end Comparison

section Exactness

/-- The verdict and the comparison of the criteria decided from their inputs alone. -/
structure JudgedExactly (sha256 : JsString → JsString) : Prop where
  verdict : ∀ (declarations : List CurrentCriterion) (globalVerdict : GlobalVerdict)
    (criteria : List ReportedCriterion) (evidence : List EvidenceV1)
    (invalidEvidenceIds : List JsString),
    (decideAcceptanceVerdict declarations globalVerdict criteria evidence
        invalidEvidenceIds).isAccepted = true ↔
      Justified declarations globalVerdict criteria evidence invalidEvidenceIds
  /-- For a task document the reports of an accepted verdict are its criteria in some order. -/
  reports : ∀ (document : Option JsString) (declarations : List AcceptanceCriterionDeclaration)
    (criteria : List ReportedCriterion), inspectTaskDocument document = .valid declarations →
    (ReportsEach (declarations.map (currentCriterion sha256)) criteria ↔
      (criteria.map (·.criterionId)).Perm (declarations.map (·.criterionId)))
  append : ∀ (phase : AcceptancePhase) (frozen : List FrozenCriterion)
    (current : List CurrentCriterion) (latestOutcomes : Outcomes) (appendedIds : List JsString),
    compareCriteriaSnapshot phase frozen current latestOutcomes = .append appendedIds ↔
      phase = .acceptance ∧ frozen <+: declared current ∧ frozen ≠ declared current ∧
        BoxesRecorded latestOutcomes current ∧
        appendedIds = (current.drop frozen.length).map (·.criterionId)
  unchanged : ∀ (phase : AcceptancePhase) (frozen : List FrozenCriterion)
    (current : List CurrentCriterion) (latestOutcomes : Outcomes),
    compareCriteriaSnapshot phase frozen current latestOutcomes = .unchanged ↔
      frozen = declared current ∧ BoxesRecorded latestOutcomes current

private theorem reports_perm_iff {sha256 : JsString → JsString} {document : Option JsString}
    {declarations : List AcceptanceCriterionDeclaration} {criteria : List ReportedCriterion}
    (accepted : inspectTaskDocument document = .valid declarations) :
    ReportsEach (declarations.map (currentCriterion sha256)) criteria ↔
      (criteria.map (·.criterionId)).Perm (declarations.map (·.criterionId)) := by
  have distinct := (inspectTaskDocument_apart accepted).1.distinct
  have ids : (declarations.map (currentCriterion sha256)).map (·.criterionId) =
      declarations.map (·.criterionId) := by
    rw [List.map_map]
    rfl
  constructor
  · rintro ⟨once, same⟩
    rw [ids] at same
    exact (List.perm_ext_iff_of_nodup once distinct).mpr same
  · intro reordered
    refine ⟨reordered.nodup_iff.mpr distinct, ?_⟩
    intro criterionId
    rw [ids]
    exact reordered.mem_iff

theorem acceptance_judged_exactly (sha256 : JsString → JsString) : JudgedExactly sha256 where
  verdict _ _ _ _ _ := decideAcceptanceVerdict_accepted_iff
  reports _ _ _ accepted := reports_perm_iff accepted
  append _ _ _ _ _ := compare_append_iff
  unchanged _ _ _ _ := compare_unchanged_iff

/-- A criterion whose box was ticked without an outcome. -/
def tickedEarly : CurrentCriterion where
  criterionId := js "AC-1.1.1"
  workUnit := js "1"
  task := js "1.1"
  kind := .main
  ordinal := 0
  declarationDigest := js "d"
  checked := true

/-- Equal declarations are refused when a box does not show the latest outcome. -/
theorem equal_declarations_refused :
    [tickedEarly.toFrozenCriterion] = declared [tickedEarly] ∧
      compareCriteriaSnapshot .acceptance [tickedEarly.toFrozenCriterion] [tickedEarly] [] =
        .refused "gate.ac_checkbox_forbidden" (js "AC-1.1.1") := by
  decide

end Exactness

end Kratos.Acceptance
