/- source: domain/cli/gaps.ts, composition/workflow.ts
   digest: What a gap command writes, and what any run of gap commands keeps. -/

import Kratos.Gaps.Decisions

set_option autoImplicit false

namespace Kratos.Gaps

open Foundation.Text

section Observing

variable {runId : JsString}

/-- A directory that is read is a log: its names are distinct, so its identifiers are. -/
theorem observeGaps_log {localeCompare : JsString → JsString → Int}
    {files : List (JsString × Option GapRecord)} {observed : List GapRecord}
    (names : (files.map Prod.fst).Nodup)
    (read : observeGaps localeCompare runId files = some observed) :
    ∃ log : GapLog runId, observed = sortGaps localeCompare log.records := by
  obtain ⟨records, each, rfl⟩ := Option.map_eq_some_iff.mp read
  have named : files.map Prod.fst = records.map (fun gap => gap.gapId ++ js ".json") ∧
      ∀ gap ∈ records, gap.runId = runId := by
    clear names read
    induction files generalizing records with
    | nil =>
        obtain rfl := Option.some.inj each
        exact ⟨rfl, nofun⟩
    | cons file rest ih =>
        rw [List.mapM_cons] at each
        obtain ⟨gap, first, each⟩ := Option.bind_eq_some_iff.mp each
        obtain ⟨later, all, equal⟩ := Option.bind_eq_some_iff.mp each
        obtain rfl := Option.some.inj equal
        obtain ⟨held, -, kept⟩ := Option.bind_eq_some_iff.mp first
        split at kept
        next agrees =>
          obtain rfl := Option.some.inj kept
          obtain ⟨names, own⟩ := ih _ all
          exact ⟨by rw [List.map_cons, List.map_cons, names, agrees.2],
            List.forall_mem_cons.mpr ⟨agrees.1, own⟩⟩
        next => cases kept
  have distinct : (gapIds records).Nodup := by
    rw [named.1] at names
    refine List.Nodup.of_map (fun gapId => gapId ++ js ".json") ?_
    rwa [gapIds, List.map_map]
  exact ⟨⟨records, distinct, named.2⟩, rfl⟩

end Observing

section Writes

variable {localeCompare : JsString → JsString → Int} {runId : JsString}
  {surroundings : Surroundings} {records gaps : List GapRecord} {command : GapCommand}
  {facts : GateFacts}

/-- What a command would record is on record already. -/
def GapCommand.Reflected (records : List GapRecord) : GapCommand → Prop
  | .record proposal => ∀ proposed ∈ proposal, proposed.gapId ∈ gapIds records
  | .resolve gapId .. => ∃ gap ∈ records, gap.gapId = gapId ∧ gap.resolution.isSome
  | .waive gapId .. => ∃ gap ∈ records, gap.gapId = gapId ∧ isOpenGap gap = false

def GapCommand.proposes : GapCommand → List JsString
  | .record proposal => proposal.map ProposedGap.gapId
  | .resolve .. | .waive .. => []

def GapCommand.answers : GapCommand → List JsString
  | .record _ => []
  | .resolve gapId .. | .waive gapId .. => [gapId]

/-- The files a command writes, and the gaps its facts are derived from. -/
inductive Wrote (runId : JsString) (records : List GapRecord) (command : GapCommand) :
    List GapRecord → List GapRecord → Prop
  | added {gaps : List GapRecord} (answers : command.answers = [])
      (once : (gapIds gaps).Nodup) (own : ∀ gap ∈ gaps, gap.runId = runId)
      (isOpen : ∀ gap ∈ gaps, isOpenGap gap = true)
      (ids : ∀ gapId, gapId ∈ gapIds gaps ↔ gapId ∈ command.proposes ∧ gapId ∉ gapIds records)
      (someNew : gaps ≠ []) : Wrote runId records command gaps (records ++ gaps)
  | answered {gap later : GapRecord} (listed : gap ∈ records)
      (proposes : command.proposes = []) (answers : command.answers = [gap.gapId])
      (continues : Continues gap later) (closed : isOpenGap later = false)
      (before : ¬command.Reflected records) (after : command.Reflected [later]) :
      Wrote runId records command [later] (records.map (replaced later))

theorem decideRecord_write {observed : List GapRecord} {proposal : List ProposedGap}
    (listed : observed.Perm records)
    (decided : decideRecord localeCompare runId surroundings observed proposal =
      .write gaps facts) :
    Wrote runId records (.record proposal) gaps (records ++ gaps) ∧
      facts = factsOf localeCompare runId surroundings (observed ++ gaps) := by
  unfold decideRecord at decided
  split at decided
  next => cases decided
  next => cases decided
  next recorded made =>
    obtain ⟨rfl, rfl⟩ := GapPlan.write.inj decided
    have addition := decideGapRecord_recorded made
    have known (gapId : JsString) : gapId ∈ gapIds observed ↔ gapId ∈ gapIds records :=
      (listed.map _).mem_iff
    refine ⟨.added rfl addition.once ?_ ?_ ?_ addition.someNew, rfl⟩
    · intro gap member
      obtain ⟨proposed, -, -, rfl⟩ := (addition.made gap).mp member
      rfl
    · intro gap member
      obtain ⟨proposed, -, -, rfl⟩ := (addition.made gap).mp member
      rfl
    · intro gapId
      rw [← known]
      constructor
      · intro member
        obtain ⟨gap, recorded, rfl⟩ := List.mem_map.mp member
        obtain ⟨proposed, listed, fresh, rfl⟩ := (addition.made gap).mp recorded
        exact ⟨List.mem_map_of_mem listed, fresh⟩
      · rintro ⟨member, fresh⟩
        obtain ⟨proposed, listed, rfl⟩ := List.mem_map.mp member
        have made := (addition.made _).mpr ⟨proposed, listed, fresh, rfl⟩
        exact List.mem_map.mpr ⟨_, made, rfl⟩

theorem decideUpdate_write {observed : List GapRecord} {update : GapUpdateDecision}
    (decided : decideUpdate localeCompare runId surroundings observed update = .write gaps facts) :
    ∃ later, update = .updated later ∧ gaps = [later] ∧
      facts = factsOf localeCompare runId surroundings (observed.map (replaced later)) := by
  cases update with
  | refused => cases decided
  | unchanged => cases decided
  | updated later =>
      obtain ⟨rfl, rfl⟩ := GapPlan.write.inj decided
      exact ⟨later, rfl, rfl, rfl⟩

theorem planOf_write {observed : List GapRecord} (listed : observed.Perm records)
    (distinct : (gapIds records).Nodup)
    (planned : planOf localeCompare runId surroundings observed command = .write gaps facts) :
    ∃ next derived, Wrote runId records command gaps next ∧ derived.Perm next ∧
      facts = factsOf localeCompare runId surroundings derived := by
  cases command with
  | record proposal =>
      obtain ⟨wrote, rfl⟩ := decideRecord_write listed planned
      exact ⟨_, _, wrote, listed.append_right gaps, rfl⟩
  | resolve gapId decision documentChanged decidedBy observation =>
      obtain ⟨later, updated, rfl, rfl⟩ := decideUpdate_write planned
      obtain ⟨gap, member, rfl, unanswered, continues, answered⟩ :=
        decideGapVerdict_updated updated
      have closed := closed_of_resolution answered
      refine ⟨_, _, .answered (listed.mem_iff.mp member) rfl rfl continues closed ?_ ?_,
        listed.map _, rfl⟩
      · rintro ⟨other, otherListed, same, resolved⟩
        obtain rfl := gap_unique distinct otherListed (listed.mem_iff.mp member) same
        rw [unanswered] at resolved
        cases resolved
      · exact ⟨later, List.mem_singleton_self _, continues.gapId, answered⟩
  | waive gapId acknowledgedBy observation =>
      obtain ⟨later, updated, rfl, rfl⟩ := decideUpdate_write planned
      obtain ⟨gap, member, rfl, isOpen, continues, waived⟩ := decideGapWaiver_updated updated
      have closed := closed_of_waiver waived
      refine ⟨_, _, .answered (listed.mem_iff.mp member) rfl rfl continues closed ?_ ?_,
        listed.map _, rfl⟩
      · rintro ⟨other, otherListed, same, answered⟩
        obtain rfl := gap_unique distinct otherListed (listed.mem_iff.mp member) same
        rw [isOpen] at answered
        cases answered
      · exact ⟨later, List.mem_singleton_self _, continues.gapId, closed⟩

theorem planOf_settled {observed : List GapRecord} (listed : observed.Perm records)
    (planned : planOf localeCompare runId surroundings observed command = .settled) :
    command.Reflected records := by
  cases command with
  | record proposal =>
      simp only [planOf, decideRecord] at planned
      split at planned
      next => cases planned
      next unchanged =>
        intro proposed member
        exact (listed.map _).mem_iff.mp (decideGapRecord_unchanged unchanged proposed member)
      next => cases planned
  | resolve gapId decision documentChanged decidedBy observation =>
      simp only [planOf] at planned
      generalize update : decideGapVerdict _ = decided at planned
      cases decided with
      | refused => cases planned
      | updated => cases planned
      | unchanged gap =>
          obtain ⟨member, named, answered⟩ := decideGapVerdict_unchanged update
          exact ⟨gap, listed.mem_iff.mp member, named, answered⟩
  | waive gapId acknowledgedBy observation =>
      simp only [planOf] at planned
      generalize update : decideGapWaiver _ = decided at planned
      cases decided with
      | refused => cases planned
      | updated => cases planned
      | unchanged gap =>
          obtain ⟨member, named, closed⟩ := decideGapWaiver_unchanged update
          exact ⟨gap, listed.mem_iff.mp member, named, closed⟩

theorem outcome_write (distinct : (gapIds records).Nodup)
    (came : outcome localeCompare runId surroundings records command = .write gaps facts) :
    ∃ next derived, Wrote runId records command gaps next ∧ derived.Perm next ∧
      facts = factsOf localeCompare runId surroundings derived := by
  unfold outcome at came
  split at came
  next => cases came
  split at came
  next planned =>
    split at came
    next =>
      obtain ⟨rfl, rfl⟩ := GapPlan.write.inj came
      exact planOf_write (sortGaps_perm localeCompare records) distinct planned
    next => cases came
    next => cases came
  next noWrite => exact absurd came (noWrite _ _)

theorem outcome_settled
    (came : outcome localeCompare runId surroundings records command = .settled) :
    command.Reflected records := by
  unfold outcome at came
  split at came
  next => cases came
  split at came
  next => split at came <;> cases came
  next => exact planOf_settled (sortGaps_perm localeCompare records) came

end Writes

section Effects

variable {runId : JsString} {records gaps next : List GapRecord} {command : GapCommand}

theorem Wrote.performed (wrote : Wrote runId records command gaps next) :
    gaps.foldl writeGap records = next := by
  cases wrote with
  | added answers once own isOpen ids someNew =>
      refine writeGaps_fresh once fun gap member => ?_
      exact ((ids gap.gapId).mp (List.mem_map_of_mem member)).2
  | answered listed proposes answers continues closed before after =>
      refine writeGap_present ?_
      rw [continues.gapId]
      exact List.mem_map_of_mem listed

theorem Wrote.kept (wrote : Wrote runId records command gaps next)
    (distinct : (gapIds records).Nodup) :
    ∀ gap ∈ records, ∃ later ∈ next, Continues gap later := by
  intro gap member
  cases wrote with
  | added => exact ⟨gap, List.mem_append_left _ member, .refl gap⟩
  | @answered target later listed proposes answers continues =>
      refine ⟨replaced later gap, List.mem_map_of_mem member, ?_⟩
      unfold replaced
      split
      next same =>
        obtain rfl := gap_unique distinct member listed (same.trans continues.gapId)
        exact continues
      next => exact .refl gap

theorem Wrote.mem_gapIds (wrote : Wrote runId records command gaps next) {gapId : JsString} :
    gapId ∈ gapIds next ↔ gapId ∈ gapIds records ∨ gapId ∈ command.proposes := by
  cases wrote with
  | added answers once own isOpen ids someNew =>
      rw [gapIds, List.map_append, List.mem_append, ids]
      tauto
  | @answered target later listed proposes =>
      rw [gapIds, List.map_map, proposes]
      have same : GapRecord.gapId ∘ replaced later = GapRecord.gapId :=
        funext (replaced_gapId later)
      simp [same]

theorem Wrote.distinct (wrote : Wrote runId records command gaps next)
    (distinct : (gapIds records).Nodup) : (gapIds next).Nodup := by
  cases wrote with
  | added answers once own isOpen ids someNew =>
      rw [gapIds, List.map_append]
      refine List.nodup_append.mpr ⟨distinct, once, ?_⟩
      rintro gapId held _ added rfl
      exact ((ids gapId).mp added).2 held
  | @answered target later =>
      have same : GapRecord.gapId ∘ replaced later = GapRecord.gapId :=
        funext (replaced_gapId later)
      rwa [gapIds, List.map_map, same]

theorem Wrote.own (wrote : Wrote runId records command gaps next)
    (own : ∀ gap ∈ records, gap.runId = runId) : ∀ gap ∈ next, gap.runId = runId := by
  intro gap member
  cases wrote with
  | added answers once added =>
      rcases List.mem_append.mp member with held | fresh
      · exact own gap held
      · exact added gap fresh
  | @answered target later listed proposes answers continues =>
      obtain ⟨held, inside, rfl⟩ := List.mem_map.mp member
      unfold replaced
      split
      next => exact continues.runId.trans (own target listed)
      next => exact own held inside

/-- The identifiers on record whose gaps are answered or waived. -/
def ClosedIn (records : List GapRecord) (gapId : JsString) : Prop :=
  ∃ gap ∈ records, gap.gapId = gapId ∧ isOpenGap gap = false

theorem Wrote.closedIn_iff (wrote : Wrote runId records command gaps next)
    (distinct : (gapIds records).Nodup) {gapId : JsString} :
    ClosedIn next gapId ↔ ClosedIn records gapId ∨ gapId ∈ command.answers := by
  constructor
  · rintro ⟨gap, member, named, closed⟩
    cases wrote with
    | added answers once own isOpen =>
        rcases List.mem_append.mp member with held | fresh
        · exact .inl ⟨gap, held, named, closed⟩
        · rw [isOpen gap fresh] at closed
          cases closed
    | @answered target later listed proposes answers continues =>
        obtain ⟨held, inside, rfl⟩ := List.mem_map.mp member
        rw [replaced_gapId] at named
        unfold replaced at closed
        split at closed
        next same =>
          right
          rw [answers, ← named, same, continues.gapId]
          exact List.mem_singleton_self _
        next => exact .inl ⟨held, inside, named, closed⟩
  · rintro (⟨gap, member, rfl, closed⟩ | answered)
    · obtain ⟨later, found, continues⟩ := wrote.kept distinct gap member
      exact ⟨later, found, continues.gapId, continues.closed closed⟩
    · cases wrote with
      | added answers =>
          rw [answers] at answered
          cases answered
      | @answered target later listed proposes answers continues closed =>
          rw [answers] at answered
          obtain rfl := List.mem_singleton.mp answered
          refine ⟨later, List.mem_map.mpr ⟨target, listed, ?_⟩, continues.gapId, closed⟩
          exact if_pos continues.gapId.symm

theorem Wrote.not_reflected (wrote : Wrote runId records command gaps next) :
    ¬command.Reflected records := by
  cases wrote with
  | added answers once own isOpen ids someNew =>
      intro reflected
      obtain ⟨gap, member⟩ := List.exists_mem_of_ne_nil gaps someNew
      obtain ⟨proposed, fresh⟩ := (ids gap.gapId).mp (List.mem_map_of_mem member)
      cases command with
      | record proposal =>
          obtain ⟨other, listed, same⟩ := List.mem_map.mp proposed
          exact fresh (same ▸ reflected other listed)
      | resolve => cases proposed
      | waive => cases proposed
  | answered listed proposes answers continues closed before after => exact before

theorem Wrote.reflected (wrote : Wrote runId records command gaps next) :
    command.Reflected next := by
  cases wrote with
  | added answers once own isOpen ids someNew =>
      cases command with
      | record proposal =>
          intro proposed member
          rw [gapIds, List.map_append, List.mem_append, ids]
          by_cases held : proposed.gapId ∈ gapIds records
          · exact .inl held
          · exact .inr ⟨List.mem_map_of_mem member, held⟩
      | resolve => cases answers
      | waive => cases answers
  | @answered target later listed proposes answers continues closed before after =>
      have inside : later ∈ records.map (replaced later) :=
        List.mem_map.mpr ⟨target, listed, if_pos continues.gapId.symm⟩
      cases command with
      | record proposal => cases answers
      | resolve =>
          obtain ⟨gap, member, named, answered⟩ := after
          exact ⟨gap, List.mem_singleton.mp member ▸ inside, named, answered⟩
      | waive =>
          obtain ⟨gap, member, named, answered⟩ := after
          exact ⟨gap, List.mem_singleton.mp member ▸ inside, named, answered⟩

theorem GapCommand.Reflected.mono (reflected : command.Reflected records)
    (kept : ∀ gap ∈ records, ∃ later ∈ next, Continues gap later) : command.Reflected next := by
  cases command with
  | record proposal =>
      intro proposed member
      obtain ⟨gap, held, named⟩ := List.mem_map.mp (reflected proposed member)
      obtain ⟨later, found, continues⟩ := kept gap held
      exact List.mem_map.mpr ⟨later, found, continues.gapId.trans named⟩
  | resolve =>
      obtain ⟨gap, held, named, answered⟩ := reflected
      obtain ⟨later, found, continues⟩ := kept gap held
      obtain ⟨answer, given⟩ := Option.isSome_iff_exists.mp answered
      exact ⟨later, found, continues.gapId.trans named,
        Option.isSome_of_eq_some (continues.resolution answer given)⟩
  | waive =>
      obtain ⟨gap, held, named, closed⟩ := reflected
      obtain ⟨later, found, continues⟩ := kept gap held
      exact ⟨later, found, continues.gapId.trans named, continues.closed closed⟩

end Effects

end Kratos.Gaps
