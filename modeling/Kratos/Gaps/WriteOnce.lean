/- source: domain/gaps/record.ts, domain/gaps/derive.ts, domain/cli/gaps.ts
   digest: Gap decisions are written once, and the gates count every open gap once. -/

import Kratos.Gaps.Steps
import Mathlib.Data.Set.Card

set_option autoImplicit false

namespace Kratos.Gaps

open Foundation.Text

section Counting

variable {localeCompare : JsString → JsString → Int} {records : List GapRecord}

/-- The identifiers on record whose gaps are open. -/
def OpenIn (records : List GapRecord) (gapId : JsString) : Prop :=
  ∃ gap ∈ records, gap.gapId = gapId ∧ isOpenGap gap = true

theorem openIn_iff (distinct : (gapIds records).Nodup) {gapId : JsString} :
    OpenIn records gapId ↔ gapId ∈ gapIds records ∧ ¬ClosedIn records gapId := by
  constructor
  · rintro ⟨gap, listed, rfl, isOpen⟩
    refine ⟨List.mem_map_of_mem listed, ?_⟩
    rintro ⟨other, otherListed, same, closed⟩
    obtain rfl := gap_unique distinct otherListed listed same
    rw [isOpen] at closed
    cases closed
  · rintro ⟨member, notClosed⟩
    obtain ⟨gap, listed, rfl⟩ := List.mem_map.mp member
    refine ⟨gap, listed, rfl, ?_⟩
    by_contra closed
    exact notClosed ⟨gap, listed, rfl, Bool.eq_false_of_not_eq_true closed⟩

/-- Before approval the gates are given each open gap of the run once, in whatever order the
records are listed. -/
theorem openGaps_eq {request : GateFactsRequest} (boundary : request.boundary = .preApproval)
    (listed : request.gaps.Perm records) (distinct : (gapIds records).Nodup)
    (own : ∀ gap ∈ records, gap.runId = request.runId) :
    (deriveGateFacts localeCompare request).openGaps =
      Set.ncard {gapId | OpenIn records gapId} := by
  set shown := (request.gaps.filter fun gap => gap.runId == request.runId && isOpenGap gap).map
    GapRecord.gapId with def_shown
  have count : (deriveGateFacts localeCompare request).openGaps = shown.length := by
    simp only [deriveGateFacts, openGapIds, boundary, List.length_mergeSort, def_shown]
  have once : shown.Nodup := by
    have all : (gapIds request.gaps).Nodup := (listed.map _).nodup_iff.mpr distinct
    exact (List.filter_sublist.map GapRecord.gapId).nodup all
  have same : {gapId | OpenIn records gapId} = (shown.toFinset : Set JsString) := by
    ext gapId
    simp only [Set.mem_ofPred_eq, OpenIn, List.coe_toFinset, def_shown, List.mem_map, List.mem_filter,
      Bool.and_eq_true, beq_iff_eq, listed.mem_iff]
    constructor
    · rintro ⟨gap, member, named, isOpen⟩
      exact ⟨gap, ⟨member, own gap member, isOpen⟩, named⟩
    · rintro ⟨gap, ⟨member, -, isOpen⟩, named⟩
      exact ⟨gap, member, named, isOpen⟩
  rw [count, same, Set.ncard_coe_finset, List.toFinset_card_of_nodup once]

end Counting

section Steps

variable {localeCompare : JsString → JsString → Int} {runId : JsString}

theorem performed_cases (surroundings : Surroundings) (log : GapLog runId) (command : GapCommand) :
    performed log.records (outcome localeCompare runId surroundings log.records command) =
        log.records ∨
      ∃ gaps, Wrote runId log.records command gaps
        (performed log.records (outcome localeCompare runId surroundings log.records command)) := by
  cases came : outcome localeCompare runId surroundings log.records command with
  | refused => exact .inl rfl
  | settled => exact .inl rfl
  | reflected => exact .inl rfl
  | write gaps facts =>
      obtain ⟨next, derived, wrote, -, -⟩ := outcome_write log.distinct came
      refine .inr ⟨gaps, ?_⟩
      rwa [performed, wrote.performed]

def after (localeCompare : JsString → JsString → Int) (surroundings : Surroundings)
    (log : GapLog runId) (command : GapCommand) : GapLog runId where
  records := performed log.records
    (outcome localeCompare runId surroundings log.records command)
  distinct := by
    rcases performed_cases surroundings log command with same | ⟨gaps, wrote⟩
    · rw [same]
      exact log.distinct
    · exact wrote.distinct log.distinct
  own := by
    rcases performed_cases surroundings log command with same | ⟨gaps, wrote⟩
    · rw [same]
      exact log.own
    · exact wrote.own log.own

@[simp] theorem after_records (surroundings : Surroundings) (log : GapLog runId)
    (command : GapCommand) : (after localeCompare surroundings log command).records =
      performed log.records (outcome localeCompare runId surroundings log.records command) := rfl

theorem after_write {surroundings : Surroundings} {log : GapLog runId} {command : GapCommand}
    {gaps : List GapRecord} {facts : GateFacts}
    (came : outcome localeCompare runId surroundings log.records command = .write gaps facts) :
    ∃ derived, Wrote runId log.records command gaps
        (after localeCompare surroundings log command).records ∧
      derived.Perm (after localeCompare surroundings log command).records ∧
      facts = factsOf localeCompare runId surroundings derived := by
  obtain ⟨next, derived, wrote, listed, same⟩ := outcome_write log.distinct came
  have written : (after localeCompare surroundings log command).records = next := by
    rw [after_records, came, performed, wrote.performed]
  exact ⟨derived, written ▸ wrote, written ▸ listed, same⟩

theorem after_kept {surroundings : Surroundings} {log : GapLog runId} {command : GapCommand} :
    ∀ gap ∈ log.records, ∃ later ∈ (after localeCompare surroundings log command).records,
      Continues gap later := by
  rcases performed_cases surroundings log command with same | ⟨gaps, wrote⟩
  · intro gap member
    exact ⟨gap, by rwa [after_records, same], .refl gap⟩
  · exact wrote.kept log.distinct

/-- A command whose record is there already writes nothing, whatever it observes besides. -/
theorem after_reflected {surroundings : Surroundings} {log : GapLog runId} {command : GapCommand}
    (reflected : command.Reflected log.records) :
    (after localeCompare surroundings log command).records = log.records := by
  rcases performed_cases surroundings log command with same | ⟨gaps, wrote⟩
  · exact same
  · exact absurd reflected wrote.not_reflected

/-- A command is accepted that has nothing to do or is carried out. -/
def Accepted (localeCompare : JsString → JsString → Int) (surroundings : Surroundings)
    (log : GapLog runId) (command : GapCommand) : Prop :=
  outcome localeCompare runId surroundings log.records command = .settled ∨
    ∃ gaps facts, outcome localeCompare runId surroundings log.records command = .write gaps facts

/-- What an accepted command does: its record is there, and no more than it. -/
structure Settles (command : GapCommand) (records next : List GapRecord) : Prop where
  reflected : command.Reflected next
  ids : ∀ gapId, gapId ∈ gapIds next ↔ gapId ∈ gapIds records ∨ gapId ∈ command.proposes
  closed : ∀ gapId, ClosedIn next gapId ↔ ClosedIn records gapId ∨ gapId ∈ command.answers

theorem GapCommand.Reflected.settles {records : List GapRecord} {command : GapCommand}
    (reflected : command.Reflected records) : Settles command records records := by
  refine ⟨reflected, fun gapId => (or_iff_left_of_imp fun proposed => ?_).symm,
    fun gapId => (or_iff_left_of_imp fun answered => ?_).symm⟩
  · cases command with
    | record proposal =>
        obtain ⟨other, listed, rfl⟩ := List.mem_map.mp proposed
        exact reflected other listed
    | resolve => cases proposed
    | waive => cases proposed
  · cases command with
    | record proposal => cases answered
    | resolve =>
        obtain ⟨gap, listed, named, resolved⟩ := reflected
        obtain rfl := List.mem_singleton.mp answered
        exact ⟨gap, listed, named, closed_of_resolution resolved⟩
    | waive =>
        obtain rfl := List.mem_singleton.mp answered
        exact reflected

theorem Accepted.settles {surroundings : Surroundings} {log : GapLog runId} {command : GapCommand}
    (accepted : Accepted localeCompare surroundings log command) :
    Settles command log.records (after localeCompare surroundings log command).records := by
  rcases accepted with settled | ⟨gaps, facts, came⟩
  · have reflected := outcome_settled settled
    rw [after_reflected reflected]
    exact reflected.settles
  · obtain ⟨derived, wrote, -, -⟩ := after_write came
    exact ⟨wrote.reflected, fun gapId => wrote.mem_gapIds,
      fun gapId => wrote.closedIn_iff log.distinct⟩

theorem written_openGaps {surroundings : Surroundings} {log : GapLog runId} {command : GapCommand}
    {gaps : List GapRecord} {facts : GateFacts}
    (came : outcome localeCompare runId surroundings log.records command = .write gaps facts)
    (boundary : boundaryOf surroundings = .preApproval) :
    facts.openGaps =
      Set.ncard {gapId | OpenIn (after localeCompare surroundings log command).records gapId} := by
  obtain ⟨derived, wrote, listed, rfl⟩ := after_write came
  exact openGaps_eq boundary listed (wrote.distinct log.distinct) (wrote.own log.own)

end Steps

section Runs

variable {localeCompare : JsString → JsString → Int}

/-- The gap files of every run of every feature. -/
abbrev GapLogs := (site : GapSite) → GapLog site.runId

/-- A command given for a run, with what it observes. -/
structure GapEvent where
  site : GapSite
  surroundings : Surroundings
  command : GapCommand

def step (localeCompare : JsString → JsString → Int) (logs : GapLogs) (event : GapEvent) :
    GapLogs :=
  Function.update logs event.site
    (after localeCompare event.surroundings (logs event.site) event.command)

def run (localeCompare : JsString → JsString → Int) (logs : GapLogs) (events : List GapEvent) :
    GapLogs := events.foldl (step localeCompare) logs

@[simp] theorem step_same (logs : GapLogs) (event : GapEvent) :
    step localeCompare logs event event.site =
      after localeCompare event.surroundings (logs event.site) event.command :=
  Function.update_self ..

theorem step_other {logs : GapLogs} {event : GapEvent} {site : GapSite}
    (other : site ≠ event.site) : step localeCompare logs event site = logs site :=
  Function.update_of_ne other ..

theorem step_kept (logs : GapLogs) (event : GapEvent) (site : GapSite) :
    ∀ gap ∈ (logs site).records, ∃ later ∈ (step localeCompare logs event site).records,
      Continues gap later := by
  intro gap member
  by_cases same : site = event.site
  · subst same
    rw [step_same]
    exact after_kept gap member
  · rw [step_other same]
    exact ⟨gap, member, .refl gap⟩

theorem run_kept (logs : GapLogs) (events : List GapEvent) (site : GapSite) :
    ∀ gap ∈ (logs site).records, ∃ later ∈ (run localeCompare logs events site).records,
      Continues gap later := by
  induction events generalizing logs with
  | nil => exact fun gap member => ⟨gap, member, .refl gap⟩
  | cons event rest ih =>
      intro gap member
      obtain ⟨middle, found, continues⟩ := step_kept logs event site gap member
      obtain ⟨later, kept, continuesOn⟩ := ih (step localeCompare logs event) middle found
      exact ⟨later, kept, continues.trans continuesOn⟩

/-- The command of an event is accepted for the run it is given for. -/
def AcceptedIn (localeCompare : JsString → JsString → Int) (logs : GapLogs) (event : GapEvent) :
    Prop := Accepted localeCompare event.surroundings (logs event.site) event.command

def AllAccepted (localeCompare : JsString → JsString → Int) : GapLogs → List GapEvent → Prop
  | _, [] => True
  | logs, event :: rest =>
      AcceptedIn localeCompare logs event ∧
        AllAccepted localeCompare (step localeCompare logs event) rest

/-- A decision once accepted changes nothing when it is repeated, however much later. -/
theorem repeat_unchanged {logs : GapLogs} {event : GapEvent}
    (accepted : AcceptedIn localeCompare logs event) (later : List GapEvent)
    (again : Surroundings) :
    step localeCompare (run localeCompare (step localeCompare logs event) later)
        { event with surroundings := again } =
      run localeCompare (step localeCompare logs event) later := by
  set final := run localeCompare (step localeCompare logs event) later
  have reflected : event.command.Reflected (final event.site).records := by
    refine accepted.settles.reflected.mono ?_
    have kept := @run_kept localeCompare (step localeCompare logs event) later event.site
    rwa [step_same] at kept
  funext site
  by_cases same : site = event.site
  · subst same
    exact (step_same final { event with surroundings := again }).trans
      (GapLog.ext (after_reflected reflected))
  · exact step_other same

/-- What a run of accepted commands leaves on record: the gaps that were there or proposed, those
closed that were closed or answered. -/
theorem run_accepted {logs : GapLogs} {events : List GapEvent}
    (accepted : AllAccepted localeCompare logs events) (site : GapSite) (gapId : JsString) :
    (gapId ∈ gapIds (run localeCompare logs events site).records ↔
      gapId ∈ gapIds (logs site).records ∨
        ∃ event ∈ events, event.site = site ∧ gapId ∈ event.command.proposes) ∧
    (ClosedIn (run localeCompare logs events site).records gapId ↔
      ClosedIn (logs site).records gapId ∨
        ∃ event ∈ events, event.site = site ∧ gapId ∈ event.command.answers) := by
  induction events generalizing logs with
  | nil => simp [run]
  | cons event rest ih =>
      obtain ⟨first, later⟩ := accepted
      obtain ⟨ids, closed⟩ := ih later
      have settles := first.settles
      rw [show run localeCompare logs (event :: rest) =
        run localeCompare (step localeCompare logs event) rest from rfl, ids, closed]
      by_cases same : event.site = site
      · subst same
        rw [step_same, settles.ids, settles.closed]
        simp [or_assoc]
      · rw [step_other (Ne.symm same)]
        simp [same]

theorem openIn_order_free {logs : GapLogs} {events reordered : List GapEvent}
    (same : reordered.Perm events) (accepted : AllAccepted localeCompare logs events)
    (acceptedToo : AllAccepted localeCompare logs reordered) (site : GapSite) (gapId : JsString) :
    OpenIn (run localeCompare logs reordered site).records gapId ↔
      OpenIn (run localeCompare logs events site).records gapId := by
  have left := run_accepted accepted site gapId
  have right := run_accepted acceptedToo site gapId
  simp only [same.mem_iff] at right
  rw [openIn_iff (GapLog.distinct _), openIn_iff (GapLog.distinct _), left.1, left.2, right.1,
    right.2]

/-- Over every run of gap commands from any gap logs: a recorded finding and a recorded answer
stay as they are, under their feature and run; an accepted decision changes nothing when it is
repeated; and before approval the gates are given the number of open gaps of the run, for any
listing of its records and any order of the same decisions. -/
theorem gap_decisions_write_once (localeCompare : JsString → JsString → Int) (logs : GapLogs)
    (events : List GapEvent) :
    (∀ site, ∀ gap ∈ (logs site).records,
      ∃ later ∈ (run localeCompare logs events site).records, Continues gap later ∧
        ∀ other ∈ (run localeCompare logs events site).records,
          other.gapId = gap.gapId → other = later) ∧
    (∀ before event later, events = before ++ event :: later →
      AcceptedIn localeCompare (run localeCompare logs before) event → ∀ again : Surroundings,
        step localeCompare (run localeCompare logs events) { event with surroundings := again } =
          run localeCompare logs events) ∧
    (∀ site, ∀ request : GateFactsRequest, request.boundary = .preApproval →
      request.runId = site.runId →
      request.gaps.Perm (run localeCompare logs events site).records →
        (deriveGateFacts localeCompare request).openGaps =
          Set.ncard {gapId | OpenIn (run localeCompare logs events site).records gapId}) ∧
    (∀ event gaps facts, outcome localeCompare event.site.runId event.surroundings
        (run localeCompare logs events event.site).records event.command = .write gaps facts →
      boundaryOf event.surroundings = .preApproval →
        facts.openGaps = Set.ncard {gapId | OpenIn
          (step localeCompare (run localeCompare logs events) event event.site).records gapId}) ∧
    (∀ reordered : List GapEvent, reordered.Perm events → AllAccepted localeCompare logs events →
      AllAccepted localeCompare logs reordered → ∀ site gapId,
        OpenIn (run localeCompare logs reordered site).records gapId ↔
          OpenIn (run localeCompare logs events site).records gapId) := by
  refine ⟨?_, ?_, ?_, ?_, ?_⟩
  · intro site gap member
    obtain ⟨later, found, continues⟩ := run_kept logs events site gap member
    refine ⟨later, found, continues, fun other listed same => ?_⟩
    exact gap_unique (GapLog.distinct _) listed found (same.trans continues.gapId.symm)
  · rintro before event later rfl accepted again
    have split : run localeCompare logs (before ++ event :: later) =
        run localeCompare (step localeCompare (run localeCompare logs before) event) later :=
      List.foldl_append ..
    rw [split]
    exact repeat_unchanged accepted later again
  · intro site request boundary own listed
    refine openGaps_eq boundary listed (GapLog.distinct _) fun gap member => ?_
    exact ((run localeCompare logs events site).own gap member).trans own.symm
  · intro event gaps facts came boundary
    rw [step_same]
    exact written_openGaps came boundary
  · intro reordered same accepted acceptedToo site gapId
    exact openIn_order_free same accepted acceptedToo site gapId

end Runs

end Kratos.Gaps
