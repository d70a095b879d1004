/- source: domain/measurements/index.ts
   digest: The allocation of a record is the share its interval has in the counters of the run. -/

import Kratos.Measurements.Reconcile

set_option autoImplicit false

namespace Kratos.Measurements

open Foundation.Text Foundation.Counters Foundation.Grouping Foundation.Runs

def sessionTotals (checkpoints : List ContributorCheckpoint) : List (JsString × Nat) :=
  checkpoints.map fun checkpoint => (checkpoint.sessionId, checkpoint.cumulativeGrossTokens)

/-- A record as an interval of work with the totals of its sessions. -/
def PhaseMeasurement.interval (record : PhaseMeasurement) : Interval JsString OrderKey where
  start := record.startKey.getD []
  totals := sessionTotals record.contributorCheckpoints

def ledgerOf (records : List PhaseMeasurement) : List (Interval JsString OrderKey) :=
  records.map PhaseMeasurement.interval

section Pointwise

variable {α β : Type} {related : α → β → Prop}

private theorem eq_map_of_forall₂ {f : α → β} {inputs : List α} {outputs : List β}
    (all : List.Forall₂ related inputs outputs) (only : ∀ a b, related a b → b = f a) :
    outputs = inputs.map f := by
  induction all with
  | nil => rfl
  | cons head _ ih => rw [List.map_cons, only _ _ head, ih]

private theorem exists_of_forall₂ {inputs : List α} {outputs : List β}
    (all : List.Forall₂ related inputs outputs) {a : α} (member : a ∈ inputs) :
    ∃ b ∈ outputs, related a b := by
  induction all with
  | nil => cases member
  | cons head _ ih =>
      rcases List.mem_cons.mp member with rfl | inside
      · exact ⟨_, List.mem_cons_self, head⟩
      · obtain ⟨b, found, holds⟩ := ih inside
        exact ⟨b, List.mem_cons_of_mem _ found, holds⟩

private theorem flatten_perm_of_forall₂ {γ : Type} {f : α → List γ} {related : α → List γ → Prop}
    {inputs : List α} {outputs : List (List γ)} (all : List.Forall₂ related inputs outputs)
    (each : ∀ a ∈ inputs, ∀ b, related a b → b.Perm (f a)) :
    outputs.flatten.Perm (inputs.flatMap f) := by
  induction all with
  | nil => exact .refl _
  | cons head _ ih =>
      rw [List.flatten_cons, List.flatMap_cons]
      exact (each _ List.mem_cons_self _ head).append
        (ih fun a member => each a (List.mem_cons_of_mem _ member))

end Pointwise

section Entries

variable {precedes : JsString → JsString → Prop} [DecidableRel precedes]

/-- The entries a record with valid checkpoints puts down. -/
private def entriesOf (record : PhaseMeasurement) : List CheckpointEntry :=
  record.contributorCheckpoints.map fun checkpoint =>
    { record := record, checkpoint := checkpoint, startedAt := record.startKey.getD [] }

private theorem checkpointEntries_ok {record : PhaseMeasurement} {entries : List CheckpointEntry}
    (read : checkpointEntries precedes record = .ok entries) :
    hasValidCheckpointState precedes record = true ∧ entries = entriesOf record := by
  unfold checkpointEntries at read
  cases started : record.startKey with
  | none =>
      rw [started] at read
      cases read
  | some startedAt =>
      rw [started] at read
      obtain ⟨valid, same⟩ := guard_ok_iff.mp read
      refine ⟨by simpa using valid, ?_⟩
      rw [entriesOf, started]
      exact (Except.ok.inj same).symm

private theorem reachedBefore_owner {τ ο π : Type} [LinearOrder τ] {left : List (Reading τ ο)}
    {right : List (Reading τ π)}
    (same : left.map (fun reading => (reading.start, reading.total)) =
      right.map fun reading => (reading.start, reading.total)) (time : τ) :
    reachedBefore left time = reachedBefore right time := by
  have plain : ∀ {ω : Type} (readings : List (Reading τ ω)),
      reachedBefore readings time = (((readings.map fun reading => (reading.start, reading.total)).filter
        fun shown => shown.1 < time).map Prod.snd).foldr max 0 := by
    intro ω readings
    rw [reachedBefore, List.filter_map, List.map_map]
    rfl
  rw [plain left, plain right, same]

private theorem entries_filter_session (records : List PhaseMeasurement) (session : JsString) :
    ((records.flatMap entriesOf).filter fun entry => entry.checkpoint.sessionId = session).map
        (fun entry => (entry.startedAt, entry.checkpoint.cumulativeGrossTokens)) =
      (readingsOf (ledgerOf records) session).map fun reading => (reading.start, reading.total) := by
  rw [readingsOf, ledgerOf, List.flatMap_map, List.filter_flatMap, List.map_flatMap,
    List.map_flatMap]
  apply List.flatMap_congr
  intro record _
  rw [entriesOf, PhaseMeasurement.interval, sessionTotals, List.filter_map, List.map_map,
    List.filter_map, List.map_map, List.map_map]
  rfl

private def entryShare (records : List PhaseMeasurement) (entry : CheckpointEntry) :
    PhaseMeasurement × Nat :=
  (entry.record, entry.checkpoint.cumulativeGrossTokens -
    reachedBefore (readingsOf (ledgerOf records) entry.checkpoint.sessionId) entry.startedAt)

private theorem sessionContributions_perm {records : List PhaseMeasurement} {session : JsString}
    {contributions : List (PhaseMeasurement × Nat)}
    (accepted : sessionContributions ((records.flatMap entriesOf).filter fun entry =>
      entry.checkpoint.sessionId = session) = .ok contributions) :
    contributions.Perm (((records.flatMap entriesOf).filter fun entry =>
      entry.checkpoint.sessionId = session).map (entryShare records)) := by
  unfold sessionContributions at accepted
  dsimp only at accepted
  split at accepted
  · cases accepted
  rename_i shares found
  obtain rfl := Except.ok.inj accepted
  refine (increments_sorted found).trans (List.Perm.of_eq ?_)
  rw [List.map_map]
  apply List.map_congr_left
  intro entry member
  have own : entry.checkpoint.sessionId = session := by
    simpa using (List.mem_filter.mp member).2
  rw [entryShare, own]
  dsimp only [Function.comp]
  rw [reachedBefore_owner]
  rw [List.map_map]
  exact entries_filter_session records session

private theorem entries_filter_record {records : List PhaseMeasurement} (unique : records.Nodup)
    {record : PhaseMeasurement} (member : record ∈ records) :
    (records.flatMap entriesOf).filter (fun entry => entry.record = record) = entriesOf record := by
  have same : ∀ other, (entriesOf other).filter (fun entry => entry.record = record) =
      if other = record then entriesOf record else [] := by
    intro other
    rw [entriesOf, List.filter_map]
    by_cases equal : other = record
    · simp [equal, entriesOf, Function.comp_def]
    · simp [equal, Function.comp_def]
  rw [List.filter_flatMap]
  simp only [same]
  induction records with
  | nil => cases member
  | cons head rest ih =>
      obtain ⟨fresh, unique⟩ := List.nodup_cons.mp unique
      rw [List.flatMap_cons]
      rcases List.mem_cons.mp member with rfl | inside
      · rw [if_pos rfl]
        have none : rest.flatMap (fun other => if other = record then entriesOf record else []) = [] := by
          apply List.flatMap_eq_nil_iff.mpr
          intro other otherMember
          rw [if_neg]
          rintro rfl
          exact fresh otherMember
        rw [none, List.append_nil]
      · have other : head ≠ record := by
          rintro rfl
          exact fresh inside
        rw [if_neg other, List.nil_append]
        exact ih unique inside

/-- Accepted checkpoints are valid, and each record is given its share of the run's ledger. -/
theorem checkpointAllocations_ok {records : List PhaseMeasurement}
    {allocations : PhaseMeasurement → Nat}
    (accepted : checkpointAllocations precedes records = .ok allocations) :
    (∀ record ∈ records, hasValidCheckpointState precedes record = true) ∧
      (records.Nodup → ∀ record ∈ records,
        allocations record = share (ledgerOf records) record.interval) := by
  unfold checkpointAllocations at accepted
  obtain ⟨entries, read, accepted⟩ := bind_ok_iff.mp accepted
  obtain ⟨contributions, credited, accepted⟩ := bind_ok_iff.mp accepted
  obtain rfl := Except.ok.inj accepted
  have entriesRead := mapM_ok_iff.mp read
  have flat : entries.flatten = records.flatMap entriesOf := by
    rw [eq_map_of_forall₂ entriesRead fun _ _ one => (checkpointEntries_ok one).2]
    rfl
  rw [flat] at credited
  refine ⟨fun record member => ?_, fun unique record member => ?_⟩
  · obtain ⟨other, -, one⟩ := exists_of_forall₂ entriesRead member
    exact (checkpointEntries_ok one).1
  · have all : contributions.flatten.Perm ((records.flatMap entriesOf).map (entryShare records)) := by
      have grouped : contributions.flatten.Perm
          (((groupBy (fun entry => entry.checkpoint.sessionId) (records.flatMap entriesOf)).flatMap
            Prod.snd).map (entryShare records)) := by
        rw [List.map_flatMap]
        refine flatten_perm_of_forall₂ (mapM_ok_iff.mp credited) ?_
        intro group inside shares one
        obtain ⟨-, collected⟩ := mem_groupBy.mp inside
        rw [collected] at one ⊢
        exact sessionContributions_perm one
      exact grouped.trans ((groupBy_perm _ _).map _)
    have credit := ((all.filter fun contribution => contribution.1 = record).map Prod.snd).sum_eq
    refine credit.trans ?_
    rw [List.filter_map, List.map_map]
    have own := entries_filter_record unique member
    have chosen : ((records.flatMap entriesOf).filter
        ((fun contribution => decide (contribution.1 = record)) ∘ entryShare records)) =
        entriesOf record := own
    rw [chosen, share, entriesOf, PhaseMeasurement.interval, sessionTotals, List.map_map,
      List.map_map]
    rfl

end Entries

end Kratos.Measurements
