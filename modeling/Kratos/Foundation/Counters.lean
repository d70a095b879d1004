/- source: none(language runtime)
   digest: Counters that only grow, read in successive intervals, and the share of each interval. -/

import Kratos.Foundation.Collections
import Mathlib.Algebra.BigOperators.Group.List.Basic
import Mathlib.Algebra.GroupWithZero.Nat
import Mathlib.Data.List.Sort

set_option autoImplicit false

namespace Kratos.Foundation.Counters

open Foundation.Collections

section Readings

variable {τ ο : Type} [LinearOrder τ]

/-- One reading of a counter: when the interval of its owner began and the total it showed. -/
structure Reading (τ ο : Type) where
  start : τ
  owner : ο
  total : Nat

/-- The growth between consecutive readings; no two readings of one interval, no total that falls. -/
def increments : Option τ → Nat → List (Reading τ ο) → Option (List (ο × Nat))
  | _, _, [] => some []
  | previous, reached, reading :: rest =>
      if some reading.start = previous ∨ reading.total < reached then none
      else (increments (some reading.start) reading.total rest).map
        ((reading.owner, reading.total - reached) :: ·)

/-- The greatest total read in an interval that began earlier. -/
def reachedBefore (readings : List (Reading τ ο)) (time : τ) : Nat :=
  ((readings.filter fun reading => reading.start < time).map Reading.total).foldr max 0

theorem reachedBefore_perm {left right : List (Reading τ ο)} (same : left.Perm right) (time : τ) :
    reachedBefore left time = reachedBefore right time :=
  ((same.filter _).map _).foldr_eq 0

private theorem reachedBefore_cons_later {reading : Reading τ ο} {readings : List (Reading τ ο)}
    {time : τ} (later : reading.start < time) :
    reachedBefore (reading :: readings) time = max reading.total (reachedBefore readings time) := by
  simp [reachedBefore, later]

private theorem reachedBefore_start {readings : List (Reading τ ο)} {time : τ}
    (after : ∀ reading ∈ readings, time ≤ reading.start) : reachedBefore readings time = 0 := by
  have none : readings.filter (fun reading => reading.start < time) = [] := by
    apply List.filter_eq_nil_iff.mpr
    intro reading member
    simpa using after reading member
  rw [reachedBefore, none]
  rfl

/-- What an accepted sequence of readings tells: the intervals follow each other strictly, the
totals never fall, and each interval is given what its total adds to those before it. -/
theorem increments_some {readings : List (Reading τ ο)} {previous : Option τ} {reached : Nat}
    {shares : List (ο × Nat)} (sorted : readings.Pairwise fun left right => left.start ≤ right.start)
    (after : ∀ time ∈ previous, ∀ reading ∈ readings, time ≤ reading.start)
    (accepted : increments previous reached readings = some shares) :
    (∀ time ∈ previous, ∀ reading ∈ readings, time < reading.start) ∧
      (readings.Pairwise fun left right => left.start < right.start) ∧
      (∀ reading ∈ readings, reached ≤ reading.total) ∧
      (readings.Pairwise fun left right => left.total ≤ right.total) ∧
      shares = readings.map fun reading =>
        (reading.owner, reading.total - max reached (reachedBefore readings reading.start)) := by
  induction readings generalizing previous reached shares with
  | nil =>
      obtain rfl := Option.some.inj accepted
      simp
  | cons reading rest ih =>
      rw [increments] at accepted
      split at accepted
      · cases accepted
      rename_i chronological
      push Not at chronological
      obtain ⟨shares, continued, rfl⟩ := Option.map_eq_some_iff.mp accepted
      obtain ⟨first, sorted⟩ := List.pairwise_cons.mp sorted
      obtain ⟨follow, strict, above, growing, rfl⟩ := ih sorted (by simpa using first) continued
      have next : ∀ other ∈ rest, reading.start < other.start := follow reading.start rfl
      have here : ∀ time ∈ previous, time < reading.start := by
        intro time given
        refine lt_of_le_of_ne (after time given reading List.mem_cons_self) ?_
        rintro rfl
        exact chronological.1 given.symm
      refine ⟨?_, List.pairwise_cons.mpr ⟨next, strict⟩, ?_, List.pairwise_cons.mpr ⟨above, growing⟩, ?_⟩
      · intro time given other member
        rcases List.mem_cons.mp member with rfl | member
        · exact here time given
        · exact (here time given).trans (next other member)
      · intro other member
        rcases List.mem_cons.mp member with rfl | member
        · exact chronological.2
        · exact chronological.2.trans (above other member)
      · have head : reachedBefore (reading :: rest) reading.start = 0 := by
          apply reachedBefore_start
          intro other member
          rcases List.mem_cons.mp member with rfl | member
          · exact le_rfl
          · exact (next other member).le
        rw [List.map_cons, head, Nat.max_zero]
        congr 1
        apply List.map_congr_left
        intro other member
        rw [reachedBefore_cons_later (next other member), ← Nat.max_assoc,
          Nat.max_eq_right chronological.2]

/-- The shares of readings sorted first, in terms of the readings as they were given. -/
theorem increments_sorted {readings : List (Reading τ ο)} {shares : List (ο × Nat)}
    (accepted : increments none 0 (readings.insertionSort fun left right =>
      left.start ≤ right.start) = some shares) :
    shares.Perm (readings.map fun reading =>
      (reading.owner, reading.total - reachedBefore readings reading.start)) := by
  have same := List.perm_insertionSort (fun left right : Reading τ ο => left.start ≤ right.start)
    readings
  have total : Std.Total fun left right : Reading τ ο => left.start ≤ right.start :=
    ⟨fun left right => le_total left.start right.start⟩
  have transitive : IsTrans (Reading τ ο) fun left right => left.start ≤ right.start :=
    ⟨fun _ _ _ => le_trans⟩
  have sorted := List.pairwise_insertionSort
    (fun left right : Reading τ ο => left.start ≤ right.start) readings
  obtain ⟨-, -, -, -, rfl⟩ := increments_some sorted (by simp) accepted
  simp only [Nat.zero_max, reachedBefore_perm same]
  exact same.map _

end Readings

section Intervals

variable {σ τ : Type} [DecidableEq σ] [LinearOrder τ]

/-- An interval of work and the last totals its counters showed. -/
structure Interval (σ τ : Type) where
  start : τ
  totals : List (σ × Nat)

/-- The readings of one counter, each owned by its interval. -/
def readingsOf (ledger : List (Interval σ τ)) (counter : σ) : List (Reading τ Unit) :=
  ledger.flatMap fun interval =>
    (interval.totals.filter fun entry => entry.1 = counter).map fun entry =>
      { start := interval.start, owner := (), total := entry.2 }

/-- What the totals of an interval add to those of the intervals before it. -/
def share (ledger : List (Interval σ τ)) (interval : Interval σ τ) : Nat :=
  (interval.totals.map fun entry =>
    entry.2 - reachedBefore (readingsOf ledger entry.1) interval.start).sum

/-- Two intervals that show the same totals, in whatever order they are listed. -/
def Interval.Same (left right : Interval σ τ) : Prop :=
  left.start = right.start ∧ left.totals.Perm right.totals

omit [LinearOrder τ] in
theorem readingsOf_perm {left right : List (Interval σ τ)}
    (same : List.Forall₂ Interval.Same left right) (counter : σ) :
    (readingsOf left counter).Perm (readingsOf right counter) := by
  induction same with
  | nil => exact .refl _
  | cons head _ ih =>
      obtain ⟨start, totals⟩ := head
      rw [readingsOf, readingsOf, List.flatMap_cons, List.flatMap_cons, start]
      exact ((totals.filter _).map _).append ih

theorem share_congr {left right : List (Interval σ τ)} (same : List.Forall₂ Interval.Same left right)
    {one other : Interval σ τ} (alike : one.Same other) : share left one = share right other := by
  obtain ⟨start, totals⟩ := alike
  rw [share, share, start]
  simp only [reachedBefore_perm (readingsOf_perm same _)]
  exact (totals.map _).sum_eq

/-- Lists of totals with distinct counters and the same lookups are the same up to order. -/
theorem perm_of_mapGet {left right : List (σ × Nat)} (leftKeys : (left.map Prod.fst).Nodup)
    (rightKeys : (right.map Prod.fst).Nodup)
    (same : ∀ counter, mapGet left counter = mapGet right counter) : left.Perm right := by
  apply (List.perm_ext_iff_of_nodup leftKeys.of_map rightKeys.of_map).mpr
  rintro ⟨counter, total⟩
  constructor
  · intro member
    exact mapGet_mem (same counter ▸ mapGet_of_mem leftKeys member)
  · intro member
    exact mapGet_mem (same counter ▸ mapGet_of_mem rightKeys member)

end Intervals

end Kratos.Foundation.Counters
