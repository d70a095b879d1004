/- source: none(general)
   digest: The greatest value each source has shown, and their sum, in whatever order they arrive. -/

import Mathlib.Algebra.BigOperators.Group.Finset.Basic

set_option autoImplicit false

namespace Kratos.Foundation.Peaks

variable {ι : Type*} [DecidableEq ι] {samples later : List (ι × Nat)}

/-- The greatest value of a source, zero where it has shown none. -/
def peak : List (ι × Nat) → ι → Nat
  | [], _ => 0
  | (shown, value) :: rest, source => if shown = source then max value (peak rest source)
      else peak rest source

/-- The sum of the greatest values over the sources. -/
def sumOfPeaks (samples : List (ι × Nat)) : Nat :=
  ∑ source ∈ (samples.map Prod.fst).toFinset, peak samples source

theorem peak_le_iff {source : ι} {bound : Nat} :
    peak samples source ≤ bound ↔ ∀ value, (source, value) ∈ samples → value ≤ bound := by
  induction samples with
  | nil => simp [peak]
  | cons sample rest ih =>
      obtain ⟨shown, value⟩ := sample
      unfold peak
      by_cases same : shown = source
      · subst same
        rw [if_pos rfl, max_le_iff, ih]
        simp
      · rw [if_neg same, ih]
        simp [Ne.symm same]

/-- The peaks depend on what was shown only, not on the order or the number of times. -/
theorem peak_congr (same : ∀ sample, sample ∈ samples ↔ sample ∈ later) :
    peak samples = peak later := by
  funext source
  apply le_antisymm
  · exact peak_le_iff.mpr fun value member => peak_le_iff.mp le_rfl value ((same _).mp member)
  · exact peak_le_iff.mpr fun value member => peak_le_iff.mp le_rfl value ((same _).mpr member)

theorem sumOfPeaks_congr (same : ∀ sample, sample ∈ samples ↔ sample ∈ later) :
    sumOfPeaks samples = sumOfPeaks later := by
  have sources : (samples.map Prod.fst).toFinset = (later.map Prod.fst).toFinset := by
    ext source
    simp [same]
  rw [sumOfPeaks, sumOfPeaks, sources, peak_congr same]

theorem peak_snoc (shown : ι) (value : Nat) (source : ι) :
    peak (samples ++ [(shown, value)]) source =
      if shown = source then max (peak samples source) value else peak samples source := by
  induction samples with
  | nil => by_cases same : shown = source <;> simp [peak, same]
  | cons sample rest ih =>
      obtain ⟨other, reading⟩ := sample
      rw [List.cons_append, peak, ih, peak]
      split <;> split <;> simp [max_assoc]

theorem peak_of_not_shown {source : ι} (absent : source ∉ samples.map Prod.fst) :
    peak samples source = 0 := by
  refine Nat.le_zero.mp (peak_le_iff.mpr fun value member => ?_)
  exact absurd (List.mem_map.mpr ⟨_, member, rfl⟩) absent

theorem sumOfPeaks_snoc (shown : ι) (value : Nat) :
    sumOfPeaks (samples ++ [(shown, value)]) =
      sumOfPeaks samples + (max (peak samples shown) value - peak samples shown) := by
  have sources : ((samples ++ [(shown, value)]).map Prod.fst).toFinset =
      insert shown (samples.map Prod.fst).toFinset := by
    ext source
    simp
  let others (values : ι → Nat) : Nat :=
    ∑ source ∈ (samples.map Prod.fst).toFinset.erase shown, values source
  have kept : others (peak (samples ++ [(shown, value)])) = others (peak samples) := by
    refine Finset.sum_congr rfl fun source member => ?_
    rw [peak_snoc, if_neg (Finset.ne_of_mem_erase member).symm]
  have after : sumOfPeaks (samples ++ [(shown, value)]) =
      peak (samples ++ [(shown, value)]) shown + others (peak (samples ++ [(shown, value)])) := by
    rw [sumOfPeaks, sources, ← Finset.add_sum_erase _ _ (Finset.mem_insert_self shown _),
      Finset.erase_insert_eq_erase]
  have before : sumOfPeaks samples = peak samples shown + others (peak samples) := by
    by_cases known : shown ∈ (samples.map Prod.fst).toFinset
    · exact (Finset.add_sum_erase _ _ known).symm
    · rw [peak_of_not_shown fun member => known (List.mem_toFinset.mpr member), Nat.zero_add]
      exact (congrArg (fun known => ∑ source ∈ known, peak samples source)
        (Finset.erase_eq_of_notMem known)).symm
  rw [after, kept, before, peak_snoc, if_pos rfl]
  omega

theorem sumOfPeaks_le_snoc (sample : ι × Nat) :
    sumOfPeaks samples ≤ sumOfPeaks (samples ++ [sample]) := by
  rw [sumOfPeaks_snoc]
  exact Nat.le_add_right _ _

theorem sumOfPeaks_le_append : sumOfPeaks samples ≤ sumOfPeaks (samples ++ later) := by
  induction later generalizing samples with
  | nil => rw [List.append_nil]
  | cons sample rest ih =>
      have next := @ih (samples ++ [sample])
      rw [List.append_assoc, List.singleton_append] at next
      exact (sumOfPeaks_le_snoc sample).trans next

end Kratos.Foundation.Peaks
