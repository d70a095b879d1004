/- source: none(language runtime)
   digest: Comparisons by one criterion after another, and sorts that do not depend on the order given. -/

import Kratos.Foundation.FirstBest
import Mathlib.Data.List.Sort

set_option autoImplicit false

namespace Kratos.Foundation.Ranking

open Foundation.FirstBest

variable {α β : Type} {first second le : α → α → Bool}

/-- `first(a, b) || second(a, b)`: the second comparison decides where the first ties. -/
def chained (first second : α → α → Bool) (a b : α) : Bool := first a b && (!first b a || second a b)

def onKey (key : α → β) (le : β → β → Bool) (a b : α) : Bool := le (key a) (key b)

theorem onKey_consistent {le : β → β → Bool} (consistent : Consistent le) (key : α → β) :
    Consistent (onKey key le) :=
  ⟨fun a b c => consistent.trans (key a) (key b) (key c), fun a b => consistent.total (key a) (key b)⟩

theorem chained_consistent (one : Consistent first) (two : Consistent second) :
    Consistent (chained first second) where
  trans a b c left right := by
    simp only [chained, Bool.and_eq_true, Bool.or_eq_true, Bool.not_eq_true'] at left right ⊢
    refine ⟨one.trans a b c left.1 right.1, ?_⟩
    cases back : first c a with
    | false => exact .inl rfl
    | true =>
        have near := one.trans b c a right.1 back
        have far := one.trans c a b back left.1
        exact .inr (two.trans a b c (left.2.resolve_left (by simp [near])) (right.2.resolve_left (by simp [far])))
  total a b := by
    have either := one.total a b
    have later := two.total a b
    simp only [chained, Bool.or_eq_true] at either later ⊢
    cases forward : first a b <;> cases backward : first b a <;> simp_all

/-- A chain tells apart what its last comparison tells apart among entries the first one ties. -/
theorem chained_antisymm {a b : α} (forward : chained first second a b = true)
    (backward : chained first second b a = true) :
    (first a b = true ∧ first b a = true) ∧ second a b = true ∧ second b a = true := by
  simp only [chained, Bool.and_eq_true, Bool.or_eq_true, Bool.not_eq_true'] at forward backward
  exact ⟨⟨forward.1, backward.1⟩, forward.2.resolve_left (by simp [backward.1]),
    backward.2.resolve_left (by simp [forward.1])⟩

theorem nat_consistent : Consistent fun a b : Nat => decide (a ≤ b) :=
  ⟨fun a b c left right => by
      simp only [decide_eq_true_eq] at left right ⊢
      exact left.trans right,
    fun a b => by simpa using Nat.le_total a b⟩

theorem nat_consistent_down : Consistent fun a b : Nat => decide (b ≤ a) :=
  ⟨fun a b c left right => by
      simp only [decide_eq_true_eq] at left right ⊢
      exact right.trans left,
    fun a b => by simpa using Nat.le_total b a⟩

/-- Sorting does not see in which order the entries came, where no two of them tie. -/
theorem mergeSort_eq_of_perm (consistent : Consistent le) {left right : List α} (same : left.Perm right)
    (apart : ∀ a ∈ left, ∀ b ∈ left, le a b = true → le b a = true → a = b) :
    left.mergeSort le = right.mergeSort le := by
  have among : ∀ a ∈ left.mergeSort le, a ∈ left := fun a => (List.mergeSort_perm left le).mem_iff.mp
  have also : ∀ a ∈ right.mergeSort le, a ∈ left := fun a member =>
    same.mem_iff.mpr ((List.mergeSort_perm right le).mem_iff.mp member)
  refine List.Perm.eq_of_pairwise (fun a b inLeft inRight => apart a (among a inLeft) b (also b inRight))
    (List.pairwise_mergeSort consistent.trans consistent.total left)
    (List.pairwise_mergeSort consistent.trans consistent.total right) ?_
  exact (List.mergeSort_perm left le).trans (same.trans (List.mergeSort_perm right le).symm)

end Kratos.Foundation.Ranking
