/- source: none(general)
   digest: The pairs of a list whose first entry stands before the second, each met once. -/

import Mathlib.Data.List.Nodup

set_option autoImplicit false

namespace Kratos.Foundation.Pairs

variable {α : Type}

/-- Two nested loops over a list, the inner one from the place after the outer one. -/
def pairs : List α → List (α × α)
  | [] => []
  | first :: rest => rest.map (fun second => (first, second)) ++ pairs rest

theorem pairs_sublist {values : List α} {pair : α × α} (member : pair ∈ pairs values) :
    [pair.1, pair.2].Sublist values := by
  induction values with
  | nil => cases member
  | cons first rest ih =>
      rcases List.mem_append.mp member with here | later
      · obtain ⟨second, inside, rfl⟩ := List.mem_map.mp here
        exact (List.singleton_sublist.mpr inside).cons_cons first
      · exact (ih later).cons first

theorem mem_of_pairs {values : List α} {pair : α × α} (member : pair ∈ pairs values) :
    pair.1 ∈ values ∧ pair.2 ∈ values := by
  have sublist := pairs_sublist member
  exact ⟨sublist.subset (by simp), sublist.subset (by simp)⟩

theorem pairs_distinct {values : List α} {pair : α × α} (unique : values.Nodup)
    (member : pair ∈ pairs values) : pair.1 ≠ pair.2 := by
  have both := (pairs_sublist member).nodup unique
  simpa using both

variable [DecidableEq α]

/-- The pair has these two entries, in either order. -/
def joins (left right : α) (pair : α × α) : Bool :=
  decide (pair = (left, right) ∨ pair = (right, left))

theorem joins_comm (left right : α) : joins left right = joins right left := by
  ext pair
  simp only [joins, or_comm]

private theorem countP_first {first partner : α} {rest : List α} (fresh : first ∉ rest) :
    (rest.map fun second => (first, second)).countP (joins first partner) = rest.count partner := by
  rw [List.countP_map, List.count]
  apply List.countP_congr
  intro second member
  have other : second ≠ first := fun same => fresh (same ▸ member)
  simp [joins, Prod.ext_iff, other]

private theorem countP_missing {left right : α} {values : List α} (missing : left ∉ values) :
    (pairs values).countP (joins left right) = 0 := by
  rw [List.countP_eq_zero]
  intro pair member joined
  obtain ⟨first, second⟩ := mem_of_pairs member
  rcases of_decide_eq_true joined with rfl | rfl
  · exact missing first
  · exact missing second

/-- Two distinct entries of a list without repetition are paired exactly once. -/
theorem countP_pairs {values : List α} (unique : values.Nodup) {left right : α}
    (leftAt : left ∈ values) (rightAt : right ∈ values) (distinct : left ≠ right) :
    (pairs values).countP (joins left right) = 1 := by
  induction values with
  | nil => cases leftAt
  | cons first rest ih =>
      obtain ⟨fresh, later⟩ := List.nodup_cons.mp unique
      rw [pairs, List.countP_append]
      rcases List.mem_cons.mp leftAt with rfl | leftLater
      · have partner := List.mem_of_ne_of_mem distinct.symm rightAt
        rw [countP_first fresh, countP_missing fresh, List.count_eq_one_of_mem later partner]
      · rcases List.mem_cons.mp rightAt with rfl | rightLater
        · rw [joins_comm, countP_first fresh, countP_missing fresh,
            List.count_eq_one_of_mem later leftLater]
        · have none : (rest.map fun second => (first, second)).countP (joins left right) = 0 := by
            rw [List.countP_eq_zero]
            intro pair member joined
            obtain ⟨second, -, rfl⟩ := List.mem_map.mp member
            rcases of_decide_eq_true joined with same | same
            · exact fresh ((Prod.mk.inj same).1 ▸ leftLater)
            · exact fresh ((Prod.mk.inj same).1 ▸ rightLater)
          rw [none, Nat.zero_add, ih later leftLater rightLater]

end Kratos.Foundation.Pairs
