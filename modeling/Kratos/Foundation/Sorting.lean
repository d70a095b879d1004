/- source: none(language runtime)
   digest: Sorted lists without repetition, under one order and under two. -/

import Mathlib.Data.List.Sort

set_option autoImplicit false

namespace Kratos.Foundation.Sorting

section Distinct

variable {α : Type} [BEq α] [LawfulBEq α]

theorem nodup_eraseDups (values : List α) : values.eraseDups.Nodup := by
  induction count : values.length using Nat.strong_induction_on generalizing values with
  | _ n ih =>
      cases values with
      | nil => exact List.nodup_nil
      | cons value rest =>
          have shorter : (rest.filter fun other => !other == value).length < n := by
            have bound := List.length_filter_le (fun other => !other == value) rest
            rw [List.length_cons] at count
            omega
          rw [List.eraseDups_cons, List.nodup_cons]
          constructor
          · rw [List.mem_eraseDups, List.mem_filter]
            rintro ⟨-, differs⟩
            simp at differs
          · exact ih _ shorter _ rfl

theorem eraseDups_eq_self {values : List α} (unique : values.Nodup) : values.eraseDups = values := by
  induction values with
  | nil => rfl
  | cons value rest ih =>
      obtain ⟨fresh, unique⟩ := List.nodup_cons.mp unique
      have kept : rest.filter (fun other => !other == value) = rest := by
        apply List.filter_eq_self.mpr
        intro other member
        have differs : other ≠ value := fun same => fresh (same ▸ member)
        simpa using differs
      rw [List.eraseDups_cons, kept, ih unique]

end Distinct

variable {α : Type} [DecidableEq α]

/-- `[...new Set(values)].sort(compare)`, the comparison given by what may come first. -/
def sortedUnique (r : α → α → Prop) [DecidableRel r] (values : List α) : List α :=
  values.eraseDups.insertionSort r

section One

variable {r : α → α → Prop} [DecidableRel r]

@[simp] theorem mem_sortedUnique {values : List α} {value : α} :
    value ∈ sortedUnique r values ↔ value ∈ values := by
  rw [sortedUnique, List.mem_insertionSort, List.mem_eraseDups]

theorem nodup_sortedUnique (values : List α) : (sortedUnique r values).Nodup :=
  (List.perm_insertionSort r _).nodup_iff.mpr (nodup_eraseDups values)

theorem sortedUnique_length (r : α → α → Prop) [DecidableRel r] (values : List α) :
    (sortedUnique r values).length ≤ values.length := by
  have among : sortedUnique r values ⊆ values := fun value => mem_sortedUnique.mp
  exact (List.subperm_of_subset (nodup_sortedUnique values) among).length_le

theorem pairwise_sortedUnique [Std.Total r] [IsTrans α r] (values : List α) :
    (sortedUnique r values).Pairwise r :=
  List.pairwise_insertionSort r _

theorem sortedUnique_eq_self {values : List α} (unique : values.Nodup)
    (sorted : values.Pairwise r) : sortedUnique r values = values := by
  rw [sortedUnique, eraseDups_eq_self unique]
  exact sorted.insertionSort_eq

theorem sortedUnique_idem [Std.Total r] [IsTrans α r] (values : List α) :
    sortedUnique r (sortedUnique r values) = sortedUnique r values :=
  sortedUnique_eq_self (nodup_sortedUnique values) (pairwise_sortedUnique values)

/-- Adding a value a sorted list without repetition has already changes nothing. -/
theorem sortedUnique_concat_of_mem {values : List α} {value : α}
    (canonical : sortedUnique r values = values) (member : value ∈ values) :
    sortedUnique r (values ++ [value]) = values := by
  have unique : values.Nodup := canonical ▸ nodup_sortedUnique values
  have same : (values ++ [value]).eraseDups = values.eraseDups := by
    rw [List.eraseDups_append, eraseDups_eq_self unique]
    simp [List.removeAll, member]
  rw [sortedUnique, same]
  exact canonical

end One

section Two

variable {r s : α → α → Prop} [DecidableRel r] [DecidableRel s]

private theorem related_of_pairwise {β : Type} {t : β → β → Prop} {values : List β}
    (sorted : values.Pairwise t) {x y : β} (left : x ∈ values) (right : y ∈ values) :
    x = y ∨ t x y ∨ t y x := by
  induction values with
  | nil => cases left
  | cons value rest ih =>
      obtain ⟨first, sorted⟩ := List.pairwise_cons.mp sorted
      rcases List.mem_cons.mp left with head | xRest
      · rcases List.mem_cons.mp right with other | yRest
        · exact .inl (head.trans other.symm)
        · exact .inr (.inl (head ▸ first y yRest))
      · rcases List.mem_cons.mp right with other | yRest
        · exact .inr (.inr (other ▸ first x xRest))
        · exact ih sorted xRest yRest

/-- Sorting again under a second order changes nothing exactly where the two orders agree. -/
theorem sortedUnique_resort_iff [Std.Total r] [IsTrans α r] [Std.Antisymm r]
    [Std.Total s] [IsTrans α s] (values : List α) :
    sortedUnique s (sortedUnique r values) = sortedUnique r values ↔
      ∀ x ∈ values, ∀ y ∈ values, r x y → s x y := by
  have byFirst := pairwise_sortedUnique (r := r) values
  constructor
  · intro same x left y right before
    have bySecond : (sortedUnique r values).Pairwise s := by
      rw [← same]
      exact pairwise_sortedUnique (sortedUnique r values)
    have both := byFirst.and bySecond
    rcases related_of_pairwise both (mem_sortedUnique.mpr left) (mem_sortedUnique.mpr right) with
      rfl | ⟨-, holds⟩ | ⟨back, -⟩
    · rcases Std.Total.total (r := s) x x with holds | holds
      · exact holds
      · exact holds
    · exact holds
    · have same : x = y := Std.Antisymm.antisymm x y before back
      subst same
      rcases Std.Total.total (r := s) x x with holds | holds
      · exact holds
      · exact holds
  · intro agree
    apply sortedUnique_eq_self (nodup_sortedUnique values)
    apply byFirst.imp_of_mem
    intro x y left right before
    exact agree x (mem_sortedUnique.mp left) y (mem_sortedUnique.mp right) before

end Two

end Kratos.Foundation.Sorting
