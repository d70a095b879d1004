/- source: none(general)
   digest: Batches that take named entries out of a keyed list and add products to it. -/

import Mathlib.Algebra.BigOperators.Group.List.Basic
import Mathlib.Algebra.GroupWithZero.Nat
import Mathlib.Data.List.Perm.Subperm

set_option autoImplicit false

namespace Kratos.Foundation.Batches

variable {α κ : Type} [DecidableEq κ] {key : α → κ}

def named (key : α → κ) (entries : List α) (names : List κ) : List α :=
  entries.filter fun entry => decide (key entry ∈ names)

def standing (key : α → κ) (entries : List α) (names : List κ) : List α :=
  entries.filter fun entry => decide (key entry ∉ names)

def total (weight : α → Nat) (entries : List α) : Nat := (entries.map weight).sum

@[simp] theorem total_append (weight : α → Nat) (front back : List α) :
    total weight (front ++ back) = total weight front + total weight back := by
  simp only [total, List.map_append, List.sum_append]

theorem total_perm {weight : α → Nat} {left right : List α} (perm : left.Perm right) :
    total weight left = total weight right :=
  (perm.map weight).sum_eq

theorem named_standing_perm (entries : List α) (names : List κ) :
    (named key entries names ++ standing key entries names).Perm entries := by
  have complement : (fun entry => decide (key entry ∉ names)) =
      fun entry => !decide (key entry ∈ names) := by
    ext entry
    simp
  rw [named, standing, complement]
  exact List.filter_append_perm _ entries

theorem total_standing (weight : α → Nat) (entries : List α) (names : List κ) :
    total weight (named key entries names) + total weight (standing key entries names) =
      total weight entries := by
  rw [← total_append]
  exact total_perm (named_standing_perm entries names)

theorem named_append_perm {entries : List α} {names more : List κ}
    (disjoint : names.Disjoint more) :
    (named key entries (names ++ more)).Perm
      (named key entries names ++ named key entries more) := by
  induction entries with
  | nil => exact List.Perm.refl []
  | cons entry entries ih =>
      simp only [named, List.mem_append, List.filter_cons] at ih ⊢
      by_cases front : key entry ∈ names
      · have back : key entry ∉ more := fun member => disjoint front member
        simpa only [front, back, or_false, decide_true, decide_false, if_true,
          Bool.false_eq_true, if_false, List.cons_append] using ih.cons entry
      · by_cases back : key entry ∈ more
        · simp only [front, back, or_true, decide_true, decide_false, if_true,
            Bool.false_eq_true, if_false]
          exact (ih.cons entry).trans List.perm_middle.symm
        · simpa only [front, back, or_false, decide_false, Bool.false_eq_true, if_false] using ih

theorem standing_standing (entries : List α) (names more : List κ) :
    standing key (standing key entries names) more = standing key entries (names ++ more) := by
  rw [standing, standing, standing, List.filter_filter]
  apply List.filter_congr
  intro entry _
  simp only [List.mem_append, not_or, ← Bool.decide_and, and_comm]

theorem named_length {entries : List α} {names : List κ} (unique : (entries.map key).Nodup)
    (distinct : names.Nodup) (known : names ⊆ entries.map key) :
    (named key entries names).length = names.length := by
  have keys : ((named key entries names).map key).Perm names := by
    apply (List.perm_ext_iff_of_nodup _ distinct).mpr
    · intro name
      rw [List.mem_map]
      constructor
      · rintro ⟨entry, member, rfl⟩
        exact of_decide_eq_true (List.mem_filter.mp member).2
      · intro wanted
        obtain ⟨entry, member, rfl⟩ := List.mem_map.mp (known wanted)
        exact ⟨entry, List.mem_filter.mpr ⟨member, decide_eq_true wanted⟩, rfl⟩
    · exact unique.sublist (List.filter_sublist.map key)
  rw [← keys.length_eq, List.length_map]

/-- What a batch has made of the entries: those with none of the names so far, and products. -/
def Progress (key : α → κ) (entries : List α) (names : List κ) (products state : List α) : Prop :=
  state.Perm (standing key entries names ++ products)

theorem Progress.start (entries : List α) : Progress key entries [] [] entries := by
  have all : standing key entries [] = entries := by simp [standing]
  rw [Progress, all, List.append_nil]

section Steps

variable {entries products state : List α} {names more : List κ}

/-- The names of a step that finds one entry for each of them name no product. -/
theorem Progress.named_perm (progress : Progress key entries names products state)
    (unique : (entries.map key).Nodup) (distinct : (names ++ more).Nodup)
    (known : more ⊆ entries.map key) (found : (named key state more).length = more.length) :
    (named key state more).Perm (named key entries more) ∧ named key products more = [] := by
  obtain ⟨-, fresh, disjoint⟩ := List.nodup_append.mp distinct
  have early : named key (standing key entries names) more = named key entries more := by
    rw [named, standing, List.filter_filter, named]
    apply List.filter_congr
    intro entry _
    by_cases wanted : key entry ∈ more
    · have late : key entry ∉ names := fun member => disjoint _ member _ wanted rfl
      simp [wanted, late]
    · simp [wanted]
  have parts : (named key state more).Perm (named key entries more ++ named key products more) := by
    have filtered := progress.filter fun entry => decide (key entry ∈ more)
    rw [List.filter_append] at filtered
    rw [← early]
    exact filtered
  have lengths := parts.length_eq
  rw [List.length_append, found, named_length unique fresh known] at lengths
  have none : named key products more = [] := List.length_eq_zero_iff.mp (by omega)
  rw [none, List.append_nil] at parts
  exact ⟨parts, none⟩

theorem Progress.step (progress : Progress key entries names products state)
    (absent : named key products more = []) {next joining : List α}
    (taken : next.Perm (standing key state more ++ joining)) :
    Progress key entries (names ++ more) (products ++ joining) next := by
  have kept : standing key products more = products := by
    apply List.filter_eq_self.mpr
    intro product member
    by_contra wanted
    have inside : product ∈ named key products more :=
      List.mem_filter.mpr ⟨member, by simpa using wanted⟩
    rw [absent] at inside
    cases inside
  have filtered := progress.filter fun entry => decide (key entry ∉ more)
  have rest : (standing key state more).Perm
      (standing key entries (names ++ more) ++ products) := by
    have split : (standing key entries names ++ products).filter (fun entry =>
        decide (key entry ∉ more)) = standing key entries (names ++ more) ++ products := by
      rw [List.filter_append, ← standing_standing]
      exact congrArg _ kept
    rw [split] at filtered
    exact filtered
  rw [Progress, ← List.append_assoc]
  exact taken.trans (rest.append_right joining)

end Steps

end Kratos.Foundation.Batches
