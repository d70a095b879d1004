/- source: none(language runtime)
   digest: Entries collected into a map of lists under their keys. -/

import Kratos.Foundation.Collections
import Kratos.Foundation.Sorting

set_option autoImplicit false

namespace Kratos.Foundation.Grouping

open Foundation.Collections

variable {κ α : Type} [DecidableEq κ]

/-- Entries collected under their keys, the keys in the order they are first met. -/
def groupBy (key : α → κ) (entries : List α) : List (κ × List α) :=
  (entries.map key).eraseDups.map fun name => (name, entries.filter fun entry => key entry = name)

theorem mem_groupBy {key : α → κ} {entries : List α} {group : κ × List α} :
    group ∈ groupBy key entries ↔
      (∃ entry ∈ entries, key entry = group.1) ∧
        group.2 = entries.filter fun entry => key entry = group.1 := by
  obtain ⟨name, members⟩ := group
  simp only [groupBy, List.mem_map, List.mem_eraseDups, Prod.mk.injEq]
  constructor
  · rintro ⟨other, named, rfl, rfl⟩
    exact ⟨named, rfl⟩
  · rintro ⟨named, collected⟩
    exact ⟨name, named, rfl, collected.symm⟩

private theorem flatMap_filter_perm (key : α → κ) (entries : List α) {names : List κ}
    (unique : names.Nodup) :
    (names.flatMap fun name => entries.filter fun entry => key entry = name).Perm
      (entries.filter fun entry => key entry ∈ names) := by
  induction names with
  | nil => simp
  | cons name names ih =>
      obtain ⟨fresh, unique⟩ := List.nodup_cons.mp unique
      have split := List.filter_append_perm (fun entry => decide (key entry = name))
        (entries.filter fun entry => key entry ∈ name :: names)
      refine List.Perm.trans ?_ split
      rw [List.flatMap_cons, List.filter_filter, List.filter_filter]
      have first : (entries.filter fun entry => key entry = name) =
          entries.filter fun entry =>
            decide (key entry = name) && decide (key entry ∈ name :: names) := by
        apply List.filter_congr
        intro entry _
        by_cases same : key entry = name <;> simp [same]
      have later : (entries.filter fun entry => key entry ∈ names) =
          entries.filter fun entry =>
            !decide (key entry = name) && decide (key entry ∈ name :: names) := by
        apply List.filter_congr
        intro entry _
        by_cases same : key entry = name
        · simp [same, fresh]
        · simp [same]
      rw [← first, ← later]
      exact (ih unique).append_left _

theorem groupBy_perm (key : α → κ) (entries : List α) :
    ((groupBy key entries).flatMap Prod.snd).Perm entries := by
  have grouped := flatMap_filter_perm key entries (Sorting.nodup_eraseDups (entries.map key))
  rw [groupBy, List.flatMap_map]
  refine grouped.trans (List.Perm.of_eq ?_)
  apply List.filter_eq_self.mpr
  intro entry member
  simpa using ⟨entry, member, rfl⟩

/-- `[...new Map(entries).values()]`: one value for each key, the keys in the order first set. -/
def mapValues (entries : List (κ × α)) : List α :=
  (entries.map Prod.fst).eraseDups.filterMap (mapGet entries)

theorem mapValues_of_nodup {entries : List (κ × α)} (unique : (entries.map Prod.fst).Nodup) :
    mapValues entries = entries.map Prod.snd := by
  rw [mapValues, Sorting.eraseDups_eq_self unique, List.filterMap_map,
    ← List.filterMap_eq_map]
  apply List.filterMap_congr
  rintro ⟨key, value⟩ member
  exact mapGet_of_mem unique member

end Kratos.Foundation.Grouping
