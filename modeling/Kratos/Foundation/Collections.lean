/- source: none(language runtime)
   digest: Maps built from entry lists and their lookups. -/

import Mathlib.Data.List.Basic
import Mathlib.Data.List.Nodup

set_option autoImplicit false

namespace Kratos.Foundation.Collections

variable {κ ν : Type} [DecidableEq κ]

/-- `new Map(entries).get(key)`: the last entry of a key wins. -/
def mapGet (entries : List (κ × ν)) (key : κ) : Option ν :=
  (entries.reverse.find? fun entry => decide (entry.1 = key)).map Prod.snd

theorem mapGet_mem {entries : List (κ × ν)} {key : κ} {value : ν}
    (found : mapGet entries key = some value) : (key, value) ∈ entries := by
  obtain ⟨entry, search, rfl⟩ := Option.map_eq_some_iff.mp found
  have member := List.mem_of_find?_eq_some search
  have matched : entry.1 = key := by simpa using List.find?_some search
  subst matched
  exact List.mem_reverse.mp member

theorem mapGet_eq_none_iff {entries : List (κ × ν)} {key : κ} :
    mapGet entries key = none ↔ key ∉ entries.map Prod.fst := by
  simp only [mapGet, Option.map_eq_none_iff, List.find?_eq_none, List.mem_reverse,
    decide_eq_true_eq, List.mem_map, not_exists, not_and]

theorem mapGet_concat (entries : List (κ × ν)) (key : κ) (value : ν) (other : κ) :
    mapGet (entries ++ [(key, value)]) other =
      if key = other then some value else mapGet entries other := by
  rw [mapGet, mapGet, List.reverse_append, List.reverse_singleton, List.singleton_append,
    List.find?_cons]
  by_cases same : key = other
  · simp [same]
  · simp [same]

theorem mapGet_append (entries later : List (κ × ν)) (key : κ) :
    mapGet (entries ++ later) key = (mapGet later key).or (mapGet entries key) := by
  unfold mapGet
  rw [List.reverse_append, List.find?_append]
  cases later.reverse.find? fun entry => decide (entry.1 = key) <;> rfl

theorem mapGet_map {keys : List κ} {key : κ} (value : κ → ν) (member : key ∈ keys) :
    mapGet (keys.map fun other => (other, value other)) key = some (value key) := by
  cases found : mapGet (keys.map fun other => (other, value other)) key with
  | none =>
      refine absurd ?_ (mapGet_eq_none_iff.mp found)
      rw [List.map_map]
      exact List.mem_map_of_mem (f := Prod.fst ∘ fun other => (other, value other)) member
  | some entry =>
      obtain ⟨other, -, same⟩ := List.mem_map.mp (mapGet_mem found)
      injection same with equal values
      rw [← values, equal]

theorem mapGet_of_mem {entries : List (κ × ν)} (unique : (entries.map Prod.fst).Nodup)
    {key : κ} {value : ν} (member : (key, value) ∈ entries) :
    mapGet entries key = some value := by
  cases found : mapGet entries key with
  | none =>
      exact absurd (List.mem_map_of_mem (f := Prod.fst) member) (mapGet_eq_none_iff.mp found)
  | some other =>
      have otherMember := mapGet_mem found
      have equal := List.inj_on_of_nodup_map unique otherMember member rfl
      exact congrArg some (congrArg Prod.snd equal)

/-- `map.set(key, value)`: a key keeps its place. -/
def mapSet (entries : List (κ × ν)) (key : κ) (value : ν) : List (κ × ν) :=
  if key ∈ entries.map Prod.fst then
    entries.map fun entry => if entry.1 = key then (key, value) else entry
  else entries ++ [(key, value)]

theorem keys_mapSet (entries : List (κ × ν)) (key : κ) (value : ν) :
    (mapSet entries key value).map Prod.fst =
      if key ∈ entries.map Prod.fst then entries.map Prod.fst else entries.map Prod.fst ++ [key] := by
  unfold mapSet
  split
  · rw [List.map_map]
    refine List.map_congr_left fun entry _ => ?_
    by_cases same : entry.1 = key <;> simp [same]
  · rw [List.map_append, List.map_singleton]

theorem mem_keys_mapSet {entries : List (κ × ν)} {key other : κ} {value : ν} :
    other ∈ (mapSet entries key value).map Prod.fst ↔ other = key ∨ other ∈ entries.map Prod.fst := by
  rw [keys_mapSet]
  split
  · rename_i present
    refine ⟨.inr, fun either => ?_⟩
    rcases either with rfl | member
    · exact present
    · exact member
  · rw [List.mem_append, List.mem_singleton, or_comm]

theorem nodup_mapSet {entries : List (κ × ν)} (unique : (entries.map Prod.fst).Nodup) (key : κ) (value : ν) :
    ((mapSet entries key value).map Prod.fst).Nodup := by
  rw [keys_mapSet]
  split
  · exact unique
  · rename_i fresh
    refine List.nodup_append.mpr ⟨unique, List.nodup_singleton key, fun other member last ends same => ?_⟩
    obtain rfl := List.mem_singleton.mp ends
    exact fresh (same ▸ member)

theorem mem_mapSet {entries : List (κ × ν)} {key : κ} {value : ν} {entry : κ × ν}
    (member : entry ∈ mapSet entries key value) : entry = (key, value) ∨ entry ∈ entries := by
  unfold mapSet at member
  split at member
  · obtain ⟨old, inside, same⟩ := List.mem_map.mp member
    split at same
    · exact .inl same.symm
    · exact .inr (same ▸ inside)
  · rcases List.mem_append.mp member with inside | fresh
    · exact .inr inside
    · exact .inl (List.mem_singleton.mp fresh)

end Kratos.Foundation.Collections
