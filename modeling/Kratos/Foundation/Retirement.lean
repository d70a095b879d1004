/- source: none(data structure)
   digest: A register of active names and retired names with successors, and its edits. -/

import Mathlib.Data.List.Nodup
import Mathlib.Data.List.Perm.Basic

set_option autoImplicit false

namespace Kratos.Foundation.Retirement

variable {κ : Type}

/-- Active names, and retired names that may point to the name that took their place. -/
structure Register (κ : Type) where
  active : List κ
  retired : List (κ × Option κ)

def Register.names (register : Register κ) : List κ :=
  register.active ++ register.retired.map Prod.fst

/-- No name is listed twice and every successor is a listed name. -/
structure Register.Linked (register : Register κ) : Prop where
  unique : register.names.Nodup
  closed : ∀ entry ∈ register.retired, ∀ successor, entry.2 = some successor →
    successor ∈ register.names

/-- One edit: the names that leave, those of them that are retired, the name that joins and
takes their place, and how many of the oldest retired names are forgotten. -/
structure Edit (κ : Type) where
  leaving : List κ
  retiring : List κ
  joining : Option κ
  forgotten : Nat

theorem Register.Linked.perm {left right : Register κ} (linked : left.Linked)
    (active : left.active.Perm right.active) (retired : left.retired = right.retired) :
    right.Linked := by
  have names : left.names.Perm right.names := by
    rw [names, names, retired]
    exact active.append_right _
  constructor
  · exact names.nodup_iff.mp linked.unique
  · intro entry member successor points
    rw [← retired] at member
    exact names.mem_iff.mp (linked.closed entry member successor points)

def Edit.kept (edit : Edit κ) (register : Register κ) : List (κ × Option κ) :=
  register.retired.drop edit.forgotten

theorem Edit.kept_names_sub {register : Register κ} {edit : Edit κ} (name : κ)
    (kept : name ∈ (edit.kept register).map Prod.fst) :
    name ∈ register.retired.map Prod.fst :=
  ((List.drop_sublist edit.forgotten register.retired).map Prod.fst).subset kept

section Edits

variable [DecidableEq κ]

def Edit.staying (edit : Edit κ) (register : Register κ) : List κ :=
  register.active.filter fun name => name ∉ edit.leaving

def Edit.apply (edit : Edit κ) (register : Register κ) : Register κ where
  active := edit.staying register ++ edit.joining.toList
  retired := edit.kept register ++ edit.retiring.map fun name => (name, edit.joining)

/-- Only active names leave, and only leaving names are retired, once each. -/
structure Edit.Fits (edit : Edit κ) (register : Register κ) : Prop where
  once : edit.retiring.Nodup
  leaves : ∀ name ∈ edit.retiring, name ∈ edit.leaving
  present : ∀ name ∈ edit.leaving, name ∈ register.active

/-- The joining name is new, and no kept entry points to a name that the edit deletes or
forgets. -/
structure Edit.Sound (edit : Edit κ) (register : Register κ) : Prop where
  fresh : ∀ name, edit.joining = some name →
    name ∉ edit.staying register ∧ name ∉ edit.retiring ∧
      name ∉ (edit.kept register).map Prod.fst
  pointed : ∀ entry ∈ edit.kept register, ∀ successor, entry.2 = some successor →
    edit.joining = some successor ∨
      ((successor ∈ edit.leaving → successor ∈ edit.retiring) ∧
        successor ∉ (register.retired.take edit.forgotten).map Prod.fst)

section Linked

variable {register : Register κ} {edit : Edit κ}

theorem Edit.mem_names (name : κ) :
    name ∈ (edit.apply register).names ↔
      name ∈ edit.staying register ∨ edit.joining = some name ∨
        name ∈ (edit.kept register).map Prod.fst ∨ name ∈ edit.retiring := by
  have retiring : ((edit.retiring.map fun name => (name, edit.joining)).map Prod.fst) =
      edit.retiring := by
    rw [List.map_map]
    exact List.map_id _
  rw [Register.names, Edit.apply, List.map_append, retiring]
  simp only [List.mem_append, Option.mem_toList]
  tauto

/-- A name leaves the register exactly when the edit deletes or forgets it. -/
theorem Edit.mem_names_of_listed (linked : register.Linked) (fits : edit.Fits register) {name : κ}
    (listed : name ∈ register.names) :
    name ∈ (edit.apply register).names ↔ edit.joining = some name ∨
      ((name ∈ edit.leaving → name ∈ edit.retiring) ∧
        name ∉ (register.retired.take edit.forgotten).map Prod.fst) := by
  have unique := linked.unique
  rw [Register.names] at unique listed
  have apart := (List.nodup_append.mp unique).2.2
  have split : (register.retired.map Prod.fst) =
      (register.retired.take edit.forgotten).map Prod.fst ++
        (edit.kept register).map Prod.fst := by
    rw [← List.map_append, Edit.kept, List.take_append_drop]
  have retiredOnce := (List.nodup_append.mp unique).2.1
  rw [split] at retiredOnce
  have partsApart := (List.nodup_append.mp retiredOnce).2.2
  rw [Edit.mem_names]
  constructor
  · rintro (stays | joins | kept | retires)
    · have both := List.mem_filter.mp stays
      have notLeaving : name ∉ edit.leaving := by simpa using both.2
      refine .inr ⟨fun leaves => absurd leaves notLeaving, fun forgotten => ?_⟩
      refine apart name both.1 name ?_ rfl
      rw [split]
      exact List.mem_append_left _ forgotten
    · exact .inl joins
    · refine .inr ⟨fun leaves => ?_, fun forgotten => partsApart name forgotten name kept rfl⟩
      exact absurd rfl (apart name (fits.present name leaves) name (Edit.kept_names_sub name kept))
    · refine .inr ⟨fun _ => retires, fun forgotten => ?_⟩
      refine apart name (fits.present name (fits.leaves name retires)) name ?_ rfl
      rw [split]
      exact List.mem_append_left _ forgotten
  · rintro (joins | ⟨deleted, remembered⟩)
    · exact .inr (.inl joins)
    · rcases List.mem_append.mp listed with active | retired
      · by_cases leaves : name ∈ edit.leaving
        · exact .inr (.inr (.inr (deleted leaves)))
        · refine .inl (List.mem_filter.mpr ⟨active, ?_⟩)
          simpa using leaves
      · rw [split] at retired
        rcases List.mem_append.mp retired with forgotten | kept
        · exact absurd forgotten remembered
        · exact .inr (.inr (.inl kept))

/-- No name is listed twice after an edit exactly when the joining name is new. -/
theorem Edit.unique_iff (linked : register.Linked) (fits : edit.Fits register) :
    (edit.apply register).names.Nodup ↔ ∀ name, edit.joining = some name →
      name ∉ edit.staying register ∧ name ∉ edit.retiring ∧
        name ∉ (edit.kept register).map Prod.fst := by
  have unique := linked.unique
  rw [Register.names] at unique
  obtain ⟨activeOnce, retiredOnce, apart⟩ := List.nodup_append.mp unique
  have stayingOnce : (edit.staying register).Nodup := activeOnce.filter _
  have keptOnce : ((edit.kept register).map Prod.fst).Nodup :=
    ((List.drop_sublist edit.forgotten register.retired).map Prod.fst).nodup retiredOnce
  have keptApart : ∀ name ∈ register.active, name ∉ (edit.kept register).map Prod.fst :=
    fun name active kept => apart name active name (Edit.kept_names_sub name kept) rfl
  have rest : ((edit.kept register).map Prod.fst ++ edit.retiring).Nodup := by
    refine List.nodup_append.mpr ⟨keptOnce, fits.once, ?_⟩
    rintro name kept _ retires rfl
    exact keptApart name (fits.present name (fits.leaves name retires)) kept
  have stayingApart : ∀ name ∈ edit.staying register,
      name ∉ (edit.kept register).map Prod.fst ++ edit.retiring := by
    intro name stays member
    have both := List.mem_filter.mp stays
    have notLeaving : name ∉ edit.leaving := by simpa using both.2
    rcases List.mem_append.mp member with kept | retires
    · exact keptApart name both.1 kept
    · exact notLeaving (fits.leaves name retires)
  have others : (edit.staying register ++
      ((edit.kept register).map Prod.fst ++ edit.retiring)).Nodup := by
    refine List.nodup_append.mpr ⟨stayingOnce, rest, ?_⟩
    rintro name stays _ member rfl
    exact stayingApart name stays member
  have names : (edit.apply register).names =
      (edit.staying register ++ edit.joining.toList) ++
        ((edit.kept register).map Prod.fst ++ edit.retiring) := by
    rw [Register.names, Edit.apply, List.map_append, List.map_map]
    simp only [Function.comp_def, List.map_id']
  rw [names]
  cases joins : edit.joining with
  | none =>
      rw [Option.toList_none, List.append_nil]
      exact ⟨fun _ name impossible => (Option.some_ne_none name impossible.symm).elim, fun _ => others⟩
  | some joined =>
      rw [Option.toList_some, List.append_assoc, List.singleton_append, List.nodup_middle,
        List.nodup_cons, List.mem_append, List.mem_append]
      constructor
      · rintro ⟨fresh, -⟩ name equal
        obtain rfl := Option.some.inj equal
        exact ⟨fun stays => fresh (.inl stays), fun retires => fresh (.inr (.inr retires)),
          fun kept => fresh (.inr (.inl kept))⟩
      · intro fresh
        obtain ⟨notStaying, notRetiring, notKept⟩ := fresh joined rfl
        refine ⟨?_, others⟩
        rintro (stays | kept | retires)
        · exact notStaying stays
        · exact notKept kept
        · exact notRetiring retires

theorem Edit.linked_iff (linked : register.Linked) (fits : edit.Fits register) :
    (edit.apply register).Linked ↔ edit.Sound register := by
  have before : ∀ entry ∈ edit.kept register, ∀ successor, entry.2 = some successor →
      successor ∈ register.names := fun entry kept =>
    linked.closed entry (List.mem_of_mem_drop kept)
  constructor
  · intro after
    refine ⟨(Edit.unique_iff linked fits).mp after.unique, ?_⟩
    intro entry kept successor points
    have reached := after.closed entry (List.mem_append_left _ kept) successor points
    exact (Edit.mem_names_of_listed linked fits (before entry kept successor points)).mp reached
  · intro sound
    refine ⟨(Edit.unique_iff linked fits).mpr sound.fresh, ?_⟩
    intro entry member successor points
    rcases List.mem_append.mp member with kept | retires
    · apply (Edit.mem_names_of_listed linked fits (before entry kept successor points)).mpr
      exact sound.pointed entry kept successor points
    · obtain ⟨name, -, rfl⟩ := List.mem_map.mp retires
      exact (Edit.mem_names successor).mpr (.inr (.inl points))

end Linked

end Edits

end Kratos.Foundation.Retirement
