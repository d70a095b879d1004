/- source: domain/extensions/policy-packs.ts
   digest: Chains of profiles, what is inherited along them, and when the resolution refuses. -/

import Kratos.Extensions.PolicyPacks
import Mathlib.Data.Fintype.Card
import Mathlib.Order.WellFounded

set_option autoImplicit false

namespace Kratos.Extensions

open Relation
open Foundation.Text Foundation.Collections

variable {profiles : List RigorProfile}

/-- The profile that another names as the one it extends. -/
def Extends (profiles : List RigorProfile) (child parent : RigorProfile) : Prop :=
  ∃ parentId, child.extendsId = some parentId ∧ profileOf profiles parentId = some parent

/-- A profile that extends one the pack does not hold. -/
def NamesUnknown (profiles : List RigorProfile) (profile : RigorProfile) : Prop :=
  ∃ parentId, profile.extendsId = some parentId ∧ profileOf profiles parentId = none

/-- What a profile asks for with all that it inherits. -/
inductive Resolves (profiles : List RigorProfile) : RigorProfile → RigorRequirements → Prop
  | root {profile : RigorProfile} (ends : profile.extendsId = none) :
      Resolves profiles profile profile.requirements
  | inherit {child parent : RigorProfile} {inherited : RigorRequirements}
      (step : Extends profiles child parent) (above : Resolves profiles parent inherited) :
      Resolves profiles child (mergeRequirements inherited child.requirements)

/-- Some profile of the chain is its own ancestor. -/
def Cyclic (profiles : List RigorProfile) (profile : RigorProfile) : Prop :=
  ∃ other, ReflTransGen (Extends profiles) profile other ∧ TransGen (Extends profiles) other other

/-- Some profile of the chain names an unknown one. -/
def Dangling (profiles : List RigorProfile) (profile : RigorProfile) : Prop :=
  ∃ other, ReflTransGen (Extends profiles) profile other ∧ NamesUnknown profiles other

theorem profileOf_spec {id : JsString} {profile : RigorProfile}
    (found : profileOf profiles id = some profile) : profile.id = id ∧ profile ∈ profiles := by
  obtain ⟨other, member, same⟩ := List.mem_map.mp (mapGet_mem found)
  obtain ⟨rfl, rfl⟩ := Prod.mk.inj same
  exact ⟨rfl, member⟩

theorem Extends.unique {child parent other : RigorProfile} (first : Extends profiles child parent)
    (second : Extends profiles child other) : parent = other := by
  obtain ⟨id, named, found⟩ := first
  obtain ⟨otherId, otherNamed, otherFound⟩ := second
  rw [named] at otherNamed
  cases otherNamed
  rw [found] at otherFound
  exact Option.some.inj otherFound

private theorem not_rel_of_acc {α : Type} {r : α → α → Prop} {a : α} (ends : Acc r a) : ¬ r a a := by
  induction ends with
  | intro a _ ih => exact fun related => ih a related related

section Meaning

variable {profile parent other : RigorProfile} {requirements inherited : RigorRequirements}

theorem Resolves.inherited_le (resolved : Resolves profiles profile requirements)
    (step : Extends profiles profile parent) :
    ∃ inherited, Resolves profiles parent inherited ∧ inherited ≤ requirements := by
  cases resolved with
  | root ends =>
      obtain ⟨id, named, -⟩ := step
      rw [ends] at named
      cases named
  | inherit own above =>
      obtain rfl := own.unique step
      exact ⟨_, above, (mergeRequirements_le_iff.mp (le_refl _)).1⟩

theorem Resolves.unique (first : Resolves profiles profile requirements)
    (second : Resolves profiles profile inherited) : requirements = inherited := by
  induction first generalizing inherited with
  | root ends =>
      cases second with
      | root => rfl
      | inherit step above =>
          obtain ⟨id, named, -⟩ := step
          rw [ends] at named
          cases named
  | inherit step above ih =>
      cases second with
      | root ends =>
          obtain ⟨id, named, -⟩ := step
          rw [ends] at named
          cases named
      | inherit own other =>
          obtain rfl := own.unique step
          rw [ih other]

theorem Resolves.ancestor (resolved : Resolves profiles profile requirements)
    (reach : ReflTransGen (Extends profiles) profile other) :
    ∃ inherited, Resolves profiles other inherited := by
  induction reach with
  | refl => exact ⟨requirements, resolved⟩
  | tail _ step ih =>
      obtain ⟨above, held⟩ := ih
      obtain ⟨inherited, next, -⟩ := held.inherited_le step
      exact ⟨inherited, next⟩

theorem Resolves.acc (resolved : Resolves profiles profile requirements) :
    Acc (flip (Extends profiles)) profile := by
  induction resolved with
  | root ends =>
      refine ⟨_, fun parent step => ?_⟩
      obtain ⟨id, named, -⟩ := step
      rw [ends] at named
      cases named
  | inherit step above ih =>
      refine ⟨_, fun other own => ?_⟩
      obtain rfl := step.unique own
      exact ih

theorem Resolves.not_refused (resolved : Resolves profiles profile requirements) :
    ¬ (Cyclic profiles profile ∨ Dangling profiles profile) := by
  rintro (⟨other, reach, cycle⟩ | ⟨other, reach, id, named, absent⟩)
  · obtain ⟨inherited, held⟩ := resolved.ancestor reach
    have ends : Acc (TransGen (flip (Extends profiles))) other := held.acc.transGen
    exact not_rel_of_acc ends (transGen_swap.mpr cycle)
  · obtain ⟨inherited, held⟩ := resolved.ancestor reach
    cases held with
    | root ends =>
        rw [ends] at named
        cases named
    | inherit step above =>
        obtain ⟨parentId, other, found⟩ := step
        rw [named] at other
        cases other
        rw [absent] at found
        cases found

end Meaning

section Resolution

/-- The pack finds the profile under its own id. -/
def Listed (profiles : List RigorProfile) (profile : RigorProfile) : Prop :=
  profileOf profiles profile.id = some profile

theorem listed_of_found {id : JsString} {profile : RigorProfile}
    (found : profileOf profiles id = some profile) : Listed profiles profile := by
  rw [Listed, (profileOf_spec found).1]
  exact found

/-- The profiles being visited: different ones of the pack, each a descendant of the next one. -/
structure Visiting (profiles : List RigorProfile) (visiting : List JsString)
    (profile : RigorProfile) : Prop where
  distinct : visiting.Nodup
  known : visiting ⊆ profiles.map RigorProfile.id
  leads : ∀ id ∈ visiting, ∃ below, profileOf profiles id = some below ∧
    TransGen (Extends profiles) below profile

theorem Visiting.step {visiting : List JsString} {profile parent : RigorProfile}
    (held : Visiting profiles visiting profile) (listed : Listed profiles profile)
    (fresh : profile.id ∉ visiting) (up : Extends profiles profile parent) :
    Visiting profiles (profile.id :: visiting) parent := by
  refine ⟨List.nodup_cons.mpr ⟨fresh, held.distinct⟩, ?_, ?_⟩
  · rintro id member
    rcases List.mem_cons.mp member with rfl | inside
    · exact List.mem_map_of_mem (profileOf_spec listed).2
    · exact held.known inside
  · intro id member
    rcases List.mem_cons.mp member with rfl | inside
    · exact ⟨profile, listed, .single up⟩
    · obtain ⟨below, found, reach⟩ := held.leads id inside
      exact ⟨below, found, reach.tail up⟩

/-- With fuel for every profile not yet visited, the resolution ends: with all that is inherited,
or with a refusal at a cycle or an unknown profile. -/
theorem resolveRequirements_spec (fuel : Nat) (profile : RigorProfile) (visiting : List JsString)
    (listed : Listed profiles profile) (held : Visiting profiles visiting profile)
    (enough : profiles.length + 1 ≤ fuel + visiting.length) :
    (∃ requirements, resolveRequirements profiles fuel profile visiting = some (some requirements) ∧
      Resolves profiles profile requirements) ∨
    (resolveRequirements profiles fuel profile visiting = some none ∧
      (Cyclic profiles profile ∨ Dangling profiles profile)) := by
  have bound : visiting.length ≤ profiles.length := by
    have short := (List.subperm_of_subset held.distinct held.known).length_le
    rwa [List.length_map] at short
  induction fuel generalizing profile visiting with
  | zero => omega
  | succ fuel ih =>
      rw [resolveRequirements]
      by_cases seen : profile.id ∈ visiting
      · rw [if_pos seen]
        obtain ⟨below, found, reach⟩ := held.leads _ seen
        rw [listed] at found
        cases found
        exact .inr ⟨rfl, .inl ⟨profile, .refl, reach⟩⟩
      · rw [if_neg seen]
        cases named : profile.extendsId with
        | none => exact .inl ⟨_, rfl, .root named⟩
        | some parentId =>
            cases found : profileOf profiles parentId with
            | none => exact .inr ⟨by simp only [found], .inr ⟨profile, .refl, parentId, named, found⟩⟩
            | some parent =>
                have up : Extends profiles profile parent := ⟨parentId, named, found⟩
                have next := held.step listed seen up
                have short := (List.subperm_of_subset next.distinct next.known).length_le
                rw [List.length_map] at short
                have later := ih parent (profile.id :: visiting) (listed_of_found found) next
                  (by rw [List.length_cons]; omega) short
                simp only [found]
                rcases later with ⟨inherited, ends, above⟩ | ⟨ends, refused⟩
                · exact .inl ⟨_, by rw [ends]; rfl, .inherit up above⟩
                · refine .inr ⟨by rw [ends]; rfl, ?_⟩
                  rcases refused with ⟨other, reach, cycle⟩ | ⟨other, reach, unknown⟩
                  · exact .inl ⟨other, .head up reach, cycle⟩
                  · exact .inr ⟨other, .head up reach, unknown⟩

variable {profile : RigorProfile}

theorem resolve_from_start (listed : Listed profiles profile) :
    (∃ requirements,
      resolveRequirements profiles (profiles.length + 1) profile [] = some (some requirements) ∧
        Resolves profiles profile requirements) ∨
    (resolveRequirements profiles (profiles.length + 1) profile [] = some none ∧
      (Cyclic profiles profile ∨ Dangling profiles profile)) :=
  resolveRequirements_spec _ profile [] listed
    ⟨List.nodup_nil, List.nil_subset _, fun _ member => by cases member⟩ (Nat.le_refl _)

/-- The resolution of a profile of the pack yields exactly what the profile inherits. -/
theorem resolve_eq_some_iff (listed : Listed profiles profile) (requirements : RigorRequirements) :
    resolveRequirements profiles (profiles.length + 1) profile [] = some (some requirements) ↔
      Resolves profiles profile requirements := by
  rcases resolve_from_start listed with ⟨found, ends, resolved⟩ | ⟨ends, refused⟩
  · rw [ends]
    constructor
    · intro same
      cases same
      exact resolved
    · intro other
      rw [resolved.unique other]
  · rw [ends]
    constructor
    · intro same
      cases same
    · exact fun resolved => absurd refused resolved.not_refused

theorem resolve_eq_none_iff (listed : Listed profiles profile) :
    resolveRequirements profiles (profiles.length + 1) profile [] = some none ↔
      Cyclic profiles profile ∨ Dangling profiles profile := by
  rcases resolve_from_start listed with ⟨found, ends, resolved⟩ | ⟨ends, refused⟩
  · rw [ends]
    constructor
    · intro same
      cases same
    · exact fun refused => absurd refused resolved.not_refused
  · exact ⟨fun _ => refused, fun _ => ends⟩

end Resolution

end Kratos.Extensions
