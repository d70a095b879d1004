/- source: none(language runtime)
   digest: JSON values alike up to the order of members, and the arrangement of members that decides it. -/

import Kratos.Foundation.FirstBest
import Kratos.Foundation.JsonPlaces
import Mathlib.Data.List.Pairwise

set_option autoImplicit false

namespace Kratos.Foundation.JsonAlike

open Foundation.Text Foundation.JsonText Foundation.Collections Foundation.JsonPlaces
open Foundation.FirstBest (Consistent)

inductive Shape
  | null | array | object
  | bool (value : Bool)
  | integer (value : Int)
  | double (literal : JsString)
  | string (value : JsString)
  deriving DecidableEq

def shape : Json → Shape
  | .null => .null
  | .bool value => .bool value
  | .integer value => .integer value
  | .double literal => .double literal
  | .string value => .string value
  | .array _ => .array
  | .object _ => .object

/-- Both are missing or show the same at every place. -/
def SlotAlike (left right : Option Json) : Prop :=
  ∀ place : Place, (left.bind fun value => valueAt value place).map shape =
    (right.bind fun value => valueAt value place).map shape

/-- The same JSON value, whatever the order of the members of its objects. -/
def Alike (left right : Json) : Prop :=
  ∀ place : Place, (valueAt left place).map shape = (valueAt right place).map shape

section Alike

variable {left right : Json}

theorem Alike.refl (value : Json) : Alike value value := fun _ => rfl

theorem Alike.symm (alike : Alike left right) : Alike right left := fun place => (alike place).symm

theorem Alike.trans {middle : Json} (first : Alike left middle) (second : Alike middle right) :
    Alike left right :=
  fun place => (first place).trans (second place)

theorem alike_iff :
    Alike left right ↔
      shape left = shape right ∧ ∀ name, SlotAlike (child left name) (child right name) := by
  constructor
  · intro alike
    exact ⟨Option.some.inj (alike []), fun name place => alike (name :: place)⟩
  · rintro ⟨same, parts⟩ (_ | ⟨name, place⟩)
    · exact congrArg some same
    · exact parts name place

theorem slotAlike_iff {first second : Option Json} :
    SlotAlike first second ↔ (first = none ∧ second = none) ∨
      ∃ one two, first = some one ∧ second = some two ∧ Alike one two := by
  constructor
  · intro alike
    have shown := alike []
    cases first with
    | none =>
        cases second with
        | none => exact .inl ⟨rfl, rfl⟩
        | some two => cases shown
    | some one =>
        cases second with
        | none => cases shown
        | some two => exact .inr ⟨one, two, rfl, rfl, alike⟩
  · rintro (⟨rfl, rfl⟩ | ⟨one, two, rfl, rfl, alike⟩)
    · exact fun _ => rfl
    · exact alike

theorem alike_arrays {items others : List Json} :
    Alike (.array items) (.array others) ↔
      ∀ index : Nat, SlotAlike items[index]? others[index]? := by
  rw [alike_iff]
  simp only [shape, true_and, child]
  constructor
  · intro parts index
    have part := parts (decimal index)
    rw [readIndex_eq_some.mpr rfl] at part
    exact part
  · intro parts name
    cases found : readIndex name with
    | none => exact fun _ => rfl
    | some index => exact parts index

theorem alike_objects {members others : List (JsString × Json)} :
    Alike (.object members) (.object others) ↔
      ∀ name, SlotAlike (mapGet members name) (mapGet others name) := by
  rw [alike_iff]
  simp only [shape, true_and, child]

end Alike

mutual

/-- How far the containers of a value are nested. -/
def depth : Json → Nat
  | .array items => itemsDepth items + 1
  | .object members => membersDepth members + 1
  | .null => 0
  | .bool _ => 0
  | .integer _ => 0
  | .double _ => 0
  | .string _ => 0

def itemsDepth : List Json → Nat
  | [] => 0
  | item :: rest => max (depth item) (itemsDepth rest)

def membersDepth : List (JsString × Json) → Nat
  | [] => 0
  | (_, value) :: rest => max (depth value) (membersDepth rest)

end

section Depth

theorem depth_item {items : List Json} {item : Json} (member : item ∈ items) :
    depth item < depth (.array items) := by
  rw [depth]
  induction items with
  | nil => cases member
  | cons first rest ih =>
      rw [itemsDepth]
      rcases List.mem_cons.mp member with rfl | later
      · omega
      · have := ih later
        omega

theorem depth_member {members : List (JsString × Json)} {member : JsString × Json}
    (listed : member ∈ members) : depth member.2 < depth (.object members) := by
  rw [depth]
  induction members with
  | nil => cases listed
  | cons first rest ih =>
      rw [membersDepth]
      rcases List.mem_cons.mp listed with rfl | later
      · show depth member.2 < _
        omega
      · have := ih later
        omega

theorem depth_child {value inner : Json} {name : JsString} (found : child value name = some inner) :
    depth inner < depth value := by
  cases value with
  | array items =>
      obtain ⟨index, -, inside⟩ := Option.bind_eq_some_iff.mp found
      exact depth_item (List.mem_of_getElem? inside)
  | object members => exact depth_member (mapGet_mem found)
  | _ => cases found

end Depth

/-- What holds of a value and of every value inside it. -/
def Everywhere (holds : Json → Prop) (value : Json) : Prop :=
  ∀ (place : Place) inner, valueAt value place = some inner → holds inner

theorem Everywhere.self {holds : Json → Prop} {value : Json} (all : Everywhere holds value) :
    holds value :=
  all [] value rfl

theorem Everywhere.child {holds : Json → Prop} {value inner : Json} {name : JsString}
    (all : Everywhere holds value) (found : JsonPlaces.child value name = some inner) :
    Everywhere holds inner := by
  intro place deep reached
  exact all (name :: place) deep (by rw [valueAt, found, Option.bind_some, reached])

section Arrangement

variable (before : JsString → JsString → Bool)

def arrange {α : Type} (members : List (JsString × α)) : List (JsString × α) :=
  members.mergeSort fun left right => before left.1 right.1

mutual

/-- The value with the members of every object sorted. -/
def arranged : Json → Json
  | .array items => .array (arrangedItems items)
  | .object members => .object (arrange before (arrangedMembers members))
  | .null => .null
  | .bool value => .bool value
  | .integer value => .integer value
  | .double literal => .double literal
  | .string value => .string value

def arrangedItems : List Json → List Json
  | [] => []
  | item :: rest => arranged item :: arrangedItems rest

def arrangedMembers : List (JsString × Json) → List (JsString × Json)
  | [] => []
  | (name, value) :: rest => (name, arranged value) :: arrangedMembers rest

end

/-- No two members of an object have names that the order puts beside each other. -/
def NamesApart : Json → Prop
  | .object members => (members.map Prod.fst).Pairwise fun left right =>
      ¬(before left right = true ∧ before right left = true)
  | _ => True

variable {before}

theorem arrangedItems_map (items : List Json) :
    arrangedItems before items = items.map (arranged before) := by
  induction items with
  | nil => rfl
  | cons item rest ih => rw [arrangedItems, ih, List.map_cons]

theorem arrangedMembers_map (members : List (JsString × Json)) :
    arrangedMembers before members =
      members.map fun member => (member.1, arranged before member.2) := by
  induction members with
  | nil => rfl
  | cons member rest ih =>
      obtain ⟨name, value⟩ := member
      rw [arrangedMembers, ih, List.map_cons]

theorem shape_arranged (value : Json) : shape (arranged before value) = shape value := by
  cases value <;> rfl

theorem NamesApart.nodup (consistent : Consistent before) {members : List (JsString × Json)}
    (apart : NamesApart before (.object members)) : (members.map Prod.fst).Nodup :=
  List.Pairwise.imp (fun differ same => differ (by
    subst same
    exact ⟨consistent.refl _, consistent.refl _⟩)) apart

theorem mapGet_perm {members others : List (JsString × Json)}
    (unique : (members.map Prod.fst).Nodup) (perm : members.Perm others) (name : JsString) :
    mapGet members name = mapGet others name := by
  have otherUnique : (others.map Prod.fst).Nodup := (perm.map Prod.fst).nodup_iff.mp unique
  cases found : mapGet members name with
  | some value => exact (mapGet_of_mem otherUnique (perm.mem_iff.mp (mapGet_mem found))).symm
  | none =>
      refine (mapGet_eq_none_iff.mpr fun member => mapGet_eq_none_iff.mp found ?_).symm
      exact (perm.map Prod.fst).mem_iff.mpr member

/-- Sorting is on names alone, so it commutes with whatever is done to the values. -/
theorem arrange_map {α β : Type} (change : α → β) (members : List (JsString × α)) :
    (arrange before members).map (fun member => (member.1, change member.2)) =
      arrange before (members.map fun member => (member.1, change member.2)) :=
  List.map_mergeSort fun _ _ _ _ => rfl

mutual

theorem WellFormed.arranged :
    ∀ {value : Json}, WellFormed value → WellFormed (JsonAlike.arranged before value)
  | .null, _ => by rw [JsonAlike.arranged, WellFormed] <;> simp
  | .bool _, _ => by rw [JsonAlike.arranged, WellFormed] <;> simp
  | .integer _, formed => by rwa [JsonAlike.arranged]
  | .double _, formed => by rwa [JsonAlike.arranged]
  | .string _, _ => by rw [JsonAlike.arranged, WellFormed] <;> simp
  | .array items, formed => by
      rw [WellFormed] at formed
      rw [JsonAlike.arranged, WellFormed]
      exact WellFormedItems.arranged formed
  | .object members, formed => by
      rw [WellFormed] at formed
      rw [JsonAlike.arranged, WellFormed]
      have perm := List.mergeSort_perm (arrangedMembers before members)
        fun left right => before left.1 right.1
      have names : (arrangedMembers before members).map Prod.fst = members.map Prod.fst := by
        rw [arrangedMembers_map, List.map_map]
        rfl
      refine ⟨(perm.map Prod.fst).nodup_iff.mpr (names ▸ formed.1), ?_⟩
      have each := (wellFormedMembers_iff _).mp (WellFormedMembers.arranged formed.2)
      exact (wellFormedMembers_iff _).mpr fun member listed => each member (perm.mem_iff.mp listed)

theorem WellFormedItems.arranged :
    ∀ {items : List Json}, WellFormedItems items → WellFormedItems (arrangedItems before items)
  | [], _ => by rw [arrangedItems, WellFormedItems]; trivial
  | item :: rest, formed => by
      rw [WellFormedItems] at formed
      rw [arrangedItems, WellFormedItems]
      exact ⟨WellFormed.arranged formed.1, WellFormedItems.arranged formed.2⟩

theorem WellFormedMembers.arranged :
    ∀ {members : List (JsString × Json)}, WellFormedMembers members →
      WellFormedMembers (arrangedMembers before members)
  | [], _ => by rw [arrangedMembers, WellFormedMembers]; trivial
  | (name, value) :: rest, formed => by
      rw [WellFormedMembers] at formed
      rw [arrangedMembers, WellFormedMembers]
      exact ⟨WellFormed.arranged formed.1, WellFormedMembers.arranged formed.2⟩

end

theorem mapGet_mapped (change : Json → Json) (members : List (JsString × Json)) (name : JsString) :
    mapGet (members.map fun member => (member.1, change member.2)) name =
      (mapGet members name).map change := by
  induction members using List.reverseRecOn with
  | nil => rfl
  | append_singleton front member ih =>
      obtain ⟨key, value⟩ := member
      rw [List.map_append, List.map_singleton, mapGet_concat, mapGet_concat, ih]
      split <;> rfl

theorem child_arranged (consistent : Consistent before) {value : Json}
    (apart : NamesApart before value) (name : JsString) :
    child (arranged before value) name = (child value name).map (arranged before) := by
  cases value with
  | array items =>
      simp only [arranged, arrangedItems_map, child, List.getElem?_map]
      cases readIndex name <;> rfl
  | object members =>
      simp only [arranged, arrangedMembers_map, child]
      rw [← mapGet_mapped]
      refine (mapGet_perm ?_ (List.mergeSort_perm _ _).symm name).symm
      rw [List.map_map]
      exact apart.nodup consistent
  | _ => rfl

theorem alike_arranged (consistent : Consistent before) {value : Json}
    (apart : Everywhere (NamesApart before) value) : Alike (arranged before value) value := by
  intro place
  induction place generalizing value with
  | nil => exact congrArg some (shape_arranged value)
  | cons name place ih =>
      rw [valueAt, valueAt, child_arranged consistent apart.self]
      cases found : child value name with
      | none => rfl
      | some inner => exact ih (apart.child found)

end Arrangement

section Everywhere

variable {holds : Json → Prop}

theorem everywhere_iff {value : Json} :
    Everywhere holds value ↔
      holds value ∧ ∀ name inner, child value name = some inner → Everywhere holds inner := by
  refine ⟨fun all => ⟨all.self, fun _ _ found => all.child found⟩, fun ⟨here, parts⟩ => ?_⟩
  intro place inner reached
  cases place with
  | nil => exact Option.some.inj reached ▸ here
  | cons name place =>
      obtain ⟨part, found, deeper⟩ := Option.bind_eq_some_iff.mp reached
      exact parts name part found place inner deeper

theorem everywhere_object {members : List (JsString × Json)} (here : holds (.object members))
    (parts : ∀ member ∈ members, Everywhere holds member.2) : Everywhere holds (.object members) :=
  everywhere_iff.mpr ⟨here, fun _ _ found => parts _ (mapGet_mem found)⟩

theorem everywhere_array {items : List Json} (here : holds (.array items))
    (parts : ∀ item ∈ items, Everywhere holds item) : Everywhere holds (.array items) := by
  refine everywhere_iff.mpr ⟨here, fun _ _ found => ?_⟩
  obtain ⟨index, -, inside⟩ := Option.bind_eq_some_iff.mp found
  exact parts _ (List.mem_of_getElem? inside)

end Everywhere

theorem wellFormedItems_iff (items : List Json) :
    WellFormedItems items ↔ ∀ item ∈ items, WellFormed item := by
  induction items with
  | nil => simp [WellFormedItems]
  | cons item items ih => simp [WellFormedItems, ih]

section Deciding

variable {before : JsString → JsString → Bool} {left right : Json}

theorem Everywhere.item {holds : Json → Prop} {items : List Json} {item : Json}
    (all : Everywhere holds (.array items)) (member : item ∈ items) : Everywhere holds item := by
  obtain ⟨index, inside⟩ := List.mem_iff_getElem?.mp member
  have found : JsonPlaces.child (.array items) (decimal index) = some item := by
    rw [JsonPlaces.child, readIndex_eq_some.mpr rfl, Option.bind_some, inside]
  exact all.child found

theorem Everywhere.member {holds : Json → Prop} {members : List (JsString × Json)}
    {member : JsString × Json} (all : Everywhere holds (.object members))
    (unique : (members.map Prod.fst).Nodup) (listed : member ∈ members) :
    Everywhere holds member.2 :=
  all.child (mapGet_of_mem unique listed)

/-- Sorted members with the same values under the same names are the same list. -/
theorem arrange_eq {members others : List (JsString × Json)} (consistent : Consistent before)
    (apart : NamesApart before (.object members)) (otherApart : NamesApart before (.object others))
    (agree : ∀ name, mapGet members name = mapGet others name) :
    arrange before members = arrange before others := by
  have unique := apart.nodup consistent
  have otherUnique := otherApart.nodup consistent
  have perm : members.Perm others := by
    rw [List.perm_ext_iff_of_nodup (List.Nodup.of_map _ unique) (List.Nodup.of_map _ otherUnique)]
    intro member
    constructor
    · exact fun listed => mapGet_mem ((agree member.1).symm.trans (mapGet_of_mem unique listed))
    · exact fun listed => mapGet_mem ((agree member.1).trans (mapGet_of_mem otherUnique listed))
  have sorted : ∀ list : List (JsString × Json),
      (arrange before list).Pairwise fun left right => before left.1 right.1 = true :=
    List.pairwise_mergeSort (fun a b c => consistent.trans a.1 b.1 c.1)
      fun a b => consistent.total a.1 b.1
  refine List.Perm.eq_of_pairwise ?_ (sorted members) (sorted others)
    (((List.mergeSort_perm _ _).trans perm).trans (List.mergeSort_perm _ _).symm)
  intro one two first second forward backward
  have listed : one ∈ members := (List.mergeSort_perm _ _).mem_iff.mp first
  have otherListed : two ∈ members :=
    perm.mem_iff.mpr ((List.mergeSort_perm _ _).mem_iff.mp second)
  by_contra differ
  have names : one.1 ≠ two.1 := fun equal =>
    differ (List.inj_on_of_nodup_map unique listed otherListed equal)
  have symmetric : Std.Symm fun left right : JsString =>
      ¬(before left right = true ∧ before right left = true) :=
    ⟨fun _ _ refuse both => refuse both.symm⟩
  exact List.Pairwise.forall apart (List.mem_map_of_mem listed) (List.mem_map_of_mem otherListed)
    names ⟨forward, backward⟩

theorem arranged_eq_of_alike (consistent : Consistent before)
    (leftApart : Everywhere (NamesApart before) left)
    (rightApart : Everywhere (NamesApart before) right) (alike : Alike left right) :
    arranged before left = arranged before right := by
  induction size : depth left using Nat.strong_induction_on generalizing left right with
  | _ n ih =>
    have slots : ∀ name, SlotAlike (child left name) (child right name) →
        (child left name).map (arranged before) = (child right name).map (arranged before) := by
      intro name slot
      rcases slotAlike_iff.mp slot with ⟨first, second⟩ | ⟨one, two, first, second, inner⟩
      · rw [first, second]
      · rw [first, second, Option.map_some, Option.map_some,
          ih (depth one) (size ▸ depth_child first) (leftApart.child first)
            (rightApart.child second) inner rfl]
    obtain ⟨shown, parts⟩ := alike_iff.mp alike
    cases left with
    | array items =>
        cases right with
        | array others =>
            rw [arranged, arranged, arrangedItems_map, arrangedItems_map]
            refine congrArg Json.array (List.ext_getElem? fun index => ?_)
            have slot := slots (decimal index) (parts _)
            rw [child, child, readIndex_eq_some.mpr rfl] at slot
            rw [List.getElem?_map, List.getElem?_map]
            exact slot
        | _ => cases shown
    | object members =>
        cases right with
        | object others =>
            rw [arranged, arranged, arrangedMembers_map, arrangedMembers_map]
            refine congrArg Json.object (arrange_eq consistent ?_ ?_ fun name => ?_)
            · rw [NamesApart, List.map_map]
              exact leftApart.self
            · rw [NamesApart, List.map_map]
              exact rightApart.self
            · rw [mapGet_mapped, mapGet_mapped]
              exact slots name (parts name)
        | _ => cases shown
    | null =>
        cases right with
        | null => rfl
        | _ => cases shown
    | bool value =>
        cases right with
        | bool other => rw [Shape.bool.inj shown]
        | _ => cases shown
    | integer value =>
        cases right with
        | integer other => rw [Shape.integer.inj shown]
        | _ => cases shown
    | double literal =>
        cases right with
        | double other => rw [Shape.double.inj shown]
        | _ => cases shown
    | string value =>
        cases right with
        | string other => rw [Shape.string.inj shown]
        | _ => cases shown

/-- Values whose names the order tells apart are alike when their arrangements are equal. -/
theorem arranged_eq_iff (consistent : Consistent before)
    (leftApart : Everywhere (NamesApart before) left)
    (rightApart : Everywhere (NamesApart before) right) :
    arranged before left = arranged before right ↔ Alike left right := by
  constructor
  · intro equal
    have first := alike_arranged consistent leftApart
    rw [equal] at first
    exact first.symm.trans (alike_arranged consistent rightApart)
  · exact arranged_eq_of_alike consistent leftApart rightApart

end Deciding

end Kratos.Foundation.JsonAlike
