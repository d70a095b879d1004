/- source: none(language runtime)
   digest: The places inside a JSON value: what is read there, and what a replacement leaves alone. -/

import Kratos.Foundation.Collections
import Kratos.Foundation.JsonParser
import Mathlib.Data.List.Infix

set_option autoImplicit false

namespace Kratos.Foundation.JsonPlaces

open Foundation.Text Foundation.JsonText Foundation.Collections

/-- The way from a value to one inside it; an array has its indices in decimal for names. -/
abbrev Place := List JsString

/-- The index that a name writes: `String(Number.parseInt(name, 10)) === name`. -/
def readIndex (name : JsString) : Option Nat :=
  if decimal (digitsValue name) = name then some (digitsValue name) else none

/-- The item or the own member under a name. -/
def child (value : Json) (name : JsString) : Option Json :=
  match value with
  | .array items => (readIndex name).bind fun index => items[index]?
  | .object members => mapGet members name
  | _ => none

def valueAt (value : Json) : Place → Option Json
  | [] => some value
  | name :: rest => (child value name).bind fun inner => valueAt inner rest

/-- An item put in another's place, or a member set. -/
def setChild (value : Json) (name : JsString) (inner : Json) : Json :=
  match value with
  | .array items =>
      match readIndex name with
      | some index => .array (items.set index inner)
      | none => .array items
  | .object members => .object (setMember members name inner)
  | scalar => scalar

/-- The value with another one at a place that it has. -/
def replaceAt (value : Json) : Place → Json → Json
  | [], other => other
  | name :: rest, other =>
      match child value name with
      | some inner => setChild value name (replaceAt inner rest other)
      | none => value

/-- The members without the one under a name. -/
def removeMember (members : List (JsString × Json)) (name : JsString) : List (JsString × Json) :=
  members.filter fun member => member.1 != name

theorem readIndex_eq_some {name : JsString} {index : Nat} :
    readIndex name = some index ↔ name = decimal index := by
  rw [readIndex]
  constructor
  · intro found
    split at found
    · rename_i written
      rw [← Option.some.inj found, written]
    · cases found
  · rintro rfl
    rw [digitsValue_decimal, if_pos rfl]

section Members

variable {members : List (JsString × Json)} {name other : JsString} {inner : Json}

theorem mapGet_replaced :
    mapGet (members.map fun member => if member.1 == name then (name, inner) else member) other =
      if name = other then (mapGet members name).map fun _ => inner else mapGet members other := by
  induction members using List.reverseRecOn with
  | nil => simp [mapGet]
  | append_singleton front member ih =>
      rw [List.map_append, List.map_singleton]
      obtain ⟨key, value⟩ := member
      rw [mapGet_concat front key value name, mapGet_concat front key value other]
      by_cases own : key = name
      · subst own
        simp only [beq_self_eq_true, if_true]
        rw [mapGet_concat]
        by_cases same : key = other
        · simp [same]
        · rw [if_neg same, if_neg same, if_neg same, ih, if_neg same]
      · rw [if_neg (by simpa using own), mapGet_concat, ih, if_neg own]
        by_cases same : name = other
        · subst same
          rw [if_pos rfl, if_pos rfl, if_neg own]
        · rw [if_neg same, if_neg same]

theorem mapGet_setMember :
    mapGet (setMember members name inner) other =
      if name = other then some inner else mapGet members other := by
  rw [setMember]
  split
  · rename_i present
    have own : mapGet members name ≠ none := fun absent =>
      mapGet_eq_none_iff.mp absent (by simpa using present)
    obtain ⟨old, found⟩ := Option.ne_none_iff_exists'.mp own
    rw [mapGet_replaced, found, Option.map_some]
  · exact mapGet_concat members name inner other

theorem mapGet_removeMember (apart : other ≠ name) :
    mapGet (removeMember members name) other = mapGet members other := by
  induction members using List.reverseRecOn with
  | nil => rfl
  | append_singleton front member ih =>
      obtain ⟨key, value⟩ := member
      rw [removeMember, List.filter_append] at *
      rw [mapGet_concat]
      by_cases own : key = name
      · subst own
        rw [if_neg (Ne.symm apart)]
        simpa using ih
      · rw [List.filter_cons_of_pos (by simpa using own), List.filter_nil, mapGet_concat, ih]

end Members

section Replacing

variable {value inner other : Json} {name : JsString} {place : Place}

theorem valueAt_append (value : Json) (front back : Place) :
    valueAt value (front ++ back) = (valueAt value front).bind fun inner => valueAt inner back := by
  induction front generalizing value with
  | nil => rfl
  | cons name front ih =>
      rw [List.cons_append, valueAt, valueAt]
      cases child value name with
      | none => rfl
      | some inner => exact ih inner

theorem child_setChild_self (present : (child value name).isSome = true) :
    child (setChild value name inner) name = some inner := by
  cases value with
  | array items =>
      rw [child] at present
      rw [setChild]
      cases found : readIndex name with
      | none => rw [found] at present; cases present
      | some index =>
          rw [found, Option.bind_some] at present
          have inside : index < items.length := by
            by_contra beyond
            rw [List.getElem?_eq_none (by omega)] at present
            cases present
          simp [child, found, inside]
  | object members => rw [setChild, child, mapGet_setMember, if_pos rfl]
  | _ => cases present

theorem child_setChild_other {key : JsString} (apart : key ≠ name) :
    child (setChild value name inner) key = child value key := by
  cases value with
  | array items =>
      rw [setChild]
      cases found : readIndex name with
      | none => rfl
      | some index =>
          simp only [child]
          cases sought : readIndex key with
          | none => rfl
          | some position =>
              have differ : index ≠ position := by
                rintro rfl
                exact apart ((readIndex_eq_some.mp sought).trans (readIndex_eq_some.mp found).symm)
              rw [Option.bind_some, Option.bind_some, List.getElem?_set_ne differ]
  | object members => rw [setChild, child, mapGet_setMember, if_neg (Ne.symm apart)]; rfl
  | _ => rfl

theorem valueAt_replaceAt_below (present : (valueAt value place).isSome = true) (rest : Place) :
    valueAt (replaceAt value place other) (place ++ rest) = valueAt other rest := by
  induction place generalizing value with
  | nil => rfl
  | cons name place ih =>
      rw [valueAt] at present
      cases found : child value name with
      | none => rw [found] at present; cases present
      | some inner =>
          rw [found, Option.bind_some] at present
          rw [List.cons_append, replaceAt, found, valueAt,
            child_setChild_self (by rw [found]; rfl), Option.bind_some, ih present]

theorem valueAt_replaceAt_apart {beside : Place} (notBelow : ¬place <+: beside)
    (notAbove : ¬beside <+: place) :
    valueAt (replaceAt value place other) beside = valueAt value beside := by
  induction place generalizing value beside with
  | nil => exact absurd (List.nil_prefix) notBelow
  | cons name place ih =>
      cases beside with
      | nil => exact absurd (List.nil_prefix) notAbove
      | cons key beside =>
          rw [replaceAt]
          cases found : child value name with
          | none => rfl
          | some inner =>
              rw [valueAt, valueAt]
              by_cases same : key = name
              · subst same
                rw [child_setChild_self (by rw [found]; rfl), found, Option.bind_some,
                  Option.bind_some]
                refine ih (fun below => notBelow ?_) (fun above => notAbove ?_)
                · exact List.cons_prefix_cons.mpr ⟨rfl, below⟩
                · exact List.cons_prefix_cons.mpr ⟨rfl, above⟩
              · rw [child_setChild_other same]

end Replacing

end Kratos.Foundation.JsonPlaces
