/- source: none(general)
   digest: Typed readings of JSON values that do not depend on the order of members. -/

import Kratos.Foundation.Collections
import Kratos.Schema.CanonicalJson

set_option autoImplicit false

namespace Kratos.Schema

open Foundation.Text Foundation.JsonText Foundation.Collections

/-- Two values that differ in the order of their members alone. -/
def SameValue (left right : Json) : Prop := canonicalForm left = canonicalForm right

/-- A type with a JSON form: whatever agrees with the form of a value reads as that value. -/
structure Codec (α : Type) where
  encode : α → Json
  decode : Json → Option α
  decode_same : ∀ a json, SameValue json (encode a) → decode json = some a

variable {α β : Type}

theorem Codec.decode_encode (codec : Codec α) (a : α) : codec.decode (codec.encode a) = some a :=
  codec.decode_same a _ rfl

theorem Codec.encode_injective (codec : Codec α) {a b : α}
    (same : SameValue (codec.encode a) (codec.encode b)) : a = b := by
  have left := codec.decode_encode a
  rw [codec.decode_same b _ same] at left
  exact (Option.some.inj left).symm

theorem sameValue_canonicalForm (json : Json) : SameValue (canonicalForm json) json :=
  canonicalForm_idem json

section Scalars

def decodeText : Json → Option JsString
  | .string value => some value
  | _ => none

def text : Codec JsString where
  encode := .string
  decode := decodeText
  decode_same := by
    intro value json same
    cases json <;> simp_all [SameValue, canonicalForm, decodeText]

def decodeNatural : Json → Option Nat
  | .integer (.ofNat value) => some value
  | _ => none

def natural : Codec Nat where
  encode value := .integer value
  decode := decodeNatural
  decode_same := by
    intro value json same
    cases json with
    | integer other =>
        simp only [SameValue, canonicalForm, Json.integer.injEq] at same
        subst same
        rfl
    | _ => simp [SameValue, canonicalForm] at same

/-- A closed vocabulary, read back from the text of each of its values. -/
def enumeration (values : List α) (name : α → JsString) (complete : ∀ a, a ∈ values)
    (distinct : (values.map name).Nodup) : Codec α where
  encode a := .string (name a)
  decode json := (decodeText json).bind fun word => values.find? fun a => decide (name a = word)
  decode_same := by
    intro a json same
    have read : decodeText json = some (name a) := text.decode_same (name a) json same
    rw [read, Option.bind_some]
    cases found : values.find? fun b => decide (name b = name a) with
    | none =>
        have absent := List.find?_eq_none.mp found a (complete a)
        simp at absent
    | some b =>
        have matched : name b = name a := by simpa using List.find?_some found
        rw [List.inj_on_of_nodup_map distinct (complete b) (complete a) matched]

def decodeNullable (decode : Json → Option α) : Json → Option (Option α)
  | .null => some none
  | json => (decode json).map some

def encodeNullable (encode : α → Json) : Option α → Json
  | none => .null
  | some a => encode a

/-- `null` or a value whose form is never `null`. -/
def nullable (codec : Codec α) (solid : ∀ a, codec.encode a ≠ .null) : Codec (Option α) where
  encode := encodeNullable codec.encode
  decode := decodeNullable codec.decode
  decode_same := by
    intro value json same
    cases value with
    | none => cases json <;> simp_all [SameValue, canonicalForm, encodeNullable, decodeNullable]
    | some a =>
        have read := codec.decode_same a json same
        cases json with
        | null =>
            have isNull : codec.encode a = .null := by
              cases form : codec.encode a <;>
                simp_all [SameValue, canonicalForm, encodeNullable]
            exact absurd isNull (solid a)
        | _ => simp only [decodeNullable, read, Option.map_some]

end Scalars

section Lists

def decodeItems (decode : Json → Option α) : List Json → Option (List α)
  | [] => some []
  | item :: rest => do
      let first ← decode item
      let later ← decodeItems decode rest
      pure (first :: later)

def decodeList (decode : Json → Option α) : Json → Option (List α)
  | .array items => decodeItems decode items
  | _ => none

theorem decodeItems_same (codec : Codec α) (values : List α) (items : List Json)
    (same : canonicalItems items = canonicalItems (values.map codec.encode)) :
    decodeItems codec.decode items = some values := by
  induction values generalizing items with
  | nil =>
      cases items with
      | nil => rfl
      | cons item items => simp [canonicalItems] at same
  | cons value values ih =>
      cases items with
      | nil => simp [canonicalItems] at same
      | cons item items =>
          rw [List.map_cons, canonicalItems, canonicalItems] at same
          obtain ⟨first, later⟩ := List.cons.inj same
          simp only [decodeItems, codec.decode_same value item first, ih items later,
            Option.bind_eq_bind, Option.bind_some]
          rfl

def list (codec : Codec α) : Codec (List α) where
  encode values := .array (values.map codec.encode)
  decode := decodeList codec.decode
  decode_same := by
    intro values json same
    cases json with
    | array items =>
        simp only [SameValue, canonicalForm, Json.array.injEq] at same
        exact decodeItems_same codec values items same
    | _ => simp [SameValue, canonicalForm] at same

end Lists

section Records

abbrev Members := List (JsString × Json)

def decodeMembers : Json → Option Members
  | .object members => some members
  | _ => none

def field (codec : Codec α) (key : JsString) (members : Members) : Option α :=
  (mapGet members key).bind codec.decode

def optionalField (codec : Codec α) (key : JsString) (members : Members) : Option (Option α) :=
  match mapGet members key with
  | none => some none
  | some json => (codec.decode json).map some

/-- `additionalProperties: false`. -/
def onlyKeys (allowed : List JsString) (members : Members) : Bool :=
  members.all fun member => allowed.contains member.1

/-- The members of an object: those it always has, and those it has when they are present. -/
structure Shape where
  required : Members
  optional : List (JsString × Option Json)

def optionalMembers (optional : List (JsString × Option Json)) : Members :=
  optional.filterMap fun entry => entry.2.map fun json => (entry.1, json)

def Shape.members (shape : Shape) : Members := shape.required ++ optionalMembers shape.optional

def Shape.keys (shape : Shape) : List JsString :=
  shape.required.map Prod.fst ++ shape.optional.map Prod.fst

/-- Two objects with the same members, in whatever order. -/
def Agrees (members shown : Members) : Prop :=
  (canonicalMembers members).Perm (canonicalMembers shown)

variable {members shown : Members}

theorem sameValue_object {json : Json} (same : SameValue json (.object shown)) :
    ∃ members, json = .object members ∧ Agrees members shown := by
  cases json with
  | object members =>
      simp only [SameValue, canonicalForm, Json.object.injEq] at same
      refine ⟨members, rfl, ?_⟩
      have left := unicodeCodePointKeys_perm (canonicalMembers members)
      have right := unicodeCodePointKeys_perm (canonicalMembers shown)
      rw [same] at left
      exact left.symm.trans right
  | _ => simp [SameValue, canonicalForm] at same

theorem keys_perm (agree : Agrees members shown) :
    (members.map Prod.fst).Perm (shown.map Prod.fst) := by
  have keys := agree.map Prod.fst
  rwa [canonicalMembers_keys, canonicalMembers_keys] at keys

theorem mapGet_same (agree : Agrees members shown)
    (distinct : (shown.map Prod.fst).Nodup) {key : JsString} {value : Json}
    (listed : (key, value) ∈ shown) :
    ∃ found, mapGet members key = some found ∧ SameValue found value := by
  have unique := (keys_perm agree).nodup_iff.mpr distinct
  have shownForm : (key, canonicalForm value) ∈ canonicalMembers shown := by
    rw [canonicalMembers_map]
    exact List.mem_map.mpr ⟨_, listed, rfl⟩
  have form := agree.mem_iff.mpr shownForm
  rw [canonicalMembers_map] at form
  obtain ⟨⟨other, found⟩, member, equal⟩ := List.mem_map.mp form
  obtain ⟨rfl, sameForm⟩ := Prod.mk.inj equal
  exact ⟨found, mapGet_of_mem unique member, sameForm⟩

/-- Two objects that differ in the order of their members alone hold one value under a key. -/
theorem member_injective {left right : Members} (same : SameValue (.object left) (.object right))
    (leftOnce : (left.map Prod.fst).Nodup) (rightOnce : (right.map Prod.fst).Nodup)
    (codec : Codec α) (key : JsString) {a b : α} (first : (key, codec.encode a) ∈ left)
    (second : (key, codec.encode b) ∈ right) : a = b := by
  obtain ⟨members, equal, agree⟩ := sameValue_object same
  obtain rfl := Json.object.inj equal
  obtain ⟨found, lookup, sameForm⟩ := mapGet_same agree rightOnce second
  rw [mapGet_of_mem leftOnce first] at lookup
  obtain rfl := Option.some.inj lookup
  exact codec.encode_injective sameForm

theorem mapGet_absent (agree : Agrees members shown)
    {key : JsString} (absent : key ∉ shown.map Prod.fst) : mapGet members key = none :=
  mapGet_eq_none_iff.mpr fun member => absent ((keys_perm agree).mem_iff.mp member)

theorem optionalMembers_keys (optional : List (JsString × Option Json)) :
    ((optionalMembers optional).map Prod.fst).Sublist (optional.map Prod.fst) := by
  induction optional with
  | nil => exact .slnil
  | cons entry optional ih =>
      obtain ⟨key, value⟩ := entry
      cases value with
      | none => exact ih.cons key
      | some json => exact ih.cons_cons key

theorem Shape.members_keys (shape : Shape) :
    (shape.members.map Prod.fst).Sublist shape.keys := by
  rw [Shape.members, List.map_append]
  exact (List.Sublist.refl _).append (optionalMembers_keys shape.optional)

theorem field_at {shape : Shape} (codec : Codec α) (agree : Agrees members shape.members)
    (distinct : shape.keys.Nodup) (i : Nat) {key : JsString} {a : α}
    (listed : shape.required[i]? = some (key, codec.encode a)) :
    field codec key members = some a := by
  have member : (key, codec.encode a) ∈ shape.members :=
    List.mem_append_left _ (List.mem_of_getElem? listed)
  have unique := distinct.sublist shape.members_keys
  obtain ⟨found, lookup, same⟩ := mapGet_same agree unique member
  rw [field, lookup, Option.bind_some, codec.decode_same a found same]

theorem optionalField_at {shape : Shape} (codec : Codec α) (agree : Agrees members shape.members)
    (distinct : shape.keys.Nodup) (i : Nat) {key : JsString} {value : Option α}
    (listed : shape.optional[i]? = some (key, value.map codec.encode)) :
    optionalField codec key members = some value := by
  have entry := List.mem_of_getElem? listed
  have unique := distinct.sublist shape.members_keys
  cases value with
  | some a =>
      have member : (key, codec.encode a) ∈ shape.members :=
        List.mem_append_right _ (List.mem_filterMap.mpr ⟨_, entry, rfl⟩)
      obtain ⟨found, lookup, same⟩ := mapGet_same agree unique member
      rw [optionalField, lookup]
      simp only [codec.decode_same a found same, Option.map_some]
  | none =>
      have absent : key ∉ shape.members.map Prod.fst := by
        intro present
        obtain ⟨⟨other, json⟩, member, rfl⟩ := List.mem_map.mp present
        obtain ⟨optional, disjoint⟩ := List.nodup_append.mp distinct |>.2
        rcases List.mem_append.mp member with required | filtered
        · exact disjoint _ (List.mem_map_of_mem required) _ (List.mem_map_of_mem entry) rfl
        · obtain ⟨⟨name, held⟩, listedHere, shown⟩ := List.mem_filterMap.mp filtered
          obtain ⟨value, stored, pair⟩ := Option.map_eq_some_iff.mp shown
          obtain ⟨sameName, -⟩ := Prod.mk.inj pair
          have equal := List.inj_on_of_nodup_map optional listedHere entry sameName
          rw [(Prod.mk.inj equal).2] at stored
          cases stored
      rw [optionalField, mapGet_absent agree absent]

theorem onlyKeys_same {allowed : List JsString}
    (agree : Agrees members shown)
    (within : ∀ key ∈ shown.map Prod.fst, key ∈ allowed) : onlyKeys allowed members = true := by
  refine List.all_eq_true.mpr fun member listed => ?_
  have key := (keys_perm agree).mem_iff.mp (List.mem_map_of_mem listed)
  simpa using within _ key

/-- An object with the members of its shape and no other. -/
def record (keys : List JsString) (shape : α → Shape) (decode : Members → Option α)
    (shown : ∀ a, (shape a).keys = keys)
    (reads : ∀ a members, Agrees members (shape a).members → decode members = some a) :
    Codec α where
  encode a := .object (shape a).members
  decode json :=
    (decodeMembers json).bind fun members =>
      if onlyKeys keys members then decode members else none
  decode_same := by
    intro a json same
    obtain ⟨members, rfl, agree⟩ := sameValue_object same
    have within : ∀ key ∈ (shape a).members.map Prod.fst, key ∈ keys := by
      intro key member
      rw [← shown a]
      exact (shape a).members_keys.subset member
    simp only [decodeMembers, Option.bind_some, onlyKeys_same agree within, if_true]
    exact reads a members agree

end Records

section Forms

variable {shape : Shape}

theorem wellFormed_text (value : JsString) : WellFormed (text.encode value) := by
  change WellFormed (.string value)
  simp [WellFormed]

theorem wellFormed_enumeration {values : List α} {name : α → JsString}
    {complete : ∀ a, a ∈ values} {distinct : (values.map name).Nodup} (a : α) :
    WellFormed ((enumeration values name complete distinct).encode a) := by
  change WellFormed (.string (name a))
  simp [WellFormed]

theorem wellFormed_natural {value : Nat} (safe : value ≤ maxSafeInteger) :
    WellFormed (natural.encode value) := by
  change WellFormed (.integer value)
  simpa [WellFormed, isSafeInteger] using safe

theorem wellFormed_nullable {codec : Codec α} {solid : ∀ a, codec.encode a ≠ .null}
    {value : Option α} (formed : ∀ a ∈ value, WellFormed (codec.encode a)) :
    WellFormed ((nullable codec solid).encode value) := by
  cases value with
  | none =>
      change WellFormed .null
      simp [WellFormed]
  | some a => exact formed a rfl

theorem wellFormed_list {codec : Codec α} {values : List α}
    (formed : ∀ a ∈ values, WellFormed (codec.encode a)) :
    WellFormed ((list codec).encode values) := by
  change WellFormed (.array (values.map codec.encode))
  rw [WellFormed]
  induction values with
  | nil => trivial
  | cons a values ih =>
      rw [List.map_cons, WellFormedItems]
      exact ⟨formed a List.mem_cons_self, ih fun b member =>
        formed b (List.mem_cons_of_mem _ member)⟩

theorem wellFormed_shape (distinct : shape.keys.Nodup)
    (required : ∀ member ∈ shape.required, WellFormed member.2)
    (optional : ∀ entry ∈ shape.optional, ∀ json ∈ entry.2, WellFormed json) :
    WellFormed (.object shape.members) := by
  rw [WellFormed]
  refine ⟨distinct.sublist shape.members_keys, ?_⟩
  refine (wellFormedMembers_iff _).mpr fun member listed => ?_
  rcases List.mem_append.mp listed with fixed | spread
  · exact required member fixed
  · obtain ⟨entry, held, shown⟩ := List.mem_filterMap.mp spread
    obtain ⟨json, stored, rfl⟩ := Option.map_eq_some_iff.mp shown
    exact optional entry held json stored

end Forms

end Kratos.Schema
