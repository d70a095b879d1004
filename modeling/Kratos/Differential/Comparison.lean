/- source: packages/differential/src/compare.ts
   digest: When a report is equal, and what normalization and comparison promise together. -/

import Kratos.Differential.Compare
import Kratos.Differential.Normalization

set_option autoImplicit false

namespace Kratos.Differential

open Foundation.Text Foundation.JsonText Foundation.JsonPlaces Foundation.JsonAlike
open Foundation.Collections
open Foundation.Replacing (replaceAll replaceAll_of_not_mem)
open Foundation.Sha256 (sha256)
open Foundation.Sorting
open Foundation.FirstBest (Consistent)
open Foundation.Runs

/-- An artifact whose canonical text determines it: its numbers are finite and none is a negative
zero, and no object has two keys that collate equal. -/
structure Digestible (localeCompare : JsString → JsString → Int) (value : Json) : Prop where
  formed : WellFormed value
  plain : Everywhere (fun inner => NamesApart (collates localeCompare) inner ∧
    inner ≠ .double (js "-0")) value

section Canonical

variable {localeCompare : JsString → JsString → Int} {left right : Json}

theorem canonicalEntries_map (items : List Json) :
    canonicalEntries localeCompare items = items.map (canonical localeCompare) := by
  induction items with
  | nil => rfl
  | cons item rest ih => rw [canonicalEntries, ih, List.map_cons]

theorem canonicalProperties_map (members : List (JsString × Json)) :
    canonicalProperties localeCompare members =
      members.map fun member => (member.1, canonical localeCompare member.2) := by
  induction members with
  | nil => rfl
  | cons member rest ih =>
      obtain ⟨key, value⟩ := member
      rw [canonicalProperties, ih, List.map_cons]

theorem stringifyItems_map (layout : Layout) (depth : Nat) (items : List Json) :
    stringifyItems layout depth items = items.map (stringify layout depth) := by
  induction items with
  | nil => rfl
  | cons item rest ih => rw [stringifyItems, ih, List.map_cons]

/-- A number that the language writes as a JSON number is written as its literal. -/
theorem stringifyNumber_formed {literal : JsString} (formed : WellFormed (.double literal))
    (signed : literal ≠ js "-0") : stringifyNumber literal = literal := by
  have read : ∀ name ∈ [js "Infinity", js "-Infinity"], literal ≠ name := by
    rintro name listed rfl
    rw [WellFormed] at formed
    have refused : ∀ name ∈ [js "Infinity", js "-Infinity"], (readNumber name).isSome = false := by
      decide
    have none := refused literal listed
    rw [formed] at none
    cases none
  rw [stringifyNumber, if_neg (by simp [read (js "Infinity"), read (js "-Infinity")]), numberText,
    if_neg (by simpa using signed)]

theorem canonical_arranged {value : Json} (digestible : Digestible localeCompare value) (level : Nat) :
    canonical localeCompare value =
      stringify compact level (arranged (collates localeCompare) value) := by
  induction size : depth value using Nat.strong_induction_on generalizing value level with
  | _ n ih =>
    obtain ⟨formed, plain⟩ := digestible
    cases value with
    | array items =>
        rw [WellFormed, wellFormedItems_iff] at formed
        have each : ∀ item ∈ items, canonical localeCompare item =
            stringify compact (level + 1) (arranged (collates localeCompare) item) :=
          fun item member => ih (depth item) (size ▸ depth_item member)
            ⟨formed item member, plain.item member⟩ _ rfl
        rw [canonical, canonicalEntries_map, arranged, arrangedItems_map, stringify,
          Schema.enclose_compact, stringifyItems_map, List.map_map, List.map_congr_left each]
        rfl
    | object members =>
        rw [WellFormed, wellFormedMembers_iff] at formed
        have each : ∀ member ∈ members, canonical localeCompare member.2 =
            stringify compact (level + 1) (arranged (collates localeCompare) member.2) :=
          fun member listed => ih (depth member.2) (size ▸ depth_member listed)
            ⟨formed.2 member listed, plain.member formed.1 listed⟩ _ rfl
        have texts : (arrange (collates localeCompare) (canonicalProperties localeCompare members)).map
              (fun property => quote property.1 ++ unit ':' :: property.2) =
            stringifyMembers compact (level + 1)
              (arrange (collates localeCompare) (arrangedMembers (collates localeCompare) members)) := by
          rw [canonicalProperties_map, arrangedMembers_map, ← arrange_map, ← arrange_map,
            Schema.stringifyMembers_map, List.map_map, List.map_map]
          refine List.map_congr_left fun member listed => ?_
          have own := each member ((List.mergeSort_perm _ _).mem_iff.mp listed)
          simp only [Function.comp_apply, own, List.append_assoc, List.cons_append]
          rfl
        rw [canonical, texts, arranged, stringify, Schema.enclose_compact]
    | double literal => exact stringifyNumber_formed formed fun equal => plain.self.2 (by rw [equal])
    | _ => rfl

/-- The digested texts of two artifacts are equal when the artifacts are alike. -/
theorem canonical_eq_iff (consistent : Consistent (collates localeCompare))
    (leftDigestible : Digestible localeCompare left)
    (rightDigestible : Digestible localeCompare right) :
    canonical localeCompare left = canonical localeCompare right ↔ Alike left right := by
  rw [← arranged_eq_iff consistent (fun place inner found => (leftDigestible.plain place inner found).1)
    fun place inner found => (rightDigestible.plain place inner found).1,
    canonical_arranged leftDigestible 0, canonical_arranged rightDigestible 0]
  refine ⟨fun same => ?_, fun same => by rw [same]⟩
  have nothing : Blank ([] : JsString) := by rintro u ⟨⟩
  have first := parse_stringify compact
    (@WellFormed.arranged (collates localeCompare) _ leftDigestible.formed) nothing
  have second := parse_stringify compact
    (@WellFormed.arranged (collates localeCompare) _ rightDigestible.formed) nothing
  rw [same, second] at first
  exact (Option.some.inj first).symm

end Canonical

/-- A property that no JSON value is inherited under. -/
def Slot.Bare : Slot → Prop
  | .undefined => True
  | .function _ => True
  | _ => False

/-- Where two objects stand at one place, a name that only one of them has is inherited as no JSON
value; at first only `__proto__` is. -/
def NamesFaced (prototype : Prototype) (expected actual : Option Json) : Prop :=
  ∀ (place : Place) (members others : List (JsString × Json)),
    (expected.bind fun value => valueAt value place) = some (.object members) →
      (actual.bind fun value => valueAt value place) = some (.object others) →
        ∀ name, (mapGet members name).isSome ≠ (mapGet others name).isSome →
          (prototype.inherited name).Bare

def pointerOf (place : Place) : JsString := place.flatMap fun name => unit '/' :: escapePointer name

/-- Below a pointer the artifacts compared as digests are determined by their digests. -/
def Digested (localeCompare : JsString → JsString → Int) (scenario : DifferentialScenario)
    (pointer : JsString) (expected actual : Option Json) : Prop :=
  ∀ (place : Place) (left right : Json),
    isOpaqueArtifact (pointer ++ pointerOf place) scenario = true →
      (expected.bind fun value => valueAt value place) = some left →
        (actual.bind fun value => valueAt value place) = some right →
          Digestible localeCompare left ∧ Digestible localeCompare right ∧
            (sha256 (canonical localeCompare left) = sha256 (canonical localeCompare right) →
              canonical localeCompare left = canonical localeCompare right)

/-- What a comparison of an observation with the expected one relies on: names that a missing
member is not inherited under, and artifacts compared as digests that their digests determine. -/
structure Comparable (localeCompare : JsString → JsString → Int) (prototype : Prototype)
    (scenario : DifferentialScenario) (expected actual : Json) : Prop where
  names : NamesFaced prototype (some expected) (some actual)
  artifacts : Digested localeCompare scenario [] (some expected) (some actual)

section Collecting

variable {localeCompare : JsString → JsString → Int} {prototype : Prototype}
  {scenario : DifferentialScenario} {side : Side} {observation : Json}

/-- Two slots that a comparison meets: one of them is a value at least, and the other a value or
bare. -/
def Facing (expected actual : Slot) : Prop :=
  (∃ left right, expected = .value left ∧ actual = .value right) ∨
    (∃ left, expected = .value left ∧ actual.Bare) ∨ ∃ right, expected.Bare ∧ actual = .value right

theorem bare_json {slot : Slot} (bare : slot.Bare) : slot.json = none := by
  cases slot with
  | undefined => rfl
  | function name => rfl
  | prototype => cases bare
  | value json => cases bare

theorem same_values {left right : Json} :
    same (.value left) (.value right) = true ↔
      shape left = shape right ∧ shape left ≠ .array ∧ shape left ≠ .object := by
  cases left <;> cases right <;> simp [same, shape]

/-- Scalars that show the same are alike, and a scalar is like no container. -/
theorem alike_of_same {left right : Json} (equal : same (.value left) (.value right) = true) :
    Alike left right := by
  obtain ⟨shown, notArray, notObject⟩ := same_values.mp equal
  refine alike_iff.mpr ⟨shown, fun name => ?_⟩
  have none : ∀ value : Json, shape value ≠ .array → shape value ≠ .object →
      child value name = Option.none := by
    intro value notArray notObject
    cases value with
    | array items => exact absurd rfl notArray
    | object members => exact absurd rfl notObject
    | _ => rfl
  rw [none left notArray notObject, none right (shown ▸ notArray) (shown ▸ notObject)]
  exact fun _ => rfl

theorem item_json (items : List Json) (index : Nat) : (item items index).json = items[index]? := by
  rw [item]
  cases items[index]? <;> rfl

theorem item_facing {items others : List Json} {index : Nat}
    (inside : index < max items.length others.length) :
    Facing (item items index) (item others index) := by
  unfold item
  cases first : items[index]? with
  | some left =>
      cases second : others[index]? with
      | some right => exact .inl ⟨left, right, rfl, rfl⟩
      | none => exact .inr (.inl ⟨left, rfl, trivial⟩)
  | none =>
      cases second : others[index]? with
      | some right => exact .inr (.inr ⟨right, trivial, rfl⟩)
      | none =>
          rw [List.getElem?_eq_none_iff] at first second
          omega

theorem read_json {members : List (JsString × Json)} {name : JsString}
    (bare : mapGet members name = none → (prototype.inherited name).Bare) :
    (read prototype (.value (.object members)) name).json = mapGet members name := by
  rw [read]
  cases found : mapGet members name with
  | some value => rfl
  | none => exact bare_json (bare found)

theorem read_facing {members others : List (JsString × Json)} {name : JsString}
    (bare : mapGet members name = none → (prototype.inherited name).Bare)
    (otherBare : mapGet others name = none → (prototype.inherited name).Bare)
    (listed : name ∈ members.map Prod.fst ∨ name ∈ others.map Prod.fst) :
    Facing (read prototype (.value (.object members)) name)
      (read prototype (.value (.object others)) name) := by
  simp only [read]
  cases first : mapGet members name with
  | some left =>
      cases second : mapGet others name with
      | some right => exact .inl ⟨left, right, rfl, rfl⟩
      | none => exact .inr (.inl ⟨left, rfl, otherBare second⟩)
  | none =>
      cases second : mapGet others name with
      | some right => exact .inr (.inr ⟨right, bare first, rfl⟩)
      | none =>
          exact (listed.elim (mapGet_eq_none_iff.mp first) (mapGet_eq_none_iff.mp second)).elim

/-- Values that differ and are no two arrays and no two objects are reported. -/
theorem collect_unlike {fuel : Nat} {left right : Json} {pointer : JsString}
    (differ : same (.value left) (.value right) = false)
    (shown : isOpaqueArtifact pointer scenario = false)
    (arrays : ¬(shape left = .array ∧ shape right = .array))
    (objects : ¬(shape left = .object ∧ shape right = .object)) :
    collect localeCompare prototype scenario side observation (fuel + 1) (.value left)
      (.value right) pointer ≠ [] := by
  rw [collect, differ, shown]
  cases left <;> cases right <;> simp_all [shape, isRecord, bothItems]

theorem collect_bare {fuel : Nat} {expected actual : Slot} {pointer : JsString}
    (facing : (∃ left, expected = .value left ∧ actual.Bare) ∨
      ∃ right, expected.Bare ∧ actual = .value right) :
    collect localeCompare prototype scenario side observation (fuel + 1) expected actual pointer ≠
      [] := by
  rcases facing with ⟨left, rfl, bare⟩ | ⟨right, bare, rfl⟩
  · cases actual with
    | undefined =>
        rw [collect]
        cases isOpaqueArtifact pointer scenario <;> simp [same, Slot.json, isRecord, bothItems]
    | function name =>
        rw [collect]
        cases isOpaqueArtifact pointer scenario <;> simp [same, Slot.json, isRecord, bothItems]
    | prototype => cases bare
    | value => cases bare
  · cases expected with
    | undefined =>
        rw [collect]
        cases isOpaqueArtifact pointer scenario <;> simp [same, Slot.json, isRecord, bothItems]
    | function name =>
        rw [collect]
        cases isOpaqueArtifact pointer scenario <;> simp [same, Slot.json, isRecord, bothItems]
    | prototype => cases bare
    | value => cases bare

theorem escapePointer_decimal (index : Nat) : escapePointer (decimal index) = decimal index := by
  obtain ⟨noSlash, noTilde⟩ := plainWord_decimal index
  have first : replaceAll (decimal index) (js "~") (js "~0") = decimal index :=
    replaceAll_of_not_mem noTilde
  have second : replaceAll (decimal index) (js "/") (js "~1") = decimal index :=
    replaceAll_of_not_mem noSlash
  rw [escapePointer, first, second]

theorem mem_keys {members others : List (JsString × Json)} {name : JsString} :
    name ∈ sortedUnique (fun left right => Schema.notAfter left right = true)
        (keys (.value (.object members)) ++ keys (.value (.object others))) ↔
      name ∈ members.map Prod.fst ∨ name ∈ others.map Prod.fst := by
  rw [mem_sortedUnique, List.mem_append]
  rfl

def slotDepth : Slot → Nat
  | .value json => depth json
  | _ => 0

theorem slotDepth_item (items : List Json) (index : Nat) :
    slotDepth (item items index) < depth (.array items) := by
  rw [item]
  cases found : items[index]? with
  | none =>
      rw [depth]
      exact Nat.succ_pos _
  | some value => exact depth_item (List.mem_of_getElem? found)

theorem slotDepth_read {members : List (JsString × Json)} {name : JsString}
    (bare : mapGet members name = none → (prototype.inherited name).Bare) :
    slotDepth (read prototype (.value (.object members)) name) < depth (.object members) := by
  rw [read]
  cases found : mapGet members name with
  | none =>
      have flat : slotDepth (prototype.inherited name) = 0 := by
        cases inherits : prototype.inherited name with
        | value json => exact absurd (bare found) (by rw [inherits]; exact id)
        | _ => rfl
      rw [depth]
      exact flat ▸ Nat.succ_pos _
  | some value => exact depth_member (mapGet_mem found)

theorem digested_child {left right : Json} {pointer : JsString} (name : JsString)
    (digested : Digested localeCompare scenario pointer (some left) (some right)) :
    Digested localeCompare scenario (pointer ++ unit '/' :: escapePointer name)
      (child left name) (child right name) := by
  intro place first second shown one two
  refine digested (name :: place) first second ?_ one two
  rw [pointerOf, List.flatMap_cons, List.cons_append]
  rw [List.append_assoc, List.cons_append] at shown
  exact shown

theorem namesFaced_child {left right : Json} (name : JsString)
    (names : NamesFaced prototype (some left) (some right)) :
    NamesFaced prototype (child left name) (child right name) :=
  fun place => names (name :: place)

theorem child_item (items : List Json) (index : Nat) :
    child (.array items) (decimal index) = items[index]? := by
  rw [child, readIndex_eq_some.mpr rfl, Option.bind_some]

theorem collect_eq_nil_iff (consistent : Consistent (collates localeCompare)) (fuel : Nat)
    {expected actual : Slot} {pointer : JsString} (facing : Facing expected actual)
    (names : NamesFaced prototype expected.json actual.json)
    (digested : Digested localeCompare scenario pointer expected.json actual.json)
    (enough : slotDepth expected + slotDepth actual < fuel) :
    collect localeCompare prototype scenario side observation fuel expected actual pointer = [] ↔
      SlotAlike expected.json actual.json := by
  induction fuel generalizing expected actual pointer with
  | zero => exact absurd enough (Nat.not_lt_zero _)
  | succ fuel ih =>
      rcases facing with ⟨left, right, rfl, rfl⟩ | bare
      swap
      · refine iff_of_false (collect_bare bare) fun alike => ?_
        rcases slotAlike_iff.mp alike with ⟨first, second⟩ | ⟨_, _, first, second, -⟩
        · rcases bare with ⟨_, rfl, -⟩ | ⟨_, -, rfl⟩
          · cases first
          · cases second
        · rcases bare with ⟨_, -, bare⟩ | ⟨_, bare, -⟩
          · rw [bare_json bare] at second
            cases second
          · rw [bare_json bare] at first
            cases first
      by_cases equal : same (.value left) (.value right) = true
      · rw [collect, if_pos equal]
        exact iff_of_true rfl (alike_of_same equal)
      by_cases shown : isOpaqueArtifact pointer scenario = true
      · -- an artifact compared by its digest
        have whole : isOpaqueArtifact (pointer ++ pointerOf []) scenario = true := by
          rw [pointerOf, List.flatMap_nil, List.append_nil]
          exact shown
        obtain ⟨first, second, determined⟩ := digested [] left right whole rfl rfl
        have texts := canonical_eq_iff consistent first second
        rw [collect, if_neg equal, if_pos shown]
        simp only [Slot.json, Option.map_some, Option.some.injEq, artifactDigest]
        constructor
        · intro none
          split at none
          · rename_i digests
            exact texts.mp (determined digests)
          · cases none
        · intro alike
          rw [if_pos (by rw [texts.mpr alike])]
      by_cases arrays : shape left = .array ∧ shape right = .array
      · cases left with
        | array items =>
            cases right with
            | array others =>
                rw [collect, if_neg equal, if_neg shown]
                simp only [bothItems, List.flatMap_eq_nil_iff, List.mem_range]
                have each : ∀ index < max items.length others.length,
                    (collect localeCompare prototype scenario side observation fuel
                      (item items index) (item others index) (pointer ++ unit '/' :: decimal index) =
                        [] ↔ SlotAlike items[index]? others[index]?) := by
                  intro index inside
                  have below := digested_child (decimal index) digested
                  rw [escapePointer_decimal, child_item, child_item] at below
                  have one := slotDepth_item items index
                  have two := slotDepth_item others index
                  have faced := namesFaced_child (decimal index) names
                  rw [child_item, child_item] at faced
                  have inner := ih (item_facing inside)
                    (by rw [item_json, item_json]; exact faced)
                    (by rw [item_json, item_json]; exact below)
                    (by simp only [slotDepth] at enough; omega)
                  rwa [item_json, item_json] at inner
                refine Iff.trans ⟨fun none index => ?_, fun alike index inside => ?_⟩
                  alike_arrays.symm
                · by_cases inside : index < max items.length others.length
                  · exact (each index inside).mp (none index inside)
                  · rw [List.getElem?_eq_none (by omega), List.getElem?_eq_none (by omega)]
                    exact fun _ => rfl
                · exact (each index inside).mpr (alike index)
            | _ => cases arrays.2
        | _ => cases arrays.1
      by_cases objects : shape left = .object ∧ shape right = .object
      · cases left with
        | object members =>
            cases right with
            | object others =>
                rw [collect, if_neg equal, if_neg shown]
                simp only [bothItems, isRecord, Bool.and_self, if_true, List.flatMap_eq_nil_iff,
                  mem_keys]
                have each : ∀ name, name ∈ members.map Prod.fst ∨ name ∈ others.map Prod.fst →
                    (collect localeCompare prototype scenario side observation fuel
                      (read prototype (.value (.object members)) name)
                      (read prototype (.value (.object others)) name)
                      (pointer ++ unit '/' :: escapePointer name) = [] ↔
                        SlotAlike (mapGet members name) (mapGet others name)) := by
                  intro name listed
                  have faced := names [] members others rfl rfl name
                  have bare : mapGet members name = none → (prototype.inherited name).Bare := by
                    intro absent
                    refine faced (fun equal => mapGet_eq_none_iff.mp ?_
                      (listed.resolve_left (mapGet_eq_none_iff.mp absent)))
                    rwa [absent, Option.isSome_none, eq_comm, Option.isSome_eq_false_iff,
                      Option.isNone_iff_eq_none] at equal
                  have otherBare : mapGet others name = none → (prototype.inherited name).Bare := by
                    intro absent
                    refine faced (fun equal => mapGet_eq_none_iff.mp ?_
                      (listed.resolve_right (mapGet_eq_none_iff.mp absent)))
                    rwa [absent, Option.isSome_none, Option.isSome_eq_false_iff,
                      Option.isNone_iff_eq_none] at equal
                  have one := slotDepth_read bare
                  have two := slotDepth_read otherBare
                  have inner := ih (read_facing bare otherBare listed)
                    (by rw [read_json bare, read_json otherBare]; exact namesFaced_child name names)
                    (by rw [read_json bare, read_json otherBare]
                        exact digested_child name digested)
                    (by simp only [slotDepth] at enough; omega)
                  rwa [read_json bare, read_json otherBare] at inner
                refine Iff.trans ⟨fun none name => ?_, fun alike name listed => ?_⟩
                  alike_objects.symm
                · by_cases listed : name ∈ members.map Prod.fst ∨ name ∈ others.map Prod.fst
                  · exact (each name listed).mp (none name listed)
                  · obtain ⟨first, second⟩ := not_or.mp listed
                    rw [mapGet_eq_none_iff.mpr first, mapGet_eq_none_iff.mpr second]
                    exact fun _ => rfl
                · exact (each name listed).mpr (alike name)
            | _ => cases objects.2
        | _ => cases objects.1
      refine iff_of_false (collect_unlike (by simpa using equal) (by simpa using shown) arrays
        objects) fun alike => ?_
      have parts := (alike_iff.mp (alike : Alike left right)).1
      refine equal (same_values.mpr ⟨parts, fun array => arrays ⟨array, parts ▸ array⟩,
        fun object => objects ⟨object, parts ▸ object⟩⟩)

/-- A golden comparison reports nothing when the observation is the expected value. -/
theorem compareGolden_eq_nil_iff (consistent : Consistent (collates localeCompare)) {actual : Json}
    (comparable : Comparable localeCompare prototype scenario scenario.expected.json actual) :
    compareGolden localeCompare prototype scenario side actual = [] ↔
      Alike scenario.expected.json actual := by
  exact collect_eq_nil_iff consistent _ (.inl ⟨_, _, rfl, rfl⟩) comparable.names
    comparable.artifacts (Nat.lt_succ_self _)

end Collecting

section Samples

mutual

def namesIn : Json → List JsString
  | .array items => namesInItems items
  | .object members => members.map Prod.fst ++ namesInMembers members
  | .null => []
  | .bool _ => []
  | .integer _ => []
  | .double _ => []
  | .string _ => []

def namesInItems : List Json → List JsString
  | [] => []
  | item :: rest => namesIn item ++ namesInItems rest

def namesInMembers : List (JsString × Json) → List JsString
  | [] => []
  | (_, value) :: rest => namesIn value ++ namesInMembers rest

end

/-- No member of an object has a name that others inherit a JSON value under. -/
def NamesPlain (prototype : Prototype) : Json → Prop
  | .object members => ∀ name ∈ members.map Prod.fst, (prototype.inherited name).Bare
  | _ => True

theorem namesFaced_of_plain {prototype : Prototype} {expected actual : Json}
    (expectedNames : Everywhere (NamesPlain prototype) expected)
    (actualNames : Everywhere (NamesPlain prototype) actual) :
    NamesFaced prototype (some expected) (some actual) := by
  intro place members others first second name differ
  cases own : mapGet members name with
  | some value =>
      exact expectedNames place _ first name (List.mem_map_of_mem (mapGet_mem own))
  | none =>
      cases other : mapGet others name with
      | some value => exact actualNames place _ second name (List.mem_map_of_mem (mapGet_mem other))
      | none => exact absurd (by rw [own, other]) differ

theorem inherited_initial {name : JsString} (other : name ≠ accessorName) :
    (Prototype.initial.inherited name).Bare := by
  rw [Prototype.inherited, if_neg (by simpa using other)]
  cases found : mapGet Prototype.initial.properties name with
  | none => trivial
  | some held =>
      obtain ⟨_, -, same⟩ := List.mem_map.mp (mapGet_mem found)
      obtain ⟨-, rfl⟩ := Prod.mk.inj same
      trivial

mutual

/-- Before any rule has run only `__proto__` is no plain name. -/
theorem everywhere_namesPlain : ∀ value : Json, accessorName ∉ namesIn value →
    Everywhere (NamesPlain Prototype.initial) value
  | .array items, plain => everywhere_array trivial (everywhere_namesPlain_items items plain)
  | .object members, plain => by
      rw [namesIn, List.mem_append, not_or] at plain
      refine everywhere_object (fun name member => inherited_initial ?_)
        (everywhere_namesPlain_members members plain.2)
      rintro rfl
      exact plain.1 member
  | .null, _ => everywhere_iff.mpr ⟨trivial, nofun⟩
  | .bool _, _ => everywhere_iff.mpr ⟨trivial, nofun⟩
  | .integer _, _ => everywhere_iff.mpr ⟨trivial, nofun⟩
  | .double _, _ => everywhere_iff.mpr ⟨trivial, nofun⟩
  | .string _, _ => everywhere_iff.mpr ⟨trivial, nofun⟩

theorem everywhere_namesPlain_items : ∀ items : List Json, accessorName ∉ namesInItems items →
    ∀ item ∈ items, Everywhere (NamesPlain Prototype.initial) item
  | [], _, _, member => absurd member List.not_mem_nil
  | first :: rest, plain, item, member => by
      rw [namesInItems, List.mem_append, not_or] at plain
      rcases List.mem_cons.mp member with same | later
      · exact same ▸ everywhere_namesPlain first plain.1
      · exact everywhere_namesPlain_items rest plain.2 item later

theorem everywhere_namesPlain_members : ∀ members : List (JsString × Json),
    accessorName ∉ namesInMembers members →
      ∀ member ∈ members, Everywhere (NamesPlain Prototype.initial) member.2
  | [], _, _, listed => absurd listed List.not_mem_nil
  | (name, value) :: rest, plain, member, listed => by
      rw [namesInMembers, List.mem_append, not_or] at plain
      rcases List.mem_cons.mp listed with same | later
      · exact same ▸ everywhere_namesPlain value plain.1
      · exact everywhere_namesPlain_members rest plain.2 member later

end

def compareUnits (left right : JsString) : Int :=
  if Schema.notAfter left right then if Schema.notAfter right left then 0 else -1 else 1

/-- A command that ended well and captured one artifact. -/
def captured (value : Json) : DifferentialObservation where
  process := ⟨.exit, some 0, none, ⟨0, [], none⟩, ⟨0, [], none⟩⟩
  before := []
  after := []
  mutations := []
  structured := [.valid (js "result") (js "result.json") value]
  git := none

/-- A decision inside an object that a rule may replace as a whole. -/
def nestedDecision : Json :=
  .object [(js "result", .object [(js "status", .string (js "passed"))])]

/-- The scenario that expects one captured value and shows the artifacts. -/
def expecting (value : Json) : DifferentialScenario where
  id := js "sample"
  parityContractIds := []
  artifacts := .content
  normalization := []
  expected := captured value

theorem consistent_compareUnits : Consistent (collates compareUnits) := by
  have collated : ∀ left right, collates compareUnits left right = Schema.notAfter left right := by
    intro left right
    rw [collates, compareUnits]
    cases Schema.notAfter left right with
    | false => rfl
    | true => cases Schema.notAfter right left <;> rfl
  constructor
  · intro a b c
    simp only [collated]
    exact Schema.notAfter_trans
  · intro a b
    simp only [collated, Bool.or_eq_true]
    exact Schema.notAfter_total a b

/-- A decision beside a time that a rule replaces. -/
def timedDecision (time : String) : Json :=
  .object [(js "status", .string (js "passed")), (js "at", .string (js time))]

def timeRule : NormalizationRule :=
  ⟨.replaceJsonValue .timestamp, js "/structured/0/value/at"⟩

theorem harmless_timeRule :
    Harmless ⟨.initial, (captured (timedDecision "12:00")).json⟩ timeRule where
  hollow target decoded _ inner field _ := by
    have place : decodePointer timeRule.pointer = .ok (artifactPlace 0 [js "at"]) := rfl
    rw [place] at decoded
    obtain rfl := Except.ok.inj decoded
    have text : valueAt (captured (timedDecision "12:00")).json (artifactPlace 0 [js "at"]) =
        some (.string (js "12:00")) := rfl
    rw [valueAt_append, text, Option.bind_some]
    cases inner <;> rfl
  beside := nofun
  oneLine broken := absurd broken (by decide)
  described _ := by decide

end Samples

end Kratos.Differential
