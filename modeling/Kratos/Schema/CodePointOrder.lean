/- source: domain/schema/canonical-json.ts
   digest: The order of canonical keys is that of code points; the text determines the value. -/

import Kratos.Schema.CanonicalJson
import Mathlib.Data.List.Lex
import Mathlib.Data.List.Perm.Basic

set_option autoImplicit false

namespace Kratos.Schema

open Foundation.Text Foundation.JsonText

section Order

theorem hexDigit_toNat (n : Nat) :
    (hexDigit n).toNat = if n % 16 < 10 then 0x30 + n % 16 else 0x57 + n % 16 := by
  have small := Nat.mod_lt n (by decide : 16 > 0)
  unfold hexDigit
  split
  · rw [UInt16.toNat_ofNat']
    omega
  · rw [UInt16.toNat_ofNat']
    omega

theorem notAfter_hexDigit (m n : Nat) (left right : JsString) :
    notAfter (hexDigit m :: left) (hexDigit n :: right) =
      if m % 16 = n % 16 then notAfter left right else decide (m % 16 < n % 16) := by
  have one := hexDigit_toNat m
  have two := hexDigit_toNat n
  rw [notAfter]
  by_cases same : m % 16 = n % 16
  · have equal : hexDigit m = hexDigit n := by
      rw [← hexDigit_mod m, ← hexDigit_mod n, same]
    rw [if_pos equal, if_pos same]
  · have different : ¬ hexDigit m = hexDigit n := by
      intro equal
      rw [equal] at one
      split at one <;> split at two <;> omega
    rw [if_neg different, if_neg same, decide_eq_decide, UInt16.lt_iff_toNat_lt]
    split at one <;> split at two <;> omega

theorem notAfter_codePointHex {p q : Nat} (pSmall : p < 0x1000000) (qSmall : q < 0x1000000)
    (left right : JsString) :
    notAfter (codePointHex p ++ left) (codePointHex q ++ right) =
      if p = q then notAfter left right else decide (p < q) := by
  unfold codePointHex
  simp only [List.cons_append, List.nil_append, notAfter_hexDigit]
  by_cases same : p = q
  · subst same
    simp only [if_true]
  · rw [if_neg same]
    split_ifs <;> first | omega | (rw [decide_eq_decide]; omega)

theorem notAfter_sortKeys {left right : List Nat} (leftSmall : ∀ p ∈ left, p < 0x1000000)
    (rightSmall : ∀ p ∈ right, p < 0x1000000) (front back : JsString) :
    notAfter (left.flatMap codePointHex ++ 0 :: front) (right.flatMap codePointHex ++ 0 :: back) =
      true ↔ left < right ∨ (left = right ∧ notAfter front back = true) := by
  have digit : ∀ p, ∀ rest, notAfter (codePointHex p ++ rest) (0 :: back) = false := by
    intro p rest
    have low := hexDigit_toNat (p / 1048576)
    unfold codePointHex
    rw [List.cons_append, notAfter]
    have different : ¬ hexDigit (p / 1048576) = 0 := by
      intro zero
      rw [zero] at low
      have none : (0 : CodeUnit).toNat = 0 := rfl
      split at low <;> omega
    rw [if_neg different, decide_eq_false_iff_not, UInt16.lt_iff_toNat_lt]
    have none : (0 : CodeUnit).toNat = 0 := rfl
    omega
  have before : ∀ q, ∀ rest, notAfter (0 :: front) (codePointHex q ++ rest) = true := by
    intro q rest
    have low := hexDigit_toNat (q / 1048576)
    unfold codePointHex
    rw [List.cons_append, notAfter]
    have less : (0 : CodeUnit) < hexDigit (q / 1048576) := by
      rw [UInt16.lt_iff_toNat_lt]
      have none : (0 : CodeUnit).toNat = 0 := rfl
      split at low <;> omega
    have different : ¬ (0 : CodeUnit) = hexDigit (q / 1048576) := by
      intro same
      rw [← same] at less
      exact absurd less (by decide)
    rw [if_neg different, decide_eq_true less]
  induction left generalizing right with
  | nil =>
      cases right with
      | nil => simp [notAfter]
      | cons q right => simp [List.append_assoc, before]
  | cons p left ih =>
      cases right with
      | nil => simp [List.append_assoc, digit]
      | cons q right =>
          rw [List.forall_mem_cons] at leftSmall rightSmall
          rw [List.flatMap_cons, List.flatMap_cons, List.append_assoc, List.append_assoc,
            notAfter_codePointHex leftSmall.1 rightSmall.1, List.cons_lt_cons_iff]
          by_cases same : p = q
          · subst same
            have later := ih leftSmall.2 rightSmall.2
            simp [later]
          · rw [if_neg same, decide_eq_true_eq]
            simp [same]

theorem codePoints_small (text : JsString) : ∀ p ∈ codePoints text, p < 0x1000000 := by
  have single : ∀ u : CodeUnit, u.toNat < 0x1000000 := by
    intro u
    have bound := u.toNat_lt
    omega
  induction text using codePoints.induct with
  | case1 =>
      intro p member
      cases member
  | case2 u =>
      rw [codePoints, List.forall_mem_singleton]
      exact single u
  | case3 u v rest paired ih =>
      rw [codePoints, if_pos paired, List.forall_mem_cons]
      simp only [Bool.and_eq_true, isHighSurrogate, isLowSurrogate, decide_eq_true_eq] at paired
      exact ⟨by omega, ih⟩
  | case4 u v rest alone ih =>
      rw [codePoints, if_neg alone, List.forall_mem_cons]
      exact ⟨single u, ih⟩

def unitsOfCodePoint (p : Nat) : JsString :=
  if p < 0x10000 then [UInt16.ofNat p]
  else [UInt16.ofNat (0xD800 + (p - 0x10000) / 0x400), UInt16.ofNat (0xDC00 + (p - 0x10000) % 0x400)]

theorem unitsOfCodePoint_codePoints (text : JsString) :
    (codePoints text).flatMap unitsOfCodePoint = text := by
  have single : ∀ u : CodeUnit, unitsOfCodePoint u.toNat = [u] := by
    intro u
    have bound := u.toNat_lt
    rw [unitsOfCodePoint, if_pos (by omega), UInt16.ofNat_toNat]
  induction text using codePoints.induct with
  | case1 => rfl
  | case2 u =>
      rw [codePoints, List.flatMap_cons, single, List.flatMap_nil]
      rfl
  | case3 u v rest paired ih =>
      rw [codePoints, if_pos paired, List.flatMap_cons, ih]
      simp only [Bool.and_eq_true, isHighSurrogate, isLowSurrogate, decide_eq_true_eq] at paired
      have high : 0xD800 + (0x10000 + (u.toNat - 0xD800) * 0x400 + (v.toNat - 0xDC00) - 0x10000) /
          0x400 = u.toNat := by omega
      have low : 0xDC00 + (0x10000 + (u.toNat - 0xD800) * 0x400 + (v.toNat - 0xDC00) - 0x10000) %
          0x400 = v.toNat := by omega
      rw [unitsOfCodePoint, if_neg (by omega), high, low, UInt16.ofNat_toNat, UInt16.ofNat_toNat]
      rfl
  | case4 u v rest alone ih =>
      rw [codePoints, if_neg alone, List.flatMap_cons, ih, single]
      rfl

theorem codePoints_injective : Function.Injective codePoints := by
  intro left right same
  rw [← unitsOfCodePoint_codePoints left, same, unitsOfCodePoint_codePoints]

theorem notAfter_decorate (left right : JsString) :
    notAfter (decorate left) (decorate right) = true ↔ codePoints left ≤ codePoints right := by
  unfold decorate codePointSortKey
  rw [notAfter_sortKeys (codePoints_small left) (codePoints_small right), le_iff_lt_or_eq]
  constructor
  · rintro (less | ⟨same, -⟩)
    · exact .inl less
    · exact .inr same
  · rintro (less | same)
    · exact .inl less
    · obtain rfl := codePoints_injective same
      exact .inr ⟨rfl, notAfter_refl left⟩

end Order

section Increasing

mutual

/-- At every level the members are in strictly increasing order of their keys' code points. -/
def KeysIncreasing : Json → Prop
  | .array items => KeysIncreasingItems items
  | .object members =>
      (members.map Prod.fst).Pairwise (fun left right => codePoints left < codePoints right) ∧
        KeysIncreasingMembers members
  | _ => True

def KeysIncreasingItems : List Json → Prop
  | [] => True
  | item :: rest => KeysIncreasing item ∧ KeysIncreasingItems rest

def KeysIncreasingMembers : List (JsString × Json) → Prop
  | [] => True
  | (_, value) :: rest => KeysIncreasing value ∧ KeysIncreasingMembers rest

end

theorem keysIncreasingMembers_iff (members : List (JsString × Json)) :
    KeysIncreasingMembers members ↔ ∀ member ∈ members, KeysIncreasing member.2 := by
  induction members with
  | nil => simp [KeysIncreasingMembers]
  | cons member members ih => simp [KeysIncreasingMembers, ih]

variable {α : Type}

theorem unicodeCodePointKeys_increasing {entries : List (JsString × α)}
    (distinct : (entries.map Prod.fst).Nodup) :
    ((unicodeCodePointKeys entries).map Prod.fst).Pairwise
      (fun left right => codePoints left < codePoints right) := by
  let precedes : JsString × α → JsString × α → Prop := fun left right =>
    notAfter (decorate left.1) (decorate right.1) = true
  have total : Std.Total precedes := ⟨fun left right => notAfter_total _ _⟩
  have transitive : IsTrans (JsString × α) precedes := ⟨fun _ _ _ => notAfter_trans⟩
  have ordered : (unicodeCodePointKeys entries).Pairwise precedes :=
    List.pairwise_insertionSort precedes entries
  have keys := ((unicodeCodePointKeys_perm entries).map Prod.fst).nodup_iff.mpr distinct
  have apart : (unicodeCodePointKeys entries).Pairwise fun left right => left.1 ≠ right.1 :=
    List.pairwise_map.mp keys
  refine List.pairwise_map.mpr ((ordered.and apart).imp ?_)
  rintro left right ⟨before, different⟩
  refine lt_of_le_of_ne ((notAfter_decorate left.1 right.1).mp before) fun same => ?_
  exact different (codePoints_injective same)

mutual

theorem canonicalForm_increasing :
    ∀ {value : Json}, WellFormed value → KeysIncreasing (canonicalForm value)
  | .null, _ => by rw [canonicalForm]; simp [KeysIncreasing]
  | .bool _, _ => by rw [canonicalForm]; simp [KeysIncreasing]
  | .integer _, _ => by rw [canonicalForm]; simp [KeysIncreasing]
  | .double _, _ => by rw [canonicalForm]; simp [KeysIncreasing]
  | .string _, _ => by rw [canonicalForm]; simp [KeysIncreasing]
  | .array items, formed => by
      rw [WellFormed] at formed
      rw [canonicalForm, KeysIncreasing]
      exact canonicalItems_increasing formed
  | .object members, formed => by
      rw [WellFormed] at formed
      rw [canonicalForm, KeysIncreasing]
      refine ⟨unicodeCodePointKeys_increasing ?_, ?_⟩
      · rw [canonicalMembers_keys]
        exact formed.1
      · have each := (keysIncreasingMembers_iff _).mp (canonicalMembers_increasing formed.2)
        refine (keysIncreasingMembers_iff _).mpr fun member listed => each member ?_
        exact (unicodeCodePointKeys_perm _).mem_iff.mp listed

theorem canonicalItems_increasing :
    ∀ {items : List Json}, WellFormedItems items → KeysIncreasingItems (canonicalItems items)
  | [], _ => by rw [canonicalItems, KeysIncreasingItems]; trivial
  | item :: rest, formed => by
      rw [WellFormedItems] at formed
      rw [canonicalItems, KeysIncreasingItems]
      exact ⟨canonicalForm_increasing formed.1, canonicalItems_increasing formed.2⟩

theorem canonicalMembers_increasing :
    ∀ {members : List (JsString × Json)}, WellFormedMembers members →
      KeysIncreasingMembers (canonicalMembers members)
  | [], _ => by rw [canonicalMembers, KeysIncreasingMembers]; trivial
  | (key, value) :: rest, formed => by
      rw [WellFormedMembers] at formed
      rw [canonicalMembers, KeysIncreasingMembers]
      exact ⟨canonicalForm_increasing formed.1, canonicalMembers_increasing formed.2⟩

end

end Increasing

section Equality

mutual

inductive EqualUpToOrder : Json → Json → Prop
  | null : EqualUpToOrder .null .null
  | bool (value : Bool) : EqualUpToOrder (.bool value) (.bool value)
  | integer (value : Int) : EqualUpToOrder (.integer value) (.integer value)
  | double (literal : JsString) : EqualUpToOrder (.double literal) (.double literal)
  | string (value : JsString) : EqualUpToOrder (.string value) (.string value)
  | array {left right : List Json} (items : EqualItems left right) :
      EqualUpToOrder (.array left) (.array right)
  | object {left shuffled right : List (JsString × Json)} (members : EqualMembers left shuffled)
      (order : shuffled.Perm right) : EqualUpToOrder (.object left) (.object right)

inductive EqualItems : List Json → List Json → Prop
  | nil : EqualItems [] []
  | cons {first second : Json} {left right : List Json} (head : EqualUpToOrder first second)
      (tail : EqualItems left right) : EqualItems (first :: left) (second :: right)

inductive EqualMembers : List (JsString × Json) → List (JsString × Json) → Prop
  | nil : EqualMembers [] []
  | cons {key : JsString} {first second : Json} {left right : List (JsString × Json)}
      (head : EqualUpToOrder first second) (tail : EqualMembers left right) :
      EqualMembers ((key, first) :: left) ((key, second) :: right)

end

theorem unicodeCodePointKeys_of_perm {α : Type} {left right : List (JsString × α)}
    (order : left.Perm right) (distinct : (left.map Prod.fst).Nodup) :
    unicodeCodePointKeys left = unicodeCodePointKeys right := by
  have rightDistinct := (order.map Prod.fst).nodup_iff.mp distinct
  have leftSorted := List.pairwise_map.mp (unicodeCodePointKeys_increasing distinct)
  have rightSorted := List.pairwise_map.mp (unicodeCodePointKeys_increasing rightDistinct)
  have perm := (unicodeCodePointKeys_perm left).trans
    (order.trans (unicodeCodePointKeys_perm right).symm)
  refine perm.eq_of_pairwise ?_ leftSorted rightSorted
  intro first second _ _ before after
  exact absurd (before.trans after) (lt_irrefl _)

mutual

theorem sameValue_of_equal : ∀ {left right : Json}, WellFormed left → EqualUpToOrder left right →
    canonicalForm left = canonicalForm right
  | _, _, _, .null => rfl
  | _, _, _, .bool _ => rfl
  | _, _, _, .integer _ => rfl
  | _, _, _, .double _ => rfl
  | _, _, _, .string _ => rfl
  | _, _, formed, .array items => by
      rw [WellFormed] at formed
      rw [canonicalForm, canonicalForm, sameItems_of_equal formed items]
  | _, _, formed, .object members order => by
      rw [WellFormed] at formed
      have same := sameMembers_of_equal formed.2 members
      have shuffled := order.map fun member => (member.1, canonicalForm member.2)
      rw [← canonicalMembers_map, ← canonicalMembers_map, ← same] at shuffled
      rw [canonicalForm, canonicalForm, unicodeCodePointKeys_of_perm shuffled]
      rw [canonicalMembers_keys]
      exact formed.1

theorem sameItems_of_equal : ∀ {left right : List Json}, WellFormedItems left →
    EqualItems left right → canonicalItems left = canonicalItems right
  | _, _, _, .nil => rfl
  | _, _, formed, .cons head tail => by
      rw [WellFormedItems] at formed
      rw [canonicalItems, canonicalItems, sameValue_of_equal formed.1 head,
        sameItems_of_equal formed.2 tail]

theorem sameMembers_of_equal : ∀ {left right : List (JsString × Json)}, WellFormedMembers left →
    EqualMembers left right → canonicalMembers left = canonicalMembers right
  | _, _, _, .nil => rfl
  | _, _, formed, .cons head tail => by
      rw [WellFormedMembers] at formed
      rw [canonicalMembers, canonicalMembers, sameValue_of_equal formed.1 head,
        sameMembers_of_equal formed.2 tail]

end

theorem exists_shuffled {left right : List (JsString × Json)}
    (order : (canonicalMembers left).Perm (canonicalMembers right)) :
    ∃ shuffled, canonicalMembers left = canonicalMembers shuffled ∧ shuffled.Perm right := by
  have images : List.Forall₂ (fun image member => image = (member.1, canonicalForm member.2))
      (canonicalMembers right) right := by
    rw [canonicalMembers_map]
    exact List.forall₂_map_left_iff.mpr (List.forall₂_same.mpr fun _ _ => rfl)
  obtain ⟨shuffled, paired, perm⟩ := List.perm_comp_forall₂ order images
  refine ⟨shuffled, ?_, perm⟩
  rw [canonicalMembers_map shuffled]
  rwa [← List.forall₂_map_right_iff, List.forall₂_eq_eq_eq] at paired

mutual

theorem equal_of_sameValue : ∀ (left : Json) {right : Json},
    canonicalForm left = canonicalForm right → EqualUpToOrder left right
  | .null, right, same => by
      cases right <;> simp only [canonicalForm, reduceCtorEq] at same
      exact .null
  | .bool value, right, same => by
      cases right <;> simp only [canonicalForm, reduceCtorEq, Json.bool.injEq] at same
      exact same ▸ .bool value
  | .integer value, right, same => by
      cases right <;> simp only [canonicalForm, reduceCtorEq, Json.integer.injEq] at same
      exact same ▸ .integer value
  | .double literal, right, same => by
      cases right <;> simp only [canonicalForm, reduceCtorEq, Json.double.injEq] at same
      exact same ▸ .double literal
  | .string value, right, same => by
      cases right <;> simp only [canonicalForm, reduceCtorEq, Json.string.injEq] at same
      exact same ▸ .string value
  | .array items, right, same => by
      cases right <;> simp only [canonicalForm, reduceCtorEq, Json.array.injEq] at same
      exact .array (equal_of_sameItems items same)
  | .object members, right, same => by
      cases right <;> simp only [canonicalForm, reduceCtorEq, Json.object.injEq] at same
      rename_i others
      have one := (unicodeCodePointKeys_perm (canonicalMembers members)).symm
      rw [same] at one
      obtain ⟨shuffled, images, order⟩ :=
        exists_shuffled (one.trans (unicodeCodePointKeys_perm (canonicalMembers others)))
      exact .object (equal_of_sameMembers members images) order

theorem equal_of_sameItems : ∀ (left : List Json) {right : List Json},
    canonicalItems left = canonicalItems right → EqualItems left right
  | [], right, same => by
      cases right with
      | nil => exact .nil
      | cons item rest => simp [canonicalItems] at same
  | first :: left, right, same => by
      cases right with
      | nil => simp [canonicalItems] at same
      | cons second right =>
          rw [canonicalItems, canonicalItems] at same
          obtain ⟨head, tail⟩ := List.cons.inj same
          exact .cons (equal_of_sameValue first head) (equal_of_sameItems left tail)

theorem equal_of_sameMembers : ∀ (left : List (JsString × Json)) {right : List (JsString × Json)},
    canonicalMembers left = canonicalMembers right → EqualMembers left right
  | [], right, same => by
      cases right with
      | nil => exact .nil
      | cons member rest => simp [canonicalMembers] at same
  | (key, first) :: left, right, same => by
      cases right with
      | nil => simp [canonicalMembers] at same
      | cons member right =>
          obtain ⟨other, second⟩ := member
          rw [canonicalMembers, canonicalMembers] at same
          obtain ⟨head, tail⟩ := List.cons.inj same
          obtain ⟨rfl, values⟩ := Prod.mk.inj head
          exact .cons (equal_of_sameValue first values) (equal_of_sameMembers left tail)

end

theorem canonicalJson_eq_iff {left right : Json} (leftFormed : WellFormed left)
    (rightFormed : WellFormed right) :
    canonicalizeJson left = canonicalizeJson right ↔ EqualUpToOrder left right := by
  constructor
  · intro same
    exact equal_of_sameValue left (canonicalForm_of_canonicalizeJson leftFormed rightFormed same)
  · intro equal
    rw [← canonicalizeJson_canonicalForm left, sameValue_of_equal leftFormed equal,
      canonicalizeJson_canonicalForm]

/-- The canonical text parses to the value with its keys in increasing order, is the text of
what it parses to, and is shared by the values equal up to the order of keys alone. -/
theorem canonical_json_faithful :
    (∀ value, WellFormed value → ∃ parsed,
      parse (canonicalizeJson value) = some parsed ∧ EqualUpToOrder parsed value ∧
        canonicalizeJson parsed = canonicalizeJson value ∧ KeysIncreasing parsed) ∧
      ∀ left right, WellFormed left → WellFormed right →
        (canonicalizeJson left = canonicalizeJson right ↔ EqualUpToOrder left right) := by
  refine ⟨fun value formed => ?_, fun left right => canonicalJson_eq_iff⟩
  have nothing : Blank ([] : JsString) := by
    intro u member
    cases member
  have parsed := parse_canonicalizeJson formed nothing
  rw [List.append_nil] at parsed
  exact ⟨canonicalForm value, parsed, equal_of_sameValue _ (canonicalForm_idem value),
    canonicalizeJson_canonicalForm value, canonicalForm_increasing formed⟩

/-- A value with a NUL, a lone surrogate, an astral key and a number that is no safe integer. -/
def sampleValue : Json :=
  .object [([0xD800, 0xDC00], .double (js "1.5e-7")), ([0], .array [.null, .integer (-3)]),
    ([0xDFFF], .object [(js "b", .bool true), (js "a", .string [0, 0xD800])])]

theorem sampleValue_faithful :
    ∃ parsed, parse (canonicalizeJson sampleValue) = some parsed ∧
      EqualUpToOrder parsed sampleValue ∧
      canonicalizeJson parsed = canonicalizeJson sampleValue ∧ KeysIncreasing parsed := by
  have formed : WellFormed sampleValue := by
    simp only [sampleValue, WellFormed, WellFormedMembers, WellFormedItems]
    exact ⟨by decide, rfl, ⟨trivial, rfl, trivial⟩, ⟨by decide, trivial, trivial, trivial⟩, trivial⟩
  exact canonical_json_faithful.1 sampleValue formed

end Equality

end Kratos.Schema
