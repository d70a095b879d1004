/- source: domain/schema/canonical-json.ts
   digest: The canonical text of a JSON value, the order of its members and what it determines. -/

import Kratos.Foundation.JsonParser
import Mathlib.Data.List.Sort

set_option autoImplicit false

namespace Kratos.Schema

open Foundation.Text Foundation.JsonText

/-- `codePoint.toString(16).padStart(6, "0")`. -/
def codePointHex (p : Nat) : JsString :=
  [hexDigit (p / 1048576), hexDigit (p / 65536), hexDigit (p / 4096), hexDigit (p / 256),
    hexDigit (p / 16), hexDigit p]

/-- Fixed-width hexadecimal preserves numeric code-point order and prefixes. -/
def codePointSortKey (value : JsString) : JsString := (codePoints value).flatMap codePointHex

/-- `${codePointSortKey(key)}\u0000${key}`. -/
def decorate (key : JsString) : JsString := codePointSortKey key ++ 0 :: key

/-- The built-in order of strings: unit by unit, a prefix first. -/
def notAfter : JsString → JsString → Bool
  | [], _ => true
  | _ :: _, [] => false
  | u :: left, v :: right => if u = v then notAfter left right else decide (u < v)

/-- `unicodeCodePointKeys`, each key with its own value. -/
def unicodeCodePointKeys {α : Type} (entries : List (JsString × α)) : List (JsString × α) :=
  entries.insertionSort fun left right => notAfter (decorate left.1) (decorate right.1) = true

mutual

def canonicalizeJson : Json → JsString
  | .null => js "null"
  | .bool value => if value then js "true" else js "false"
  | .integer value => integerText value
  | .double literal => literal
  | .string value => quote value
  | .array items => unit '[' :: (joinEntries [] (encodeArray items) ++ [unit ']'])
  | .object members =>
      unit '{' :: (joinEntries [] ((unicodeCodePointKeys (encodeObject members)).map fun member =>
        quote member.1 ++ unit ':' :: member.2) ++ [unit '}'])

def encodeArray : List Json → List JsString
  | [] => []
  | item :: rest => canonicalizeJson item :: encodeArray rest

/-- Each key with the encoding of its value. -/
def encodeObject : List (JsString × Json) → List (JsString × JsString)
  | [] => []
  | (key, value) :: rest => (key, canonicalizeJson value) :: encodeObject rest

end

mutual

/-- The value with the members of every object in canonical order. -/
def canonicalForm : Json → Json
  | .array items => .array (canonicalItems items)
  | .object members => .object (unicodeCodePointKeys (canonicalMembers members))
  | .null => .null
  | .bool value => .bool value
  | .integer value => .integer value
  | .double literal => .double literal
  | .string value => .string value

def canonicalItems : List Json → List Json
  | [] => []
  | item :: rest => canonicalForm item :: canonicalItems rest

def canonicalMembers : List (JsString × Json) → List (JsString × Json)
  | [] => []
  | (key, value) :: rest => (key, canonicalForm value) :: canonicalMembers rest

end

theorem notAfter_refl (s : JsString) : notAfter s s = true := by
  induction s with
  | nil => rfl
  | cons u s ih => simp only [notAfter, if_true, ih]

theorem notAfter_total (left right : JsString) :
    notAfter left right = true ∨ notAfter right left = true := by
  induction left generalizing right with
  | nil => exact .inl (by rw [notAfter])
  | cons u left ih =>
      cases right with
      | nil => exact .inr (by rw [notAfter])
      | cons v right =>
          by_cases same : u = v
          · subst same
            simpa only [notAfter, if_true] using ih right
          · have other : ¬ v = u := fun equal => same equal.symm
            simp only [notAfter, if_neg same, if_neg other, decide_eq_true_eq]
            have differ : u.toNat ≠ v.toNat := fun equal => same (UInt16.toNat_inj.mp equal)
            simp only [UInt16.lt_iff_toNat_lt]
            omega

theorem notAfter_trans {first second third : JsString} (left : notAfter first second = true)
    (right : notAfter second third = true) : notAfter first third = true := by
  induction first generalizing second third with
  | nil => rw [notAfter]
  | cons u first ih =>
      cases second with
      | nil => cases left
      | cons v second =>
          cases third with
          | nil => cases right
          | cons w third =>
              simp only [notAfter] at left right ⊢
              by_cases uv : u = v
              · subst uv
                rw [if_pos rfl] at left
                by_cases uw : u = w
                · rw [if_pos uw] at right ⊢
                  exact ih left right
                · rw [if_neg uw] at right ⊢
                  exact right
              · rw [if_neg uv, decide_eq_true_eq, UInt16.lt_iff_toNat_lt] at left
                by_cases vw : v = w
                · subst vw
                  rw [if_neg uv, decide_eq_true_eq, UInt16.lt_iff_toNat_lt]
                  exact left
                · rw [if_neg vw, decide_eq_true_eq, UInt16.lt_iff_toNat_lt] at right
                  have differ : ¬ u = w := by
                    rintro rfl
                    omega
                  rw [if_neg differ, decide_eq_true_eq, UInt16.lt_iff_toNat_lt]
                  omega

theorem notAfter_antisymm {left right : JsString} (forward : notAfter left right = true)
    (backward : notAfter right left = true) : left = right := by
  induction left generalizing right with
  | nil =>
      cases right with
      | nil => rfl
      | cons v right => cases backward
  | cons u left ih =>
      cases right with
      | nil => cases forward
      | cons v right =>
          simp only [notAfter] at forward backward
          by_cases same : u = v
          · subst same
            rw [if_pos rfl] at forward backward
            rw [ih forward backward]
          · have other : ¬ v = u := fun equal => same equal.symm
            rw [if_neg same, decide_eq_true_eq, UInt16.lt_iff_toNat_lt] at forward
            rw [if_neg other, decide_eq_true_eq, UInt16.lt_iff_toNat_lt] at backward
            omega

section Order

variable {α β : Type}

theorem unicodeCodePointKeys_perm (entries : List (JsString × α)) :
    (unicodeCodePointKeys entries).Perm entries :=
  List.perm_insertionSort _ entries

/-- Sorting is on keys alone, so it commutes with whatever is done to the values. -/
theorem unicodeCodePointKeys_map (f : α → β) (entries : List (JsString × α)) :
    (unicodeCodePointKeys entries).map (fun entry => (entry.1, f entry.2)) =
      unicodeCodePointKeys (entries.map fun entry => (entry.1, f entry.2)) :=
  List.map_insertionSort _ _ _ _ fun _ _ _ _ => Iff.rfl

theorem unicodeCodePointKeys_idem (entries : List (JsString × α)) :
    unicodeCodePointKeys (unicodeCodePointKeys entries) = unicodeCodePointKeys entries := by
  let precedes : JsString × α → JsString × α → Prop := fun left right =>
    notAfter (decorate left.1) (decorate right.1) = true
  have total : Std.Total precedes := ⟨fun left right => notAfter_total _ _⟩
  have transitive : IsTrans (JsString × α) precedes := ⟨fun _ _ _ => notAfter_trans⟩
  exact List.Pairwise.insertionSort_eq (List.pairwise_insertionSort precedes entries)

end Order

section Forms

theorem encodeObject_map (members : List (JsString × Json)) :
    encodeObject members = members.map fun member => (member.1, canonicalizeJson member.2) := by
  induction members with
  | nil => rfl
  | cons member members ih => rw [encodeObject, ih, List.map_cons]

theorem canonicalMembers_map (members : List (JsString × Json)) :
    canonicalMembers members = members.map fun member => (member.1, canonicalForm member.2) := by
  induction members with
  | nil => rfl
  | cons member members ih => rw [canonicalMembers, ih, List.map_cons]

theorem stringifyMembers_map (layout : Layout) (depth : Nat)
    (members : List (JsString × Json)) :
    stringifyMembers layout depth members = members.map fun member =>
      quote member.1 ++ unit ':' :: layout.gap ++ stringify layout depth member.2 := by
  induction members with
  | nil => rfl
  | cons member members ih => rw [stringifyMembers, ih, List.map_cons]

theorem canonicalMembers_keys (members : List (JsString × Json)) :
    (canonicalMembers members).map Prod.fst = members.map Prod.fst := by
  rw [canonicalMembers_map, List.map_map]
  rfl

theorem sortedMembers_keys (members : List (JsString × Json)) :
    ((unicodeCodePointKeys (canonicalMembers members)).map Prod.fst).Perm
      (members.map Prod.fst) := by
  have perm := (unicodeCodePointKeys_perm (canonicalMembers members)).map Prod.fst
  rwa [canonicalMembers_keys] at perm

theorem enclose_compact (depth : Nat) (opening closing : Char) (entries : List JsString) :
    enclose compact depth opening closing entries =
      unit opening :: (joinEntries [] entries ++ [unit closing]) := by
  cases entries with
  | nil => rfl
  | cons entry entries =>
      rw [enclose_nonempty (List.cons_ne_nil _ _)]
      rfl

mutual

theorem stringify_canonicalForm (depth : Nat) :
    ∀ value : Json, stringify compact depth (canonicalForm value) = canonicalizeJson value
  | .null => rfl
  | .bool _ => rfl
  | .integer _ => rfl
  | .double _ => rfl
  | .string _ => rfl
  | .array items => by
      rw [canonicalForm, stringify, enclose_compact, stringify_canonicalItems (depth + 1) items,
        canonicalizeJson]
  | .object members => by
      have texts := stringify_canonicalMembers (depth + 1) members
      have sorted := unicodeCodePointKeys_map (stringify compact (depth + 1))
        (canonicalMembers members)
      rw [texts] at sorted
      have rendered : stringifyMembers compact (depth + 1)
          (unicodeCodePointKeys (canonicalMembers members)) =
            (unicodeCodePointKeys (encodeObject members)).map fun member =>
              quote member.1 ++ unit ':' :: member.2 := by
        rw [← sorted, stringifyMembers_map, List.map_map]
        refine List.map_congr_left fun member _ => ?_
        rw [List.append_assoc]
        rfl
      rw [canonicalForm, stringify, enclose_compact, rendered, canonicalizeJson]

theorem stringify_canonicalItems (depth : Nat) :
    ∀ items : List Json, stringifyItems compact depth (canonicalItems items) = encodeArray items
  | [] => rfl
  | item :: rest => by
      rw [canonicalItems, stringifyItems, encodeArray, stringify_canonicalForm depth item,
        stringify_canonicalItems depth rest]

theorem stringify_canonicalMembers (depth : Nat) :
    ∀ members : List (JsString × Json),
      (canonicalMembers members).map (fun member => (member.1, stringify compact depth member.2)) =
        encodeObject members
  | [] => rfl
  | (key, value) :: rest => by
      rw [canonicalMembers, encodeObject, List.map_cons, stringify_canonicalForm depth value,
        stringify_canonicalMembers depth rest]

end

mutual

theorem canonicalForm_idem :
    ∀ value : Json, canonicalForm (canonicalForm value) = canonicalForm value
  | .null => rfl
  | .bool _ => rfl
  | .integer _ => rfl
  | .double _ => rfl
  | .string _ => rfl
  | .array items => by rw [canonicalForm, canonicalForm, canonicalItems_idem items]
  | .object members => by
      have again := canonicalMembers_idem members
      have sorted := unicodeCodePointKeys_map canonicalForm (canonicalMembers members)
      rw [← canonicalMembers_map, ← canonicalMembers_map, again] at sorted
      rw [canonicalForm, canonicalForm, sorted, unicodeCodePointKeys_idem]

theorem canonicalItems_idem :
    ∀ items : List Json, canonicalItems (canonicalItems items) = canonicalItems items
  | [] => rfl
  | item :: rest => by
      rw [canonicalItems, canonicalItems, canonicalForm_idem item, canonicalItems_idem rest]

theorem canonicalMembers_idem :
    ∀ members : List (JsString × Json),
      canonicalMembers (canonicalMembers members) = canonicalMembers members
  | [] => rfl
  | (key, value) :: rest => by
      rw [canonicalMembers, canonicalMembers, canonicalForm_idem value,
        canonicalMembers_idem rest]

end

mutual

theorem WellFormed.canonicalForm :
    ∀ {value : Json}, WellFormed value → WellFormed (canonicalForm value)
  | .null, _ => by rw [Schema.canonicalForm, WellFormed] <;> simp
  | .bool _, _ => by rw [Schema.canonicalForm, WellFormed] <;> simp
  | .integer _, formed => by rwa [Schema.canonicalForm]
  | .double _, formed => by rwa [Schema.canonicalForm]
  | .string _, _ => by rw [Schema.canonicalForm, WellFormed] <;> simp
  | .array items, formed => by
      rw [WellFormed] at formed
      rw [Schema.canonicalForm, WellFormed]
      exact WellFormedItems.canonicalItems formed
  | .object members, formed => by
      rw [WellFormed] at formed
      rw [Schema.canonicalForm, WellFormed]
      refine ⟨(sortedMembers_keys members).nodup_iff.mpr formed.1, ?_⟩
      have each := (wellFormedMembers_iff _).mp (WellFormedMembers.canonicalMembers formed.2)
      refine (wellFormedMembers_iff _).mpr fun member listed => each member ?_
      exact (unicodeCodePointKeys_perm _).mem_iff.mp listed

theorem WellFormedItems.canonicalItems :
    ∀ {items : List Json}, WellFormedItems items → WellFormedItems (canonicalItems items)
  | [], _ => by rw [Schema.canonicalItems, WellFormedItems]; trivial
  | item :: rest, formed => by
      rw [WellFormedItems] at formed
      rw [Schema.canonicalItems, WellFormedItems]
      exact ⟨WellFormed.canonicalForm formed.1, WellFormedItems.canonicalItems formed.2⟩

theorem WellFormedMembers.canonicalMembers :
    ∀ {members : List (JsString × Json)}, WellFormedMembers members →
      WellFormedMembers (canonicalMembers members)
  | [], _ => by rw [Schema.canonicalMembers, WellFormedMembers]; trivial
  | (key, value) :: rest, formed => by
      rw [WellFormedMembers] at formed
      rw [Schema.canonicalMembers, WellFormedMembers]
      exact ⟨WellFormed.canonicalForm formed.1, WellFormedMembers.canonicalMembers formed.2⟩

end

theorem parse_canonicalizeJson {value : Json} (formed : WellFormed value) {trailing : JsString}
    (spaces : Blank trailing) :
    parse (canonicalizeJson value ++ trailing) = some (canonicalForm value) := by
  rw [← stringify_canonicalForm 0]
  exact parse_stringify compact (WellFormed.canonicalForm formed) spaces

/-- Two values with one canonical text differ in the order of their members alone. -/
theorem canonicalForm_of_canonicalizeJson {left right : Json} (leftFormed : WellFormed left)
    (rightFormed : WellFormed right) (same : canonicalizeJson left = canonicalizeJson right) :
    canonicalForm left = canonicalForm right := by
  have nothing : Blank ([] : JsString) := by
    intro u member
    cases member
  have leftParsed := parse_canonicalizeJson leftFormed nothing
  have rightParsed := parse_canonicalizeJson rightFormed nothing
  rw [same, rightParsed] at leftParsed
  exact (Option.some.inj leftParsed).symm

theorem canonicalizeJson_canonicalForm (value : Json) :
    canonicalizeJson (canonicalForm value) = canonicalizeJson value := by
  rw [← stringify_canonicalForm 0 (canonicalForm value), canonicalForm_idem,
    stringify_canonicalForm]

end Forms

section Printable

def Printable (text : JsString) : Prop := ∀ u ∈ text, 0x20 ≤ u.toNat

instance (text : JsString) : Decidable (Printable text) :=
  decidable_of_iff ((text.all fun u => decide (0x20 ≤ u.toNat)) = true) List.all_iff_forall_prop

theorem Printable.append {front back : JsString} (first : Printable front)
    (second : Printable back) : Printable (front ++ back) := by
  intro u member
  rcases List.mem_append.mp member with left | right
  · exact first u left
  · exact second u right

theorem Printable.cons {u : CodeUnit} {text : JsString} (first : 0x20 ≤ u.toNat)
    (second : Printable text) : Printable (u :: text) := by
  intro v member
  rcases List.mem_cons.mp member with rfl | later
  · exact first
  · exact second v later

theorem Printable.not_mem {text : JsString} (printable : Printable text) {u : CodeUnit}
    (control : u.toNat < 0x20) : u ∉ text := by
  intro member
  have large := printable u member
  omega

theorem hexDigit_printable (n : Nat) : 0x20 ≤ (hexDigit n).toNat := by
  have small : ∀ d < 16, 0x20 ≤ (hexDigit d).toNat := by decide
  rw [← hexDigit_mod]
  exact small _ (Nat.mod_lt n (by decide))

theorem unicodeEscape_printable (u : CodeUnit) : Printable (unicodeEscape u) := by
  have digits := fun n => hexDigit_printable n
  exact Printable.cons (by decide) (.cons (by decide) (.cons (digits _) (.cons (digits _)
    (.cons (digits _) (.cons (digits _) (by intro v member; cases member))))))

theorem quoteUnit_printable (u : CodeUnit) : Printable (quoteUnit u) := by
  unfold quoteUnit
  split
  · rename_i letter code found
    have letters : ∀ entry ∈ letterEscapes, 0x20 ≤ entry.1.toNat :=
      List.all_iff_forall_prop.mp (by decide)
    exact .cons (by decide) (.cons (letters _ (List.mem_of_find?_eq_some found))
      (by intro v member; cases member))
  · by_cases control : u.toNat < 0x20
    · rw [if_pos control]
      exact unicodeEscape_printable u
    · rw [if_neg control]
      exact .cons (by omega) (by intro v member; cases member)

theorem quoteLone_printable (u : CodeUnit) : Printable (quoteLone u) := by
  unfold quoteLone
  split
  · exact unicodeEscape_printable u
  · exact quoteUnit_printable u

theorem quoteUnits_printable (text : JsString) : Printable (quoteUnits text) := by
  induction text using quoteUnits.induct with
  | case1 =>
      intro u member
      cases member
  | case2 u =>
      rw [quoteUnits]
      exact quoteLone_printable u
  | case3 u v rest paired ih =>
      rw [quoteUnits, if_pos paired]
      simp only [Bool.and_eq_true, isHighSurrogate, isLowSurrogate, decide_eq_true_eq] at paired
      exact .cons (by omega) (.cons (by omega) ih)
  | case4 u v rest single ih =>
      rw [quoteUnits, if_neg single]
      exact (quoteLone_printable u).append ih

theorem quote_printable (text : JsString) : Printable (quote text) :=
  .cons (by decide) ((quoteUnits_printable text).append (by decide))

theorem digits_printable {digits : JsString} (each : ∀ u ∈ digits, isDigit u = true) :
    Printable digits := by
  intro u member
  have digit := each u member
  simp only [isDigit, between, Bool.and_eq_true, decide_eq_true_eq] at digit
  have zero : '0'.toNat = 0x30 := rfl
  omega

theorem takeWhile_printable (text : JsString) : Printable (text.takeWhile isDigit) :=
  digits_printable (List.all_eq_true.mp List.all_takeWhile)

theorem integerText_printable (value : Int) : Printable (integerText value) := by
  have digits : Printable (decimal value.natAbs) := digits_printable (decimal_digits _)
  unfold integerText
  split
  · exact .cons (by decide) digits
  · exact digits

theorem readFraction_printable {text fraction after : JsString}
    (read : readFraction text = some (fraction, after)) : Printable fraction := by
  cases text with
  | nil =>
      obtain ⟨rfl, -⟩ := Prod.mk.inj (Option.some.inj read)
      decide
  | cons u text =>
      rw [readFraction] at read
      split at read
      · rename_i point
        split at read
        · cases read
        · obtain ⟨rfl, -⟩ := Prod.mk.inj (Option.some.inj read)
          obtain rfl := beq_iff_eq.mp point
          exact .cons (by decide) (takeWhile_printable text)
      · obtain ⟨rfl, -⟩ := Prod.mk.inj (Option.some.inj read)
        decide

theorem readSign_printable (text : JsString) : Printable (readSign text).1 := by
  cases text with
  | nil => decide
  | cons u text =>
      rw [readSign]
      split
      · rename_i sign
        simp only [Bool.or_eq_true, beq_iff_eq] at sign
        rcases sign with rfl | rfl
        · show Printable [unit '+']
          decide
        · show Printable [unit '-']
          decide
      · show Printable []
        decide

theorem readExponent_printable {text exponent after : JsString}
    (read : readExponent text = some (exponent, after)) : Printable exponent := by
  cases text with
  | nil =>
      obtain ⟨rfl, -⟩ := Prod.mk.inj (Option.some.inj read)
      decide
  | cons u text =>
      rw [readExponent] at read
      split at read
      · rename_i marked
        split at read
        · cases read
        · obtain ⟨rfl, -⟩ := Prod.mk.inj (Option.some.inj read)
          have mark : 0x20 ≤ u.toNat := by
            simp only [Bool.or_eq_true, beq_iff_eq] at marked
            rcases marked with rfl | rfl
            · decide
            · decide
          exact .cons mark ((readSign_printable text).append (takeWhile_printable _))
      · obtain ⟨rfl, -⟩ := Prod.mk.inj (Option.some.inj read)
        decide

theorem literal_printable {literal : JsString}
    (formed : readNumber literal = some (.double literal, [])) : Printable literal := by
  obtain ⟨fraction, after, exponent, -, first, second, -, shape⟩ := readNumber_double formed
  have sign : Printable (if (readMinus literal).1 then js "-" else []) := by
    split
    · decide
    · decide
  rw [shape]
  exact ((sign.append (takeWhile_printable _)).append (readFraction_printable first)).append
    (readExponent_printable second)

theorem joinEntries_printable {entries : List JsString}
    (each : ∀ entry ∈ entries, Printable entry) : Printable (joinEntries [] entries) := by
  induction entries using joinEntries.induct with
  | case1 =>
      intro u member
      cases member
  | case2 entry => exact each entry List.mem_cons_self
  | case3 entry next rest ih =>
      rw [joinEntries]
      have first := each entry List.mem_cons_self
      have later := ih fun other member => each other (List.mem_cons_of_mem _ member)
      have comma : Printable [unit ','] := by decide
      exact (first.append comma).append later

mutual

theorem canonicalizeJson_printable :
    ∀ {value : Json}, WellFormed value → Printable (canonicalizeJson value)
  | .null, _ => by rw [canonicalizeJson]; decide
  | .bool false, _ => by rw [canonicalizeJson]; decide
  | .bool true, _ => by rw [canonicalizeJson]; decide
  | .integer value, _ => by
      rw [canonicalizeJson]
      exact integerText_printable value
  | .double _, formed => by
      rw [WellFormed] at formed
      rw [canonicalizeJson]
      exact literal_printable formed
  | .string value, _ => by
      rw [canonicalizeJson]
      exact quote_printable value
  | .array items, formed => by
      rw [WellFormed] at formed
      rw [canonicalizeJson]
      exact .cons (by decide)
        ((joinEntries_printable (encodeArray_printable formed)).append (by decide))
  | .object members, formed => by
      rw [WellFormed] at formed
      rw [canonicalizeJson]
      refine .cons (by decide) ((joinEntries_printable ?_).append (by decide))
      intro entry listed
      obtain ⟨member, held, rfl⟩ := List.mem_map.mp listed
      have source := (unicodeCodePointKeys_perm _).mem_iff.mp held
      exact (quote_printable _).append
        (.cons (by decide) (encodeObject_printable formed.2 member source))

theorem encodeArray_printable :
    ∀ {items : List Json}, WellFormedItems items →
      ∀ entry ∈ encodeArray items, Printable entry
  | [], _, _, listed => by cases listed
  | item :: rest, formed, entry, listed => by
      rw [WellFormedItems] at formed
      rw [encodeArray] at listed
      rcases List.mem_cons.mp listed with rfl | later
      · exact canonicalizeJson_printable formed.1
      · exact encodeArray_printable formed.2 entry later

theorem encodeObject_printable :
    ∀ {members : List (JsString × Json)}, WellFormedMembers members →
      ∀ member ∈ encodeObject members, Printable member.2
  | [], _, _, listed => by cases listed
  | (key, value) :: rest, formed, member, listed => by
      rw [WellFormedMembers] at formed
      rw [encodeObject] at listed
      rcases List.mem_cons.mp listed with rfl | later
      · exact canonicalizeJson_printable formed.1
      · exact encodeObject_printable formed.2 member later

end

end Printable

section Lengths

theorem length_le_joinEntries (separator : JsString) {entry : JsString} {entries : List JsString}
    (listed : entry ∈ entries) : entry.length ≤ (joinEntries separator entries).length := by
  induction entries using joinEntries.induct with
  | case1 => cases listed
  | case2 only =>
      obtain rfl := List.mem_singleton.mp listed
      exact Nat.le_refl _
  | case3 first next rest ih =>
      rw [joinEntries]
      simp only [List.length_append]
      rcases List.mem_cons.mp listed with rfl | later
      · omega
      · have within := ih later
        omega

theorem mul_le_joinEntries (separator : JsString) {entries : List JsString} {n : Nat}
    (each : ∀ entry ∈ entries, n ≤ entry.length) :
    n * entries.length ≤ (joinEntries separator entries).length := by
  induction entries using joinEntries.induct with
  | case1 => exact Nat.le_refl _
  | case2 only =>
      have held := each only List.mem_cons_self
      simpa [joinEntries] using held
  | case3 first next rest ih =>
      have held := each first List.mem_cons_self
      have later := ih fun entry member => each entry (List.mem_cons_of_mem _ member)
      rw [joinEntries, List.length_cons, Nat.mul_succ]
      simp only [List.length_append]
      omega

theorem member_le_object {members : List (JsString × Json)} {member : JsString × Json}
    (listed : member ∈ members) :
    (canonicalizeJson member.2).length ≤ (canonicalizeJson (.object members)).length := by
  have encoded : (member.1, canonicalizeJson member.2) ∈ encodeObject members := by
    rw [encodeObject_map]
    exact List.mem_map_of_mem listed
  have sorted := (unicodeCodePointKeys_perm (encodeObject members)).mem_iff.mpr encoded
  have shown := List.mem_map_of_mem (f := fun entry : JsString × JsString =>
    quote entry.1 ++ unit ':' :: entry.2) sorted
  have joined := length_le_joinEntries [] shown
  rw [canonicalizeJson]
  simp only [List.length_append, List.length_cons] at joined ⊢
  omega

theorem items_le_array {items : List Json} {n : Nat}
    (each : ∀ item ∈ items, n ≤ (canonicalizeJson item).length) :
    n * items.length ≤ (canonicalizeJson (.array items)).length := by
  have encoded : encodeArray items = items.map canonicalizeJson := by
    induction items with
    | nil => rfl
    | cons item items ih =>
        rw [encodeArray, List.map_cons, ih fun other member => each other (List.mem_cons_of_mem _ member)]
  have long : ∀ text ∈ items.map canonicalizeJson, n ≤ text.length := List.forall_mem_map.mpr each
  have joined := mul_le_joinEntries [] long
  rw [List.length_map] at joined
  rw [canonicalizeJson, encoded]
  simp only [List.length_append, List.length_cons]
  omega

end Lengths

example : canonicalizeJson (.object [(js "b", .integer 1), (js "a", .array [.null])]) =
    js "\x7b\"a\":[null],\"b\":1\x7d" := by decide

end Kratos.Schema
