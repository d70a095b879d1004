/- source: none(general)
   digest: Values whose strings are written as they stand, and the length of their canonical text. -/

import Kratos.Foundation.Lines
import Kratos.Schema.Codec

set_option autoImplicit false

namespace Kratos.Schema

open Foundation.Text Foundation.JsonText Foundation.Lines

/-- A unit that a quoted string shows unchanged, in one byte. -/
def isPlain (u : CodeUnit) : Bool :=
  decide (0x20 ≤ u.toNat) && decide (u.toNat < 0x7F) && u != unit '"' && u != unit '\\'

def Plain (s : JsString) : Prop := ∀ u ∈ s, isPlain u = true

theorem isPlain_between {low high : Char} {u : CodeUnit} (within : between low high u = true)
    (floor : 0x23 ≤ low.toNat) (ceiling : high.toNat < 0x7F)
    (clear : high.toNat < 0x5C ∨ 0x5C < low.toNat) : isPlain u = true := by
  simp only [between, Bool.and_eq_true, decide_eq_true_eq] at within
  have quotes : u ≠ unit '"' := by
    rintro rfl
    have value : (unit '"').toNat = 0x22 := rfl
    omega
  have backslash : u ≠ unit '\\' := by
    rintro rfl
    have value : (unit '\\').toNat = 0x5C := rfl
    omega
  simp only [isPlain, Bool.and_eq_true, decide_eq_true_eq, bne_iff_ne]
  exact ⟨⟨⟨by omega, by omega⟩, quotes⟩, backslash⟩

theorem isPlain_digit {u : CodeUnit} (digit : isDigit u = true) : isPlain u = true :=
  isPlain_between digit (by decide) (by decide) (by decide)

mutual

/-- Every string of the value is plain, and it holds no double. -/
def PlainJson : Json → Prop
  | .null => True
  | .bool _ => True
  | .integer _ => True
  | .double _ => False
  | .string value => Plain value
  | .array items => PlainItems items
  | .object members => PlainMembers members

def PlainItems : List Json → Prop
  | [] => True
  | item :: rest => PlainJson item ∧ PlainItems rest

def PlainMembers : List (JsString × Json) → Prop
  | [] => True
  | (key, value) :: rest => Plain key ∧ PlainJson value ∧ PlainMembers rest

end

def joinedLength (lengths : List Nat) : Nat := lengths.sum + (lengths.length - 1)

mutual

def plainLength : Json → Nat
  | .null => 4
  | .bool value => if value then 4 else 5
  | .integer value => (integerText value).length
  | .double literal => literal.length
  | .string value => value.length + 2
  | .array items => joinedLength (itemLengths items) + 2
  | .object members => joinedLength (memberLengths members) + 2

def itemLengths : List Json → List Nat
  | [] => []
  | item :: rest => plainLength item :: itemLengths rest

def memberLengths : List (JsString × Json) → List Nat
  | [] => []
  | (key, value) :: rest => (key.length + 3 + plainLength value) :: memberLengths rest

end

theorem plainMembers_iff (members : List (JsString × Json)) :
    PlainMembers members ↔ ∀ member ∈ members, Plain member.1 ∧ PlainJson member.2 := by
  induction members with
  | nil => simp [PlainMembers]
  | cons member rest ih =>
      obtain ⟨key, value⟩ := member
      rw [PlainMembers, ih, List.forall_mem_cons, and_assoc]

theorem memberLengths_map (members : List (JsString × Json)) :
    memberLengths members = members.map fun member => member.1.length + 3 + plainLength member.2 := by
  induction members with
  | nil => rfl
  | cons member rest ih =>
      obtain ⟨key, value⟩ := member
      rw [memberLengths, ih, List.map_cons]

section Units

theorem isPlain_small {u : CodeUnit} (plain : isPlain u = true) : u.toNat < 0x80 := by
  simp only [isPlain, Bool.and_eq_true, decide_eq_true_eq] at plain
  omega

theorem Plain.ascii {s : JsString} (plain : Plain s) : Ascii s :=
  fun u member => isPlain_small (plain u member)

theorem quoteLone_plain {u : CodeUnit} (plain : isPlain u = true) : quoteLone u = [u] := by
  have single : ∀ u : CodeUnit, u.toNat < 0x80 → isPlain u = true → quoteLone u = [u] := by
    intro u small plain
    have values : ∀ n : Nat, n < 0x80 → isPlain (UInt16.ofNat n) = true →
        quoteLone (UInt16.ofNat n) = [UInt16.ofNat n] := by decide +kernel
    have same : UInt16.ofNat u.toNat = u := UInt16.ofNat_toNat
    exact same ▸ values u.toNat small (same.symm ▸ plain)
  exact single u (isPlain_small plain) plain

theorem quoteUnits_plain {s : JsString} (plain : Plain s) : quoteUnits s = s := by
  induction s using quoteUnits.induct with
  | case1 => rfl
  | case2 u => exact quoteLone_plain (plain u List.mem_cons_self)
  | case3 u v rest paired ih =>
      have small := isPlain_small (plain u List.mem_cons_self)
      simp only [isHighSurrogate, Bool.and_eq_true, decide_eq_true_eq] at paired
      omega
  | case4 u v rest single ih =>
      rw [quoteUnits, if_neg single, quoteLone_plain (plain u List.mem_cons_self),
        ih fun other member => plain other (List.mem_cons_of_mem _ member)]
      rfl

theorem quote_plain {s : JsString} (plain : Plain s) : quote s = unit '"' :: (s ++ [unit '"']) := by
  rw [quote, quoteUnits_plain plain]

end Units

section Texts

theorem length_joinEntries (entries : List JsString) :
    (joinEntries [] entries).length = joinedLength (entries.map List.length) := by
  unfold joinedLength
  induction entries using joinEntries.induct with
  | case1 => rfl
  | case2 only => simp [joinEntries]
  | case3 first next rest ih =>
      rw [joinEntries]
      simp only [List.length_append, List.length_cons, List.length_nil, ih, List.map_cons,
        List.sum_cons, List.length_map]
      omega

theorem ascii_joinEntries {entries : List JsString} (each : ∀ entry ∈ entries, Ascii entry) :
    Ascii (joinEntries [] entries) := by
  induction entries using joinEntries.induct with
  | case1 => exact ascii_nil
  | case2 only => exact each only List.mem_cons_self
  | case3 first next rest ih =>
      have later := ih fun entry member => each entry (List.mem_cons_of_mem _ member)
      rw [joinEntries]
      exact ((each first List.mem_cons_self).append (.cons (by decide) ascii_nil)).append later

theorem ascii_decimal (n : Nat) : Ascii (decimal n) := by
  intro u member
  have digit := decimal_digits n u member
  simp only [isDigit, between, Bool.and_eq_true, decide_eq_true_eq] at digit
  have nine : '9'.toNat = 0x39 := rfl
  omega

theorem ascii_integerText (value : Int) : Ascii (integerText value) := by
  unfold integerText
  split
  · exact .cons (by decide) (ascii_decimal _)
  · exact ascii_decimal _

/-- A text of the given length in one byte a unit. -/
def Sized (text : JsString) (length : Nat) : Prop := Ascii text ∧ text.length = length

theorem joinedLength_perm {left right : List Nat} (perm : left.Perm right) :
    joinedLength left = joinedLength right := by
  rw [joinedLength, joinedLength, perm.sum_nat, perm.length_eq]

theorem members_rendered (members : List (JsString × Json)) :
    ((unicodeCodePointKeys (encodeObject members)).map fun member =>
      quote member.1 ++ unit ':' :: member.2).Perm
      (members.map fun member => quote member.1 ++ unit ':' :: canonicalizeJson member.2) := by
  have shown := (unicodeCodePointKeys_perm (encodeObject members)).map fun member =>
    quote member.1 ++ unit ':' :: member.2
  rw [encodeObject_map, List.map_map] at shown
  rw [encodeObject_map]
  exact shown

private theorem sized_object {members : List (JsString × Json)}
    (each : ∀ member ∈ members, Plain member.1 ∧
      Sized (canonicalizeJson member.2) (plainLength member.2)) :
    Sized (canonicalizeJson (.object members)) (plainLength (.object members)) := by
  have rendered := members_rendered members
  constructor
  · rw [canonicalizeJson]
    refine .cons (by decide) ((ascii_joinEntries fun text member => ?_).append
      (.cons (by decide) ascii_nil))
    obtain ⟨entry, listed, rfl⟩ := List.mem_map.mp (rendered.mem_iff.mp member)
    obtain ⟨key, value⟩ := each entry listed
    rw [quote_plain key]
    exact .append (.cons (by decide) (key.ascii.append (.cons (by decide) ascii_nil)))
      (.cons (by decide) value.1)
  · have lengths : (members.map fun member =>
        quote member.1 ++ unit ':' :: canonicalizeJson member.2).map List.length =
          memberLengths members := by
      rw [memberLengths_map, List.map_map]
      refine List.map_congr_left fun member listed => ?_
      obtain ⟨key, value⟩ := each member listed
      have size := value.2
      simp only [Function.comp_apply, quote_plain key, List.length_append, List.length_cons,
        List.length_nil, size]
      omega
    have joined := joinedLength_perm (rendered.map List.length)
    rw [lengths] at joined
    rw [canonicalizeJson, plainLength]
    simp only [List.length_cons, List.length_append, List.length_nil, length_joinEntries, joined]

private theorem sized_array {items : List Json}
    (each : ∀ item ∈ items, Sized (canonicalizeJson item) (plainLength item)) :
    Sized (canonicalizeJson (.array items)) (plainLength (.array items)) := by
  have rendered : encodeArray items = items.map canonicalizeJson := by
    induction items with
    | nil => rfl
    | cons item rest ih =>
        rw [encodeArray, List.map_cons, ih fun other member =>
          each other (List.mem_cons_of_mem _ member)]
  have lengths : itemLengths items = items.map plainLength := by
    clear each rendered
    induction items with
    | nil => rfl
    | cons item rest ih => rw [itemLengths, List.map_cons, ih]
  constructor
  · rw [canonicalizeJson, rendered]
    refine .cons (by decide) ((ascii_joinEntries fun text member => ?_).append
      (.cons (by decide) ascii_nil))
    obtain ⟨item, listed, rfl⟩ := List.mem_map.mp member
    exact (each item listed).1
  · have same : (items.map canonicalizeJson).map List.length = items.map plainLength := by
      rw [List.map_map]
      exact List.map_congr_left fun item listed => (each item listed).2
    rw [canonicalizeJson, plainLength, rendered, lengths]
    simp only [List.length_cons, List.length_append, List.length_nil, length_joinEntries, same]

mutual

/-- A plain value has a canonical text of one-byte units, as long as its parts make it. -/
theorem sized_canonicalizeJson : ∀ value : Json, PlainJson value →
    Sized (canonicalizeJson value) (plainLength value)
  | .null, _ => ⟨List.all_iff_forall_prop.mp (by decide), rfl⟩
  | .bool true, _ => ⟨List.all_iff_forall_prop.mp (by decide), rfl⟩
  | .bool false, _ => ⟨List.all_iff_forall_prop.mp (by decide), rfl⟩
  | .integer value, _ => ⟨ascii_integerText value, rfl⟩
  | .double _, plain => plain.elim
  | .string value, plain => by
      rw [PlainJson] at plain
      rw [canonicalizeJson, quote_plain plain, plainLength]
      refine ⟨.cons (by decide) (plain.ascii.append (.cons (by decide) ascii_nil)), ?_⟩
      simp
  | .array items, plain => sized_array (sized_items items (by rwa [PlainJson] at plain))
  | .object members, plain => sized_object (sized_members members (by rwa [PlainJson] at plain))

theorem sized_items : ∀ items : List Json, PlainItems items →
    ∀ item ∈ items, Sized (canonicalizeJson item) (plainLength item)
  | [], _ => by simp
  | item :: rest, plain => by
      rw [PlainItems] at plain
      rw [List.forall_mem_cons]
      exact ⟨sized_canonicalizeJson item plain.1, sized_items rest plain.2⟩

theorem sized_members : ∀ members : List (JsString × Json), PlainMembers members →
    ∀ member ∈ members, Plain member.1 ∧
      Sized (canonicalizeJson member.2) (plainLength member.2)
  | [], _ => by simp
  | (key, value) :: rest, plain => by
      rw [PlainMembers] at plain
      rw [List.forall_mem_cons]
      exact ⟨⟨plain.1, sized_canonicalizeJson value plain.2.1⟩, sized_members rest plain.2.2⟩

end

theorem utf8Length_plain {value : Json} (plain : PlainJson value) :
    utf8Length (canonicalizeJson value) = plainLength value := by
  obtain ⟨ascii, length⟩ := sized_canonicalizeJson value plain
  rw [utf8Length_ascii ascii, length]

end Texts

section Forms

variable {α : Type}

@[simp] theorem plainLength_text (value : JsString) :
    plainLength (text.encode value) = value.length + 2 := by
  change plainLength (.string value) = _
  rw [plainLength]

@[simp] theorem plainLength_enumeration {values : List α} {name : α → JsString}
    {complete : ∀ a, a ∈ values} {distinct : (values.map name).Nodup} (a : α) :
    plainLength ((enumeration values name complete distinct).encode a) = (name a).length + 2 := by
  change plainLength (.string (name a)) = _
  rw [plainLength]

@[simp] theorem plainLength_natural (value : Nat) :
    plainLength (natural.encode value) = (decimal value).length := by
  change plainLength (.integer value) = _
  have nonnegative : ¬ (value : Int) < 0 := by omega
  rw [plainLength, integerText, if_neg nonnegative, Int.natAbs_natCast]

@[simp] theorem plainLength_nullable {codec : Codec α} {solid : ∀ a, codec.encode a ≠ .null}
    (value : Option α) :
    plainLength ((nullable codec solid).encode value) =
      (value.map fun a => plainLength (codec.encode a)).getD 4 := by
  cases value with
  | none =>
      change plainLength .null = _
      rw [plainLength]
      rfl
  | some a => rfl

@[simp] theorem plainLength_list (codec : Codec α) (values : List α) :
    plainLength ((list codec).encode values) =
      joinedLength (values.map fun a => plainLength (codec.encode a)) + 2 := by
  have lengths : ∀ items : List Json, itemLengths items = items.map plainLength := by
    intro items
    induction items with
    | nil => rfl
    | cons item rest ih => rw [itemLengths, List.map_cons, ih]
  change plainLength (.array (values.map codec.encode)) = _
  rw [plainLength, lengths, List.map_map]
  rfl

theorem plainLength_object (members : List (JsString × Json)) :
    plainLength (.object members) =
      ((members.map Prod.fst).map List.length).sum +
        ((members.map Prod.snd).map plainLength).sum + 3 * members.length +
          (members.length - 1) + 2 := by
  have total : (memberLengths members).sum = ((members.map Prod.fst).map List.length).sum +
      ((members.map Prod.snd).map plainLength).sum + 3 * members.length := by
    induction members with
    | nil => rfl
    | cons member rest ih =>
        obtain ⟨key, value⟩ := member
        simp only [memberLengths, List.map_cons, List.sum_cons, List.length_cons, ih]
        omega
  have count : (memberLengths members).length = members.length := by
    rw [memberLengths_map, List.length_map]
  rw [plainLength, joinedLength, total, count]

theorem plain_text {value : JsString} (plain : Plain value) : PlainJson (text.encode value) := by
  change PlainJson (.string value)
  rwa [PlainJson]

theorem plain_enumeration {values : List α} {name : α → JsString}
    {complete : ∀ a, a ∈ values} {distinct : (values.map name).Nodup} {a : α}
    (plain : Plain (name a)) :
    PlainJson ((enumeration values name complete distinct).encode a) := by
  change PlainJson (.string (name a))
  rwa [PlainJson]

theorem plain_natural (value : Nat) : PlainJson (natural.encode value) := by
  change PlainJson (.integer value)
  rw [PlainJson]
  trivial

theorem plain_nullable {codec : Codec α} {solid : ∀ a, codec.encode a ≠ .null}
    {value : Option α} (plain : ∀ a ∈ value, PlainJson (codec.encode a)) :
    PlainJson ((nullable codec solid).encode value) := by
  cases value with
  | none =>
      change PlainJson .null
      rw [PlainJson]
      trivial
  | some a => exact plain a rfl

theorem plain_list {codec : Codec α} {values : List α}
    (plain : ∀ a ∈ values, PlainJson (codec.encode a)) :
    PlainJson ((list codec).encode values) := by
  change PlainJson (.array (values.map codec.encode))
  rw [PlainJson]
  induction values with
  | nil => trivial
  | cons a values ih =>
      rw [List.map_cons, PlainItems]
      exact ⟨plain a List.mem_cons_self, ih fun b member => plain b (List.mem_cons_of_mem _ member)⟩

end Forms

end Kratos.Schema
