/- source: none(general)
   digest: The bytes of the canonical text of a value, whatever its strings hold. -/

import Kratos.Schema.PlainText

set_option autoImplicit false

namespace Kratos.Schema

open Foundation.Text Foundation.JsonText Foundation.Lines

/-- The text does not begin inside a surrogate pair. -/
def Fronted (text : JsString) : Prop := ∀ u ∈ text.head?, isLowSurrogate u = false

theorem fronted_nil : Fronted [] := by
  intro u member
  cases member

theorem fronted_cons {u : CodeUnit} (small : u.toNat < 0x80) (rest : JsString) :
    Fronted (u :: rest) := by
  intro v member
  obtain rfl := Option.some.inj member
  simp only [isLowSurrogate, Bool.and_eq_false_iff, decide_eq_false_iff_not]
  omega

theorem utf8Length_append {left right : JsString} (fronted : Fronted right) :
    utf8Length (left ++ right) = utf8Length left + utf8Length right := by
  cases right with
  | nil =>
      rw [List.append_nil]
      rfl
  | cons next rest =>
      have low : isLowSurrogate next = false := fronted next rfl
      induction left using codePoints.induct with
      | case1 =>
          rw [List.nil_append]
          exact (Nat.zero_add _).symm
      | case2 u =>
          have single : ¬ (isHighSurrogate u && isLowSurrogate next) = true := by
            rw [low, Bool.and_false]
            exact Bool.false_ne_true
          have both : codePoints ([u] ++ next :: rest) = u.toNat :: codePoints (next :: rest) := by
            rw [List.singleton_append, codePoints, if_neg single]
          have alone : codePoints [u] = [u.toNat] := by rw [codePoints]
          unfold utf8Length
          rw [both, alone, List.map_cons, List.sum_cons, List.map_singleton, List.sum_singleton]
      | case3 u v text paired ih =>
          unfold utf8Length at ih ⊢
          rw [List.cons_append, List.cons_append, codePoints, if_pos paired, codePoints,
            if_pos paired, List.map_cons, List.map_cons, List.sum_cons, List.sum_cons, ih]
          omega
      | case4 u v text single ih =>
          unfold utf8Length at ih ⊢
          rw [List.cons_append, List.cons_append, codePoints, if_neg single, codePoints,
            if_neg single, List.map_cons, List.map_cons, List.sum_cons, List.sum_cons,
            ← List.cons_append, ih]
          omega

theorem utf8Length_cons {u : CodeUnit} (small : u.toNat < 0x80) {rest : JsString}
    (fronted : Fronted rest) : utf8Length (u :: rest) = 1 + utf8Length rest := by
  have single : utf8Length [u] = 1 := by
    rw [utf8Length_ascii (Ascii.cons small ascii_nil), List.length_singleton]
  have split : u :: rest = [u] ++ rest := rfl
  rw [split, utf8Length_append fronted, single]

def stringBytes (value : JsString) : Nat := utf8Length (quote value)

theorem stringBytes_plain {value : JsString} (plain : Plain value) :
    stringBytes value = value.length + 2 := by
  have ascii : Ascii (unit '"' :: (value ++ [unit '"'])) :=
    Ascii.cons (by decide) (plain.ascii.append (Ascii.cons (by decide) ascii_nil))
  rw [stringBytes, quote_plain plain, utf8Length_ascii ascii]
  simp only [List.length_cons, List.length_append, List.length_nil]

mutual

def canonicalBytes : Json → Nat
  | .null => 4
  | .bool value => if value then 4 else 5
  | .integer value => (integerText value).length
  | .double literal => utf8Length literal
  | .string value => stringBytes value
  | .array items => joinedLength (itemBytes items) + 2
  | .object members => joinedLength (memberBytes members) + 2

def itemBytes : List Json → List Nat
  | [] => []
  | item :: rest => canonicalBytes item :: itemBytes rest

def memberBytes : List (JsString × Json) → List Nat
  | [] => []
  | (key, value) :: rest => (stringBytes key + 1 + canonicalBytes value) :: memberBytes rest

end

mutual

def Exact : Json → Prop
  | .null => True
  | .bool _ => True
  | .integer _ => True
  | .double _ => False
  | .string _ => True
  | .array items => ExactItems items
  | .object members => ExactMembers members

def ExactItems : List Json → Prop
  | [] => True
  | item :: rest => Exact item ∧ ExactItems rest

def ExactMembers : List (JsString × Json) → Prop
  | [] => True
  | (_, value) :: rest => Exact value ∧ ExactMembers rest

end

section Texts

theorem itemBytes_map (items : List Json) : itemBytes items = items.map canonicalBytes := by
  induction items with
  | nil => rfl
  | cons item rest ih => rw [itemBytes, List.map_cons, ih]

theorem memberBytes_map (members : List (JsString × Json)) :
    memberBytes members =
      members.map fun member => stringBytes member.1 + 1 + canonicalBytes member.2 := by
  induction members with
  | nil => rfl
  | cons member rest ih =>
      obtain ⟨key, value⟩ := member
      rw [memberBytes, ih, List.map_cons]

/-- A text with its bytes that joins what stands before it without forming a pair. -/
def Measured (text : JsString) (bytes : Nat) : Prop := Fronted text ∧ utf8Length text = bytes

private theorem measured_ascii {text : JsString} (ascii : Ascii text) :
    Measured text text.length := by
  refine ⟨?_, utf8Length_ascii ascii⟩
  cases text with
  | nil => exact fronted_nil
  | cons u rest => exact fronted_cons (ascii u List.mem_cons_self) rest

private theorem measured_joinEntries {entries : List JsString}
    (each : ∀ entry ∈ entries, Fronted entry) :
    Measured (joinEntries [] entries) (joinedLength (entries.map utf8Length)) := by
  induction entries using joinEntries.induct with
  | case1 => exact ⟨fronted_nil, rfl⟩
  | case2 only =>
      refine ⟨each only List.mem_cons_self, ?_⟩
      simp [joinEntries, joinedLength]
  | case3 first next rest ih =>
      obtain ⟨fronted, bytes⟩ := ih fun entry member => each entry (List.mem_cons_of_mem _ member)
      have comma : (unit ',').toNat < 0x80 := by decide
      have shown : joinEntries [] (first :: next :: rest) =
          first ++ (unit ',' :: joinEntries [] (next :: rest)) := by
        rw [joinEntries, List.append_assoc]
        rfl
      rw [shown]
      constructor
      · cases first with
        | nil => exact fronted_cons comma _
        | cons u text => exact each (u :: text) List.mem_cons_self
      · rw [utf8Length_append (fronted_cons comma _), utf8Length_cons comma fronted, bytes]
        simp only [joinedLength, List.map_cons, List.sum_cons, List.length_cons, List.length_map]
        omega

private theorem measured_enclosed {opening closing : CodeUnit} (first : opening.toNat < 0x80)
    (last : closing.toNat < 0x80) {inner : JsString} {bytes : Nat}
    (measured : Measured inner bytes) :
    Measured (opening :: (inner ++ [closing])) (bytes + 2) := by
  obtain ⟨fronted, length⟩ := measured
  have inside : Fronted (inner ++ [closing]) := by
    cases inner with
    | nil => exact fronted_cons last []
    | cons u text => exact fronted
  refine ⟨fronted_cons first _, ?_⟩
  have one : utf8Length [closing] = 1 :=
    utf8Length_ascii (Ascii.cons last ascii_nil)
  rw [utf8Length_cons first inside, utf8Length_append (fronted_cons last []), length, one]
  omega

private theorem fronted_quote (value : JsString) : Fronted (quote value) := by
  rw [quote]
  exact fronted_cons (by decide) _

private theorem measured_member {key text : JsString} {bytes : Nat}
    (measured : Measured text bytes) :
    Measured (quote key ++ unit ':' :: text) (stringBytes key + 1 + bytes) := by
  have colon : (unit ':').toNat < 0x80 := by decide
  constructor
  · rw [quote]
    exact fronted_cons (by decide) _
  · rw [utf8Length_append (fronted_cons colon _), utf8Length_cons colon measured.1, measured.2,
      stringBytes]
    omega

private theorem measured_array {items : List Json}
    (each : ∀ item ∈ items, Measured (canonicalizeJson item) (canonicalBytes item)) :
    Measured (canonicalizeJson (.array items)) (canonicalBytes (.array items)) := by
  have rendered : encodeArray items = items.map canonicalizeJson := by
    induction items with
    | nil => rfl
    | cons item rest ih =>
        rw [encodeArray, List.map_cons, ih fun other member =>
          each other (List.mem_cons_of_mem _ member)]
  have bytes : (items.map canonicalizeJson).map utf8Length = itemBytes items := by
    rw [itemBytes_map, List.map_map]
    exact List.map_congr_left fun item listed => (each item listed).2
  rw [canonicalizeJson, canonicalBytes, rendered, ← bytes]
  refine measured_enclosed (by decide) (by decide) (measured_joinEntries fun text member => ?_)
  obtain ⟨item, listed, rfl⟩ := List.mem_map.mp member
  exact (each item listed).1

private theorem measured_object {members : List (JsString × Json)}
    (each : ∀ member ∈ members, Measured (canonicalizeJson member.2) (canonicalBytes member.2)) :
    Measured (canonicalizeJson (.object members)) (canonicalBytes (.object members)) := by
  have rendered := members_rendered members
  have bytes : (members.map fun member =>
      quote member.1 ++ unit ':' :: canonicalizeJson member.2).map utf8Length =
        memberBytes members := by
    rw [memberBytes_map, List.map_map]
    exact List.map_congr_left fun member listed => (measured_member (each member listed)).2
  have joined := joinedLength_perm (rendered.map utf8Length)
  rw [bytes] at joined
  rw [canonicalizeJson, canonicalBytes, ← joined]
  refine measured_enclosed (by decide) (by decide) (measured_joinEntries fun text member => ?_)
  obtain ⟨entry, listed, rfl⟩ := List.mem_map.mp (rendered.mem_iff.mp member)
  exact (measured_member (each entry listed)).1

mutual

private theorem measured_canonicalizeJson : ∀ value : Json, Exact value →
    Measured (canonicalizeJson value) (canonicalBytes value)
  | .null, _ => measured_ascii (List.all_iff_forall_prop.mp (by decide))
  | .bool true, _ => measured_ascii (List.all_iff_forall_prop.mp (by decide))
  | .bool false, _ => measured_ascii (List.all_iff_forall_prop.mp (by decide))
  | .integer value, _ => by
      rw [canonicalizeJson, canonicalBytes]
      exact measured_ascii (ascii_integerText value)
  | .double _, exact_ => exact_.elim
  | .string value, _ => by
      rw [canonicalizeJson, canonicalBytes]
      exact ⟨fronted_quote value, rfl⟩
  | .array items, exact_ => measured_array (measured_items items (by rwa [Exact] at exact_))
  | .object members, exact_ =>
      measured_object (measured_members members (by rwa [Exact] at exact_))

private theorem measured_items : ∀ items : List Json, ExactItems items →
    ∀ item ∈ items, Measured (canonicalizeJson item) (canonicalBytes item)
  | [], _ => by simp
  | item :: rest, exact_ => by
      rw [ExactItems] at exact_
      rw [List.forall_mem_cons]
      exact ⟨measured_canonicalizeJson item exact_.1, measured_items rest exact_.2⟩

private theorem measured_members : ∀ members : List (JsString × Json), ExactMembers members →
    ∀ member ∈ members, Measured (canonicalizeJson member.2) (canonicalBytes member.2)
  | [], _ => by simp
  | (key, value) :: rest, exact_ => by
      rw [ExactMembers] at exact_
      rw [List.forall_mem_cons]
      exact ⟨measured_canonicalizeJson value exact_.1, measured_members rest exact_.2⟩

end

theorem utf8Length_canonicalizeJson {value : Json} (exact_ : Exact value) :
    utf8Length (canonicalizeJson value) = canonicalBytes value :=
  (measured_canonicalizeJson value exact_).2

end Texts

section Forms

variable {α : Type}

@[simp] theorem canonicalBytes_text (value : JsString) :
    canonicalBytes (text.encode value) = stringBytes value := by
  change canonicalBytes (.string value) = _
  rw [canonicalBytes]

@[simp] theorem canonicalBytes_enumeration {values : List α} {name : α → JsString}
    {complete : ∀ a, a ∈ values} {distinct : (values.map name).Nodup} (a : α) :
    canonicalBytes ((enumeration values name complete distinct).encode a) =
      stringBytes (name a) := by
  change canonicalBytes (.string (name a)) = _
  rw [canonicalBytes]

@[simp] theorem canonicalBytes_natural (value : Nat) :
    canonicalBytes (natural.encode value) = (decimal value).length := by
  change canonicalBytes (.integer value) = _
  have nonnegative : ¬ (value : Int) < 0 := by omega
  rw [canonicalBytes, integerText, if_neg nonnegative, Int.natAbs_natCast]

@[simp] theorem canonicalBytes_nullable {codec : Codec α} {solid : ∀ a, codec.encode a ≠ .null}
    (value : Option α) :
    canonicalBytes ((nullable codec solid).encode value) =
      (value.map fun a => canonicalBytes (codec.encode a)).getD 4 := by
  cases value with
  | none =>
      change canonicalBytes .null = _
      rw [canonicalBytes]
      rfl
  | some a => rfl

@[simp] theorem canonicalBytes_list (codec : Codec α) (values : List α) :
    canonicalBytes ((list codec).encode values) =
      joinedLength (values.map fun a => canonicalBytes (codec.encode a)) + 2 := by
  change canonicalBytes (.array (values.map codec.encode)) = _
  rw [canonicalBytes, itemBytes_map, List.map_map]
  rfl

theorem canonicalBytes_object (members : List (JsString × Json)) :
    canonicalBytes (.object members) =
      ((members.map Prod.fst).map stringBytes).sum +
        ((members.map Prod.snd).map canonicalBytes).sum + members.length +
          (members.length - 1) + 2 := by
  have total : (memberBytes members).sum = ((members.map Prod.fst).map stringBytes).sum +
      ((members.map Prod.snd).map canonicalBytes).sum + members.length := by
    induction members with
    | nil => rfl
    | cons member rest ih =>
        obtain ⟨key, value⟩ := member
        simp only [memberBytes, List.map_cons, List.sum_cons, List.length_cons, ih]
        omega
  have count : (memberBytes members).length = members.length := by
    rw [memberBytes_map, List.length_map]
  rw [canonicalBytes, joinedLength, total, count]

theorem exact_text (value : JsString) : Exact (text.encode value) := by
  change Exact (.string value)
  rw [Exact]
  trivial

theorem exact_enumeration {values : List α} {name : α → JsString}
    {complete : ∀ a, a ∈ values} {distinct : (values.map name).Nodup} (a : α) :
    Exact ((enumeration values name complete distinct).encode a) := exact_text (name a)

theorem exact_natural (value : Nat) : Exact (natural.encode value) := by
  change Exact (.integer value)
  rw [Exact]
  trivial

theorem exact_nullable {codec : Codec α} {solid : ∀ a, codec.encode a ≠ .null}
    (each : ∀ a, Exact (codec.encode a)) (value : Option α) :
    Exact ((nullable codec solid).encode value) := by
  cases value with
  | none =>
      change Exact .null
      rw [Exact]
      trivial
  | some a => exact each a

theorem exact_list {codec : Codec α} (each : ∀ a, Exact (codec.encode a)) (values : List α) :
    Exact ((list codec).encode values) := by
  change Exact (.array (values.map codec.encode))
  rw [Exact]
  induction values with
  | nil => trivial
  | cons a values ih =>
      rw [List.map_cons, ExactItems]
      exact ⟨each a, ih⟩

theorem exact_object {members : List (JsString × Json)}
    (each : ∀ member ∈ members, Exact member.2) : Exact (.object members) := by
  rw [Exact]
  induction members with
  | nil => trivial
  | cons member rest ih =>
      obtain ⟨key, value⟩ := member
      rw [ExactMembers]
      rw [List.forall_mem_cons] at each
      exact ⟨each.1, ih each.2⟩

end Forms

end Kratos.Schema
