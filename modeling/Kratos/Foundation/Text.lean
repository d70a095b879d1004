/- source: none(language runtime)
   digest: Script strings as sequences of UTF-16 code units, their literals, prefixes and code points. -/

import Mathlib.Algebra.GroupWithZero.Nat
import Mathlib.Data.List.Infix
import Mathlib.Data.List.DropRight

set_option autoImplicit false

namespace Kratos.Foundation.Text

abbrev CodeUnit := UInt16

/-- A script string is a sequence of code units; lone surrogates are legal values. -/
abbrev JsString := List CodeUnit

instance : LawfulBEq JsString := inferInstance

/-- The UTF-16 encoding of one Unicode scalar value. -/
def unitsOfChar (c : Char) : JsString :=
  if c.toNat < 0x10000 then [UInt16.ofNat c.toNat]
  else
    [UInt16.ofNat (0xD800 + (c.toNat - 0x10000) / 0x400),
      UInt16.ofNat (0xDC00 + (c.toNat - 0x10000) % 0x400)]

/-- What holds of every unit of a string is checked along the string, not over all code units. -/
instance (priority := 2000) (s : JsString) (p : CodeUnit → Prop) [DecidablePred p] :
    Decidable (∀ u ∈ s, p u) :=
  List.decidableBAll p s

instance (priority := 2000) (u : Option CodeUnit) (p : CodeUnit → Prop) [DecidablePred p] :
    Decidable (∀ v ∈ u, p v) :=
  Option.decidableForallMem u

def js (s : String) : JsString := s.toList.flatMap unitsOfChar

def unit (c : Char) : CodeUnit := UInt16.ofNat c.toNat

/-- `value.startsWith(prefix)`. -/
def startsWith (s pre : JsString) : Bool := pre.isPrefixOf s

def isHighSurrogate (u : CodeUnit) : Bool := 0xD800 ≤ u.toNat && u.toNat < 0xDC00
def isLowSurrogate (u : CodeUnit) : Bool := 0xDC00 ≤ u.toNat && u.toNat < 0xE000

/-- The code points a pattern with the unicode flag sees: a surrogate pair is one point,
a lone surrogate is a point of its own. -/
def codePoints : JsString → List Nat
  | [] => []
  | [u] => [u.toNat]
  | u :: v :: rest =>
      if isHighSurrogate u && isLowSurrogate v then
        (0x10000 + (u.toNat - 0xD800) * 0x400 + (v.toNat - 0xDC00)) :: codePoints rest
      else u.toNat :: codePoints (v :: rest)

/-- Membership in an inclusive range of code units. -/
def between (low high : Char) (u : CodeUnit) : Bool :=
  low.toNat ≤ u.toNat && u.toNat ≤ high.toNat

def isLowerAlpha (u : CodeUnit) : Bool := between 'a' 'z' u
def isUpperAlpha (u : CodeUnit) : Bool := between 'A' 'Z' u
def isDigit (u : CodeUnit) : Bool := between '0' '9' u
def isAlnum (u : CodeUnit) : Bool := isLowerAlpha u || isUpperAlpha u || isDigit u

def isLineTerminator (u : CodeUnit) : Bool :=
  u.toNat == 0x0A || u.toNat == 0x0D || u.toNat == 0x2028 || u.toNat == 0x2029

/-- The units `trim` removes: the blanks of the language and its line terminators. -/
def isWhiteSpace (u : CodeUnit) : Bool :=
  (0x09 ≤ u.toNat && u.toNat ≤ 0x0D) || u.toNat == 0x20 || u.toNat == 0xA0 ||
    u.toNat == 0x1680 || (0x2000 ≤ u.toNat && u.toNat ≤ 0x200A) || u.toNat == 0x2028 ||
    u.toNat == 0x2029 || u.toNat == 0x202F || u.toNat == 0x205F || u.toNat == 0x3000 ||
    u.toNat == 0xFEFF

/-- `value.trim()`. -/
def trim (s : JsString) : JsString := (s.dropWhile isWhiteSpace).rdropWhile isWhiteSpace

/-- `[\u0000-\u001f\u007f]`. -/
def isControl (u : CodeUnit) : Bool := u.toNat ≤ 0x1F || u.toNat == 0x7F

/-- The digits of a natural number, most significant first. -/
def decimal (n : Nat) : JsString := (Nat.toDigits 10 n).flatMap unitsOfChar

theorem startsWith_append (pre s : JsString) : startsWith (pre ++ s) pre = true :=
  List.isPrefixOf_iff_prefix.mpr (List.prefix_append pre s)

theorem startsWith_iff (s pre : JsString) :
    startsWith s pre = true ↔ ∃ rest, s = pre ++ rest := by
  rw [startsWith, List.isPrefixOf_iff_prefix]
  constructor
  · rintro ⟨rest, equal⟩
    exact ⟨rest, equal.symm⟩
  · rintro ⟨rest, equal⟩
    exact ⟨rest, equal.symm⟩

theorem startsWith_shorter {s pre other : JsString}
    (left : startsWith s pre = true) (right : startsWith s other = true)
    (short : pre.length ≤ other.length) : startsWith other pre = true := by
  have leftPrefix : pre <+: s := List.isPrefixOf_iff_prefix.mp left
  have rightPrefix : other <+: s := List.isPrefixOf_iff_prefix.mp right
  exact List.isPrefixOf_iff_prefix.mpr
    (List.prefix_of_prefix_length_le leftPrefix rightPrefix short)

/-- A string begins with `other` only if one of its known heads does, or the reverse. -/
theorem startsWith_append_of_disjoint {pre other : JsString}
    (forward : startsWith pre other = false) (backward : startsWith other pre = false)
    (s : JsString) : startsWith (pre ++ s) other = false := by
  by_contra begins
  have begins : startsWith (pre ++ s) other = true := by simpa using begins
  have own : startsWith (pre ++ s) pre = true := startsWith_append pre s
  rcases Nat.le_total pre.length other.length with short | long
  · rw [startsWith_shorter own begins short] at backward
    cases backward
  · rw [startsWith_shorter begins own long] at forward
    cases forward

theorem startsWith_append_of_startsWith {pre other : JsString}
    (begins : startsWith pre other = true) (s : JsString) :
    startsWith (pre ++ s) other = true := by
  obtain ⟨rest, rfl⟩ := (startsWith_iff pre other).mp begins
  rw [List.append_assoc]
  exact startsWith_append other (rest ++ s)

/-- A text has no more code points than units, and one at least where it has a unit. -/
theorem codePoints_length (text : JsString) :
    (codePoints text).length ≤ text.length ∧ (text ≠ [] → 1 ≤ (codePoints text).length) := by
  fun_induction codePoints text with
  | case1 => simp
  | case2 u => simp
  | case3 u v rest pair ih =>
      simp only [List.length_cons]
      omega
  | case4 u v rest other ih =>
      simp only [List.length_cons] at ih ⊢
      omega

theorem codePoints_cons {u : CodeUnit} (plain : isHighSurrogate u = false) (rest : JsString) :
    codePoints (u :: rest) = u.toNat :: codePoints rest := by
  cases rest with
  | nil => rfl
  | cons v rest => rw [codePoints, plain, Bool.false_and, if_neg Bool.false_ne_true]

theorem codePoints_length_plain {text : JsString} (plain : ∀ u ∈ text, isHighSurrogate u = false) :
    (codePoints text).length = text.length := by
  induction text with
  | nil => rfl
  | cons u rest ih =>
      obtain ⟨here, later⟩ := List.forall_mem_cons.mp plain
      rw [codePoints_cons here, List.length_cons, ih later, List.length_cons]

theorem codePoints_cons_cons {v : CodeUnit} (plain : isLowSurrogate v = false) (u : CodeUnit)
    (rest : JsString) : codePoints (u :: v :: rest) = u.toNat :: codePoints (v :: rest) := by
  rw [codePoints, plain, Bool.and_false, if_neg Bool.false_ne_true]

/-- Code points are read apart on both sides of a unit that closes no pair. -/
theorem codePoints_append {u : CodeUnit} (plain : isLowSurrogate u = false) (front back : JsString) :
    codePoints (front ++ u :: back) = codePoints front ++ codePoints (u :: back) := by
  induction front using codePoints.induct with
  | case1 => rfl
  | case2 v => exact codePoints_cons_cons plain v back
  | case3 v w rest pair ih =>
      rw [List.cons_append, List.cons_append, codePoints, if_pos pair, ih, codePoints, if_pos pair]
      rfl
  | case4 v w rest alone ih =>
      rw [List.cons_append, List.cons_append, codePoints, if_neg alone, codePoints, if_neg alone,
        List.cons_append, ← ih]
      rfl

theorem mem_codePoints {u : CodeUnit} (small : u.toNat < 0xD800) (text : JsString) :
    u.toNat ∈ codePoints text ↔ u ∈ text := by
  induction text using codePoints.induct with
  | case1 => simp [codePoints]
  | case2 v => simp [codePoints, UInt16.toNat_inj]
  | case3 v w rest pair ih =>
      rw [codePoints, if_pos pair, List.mem_cons, ih, List.mem_cons, List.mem_cons]
      simp only [Bool.and_eq_true, isHighSurrogate, isLowSurrogate, decide_eq_true_eq] at pair
      constructor
      · rintro (same | inside)
        · omega
        · exact .inr (.inr inside)
      · rintro (rfl | rfl | inside)
        · omega
        · omega
        · exact .inr inside
  | case4 v w rest alone ih =>
      rw [codePoints, if_neg alone, List.mem_cons, ih, UInt16.toNat_inj]
      exact List.mem_cons.symm

/-- A text that begins with a code point below the surrogates begins with its unit. -/
theorem codePoints_eq_cons {u : CodeUnit} (small : u.toNat < 0xD800) {text : JsString}
    {points : List Nat} (shape : codePoints text = u.toNat :: points) :
    ∃ rest, text = u :: rest ∧ codePoints rest = points := by
  have alone : isHighSurrogate u = false := by
    rw [isHighSurrogate, Bool.and_eq_false_iff, decide_eq_false_iff_not]
    exact .inl (Nat.not_le.mpr small)
  cases text with
  | nil => cases shape
  | cons v rest =>
      have same : v = u := by
        cases rest with
        | nil => exact UInt16.toNat_inj.mp (List.cons.inj shape).1
        | cons w rest =>
            rw [codePoints] at shape
            split at shape
            · have head := (List.cons.inj shape).1
              omega
            · exact UInt16.toNat_inj.mp (List.cons.inj shape).1
      subst same
      rw [codePoints_cons alone] at shape
      exact ⟨rest, rfl, (List.cons.inj shape).2⟩

example : js "a/b" = [97, 47, 98] := by decide
example : (codePoints (js "a😀")).length = 2 := by decide

end Kratos.Foundation.Text
