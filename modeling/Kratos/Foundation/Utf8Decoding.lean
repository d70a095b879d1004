/- source: none(language runtime)
   digest: The UTF-8 decoder over bytes, with and without replacement of what is malformed. -/

import Kratos.Foundation.Utf8

set_option autoImplicit false

namespace Kratos.Foundation.Utf8

open Foundation.Text

section Decoder

/-- Within a character: the bytes owed after the next one, the bounds of the next one, and the value
read so far. -/
structure Pending where
  owed : Nat
  lower : Nat
  upper : Nat
  value : Nat
  deriving DecidableEq, Repr

/-- What a byte between characters stands for, none where malformed, and what it leaves pending. -/
def opened (byte : Nat) : List (Option Nat) × Option Pending :=
  if byte < 0x80 then ([some byte], none)
  else if byte < 0xC2 then ([none], none)
  else if byte < 0xE0 then ([], some ⟨0, 0x80, 0xBF, byte - 0xC0⟩)
  else if byte < 0xF0 then
    ([], some ⟨1, if byte = 0xE0 then 0xA0 else 0x80, if byte = 0xED then 0x9F else 0xBF, byte - 0xE0⟩)
  else if byte < 0xF5 then
    ([], some ⟨2, if byte = 0xF0 then 0x90 else 0x80, if byte = 0xF4 then 0x8F else 0xBF, byte - 0xF0⟩)
  else ([none], none)

/-- The scalar values of a byte sequence, none for each malformed part. -/
def scan : Option Pending → List Nat → List (Option Nat)
  | none, [] => []
  | some _, [] => [none]
  | none, byte :: rest => (opened byte).1 ++ scan (opened byte).2 rest
  | some pending, byte :: rest =>
      if pending.lower ≤ byte ∧ byte ≤ pending.upper then
        let value := pending.value * 64 + (byte - 0x80)
        match pending.owed with
        | 0 => some value :: scan none rest
        | owed + 1 => scan (some ⟨owed, 0x80, 0xBF, value⟩) rest
      -- A byte that does not continue the character begins another one.
      else none :: ((opened byte).1 ++ scan (opened byte).2 rest)

def unitsOfCodePoint (p : Nat) : JsString :=
  if p < 0x10000 then [UInt16.ofNat p]
  else [UInt16.ofNat (0xD800 + (p - 0x10000) / 0x400), UInt16.ofNat (0xDC00 + (p - 0x10000) % 0x400)]

/-- `Buffer.toString("utf8")`: malformed parts become the replacement character. -/
def toString (bytes : List Nat) : JsString :=
  (scan none bytes).flatMap fun point => unitsOfCodePoint (point.getD 0xFFFD)

/-- A leading byte order mark is not part of the text. -/
def dropMark : List Nat → List Nat
  | 0xFEFF :: points => points
  | points => points

/-- `new TextDecoder("utf-8").decode(bytes)`. -/
def decode (bytes : List Nat) : JsString :=
  (dropMark ((scan none bytes).map fun point => point.getD 0xFFFD)).flatMap unitsOfCodePoint

/-- `new TextDecoder("utf-8", { fatal: true }).decode(bytes)`, none where it throws. -/
def decodeFatal (bytes : List Nat) : Option JsString :=
  ((scan none bytes).mapM id).map fun points => (dropMark points).flatMap unitsOfCodePoint

end Decoder

section Scalars

def Scalar (p : Nat) : Prop := p < 0x110000 ∧ ¬(0xD800 ≤ p ∧ p < 0xE000)

variable {p : Nat} {bytes rest : List Nat} {points : List Nat}

private theorem scan_pending_zero {lower upper value byte : Nat} (within : lower ≤ byte ∧ byte ≤ upper) :
    scan (some ⟨0, lower, upper, value⟩) (byte :: rest) =
      some (value * 64 + (byte - 0x80)) :: scan none rest := by
  rw [scan]
  simp only [within, and_self, if_true]

private theorem scan_pending_succ {owed lower upper value byte : Nat}
    (within : lower ≤ byte ∧ byte ≤ upper) :
    scan (some ⟨owed + 1, lower, upper, value⟩) (byte :: rest) =
      scan (some ⟨owed, 0x80, 0xBF, value * 64 + (byte - 0x80)⟩) rest := by
  rw [scan]
  simp only [within, and_self, if_true]

theorem scan_bytesOfCodePoint (scalar : Scalar p) :
    scan none (bytesOfCodePoint p ++ rest) = some p :: scan none rest := by
  obtain ⟨small, surrogate⟩ := scalar
  unfold bytesOfCodePoint
  rw [if_neg surrogate]
  split_ifs with one two three
  · simp [scan, opened, one]
  · have lead : opened (0xC0 + p / 0x40) = ([], some ⟨0, 0x80, 0xBF, p / 0x40⟩) := by
      unfold opened
      rw [if_neg (by omega), if_neg (by omega), if_pos (by omega), Nat.add_sub_cancel_left]
    have value : p / 0x40 * 64 + (0x80 + p % 0x40 - 0x80) = p := by omega
    rw [List.cons_append, List.cons_append, List.nil_append, scan, lead, List.nil_append,
      scan_pending_zero (by omega), value]
  · have lead : opened (0xE0 + p / 0x1000) = ([], some ⟨1, if 0xE0 + p / 0x1000 = 0xE0 then 0xA0 else 0x80,
        if 0xE0 + p / 0x1000 = 0xED then 0x9F else 0xBF, p / 0x1000⟩) := by
      unfold opened
      rw [if_neg (by omega), if_neg (by omega), if_neg (by omega), if_pos (by omega),
        Nat.add_sub_cancel_left]
    have value : (p / 0x1000 * 64 + (0x80 + p / 0x40 % 0x40 - 0x80)) * 64 + (0x80 + p % 0x40 - 0x80) = p := by
      omega
    have second : (if 0xE0 + p / 0x1000 = 0xE0 then 0xA0 else 0x80) ≤ 0x80 + p / 0x40 % 0x40 ∧
        0x80 + p / 0x40 % 0x40 ≤ (if 0xE0 + p / 0x1000 = 0xED then 0x9F else 0xBF) := by
      constructor <;> split <;> omega
    rw [List.cons_append, List.cons_append, List.cons_append, List.nil_append, scan, lead,
      List.nil_append, scan_pending_succ second, scan_pending_zero (by omega), value]
  · have lead : opened (0xF0 + p / 0x40000) = ([], some ⟨2, if 0xF0 + p / 0x40000 = 0xF0 then 0x90 else 0x80,
        if 0xF0 + p / 0x40000 = 0xF4 then 0x8F else 0xBF, p / 0x40000⟩) := by
      unfold opened
      rw [if_neg (by omega), if_neg (by omega), if_neg (by omega), if_neg (by omega), if_pos (by omega),
        Nat.add_sub_cancel_left]
    have value : ((p / 0x40000 * 64 + (0x80 + p / 0x1000 % 0x40 - 0x80)) * 64 +
        (0x80 + p / 0x40 % 0x40 - 0x80)) * 64 + (0x80 + p % 0x40 - 0x80) = p := by omega
    have second : (if 0xF0 + p / 0x40000 = 0xF0 then 0x90 else 0x80) ≤ 0x80 + p / 0x1000 % 0x40 ∧
        0x80 + p / 0x1000 % 0x40 ≤ (if 0xF0 + p / 0x40000 = 0xF4 then 0x8F else 0xBF) := by
      constructor <;> split <;> omega
    rw [List.cons_append, List.cons_append, List.cons_append, List.cons_append, List.nil_append, scan,
      lead, List.nil_append, scan_pending_succ second, scan_pending_succ (by omega),
      scan_pending_zero (by omega), value]

theorem scan_flatMap (scalars : ∀ p ∈ points, Scalar p) :
    scan none (points.flatMap bytesOfCodePoint) = points.map some := by
  induction points with
  | nil => rfl
  | cons p points ih =>
      rw [List.flatMap_cons, scan_bytesOfCodePoint (scalars p List.mem_cons_self),
        ih fun other member => scalars other (List.mem_cons_of_mem _ member)]
      rfl

theorem scan_ascii (small : ∀ byte ∈ bytes, byte < 0x80) : scan none bytes = bytes.map some := by
  induction bytes with
  | nil => rfl
  | cons byte bytes ih =>
      have lead : opened byte = ([some byte], none) := if_pos (small byte List.mem_cons_self)
      rw [scan, lead, ih fun other member => small other (List.mem_cons_of_mem _ member)]
      rfl

theorem toString_ascii (small : ∀ byte ∈ bytes, byte < 0x80) :
    toString bytes = bytes.map UInt16.ofNat := by
  rw [toString, scan_ascii small, List.flatMap_map, List.map_eq_flatMap]
  refine List.flatMap_congr fun byte member => ?_
  have bound := small byte member
  rw [Option.getD_some, unitsOfCodePoint, if_pos (by omega)]

end Scalars

section Sound

variable {bytes : List Nat} {points : List Nat}

variable {p owed lower upper value : Nat}

end Sound

section Texts

variable {points : List Nat}

theorem codePoints_units (scalars : ∀ p ∈ points, Scalar p) :
    codePoints (points.flatMap unitsOfCodePoint) = points := by
  induction points with
  | nil => rfl
  | cons p points ih =>
      obtain ⟨⟨bound, alone⟩, others⟩ := List.forall_mem_cons.mp scalars
      rw [List.flatMap_cons, unitsOfCodePoint]
      split_ifs with basic
      · have value : (UInt16.ofNat p).toNat = p := UInt16.toNat_ofNat_of_lt basic
        have plain : isHighSurrogate (UInt16.ofNat p) = false := by
          rw [isHighSurrogate, value]
          simp
          omega
        rw [List.singleton_append, codePoints_cons plain, value, ih others]
      · have size : UInt16.size = 0x10000 := rfl
        have high : (UInt16.ofNat (0xD800 + (p - 0x10000) / 0x400)).toNat =
            0xD800 + (p - 0x10000) / 0x400 := UInt16.toNat_ofNat_of_lt (by omega)
        have low : (UInt16.ofNat (0xDC00 + (p - 0x10000) % 0x400)).toNat =
            0xDC00 + (p - 0x10000) % 0x400 := UInt16.toNat_ofNat_of_lt (by omega)
        have paired : (isHighSurrogate (UInt16.ofNat (0xD800 + (p - 0x10000) / 0x400)) &&
            isLowSurrogate (UInt16.ofNat (0xDC00 + (p - 0x10000) % 0x400))) = true := by
          rw [isHighSurrogate, isLowSurrogate, high, low]
          simp
          omega
        have value : 0x10000 + (0xD800 + (p - 0x10000) / 0x400 - 0xD800) * 0x400 +
            (0xDC00 + (p - 0x10000) % 0x400 - 0xDC00) = p := by omega
        rw [List.cons_append, List.singleton_append, codePoints, if_pos paired, high, low, value,
          ih others]

theorem decode_scalars (scalars : ∀ p ∈ points, Scalar p) :
    decode (points.flatMap bytesOfCodePoint) = (dropMark points).flatMap unitsOfCodePoint := by
  have values : (points.map some).map (fun point => point.getD 0xFFFD) = points := by
    rw [List.map_map]
    exact List.map_id points
  rw [decode, scan_flatMap scalars, values]

theorem decodeFatal_scalars (scalars : ∀ p ∈ points, Scalar p) :
    decodeFatal (points.flatMap bytesOfCodePoint) =
      some ((dropMark points).flatMap unitsOfCodePoint) := by
  have values : (points.map some).mapM id = some points := by
    clear scalars
    induction points with
    | nil => rfl
    | cons p points ih => simp [List.mapM_cons, ih]
  rw [decodeFatal, scan_flatMap scalars, values]
  rfl

theorem flatMap_ascii (small : ∀ p ∈ points, p < 0x80) :
    points.flatMap bytesOfCodePoint = points := by
  induction points with
  | nil => rfl
  | cons p points ih =>
      obtain ⟨first, others⟩ := List.forall_mem_cons.mp small
      rw [List.flatMap_cons, bytesOfCodePoint, if_pos first, ih others]
      rfl

theorem zero_mem_bytesOfCodePoint (p : Nat) : 0 ∈ bytesOfCodePoint p ↔ p = 0 := by
  unfold bytesOfCodePoint
  split_ifs <;> simp <;> omega

end Texts

end Kratos.Foundation.Utf8
