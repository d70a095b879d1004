/- source: none(language runtime)
   digest: Newline-terminated lines, their split and restoration, and encoded lengths. -/

import Kratos.Foundation.Text
import Mathlib.Data.List.Forall2

set_option autoImplicit false

namespace Kratos.Foundation.Lines

open Foundation.Text

def lineFeed : CodeUnit := 0x0A

/-- `text.split("\n")`. -/
def splitLines : JsString → List JsString
  | [] => [[]]
  | u :: rest =>
      if u = lineFeed then [] :: splitLines rest
      else
        match splitLines rest with
        | [] => [[u]]
        | line :: lines => (u :: line) :: lines

def terminated (lines : List JsString) : JsString := lines.flatMap fun line => line ++ [lineFeed]

/-- The bytes of one code point; a lone surrogate is encoded as the replacement character. -/
def utf8Bytes (p : Nat) : Nat :=
  if p < 0x80 then 1 else if p < 0x800 then 2 else if p < 0x10000 then 3 else 4

/-- `encoder.encode(text).byteLength`. -/
def utf8Length (text : JsString) : Nat := ((codePoints text).map utf8Bytes).sum

theorem splitLines_line {line : JsString} (plain : lineFeed ∉ line) (rest : JsString) :
    splitLines (line ++ lineFeed :: rest) = line :: splitLines rest := by
  induction line with
  | nil => rw [List.nil_append, splitLines, if_pos rfl]
  | cons u line ih =>
      have other : ¬ u = lineFeed := by
        rintro rfl
        exact plain List.mem_cons_self
      rw [List.cons_append, splitLines, if_neg other,
        ih fun member => plain (List.mem_cons_of_mem _ member)]

theorem splitLines_terminated {lines : List JsString} (plain : ∀ line ∈ lines, lineFeed ∉ line) :
    splitLines (terminated lines) = lines ++ [[]] := by
  induction lines with
  | nil => rfl
  | cons line lines ih =>
      have later := ih fun other member => plain other (List.mem_cons_of_mem _ member)
      rw [terminated, List.flatMap_cons, List.append_assoc, List.singleton_append,
        splitLines_line (plain line List.mem_cons_self), ← terminated, later, List.cons_append]

private theorem splitLines_restore (text : JsString) :
    ∃ lines last, splitLines text = lines ++ [last] ∧ text = terminated lines ++ last ∧
      lineFeed ∉ last := by
  induction text with
  | nil => exact ⟨[], [], rfl, rfl, List.not_mem_nil⟩
  | cons u rest ih =>
      obtain ⟨lines, last, split, restored, plain⟩ := ih
      rw [splitLines]
      by_cases feed : u = lineFeed
      · subst feed
        refine ⟨[] :: lines, last, by rw [if_pos rfl, split, List.cons_append], ?_, plain⟩
        rw [terminated, List.flatMap_cons, ← terminated, List.nil_append, List.append_assoc,
          ← restored, List.singleton_append]
      · rw [if_neg feed, split]
        cases lines with
        | nil =>
            refine ⟨[], u :: last, rfl, by rw [restored]; rfl, ?_⟩
            intro member
            rcases List.mem_cons.mp member with same | later
            · exact feed same.symm
            · exact plain later
        | cons line lines =>
            exact ⟨(u :: line) :: lines, last, rfl, by rw [restored]; rfl, plain⟩

theorem terminated_splitLines {text : JsString} (ends : text.getLast? = some lineFeed) :
    terminated (splitLines text).dropLast = text := by
  obtain ⟨lines, last, split, restored, plain⟩ := splitLines_restore text
  have finished : last = [] := by
    by_contra filled
    rw [restored, List.getLast?_append_of_ne_nil _ filled] at ends
    exact plain (List.mem_of_getLast? ends)
  subst finished
  rw [split, List.dropLast_concat, restored, List.append_nil]

theorem utf8Bytes_pos (p : Nat) : 1 ≤ utf8Bytes p := by
  unfold utf8Bytes
  split
  · omega
  · split
    · omega
    · split <;> omega

theorem length_le_utf8Length (text : JsString) : text.length ≤ utf8Length text := by
  induction text using codePoints.induct with
  | case1 => exact Nat.zero_le _
  | case2 u =>
      have positive := utf8Bytes_pos u.toNat
      simp only [utf8Length, codePoints, List.map_cons, List.sum_cons, List.map_nil, List.sum_nil,
        List.length_cons, List.length_nil]
      omega
  | case3 u v rest paired ih =>
      have astral : ∀ n, utf8Bytes (0x10000 + n) = 4 := by
        intro n
        unfold utf8Bytes
        rw [if_neg (by omega), if_neg (by omega), if_neg (by omega)]
      unfold utf8Length at ih ⊢
      rw [codePoints, if_pos paired, List.map_cons, List.sum_cons, Nat.add_assoc, astral]
      simp only [List.length_cons]
      omega
  | case4 u v rest single ih =>
      have positive := utf8Bytes_pos u.toNat
      unfold utf8Length at ih ⊢
      rw [codePoints, if_neg single, List.map_cons, List.sum_cons]
      simp only [List.length_cons] at ih ⊢
      omega

theorem utf8Length_feed (text : JsString) :
    utf8Length (text ++ [lineFeed]) = utf8Length text + 1 := by
  have feed : utf8Bytes lineFeed.toNat = 1 := by decide
  unfold utf8Length
  induction text using codePoints.induct with
  | case1 => rfl
  | case2 u =>
      have single : ¬ (isHighSurrogate u && isLowSurrogate lineFeed) = true := by
        have other : isLowSurrogate lineFeed = false := by decide
        rw [other, Bool.and_false]
        exact Bool.false_ne_true
      have both : codePoints ([u] ++ [lineFeed]) = [u.toNat, lineFeed.toNat] := by
        rw [List.singleton_append, codePoints, if_neg single, codePoints]
      rw [both, codePoints]
      simp only [List.map_cons, List.map_nil, List.sum_cons, List.sum_nil, feed, Nat.add_zero]
  | case3 u v rest paired ih =>
      rw [List.cons_append, List.cons_append, codePoints, if_pos paired, codePoints,
        if_pos paired, List.map_cons, List.map_cons, List.sum_cons, List.sum_cons, ih]
      omega
  | case4 u v rest single ih =>
      rw [List.cons_append, List.cons_append, codePoints, if_neg single, codePoints,
        if_neg single, List.map_cons, List.map_cons, List.sum_cons, List.sum_cons,
        ← List.cons_append, ih]
      omega

theorem utf8Length_line (text rest : JsString) :
    utf8Length (text ++ lineFeed :: rest) = utf8Length text + 1 + utf8Length rest := by
  have feed : utf8Bytes lineFeed.toNat = 1 := by decide
  have high : isHighSurrogate lineFeed = false := by decide
  have low : isLowSurrogate lineFeed = false := by decide
  have alone : utf8Length (lineFeed :: rest) = 1 + utf8Length rest := by
    unfold utf8Length
    cases rest with
    | nil => simp only [codePoints, List.map_cons, List.map_nil, List.sum_cons, List.sum_nil, feed]
    | cons v rest =>
        rw [codePoints, high, Bool.false_and, if_neg Bool.false_ne_true, List.map_cons,
          List.sum_cons, feed]
  induction text using codePoints.induct with
  | case1 =>
      have none : utf8Length [] = 0 := rfl
      rw [List.nil_append, alone, none]
  | case2 u =>
      have single : ¬ (isHighSurrogate u && isLowSurrogate lineFeed) = true := by
        rw [low, Bool.and_false]
        exact Bool.false_ne_true
      have both : codePoints ([u] ++ lineFeed :: rest) =
          u.toNat :: codePoints (lineFeed :: rest) := by
        rw [List.singleton_append, codePoints, if_neg single]
      unfold utf8Length at alone ⊢
      rw [both, codePoints]
      simp only [List.map_cons, List.map_nil, List.sum_cons, List.sum_nil, alone]
      omega
  | case3 u v text paired ih =>
      unfold utf8Length at ih ⊢
      rw [List.cons_append, List.cons_append, codePoints, if_pos paired, codePoints,
        if_pos paired, List.map_cons, List.map_cons, List.sum_cons, List.sum_cons, ih]
      omega
  | case4 u v text single ih =>
      unfold utf8Length at ih ⊢
      rw [List.cons_append, List.cons_append, codePoints, if_neg single, codePoints,
        if_neg single, List.map_cons, List.map_cons, List.sum_cons, List.sum_cons,
        ← List.cons_append, ih]
      omega

def Ascii (text : JsString) : Prop := ∀ u ∈ text, u.toNat < 0x80

theorem Ascii.append {left right : JsString} (first : Ascii left) (second : Ascii right) :
    Ascii (left ++ right) := by
  intro u member
  rcases List.mem_append.mp member with inside | inside
  · exact first u inside
  · exact second u inside

theorem Ascii.cons {u : CodeUnit} {rest : JsString} (small : u.toNat < 0x80)
    (later : Ascii rest) : Ascii (u :: rest) := by
  intro v member
  rcases List.mem_cons.mp member with rfl | inside
  · exact small
  · exact later v inside

theorem ascii_nil : Ascii [] := by
  intro u member
  cases member

theorem utf8Length_ascii {text : JsString} (ascii : Ascii text) :
    utf8Length text = text.length := by
  have one : ∀ u : CodeUnit, u.toNat < 0x80 → utf8Bytes u.toNat = 1 := fun u small => if_pos small
  unfold utf8Length
  induction text using codePoints.induct with
  | case1 => rfl
  | case2 u =>
      have small := one u (ascii u List.mem_cons_self)
      simp only [codePoints, List.map_cons, List.map_nil, List.sum_cons, List.sum_nil, small,
        List.length_cons, List.length_nil, Nat.add_zero, Nat.zero_add]
  | case3 u v text paired ih =>
      have small := ascii u List.mem_cons_self
      simp only [isHighSurrogate, Bool.and_eq_true, decide_eq_true_eq] at paired
      omega
  | case4 u v text single ih =>
      have small := one u (ascii u List.mem_cons_self)
      have later := ih fun other member => ascii other (List.mem_cons_of_mem _ member)
      rw [codePoints, if_neg single, List.map_cons, List.sum_cons, small, later]
      simp only [List.length_cons]
      omega

end Kratos.Foundation.Lines
