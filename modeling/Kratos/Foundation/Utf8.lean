/- source: none(language runtime)
   digest: The UTF-8 bytes of a script string and their lexicographic order. -/

import Kratos.Foundation.Lines
import Kratos.Foundation.Splitting

set_option autoImplicit false

namespace Kratos.Foundation.Utf8

open Foundation.Text Foundation.Lines Foundation.Splitting

def bytesOfCodePoint (p : Nat) : List Nat :=
  if p < 0x80 then [p]
  else if p < 0x800 then [0xC0 + p / 0x40, 0x80 + p % 0x40]
  else if 0xD800 ≤ p ∧ p < 0xE000 then [0xEF, 0xBF, 0xBD]
  else if p < 0x10000 then [0xE0 + p / 0x1000, 0x80 + p / 0x40 % 0x40, 0x80 + p % 0x40]
  else
    [0xF0 + p / 0x40000, 0x80 + p / 0x1000 % 0x40, 0x80 + p / 0x40 % 0x40, 0x80 + p % 0x40]

/-- `new TextEncoder().encode(text)`. -/
def encode (text : JsString) : List Nat := (codePoints text).flatMap bytesOfCodePoint

/-- `lines.join("\n")` with a final line break ends every line. -/
theorem intercalate_feed {lines : List JsString} (some : lines ≠ []) :
    List.intercalate [lineFeed] lines ++ [lineFeed] = terminated lines :=
  intercalate_ended some lineFeed

theorem utf8Length_terminated (lines : List JsString) :
    utf8Length (terminated lines) = (lines.map fun line => utf8Length line + 1).sum := by
  induction lines with
  | nil => rfl
  | cons line rest ih =>
      have parts : terminated (line :: rest) = line ++ lineFeed :: terminated rest := by
        simp [terminated]
      rw [parts, utf8Length_line, ih, List.map_cons, List.sum_cons]

/-- The difference at the first index where two byte sequences differ, or of their lengths. -/
def compareBytes : List Nat → List Nat → Int
  | [], right => -(right.length : Int)
  | left, [] => left.length
  | a :: left, b :: right => if a = b then compareBytes left right else (a : Int) - b

@[simp] theorem compareBytes_self (bytes : List Nat) : compareBytes bytes bytes = 0 := by
  induction bytes with
  | nil => rfl
  | cons a bytes ih => rw [compareBytes, if_pos rfl, ih]

theorem compareBytes_total (left right : List Nat) :
    compareBytes left right ≤ 0 ∨ compareBytes right left ≤ 0 := by
  induction left generalizing right with
  | nil =>
      left
      simp only [compareBytes]
      omega
  | cons a left ih =>
      cases right with
      | nil =>
          right
          simp only [compareBytes]
          omega
      | cons b right =>
          by_cases same : a = b
          · subst same
            simpa only [compareBytes, if_true] using ih right
          · have other : ¬ b = a := fun equal => same equal.symm
            simp only [compareBytes, if_neg same, if_neg other]
            omega

theorem compareBytes_trans {first second third : List Nat}
    (left : compareBytes first second ≤ 0) (right : compareBytes second third ≤ 0) :
    compareBytes first third ≤ 0 := by
  induction first generalizing second third with
  | nil =>
      simp only [compareBytes]
      omega
  | cons a first ih =>
      cases second with
      | nil =>
          simp only [compareBytes, List.length_cons] at left
          omega
      | cons b second =>
          cases third with
          | nil =>
              simp only [compareBytes, List.length_cons] at right
              omega
          | cons c third =>
              simp only [compareBytes] at left right ⊢
              by_cases ab : a = b
              · subst ab
                rw [if_pos rfl] at left
                by_cases ac : a = c
                · rw [if_pos ac] at right ⊢
                  exact ih left right
                · rw [if_neg ac] at right ⊢
                  exact right
              · rw [if_neg ab] at left
                by_cases bc : b = c
                · subst bc
                  rw [if_neg ab]
                  exact left
                · rw [if_neg bc] at right
                  have differ : ¬ a = c := by
                    rintro rfl
                    omega
                  rw [if_neg differ]
                  omega

example : encode (js "é") = [0xC3, 0xA9] := by decide
example : encode [0xD800] = [0xEF, 0xBF, 0xBD] := by decide

end Kratos.Foundation.Utf8
