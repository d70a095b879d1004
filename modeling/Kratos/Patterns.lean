/- source: domain/workflow/decision.ts, domain/repair-loop/artifact.ts, contracts/acceptance-criteria.ts, schemas/state
   digest: The regular expressions of the runtime as predicates on code units. -/

import Kratos.Foundation.Text

set_option autoImplicit false

namespace Kratos.Patterns

open Foundation.Text

/-- `[a-zA-Z0-9._:-]`. -/
def isIdUnit (u : CodeUnit) : Bool :=
  isAlnum u || u == unit '.' || u == unit '_' || u == unit ':' || u == unit '-'

/-- `^[a-zA-Z0-9][a-zA-Z0-9._:-]{0,127}$`. -/
def idPattern : JsString → Bool
  | [] => false
  | first :: rest => isAlnum first && decide (rest.length ≤ 127) && rest.all isIdUnit

/-- `^[a-z0-9][a-z0-9-]{0,63}$`. -/
def featurePattern : JsString → Bool
  | [] => false
  | first :: rest =>
      (isLowerAlpha first || isDigit first) && decide (rest.length ≤ 63) &&
        rest.all (fun u => isLowerAlpha u || isDigit u || u == unit '-')

/-- `^[a-f0-9]{64}$`. -/
def sha256Pattern (s : JsString) : Bool :=
  decide (s.length = 64) && s.all (fun u => between 'a' 'f' u || isDigit u)

/-- Some suffix satisfies `here`, every unit before it being matched by a dot. -/
def dotThen (here : JsString → Bool) : JsString → Bool
  | [] => here []
  | u :: rest => here (u :: rest) || (!isLineTerminator u && dotThen here rest)

/-- `\.\.(?:\/|$)`. -/
def parentSegment (s : JsString) : Bool :=
  s == js ".." || startsWith s (js "../")

/-- `[a-z][a-z0-9+.-]*:\/\/` at the start. -/
def uriScheme : JsString → Bool
  | [] => false
  | first :: rest =>
      isLowerAlpha first &&
        startsWith
          (rest.dropWhile fun u =>
            isLowerAlpha u || isDigit u || u == unit '+' || u == unit '.' || u == unit '-')
          (js "://")

/-- `[A-Za-z]:[\\/]` at the start. -/
def drivePrefix : JsString → Bool
  | letter :: colon :: slash :: _ =>
      (isLowerAlpha letter || isUpperAlpha letter) && colon == unit ':' &&
        (slash == unit '\\' || slash == unit '/')
  | _ => false

/-- The reference grammar: a relative forward-slash path of 1 to 1024 code points without
parent segments, drive letters, schemes or control bytes. -/
def referencePattern (s : JsString) : Bool :=
  !startsWith s (js "/") && !drivePrefix s &&
    !dotThen (fun rest => startsWith rest (js "\\")) s &&
    !(parentSegment s ||
      dotThen (fun rest => startsWith rest (js "/") && parentSegment rest.tail) s) &&
    !uriScheme s && s.all (fun u => !isControl u) &&
    decide (1 ≤ (codePoints s).length) && decide ((codePoints s).length ≤ 1024)

/-- `CONTROL_CHARACTERS.test(value)`. -/
def hasControlCharacters (s : JsString) : Bool := s.any isControl

/-- `\d+`, the longest run; what follows it in the criterion grammar is never a digit. -/
def digits (s : JsString) : Option JsString :=
  if (s.head?.map isDigit).getD false then some (s.dropWhile isDigit) else none

def literal (expected : JsString) (s : JsString) : Option JsString :=
  if startsWith s expected then some (s.drop expected.length) else none

/-- `^AC-\d+\.\d+\.E?\d+$` of at most 128 units. -/
def isAcceptanceCriterionId (s : JsString) : Bool :=
  decide (s.length ≤ 128) &&
    (do
      let s ← literal (js "AC-") s
      let s ← digits s
      let s ← literal (js ".") s
      let s ← digits s
      let s ← literal (js ".") s
      digits ((literal (js "E") s).getD s)) == some []

/-- `String.prototype.trim` white space, line terminators included. -/
def isWhiteSpace (u : CodeUnit) : Bool :=
  [0x09, 0x0A, 0x0B, 0x0C, 0x0D, 0x20, 0xA0, 0x1680, 0x2028, 0x2029, 0x202F, 0x205F, 0x3000,
    0xFEFF].contains u.toNat || (decide (0x2000 ≤ u.toNat) && decide (u.toNat ≤ 0x200A))

/-- `value.trim().length < 1`. -/
def isBlank (s : JsString) : Bool := s.all isWhiteSpace

/-- `^<head>[a-zA-Z0-9][a-zA-Z0-9._:-]{0,127}$`. -/
def operationPattern (head s : JsString) : Bool :=
  startsWith s head && idPattern (s.drop head.length)

/-- `[a-z0-9_]`. -/
def isReasonUnit (u : CodeUnit) : Bool := isLowerAlpha u || isDigit u || u == unit '_'

/-- `[a-z0-9_]*(?:\.[a-z0-9_]+)*$`. -/
def reasonTail : JsString → Bool
  | [] => true
  | u :: rest =>
      if u == unit '.' then
        match rest with
        | [] => false
        | v :: rest => isReasonUnit v && reasonTail rest
      else isReasonUnit u && reasonTail rest

/-- `^[a-z][a-z0-9_]*(?:\.[a-z0-9_]+)*$`. -/
def reasonCodePattern : JsString → Bool
  | [] => false
  | first :: rest => isLowerAlpha first && reasonTail rest

def twoDigits (low high : Nat) : JsString → Option JsString
  | tens :: ones :: rest =>
      if isDigit tens && isDigit ones &&
          decide (low ≤ (tens.toNat - 0x30) * 10 + (ones.toNat - 0x30)) &&
          decide ((tens.toNat - 0x30) * 10 + (ones.toNat - 0x30) ≤ high) then some rest
      else none
  | _ => none

/-- `(?:\.\d{1,9})?Z$`. -/
def secondFraction (s : JsString) : Bool :=
  s == js "Z" ||
    (startsWith s (js ".") && decide (1 ≤ (s.tail.takeWhile isDigit).length) &&
      decide ((s.tail.takeWhile isDigit).length ≤ 9) && s.tail.dropWhile isDigit == js "Z")

/-- The timestamp grammar of every contract. -/
def timestampPattern (s : JsString) : Bool :=
  (do
    let s ← twoDigits 0 99 s
    let s ← twoDigits 0 99 s
    let s ← literal (js "-") s
    let s ← twoDigits 1 12 s
    let s ← literal (js "-") s
    let s ← twoDigits 1 31 s
    let s ← literal (js "T") s
    let s ← twoDigits 0 23 s
    let s ← literal (js ":") s
    let s ← twoDigits 0 59 s
    let s ← literal (js ":") s
    let s ← twoDigits 0 59 s
    pure (secondFraction s)) == some true

theorem operationPattern_append (head s : JsString) :
    operationPattern head (head ++ s) = idPattern s := by
  simp only [operationPattern, startsWith_append, Bool.true_and, List.drop_left]

theorem operationPattern_of_disjoint {head other : JsString}
    (forward : startsWith head other = false) (backward : startsWith other head = false)
    (s : JsString) : operationPattern other (head ++ s) = false := by
  simp only [operationPattern, startsWith_append_of_disjoint forward backward s, Bool.false_and]

theorem idPattern_length {s : JsString} (valid : idPattern s = true) : s.length ≤ 128 := by
  cases s with
  | nil => simp
  | cons first rest =>
      simp only [idPattern, Bool.and_eq_true, decide_eq_true_eq] at valid
      simp only [List.length_cons]
      omega

theorem idPattern_ne_nil {s : JsString} (valid : idPattern s = true) : s ≠ [] := by
  rintro rfl
  simp [idPattern] at valid

example : isAcceptanceCriterionId (js "AC-1.2.E3") = true := by decide
example : timestampPattern (js "2026-01-31T23:59:00.5Z") = true := by decide
example : referencePattern (js "a/../b") = false := by decide
example : referencePattern (js ".brain/02-features/x.md") = true := by decide

end Kratos.Patterns
