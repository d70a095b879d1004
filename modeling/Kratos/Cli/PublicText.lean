/- source: contracts/operation-result.ts, domain/result/validate.ts
   digest: Which text may be published, and which lines a refusal pattern or a bound keeps back. -/

import Kratos.Foundation.Regexes

set_option autoImplicit false

namespace Kratos.Cli

open Foundation.Text Foundation.Regexes

section Patterns

/-- `\s*`. -/
def spaces : Regex := .star true (.any spacePoint)

def pointAmong (allowed : String) (point : Nat) : Bool := (points allowed).contains point

/-- `(?:^|\s)`. -/
def lineOpening : Regex := .alt .start (.any spacePoint)

/-- `(?:^|[^A-Za-z0-9_.-])`. -/
def pathOpening : Regex :=
  .alt .start (.any fun point => !(alnumPoint point || pointAmong "_.-" point))

/-- `["']?\s*[:=]`, what assigns a secret. -/
def assignment : Regex :=
  .sequence [.maybe (.any (pointAmong "\"'")), spaces, .any (pointAmong ":=")]

/-- A word boundary of a case-sensitive pattern. -/
def edge : Regex := .wordBoundary wordPoint

/-- A class of letters that ignores case: its folds are the long s and the Kelvin sign. -/
def letterAnyCase (point : Nat) : Bool := letterPoint point || point == 0x17F || point == 0x212A

def errorPattern : Regex :=
  .sequence [lineOpening, .star true (.any letterPoint), .word "Error:"]

def framePattern : Regex :=
  .sequence [lineOpening, .word "at", .plus (.any spacePoint),
    .plus (.any fun point => !spacePoint point), spaces, .word "(",
    .star true (.any fun point => point != 0x29), .word ":", .plus (.any digitPoint), .word ":",
    .plus (.any digitPoint), .word ")"]

def schemePattern : Regex :=
  .sequence [.any letterAnyCase,
    .star true (.any fun point => letterAnyCase point || digitPoint point || pointAmong "+.-" point),
    .word "://"]

def hostTokenPattern : Regex :=
  .alt (.wordAnyCase "github_pat_")
    (.sequence [.wordAnyCase "gh",
      .any fun point => pointAmong "pousrPOUSR" point || point == 0x17F, .word "_"])

def secretPattern : Regex :=
  .seq (.oneOf [.wordAnyCase "token", .wordAnyCase "secret", .wordAnyCase "password"]) assignment

def keyPattern : Regex :=
  let joint := Regex.maybe (.any (pointAmong "_-"))
  .seq
    (.oneOf [.sequence [.wordAnyCase "api", joint, .wordAnyCase "key"],
      .sequence [.wordAnyCase "access", joint, .wordAnyCase "token"],
      .sequence [.wordAnyCase "client", joint, .wordAnyCase "secret"]])
    assignment

def cloudPattern : Regex :=
  .sequence [edge,
    .oneOf [.word "AWS_ACCESS_KEY_ID", .word "AWS_SECRET_ACCESS_KEY",
      .word "GOOGLE_APPLICATION_CREDENTIALS",
      .seq (.word "AZURE_")
        (.plus (.any fun point => pointIn 'A' 'Z' point || digitPoint point || point == 0x5F))],
    edge, assignment]

def bearerPattern : Regex :=
  let visible := Regex.any fun point => !spacePoint point
  .sequence [edge, .oneOf [.word "Basic", .word "Bearer"], .plus (.any spacePoint),
    .alt (.atLeast 20 (.any letterPoint))
      (.seq
        (.ahead true (.seq (.star true visible)
          (.any fun point => digitPoint point || pointAmong "-._~+/=" point)))
        (.plus visible))]

def pemPattern : Regex :=
  .sequence [.word "-----BEGIN ",
    .star true (.any fun point => pointIn 'A' 'Z' point || digitPoint point || point == 0x20),
    .oneOf [.word "PRIVATE KEY", .word "CERTIFICATE"], .word "-----"]

def tracebackPattern : Regex := .seq edge (.word "Traceback (most recent call last):")

def jwtPattern : Regex :=
  let part := Regex.plus (.any fun point => alnumPoint point || pointAmong "_-" point)
  .sequence [edge, .word "eyJ", part, .word ".", part, .word ".", part, edge]

def absolutePattern : Regex :=
  let segment :=
    Regex.plus (.any fun point => !(spacePoint point || pointAmong "/'\")]\x7d" point))
  .sequence [pathOpening, .word "/", .ahead false (.word "/"), .star true (.seq segment (.word "/")),
    segment]

def drivePattern : Regex :=
  .sequence [pathOpening, .any letterPoint, .word ":", .any (pointAmong "\\/")]

def backslashPattern : Regex := .word "\\"

/-- The refusal patterns that are about words: all but the last one. -/
def wordPatterns : List Regex :=
  [errorPattern, framePattern, schemePattern, hostTokenPattern, secretPattern, keyPattern,
    cloudPattern, bearerPattern, pemPattern, tracebackPattern, jwtPattern, absolutePattern,
    drivePattern]

/-- `unsafe`. -/
def unsafePatterns : List Regex := wordPatterns ++ [backslashPattern]

end Patterns

def controlPoint (code : Nat) : Bool := code ≤ 31 || code == 127 || (128 ≤ code && code ≤ 159)

def hasControlCharacter (value : JsString) : Bool := (codePoints value).any controlPoint

/-- `Array.from(value).length`. -/
def codePointLength (value : JsString) : Nat := (codePoints value).length

def schemaFailure : JsString := js "result does not satisfy its closed schema"
def unsafeFailure : JsString := js "unsafe text is not publishable"

/-- What keeps a text from being published. -/
def assertSafe (text : JsString) : Option JsString :=
  if hasControlCharacter text || unsafePatterns.any fun pattern => pattern.test text then
    some unsafeFailure
  else none

/-- What keeps one line from being published. -/
def assertSafeLine (value : JsString) : Option JsString :=
  if codePointLength value < 1 || 4096 < codePointLength value then some schemaFailure
  else assertSafe value

def validateOperationPublicText (text : JsString) : Except JsString JsString :=
  match (text.splitOn (unit '\n')).findSome? fun line =>
      if line.length != 0 then assertSafeLine line else none with
  | some detail => .error detail
  | none => .ok text

/-- Validate command-owned text before it reaches either public stream. -/
def validatePublicText (text : JsString) : Except JsString JsString :=
  match validateOperationPublicText text with
  | .error detail => .error (js "Result contract validation failed: " ++ detail)
  | .ok value => .ok value

def isPublishable (text : JsString) : Bool :=
  match validatePublicText text with
  | .ok _ => true
  | .error _ => false

/-- What lets one line be published. -/
structure SafeLine (line : JsString) : Prop where
  short : codePointLength line ≤ 4096
  quiet : hasControlCharacter line = false
  straight : unit '\\' ∉ line
  harmless : ∀ pattern ∈ wordPatterns, pattern.test line = false

theorem search_point (test : Nat → Bool) (before : Option Nat) (text : List Nat) :
    (search (.seq (.one test) .empty) before text).isSome = text.any test := by
  induction text generalizing before with
  | nil => rfl
  | cons point text hyp =>
      by_cases matched : test point = true
      · simp [search, matchFrom, matched]
      · rw [search]
        simp [matchFrom, matched, hyp]

theorem backslash_test (text : JsString) :
    backslashPattern.test text = true ↔ unit '\\' ∈ text := by
  have pattern : backslashPattern = .seq (.one (· == (unit '\\').toNat)) .empty := rfl
  rw [Regex.test, pattern, search_point, List.any_eq_true]
  simp only [beq_iff_eq, exists_eq_right]
  exact mem_codePoints (by decide) text

theorem codePointLength_pos {line : JsString} (some : line ≠ []) : 0 < codePointLength line := by
  obtain ⟨u, rest, rfl⟩ := List.exists_cons_of_ne_nil some
  rw [codePointLength]
  cases rest with
  | nil => exact Nat.zero_lt_one
  | cons v rest =>
      rw [codePoints]
      split_ifs <;> exact Nat.zero_lt_succ _

theorem assertSafe_eq_none {text : JsString} :
    assertSafe text = none ↔ hasControlCharacter text = false ∧ unit '\\' ∉ text ∧
      ∀ pattern ∈ wordPatterns, pattern.test text = false := by
  unfold assertSafe
  rw [ite_eq_right_iff]
  simp only [reduceCtorEq, imp_false, Bool.not_eq_true, Bool.or_eq_false_iff, unsafePatterns,
    List.any_append, List.any_cons, List.any_nil, Bool.or_false, List.any_eq_false]
  rw [← backslash_test, Bool.not_eq_true]
  tauto

theorem assertSafeLine_eq_none {line : JsString} (some : line ≠ []) :
    assertSafeLine line = none ↔ SafeLine line := by
  have long := codePointLength_pos some
  unfold assertSafeLine
  constructor
  · intro passed
    split_ifs at passed with bounds
    rw [Bool.or_eq_true, decide_eq_true_eq, decide_eq_true_eq, not_or] at bounds
    obtain ⟨quiet, straight, harmless⟩ := assertSafe_eq_none.mp passed
    exact ⟨by omega, quiet, straight, harmless⟩
  · rintro ⟨short, quiet, straight, harmless⟩
    rw [if_neg (by simp; omega)]
    exact assertSafe_eq_none.mpr ⟨quiet, straight, harmless⟩

theorem publishable_line {line : JsString} (some : line ≠ []) (single : unit '\n' ∉ line) :
    isPublishable line = true ↔ SafeLine line := by
  have length : (line.length != 0) = true := by simpa using some
  rw [← assertSafeLine_eq_none some, isPublishable, validatePublicText,
    validateOperationPublicText, List.splitOn_eq_singleton single, List.findSome?_singleton,
    if_pos length]
  cases assertSafeLine line <;> simp

end Kratos.Cli
