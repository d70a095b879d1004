/- source: domain/write-guard/glob-policy.ts
   digest: The glob dialect of feature scopes, compiled to the pattern the runtime builds and matched. -/

import Kratos.Foundation.Paths
import Kratos.Patterns

set_option autoImplicit false

namespace Kratos.WriteGuard

open Foundation.Text Foundation.Paths

section Dialect

/-- `/(?:^|\/)[.][.]?($|\/)/u`. -/
def hasDotSegment (pattern : JsString) : Bool :=
  (segments pattern).any fun part => part == js "." || part == js ".."

/-- `pattern.includes("//")`. -/
def hasDoubleSlash : JsString → Bool
  | first :: second :: rest =>
      (first == unit '/' && second == unit '/') || hasDoubleSlash (second :: rest)
  | _ => false

def isSafeProjectRelativePattern (pattern : JsString) : Bool :=
  !pattern.isEmpty && decide (pattern.length ≤ 1024) && !startsWith pattern (js "/") &&
    !(Patterns.drivePrefix pattern && (pattern.drop 2).head? == some (unit '/')) &&
    !pattern.contains (unit '\\') && !pattern.contains (unit '`') && !hasDoubleSlash pattern &&
    !(pattern.getLast? == some (unit '/')) && !hasDotSegment pattern && !pattern.any isControl

inductive ClassUnit
  | unit (u : CodeUnit)
  | dash
deriving DecidableEq, Repr

def safeCharacterRange (first last : CodeUnit) : Bool :=
  decide (first.toNat ≤ last.toNat) && !(decide (first.toNat ≤ 0x2F) && decide (0x2F ≤ last.toNat))

def classUnits : JsString → Option (List ClassUnit)
  | [] => some []
  | [first] => some [.unit first]
  | [first, second] => some [.unit first, .unit second]
  | first :: second :: rangeEnd :: rest =>
      if second = unit '-' then
        if safeCharacterRange first rangeEnd then
          (classUnits rest).map fun later => .unit first :: .dash :: .unit rangeEnd :: later
        else none
      else (classUnits (second :: rangeEnd :: rest)).map fun later => .unit first :: later

structure CharacterClass where
  negated : Bool
  body : List ClassUnit
deriving DecidableEq, Repr

def compileCharacterClass (content : JsString) : Option CharacterClass :=
  let negated := startsWith content (js "!")
  let body := if negated then content.drop 1 else content
  if body = [] ∨ unit '/' ∈ body ∨ unit '[' ∈ body ∨ unit '\\' ∈ body then none
  else (classUnits body).map fun units => ⟨negated, units⟩

/-- A piece of the regular expression that a glob becomes. -/
inductive GlobToken
  | literal (u : CodeUnit)
  | star
  | any
  | globstar
  | directories
  | characterClass (c : CharacterClass)
deriving DecidableEq, Repr

/-- The loop over the pattern, with the unit before the index and the class being read, last unit
first. -/
def compileFrom (previous : Option CodeUnit) (reading : Option JsString) :
    JsString → Option (List GlobToken)
  | [] => if reading.isSome then none else some []
  | u :: rest =>
      match reading with
      | some content =>
          if u = unit ']' then
            match compileCharacterClass content.reverse with
            | some c => (compileFrom (some u) none rest).map (.characterClass c :: ·)
            | none => none
          else compileFrom (some u) (some (u :: content)) rest
      | none =>
          if u = unit '*' then
            -- `**` stands for directories only as a whole segment
            match rest with
            | [] => some [.star]
            | second :: tail =>
                if second = unit '*' ∧ (previous = none ∨ previous = some (unit '/')) then
                  match tail with
                  | [] => some [.globstar]
                  | slash :: tail =>
                      if slash = unit '/' then
                        (compileFrom (some slash) none tail).map (.directories :: ·)
                      else (compileFrom (some u) none (second :: slash :: tail)).map (.star :: ·)
                else (compileFrom (some u) none (second :: tail)).map (.star :: ·)
          else if u = unit '?' then (compileFrom (some u) none rest).map (.any :: ·)
          else if u = unit '[' then compileFrom (some u) (some []) rest
          else (compileFrom (some u) none rest).map (.literal u :: ·)

end Dialect

section RegularExpression

/-- A member of a class as the unicode flag reads it. -/
inductive ClassAtom
  | point (p : Nat)
  | dash
deriving DecidableEq, Repr

/-- Adjacent surrogates of a class are one code point. -/
def classAtoms : List ClassUnit → List ClassAtom
  | [] => []
  | .dash :: rest => .dash :: classAtoms rest
  | [.unit u] => [.point u.toNat]
  | .unit u :: .dash :: rest => .point u.toNat :: .dash :: classAtoms rest
  | .unit u :: .unit v :: rest =>
      if isHighSurrogate u && isLowSurrogate v then
        .point (0x10000 + (u.toNat - 0xD800) * 0x400 + (v.toNat - 0xDC00)) :: classAtoms rest
      else .point u.toNat :: classAtoms (.unit v :: rest)

/-- The ranges of a class; a range out of order is a syntax error. -/
def classRanges : List ClassAtom → Option (List (Nat × Nat))
  | [] => some []
  | .point low :: .dash :: .point high :: rest =>
      if low ≤ high then (classRanges rest).map ((low, high) :: ·) else none
  | .point p :: rest => (classRanges rest).map ((p, p) :: ·)
  | .dash :: rest => (classRanges rest).map ((0x2D, 0x2D) :: ·)

/-- An atom of the expression as the unicode flag reads it. -/
inductive GlobAtom
  | literal (p : Nat)
  | star
  | any
  | globstar
  | directories
  | characterClass (negated : Bool) (ranges : List (Nat × Nat))
deriving DecidableEq, Repr

/-- `new RegExp(source, "u")`, none where it throws. -/
def globAtoms : List GlobToken → Option (List GlobAtom)
  | [] => some []
  | .literal u :: .literal v :: rest =>
      if isHighSurrogate u && isLowSurrogate v then
        (globAtoms rest).map
          (.literal (0x10000 + (u.toNat - 0xD800) * 0x400 + (v.toNat - 0xDC00)) :: ·)
      else (globAtoms (.literal v :: rest)).map (.literal u.toNat :: ·)
  | .literal u :: rest => (globAtoms rest).map (.literal u.toNat :: ·)
  | .star :: rest => (globAtoms rest).map (.star :: ·)
  | .any :: rest => (globAtoms rest).map (.any :: ·)
  | .globstar :: rest => (globAtoms rest).map (.globstar :: ·)
  | .directories :: rest => (globAtoms rest).map (.directories :: ·)
  | .characterClass c :: rest =>
      match classRanges (classAtoms c.body) with
      | some ranges =>
          (globAtoms rest).map
            (.characterClass c.negated (if c.negated then (0x2F, 0x2F) :: ranges else ranges) :: ·)
      | none => none

def notSlash (p : Nat) : Bool := p != 0x2F

/-- `.` with the unicode flag. -/
def notTerminator (p : Nat) : Bool := p != 0x0A && p != 0x0D && p != 0x2028 && p != 0x2029

/-- A run of allowed points, of any length, and then the rest of the expression. -/
def runThen (allowed : Nat → Bool) (next : List Nat → Bool) : List Nat → Bool
  | [] => next []
  | p :: rest => next (p :: rest) || (allowed p && runThen allowed next rest)

/-- One allowed point and then the rest of the expression. -/
def oneThen (allowed : Nat → Bool) (next : List Nat → Bool) : List Nat → Bool
  | [] => false
  | p :: rest => allowed p && next rest

def atomsMatch : List GlobAtom → List Nat → Bool
  | [] => List.isEmpty
  | .literal p :: rest => oneThen (· == p) (atomsMatch rest)
  | .any :: rest => oneThen notSlash (atomsMatch rest)
  | .star :: rest => runThen notSlash (atomsMatch rest)
  | .globstar :: rest => runThen notTerminator (atomsMatch rest)
  | .directories :: rest => fun points =>
      runThen notTerminator (oneThen (· == 0x2F) (atomsMatch rest)) points ||
        atomsMatch rest points
  | .characterClass negated ranges :: rest =>
      oneThen (fun p => (ranges.any fun range => range.1 ≤ p && p ≤ range.2) != negated)
        (atomsMatch rest)

end RegularExpression

section Globs

def compileGlob (pattern : JsString) : Option (List GlobAtom) :=
  if isSafeProjectRelativePattern pattern then (compileFrom none none pattern).bind globAtoms
  else none

/-- Whether one non-negated glob matches a target. -/
def globMatches (pattern target : JsString) : Bool :=
  ((compileGlob pattern).map fun atoms => atomsMatch atoms (codePoints target)).getD false

/-- `pattern.startsWith("!") ? pattern.slice(1) : pattern`. -/
def globExpression (pattern : JsString) : JsString :=
  if startsWith pattern (js "!") then pattern.drop 1 else pattern

def matchesOrderedGlobs (patterns : List JsString) (target : JsString) : Bool :=
  patterns.foldl
    (fun matched pattern =>
      if globMatches (globExpression pattern) target then !startsWith pattern (js "!") else matched)
    false

def isPathGlob (pattern : JsString) : Bool :=
  !(globExpression pattern).isEmpty && !startsWith (globExpression pattern) (js "!") &&
    (compileGlob (globExpression pattern)).isSome

theorem isPathGlob_plain {pattern : JsString} (accepted : isPathGlob pattern = true) :
    pattern ≠ [] ∧ ∀ u ∈ pattern, u ≠ unit '`' ∧ isControl u = false := by
  have bang : ∀ u ∈ js "!", u ≠ unit '`' ∧ isControl u = false := by decide
  simp only [isPathGlob, Bool.and_eq_true, compileGlob] at accepted
  obtain ⟨⟨filled, -⟩, compiled⟩ := accepted
  have safe : isSafeProjectRelativePattern (globExpression pattern) = true := by
    by_contra refused
    rw [if_neg refused] at compiled
    cases compiled
  simp only [isSafeProjectRelativePattern, Bool.and_eq_true, Bool.not_eq_true',
    List.any_eq_false, List.contains_eq_mem, decide_eq_false_iff_not] at safe
  have plain : ∀ u ∈ globExpression pattern, u ≠ unit '`' ∧ isControl u = false := by
    intro u member
    refine ⟨?_, by simpa using safe.2 u member⟩
    rintro rfl
    exact safe.1.1.1.1.2 member
  unfold globExpression at plain filled
  split at plain
  · next negated =>
      obtain ⟨rest, rfl⟩ := (startsWith_iff pattern _).mp negated
      refine ⟨List.cons_ne_nil _ _, ?_⟩
      intro u member
      rcases List.mem_append.mp member with inside | inside
      · exact bang u inside
      · exact plain u inside
  · next positive =>
      rw [if_neg positive] at filled
      refine ⟨?_, plain⟩
      rintro rfl
      cases filled

example : isPathGlob (js "src/**/*.ts") = true := by decide +kernel
example : isPathGlob (js "src/[z-a].ts") = false := by decide +kernel
example : globMatches (js "src/**/*.ts") (js "src/a/b/c.ts") = true := by decide +kernel

end Globs

end Kratos.WriteGuard
