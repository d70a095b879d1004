/- source: domain/write-guard/glob-policy.ts
   digest: The segment-wise reading of a glob, and the classes of characters it lists. -/

import Kratos.Foundation.GlobLanguage
import Kratos.WriteGuard.Glob

set_option autoImplicit false

namespace Kratos.WriteGuard

open Foundation.Text Foundation.Paths Foundation.GlobLanguage

section Reading

/-- The characters a class lists: `x-y` is a range, anything else stands for itself. -/
def members : List Nat → List (Nat × Nat)
  | [] => []
  | [p] => [(p, p)]
  | [p, q] => [(p, p), (q, q)]
  | p :: q :: r :: rest =>
      if q = 0x2D then (p, r) :: members rest else (p, p) :: members (q :: r :: rest)

inductive GlobPiece
  | exact (p : Nat)
  | one
  | run
  | member (negated : Bool) (body : List Nat)
deriving DecidableEq, Repr

def classPiece : List Nat → GlobPiece
  | 0x21 :: body => .member true body
  | body => .member false body

/-- The pieces of a segment, with the class being read, last character first. -/
def readPieces : Option (List Nat) → List Nat → Option (List GlobPiece)
  | none, [] => some []
  | some _, [] => none
  | some content, p :: rest =>
      if p = 0x5D then (readPieces none rest).map (classPiece content.reverse :: ·)
      else readPieces (some (p :: content)) rest
  | none, p :: rest =>
      if p = 0x2A then (readPieces none rest).map (.run :: ·)
      else if p = 0x3F then (readPieces none rest).map (.one :: ·)
      else if p = 0x5B then readPieces (some []) rest
      else (readPieces none rest).map (.exact p :: ·)

/-- The pattern of one segment, or `**`. -/
inductive GlobPart
  | word (pieces : List GlobPiece)
  | words
deriving DecidableEq, Repr

def readSegment (segment : JsString) : Option GlobPart :=
  if segment = js "**" then some .words
  else (readPieces none (codePoints segment)).map .word

def readPattern (pattern : JsString) : Option (List GlobPart) := (segments pattern).mapM readSegment

def GlobPiece.meaning : GlobPiece → Piece Nat
  | .exact p => .one (· = p)
  | .one => .one fun _ => True
  | .run => .run
  | .member negated body =>
      .one fun c => (∃ range ∈ members body, range.1 ≤ c ∧ c ≤ range.2) ↔ negated = false

def GlobPart.meaning : GlobPart → Kratos.Foundation.GlobLanguage.Part Nat
  | .word pieces => .word (pieces.map GlobPiece.meaning)
  | .words => .words

/-- The reading covers a target, where `**` stands for segments that are admitted. -/
def Reads (admitted : List Nat → Prop) (pattern target : JsString) : Prop :=
  ∃ parts, readPattern pattern = some parts ∧
    Covers admitted (parts.map GlobPart.meaning) ((segments target).map codePoints)

/-- The character after a dash is followed by another dash and a character. -/
def opensRange : List Nat → Bool
  | p :: _ :: q :: _ :: _ => p == 0x2D && q == 0x2D
  | _ => false

/-- No range of a class ends in a surrogate pair where `-y-z` follows: there the units and the
characters of the class are read apart. -/
def inStep : List Nat → Bool
  | _ :: q :: r :: rest =>
      if q = 0x2D then (decide (r < 0x10000) || !opensRange rest) && inStep rest
      else inStep (q :: r :: rest)
  | _ => true

def GlobPiece.inStep : GlobPiece → Bool
  | .member _ body => WriteGuard.inStep body
  | _ => true

def GlobPart.inStep : GlobPart → Bool
  | .word pieces => pieces.all GlobPiece.inStep
  | .words => true

def patternInStep (pattern : JsString) : Bool :=
  (segments pattern).all fun segment => ((readSegment segment).map GlobPart.inStep).getD true

end Reading

section Classes

variable {body rest : JsString} {units : List ClassUnit} {ranges : List (Nat × Nat)}

/-- What stands after the first unit of a range. -/
private def DashRange (rest : JsString) : Prop := ∃ last more, rest = unit '-' :: last :: more

private def DashPoints (points : List Nat) : Prop := ∃ last more, points = 0x2D :: last :: more

private theorem classUnits_cons {u : CodeUnit} (alone : ¬ DashRange rest) :
    classUnits (u :: rest) = (classUnits rest).map fun later => .unit u :: later := by
  match rest, alone with
  | [], _ => rfl
  | [_], _ => rfl
  | second :: last :: more, alone =>
      rw [classUnits, if_neg]
      rintro rfl
      exact alone ⟨last, more, rfl⟩

private theorem classUnits_range (u last : CodeUnit) (more : JsString) :
    classUnits (u :: unit '-' :: last :: more) =
      if safeCharacterRange u last then
        (classUnits more).map fun later => .unit u :: .dash :: .unit last :: later
      else none := by
  rw [classUnits, if_pos rfl]

private theorem members_cons {p : Nat} {points : List Nat} (alone : ¬ DashPoints points) :
    members (p :: points) = (p, p) :: members points := by
  match points, alone with
  | [], _ => rfl
  | [_], _ => rfl
  | q :: last :: more, alone =>
      rw [members, if_neg]
      rintro rfl
      exact alone ⟨last, more, rfl⟩

private theorem inStep_cons {p : Nat} {points : List Nat} (alone : ¬ DashPoints points) :
    inStep (p :: points) = inStep points := by
  match points, alone with
  | [], _ => rfl
  | [_], _ => rfl
  | q :: last :: more, alone =>
      rw [inStep, if_neg]
      rintro rfl
      exact alone ⟨last, more, rfl⟩

private theorem codePoints_dash (rest : JsString) :
    codePoints (unit '-' :: rest) = 0x2D :: codePoints rest :=
  codePoints_cons (by decide) rest

private theorem codePoints_ne_nil {u : CodeUnit} (rest : JsString) : codePoints (u :: rest) ≠ [] := by
  cases rest with
  | nil => exact List.cons_ne_nil _ _
  | cons v rest =>
      rw [codePoints]
      split <;> exact List.cons_ne_nil _ _

private theorem dashPoints_iff : DashPoints (codePoints rest) ↔ DashRange rest := by
  constructor
  · rintro ⟨last, more, shape⟩
    have dash : codePoints rest = (unit '-').toNat :: last :: more := shape
    obtain ⟨tail, rfl, inner⟩ := codePoints_eq_cons (by decide) dash
    cases tail with
    | nil => cases inner
    | cons v tail => exact ⟨v, tail, rfl⟩
  · rintro ⟨last, more, rfl⟩
    rw [codePoints_dash]
    obtain ⟨p, points, shape⟩ := List.exists_cons_of_ne_nil (@codePoints_ne_nil last more)
    exact ⟨p, points, by rw [shape]⟩

private theorem classUnits_head {u : CodeUnit} (read : classUnits (u :: rest) = some units) :
    ∃ more, units = .unit u :: more := by
  by_cases range : DashRange rest
  · obtain ⟨last, more, rfl⟩ := range
    rw [classUnits_range] at read
    split at read
    · obtain ⟨later, -, rfl⟩ := Option.map_eq_some_iff.mp read
      exact ⟨_, rfl⟩
    · cases read
  · rw [classUnits_cons range] at read
    obtain ⟨later, -, rfl⟩ := Option.map_eq_some_iff.mp read
    exact ⟨_, rfl⟩

private theorem classAtoms_head (read : classUnits body = some units) (later : List ClassAtom) :
    classAtoms units ≠ .dash :: later := by
  cases body with
  | nil =>
      obtain rfl := Option.some.inj read
      nofun
  | cons u rest =>
      obtain ⟨more, rfl⟩ := classUnits_head read
      match more with
      | [] => nofun
      | .dash :: more => nofun
      | .unit v :: more =>
          rw [classAtoms]
          split <;> nofun

private theorem classRanges_point {p : Nat} {atoms : List ClassAtom}
    (head : ∀ later, atoms ≠ .dash :: later) :
    classRanges (.point p :: atoms) = (classRanges atoms).map ((p, p) :: ·) := by
  match atoms, head with
  | [], _ => rfl
  | .point q :: later, _ => rfl
  | .dash :: later, head => exact absurd rfl (head later)

/-- Two units read as one point, or the first alone. -/
private abbrev Pair (u v : CodeUnit) : Prop := (isHighSurrogate u && isLowSurrogate v) = true

private theorem pair_bounds {u v : CodeUnit} (pair : Pair u v) :
    0xD800 ≤ u.toNat ∧ u.toNat < 0xDC00 ∧ 0xDC00 ≤ v.toNat ∧ v.toNat < 0xE000 := by
  simp only [Pair, Bool.and_eq_true, isHighSurrogate, isLowSurrogate, decide_eq_true_eq] at pair
  omega

private theorem safeCharacterRange_iff {u v : CodeUnit} :
    safeCharacterRange u v = true ↔
      u.toNat ≤ v.toNat ∧ (0x2F < u.toNat ∨ v.toNat < 0x2F) := by
  simp only [safeCharacterRange, Bool.and_eq_true, Bool.not_eq_true', decide_eq_true_eq,
    Bool.and_eq_false_iff, decide_eq_false_iff_not]
  omega

private def Apart (ranges : List (Nat × Nat)) : Prop :=
  ∀ range ∈ ranges, 0x2F < range.1 ∨ range.2 < 0x2F

private theorem apart_cons {range : Nat × Nat} (own : 0x2F < range.1 ∨ range.2 < 0x2F)
    (others : Apart ranges) : Apart (range :: ranges) := by
  intro other member
  rcases List.mem_cons.mp member with rfl | inside
  · exact own
  · exact others other inside

private theorem classAtoms_unit {u : CodeUnit} (plain : isHighSurrogate u = false)
    (later : List ClassUnit) :
    classAtoms (.unit u :: later) = .point u.toNat :: classAtoms later := by
  match later with
  | [] => rfl
  | .dash :: later => rfl
  | .unit v :: later => rw [classAtoms, plain, Bool.false_and, if_neg Bool.false_ne_true]

private theorem not_high {u v : CodeUnit} (low : 0xDC00 ≤ u.toNat) (above : u.toNat ≤ v.toNat) :
    isHighSurrogate v = false := by
  rw [isHighSurrogate, Bool.and_eq_false_iff, decide_eq_false_iff_not, decide_eq_false_iff_not]
  omega

/-- What the expression lists for a class is what its characters list, and never the separator. -/
private def Listed (body : JsString) : Prop :=
  ∀ units ranges, classUnits body = some units → classRanges (classAtoms units) = some ranges →
    inStep (codePoints body) = true → ranges = members (codePoints body) ∧ Apart ranges

private theorem listed_nil : Listed [] := by
  intro units ranges read listed _
  obtain rfl := Option.some.inj read
  obtain rfl := Option.some.inj listed
  exact ⟨rfl, fun _ none => absurd none List.not_mem_nil⟩

private theorem listed_point {p : Nat} {points : List Nat} {atoms : List ClassAtom}
    {ranges : List (Nat × Nat)} (own : p ≠ 0x2F) (head : ∀ later, atoms ≠ .dash :: later)
    (alone : ¬ DashPoints points) (step : inStep (p :: points) = true)
    (listed : classRanges (.point p :: atoms) = some ranges)
    (rest : ∀ ranges, classRanges atoms = some ranges → inStep points = true →
      ranges = members points ∧ Apart ranges) :
    ranges = members (p :: points) ∧ Apart ranges := by
  rw [classRanges_point head] at listed
  obtain ⟨later, inner, rfl⟩ := Option.map_eq_some_iff.mp listed
  rw [inStep_cons alone] at step
  obtain ⟨same, apart⟩ := rest later inner step
  rw [members_cons alone, ← same]
  exact ⟨rfl, apart_cons (by omega) apart⟩

private theorem listed_single {u : CodeUnit} {tail : JsString} (alone : ¬ DashRange tail)
    (plain : unit '/' ∉ u :: tail) (ih : ∀ later, later <:+ tail → Listed later) :
    Listed (u :: tail) := by
  intro units ranges read listed step
  have own : u.toNat ≠ 0x2F := by
    intro slash
    have same : u = unit '/' := UInt16.toNat_inj.mp slash
    exact plain (same ▸ List.mem_cons_self)
  rw [classUnits_cons alone] at read
  obtain ⟨later, readTail, rfl⟩ := Option.map_eq_some_iff.mp read
  cases tail with
  | nil =>
      obtain rfl := Option.some.inj readTail
      obtain rfl := Option.some.inj listed
      exact ⟨rfl, apart_cons (by omega) fun _ none => absurd none List.not_mem_nil⟩
  | cons v more =>
      by_cases pair : Pair u v
      · have bounds := pair_bounds pair
        have point : codePoints (u :: v :: more) =
            (0x10000 + (u.toNat - 0xD800) * 0x400 + (v.toNat - 0xDC00)) :: codePoints more := by
          rw [codePoints, if_pos pair]
        by_cases range : DashRange more
        · -- a range that begins with a pair is out of order
          obtain ⟨last, deeper, rfl⟩ := range
          rw [classUnits_range] at readTail
          split at readTail
          · rename_i safe
            obtain ⟨inner, -, rfl⟩ := Option.map_eq_some_iff.mp readTail
            have above := (safeCharacterRange_iff.mp safe).1
            have small := last.toNat_lt
            rw [classAtoms, if_pos pair, classAtoms, classAtoms_unit (not_high bounds.2.2.1 above),
              classRanges, if_neg (by omega)] at listed
            cases listed
          · cases readTail
        · rw [classUnits_cons range] at readTail
          obtain ⟨inner, readMore, rfl⟩ := Option.map_eq_some_iff.mp readTail
          rw [point] at step ⊢
          rw [classAtoms, if_pos pair] at listed
          refine listed_point (by omega) (classAtoms_head readMore) ?_ step listed ?_
          · rw [dashPoints_iff]
            exact range
          · intro ranges inner step
            exact ih more (List.suffix_cons v more) _ ranges readMore inner step
      · have point : codePoints (u :: v :: more) = u.toNat :: codePoints (v :: more) := by
          rw [codePoints, if_neg pair]
        obtain ⟨inner, rfl⟩ := classUnits_head readTail
        rw [point] at step ⊢
        rw [classAtoms, if_neg pair] at listed
        refine listed_point own (classAtoms_head readTail) ?_ step listed ?_
        · rw [dashPoints_iff]
          exact alone
        · intro ranges inner step
          exact ih (v :: more) (List.suffix_refl _) _ ranges readTail inner step

private theorem listed_between {low high : Nat} {points : List Nat} {atoms : List ClassAtom}
    {ranges : List (Nat × Nat)} (own : 0x2F < low ∨ high < 0x2F)
    (step : inStep (low :: 0x2D :: high :: points) = true)
    (listed : classRanges (.point low :: .dash :: .point high :: atoms) = some ranges)
    (rest : ∀ ranges, classRanges atoms = some ranges → inStep points = true →
      (0x10000 ≤ high → opensRange points = false) → ranges = members points ∧ Apart ranges) :
    ranges = members (low :: 0x2D :: high :: points) ∧ Apart ranges := by
  rw [classRanges] at listed
  split at listed
  · obtain ⟨later, inner, rfl⟩ := Option.map_eq_some_iff.mp listed
    rw [inStep, if_pos rfl, Bool.and_eq_true, Bool.or_eq_true, decide_eq_true_eq,
      Bool.not_eq_true'] at step
    obtain ⟨same, apart⟩ := rest later inner step.2 fun wide =>
      step.1.resolve_left (Nat.not_lt.mpr wide)
    rw [members, if_pos rfl, ← same]
    exact ⟨rfl, apart_cons own apart⟩
  · cases listed

private theorem listed_after_pair {w e : CodeUnit} {deeper : JsString} {inner : List ClassUnit}
    {ranges : List (Nat × Nat)} (low : 0xDC00 ≤ w.toNat) (above : w.toNat ≤ e.toNat)
    (readDeeper : classUnits deeper = some inner)
    (listed : classRanges (.dash :: classAtoms (.unit e :: inner)) = some ranges)
    (step : inStep (codePoints (unit '-' :: e :: deeper)) = true)
    (closed : opensRange (codePoints (unit '-' :: e :: deeper)) = false) (ih : Listed deeper) :
    ranges = members (codePoints (unit '-' :: e :: deeper)) ∧ Apart ranges := by
  have plain := not_high low above
  have point : codePoints (unit '-' :: e :: deeper) = 0x2D :: e.toNat :: codePoints deeper := by
    rw [codePoints_dash, codePoints_cons plain]
  rw [point] at step closed ⊢
  rw [classAtoms_unit plain, classRanges] at listed
  obtain ⟨later, listedPoint, rfl⟩ := Option.map_eq_some_iff.mp listed
  have alone : ¬ DashPoints (codePoints deeper) := by
    rintro ⟨last, more, shape⟩
    rw [shape] at closed
    cases closed
  have first : ¬ DashPoints (e.toNat :: codePoints deeper) := by
    rintro ⟨last, more, shape⟩
    have head := (List.cons.inj shape).1
    omega
  rw [inStep_cons first] at step
  obtain ⟨same, apart⟩ := listed_point (by omega) (classAtoms_head readDeeper) alone step listedPoint
    fun ranges inner step => ih _ ranges readDeeper inner step
  rw [members_cons first, ← same]
  exact ⟨rfl, apart_cons (by decide) apart⟩

private theorem listed_range {u last : CodeUnit} {more : JsString}
    (ih : ∀ later, later <:+ more → Listed later) : Listed (u :: unit '-' :: last :: more) := by
  intro units ranges read listed step
  rw [classUnits_range] at read
  split at read
  · rename_i safe
    obtain ⟨ordered, own⟩ := safeCharacterRange_iff.mp safe
    obtain ⟨later, readMore, rfl⟩ := Option.map_eq_some_iff.mp read
    have point : codePoints (u :: unit '-' :: last :: more) =
        u.toNat :: 0x2D :: codePoints (last :: more) := by
      rw [codePoints_cons_cons (by decide), codePoints_dash]
    rw [point] at step ⊢
    rw [classAtoms] at listed
    by_cases paired : ∃ w deep, more = w :: deep ∧ Pair last w
    · obtain ⟨w, deep, rfl, pair⟩ := paired
      have bounds := pair_bounds pair
      have wide : 0x2F < u.toNat := by omega
      have whole : codePoints (last :: w :: deep) =
          (0x10000 + (last.toNat - 0xD800) * 0x400 + (w.toNat - 0xDC00)) :: codePoints deep := by
        rw [codePoints, if_pos pair]
      rw [whole] at step ⊢
      by_cases range : DashRange deep
      · obtain ⟨e, deeper, rfl⟩ := range
        rw [classUnits_range] at readMore
        split at readMore
        · rename_i safeAfter
          obtain ⟨inner, readDeeper, rfl⟩ := Option.map_eq_some_iff.mp readMore
          have above := (safeCharacterRange_iff.mp safeAfter).1
          rw [classAtoms, if_pos pair, classAtoms] at listed
          refine listed_between (.inl wide) step listed ?_
          intro ranges listedAfter step closed
          exact listed_after_pair bounds.2.2.1 above readDeeper listedAfter step
            (closed (by omega))
            (ih deeper ((List.suffix_cons _ _).trans ((List.suffix_cons _ _).trans
              (List.suffix_cons _ _))))
        · cases readMore
      · rw [classUnits_cons range] at readMore
        obtain ⟨inner, readDeep, rfl⟩ := Option.map_eq_some_iff.mp readMore
        rw [classAtoms, if_pos pair] at listed
        refine listed_between (.inl wide) step listed ?_
        intro ranges inner step _
        exact ih deep (List.suffix_cons w deep) _ ranges readDeep inner step
    · have whole : codePoints (last :: more) = last.toNat :: codePoints more ∧
          classAtoms (.unit last :: later) = .point last.toNat :: classAtoms later := by
        cases more with
        | nil =>
            obtain rfl := Option.some.inj readMore
            exact ⟨rfl, rfl⟩
        | cons w deep =>
            have alone : ¬ Pair last w := fun pair => paired ⟨w, deep, rfl, pair⟩
            obtain ⟨inner, rfl⟩ := classUnits_head readMore
            rw [codePoints, if_neg alone, classAtoms, if_neg alone]
            exact ⟨rfl, rfl⟩
      rw [whole.1] at step ⊢
      rw [whole.2] at listed
      refine listed_between own step listed ?_
      intro ranges inner step _
      exact ih more (List.suffix_refl more) _ ranges readMore inner step
  · cases read

private theorem listed_all (count : Nat) (body : JsString) (short : body.length ≤ count)
    (plain : unit '/' ∉ body) : Listed body := by
  induction count generalizing body with
  | zero =>
      obtain rfl := List.length_eq_zero_iff.mp (Nat.le_zero.mp short)
      exact listed_nil
  | succ count ih =>
      have below : ∀ whole later : JsString, whole.length ≤ count → (∀ u ∈ whole, u ∈ body) →
          later <:+ whole → Listed later := by
        intro whole later bounded inside suffix
        refine ih later (suffix.length_le.trans bounded) fun slash => plain (inside _ ?_)
        exact suffix.subset slash
      cases body with
      | nil => exact listed_nil
      | cons u tail =>
          rw [List.length_cons] at short
          by_cases range : DashRange tail
          · obtain ⟨last, more, rfl⟩ := range
            rw [List.length_cons, List.length_cons] at short
            refine listed_range fun later suffix => below more later (by omega) ?_ suffix
            intro v member
            simp [member]
          · refine listed_single range plain fun later suffix => below tail later (by omega) ?_ suffix
            intro v member
            exact List.mem_cons_of_mem _ member

/-- Where a class is read in step, the expression lists what its characters list, and never the
separator. -/
theorem classRanges_members (plain : unit '/' ∉ body) (read : classUnits body = some units)
    (listed : classRanges (classAtoms units) = some ranges)
    (step : inStep (codePoints body) = true) :
    ranges = members (codePoints body) ∧ ∀ range ∈ ranges, 0x2F < range.1 ∨ range.2 < 0x2F :=
  listed_all body.length body (Nat.le_refl _) plain units ranges read listed step

end Classes

end Kratos.WriteGuard
