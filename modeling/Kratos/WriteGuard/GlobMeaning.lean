/- source: domain/write-guard/glob-policy.ts
   digest: The expression a glob is compiled to accepts the targets of its segment-wise reading. -/

import Kratos.Transactions.Surface
import Kratos.WriteGuard.GlobReading

set_option autoImplicit false

namespace Kratos.WriteGuard

open Foundation.Text Foundation.Paths Foundation.GlobLanguage

section Segments

variable {previous : Option CodeUnit} {tokens : List GlobToken}

/-- The loop over a segment that is not `**`, with the class being read, last unit first. -/
def segmentTokens : Option JsString → JsString → Option (List GlobToken)
  | none, [] => some []
  | some _, [] => none
  | some content, u :: rest =>
      if u = unit ']' then
        match compileCharacterClass content.reverse with
        | some c => (segmentTokens none rest).map (.characterClass c :: ·)
        | none => none
      else segmentTokens (some (u :: content)) rest
  | none, u :: rest =>
      if u = unit '*' then (segmentTokens none rest).map (.star :: ·)
      else if u = unit '?' then (segmentTokens none rest).map (.any :: ·)
      else if u = unit '[' then segmentTokens (some []) rest
      else (segmentTokens none rest).map (.literal u :: ·)

private theorem class_with_slash {content : JsString} (slash : unit '/' ∈ content) :
    compileCharacterClass content = none := by
  unfold compileCharacterClass
  simp only
  rw [if_pos]
  refine .inr (.inl ?_)
  split
  · rename_i negated
    obtain ⟨body, rfl⟩ := (startsWith_iff _ _).mp negated
    rcases List.mem_append.mp slash with bang | inside
    · exact absurd bang (by decide)
    · exact inside
  · exact slash

private theorem compileFrom_reading (content : JsString) (u : CodeUnit) (rest : JsString) :
    compileFrom previous (some content) (u :: rest) =
      if u = unit ']' then
        match compileCharacterClass content.reverse with
        | some c => (compileFrom (some u) none rest).map (.characterClass c :: ·)
        | none => none
      else compileFrom (some u) (some (u :: content)) rest := rfl

private theorem compileFrom_other {u : CodeUnit} (star : u ≠ unit '*') (rest : JsString) :
    compileFrom previous none (u :: rest) =
      if u = unit '?' then (compileFrom (some u) none rest).map (.any :: ·)
      else if u = unit '[' then compileFrom (some u) (some []) rest
      else (compileFrom (some u) none rest).map (.literal u :: ·) := by
  cases rest with
  | nil => exact if_neg star
  | cons v tail =>
      cases tail with
      | nil => exact if_neg star
      | cons w tail => exact if_neg star

private theorem compileFrom_star_cons (second : CodeUnit) (tail : JsString) :
    compileFrom previous none (unit '*' :: second :: tail) =
      if second = unit '*' ∧ (previous = none ∨ previous = some (unit '/')) then
        match tail with
        | [] => some [.globstar]
        | slash :: tail =>
            if slash = unit '/' then (compileFrom (some slash) none tail).map (.directories :: ·)
            else (compileFrom (some (unit '*')) none (second :: slash :: tail)).map (.star :: ·)
      else (compileFrom (some (unit '*')) none (second :: tail)).map (.star :: ·) := by
  cases tail with
  | nil => exact if_pos rfl
  | cons slash tail => exact if_pos rfl

private theorem compileFrom_class_slash {content text : JsString} (slash : unit '/' ∈ content) :
    compileFrom previous (some content) text = none := by
  induction text generalizing previous content with
  | nil => rfl
  | cons u rest ih =>
      rw [compileFrom_reading]
      split
      · rw [class_with_slash (List.mem_reverse.mpr slash)]
      · exact ih (List.mem_cons_of_mem _ slash)

/-- What stands after the first star of a globstar. -/
private def StarSegment (rest : JsString) : Prop :=
  rest = js "*" ∨ ∃ more, rest = js "*" ++ unit '/' :: more

private abbrev Boundary (previous : Option CodeUnit) : Prop :=
  previous = none ∨ previous = some (unit '/')

private theorem compileFrom_star {rest : JsString}
    (plain : Boundary previous → ¬ StarSegment rest) :
    compileFrom previous none (unit '*' :: rest) =
      (compileFrom (some (unit '*')) none rest).map (.star :: ·) := by
  match rest, plain with
  | [], _ => rfl
  | second :: tail, plain =>
      rw [compileFrom_star_cons]
      split
      · rename_i star
        obtain ⟨rfl, boundary⟩ := star
        match tail, plain with
        | [], plain => exact absurd (.inl rfl) (plain boundary)
        | slash :: tail, plain =>
            simp only
            rw [if_neg]
            rintro rfl
            exact plain boundary (.inr ⟨tail, rfl⟩)
      · rfl

/-- What the loop does after a segment: it ends, or reads the separator. -/
private def After (tail : JsString) (tokens : List GlobToken) : Prop :=
  (tail = [] ∧ tokens = []) ∨
    ∃ rest later, tail = unit '/' :: rest ∧ compileFrom (some (unit '/')) none rest = some later ∧
      tokens = .literal (unit '/') :: later

private theorem compileFrom_segment {reading : Option JsString} {front tail : JsString}
    (plain : unit '/' ∉ front) (ends : tail = [] ∨ ∃ rest, tail = unit '/' :: rest)
    (calm : reading = none → Boundary previous → front ≠ js "**")
    (read : compileFrom previous reading (front ++ tail) = some tokens) :
    ∃ own later, segmentTokens reading front = some own ∧ After tail later ∧
      tokens = own ++ later := by
  induction front generalizing previous reading tokens with
  | nil =>
      rcases ends with rfl | ⟨rest, rfl⟩
      · cases reading with
        | none => exact ⟨[], [], rfl, .inl ⟨rfl, rfl⟩, (Option.some.inj read).symm⟩
        | some content => cases read
      · cases reading with
        | none =>
            rw [List.nil_append, compileFrom_other (by decide), if_neg (by decide),
              if_neg (by decide)] at read
            obtain ⟨later, inner, rfl⟩ := Option.map_eq_some_iff.mp read
            exact ⟨[], _, rfl, .inr ⟨rest, later, rfl, inner, rfl⟩, rfl⟩
        | some content =>
            rw [List.nil_append, compileFrom_reading, if_neg (by decide),
              compileFrom_class_slash List.mem_cons_self] at read
            cases read
  | cons u front ih =>
      rw [List.mem_cons, not_or] at plain
      have inside : ∀ front : JsString, ¬ Boundary (some u) := by
        rintro - (none | slash)
        · cases none
        · exact plain.1 (Option.some.inj slash).symm
      have calmed : ∀ reading : Option JsString, reading = none → Boundary (some u) →
          front ≠ js "**" := fun _ _ boundary => absurd boundary (inside front)
      cases reading with
      | some content =>
          rw [List.cons_append, compileFrom_reading] at read
          rw [segmentTokens]
          split at read
          · rename_i closing
            rw [if_pos closing]
            cases compiled : compileCharacterClass content.reverse with
            | none =>
                rw [compiled] at read
                cases read
            | some c =>
                rw [compiled] at read
                obtain ⟨more, inner, rfl⟩ := Option.map_eq_some_iff.mp read
                obtain ⟨own, later, first, after, rfl⟩ := ih plain.2 (calmed _) inner
                exact ⟨.characterClass c :: own, later, by simp only [first, Option.map_some],
                  after, rfl⟩
          · rename_i other
            rw [if_neg other]
            exact ih plain.2 (calmed _) read
      | none =>
          rw [List.cons_append] at read
          rw [segmentTokens]
          by_cases star : u = unit '*'
          · subst star
            have alone : Boundary previous → ¬ StarSegment (front ++ tail) := by
              rintro boundary (whole | ⟨more, whole⟩)
              · rcases ends with rfl | ⟨rest, rfl⟩
                · rw [List.append_nil] at whole
                  exact calm rfl boundary (by rw [whole]; rfl)
                · have slash : unit '/' ∈ js "*" := by
                    rw [← whole]
                    exact List.mem_append_right _ List.mem_cons_self
                  exact absurd slash (by decide)
              · rcases ends with rfl | ⟨rest, rfl⟩
                · rw [List.append_nil] at whole
                  exact plain.2 (by rw [whole]; exact List.mem_append_right _ List.mem_cons_self)
                · have words := congrArg (List.splitOn (unit '/')) whole
                  rw [List.splitOn_append_cons_self_of_not_mem plain.2,
                    List.splitOn_append_cons_self_of_not_mem (by decide)] at words
                  exact calm rfl boundary (by rw [(List.cons.inj words).1]; rfl)
            rw [compileFrom_star alone] at read
            obtain ⟨more, inner, rfl⟩ := Option.map_eq_some_iff.mp read
            obtain ⟨own, later, first, after, rfl⟩ := ih plain.2 (calmed _) inner
            exact ⟨.star :: own, later, by rw [if_pos rfl, first, Option.map_some], after, rfl⟩
          · rw [compileFrom_other star] at read
            rw [if_neg star]
            split at read
            · rename_i question
              obtain ⟨more, inner, rfl⟩ := Option.map_eq_some_iff.mp read
              obtain ⟨own, later, first, after, rfl⟩ := ih plain.2 (calmed _) inner
              exact ⟨.any :: own, later, by rw [if_pos question, first, Option.map_some], after, rfl⟩
            · rename_i question
              rw [if_neg question]
              split at read
              · rename_i opening
                rw [if_pos opening]
                exact ih plain.2 (calmed _) read
              · rename_i opening
                obtain ⟨more, inner, rfl⟩ := Option.map_eq_some_iff.mp read
                obtain ⟨own, later, first, after, rfl⟩ := ih plain.2 (calmed _) inner
                exact ⟨.literal u :: own, later, by rw [if_neg opening, first, Option.map_some],
                  after, rfl⟩

end Segments

section Pieces

def GlobPiece.atom : GlobPiece → GlobAtom
  | .exact p => .literal p
  | .one => .any
  | .run => .star
  | .member negated body =>
      .characterClass negated (if negated then (0x2F, 0x2F) :: members body else members body)

/-- A piece that stands for no separator, by what it names. -/
def GlobPiece.Separate : GlobPiece → Prop
  | .exact p => p ≠ 0x2F
  | .member false body => ∀ range ∈ members body, 0x2F < range.1 ∨ range.2 < 0x2F
  | _ => True

private theorem readPieces_class {content : List Nat} {text : List Nat} (open' : 0x5D ∉ text)
    (after : List Nat) :
    readPieces (some content) (text ++ 0x5D :: after) =
      (readPieces none after).map (classPiece (content.reverse ++ text) :: ·) := by
  induction text generalizing content with
  | nil => rw [List.nil_append, readPieces, if_pos rfl, List.append_nil]
  | cons p text ih =>
      rw [List.mem_cons, not_or] at open'
      rw [List.cons_append, readPieces, if_neg (Ne.symm open'.1), ih open'.2, List.reverse_cons,
        List.append_assoc]
      rfl

private theorem segmentTokens_class {content text : JsString} {tokens : List GlobToken}
    (read : segmentTokens (some content) text = some tokens) :
    ∃ body after c own, text = body ++ unit ']' :: after ∧ unit ']' ∉ body ∧
      compileCharacterClass (content.reverse ++ body) = some c ∧
      segmentTokens none after = some own ∧ tokens = .characterClass c :: own := by
  induction text generalizing content with
  | nil => cases read
  | cons u rest ih =>
      rw [segmentTokens] at read
      split at read
      · rename_i closing
        subst closing
        split at read
        · rename_i c compiled
          obtain ⟨own, inner, rfl⟩ := Option.map_eq_some_iff.mp read
          exact ⟨[], rest, c, own, rfl, List.not_mem_nil, by rw [List.append_nil]; exact compiled,
            inner, rfl⟩
        · cases read
      · rename_i other
        obtain ⟨body, after, c, own, rfl, apart, compiled, inner, rfl⟩ := ih read
        refine ⟨u :: body, after, c, own, rfl, ?_, ?_, inner, rfl⟩
        · rw [List.mem_cons, not_or]
          exact ⟨Ne.symm other, apart⟩
        · rw [List.reverse_cons, List.append_assoc] at compiled
          exact compiled

private theorem classPiece_compiled {content : JsString} {c : CharacterClass}
    (compiled : compileCharacterClass content = some c) :
    ∃ body, classPiece (codePoints content) = .member c.negated (codePoints body) ∧
      classUnits body = some c.body ∧ unit '/' ∉ body := by
  have parts : ∀ negated body, (if body = [] ∨ unit '/' ∈ body ∨ unit '[' ∈ body ∨ unit '\\' ∈ body
      then none else (classUnits body).map fun units => CharacterClass.mk negated units) = some c →
      c.negated = negated ∧ classUnits body = some c.body ∧ unit '/' ∉ body := by
    intro negated body read
    split at read
    · cases read
    · rename_i allowed
      rw [not_or, not_or] at allowed
      obtain ⟨units, inner, rfl⟩ := Option.map_eq_some_iff.mp read
      exact ⟨rfl, inner, allowed.2.1⟩
  obtain ⟨negated, read, plain⟩ := parts _ _ compiled
  rw [negated]
  by_cases bang : startsWith content (js "!") = true
  · rw [if_pos bang] at read plain
    obtain ⟨body, rfl⟩ := (startsWith_iff _ _).mp bang
    have point : codePoints (js "!" ++ body) = 0x21 :: codePoints body :=
      codePoints_cons (by decide) body
    rw [point, bang]
    exact ⟨body, rfl, read, plain⟩
  · rw [if_neg bang] at read plain
    refine ⟨content, ?_, read, plain⟩
    rw [Bool.eq_false_iff.mpr bang]
    unfold classPiece
    split
    · rename_i body shape
      have first : codePoints content = (unit '!').toNat :: body := shape
      obtain ⟨rest, rfl, -⟩ := codePoints_eq_cons (by decide) first
      exact absurd (startsWith_append (js "!") rest) bang
    · rfl

/-- The pieces of a segment and the atoms for them, before the atoms of what follows. -/
private def Rendered (points : List Nat) (later : List GlobToken) (atoms : List GlobAtom) : Prop :=
  ∃ pieces rest, readPieces none points = some pieces ∧ globAtoms later = some rest ∧
    atoms = pieces.map GlobPiece.atom ++ rest ∧ ∀ piece ∈ pieces, piece.Separate

private def Stepping (points : List Nat) : Prop :=
  ∀ pieces, readPieces none points = some pieces → pieces.all GlobPiece.inStep = true

private theorem Stepping.tail {points inner : List Nat} {piece : GlobPiece}
    (read : readPieces none points = (readPieces none inner).map (piece :: ·))
    (step : Stepping points) : Stepping inner := by
  intro pieces found
  have whole := step (piece :: pieces) (by rw [read, found, Option.map_some])
  rw [List.all_cons, Bool.and_eq_true] at whole
  exact whole.2

private theorem rendered_cons {points inner : List Nat} (piece : GlobPiece)
    {tokens later : List GlobToken} {atoms : List GlobAtom}
    (read : readPieces none points = (readPieces none inner).map (piece :: ·))
    (separate : piece.Separate) (step : Stepping points)
    (compiled : (globAtoms tokens).map (piece.atom :: ·) = some atoms)
    (ih : ∀ atoms, globAtoms tokens = some atoms → Stepping inner → Rendered inner later atoms) :
    Rendered points later atoms := by
  obtain ⟨more, found, rfl⟩ := Option.map_eq_some_iff.mp compiled
  obtain ⟨pieces, rest, inside, after, rfl, others⟩ := ih more found (step.tail read)
  refine ⟨piece :: pieces, rest, by rw [read, inside, Option.map_some], after, rfl, ?_⟩
  intro other member
  rcases List.mem_cons.mp member with rfl | deeper
  · exact separate
  · exact others other deeper

private theorem globAtoms_literal {u : CodeUnit} {tokens : List GlobToken}
    (alone : ∀ v tail, tokens = .literal v :: tail →
      (isHighSurrogate u && isLowSurrogate v) = false) :
    globAtoms (.literal u :: tokens) = (globAtoms tokens).map (.literal u.toNat :: ·) := by
  match tokens, alone with
  | [], _ => rfl
  | .literal v :: tail, alone => rw [globAtoms, alone v tail rfl, if_neg Bool.false_ne_true]
  | .star :: tail, _ => rfl
  | .any :: tail, _ => rfl
  | .globstar :: tail, _ => rfl
  | .directories :: tail, _ => rfl
  | .characterClass c :: tail, _ => rfl

private theorem segmentTokens_literal {text : JsString} {own later : List GlobToken} {v : CodeUnit}
    {tail : List GlobToken} (read : segmentTokens none text = some own)
    (shape : own ++ later = .literal v :: tail) :
    (∃ rest, text = v :: rest) ∨ (own = [] ∧ later = .literal v :: tail) := by
  cases text with
  | nil =>
      obtain rfl := Option.some.inj read
      exact .inr ⟨rfl, shape⟩
  | cons u rest =>
      left
      rw [segmentTokens] at read
      split at read
      · obtain ⟨more, -, rfl⟩ := Option.map_eq_some_iff.mp read
        cases shape
      · split at read
        · obtain ⟨more, -, rfl⟩ := Option.map_eq_some_iff.mp read
          cases shape
        · split at read
          · obtain ⟨body, after, c, more, -, -, -, -, rfl⟩ := segmentTokens_class read
            cases shape
          · obtain ⟨more, -, rfl⟩ := Option.map_eq_some_iff.mp read
            obtain ⟨same, -⟩ := List.cons.inj shape
            rw [GlobToken.literal.inj same]
            exact ⟨rest, rfl⟩

private theorem readPieces_exact {p : Nat} (star : p ≠ 0x2A) (question : p ≠ 0x3F)
    (opening : p ≠ 0x5B) (rest : List Nat) :
    readPieces none (p :: rest) = (readPieces none rest).map (.exact p :: ·) := by
  rw [readPieces, if_neg star, if_neg question, if_neg opening]

private theorem toNat_ne {u v : CodeUnit} (other : u ≠ v) : u.toNat ≠ v.toNat :=
  fun same => other (UInt16.toNat_inj.mp same)

private theorem class_rendered {body after : JsString} {c : CharacterClass}
    {tokens later : List GlobToken} {atoms : List GlobAtom} (apart : unit ']' ∉ body)
    (classed : compileCharacterClass ([].reverse ++ body) = some c)
    (compiled : globAtoms (.characterClass c :: tokens ++ later) = some atoms)
    (step : Stepping (codePoints (unit '[' :: (body ++ unit ']' :: after))))
    (ih : ∀ atoms, globAtoms (tokens ++ later) = some atoms → Stepping (codePoints after) →
      Rendered (codePoints after) later atoms) :
    Rendered (codePoints (unit '[' :: (body ++ unit ']' :: after))) later atoms := by
  obtain ⟨listed, piece, units, plain⟩ := classPiece_compiled classed
  have point : codePoints (unit '[' :: (body ++ unit ']' :: after)) =
      0x5B :: (codePoints body ++ 0x5D :: codePoints after) := by
    have closing : codePoints (unit ']' :: after) = 0x5D :: codePoints after :=
      codePoints_cons (by decide) after
    have opening : codePoints (unit '[' :: (body ++ unit ']' :: after)) =
        0x5B :: codePoints (body ++ unit ']' :: after) := codePoints_cons (by decide) _
    rw [opening, codePoints_append (by decide), closing]
  have open' : 0x5D ∉ codePoints body := fun inside =>
    apart ((mem_codePoints (u := unit ']') (by decide) body).mp inside)
  have read : readPieces none (codePoints (unit '[' :: (body ++ unit ']' :: after))) =
      (readPieces none (codePoints after)).map (.member c.negated (codePoints listed) :: ·) := by
    rw [point, readPieces, if_neg (by decide), if_neg (by decide), if_pos rfl,
      readPieces_class open', ← piece]
    rfl
  rw [List.cons_append, globAtoms] at compiled
  split at compiled
  · rename_i ranges found
    obtain ⟨more, inner, rfl⟩ := Option.map_eq_some_iff.mp compiled
    obtain ⟨pieces, rest, inside, ends, rfl, others⟩ := ih more inner (step.tail read)
    have whole := step (.member c.negated (codePoints listed) :: pieces)
      (by rw [read, inside, Option.map_some])
    rw [List.all_cons, Bool.and_eq_true] at whole
    obtain ⟨same, separate⟩ := classRanges_members plain units found whole.1
    refine ⟨.member c.negated (codePoints listed) :: pieces, rest,
      by rw [read, inside, Option.map_some], ends, by rw [same]; rfl, ?_⟩
    intro other member
    rcases List.mem_cons.mp member with rfl | deeper
    · cases negated : c.negated with
      | true => trivial
      | false =>
          rw [GlobPiece.Separate, ← same]
          exact separate
    · exact others other deeper
  · cases compiled

private theorem literal_rendered {u : CodeUnit} {front : JsString} {tokens later : List GlobToken}
    {atoms : List GlobAtom} (star : u ≠ unit '*') (question : u ≠ unit '?')
    (opening : u ≠ unit '[') (slash : u ≠ unit '/')
    (read : segmentTokens none front = some tokens)
    (calm : ∀ v tail, later = .literal v :: tail → isLowSurrogate v = false)
    (compiled : globAtoms (.literal u :: tokens ++ later) = some atoms)
    (step : Stepping (codePoints (u :: front)))
    (ih : ∀ {text : JsString} {own : List GlobToken} {atoms : List GlobAtom},
      text.length ≤ front.length → (unit '/' ∈ text → unit '/' ∈ front) →
      segmentTokens none text = some own → globAtoms (own ++ later) = some atoms →
      Stepping (codePoints text) → Rendered (codePoints text) later atoms) :
    Rendered (codePoints (u :: front)) later atoms := by
  rw [List.cons_append] at compiled
  by_cases paired : ∃ v rest, front = v :: rest ∧ (isHighSurrogate u && isLowSurrogate v) = true
  · obtain ⟨v, rest, rfl, pair⟩ := paired
    have bounds : 0xD800 ≤ u.toNat ∧ 0xDC00 ≤ v.toNat := by
      simp only [Bool.and_eq_true, isHighSurrogate, isLowSurrogate, decide_eq_true_eq] at pair
      omega
    have other : ∀ w : CodeUnit, w.toNat < 0xD800 → v ≠ w := by
      rintro w small rfl
      omega
    have point : codePoints (u :: v :: rest) =
        (0x10000 + (u.toNat - 0xD800) * 0x400 + (v.toNat - 0xDC00)) :: codePoints rest := by
      rw [codePoints, if_pos pair]
    rw [segmentTokens, if_neg (other _ (by decide)), if_neg (other _ (by decide)),
      if_neg (other _ (by decide))] at read
    obtain ⟨more, inner, rfl⟩ := Option.map_eq_some_iff.mp read
    rw [point] at step ⊢
    rw [List.cons_append, globAtoms, if_pos pair] at compiled
    refine rendered_cons (.exact _) (readPieces_exact (by omega) (by omega) (by omega) _) ?_ step
      compiled ?_
    · rw [GlobPiece.Separate]
      omega
    · intro atoms found step
      exact ih (Nat.le_succ _) (List.mem_cons_of_mem _) inner found step
  · have point : codePoints (u :: front) = u.toNat :: codePoints front := by
      cases front with
      | nil => rfl
      | cons v rest =>
          rw [codePoints, if_neg fun pair => paired ⟨v, rest, rfl, pair⟩]
    have alone : ∀ v tail, tokens ++ later = .literal v :: tail →
        (isHighSurrogate u && isLowSurrogate v) = false := by
      intro v tail shape
      rcases segmentTokens_literal read shape with ⟨rest, rfl⟩ | ⟨-, shape⟩
      · exact Bool.eq_false_iff.mpr fun pair => paired ⟨v, rest, rfl, pair⟩
      · rw [calm v tail shape, Bool.and_false]
    rw [point] at step ⊢
    rw [globAtoms_literal alone] at compiled
    refine rendered_cons (.exact _) (readPieces_exact ?_ ?_ ?_ _) ?_ step compiled ?_
    · exact toNat_ne star
    · exact toNat_ne question
    · exact toNat_ne opening
    · exact toNat_ne slash
    · intro atoms found step
      exact ih (Nat.le_refl _) id read found step

private theorem segment_rendered (count : Nat) {front : JsString} {own later : List GlobToken}
    {atoms : List GlobAtom} (short : front.length ≤ count) (plain : unit '/' ∉ front)
    (read : segmentTokens none front = some own)
    (calm : ∀ v tail, later = .literal v :: tail → isLowSurrogate v = false)
    (compiled : globAtoms (own ++ later) = some atoms) (step : Stepping (codePoints front)) :
    Rendered (codePoints front) later atoms := by
  induction count generalizing front own atoms with
  | zero =>
      obtain rfl := List.length_eq_zero_iff.mp (Nat.le_zero.mp short)
      obtain rfl := Option.some.inj read
      exact ⟨[], atoms, rfl, compiled, rfl, fun _ none => absurd none List.not_mem_nil⟩
  | succ count ih =>
      cases front with
      | nil =>
          obtain rfl := Option.some.inj read
          exact ⟨[], atoms, rfl, compiled, rfl, fun _ none => absurd none List.not_mem_nil⟩
      | cons u front =>
          rw [List.length_cons] at short
          rw [List.mem_cons, not_or] at plain
          rw [segmentTokens] at read
          split at read
          · rename_i star
            subst star
            obtain ⟨more, inner, rfl⟩ := Option.map_eq_some_iff.mp read
            rw [codePoints_cons (by decide)] at step ⊢
            refine rendered_cons .run rfl trivial step compiled ?_
            intro atoms found step
            exact ih (by omega) plain.2 inner found step
          · rename_i star
            split at read
            · rename_i question
              subst question
              obtain ⟨more, inner, rfl⟩ := Option.map_eq_some_iff.mp read
              rw [codePoints_cons (by decide)] at step ⊢
              refine rendered_cons .one rfl trivial step compiled ?_
              intro atoms found step
              exact ih (by omega) plain.2 inner found step
            · rename_i question
              split at read
              · rename_i opening
                subst opening
                obtain ⟨body, after, c, more, rfl, apart, classed, inner, rfl⟩ :=
                  segmentTokens_class read
                rw [List.length_append, List.length_cons] at short
                have plainAfter : unit '/' ∉ after := fun slash =>
                  plain.2 (List.mem_append_right _ (List.mem_cons_of_mem _ slash))
                exact class_rendered apart classed compiled step fun atoms found step =>
                  ih (by omega) plainAfter inner found step
              · rename_i opening
                obtain ⟨more, inner, rfl⟩ := Option.map_eq_some_iff.mp read
                refine literal_rendered star question opening (Ne.symm plain.1) inner calm compiled
                  step ?_
                intro text own atoms shorter inside found compiled step
                exact ih (by omega) (fun slash => plain.2 (inside slash)) found compiled step

end Pieces

section Patterns

variable {previous : Option CodeUnit} {tokens : List GlobToken} {atoms : List GlobAtom}

def GlobPart.Separate : GlobPart → Prop
  | .word pieces => ∀ piece ∈ pieces, piece.Separate
  | .words => True

/-- The expression for the parts of a pattern. -/
def globFlatten : List GlobPart → List GlobAtom
  | [] => []
  | [.word pieces] => pieces.map GlobPiece.atom
  | [.words] => [.globstar]
  | .word pieces :: second :: rest =>
      pieces.map GlobPiece.atom ++ .literal 0x2F :: globFlatten (second :: rest)
  | .words :: second :: rest => .directories :: globFlatten (second :: rest)

private theorem readSegment_star : readSegment (js "**") = some .words := if_pos rfl

private theorem readSegment_word {segment : JsString} {pieces : List GlobPiece}
    (other : segment ≠ js "**") (read : readPieces none (codePoints segment) = some pieces) :
    readSegment segment = some (.word pieces) := by
  rw [readSegment, if_neg other, read, Option.map_some]

private theorem mapM_cons_some {segment : JsString} {rest : List JsString} {part : GlobPart}
    {read : List GlobPart} (first : readSegment segment = some part)
    (others : rest.mapM readSegment = some read) :
    (segment :: rest).mapM readSegment = some (part :: read) := by
  rw [List.mapM_cons, first, others]
  rfl

/-- What a pattern's segments are read as, with the separator apart from every piece. -/
private def PatternRead (parts : List JsString) (atoms : List GlobAtom) : Prop :=
  ∃ read, parts.mapM readSegment = some read ∧ read ≠ [] ∧ atoms = globFlatten read ∧
    ∀ part ∈ read, part.Separate

private def SegmentsInStep (parts : List JsString) : Prop :=
  ∀ segment ∈ parts, ∀ part, readSegment segment = some part → part.inStep = true

private theorem SegmentsInStep.stepping {parts : List JsString} {segment : JsString}
    (step : SegmentsInStep parts) (member : segment ∈ parts) (other : segment ≠ js "**") :
    Stepping (codePoints segment) := fun pieces read =>
  step segment member (.word pieces) (readSegment_word other read)

private theorem last_read {segment : JsString} (plain : unit '/' ∉ segment)
    (boundary : Boundary previous) (step : SegmentsInStep [segment])
    (read : compileFrom previous none segment = some tokens) (compiled : globAtoms tokens = some atoms) :
    PatternRead [segment] atoms := by
  by_cases star : segment = js "**"
  · subst star
    have whole : compileFrom previous none (js "**") = some [.globstar] := by
      have shape := @compileFrom_star_cons previous (unit '*') []
      rw [if_pos ⟨rfl, boundary⟩] at shape
      exact shape
    rw [whole] at read
    obtain rfl := Option.some.inj read
    obtain rfl := Option.some.inj compiled
    refine ⟨[.words], mapM_cons_some readSegment_star rfl, List.cons_ne_nil _ _, rfl, ?_⟩
    intro part member
    rw [List.mem_singleton.mp member]
    trivial
  · rw [← List.append_nil segment] at read
    obtain ⟨own, later, first, after, rfl⟩ :=
      compileFrom_segment plain (.inl rfl) (fun _ _ => star) read
    rcases after with ⟨-, rfl⟩ | ⟨rest, later, none, -⟩
    · obtain ⟨pieces, rest, inside, ends, rfl, separate⟩ :=
        segment_rendered segment.length (Nat.le_refl _) plain first (fun _ _ none => absurd none (List.cons_ne_nil _ _).symm) compiled
          (step.stepping (List.mem_singleton_self _) star)
      obtain rfl := Option.some.inj ends
      refine ⟨[.word pieces], mapM_cons_some (readSegment_word star inside) rfl,
        List.cons_ne_nil _ _, ?_, ?_⟩
      · rw [List.append_nil]
        rfl
      · intro part member
        rw [List.mem_singleton.mp member]
        exact separate
    · cases none

private theorem pattern_read {parts : List JsString} (plain : ∀ part ∈ parts, unit '/' ∉ part)
    (filled : parts ≠ []) (boundary : Boundary previous) (step : SegmentsInStep parts)
    (read : compileFrom previous none (joinSegments parts) = some tokens)
    (compiled : globAtoms tokens = some atoms) : PatternRead parts atoms := by
  induction parts generalizing previous tokens atoms with
  | nil => exact absurd rfl filled
  | cons segment parts ih =>
      cases parts with
      | nil =>
          rw [joinSegments, List.intercalate_singleton] at read
          exact last_read (plain segment List.mem_cons_self) boundary step read compiled
      | cons next parts =>
          have joined : joinSegments (segment :: next :: parts) =
              segment ++ unit '/' :: joinSegments (next :: parts) := by
            rw [joinSegments, List.intercalate_cons_cons, ← joinSegments, List.append_assoc]
            rfl
          have others : ∀ part ∈ next :: parts, unit '/' ∉ part := fun part member =>
            plain part (List.mem_cons_of_mem _ member)
          have stepOthers : SegmentsInStep (next :: parts) := fun part member =>
            step part (List.mem_cons_of_mem _ member)
          have later : ∀ {tokens atoms}, compileFrom (some (unit '/')) none
              (joinSegments (next :: parts)) = some tokens → globAtoms tokens = some atoms →
                PatternRead (next :: parts) atoms :=
            ih others (List.cons_ne_nil _ _) (.inr rfl) stepOthers
          rw [joined] at read
          by_cases star : segment = js "**"
          · subst star
            have shape := @compileFrom_star_cons previous (unit '*')
              (unit '/' :: joinSegments (next :: parts))
            rw [if_pos ⟨rfl, boundary⟩] at shape
            simp only [if_true] at shape
            have begins : js "**" ++ unit '/' :: joinSegments (next :: parts) =
                unit '*' :: unit '*' :: unit '/' :: joinSegments (next :: parts) := rfl
            rw [begins, shape] at read
            obtain ⟨more, inner, rfl⟩ := Option.map_eq_some_iff.mp read
            rw [globAtoms] at compiled
            obtain ⟨rest, found, rfl⟩ := Option.map_eq_some_iff.mp compiled
            obtain ⟨read, each, some, rfl, separate⟩ := later inner found
            obtain ⟨second, read, rfl⟩ := List.exists_cons_of_ne_nil some
            refine ⟨.words :: second :: read, mapM_cons_some readSegment_star each,
              List.cons_ne_nil _ _, rfl, ?_⟩
            intro part member
            rcases List.mem_cons.mp member with rfl | deeper
            · trivial
            · exact separate part deeper
          · have own := plain segment List.mem_cons_self
            obtain ⟨own, after, first, ends, rfl⟩ :=
              compileFrom_segment own (.inr ⟨_, rfl⟩) (fun _ _ => star) read
            rcases ends with ⟨none, -⟩ | ⟨rest, more, same, inner, rfl⟩
            · cases none
            · obtain ⟨-, rfl⟩ := List.cons.inj same
              have calm : ∀ v tail, GlobToken.literal (unit '/') :: more = .literal v :: tail →
                  isLowSurrogate v = false := by
                intro v tail shape
                rw [← GlobToken.literal.inj (List.cons.inj shape).1]
                decide
              obtain ⟨pieces, last, inside, found, rfl, separate⟩ :=
                segment_rendered segment.length (Nat.le_refl _) (plain segment List.mem_cons_self)
                  first calm compiled (step.stepping List.mem_cons_self star)
              rw [globAtoms_literal fun v tail _ => by rfl] at found
              obtain ⟨rest, foundRest, rfl⟩ := Option.map_eq_some_iff.mp found
              obtain ⟨read, each, some, rfl, others⟩ := later inner foundRest
              obtain ⟨second, read, rfl⟩ := List.exists_cons_of_ne_nil some
              refine ⟨.word pieces :: second :: read,
                mapM_cons_some (readSegment_word star inside) each, List.cons_ne_nil _ _, rfl, ?_⟩
              intro part member
              rcases List.mem_cons.mp member with rfl | deeper
              · exact separate
              · exact others part deeper

end Patterns

section Meaning

def Bounded (p : Nat) : Prop := notTerminator p = true

def GlobAtom.meaning : GlobAtom → Atom Nat
  | .literal p => .one (· = p)
  | .star => .run (· ≠ 0x2F)
  | .any => .one (· ≠ 0x2F)
  | .globstar => .run Bounded
  | .directories => .optional Bounded 0x2F
  | .characterClass negated ranges =>
      .one fun c => (∃ range ∈ ranges, range.1 ≤ c ∧ c ≤ range.2) ↔ negated = false

private theorem oneThen_iff {allowed : Nat → Bool} {next : List Nat → Bool} {points : List Nat} :
    oneThen allowed next points = true ↔
      ∃ c tail, points = c :: tail ∧ allowed c = true ∧ next tail = true := by
  cases points with
  | nil =>
      constructor
      · intro none
        cases none
      · rintro ⟨c, tail, none, -⟩
        cases none
  | cons p rest =>
      rw [oneThen, Bool.and_eq_true]
      constructor
      · rintro ⟨own, later⟩
        exact ⟨p, rest, rfl, own, later⟩
      · rintro ⟨c, tail, shape, own, later⟩
        obtain ⟨rfl, rfl⟩ := List.cons.inj shape
        exact ⟨own, later⟩

private theorem runThen_iff {allowed : Nat → Bool} {next : List Nat → Bool} {points : List Nat} :
    runThen allowed next points = true ↔
      ∃ front back, points = front ++ back ∧ (∀ c ∈ front, allowed c = true) ∧
        next back = true := by
  induction points with
  | nil =>
      constructor
      · intro ends
        exact ⟨[], [], rfl, fun _ none => absurd none List.not_mem_nil, ends⟩
      · rintro ⟨front, back, none, -, ends⟩
        obtain ⟨rfl, rfl⟩ := List.append_eq_nil_iff.mp none.symm
        exact ends
  | cons p rest ih =>
      rw [runThen, Bool.or_eq_true, Bool.and_eq_true, ih]
      constructor
      · rintro (ends | ⟨own, front, back, rfl, others, ends⟩)
        · exact ⟨[], p :: rest, rfl, fun _ none => absurd none List.not_mem_nil, ends⟩
        · exact ⟨p :: front, back, rfl, List.forall_mem_cons.mpr ⟨own, others⟩, ends⟩
      · rintro ⟨front, back, shape, own, ends⟩
        cases front with
        | nil =>
            rw [List.nil_append] at shape
            exact .inl (shape ▸ ends)
        | cons c front =>
            obtain ⟨rfl, rfl⟩ := List.cons.inj shape
            obtain ⟨first, others⟩ := List.forall_mem_cons.mp own
            exact .inr ⟨first, front, back, rfl, others, ends⟩

private theorem notSlash_iff {p : Nat} : notSlash p = true ↔ p ≠ 0x2F := by
  rw [notSlash, bne_iff_ne]

theorem atomsMatch_iff {atoms : List GlobAtom} {points : List Nat} :
    atomsMatch atoms points = true ↔ Accepts (atoms.map GlobAtom.meaning) points := by
  induction atoms generalizing points with
  | nil => exact List.isEmpty_iff
  | cons atom rest ih =>
      cases atom with
      | literal p =>
          simp only [atomsMatch, oneThen_iff, beq_iff_eq, ih]
          rfl
      | any =>
          simp only [atomsMatch, oneThen_iff, notSlash_iff, ih]
          rfl
      | star =>
          simp only [atomsMatch, runThen_iff, notSlash_iff, ih]
          rfl
      | globstar =>
          simp only [atomsMatch, runThen_iff, ih]
          rfl
      | directories =>
          simp only [atomsMatch, Bool.or_eq_true, runThen_iff, oneThen_iff, beq_iff_eq, ih]
          rw [or_comm]
          refine or_congr Iff.rfl ?_
          constructor
          · rintro ⟨front, back, rfl, own, c, tail, rfl, rfl, later⟩
            exact ⟨front, tail, rfl, own, later⟩
          · rintro ⟨front, tail, rfl, own, later⟩
            exact ⟨front, _, rfl, own, 0x2F, tail, rfl, rfl, later⟩
      | characterClass negated ranges =>
          have listed : ∀ c : Nat, ((ranges.any fun range => range.1 ≤ c && c ≤ range.2) != negated) =
              true ↔ ((∃ range ∈ ranges, range.1 ≤ c ∧ c ≤ range.2) ↔ negated = false) := by
            intro c
            have any : (ranges.any fun range => decide (range.1 ≤ c) && decide (c ≤ range.2)) = true ↔
                ∃ range ∈ ranges, range.1 ≤ c ∧ c ≤ range.2 := by
              simp only [List.any_eq_true, Bool.and_eq_true, decide_eq_true_eq]
            rw [← any]
            cases (ranges.any fun range => decide (range.1 ≤ c) && decide (c ≤ range.2)) <;>
              cases negated <;> decide
          simp only [atomsMatch, oneThen_iff, listed, ih]
          rfl

private theorem atom_meaning {piece : GlobPiece} (separate : piece.Separate) :
    piece.atom.meaning = piece.meaning.atom 0x2F := by
  cases piece with
  | exact p =>
      refine congrArg Atom.one (funext fun c => propext ?_)
      constructor
      · rintro rfl
        exact ⟨separate, rfl⟩
      · exact And.right
  | one => exact congrArg Atom.one (funext fun c => propext (and_iff_left trivial).symm)
  | run => rfl
  | member negated body =>
      refine congrArg Atom.one (funext fun c => propext ?_)
      cases negated with
      | false =>
          simp only [Bool.false_eq_true, if_false, iff_true]
          constructor
          · rintro ⟨range, member, low, high⟩
            refine ⟨?_, range, member, low, high⟩
            rintro rfl
            have apart := separate range member
            omega
          · exact And.right
      | true =>
          simp only [if_true, List.mem_cons, exists_eq_or_imp, Bool.true_eq_false, iff_false,
            not_or]
          refine and_congr ?_ Iff.rfl
          omega

private theorem words_meaning {pieces : List GlobPiece} (separate : ∀ piece ∈ pieces, piece.Separate) :
    (pieces.map GlobPiece.atom).map GlobAtom.meaning =
      (pieces.map GlobPiece.meaning).map (Piece.atom 0x2F) := by
  rw [List.map_map, List.map_map]
  exact List.map_congr_left fun piece member => atom_meaning (separate piece member)

private theorem flatten_meaning {read : List GlobPart} (separate : ∀ part ∈ read, part.Separate) :
    (globFlatten read).map GlobAtom.meaning = flatten 0x2F Bounded (read.map GlobPart.meaning) := by
  induction read with
  | nil => rfl
  | cons part rest ih =>
      obtain ⟨own, others⟩ := List.forall_mem_cons.mp separate
      have ih := ih others
      cases rest with
      | nil =>
          cases part with
          | word pieces => exact words_meaning own
          | words => rfl
      | cons second rest =>
          cases part with
          | word pieces =>
              rw [globFlatten, List.map_append, words_meaning own, List.map_cons, ih]
              rfl
          | words =>
              rw [globFlatten, List.map_cons, ih]
              rfl

private theorem splitOn_codePoints (target : JsString) :
    (codePoints target).splitOn 0x2F = (segments target).map codePoints := by
  have joined : ∀ parts : List JsString, parts ≠ [] → (∀ part ∈ parts, unit '/' ∉ part) →
      (codePoints (joinSegments parts)).splitOn 0x2F = parts.map codePoints := by
    intro parts
    induction parts with
    | nil => exact fun none => absurd rfl none
    | cons part rest ih =>
        intro _ plain
        obtain ⟨own, others⟩ := List.forall_mem_cons.mp plain
        have apart : 0x2F ∉ codePoints part := fun inside =>
          own ((mem_codePoints (u := unit '/') (by decide) part).mp inside)
        cases rest with
        | nil =>
            rw [joinSegments, List.intercalate_singleton, List.splitOn_eq_singleton apart]
            rfl
        | cons next rest =>
            have slash : codePoints (unit '/' :: joinSegments (next :: rest)) =
                0x2F :: codePoints (joinSegments (next :: rest)) := codePoints_cons (by decide) _
            rw [joinSegments, List.intercalate_cons_cons, ← joinSegments, List.append_assoc,
              List.singleton_append, codePoints_append (by decide), slash,
              List.splitOn_append_cons_self_of_not_mem apart,
              ih (List.cons_ne_nil _ _) others]
            rfl
  have whole := joined (segments target) (segments_ne_nil target) fun _ => segments_plain
  rwa [joinSegments_segments] at whole

private theorem segmentsInStep {pattern : JsString} (step : patternInStep pattern = true) :
    SegmentsInStep (segments pattern) := by
  intro segment member part found
  rw [patternInStep, List.all_eq_true] at step
  have own := step segment member
  rwa [found, Option.map_some, Option.getD_some] at own

/-- An accepted glob has a reading, and its expression accepts the targets of it in which `**` stands
for segments that a dot takes. -/
theorem globMatches_iff {pattern target : JsString} (accepted : (compileGlob pattern).isSome = true)
    (step : patternInStep pattern = true) :
    globMatches pattern target = true ↔
      Reads (fun segment => ∀ c ∈ segment, Bounded c) pattern target := by
  obtain ⟨atoms, compiled⟩ := Option.isSome_iff_exists.mp accepted
  have whole := compiled
  rw [compileGlob] at whole
  split at whole
  · obtain ⟨tokens, scanned, found⟩ := Option.bind_eq_some_iff.mp whole
    rw [← joinSegments_segments pattern] at scanned
    obtain ⟨read, each, some, rfl, separate⟩ := pattern_read (fun _ => segments_plain)
      (segments_ne_nil pattern) (.inl rfl) (segmentsInStep step) scanned found
    have parts : read.map GlobPart.meaning ≠ [] := by
      rwa [Ne, List.map_eq_nil_iff]
    have slash : Bounded 0x2F := rfl
    rw [globMatches, compiled, Option.map_some, Option.getD_some, atomsMatch_iff,
      flatten_meaning separate, accepts_flatten slash parts, splitOn_codePoints]
    constructor
    · intro covered
      exact ⟨read, each, covered⟩
    · rintro ⟨other, same, covered⟩
      obtain rfl := Option.some.inj (each.symm.trans same)
      exact covered
  · cases whole

theorem Reads.mono {admitted wider : List Nat → Prop} {pattern target : JsString}
    (imp : ∀ segment ∈ (segments target).map codePoints, admitted segment → wider segment)
    (reads : Reads admitted pattern target) : Reads wider pattern target := by
  obtain ⟨parts, read, covered⟩ := reads
  exact ⟨parts, read, covered.mono imp⟩

end Meaning

section Ordered

variable {patterns : List JsString} {target : JsString}

def LastReads (reads : JsString → Prop) (patterns : List JsString) : Prop :=
  ∃ front pattern back, patterns = front ++ pattern :: back ∧ reads (globExpression pattern) ∧
    startsWith pattern (js "!") = false ∧ ∀ later ∈ back, ¬ reads (globExpression later)

theorem matchesOrderedGlobs_iff :
    matchesOrderedGlobs patterns target = true ↔
      LastReads (fun pattern => globMatches pattern target = true) patterns := by
  induction patterns using List.reverseRecOn with
  | nil =>
      constructor
      · intro none
        cases none
      · rintro ⟨front, pattern, back, none, -⟩
        exact absurd none.symm (List.append_ne_nil_of_right_ne_nil _ (List.cons_ne_nil _ _))
  | append_singleton front last ih =>
      have folded : matchesOrderedGlobs (front ++ [last]) target =
          if globMatches (globExpression last) target then !startsWith last (js "!")
          else matchesOrderedGlobs front target := by
        rw [matchesOrderedGlobs, List.foldl_append]
        rfl
      rw [folded]
      constructor
      · intro decided
        split at decided
        · rename_i matched
          exact ⟨front, last, [], rfl, matched, by simpa using decided,
            fun _ none => absurd none List.not_mem_nil⟩
        · rename_i unmatched
          obtain ⟨before, pattern, back, rfl, matched, plain, later⟩ := ih.mp decided
          refine ⟨before, pattern, back ++ [last], by simp, matched, plain, ?_⟩
          intro other member
          rcases List.mem_append.mp member with inside | ends
          · exact later other inside
          · rw [List.mem_singleton.mp ends]
            exact unmatched
      · rintro ⟨before, pattern, back, shape, matched, plain, later⟩
        rcases List.eq_nil_or_concat back with rfl | ⟨middle, final, rfl⟩
        · obtain ⟨-, same⟩ := List.append_inj' shape rfl
          rw [List.singleton_inj.mp same, if_pos matched, plain]
          rfl
        · rw [List.concat_eq_append] at shape later
          rw [← List.cons_append, ← List.append_assoc] at shape
          obtain ⟨rfl, same⟩ := List.append_inj' shape rfl
          obtain rfl := List.singleton_inj.mp same
          rw [if_neg (later last (List.mem_append_right _ (List.mem_singleton_self _)))]
          refine ih.mpr ⟨before, pattern, middle, rfl, matched, plain, ?_⟩
          intro other member
          exact later other (List.mem_append_left _ member)

/-- What a list of globs decides for a target is what their reading says. -/
structure GlobsAgree (patterns : List JsString) (target : JsString) : Prop where
  each : ∀ pattern ∈ patterns, globMatches (globExpression pattern) target = true ↔
    Reads (fun _ => True) (globExpression pattern) target
  decision : matchesOrderedGlobs patterns target = true ↔
    LastReads (fun pattern => Reads (fun _ => True) pattern target) patterns

/-- Where every class is read in step, a list of globs decides as it reads exactly where each of its
patterns that covers the target covers it with `**` on segments that a dot takes. -/
theorem matchesOrderedGlobs_agree (accepted : ∀ pattern ∈ patterns, isPathGlob pattern = true)
    (step : ∀ pattern ∈ patterns, patternInStep (globExpression pattern) = true) :
    GlobsAgree patterns target ↔ ∀ pattern ∈ patterns,
      Reads (fun _ => True) (globExpression pattern) target →
        Reads (fun segment => ∀ c ∈ segment, Bounded c) (globExpression pattern) target := by
  have narrow : ∀ pattern ∈ patterns, globMatches (globExpression pattern) target = true ↔
      Reads (fun segment => ∀ c ∈ segment, Bounded c) (globExpression pattern) target := by
    intro pattern member
    have own := accepted pattern member
    rw [isPathGlob, Bool.and_eq_true] at own
    exact globMatches_iff own.2 (step pattern member)
  constructor
  · intro agree pattern member reads
    exact (narrow pattern member).mp ((agree.each pattern member).mpr reads)
  · intro plain
    have each : ∀ pattern ∈ patterns, globMatches (globExpression pattern) target = true ↔
        Reads (fun _ => True) (globExpression pattern) target := by
      intro pattern member
      rw [narrow pattern member]
      exact ⟨Reads.mono fun _ _ _ => trivial, plain pattern member⟩
    refine ⟨each, matchesOrderedGlobs_iff.trans ?_⟩
    constructor
    · rintro ⟨front, pattern, back, rfl, matched, negated, later⟩
      refine ⟨front, pattern, back, rfl, ?_, negated, ?_⟩
      · exact (each pattern (by simp)).mp matched
      · intro other member reads
        exact later other member ((each other (by simp [member])).mpr reads)
    · rintro ⟨front, pattern, back, rfl, reads, negated, later⟩
      refine ⟨front, pattern, back, rfl, ?_, negated, ?_⟩
      · exact (each pattern (by simp)).mpr reads
      · intro other member matched
        exact later other member ((each other (by simp [member])).mp matched)

theorem sourceGlobs_agree :
    GlobsAgree [js "src/**", js "!src/gen/**"] (js "src/a.ts") := by
  have plain : ∀ segment ∈ (segments (js "src/a.ts")).map codePoints, ∀ c ∈ segment,
      notTerminator c = true := by decide +kernel
  refine (matchesOrderedGlobs_agree (by decide +kernel) (by decide +kernel)).mpr ?_
  exact fun pattern _ reads => reads.mono fun segment member _ => plain segment member

/-- The pattern `**` covers every target and does not match one that holds a line separator; a class
with a range that begins after one that ends in a pair does not match what the range lists. -/
theorem globs_disagree :
    (isPathGlob (js "**") = true ∧
      Transactions.canonicalizeProjectPath (js "a\u2028b") = .canonical (js "a\u2028b") ∧
      ¬ GlobsAgree [js "**"] (js "a\u2028b")) ∧
    isPathGlob (js "[a-𐀀-～-𐀅]") = true ∧
      Transactions.canonicalizeProjectPath (js "𐀁") = .canonical (js "𐀁") ∧
      ¬ GlobsAgree [js "[a-𐀀-～-𐀅]"] (js "𐀁") := by
  refine ⟨⟨by decide +kernel, by decide +kernel, ?_⟩, by decide +kernel, by decide +kernel, ?_⟩
  · intro agree
    have reads : Reads (fun _ => True) (globExpression (js "**")) (js "a\u2028b") :=
      ⟨[.words], by decide +kernel, [codePoints (js "a\u2028b")], [], by decide +kernel,
        fun _ => List.cons_ne_nil _ _, fun _ _ => trivial, rfl⟩
    have matched := (agree.each _ (List.mem_singleton_self _)).mpr reads
    exact absurd matched (by decide +kernel)
  · intro agree
    have listed : (∃ range ∈ members [0x61, 0x2D, 0x10000, 0x2D, 0xFF5E, 0x2D, 0x10005],
        range.1 ≤ 0x10001 ∧ 0x10001 ≤ range.2) ↔ false = false :=
      ⟨fun _ => rfl, fun _ => ⟨(0xFF5E, 0x10005), by decide, by decide, by decide⟩⟩
    have reads : Reads (fun _ => True) (globExpression (js "[a-𐀀-～-𐀅]")) (js "𐀁") :=
      ⟨[.word [.member false [0x61, 0x2D, 0x10000, 0x2D, 0xFF5E, 0x2D, 0x10005]]],
        by decide +kernel, [0x10001], [], by decide +kernel,
        ⟨0x10001, [], rfl, listed, rfl⟩, rfl⟩
    have matched := (agree.each _ (List.mem_singleton_self _)).mpr reads
    exact absurd matched (by decide +kernel)

end Ordered

end Kratos.WriteGuard
