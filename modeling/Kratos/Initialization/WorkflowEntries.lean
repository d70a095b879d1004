/- source: domain/init/tasks.ts
   digest: The keys and scalars that the workflow reader reads as they are written. -/

import Kratos.Initialization.WorkflowDocument

set_option autoImplicit false

namespace Kratos.Initialization.WorkflowEntries

open Foundation.Text Initialization Initialization.WorkflowDocument

section Trimming

variable {text front back pad rest : JsString} {u : CodeUnit}

/-- The text without the white space at its end. -/
def trimEnd (text : JsString) : JsString := text.rdropWhile isWhiteSpace

theorem trim_def (text : JsString) : trim text = trimEnd (trimStart text) := rfl

theorem trimStart_pad (blank : ∀ u ∈ pad, isWhiteSpace u = true) (rest : JsString) :
    trimStart (pad ++ rest) = trimStart rest :=
  List.dropWhile_append_of_pos blank

theorem trimEnd_pad (blank : ∀ u ∈ pad, isWhiteSpace u = true) (front : JsString) :
    trimEnd (front ++ pad) = trimEnd front := by
  rw [trimEnd, List.rdropWhile, List.reverse_append, List.dropWhile_append_of_pos (by simpa using blank)]
  rfl

theorem trimStart_solid (solid : isWhiteSpace u = false) (rest : JsString) :
    trimStart (u :: rest) = u :: rest :=
  List.dropWhile_cons_of_neg (by simp [solid])

theorem trimEnd_solid (solid : isWhiteSpace u = false) (front rest : JsString) :
    trimEnd (front ++ u :: rest) = front ++ u :: trimEnd rest := by
  have kept : trimEnd (front ++ [u]) = front ++ [u] := List.rdropWhile_concat_neg _ _ _ (by simp [solid])
  induction rest using List.reverseRecOn with
  | nil => exact kept
  | append_singleton early last ih =>
      cases white : isWhiteSpace last with
      | true =>
          have blank : ∀ v ∈ [last], isWhiteSpace v = true := by simpa using white
          rw [trimEnd_pad blank, ← ih, ← List.cons_append, ← List.append_assoc, trimEnd_pad blank]
      | false =>
          have ends : ∀ all : JsString, trimEnd (all ++ [last]) = all ++ [last] := fun all =>
            List.rdropWhile_concat_neg _ _ _ (by simp [white])
          rw [ends, ← List.cons_append, ← List.append_assoc, ends]

theorem trim_trimStart (text : JsString) : trim (trimStart text) = trim text := by
  rw [trim_def, trim_def, trimStart, trimStart, List.dropWhile_idempotent]

theorem trim_pad (blank : ∀ u ∈ pad, isWhiteSpace u = true) (text : JsString) :
    trim (text ++ pad) = trim text := by
  rw [trim_def, trimStart, List.dropWhile_append]
  split
  · rename_i white
    have same : trimStart text = [] := by simpa [trimStart] using white
    have none_left : trimStart pad = [] := List.dropWhile_eq_nil_iff.mpr blank
    rw [trim_def, same, ← trimStart, none_left]
  · exact trimEnd_pad blank _

theorem trim_closed {last : CodeUnit} (first : isWhiteSpace u = false) (ends : isWhiteSpace last = false)
    (middle : JsString) : trim (u :: (middle ++ [last])) = u :: (middle ++ [last]) := by
  rw [trim_def, trimStart_solid first]
  exact trimEnd_solid ends (u :: middle) []

theorem trimEnd_tight (tight : trim text = text) (filled : text ≠ []) (front : JsString) :
    trimEnd (front ++ text) = front ++ text := by
  have ends : trimEnd text = text := by
    rw [← tight, trim_def]
    exact List.rdropWhile_idempotent _ _
  rw [trimEnd, List.rdropWhile_eq_self_iff] at ends ⊢
  intro _
  rw [List.getLast_append_of_ne_nil _ filled]
  exact ends filled

end Trimming

section Keys

variable {key gap : JsString}

theorem isKeyUnit_bounds {u : CodeUnit} (allowed : isKeyUnit u = true) :
    0x24 ≤ u.toNat ∧ u.toNat ≤ 0x7A := by
  simp only [isKeyUnit, isAlnum, isLowerAlpha, isUpperAlpha, isDigit, between, Bool.or_eq_true,
    Bool.and_eq_true, decide_eq_true_eq, beq_iff_eq] at allowed
  rcases allowed with ((((((lower | upper) | digit) | rfl) | rfl) | rfl) | rfl)
  · exact ⟨le_trans (by decide) lower.1, lower.2⟩
  · exact ⟨le_trans (by decide) upper.1, le_trans upper.2 (by decide)⟩
  · exact ⟨le_trans (by decide) digit.1, le_trans digit.2 (by decide)⟩
  · decide
  · decide
  · decide
  · decide

theorem isKeyUnit_solid {u : CodeUnit} (allowed : isKeyUnit u = true) : isWhiteSpace u = false := by
  have bounds := isKeyUnit_bounds allowed
  by_contra white
  simp only [isWhiteSpace, Bool.not_eq_false, Bool.or_eq_true, Bool.and_eq_true, decide_eq_true_eq,
    beq_iff_eq] at white
  omega

theorem colon_solid : isWhiteSpace (unit ':') = false := by decide

theorem colon_no_key : isKeyUnit (unit ':') = false := by decide

theorem keyOf_head (filled : key ≠ []) (units : ∀ u ∈ key, isKeyUnit u = true)
    (blank : ∀ u ∈ gap, isWhiteSpace u = true) (rest : JsString) :
    keyOf (key ++ gap ++ unit ':' :: rest) = (valueOf rest).map fun value => (key, value) := by
  have stops : (gap ++ unit ':' :: rest).takeWhile isKeyUnit = [] ∧
      (gap ++ unit ':' :: rest).dropWhile isKeyUnit = gap ++ unit ':' :: rest := by
    cases gap with
    | nil => simp [colon_no_key]
    | cons u more =>
        have other : isKeyUnit u = false := by
          by_contra key
          have solid := isKeyUnit_solid (by simpa using key)
          rw [blank u List.mem_cons_self] at solid
          cases solid
        simp [other]
  have colon : afterColon (gap ++ unit ':' :: rest) = some rest := by
    rw [afterColon, trimStart_pad blank, trimStart_solid colon_solid]
    simp
  rw [keyOf, List.append_assoc, List.takeWhile_append_of_pos units, List.dropWhile_append_of_pos units,
    stops.1, stops.2, List.append_nil, colon]
  cases key with
  | nil => exact absurd rfl filled
  | cons u more => rfl

theorem valueOf_spaced {space rest : JsString} (filled : space ≠ [])
    (blank : ∀ u ∈ space, isWhiteSpace u = true)
    (oneLine : ∀ u ∈ trimStart rest, isLineTerminator u = false) :
    valueOf (space ++ rest) = some (trimStart rest) := by
  cases space with
  | nil => exact absurd rfl filled
  | cons u more =>
      obtain ⟨first, others⟩ := List.forall_mem_cons.mp blank
      rw [List.cons_append, valueOf, trimStart_pad others, first, Bool.true_and, if_pos]
      exact List.all_eq_true.mpr fun v member => by rw [oneLine v member]; rfl

end Keys

section Entries

variable {entry : Entry} {key : JsString}

/-- A key that the pattern of a key takes as a whole. -/
def Nameable (key : JsString) : Prop := key ≠ [] ∧ key.all isKeyUnit = true

theorem name_nameable : Nameable (js "name") := ⟨by decide, by decide⟩

theorem run_nameable : Nameable (js "run") := ⟨by decide, by decide⟩

theorem steps_nameable : Nameable (js "steps") := ⟨by decide, by decide⟩

theorem keyOf_plain (plain : entry.Plain key) (nameable : Nameable key) :
    ∃ value, keyOf entry.text = some (key, value) := by
  obtain ⟨value, read⟩ := Option.isSome_iff_exists.mp plain.rest
  refine ⟨value, ?_⟩
  rw [Entry.text, plain.key, Scalar.spelled,
    keyOf_head nameable.1 (List.all_eq_true.mp nameable.2) plain.gap, read]
  rfl

end Entries

section Scalars

variable {value : Scalar}

theorem quote_solid : isWhiteSpace (unit '\'') = false ∧ isWhiteSpace (unit '"') = false := by decide

theorem doubled_plain {text : JsString} (free : unit '\'' ∉ text) : Scalar.doubled text = text := by
  induction text with
  | nil => rfl
  | cons u rest ih =>
      obtain ⟨other, later⟩ := not_or.mp (mt List.mem_cons.mpr free)
      rw [Scalar.doubled, List.flatMap_cons, if_neg (Ne.symm other), ← Scalar.doubled, ih later]
      rfl

theorem pieces_plain {pieces : List Piece} (plain : ∀ piece ∈ pieces, ∃ u, piece = .plain u) :
    pieces.flatMap Piece.spelled = pieces.flatMap Piece.meaning := by
  refine List.flatMap_congr fun piece member => ?_
  obtain ⟨u, rfl⟩ := plain piece member
  rfl

theorem unquote_bare (bare : value.Bare) {text : JsString} (read : trim text = value.spelled) :
    unquote text = value.meaning := by
  have quoted : ∀ (quote : CodeUnit) (inner : JsString), quote = unit '"' ∨ quote = unit '\'' →
      trim text = quote :: (inner ++ [quote]) → unquote text = inner := by
    intro quote inner which same
    rw [unquote, same]
    have long : ¬ (quote :: (inner ++ [quote])).length < 2 := by simp
    have ends : (quote :: (inner ++ [quote])).getLast? = some quote := by
      rw [← List.cons_append, List.getLast?_concat]
    rw [if_neg long, ends]
    rcases which with rfl | rfl <;> simp
  cases value with
  | plain spelled =>
      obtain ⟨-, others⟩ := bare
      have double := others (unit '"') (by simp)
      have single := others (unit '\'') (by simp)
      rw [unquote, read, Scalar.spelled, Scalar.meaning]
      split
      · rfl
      · rw [if_neg (by simp [double, single])]
  | single inner =>
      rw [Scalar.spelled, doubled_plain bare] at read
      exact quoted _ inner (.inr rfl) read
  | double pieces =>
      rw [Scalar.spelled, pieces_plain bare] at read
      exact quoted _ _ (.inl rfl) read

theorem trim_bare (bare : value.Bare) : trim value.spelled = value.spelled := by
  cases value with
  | plain spelled => exact bare.1
  | single inner => exact trim_closed quote_solid.1 quote_solid.1 _
  | double pieces => exact trim_closed quote_solid.2 quote_solid.2 _

theorem opensBlock_bare (bare : value.Bare) {text : JsString} (read : trim text = value.spelled) :
    opensBlock text = false := by
  have heads : value.spelled.head? ≠ some (unit '|') ∧ value.spelled.head? ≠ some (unit '>') := by
    cases value with
    | plain spelled => exact ⟨bare.2 _ (by simp), bare.2 _ (by simp)⟩
    | single inner =>
        exact ⟨fun same => absurd (Option.some.inj same) (by decide),
          fun same => absurd (Option.some.inj same) (by decide)⟩
    | double pieces =>
        exact ⟨fun same => absurd (Option.some.inj same) (by decide),
          fun same => absurd (Option.some.inj same) (by decide)⟩
  have starts : ∀ c : Char, value.spelled.head? ≠ some (unit c) →
      startsWith value.spelled [unit c] = false := by
    intro c differs
    cases spelled : value.spelled with
    | nil => rfl
    | cons u rest =>
        rw [spelled] at differs
        rw [startsWith, List.isPrefixOf_cons_cons, Bool.and_eq_false_iff]
        exact .inl (beq_eq_false_iff_ne.mpr fun same => differs (congrArg some same.symm))
  rw [opensBlock, read, Bool.or_eq_false_iff]
  exact ⟨starts '|' heads.1, starts '>' heads.2⟩

end Scalars

section Answers

variable {entry : Entry} {key : JsString} {onDash : Bool}

theorem trim_text (plain : entry.key = .plain key) (nameable : Nameable key) :
    trim entry.text = key ++ entry.gap ++ unit ':' :: trimEnd entry.rest := by
  have starts : trimStart entry.text = entry.text := by
    rw [Entry.text, plain, Scalar.spelled]
    cases key with
    | nil => exact absurd rfl nameable.1
    | cons u more =>
        exact trimStart_solid (isKeyUnit_solid (List.all_eq_true.mp nameable.2 u List.mem_cons_self)) _
  rw [trim_def, starts, Entry.text, plain, Scalar.spelled, trimEnd_solid colon_solid]

/-- The text behind the colon is the scalar, with white space around it at most. -/
theorem keyOf_answers (answers : entry.Answers onDash key) (nameable : Nameable key) :
    ∃ value text, entry.value = .scalar value ∧ value.Bare ∧
      keyOf (entry.readAs onDash) = some (key, text) ∧ trim text = value.spelled := by
  obtain ⟨value, held, bare⟩ := answers.value
  have rest : entry.rest = entry.space ++ (value.spelled ++ entry.tail) := by
    rw [Entry.rest, held, Value.spelled, List.append_assoc]
  have head := keyOf_head nameable.1 (List.all_eq_true.mp nameable.2) answers.gap
  have oneLine := answers.oneLine
  rw [held, Value.spelled] at oneLine
  cases onDash with
  | false =>
      refine ⟨value, trimStart (value.spelled ++ entry.tail), held, bare, ?_, ?_⟩
      · have inner : ∀ u ∈ trimStart (value.spelled ++ entry.tail), isLineTerminator u = false :=
          fun u member => oneLine u (by simpa using (List.dropWhile_sublist _).mem member)
        rw [Entry.readAs, if_neg Bool.false_ne_true, Entry.text, answers.key, Scalar.spelled, head, rest,
          valueOf_spaced answers.space.1 answers.space.2 inner]
        rfl
      · rw [trim_trimStart, trim_pad answers.tail, trim_bare bare]
  | true =>
      rw [Entry.readAs, if_pos rfl, trim_text answers.key nameable, head, rest, ← List.append_assoc,
        trimEnd_pad answers.tail]
      by_cases filled : value.spelled = []
      · have blank : trimEnd (entry.space ++ value.spelled) = [] := by
          rw [filled, List.append_nil]
          exact List.rdropWhile_eq_nil_iff.mpr answers.space.2
        exact ⟨value, [], held, bare, by rw [blank]; rfl, by rw [filled]; rfl⟩
      · have inner : ∀ u ∈ trimStart value.spelled, isLineTerminator u = false :=
          fun u member => oneLine u (by simpa using (List.dropWhile_sublist _).mem member)
        refine ⟨value, trimStart value.spelled, held, bare, ?_, ?_⟩
        · rw [trimEnd_tight (trim_bare bare) filled, valueOf_spaced answers.space.1 answers.space.2 inner]
          rfl
        · rw [trim_trimStart, trim_bare bare]

theorem assign_name (answers : entry.Answers onDash (js "name")) (draft : StepDraft) :
    assign draft (entry.readAs onDash) = { draft with name := entry.value.meaning } := by
  obtain ⟨value, text, held, bare, read, tight⟩ := keyOf_answers answers name_nameable
  simp only [assign, read, if_true, unquote_bare bare tight, held, Value.meaning]

/-- The run of an entry that answers is taken as it is meant, unless it is empty. -/
theorem assign_run (answers : entry.Answers onDash (js "run")) (draft : StepDraft) :
    assign draft (entry.readAs onDash) = { draft with run := entry.command.or draft.run } := by
  obtain ⟨value, text, held, bare, read, tight⟩ := keyOf_answers answers run_nameable
  have other : js "run" ≠ js "name" := by decide
  simp only [assign, read, other, if_false, if_true, commandOf, opensBlock_bare bare tight,
    unquote_bare bare tight, Bool.not_false, Bool.true_and, Entry.command, held]
  by_cases empty : value.meaning = []
  · simp [empty]
  · simp [empty]

theorem assign_other {body : JsString} (noName : ReadsNot (js "name") body) (noRun : ReadsNot (js "run") body)
    (draft : StepDraft) : assign draft body = draft := by
  unfold assign
  cases read : keyOf body with
  | none => rfl
  | some pair =>
      have name : pair.1 ≠ js "name" := fun same => noName (by rw [read, Option.map_some, same])
      have run : pair.1 ≠ js "run" := fun same => noRun (by rw [read, Option.map_some, same])
      simp [name, run]

end Answers

end Kratos.Initialization.WorkflowEntries
