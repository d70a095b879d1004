/- source: domain/acceptance-criteria/parser.ts
   digest: The shape of a declaring line, read and rendered with either box. -/

import Kratos.Acceptance.Rendering

set_option autoImplicit false

namespace Kratos.Acceptance

open Foundation.Text
open Foundation.Collections (mapGet)
open Patterns (isAcceptanceCriterionId literal)

def checkUnit (checked : Bool) : CodeUnit := if checked then unit 'x' else unit ' '

def declarationLine (checked : Bool) (criterionId text : JsString) : JsString :=
  unit '-' :: unit ' ' :: unit '[' :: checkUnit checked ::
    (js "] " ++ (criterionId ++ (js ": " ++ text)))

theorem literal_eq_some_iff {expected s rest : JsString} :
    literal expected s = some rest ↔ s = expected ++ rest := by
  unfold literal
  constructor
  · intro found
    split at found
    · next begins =>
        obtain ⟨tail, rfl⟩ := (startsWith_iff s expected).mp begins
        rw [List.drop_left] at found
        rw [Option.some.inj found]
    · cases found
  · rintro rfl
    rw [if_pos (startsWith_append expected rest), List.drop_left]

private theorem someDigits_eq {s digits rest : JsString}
    (found : someDigits s = some (digits, rest)) : s = digits ++ rest := by
  unfold someDigits at found
  split at found
  · cases found
  · injection found with found
    injection found with taken left
    rw [← taken, ← left, List.takeWhile_append_dropWhile]

theorem criterionHead_eq {s rest : JsString} {parts : CriterionParts}
    (found : criterionHead s = some (parts, rest)) : s = parts.text ++ rest := by
  simp only [criterionHead, bind, Option.bind_eq_some_iff] at found
  obtain ⟨s₁, head, ⟨workUnit, s₂⟩, unitDigits, s₃, dot, ⟨task, s₄⟩, taskDigits, s₅, dot',
    ⟨number, s₆⟩, numberDigits, found⟩ := found
  injection found with found
  injection found with groups final
  have edge : s₅ = (if startsWith s₅ (js "E") then js "E" else []) ++ (number ++ s₆) := by
    have digits := someDigits_eq numberDigits
    split
    · next begins =>
        obtain ⟨tail, rfl⟩ := (startsWith_iff s₅ _).mp begins
        rw [if_pos begins] at digits
        rw [← digits]
        rfl
    · next plain =>
        rw [if_neg plain] at digits
        exact digits
  rw [literal_eq_some_iff] at head dot dot'
  simp only at dot dot' final groups
  rw [head, someDigits_eq unitDigits, dot, someDigits_eq taskDigits, dot', ← final, ← groups]
  conv_lhs => rw [edge]
  simp only [CriterionParts.text, List.append_assoc]

theorem criterionParts_eq {criterionId : JsString} {parts : CriterionParts}
    (found : criterionParts criterionId = some parts) :
    criterionId = parts.text ∧ ∀ tail : JsString, (∀ u ∈ tail.head?, Foreign u) →
      criterionHead (criterionId ++ tail) = some (parts, tail) := by
  unfold criterionParts at found
  split at found
  · next groups head =>
      obtain rfl := Option.some.inj found
      refine ⟨by simpa using criterionHead_eq head, ?_⟩
      intro tail foreign
      rw [criterionHead_local foreign, head]
      rfl
  · cases found

/-- What the declaration pattern accepts. -/
structure WellDeclared (criterionId text : JsString) : Prop where
  named : criterionId ≠ []
  visible : ∀ u ∈ criterionId, isWhiteSpace u = false
  begins : (text.head?.map fun u => !isWhiteSpace u).getD false = true
  oneLine : (text.all fun u => !isLineTerminator u) = true

theorem checkboxDeclaration_eq {line criterionId text : JsString} {checked : Bool}
    (found : checkboxDeclaration line = some (checked, criterionId, text)) :
    line = declarationLine checked criterionId text ∧ WellDeclared criterionId text := by
  unfold checkboxDeclaration at found
  split at found
  · next dash space bracket box rest =>
      split at found
      · next begins =>
          obtain ⟨rfl, rfl, rfl, allowed⟩ := begins
          simp only [bind, Option.bind_eq_some_iff] at found
          obtain ⟨body, close, remainder, blank, found⟩ := found
          split at found
          · next shape =>
              obtain ⟨colon, named, starts, oneLine⟩ := shape
              simp only [Option.some.injEq, Prod.mk.injEq] at found
              obtain ⟨shown, same, rfl⟩ := found
              rw [literal_eq_some_iff] at close blank
              have run : body.takeWhile (fun u => !isWhiteSpace u) = criterionId ++ js ":" := by
                rw [← same]
                exact (List.dropLast_append_getLast? _ colon).symm
              have whole : body = criterionId ++ (js ": " ++ remainder) := by
                rw [← List.takeWhile_append_dropWhile (p := fun u => !isWhiteSpace u) (l := body),
                  run, blank, List.append_assoc]
                rfl
              have filled : box = checkUnit checked := by
                rw [← shown]
                rcases allowed with rfl | rfl <;> decide
              refine ⟨?_, ?_, ?_, starts, oneLine⟩
              · rw [declarationLine, close, whole, filled]
              · rw [← same]
                exact named
              · intro u member
                have inside : u ∈ body.takeWhile fun u => !isWhiteSpace u := by
                  rw [run]
                  exact List.mem_append_left _ member
                simpa using List.mem_takeWhile_imp inside
          · cases found
      · cases found
  · cases found

theorem checkboxDeclaration_line {criterionId text : JsString}
    (well : WellDeclared criterionId text) (checked : Bool) :
    checkboxDeclaration (declarationLine checked criterionId text) =
      some (checked, criterionId, text) := by
  have colon : ∀ u ∈ js ":", (!isWhiteSpace u) = true := by decide
  have visible : ∀ u ∈ criterionId ++ js ":", (!isWhiteSpace u) = true := by
    intro u member
    rcases List.mem_append.mp member with inside | inside
    · rw [well.visible u inside]
      rfl
    · exact colon u inside
  have run : (criterionId ++ (js ": " ++ text)).takeWhile (fun u => !isWhiteSpace u) =
      criterionId ++ js ":" := by
    have shape : criterionId ++ (js ": " ++ text) = (criterionId ++ js ":") ++ (js " " ++ text) := by
      rw [List.append_assoc]
      rfl
    rw [shape, List.takeWhile_append_of_pos visible]
    exact List.append_nil _
  have rest : (criterionId ++ (js ": " ++ text)).dropWhile (fun u => !isWhiteSpace u) =
      js " " ++ text := by
    have shape : criterionId ++ (js ": " ++ text) = (criterionId ++ js ":") ++ (js " " ++ text) := by
      rw [List.append_assoc]
      rfl
    rw [shape, List.dropWhile_append_of_pos visible]
    rfl
  have close : literal (js "] ") (js "] " ++ (criterionId ++ (js ": " ++ text))) =
      some (criterionId ++ (js ": " ++ text)) := literal_eq_some_iff.mpr rfl
  have blank : literal (js " ") (js " " ++ text) = some text := literal_eq_some_iff.mpr rfl
  have last : (criterionId ++ js ":").getLast? = some (unit ':') := List.getLast?_concat
  have front : (criterionId ++ js ":").dropLast = criterionId := List.dropLast_concat
  have box : checkUnit checked = unit ' ' ∨ checkUnit checked = unit 'x' := by
    cases checked
    · exact Or.inl rfl
    · exact Or.inr rfl
  have shown : decide (checkUnit checked = unit 'x') = checked := by
    cases checked <;> decide
  rw [declarationLine, checkboxDeclaration, if_pos ⟨rfl, rfl, rfl, box⟩]
  simp only [bind, close, Option.bind_some, run, rest, blank, last, front]
  rw [if_pos ⟨trivial, well.named, well.begins, well.oneLine⟩, shown]

theorem readLine_item {position : Position} {line : JsString}
    (item : startsWith line (js "- [") = true) :
    readLine position line =
      if position.fence.isSome then .moves position
      else match position.section_ with
        | none => if strayDeclaration line then .malformed else .moves position
        | some kind => readDeclaration position kind line := by
  obtain ⟨rest, rfl⟩ := (startsWith_iff line _).mp item
  have marker : fenceMarker (js "- [" ++ rest) = none := rfl
  have heading : workUnitHeading (js "- [" ++ rest) = none := rfl
  have task : taskHeading (js "- [" ++ rest) = none := rfl
  have level : headingLevel (js "- [" ++ rest) = none := rfl
  have other : ∀ expected : JsString, expected.head? = some (unit '#') →
      js "- [" ++ rest ≠ expected := by
    rintro expected head rfl
    have dash : unit '-' = unit '#' := Option.some.inj head
    exact absurd dash (by decide)
  simp only [readLine, marker, heading, task, level, item, if_true]
  rewrite [if_neg (other (js "##### Acceptance criteria") (by decide)),
    if_neg (other (js "##### Edge cases") (by decide))]
  rfl

theorem readDeclaration_eq {position : Position} {kind : AcceptanceCriterionKind}
    {line : JsString} {declared : Declared}
    (found : readDeclaration position kind line = .declares declared) :
    WellDeclared declared.criterionId declared.text ∧
      (∃ parts, criterionParts declared.criterionId = some parts) ∧
      line = declarationLine declared.checked declared.criterionId declared.text ∧
      ∀ checked, readDeclaration position kind
          (declarationLine checked declared.criterionId declared.text) =
        .declares { declared with checked := checked } := by
  unfold readDeclaration at found
  split at found
  · next checked criterionId text workUnit task declaration unitNow taskNow =>
      split at found
      · next named =>
          split at found
          · next parts groups =>
              split at found
              · next matching =>
                  injection found with found
                  subst found
                  obtain ⟨shape, well⟩ := checkboxDeclaration_eq declaration
                  refine ⟨well, ⟨parts, groups⟩, shape, ?_⟩
                  intro other
                  rw [readDeclaration, checkboxDeclaration_line well, unitNow, taskNow]
                  simp only [named, if_true, groups]
                  rw [if_pos matching]
              · cases found
          · cases found
      · cases found
  · cases found

theorem declarationLine_item (checked : Bool) (criterionId text : JsString) :
    startsWith (declarationLine checked criterionId text) (js "- [") = true :=
  startsWith_append (js "- [") _

theorem readLine_declares {position : Position} {line : JsString} {declared : Declared}
    (found : readLine position line = .declares declared) :
    ∃ kind, position.fence = none ∧ position.section_ = some kind ∧
      readDeclaration position kind line = .declares declared := by
  unfold readLine at found
  split at found
  · cases found
  split at found
  · cases found
  · next opened =>
      split at found
      · cases found
      split at found
      · split at found <;> cases found
      split at found
      · cases found
      split at found
      · cases found
      split at found
      · cases found
      split at found
      · split at found <;> cases found
      · next kind here =>
          split at found
          · exact ⟨kind, by simpa using opened, here, found⟩
          · cases found

theorem readLine_redeclared {position : Position} {line : JsString} {declared : Declared}
    (found : readLine position line = .declares declared) (checked : Bool) :
    readLine position (declarationLine checked declared.criterionId declared.text) =
      .declares { declared with checked := checked } := by
  obtain ⟨kind, opened, here, declaration⟩ := readLine_declares found
  obtain ⟨-, -, -, again⟩ := readDeclaration_eq declaration
  rw [readLine_item (declarationLine_item checked _ _), opened, here]
  exact again checked

/-- Whether the box is checked after the outcomes are written. -/
def checkedAfter (outcomes : Outcomes) (criterionId : JsString) (checked : Bool) : Bool :=
  match mapGet outcomes criterionId with
  | some outcome => decide (outcome = .passed)
  | none => checked

private theorem boxHead_declared {criterionId text : JsString} {parts : CriterionParts}
    (well : WellDeclared criterionId text) (groups : criterionParts criterionId = some parts)
    (checked : Bool) :
    boxHead (declarationLine checked criterionId text) = some (checkUnit checked, criterionId) := by
  obtain ⟨name, head⟩ := criterionParts_eq groups
  have foreign : ∀ u ∈ (js ": " ++ text).head?, Foreign u := by
    intro u member
    obtain rfl : unit ':' = u := Option.some.inj member
    exact ⟨by decide, by decide⟩
  have close : literal (js "] ") (js "] " ++ (criterionId ++ (js ": " ++ text))) =
      some (criterionId ++ (js ": " ++ text)) := literal_eq_some_iff.mpr rfl
  have colon : literal (js ": ") (js ": " ++ text) = some text := literal_eq_some_iff.mpr rfl
  have box : checkUnit checked = unit ' ' ∨ checkUnit checked = unit 'x' := by
    cases checked
    · exact Or.inl rfl
    · exact Or.inr rfl
  have next : (text.head?.map fun u => !isBreak u).getD false = true := by
    have begins := well.begins
    cases text with
    | nil => cases begins
    | cons u rest =>
        show (!isBreak u) = true
        rcases breaks : isBreak u with _ | _
        · rfl
        · have visible : isWhiteSpace u = false := by simpa using begins
          rcases (Bool.or_eq_true _ _).mp breaks with same | same
          · rw [eq_of_beq same] at visible
            exact absurd visible (by decide)
          · rw [eq_of_beq same] at visible
            exact absurd visible (by decide)
  rw [declarationLine, boxHead, if_pos ⟨rfl, rfl, rfl, box⟩]
  simp only [bind, close, Option.bind_some, head _ foreign, colon]
  rw [if_pos next, ← name]

theorem replaceBoxes_declared (outcomes : Outcomes) {criterionId text : JsString}
    {parts : CriterionParts} (well : WellDeclared criterionId text)
    (groups : criterionParts criterionId = some parts) (checked : Bool) :
    replaceBoxes outcomes .start (declarationLine checked criterionId text) =
      declarationLine (checkedAfter outcomes criterionId checked) criterionId text := by
  have head := boxHead_declared well groups checked
  have plain : ∀ u ∈ js "] " ++ (criterionId ++ (js ": " ++ text)), isBreak u = false := by
    have close : ∀ u ∈ js "] ", isBreak u = false := by decide
    have colon : ∀ u ∈ js ": ", isBreak u = false := by decide
    have blank : ∀ u, isBreak u = true → isWhiteSpace u = true ∧ isLineTerminator u = true := by
      intro u breaks
      rcases (Bool.or_eq_true _ _).mp breaks with same | same
      · rw [eq_of_beq same]
        decide
      · rw [eq_of_beq same]
        decide
    intro u member
    by_contra breaks
    obtain ⟨white, terminator⟩ := blank u (by simpa using breaks)
    simp only [List.mem_append] at member
    rcases member with inside | inside | inside | inside
    · exact breaks (close u inside)
    · rw [well.visible u inside] at white
      cases white
    · exact breaks (colon u inside)
    · have one := List.all_eq_true.mp well.oneLine u inside
      rw [terminator] at one
      cases one
  have written : Scan.write outcomes (.matched 0 criterionId) (checkUnit checked) =
      checkUnit (checkedAfter outcomes criterionId checked) := by
    show ((mapGet outcomes criterionId).map boxUnit).getD (checkUnit checked) = _
    unfold checkedAfter
    cases mapGet outcomes criterionId with
    | none => rfl
    | some outcome => cases outcome <;> rfl
  rw [declarationLine] at head ⊢
  rw [replaceBoxes, Scan.after, head]
  simp only [replaceBoxes, Scan.after, written, replaceBoxes_copying plain]
  rfl

end Kratos.Acceptance
