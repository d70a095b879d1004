/- source: domain/acceptance-criteria/parser.ts, domain/acceptance-criteria/policy.ts
   digest: When rendering the boxes of a task document preserves everything else in it. -/

import Kratos.Acceptance.Snapshot

set_option autoImplicit false

namespace Kratos.Acceptance

open Foundation.Text Foundation.Pieces
open Foundation.Collections (mapGet)

/-- The position of the box on a line of a document, lines counted from one. -/
def boxOffset (content : JsString) (line : Nat) : Nat :=
  offset ((pieces content).map Piece.text) (line - 1) + 3

/-- What rendering owes the document. -/
structure RenderPreserves (sha256 : JsString → JsString) (content : JsString)
    (outcomes : Outcomes) (declarations : List AcceptanceCriterionDeclaration)
    (result : JsString) : Prop where
  length : result.length = content.length
  bytes : ∀ i : Nat, result[i]? ≠ content[i]? →
    ∃ d ∈ declarations, (mapGet outcomes d.criterionId).isSome ∧ i = boxOffset content d.line
  inspected : inspectTaskDocument (some result) = .valid (declarations.map (·.after outcomes))
  compared : ∀ phase frozen latest,
    (compareCriteriaSnapshot phase frozen (declarations.map (currentCriterion sha256))
      latest).isRefused = false →
    compareCriteriaSnapshot phase frozen
        ((declarations.map (·.after outcomes)).map (currentCriterion sha256)) (latest ++ outcomes) =
      compareCriteriaSnapshot phase frozen (declarations.map (currentCriterion sha256)) latest
  fresh : ∀ phase latest,
    (∀ d ∈ declarations, mapGet outcomes d.criterionId = none →
      d.checked = expectedBox latest d.criterionId) →
    compareCriteriaSnapshot phase
      (declarations.map fun d => (currentCriterion sha256 d).toFrozenCriterion)
      ((declarations.map (·.after outcomes)).map (currentCriterion sha256))
      (latest ++ outcomes) = .unchanged

/-- On the lines that declare nothing, whatever reads as the box of a reported criterion already
shows its outcome. -/
def LookAlikesShown (content : JsString) (outcomes : Outcomes)
    (declarations : List AcceptanceCriterionDeclaration) : Prop :=
  ∀ (k : Nat) (line : JsString), (splitBreaks content)[k]? = some line →
    (∀ d ∈ declarations, d.line ≠ k + 1) → BoxesShown outcomes (boxes .start line)

instance (content : JsString) (outcomes : Outcomes)
    (declarations : List AcceptanceCriterionDeclaration) :
    Decidable (LookAlikesShown content outcomes declarations) :=
  decidable_of_iff
    (∀ entry ∈ (splitBreaks content).zipIdx, (∀ d ∈ declarations, d.line ≠ entry.2 + 1) →
      BoxesShown outcomes (boxes .start entry.1)) <| by
        constructor
        · intro all k line at_k
          exact all (line, k) (List.mk_mem_zipIdx_iff_getElem?.mpr at_k)
        · rintro shown ⟨line, k⟩ member
          exact shown k line (List.mk_mem_zipIdx_iff_getElem?.mp member)

/-- A declaration as it stands in the lines of its document. -/
structure StandsIn (lines : List JsString) (index : Nat) (d : AcceptanceCriterionDeclaration) :
    Prop where
  later : index < d.line
  stands : lines[d.line - (index + 1)]? = some (declarationLine d.checked d.criterionId d.text)
  well : WellDeclared d.criterionId d.text
  named : ∃ parts, criterionParts d.criterionId = some parts

section Inspection

variable {outcomes : Outcomes}

private theorem StandsIn.cons {line : JsString} {lines : List JsString} {index : Nat}
    {d : AcceptanceCriterionDeclaration} (stands : StandsIn lines (index + 1) d) :
    StandsIn (line :: lines) index d := by
  have later := stands.later
  refine ⟨by omega, ?_, stands.well, stands.named⟩
  have shift : d.line - (index + 1) = d.line - (index + 1 + 1) + 1 := by omega
  rw [shift, List.getElem?_cons_succ]
  exact stands.stands

/-- Every declaration an inspection adds stands in one of the lines it read. -/
theorem inspectLines_stands {lines : List JsString} {index : Nat} {position : Position}
    {before found : List AcceptanceCriterionDeclaration}
    (accepted : inspectLines index position before lines = .valid found) :
    ∃ added, found = before ++ added ∧ ∀ d ∈ added, StandsIn lines index d := by
  induction lines generalizing index position before with
  | nil =>
      rw [inspectLines] at accepted
      split at accepted
      · cases accepted
      · injection accepted with same
        refine ⟨[], by rw [same, List.append_nil], ?_⟩
        intro d member
        cases member
  | cons line lines ih =>
      rw [inspectLines] at accepted
      split at accepted
      · next next _ =>
          obtain ⟨added, same, stands⟩ := ih accepted
          exact ⟨added, same, fun d member => (stands d member).cons⟩
      · cases accepted
      · next declared reading =>
          split at accepted
          · cases accepted
          split at accepted
          · cases accepted
          obtain ⟨added, same, stands⟩ := ih accepted
          obtain ⟨kind, -, -, declaration⟩ := readLine_declares reading
          obtain ⟨well, named, shape, -⟩ := readDeclaration_eq declaration
          refine ⟨declared.record before.length (index + 1) :: added, ?_, ?_⟩
          · rw [same, List.append_assoc]
            rfl
          · intro d member
            rcases List.mem_cons.mp member with rfl | inside
            · refine ⟨Nat.lt_succ_self index, ?_, well, named⟩
              show (line :: lines)[index + 1 - (index + 1)]? = _
              rw [Nat.sub_self, List.getElem?_cons_zero, shape]
              rfl
            · exact (stands d inside).cons

private theorem map_after_ids (declarations : List AcceptanceCriterionDeclaration) :
    (declarations.map (·.after outcomes)).map (·.criterionId) =
      declarations.map (·.criterionId) := by
  rw [List.map_map]
  rfl

/-- When the other lines are left alone, the rendered lines declare the same criteria with their
boxes as reported. -/
theorem inspectLines_rendered {lines : List JsString} {index : Nat} {position : Position}
    {before found : List AcceptanceCriterionDeclaration}
    (accepted : inspectLines index position before lines = .valid found)
    (earlier : ∀ d ∈ before, d.line ≤ index)
    (alone : ∀ (k : Nat) (line : JsString), lines[k]? = some line →
      (∀ d ∈ found, d.line ≠ index + k + 1) → replaceBoxes outcomes .start line = line) :
    inspectLines index position (before.map (·.after outcomes))
        (lines.map (replaceBoxes outcomes .start)) = .valid (found.map (·.after outcomes)) := by
  induction lines generalizing index position before with
  | nil =>
      rw [inspectLines] at accepted
      split at accepted
      · cases accepted
      · next filled =>
          injection accepted with same
          have kept : ¬ before.map (·.after outcomes) = [] := by
            rw [List.map_eq_nil_iff]
            exact filled
          rw [List.map_nil, inspectLines, if_neg kept, same]
  | cons line lines ih =>
      rw [List.map_cons, inspectLines]
      rw [inspectLines] at accepted
      have rest : ∀ (k : Nat) (other : JsString), lines[k]? = some other →
          (∀ d ∈ found, d.line ≠ index + 1 + k + 1) →
          replaceBoxes outcomes .start other = other := by
        intro k other at_k undeclared
        refine alone (k + 1) other (by rw [List.getElem?_cons_succ]; exact at_k) ?_
        intro d member same
        exact undeclared d member (by omega)
      split at accepted
      · next next reading =>
          obtain ⟨added, same, stands⟩ := inspectLines_stands accepted
          have kept : replaceBoxes outcomes .start line = line := by
            refine alone 0 line rfl ?_
            intro d member here
            rw [same] at member
            rcases List.mem_append.mp member with inside | inside
            · have := earlier d inside
              omega
            · have := (stands d inside).later
              omega
          rw [kept, reading]
          exact ih accepted (fun d member => Nat.le_succ_of_le (earlier d member)) rest
      · cases accepted
      · next declared reading =>
          split at accepted
          · cases accepted
          split at accepted
          · cases accepted
          next fresh room =>
          obtain ⟨kind, -, -, declaration⟩ := readLine_declares reading
          obtain ⟨well, ⟨parts, groups⟩, shape, -⟩ := readDeclaration_eq declaration
          have rendered : replaceBoxes outcomes .start line = declarationLine
              (checkedAfter outcomes declared.criterionId declared.checked)
              declared.criterionId declared.text := by
            rw [shape]
            exact replaceBoxes_declared outcomes well groups declared.checked
          rw [rendered, readLine_redeclared reading]
          have again : ¬ declared.criterionId ∈
              (before.map (·.after outcomes)).map (·.criterionId) := by
            rw [map_after_ids]
            exact fresh
          have short : ¬ (before.map (·.after outcomes)).length = MAX_CRITERIA := by
            rw [List.length_map]
            exact room
          simp only
          rw [if_neg again, if_neg short, List.length_map]
          have recorded := ih accepted ?_ rest
          · rw [List.map_append] at recorded
            exact recorded
          · intro d member
            rcases List.mem_append.mp member with inside | inside
            · exact Nat.le_succ_of_le (earlier d inside)
            · rw [List.mem_singleton] at inside
              rw [inside]
              exact Nat.le_refl _

end Inspection

section Documents

variable {content : JsString} {outcomes : Outcomes}
  {declarations : List AcceptanceCriterionDeclaration}

def rendered (outcomes : Outcomes) (piece : Piece) : Piece :=
  ⟨replaceBoxes outcomes .start piece.line, piece.ending⟩

private theorem joined_flatten (all : List Piece) : joined all = (all.map Piece.text).flatten :=
  List.flatMap_def

private theorem replaceBoxes_content (outcomes : Outcomes) (content : JsString) :
    replaceBoxes outcomes .start content = joined ((pieces content).map (rendered outcomes)) := by
  conv_lhs => rw [← joined_pieces content]
  exact replaceBoxes_joined (broken_pieces content)

private theorem stands_in (accepted : inspectTaskDocument (some content) = .valid declarations) :
    ∀ d ∈ declarations, StandsIn (splitBreaks content) 0 d := by
  obtain ⟨added, same, stands⟩ := inspectLines_stands accepted
  rw [List.nil_append] at same
  rw [same]
  exact stands

private theorem line_at {piece : Piece} {k : Nat} (at_k : (pieces content)[k]? = some piece) :
    (splitBreaks content)[k]? = some piece.line := by
  rw [splitBreaks, List.getElem?_map, at_k]
  rfl

private theorem line_cases (accepted : inspectTaskDocument (some content) = .valid declarations)
    (shown : LookAlikesShown content outcomes declarations) {k : Nat} {line : JsString}
    (at_k : (splitBreaks content)[k]? = some line) :
    replaceBoxes outcomes .start line = line ∨
      ∃ d ∈ declarations, d.line = k + 1 ∧
        line = declarationLine d.checked d.criterionId d.text ∧
        WellDeclared d.criterionId d.text ∧
        replaceBoxes outcomes .start line = declarationLine
          (checkedAfter outcomes d.criterionId d.checked) d.criterionId d.text := by
  by_cases declared : ∃ d ∈ declarations, d.line = k + 1
  · obtain ⟨d, member, here⟩ := declared
    obtain ⟨-, stands, well, parts, groups⟩ := stands_in accepted d member
    rw [here, Nat.zero_add, Nat.add_sub_cancel, at_k] at stands
    have shape := Option.some.inj stands
    refine Or.inr ⟨d, member, here, shape, well, ?_⟩
    rw [shape]
    exact replaceBoxes_declared outcomes well groups d.checked
  · left
    rw [replaceBoxes_eq_self_iff]
    refine shown k line at_k ?_
    intro d member here
    exact declared ⟨d, member, here⟩

private theorem getLast?_declarationLine {criterionId text : JsString}
    (well : WellDeclared criterionId text) (checked : Bool) :
    (declarationLine checked criterionId text).getLast? = text.getLast? := by
  have filled : text ≠ [] := by
    rintro rfl
    cases well.begins
  have shape : declarationLine checked criterionId text =
      (unit '-' :: unit ' ' :: unit '[' :: checkUnit checked :: (js "] " ++ (criterionId ++ js ": ")))
        ++ text := by
    simp only [declarationLine, List.cons_append, List.append_assoc]
  rw [shape, List.getLast?_append_of_ne_nil _ filled]

private theorem feed_declarationLine {criterionId text : JsString} {checked other : Bool}
    (plain : Kratos.Foundation.Lines.lineFeed ∉ declarationLine checked criterionId text) :
    Kratos.Foundation.Lines.lineFeed ∉ declarationLine other criterionId text := by
  have feed : ∀ checked, Kratos.Foundation.Lines.lineFeed ≠ checkUnit checked := by decide
  unfold declarationLine at plain ⊢
  simp only [List.mem_cons, not_or] at plain ⊢
  exact ⟨plain.1, plain.2.1, plain.2.2.1, feed other, plain.2.2.2.2⟩

private theorem pieces_rendered
    (accepted : inspectTaskDocument (some content) = .valid declarations)
    (shown : LookAlikesShown content outcomes declarations) :
    pieces (replaceBoxes outcomes .start content) =
      (pieces content).map (rendered outcomes) := by
  rw [replaceBoxes_content]
  refine pieces_joined ((broken_pieces content).relined ?_)
  rw [List.forall₂_iff_get]
  refine ⟨by rw [List.length_map], ?_⟩
  intro k short short'
  have at_k : (pieces content)[k]? = some ((pieces content).get ⟨k, short⟩) :=
    List.getElem?_eq_getElem short
  have image : ((pieces content).map (rendered outcomes)).get ⟨k, short'⟩ =
      rendered outcomes ((pieces content).get ⟨k, short⟩) := by
    simp only [List.get_eq_getElem, List.getElem_map]
  rw [image]
  generalize (pieces content).get ⟨k, short⟩ = piece at at_k
  refine ⟨rfl, ?_⟩
  show (_ → _ ∉ replaceBoxes outcomes .start piece.line) ∧
    (replaceBoxes outcomes .start piece.line).getLast? = _
  rcases line_cases accepted shown (line_at at_k) with kept | ⟨d, -, -, shape, well, written⟩
  · rw [kept]
    exact ⟨id, rfl⟩
  · rw [written, shape]
    exact ⟨feed_declarationLine, by rw [getLast?_declarationLine well, getLast?_declarationLine well]⟩

private theorem inspected_rendered
    (accepted : inspectTaskDocument (some content) = .valid declarations)
    (shown : LookAlikesShown content outcomes declarations) :
    inspectTaskDocument (some (replaceBoxes outcomes .start content)) =
      .valid (declarations.map (·.after outcomes)) := by
  have lines : splitBreaks (replaceBoxes outcomes .start content) =
      (splitBreaks content).map (replaceBoxes outcomes .start) := by
    unfold splitBreaks
    rw [pieces_rendered accepted shown, List.map_map, List.map_map]
    rfl
  rw [inspectTaskDocument, lines]
  refine inspectLines_rendered accepted ?_ ?_
  · intro d member
    cases member
  · intro k line at_k undeclared
    rw [replaceBoxes_eq_self_iff]
    refine shown k line at_k ?_
    intro d member here
    exact undeclared d member (by omega)

private theorem units_at (outcomes : Outcomes) {piece : Piece} {k j : Nat}
    (at_k : (pieces content)[k]? = some piece) (inside : j < piece.text.length) :
    content[offset ((pieces content).map Piece.text) k + j]? = piece.text[j]? ∧
      (replaceBoxes outcomes .start content)[offset ((pieces content).map Piece.text) k + j]? =
        (rendered outcomes piece).text[j]? := by
  have sizes : ∀ one : Piece, (rendered outcomes one).text.length = one.text.length := by
    intro one
    simp only [Piece.text, rendered, List.length_append, length_replaceBoxes]
  have aligned : List.Forall₂ (fun one two : JsString => one.length = two.length)
      ((pieces content).map Piece.text)
      (((pieces content).map (rendered outcomes)).map Piece.text) := by
    rw [List.map_map, List.forall₂_map_left_iff, List.forall₂_map_right_iff, List.forall₂_same]
    intro one _
    exact (sizes one).symm
  constructor
  · have whole : content = ((pieces content).map Piece.text).flatten := by
      rw [← joined_flatten, joined_pieces]
    have at_text : ((pieces content).map Piece.text)[k]? = some piece.text := by
      rw [List.getElem?_map, at_k]
      rfl
    have found := getElem?_flatten at_text inside
    rw [← whole] at found
    exact found
  · rw [replaceBoxes_content, joined_flatten, offset_congr aligned]
    refine getElem?_flatten ?_ (by rw [sizes]; exact inside)
    rw [List.getElem?_map, List.getElem?_map, at_k]
    rfl

private theorem piece_at {k : Nat} {text : JsString}
    (at_k : ((pieces content).map Piece.text)[k]? = some text) :
    ∃ piece, (pieces content)[k]? = some piece ∧ text = piece.text := by
  rw [List.getElem?_map, Option.map_eq_some_iff] at at_k
  obtain ⟨piece, found, same⟩ := at_k
  exact ⟨piece, found, same.symm⟩

private theorem bytes_rendered
    (accepted : inspectTaskDocument (some content) = .valid declarations)
    (shown : LookAlikesShown content outcomes declarations) {i : Nat}
    (changed : (replaceBoxes outcomes .start content)[i]? ≠ content[i]?) :
    ∃ d ∈ declarations,
      (mapGet outcomes d.criterionId).isSome ∧ i = boxOffset content d.line := by
  have short : i < content.length := by
    by_contra long
    refine changed ?_
    rw [List.getElem?_eq_none (by rw [length_replaceBoxes]; omega),
      List.getElem?_eq_none (by omega)]
  have whole : ((pieces content).map Piece.text).flatten = content := by
    rw [← joined_flatten, joined_pieces]
  rw [← whole] at short
  obtain ⟨k, j, text, at_text, inside, position⟩ := exists_offset short
  obtain ⟨piece, at_k, rfl⟩ := piece_at at_text
  obtain ⟨before, after⟩ := units_at outcomes at_k inside
  rw [position, before, after] at changed
  rcases line_cases accepted shown (line_at at_k) with kept | ⟨d, member, here, shape, well, written⟩
  · refine absurd ?_ changed
    show (replaceBoxes outcomes .start piece.line ++ piece.ending)[j]? = _
    rw [kept]
    rfl
  · have differ : (declarationLine (checkedAfter outcomes d.criterionId d.checked) d.criterionId
        d.text ++ piece.ending)[j]? ≠
        (declarationLine d.checked d.criterionId d.text ++ piece.ending)[j]? := by
      rw [← written, ← shape]
      exact changed
    refine ⟨d, member, ?_, ?_⟩
    · by_contra unreported
      refine differ ?_
      have same : checkedAfter outcomes d.criterionId d.checked = d.checked := by
        unfold checkedAfter
        rw [Option.not_isSome_iff_eq_none.mp unreported]
      rw [same]
    · have third : j = 3 := by
        by_contra other
        refine differ ?_
        match j, other with
        | 0, _ => rfl
        | 1, _ => rfl
        | 2, _ => rfl
        | 3, other => exact absurd rfl other
        | j + 4, _ => rfl
      rw [position, third, boxOffset, here, Nat.add_sub_cancel]

private theorem shown_of_bytes
    (accepted : inspectTaskDocument (some content) = .valid declarations)
    (kept : ∀ i : Nat, (replaceBoxes outcomes .start content)[i]? ≠ content[i]? →
      ∃ d ∈ declarations,
        (mapGet outcomes d.criterionId).isSome ∧ i = boxOffset content d.line) :
    LookAlikesShown content outcomes declarations := by
  intro k line at_line undeclared
  rw [← replaceBoxes_eq_self_iff]
  rw [splitBreaks, List.getElem?_map, Option.map_eq_some_iff] at at_line
  obtain ⟨piece, at_k, rfl⟩ := at_line
  by_contra changes
  obtain ⟨j, differ⟩ : ∃ j : Nat,
      (replaceBoxes outcomes .start piece.line)[j]? ≠ piece.line[j]? := by
    by_contra none
    refine changes (List.ext_getElem? fun j => ?_)
    by_contra differ
    exact none ⟨j, differ⟩
  have short : j < piece.line.length := by
    by_contra long
    refine differ ?_
    rw [List.getElem?_eq_none (by rw [length_replaceBoxes]; omega),
      List.getElem?_eq_none (by omega)]
  have inside : j < piece.text.length := by
    rw [Piece.text, List.length_append]
    omega
  obtain ⟨before, after⟩ := units_at outcomes at_k inside
  obtain ⟨d, member, -, position⟩ := kept
    (offset ((pieces content).map Piece.text) k + j) (by
      rw [before, after]
      show (replaceBoxes outcomes .start piece.line ++ piece.ending)[j]? ≠
        (piece.line ++ piece.ending)[j]?
      rw [List.getElem?_append_left (by rw [length_replaceBoxes]; exact short),
        List.getElem?_append_left short]
      exact differ)
  obtain ⟨-, stands, -, -⟩ := stands_in accepted d member
  have positive : 0 < d.line := (stands_in accepted d member).later
  rw [splitBreaks, List.getElem?_map, Option.map_eq_some_iff] at stands
  obtain ⟨other, at_d, shape⟩ := stands
  have at_text : ((pieces content).map Piece.text)[k]? = some piece.text := by
    rw [List.getElem?_map, at_k]
    rfl
  have at_other : ((pieces content).map Piece.text)[d.line - 1]? = some other.text := by
    rw [List.getElem?_map]
    exact congrArg (Option.map Piece.text) at_d
  have long : 3 < other.text.length := by
    rw [Piece.text, shape, List.length_append]
    simp only [declarationLine, List.length_cons]
    omega
  obtain ⟨same, -⟩ := offset_unique at_text at_other inside long position
  exact undeclared d member (by omega)

/-- Rendering preserves a task document exactly when the look-alike boxes of the reported criteria,
in code fences or after a line terminator inside a line, already show the outcomes. -/
theorem criterion_rendering_exact (sha256 : JsString → JsString)
    (accepted : inspectTaskDocument (some content) = .valid declarations)
    (known : ∀ entry ∈ outcomes, ∃ d ∈ declarations, d.criterionId = entry.1) :
    (∃ result, renderCriterionCheckboxes content outcomes = .ok result ∧
        RenderPreserves sha256 content outcomes declarations result) ↔
      LookAlikesShown content outcomes declarations := by
  have rendering : renderCriterionCheckboxes content outcomes =
      .ok (replaceBoxes outcomes .start content) := by
    rw [renderCriterionCheckboxes, accepted]
    refine if_pos (List.all_eq_true.mpr ?_)
    intro entry member
    obtain ⟨d, inside, same⟩ := known entry member
    exact List.any_eq_true.mpr ⟨d, inside, beq_iff_eq.mpr same⟩
  constructor
  · rintro ⟨result, written, preserved⟩
    rw [rendering] at written
    injection written with written
    subst written
    exact shown_of_bytes accepted preserved.bytes
  · intro shown
    refine ⟨_, rendering, ?_⟩
    exact
      { length := length_replaceBoxes .start content
        bytes := fun i => bytes_rendered accepted shown
        inspected := inspected_rendered accepted shown
        compared := fun phase frozen latest => compare_after phase frozen latest
        fresh := fun phase latest => compare_fresh phase }

end Documents

private def taskLines : JsString :=
  js "### Work unit 1: Store\n#### Task 1.2: Keep\n##### Acceptance criteria\n- [ ] AC-1.2.3: Works\n"

private def taskDeclarations : List AcceptanceCriterionDeclaration :=
  [⟨js "AC-1.2.3", js "1", js "2", .main, false, 0, 4, js "Works", js "- [ ] AC-1.2.3: Works"⟩]

private def taskOutcomes : Outcomes := [(js "AC-1.2.3", .passed)]

/-- A document whose only box is the declared one. -/
theorem plain_document_rendered :
    ∃ result, renderCriterionCheckboxes taskLines taskOutcomes = .ok result ∧
      RenderPreserves id taskLines taskOutcomes taskDeclarations result :=
  (criterion_rendering_exact id (by decide +kernel) (by decide +kernel)).mpr (by decide +kernel)

private def quotedLines : JsString := taskLines ++ js "```\n- [ ] AC-1.2.3: Works\n```\n"

/-- With the criterion quoted in a code fence as well, the quoted box is written too. -/
theorem fenced_box_rendered :
    inspectTaskDocument (some quotedLines) = .valid taskDeclarations ∧
      ∃ result, renderCriterionCheckboxes quotedLines taskOutcomes = .ok result ∧
        result[98]? ≠ quotedLines[98]? ∧
        ∀ d ∈ taskDeclarations, 98 ≠ boxOffset quotedLines d.line := by
  refine ⟨by decide +kernel, replaceBoxes taskOutcomes .start quotedLines, ?_, ?_, ?_⟩
  · decide +kernel
  · decide +kernel
  · decide +kernel

end Kratos.Acceptance
