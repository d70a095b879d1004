/- source: domain/acceptance-criteria/parser.ts
   digest: The checkbox renderer as one scan of the document, and what it does to each line. -/

import Kratos.Acceptance.TaskDocument
import Kratos.Foundation.Collections

set_option autoImplicit false

namespace Kratos.Acceptance

open Foundation.Text Foundation.Pieces
open Foundation.Lines (lineFeed)
open Foundation.Collections (mapGet)
open Patterns (isAcceptanceCriterionId literal)

/-- `[\r\n]`. -/
def isBreak (u : CodeUnit) : Bool := u == lineFeed || u == carriageReturn

def CriterionParts.text (parts : CriterionParts) : JsString :=
  js "AC-" ++ parts.workUnit ++ js "." ++ parts.task ++ js "." ++
    (if parts.edge then js "E" else []) ++ parts.number

/-- `(- \[)( |x)(\] (AC-\d+\.\d+\.E?\d+): [^\r\n]+)` here: the unit of the box and the
identifier; the rest of the match runs to the next break. -/
def boxHead : JsString → Option (CodeUnit × JsString)
  | dash :: space :: bracket :: box :: rest =>
      if dash = unit '-' ∧ space = unit ' ' ∧ bracket = unit '[' ∧
          (box = unit ' ' ∨ box = unit 'x') then do
        let rest ← literal (js "] ") rest
        let (parts, rest) ← criterionHead rest
        let rest ← literal (js ": ") rest
        if (rest.head?.map fun u => !isBreak u).getD false = true then some (box, parts.text)
        else none
      else none
  | _ => none

/-- Where the replacement is: where `^` holds, inside a line, `left` units before the box of a
match, or in the rest of one. -/
inductive Scan
  | start
  | inside
  | matched (left : Nat) (criterionId : JsString)
  | copying
deriving DecidableEq, Repr

def Scan.after (scan : Scan) (u : CodeUnit) (rest : JsString) : Scan :=
  match scan with
  | .start =>
      match boxHead (u :: rest) with
      | some (_, criterionId) => .matched 2 criterionId
      | none => if isLineTerminator u then .start else .inside
  | .inside => if isLineTerminator u then .start else .inside
  | .matched (left + 1) criterionId => .matched left criterionId
  | .matched 0 _ => .copying
  | .copying => if isBreak u then .start else .copying

def boxUnit (outcome : AcceptanceCriterionOutcome) : CodeUnit :=
  if outcome = .passed then unit 'x' else unit ' '

abbrev Outcomes := List (JsString × AcceptanceCriterionOutcome)

def Scan.write (outcomes : Outcomes) (scan : Scan) (u : CodeUnit) : CodeUnit :=
  match scan with
  | .matched 0 criterionId => ((mapGet outcomes criterionId).map boxUnit).getD u
  | _ => u

/-- `content.replace(pattern, …)`. -/
def replaceBoxes (outcomes : Outcomes) : Scan → JsString → JsString
  | _, [] => []
  | scan, u :: rest => scan.write outcomes u :: replaceBoxes outcomes (scan.after u rest) rest

def renderCriterionCheckboxes (content : JsString) (outcomes : Outcomes) : Except String JsString :=
  match inspectTaskDocument (some content) with
  | .valid declarations =>
      if outcomes.all (fun entry => declarations.any fun d => d.criterionId == entry.1) then
        .ok (replaceBoxes outcomes .start content)
      else .error "Acceptance outcome names an unknown criterion"
  | _ => .error "Task document is not valid acceptance input"

/-- The box at this unit, with the identifier of its match. -/
def Scan.found (scan : Scan) (u : CodeUnit) : List (JsString × CodeUnit) :=
  match scan with
  | .matched 0 criterionId => [(criterionId, u)]
  | _ => []

/-- The boxes the pattern finds, each with the identifier after it and the unit in it. -/
def boxes : Scan → JsString → List (JsString × CodeUnit)
  | _, [] => []
  | scan, u :: rest => scan.found u ++ boxes (scan.after u rest) rest

/-- Every found box of a reported criterion already shows the outcome. -/
def BoxesShown (outcomes : Outcomes) (found : List (JsString × CodeUnit)) : Prop :=
  ∀ box ∈ found, ∀ outcome, mapGet outcomes box.1 = some outcome → box.2 = boxUnit outcome

instance (outcomes : Outcomes) (found : List (JsString × CodeUnit)) :
    Decidable (BoxesShown outcomes found) :=
  decidable_of_iff
    (∀ box ∈ found, ((mapGet outcomes box.1).map boxUnit).getD box.2 = box.2) <| by
      unfold BoxesShown
      refine forall₂_congr fun box _ => ?_
      cases mapGet outcomes box.1 with
      | none => simp
      | some outcome => simp [eq_comm]

section Scanning

variable {outcomes : Outcomes}

theorem length_replaceBoxes (scan : Scan) (s : JsString) :
    (replaceBoxes outcomes scan s).length = s.length := by
  induction s generalizing scan with
  | nil => rfl
  | cons u rest ih =>
      rw [replaceBoxes, List.length_cons, List.length_cons, ih]

private theorem write_eq_self_iff (scan : Scan) (u : CodeUnit) :
    scan.write outcomes u = u ↔ BoxesShown outcomes (scan.found u) := by
  rw [Scan.write.eq_def, Scan.found.eq_def]
  split
  · next criterionId =>
      unfold BoxesShown
      simp only [List.forall_mem_singleton]
      cases mapGet outcomes criterionId with
      | none => simp
      | some outcome => simp [eq_comm]
  · simp [BoxesShown]

/-- The scan leaves a text unchanged exactly when the boxes it finds show their outcomes. -/
theorem replaceBoxes_eq_self_iff (scan : Scan) (s : JsString) :
    replaceBoxes outcomes scan s = s ↔ BoxesShown outcomes (boxes scan s) := by
  induction s generalizing scan with
  | nil =>
      constructor
      · intro _ box member
        cases member
      · intro _
        rfl
  | cons u rest ih =>
      rw [replaceBoxes, List.cons.injEq, ih, boxes, write_eq_self_iff]
      unfold BoxesShown
      rw [List.forall_mem_append]

theorem replaceBoxes_copying {s : JsString} (plain : ∀ u ∈ s, isBreak u = false) :
    replaceBoxes outcomes .copying s = s := by
  induction s with
  | nil => rfl
  | cons u rest ih =>
      have stays : Scan.after .copying u rest = .copying := by
        rw [Scan.after, plain u List.mem_cons_self, if_neg Bool.false_ne_true]
      rw [replaceBoxes, stays, ih fun v member => plain v (List.mem_cons_of_mem u member)]
      rfl

end Scanning

section Locality

/-- What can follow a line: nothing, or a break. -/
def Stops (tail : JsString) : Prop := tail = [] ∨ ∃ u rest, tail = u :: rest ∧ isBreak u = true

private theorem startsWith_local {tail expected : JsString}
    (outside : ∀ u ∈ tail.head?, u ∉ expected) (s : JsString) :
    startsWith (s ++ tail) expected = startsWith s expected := by
  induction expected generalizing s with
  | nil => simp [startsWith]
  | cons c expected ih =>
      have later := ih fun u member inside => outside u member (List.mem_cons_of_mem c inside)
      cases s with
      | nil =>
          cases tail with
          | nil => rfl
          | cons u rest =>
              have other : ¬ c = u := by
                rintro rfl
                exact outside c rfl List.mem_cons_self
              show (c == u && _) = false
              rw [beq_eq_false_iff_ne.mpr other, Bool.false_and]
      | cons u s =>
          show (c == u && startsWith (s ++ tail) expected) = (c == u && startsWith s expected)
          rw [later s]

private theorem literal_local {tail expected : JsString}
    (outside : ∀ u ∈ tail.head?, u ∉ expected) (s : JsString) :
    literal expected (s ++ tail) = (literal expected s).map (· ++ tail) := by
  unfold literal
  rw [startsWith_local outside]
  by_cases begins : startsWith s expected = true
  · obtain ⟨rest, rfl⟩ := (startsWith_iff s expected).mp begins
    rw [if_pos begins, if_pos begins, List.append_assoc, List.drop_left, List.drop_left]
    rfl
  · rw [if_neg begins, if_neg begins]
    rfl

private theorem someDigits_local {tail : JsString}
    (outside : ∀ u ∈ tail.head?, isDigit u = false) (s : JsString) :
    someDigits (s ++ tail) = (someDigits s).map fun found => (found.1, found.2 ++ tail) := by
  have alone : tail.takeWhile isDigit = [] ∧ tail.dropWhile isDigit = tail := by
    cases tail with
    | nil => exact ⟨rfl, rfl⟩
    | cons u rest =>
        have other := outside u rfl
        exact ⟨List.takeWhile_cons_of_neg (by simp [other]),
          List.dropWhile_cons_of_neg (by simp [other])⟩
  have taken : (s ++ tail).takeWhile isDigit = s.takeWhile isDigit := by
    rw [List.takeWhile_append]
    split
    · next full =>
        rw [alone.1, List.append_nil]
        exact ((List.takeWhile_prefix isDigit).eq_of_length full).symm
    · rfl
  have left : (s ++ tail).dropWhile isDigit = s.dropWhile isDigit ++ tail := by
    rw [List.dropWhile_append]
    split
    · next full =>
        rw [alone.2, List.isEmpty_iff.mp full]
        rfl
    · rfl
  unfold someDigits
  rw [taken, left]
  split <;> rfl

def Foreign (u : CodeUnit) : Prop := u ∉ js "AC-.E" ∧ isDigit u = false

theorem criterionHead_local {tail : JsString} (outside : ∀ u ∈ tail.head?, Foreign u)
    (s : JsString) :
    criterionHead (s ++ tail) = (criterionHead s).map fun found => (found.1, found.2 ++ tail) := by
  have part : ∀ expected : JsString, (∀ u ∈ expected, u ∈ js "AC-.E") →
      ∀ u ∈ tail.head?, u ∉ expected := by
    intro expected inside u member here
    exact (outside u member).1 (inside u here)
  have head := literal_local (part (js "AC-") (by decide))
  have dot := literal_local (part (js ".") (by decide))
  have edge := startsWith_local (part (js "E") (by decide))
  have number := someDigits_local fun u member => (outside u member).2
  have edges : ∀ rest : JsString,
      (if startsWith (rest ++ tail) (js "E") then (rest ++ tail).drop 1 else rest ++ tail) =
        (if startsWith rest (js "E") then rest.drop 1 else rest) ++ tail := by
    intro rest
    rw [edge]
    split
    · next begins =>
        obtain ⟨rest, rfl⟩ := (startsWith_iff rest _).mp begins
        rfl
    · rfl
  unfold criterionHead
  rw [head]
  cases literal (js "AC-") s with
  | none => rfl
  | some rest =>
      show (someDigits (rest ++ tail)).bind _ = Option.map _ ((someDigits rest).bind _)
      rw [number]
      cases someDigits rest with
      | none => rfl
      | some found =>
          show (literal (js ".") (found.2 ++ tail)).bind _ =
            Option.map _ ((literal (js ".") found.2).bind _)
          rw [dot]
          cases literal (js ".") found.2 with
          | none => rfl
          | some rest =>
              show (someDigits (rest ++ tail)).bind _ = Option.map _ ((someDigits rest).bind _)
              rw [number]
              cases someDigits rest with
              | none => rfl
              | some found' =>
                  show (literal (js ".") (found'.2 ++ tail)).bind _ =
                    Option.map _ ((literal (js ".") found'.2).bind _)
                  rw [dot]
                  cases literal (js ".") found'.2 with
                  | none => rfl
                  | some rest =>
                      show (someDigits _).bind _ = Option.map _ ((someDigits _).bind _)
                      rw [edges, number, edge]
                      cases someDigits (if startsWith rest (js "E") then rest.drop 1 else rest)
                      <;> rfl

private theorem Stops.head {tail : JsString} (stops : Stops tail) :
    ∀ u ∈ tail.head?, u = lineFeed ∨ u = carriageReturn := by
  intro u member
  rcases stops with rfl | ⟨v, rest, rfl, feed⟩
  · cases member
  · obtain rfl : v = u := by simpa using member
    rcases (Bool.or_eq_true _ _).mp feed with same | same
    · exact Or.inl (eq_of_beq same)
    · exact Or.inr (eq_of_beq same)

private theorem Stops.outside {tail : JsString} (stops : Stops tail) {p : CodeUnit → Prop}
    (feed : p lineFeed) (carriage : p carriageReturn) : ∀ u ∈ tail.head?, p u := by
  intro u member
  rcases stops.head u member with rfl | rfl
  · exact feed
  · exact carriage

private theorem boxHead_dash {s : JsString} {box : CodeUnit} {criterionId : JsString}
    (found : boxHead s = some (box, criterionId)) :
    ∃ rest, s = unit '-' :: unit ' ' :: unit '[' :: box :: rest ∧
      (box = unit ' ' ∨ box = unit 'x') := by
  unfold boxHead at found
  split at found
  · next dash space bracket shown rest =>
      split at found
      · next begins =>
          obtain ⟨rfl, rfl, rfl, allowed⟩ := begins
          have same : shown = box := by
            simp only [bind, Option.bind_eq_some_iff] at found
            obtain ⟨_, _, _, _, _, _, found⟩ := found
            split at found
            · exact congrArg Prod.fst (Option.some.inj found)
            · cases found
          subst same
          exact ⟨rest, rfl, allowed⟩
      · cases found
  · cases found

private theorem boxHead_short {tail s : JsString} (stops : Stops tail) (filled : s ≠ [])
    (short : s.length < 4) : boxHead (s ++ tail) = none := by
  have plain : ∀ u, isBreak u = true → u ≠ unit ' ' ∧ u ≠ unit '[' ∧ u ≠ unit 'x' := by
    intro u feed
    refine ⟨?_, ?_, ?_⟩ <;> rintro rfl <;> revert feed <;> decide
  rcases found : boxHead (s ++ tail) with _ | ⟨box, criterionId⟩
  · rfl
  obtain ⟨rest, same, allowed⟩ := boxHead_dash found
  rcases stops with rfl | ⟨u, more, rfl, feed⟩
  · rw [List.append_nil] at same
    rw [same] at short
    simp only [List.length_cons] at short
    omega
  obtain ⟨space, bracket, filledBox⟩ := plain u feed
  match s, filled, short, same with
  | [_], _, _, same => exact absurd (by simpa using same : _ ∧ u = unit ' ' ∧ _).2.1 space
  | [_, _], _, _, same =>
      exact absurd (by simpa using same : _ ∧ _ ∧ u = unit '[' ∧ _).2.2.1 bracket
  | [_, _, _], _, _, same =>
      have shown : u = box := (by simpa using same : _ ∧ _ ∧ _ ∧ u = box ∧ _).2.2.2.1
      subst shown
      rcases allowed with blank | cross
      · exact absurd blank space
      · exact absurd cross filledBox

theorem boxHead_stops {tail : JsString} (stops : Stops tail) {s : JsString} (filled : s ≠ []) :
    boxHead (s ++ tail) = boxHead s := by
  have close := literal_local (stops.outside (p := (· ∉ js "] ")) (by decide) (by decide))
  have colon := literal_local (stops.outside (p := (· ∉ js ": ")) (by decide) (by decide))
  have head := criterionHead_local
    (stops.outside (p := Foreign) ⟨by decide, by decide⟩ ⟨by decide, by decide⟩)
  have next : ∀ rest : JsString,
      ((rest ++ tail).head?.map fun u => !isBreak u).getD false =
        (rest.head?.map fun u => !isBreak u).getD false := by
    intro rest
    cases rest with
    | nil =>
        rcases stops with rfl | ⟨u, more, rfl, feed⟩
        · rfl
        · show (!isBreak u) = false
          rw [feed]
          rfl
    | cons u rest => rfl
  by_cases short : s.length < 4
  · have alone := boxHead_short (Or.inl rfl) filled short
    rw [List.append_nil] at alone
    rw [boxHead_short stops filled short, alone]
  match s, short with
  | dash :: space :: bracket :: box :: rest, _ =>
      show boxHead (dash :: space :: bracket :: box :: (rest ++ tail)) = _
      unfold boxHead
      simp only [bind, close]
      split
      · cases literal (js "] ") rest with
        | none => rfl
        | some rest =>
            simp only [Option.map_some, Option.bind_some, head]
            cases criterionHead rest with
            | none => rfl
            | some found =>
                simp only [Option.map_some, Option.bind_some, colon]
                cases literal (js ": ") found.2 with
                | none => rfl
                | some rest => simp only [Option.map_some, Option.bind_some, next]
      · rfl
  | [], short => exact absurd (show 0 < 4 by omega) short
  | [_], short => exact absurd (show 1 < 4 by omega) short
  | [_, _], short => exact absurd (show 2 < 4 by omega) short
  | [_, _, _], short => exact absurd (show 3 < 4 by omega) short

end Locality

section Lines

variable {outcomes : Outcomes}

/-- A match in progress has its box in what is left of the line. -/
def Scan.Fits (scan : Scan) (line : JsString) : Prop :=
  ∀ left criterionId, scan = .matched left criterionId → left < line.length

theorem Scan.fits_start (line : JsString) : Scan.Fits .start line := by
  intro left criterionId same
  cases same

private theorem after_stops {tail : JsString} (stops : Stops tail) (scan : Scan) (u : CodeUnit)
    (line : JsString) : scan.after u (line ++ tail) = scan.after u line := by
  cases scan with
  | start =>
      have head := boxHead_stops stops (List.cons_ne_nil u line)
      rw [List.cons_append] at head
      rw [Scan.after, Scan.after, head]
  | inside => rfl
  | matched left criterionId => cases left <;> rfl
  | copying => rfl

private theorem fits_after {scan : Scan} {u : CodeUnit} {line : JsString}
    (fits : scan.Fits (u :: line)) : (scan.after u line).Fits line := by
  intro left criterionId same
  cases scan with
  | start =>
      rw [Scan.after] at same
      split at same
      · next box found head =>
          obtain ⟨rest, shape, -⟩ := boxHead_dash head
          injection shape with _ shape
          injection same with count
          rw [shape, ← count]
          simp only [List.length_cons]
          omega
      · split at same <;> cases same
  | inside =>
      rw [Scan.after] at same
      split at same <;> cases same
  | matched before other =>
      cases before with
      | zero => cases same
      | succ before =>
          injection same with count
          have room := fits (before + 1) other rfl
          rw [List.length_cons] at room
          omega
  | copying =>
      rw [Scan.after] at same
      split at same <;> cases same

private theorem replaceBoxes_append (outcomes : Outcomes) {tail : JsString} (stops : Stops tail) {line : JsString}
    {scan : Scan} (fits : scan.Fits line) :
    ∃ last : Scan, last.Fits [] ∧ replaceBoxes outcomes scan (line ++ tail) =
      replaceBoxes outcomes scan line ++ replaceBoxes outcomes last tail := by
  induction line generalizing scan with
  | nil => exact ⟨scan, fits, rfl⟩
  | cons u line ih =>
      obtain ⟨last, free, equal⟩ := ih (fits_after fits)
      refine ⟨last, free, ?_⟩
      rw [List.cons_append, replaceBoxes, replaceBoxes, after_stops stops, equal, List.cons_append]

private theorem boxHead_break {u : CodeUnit} (feed : isBreak u = true) (rest : JsString) :
    boxHead (u :: rest) = none := by
  rcases found : boxHead (u :: rest) with _ | ⟨box, criterionId⟩
  · rfl
  · obtain ⟨_, same, -⟩ := boxHead_dash found
    injection same with same
    rw [same] at feed
    exact absurd feed (by decide)

private theorem replaceBoxes_break {scan : Scan} (free : scan.Fits []) {u : CodeUnit}
    (feed : isBreak u = true) (rest : JsString) :
    replaceBoxes outcomes scan (u :: rest) = u :: replaceBoxes outcomes .start rest := by
  have terminator : isLineTerminator u = true := by
    rcases (Bool.or_eq_true _ _).mp feed with same | same
    · rw [eq_of_beq same]
      decide
    · rw [eq_of_beq same]
      decide
  cases scan with
  | start =>
      have next : Scan.after .start u rest = .start := by
        rw [Scan.after, boxHead_break feed]
        exact if_pos terminator
      rw [replaceBoxes, next]
      rfl
  | inside =>
      have next : Scan.after .inside u rest = .start := if_pos terminator
      rw [replaceBoxes, next]
      rfl
  | matched left criterionId => exact absurd (free left criterionId rfl) (Nat.not_lt_zero left)
  | copying =>
      have next : Scan.after .copying u rest = .start := if_pos feed
      rw [replaceBoxes, next]
      rfl

theorem replaceBoxes_joined {all : List Piece} (broken : Broken all) :
    replaceBoxes outcomes .start (joined all) =
      joined (all.map fun piece => ⟨replaceBoxes outcomes .start piece.line, piece.ending⟩) := by
  have feedBreak : isBreak lineFeed = true := by decide
  have returnBreak : isBreak carriageReturn = true := by decide
  induction all with
  | nil => rfl
  | cons piece rest ih =>
      have ending := broken.ending_head List.mem_cons_self
      have later : rest = [] ∨ Broken rest := by
        cases rest with
        | nil => exact Or.inl rfl
        | cons next rest => exact Or.inr broken.2.2
      have tail : replaceBoxes outcomes .start (joined rest) = joined (rest.map fun piece =>
          ⟨replaceBoxes outcomes .start piece.line, piece.ending⟩) := by
        rcases later with rfl | broken
        · rfl
        · exact ih broken
      rw [List.map_cons, joined_cons, joined_cons, ← tail]
      rcases ending with none | feed | crlf
      · have last : rest = [] := by
          cases rest with
          | nil => rfl
          | cons next rest =>
              rcases broken.2.1 with crlf | ⟨feed, -⟩
              · rw [none] at crlf
                cases crlf
              · rw [none] at feed
                cases feed
        subst last
        rw [none]
        show replaceBoxes outcomes .start (piece.line ++ []) = _ ++ []
        rw [List.append_nil, List.append_nil]
      · rw [feed]
        have stops : Stops ([lineFeed] ++ joined rest) := Or.inr ⟨_, _, rfl, feedBreak⟩
        obtain ⟨last, free, equal⟩ :=
          replaceBoxes_append outcomes stops (Scan.fits_start piece.line)
        rw [equal]
        exact congrArg _ (replaceBoxes_break free feedBreak _)
      · rw [crlf]
        have stops : Stops ([carriageReturn, lineFeed] ++ joined rest) :=
          Or.inr ⟨_, _, rfl, returnBreak⟩
        obtain ⟨last, free, equal⟩ :=
          replaceBoxes_append outcomes stops (Scan.fits_start piece.line)
        rw [equal]
        refine congrArg _ ?_
        show replaceBoxes outcomes last (carriageReturn :: lineFeed :: joined rest) = _
        rw [replaceBoxes_break free returnBreak,
          replaceBoxes_break (Scan.fits_start []) feedBreak]
        rfl

end Lines

end Kratos.Acceptance
