/- source: none(language runtime)
   digest: The lines of a text with the breaks that end them, and positions inside a joined text. -/

import Kratos.Foundation.Lines

set_option autoImplicit false

namespace Kratos.Foundation.Pieces

open Foundation.Text
open Foundation.Lines (lineFeed terminated)

def carriageReturn : CodeUnit := 0x0D

/-- One line of a text and the break that ends it; the last line has an empty break. -/
structure Piece where
  line : JsString
  ending : JsString
deriving DecidableEq, Repr

def Piece.text (piece : Piece) : JsString := piece.line ++ piece.ending

/-- A unit before the first of the pieces that follow it. -/
def prepend (u : CodeUnit) : List Piece → List Piece
  | [] => [⟨[u], []⟩]
  | piece :: rest =>
      if u = carriageReturn ∧ piece.line = [] ∧ piece.ending = [lineFeed] then
        ⟨[], [carriageReturn, lineFeed]⟩ :: rest
      else ⟨u :: piece.line, piece.ending⟩ :: rest

/-- `text.split(/\r?\n/)`, the breaks kept. -/
def pieces : JsString → List Piece
  | [] => [⟨[], []⟩]
  | u :: rest => if u = lineFeed then ⟨[], [lineFeed]⟩ :: pieces rest else prepend u (pieces rest)

/-- `text.split(/\r?\n/)`. -/
def splitBreaks (text : JsString) : List JsString := (pieces text).map Piece.line

def joined (all : List Piece) : JsString := all.flatMap Piece.text

def Broken : List Piece → Prop
  | [] => False
  | [piece] => lineFeed ∉ piece.line ∧ piece.ending = []
  | piece :: rest =>
      lineFeed ∉ piece.line ∧
        (piece.ending = [carriageReturn, lineFeed] ∨
          piece.ending = [lineFeed] ∧ piece.line.getLast? ≠ some carriageReturn) ∧
        Broken rest

theorem joined_cons (piece : Piece) (rest : List Piece) :
    joined (piece :: rest) = piece.line ++ (piece.ending ++ joined rest) := by
  rw [joined, List.flatMap_cons, Piece.text, List.append_assoc, ← joined]

private theorem prepend_joined (u : CodeUnit) (all : List Piece) :
    joined (prepend u all) = u :: joined all := by
  cases all with
  | nil => rfl
  | cons piece rest =>
      rw [prepend]
      split
      · next crlf =>
          obtain ⟨rfl, bare, feed⟩ := crlf
          rw [joined_cons, joined_cons, bare, feed]
          rfl
      · rw [joined_cons, joined_cons]
        rfl

theorem joined_pieces (text : JsString) : joined (pieces text) = text := by
  induction text with
  | nil => rfl
  | cons u rest ih =>
      rw [pieces]
      split
      · next feed =>
          rw [joined_cons, ih, feed]
          rfl
      · rw [prepend_joined, ih]

theorem Broken.ne_nil {all : List Piece} (broken : Broken all) : all ≠ [] := by
  rintro rfl
  exact broken

private theorem broken_cons {piece : Piece} {rest : List Piece} (filled : rest ≠ []) :
    Broken (piece :: rest) ↔
      lineFeed ∉ piece.line ∧
        (piece.ending = [carriageReturn, lineFeed] ∨
          piece.ending = [lineFeed] ∧ piece.line.getLast? ≠ some carriageReturn) ∧
        Broken rest := by
  cases rest with
  | nil => exact absurd rfl filled
  | cons next rest => exact Iff.rfl

private theorem feed_not_mem_cons {u : CodeUnit} {line : JsString} (other : u ≠ lineFeed)
    (plain : lineFeed ∉ line) : lineFeed ∉ u :: line := by
  intro member
  rcases List.mem_cons.mp member with same | inside
  · exact other same.symm
  · exact plain inside

private theorem broken_prepend {u : CodeUnit} {all : List Piece} (other : u ≠ lineFeed)
    (broken : Broken all) : Broken (prepend u all) := by
  obtain ⟨piece, rest, rfl⟩ := List.exists_cons_of_ne_nil broken.ne_nil
  rw [prepend]
  by_cases last : rest = []
  · subst last
    obtain ⟨plain, ending⟩ := broken
    rw [if_neg]
    · exact ⟨feed_not_mem_cons other plain, ending⟩
    · rintro ⟨-, -, feed⟩
      rw [ending] at feed
      cases feed
  · obtain ⟨plain, ending, later⟩ := (broken_cons last).mp broken
    split
    · exact (broken_cons last).mpr ⟨List.not_mem_nil, Or.inl rfl, later⟩
    · next split =>
        refine (broken_cons last).mpr ⟨feed_not_mem_cons other plain, ?_, later⟩
        rcases ending with crlf | ⟨feed, open'⟩
        · exact Or.inl crlf
        · refine Or.inr ⟨feed, ?_⟩
          intro closed
          by_cases bare : piece.line = []
          · rw [bare] at closed
            exact split ⟨Option.some.inj closed, bare, feed⟩
          · obtain ⟨v, line, same⟩ := List.exists_cons_of_ne_nil bare
            rw [same, List.getLast?_cons_cons, ← same] at closed
            exact open' closed

theorem broken_pieces (text : JsString) : Broken (pieces text) := by
  induction text with
  | nil => exact ⟨List.not_mem_nil, rfl⟩
  | cons u rest ih =>
      rw [pieces]
      split
      · refine (broken_cons ih.ne_nil).mpr ⟨List.not_mem_nil, Or.inr ⟨rfl, ?_⟩, ih⟩
        intro closed
        cases closed
      · next other => exact broken_prepend other ih

private theorem pieces_last {line : JsString} (plain : lineFeed ∉ line) :
    pieces line = [⟨line, []⟩] := by
  induction line with
  | nil => rfl
  | cons u line ih =>
      have other : u ≠ lineFeed := fun same => plain (same ▸ List.mem_cons_self)
      rw [pieces, if_neg other, ih fun member => plain (List.mem_cons_of_mem _ member), prepend,
        if_neg]
      rintro ⟨-, -, feed⟩
      cases feed

private theorem pieces_line {line ending : JsString} {rest : List Piece} {text : JsString}
    (plain : lineFeed ∉ line)
    (ends : ending = [carriageReturn, lineFeed] ∨
      ending = [lineFeed] ∧ line.getLast? ≠ some carriageReturn)
    (later : pieces text = rest) :
    pieces (line ++ (ending ++ text)) = ⟨line, ending⟩ :: rest := by
  have distinct : carriageReturn ≠ lineFeed := by decide
  induction line with
  | nil =>
      rcases ends with rfl | ⟨rfl, -⟩
      · show pieces (carriageReturn :: lineFeed :: text) = _
        rw [pieces, if_neg distinct, pieces, if_pos rfl, prepend, if_pos ⟨rfl, rfl, rfl⟩, later]
      · show pieces (lineFeed :: text) = _
        rw [pieces, if_pos rfl, later]
  | cons u line ih =>
      have other : u ≠ lineFeed := fun same => plain (same ▸ List.mem_cons_self)
      have inner := ih fun member => plain (List.mem_cons_of_mem _ member)
      rw [List.cons_append, pieces, if_neg other, inner, prepend, if_neg]
      · rintro ⟨rfl, rfl, feed⟩
        rcases ends with rfl | ⟨-, open'⟩
        · cases feed
        · exact open' rfl
      · rcases ends with crlf | ⟨feed, open'⟩
        · exact Or.inl crlf
        · refine Or.inr ⟨feed, ?_⟩
          intro closed
          cases line with
          | nil => cases closed
          | cons v line =>
              rw [List.getLast?_cons_cons] at open'
              exact open' closed

theorem pieces_joined {all : List Piece} (broken : Broken all) : pieces (joined all) = all := by
  induction all with
  | nil => exact absurd rfl broken.ne_nil
  | cons piece rest ih =>
      by_cases last : rest = []
      · subst last
        obtain ⟨plain, ending⟩ := broken
        have whole : joined [piece] = piece.line := by
          rw [joined_cons, ending]
          exact List.append_nil _
        rw [whole, pieces_last plain, ← ending]
      · obtain ⟨plain, ending, later⟩ := (broken_cons last).mp broken
        rw [joined_cons, pieces_line plain ending (ih later)]

private theorem broken_terminated {lines : List JsString}
    (plain : ∀ line ∈ lines, lineFeed ∉ line ∧ line.getLast? ≠ some carriageReturn) :
    Broken (lines.map (fun line => ⟨line, [lineFeed]⟩) ++ [⟨[], []⟩]) := by
  induction lines with
  | nil => exact ⟨List.not_mem_nil, rfl⟩
  | cons line lines ih =>
      have later := ih fun other member => plain other (List.mem_cons_of_mem _ member)
      obtain ⟨feed, open'⟩ := plain line List.mem_cons_self
      rw [List.map_cons, List.cons_append]
      exact (broken_cons later.ne_nil).mpr ⟨feed, Or.inr ⟨rfl, open'⟩, later⟩

theorem splitBreaks_terminated {lines : List JsString}
    (plain : ∀ line ∈ lines, lineFeed ∉ line ∧ line.getLast? ≠ some carriageReturn) :
    splitBreaks (terminated lines) = lines ++ [[]] := by
  have whole : terminated lines =
      joined (lines.map (fun line => ⟨line, [lineFeed]⟩) ++ [⟨[], []⟩]) := by
    rw [joined, List.flatMap_append, List.flatMap_map]
    exact (List.append_nil _).symm
  rw [splitBreaks, whole, pieces_joined (broken_terminated plain), List.map_append, List.map_map]
  exact congrArg (· ++ [[]]) (List.map_id _)

/-- A line feed takes a carriage return before it into its break. -/
def stripReturn (line : JsString) : JsString :=
  if line.getLast? = some carriageReturn then line.dropLast else line

private theorem fed_piece {line : JsString} (plain : lineFeed ∉ line) :
    ∃ ending, line ++ [lineFeed] = stripReturn line ++ ending ∧ lineFeed ∉ stripReturn line ∧
      (ending = [carriageReturn, lineFeed] ∨
        ending = [lineFeed] ∧ (stripReturn line).getLast? ≠ some carriageReturn) := by
  unfold stripReturn
  split
  · next closed =>
      have shape : line.dropLast ++ [carriageReturn] = line :=
        List.dropLast_append_getLast? _ closed
      refine ⟨[carriageReturn, lineFeed], ?_, ?_, Or.inl rfl⟩
      · conv_lhs => rw [← shape]
        rw [List.append_assoc]
        rfl
      · intro member
        exact plain (List.mem_of_mem_dropLast member)
  · next open' => exact ⟨[lineFeed], rfl, plain, Or.inr ⟨rfl, open'⟩⟩

theorem splitBreaks_fed {lines : List JsString} (plain : ∀ line ∈ lines, lineFeed ∉ line)
    {last : JsString} (final : lineFeed ∉ last) :
    splitBreaks ((lines.flatMap fun line => line ++ [lineFeed]) ++ last) =
      lines.map stripReturn ++ [last] := by
  induction lines with
  | nil =>
      rw [List.flatMap_nil, List.nil_append, splitBreaks, pieces_last final]
      rfl
  | cons line lines ih =>
      obtain ⟨ending, shape, feed, breaks⟩ := fed_piece (plain line List.mem_cons_self)
      have later := ih fun other member => plain other (List.mem_cons_of_mem _ member)
      rw [List.flatMap_cons, shape, List.append_assoc, List.append_assoc, splitBreaks,
        pieces_line feed breaks rfl, List.map_cons]
      exact congrArg (stripReturn line :: ·) later

/-- Lines ended by a carriage return and a line feed, and what follows the last of them. -/
theorem splitBreaks_returned {lines : List JsString} (plain : ∀ line ∈ lines, lineFeed ∉ line)
    {last : JsString} (final : lineFeed ∉ last) :
    splitBreaks ((lines.flatMap fun line => line ++ [carriageReturn, lineFeed]) ++ last) =
      lines ++ [last] := by
  induction lines with
  | nil =>
      rw [List.flatMap_nil, List.nil_append, splitBreaks, pieces_last final]
      rfl
  | cons line lines ih =>
      have later := ih fun other member => plain other (List.mem_cons_of_mem _ member)
      rw [List.flatMap_cons, List.append_assoc, List.append_assoc, splitBreaks,
        pieces_line (plain line List.mem_cons_self) (Or.inl rfl) rfl]
      exact congrArg (line :: ·) later

private theorem prepend_append {u : CodeUnit} {front : List Piece} (filled : front ≠ [])
    (back : List Piece) : prepend u (front ++ back) = prepend u front ++ back := by
  obtain ⟨piece, rest, rfl⟩ := List.exists_cons_of_ne_nil filled
  rw [List.cons_append, prepend, prepend]
  split <;> rfl

private theorem pieces_append {before : JsString} (ends : before.getLast? = some lineFeed) :
    ∃ front, front ≠ [] ∧ pieces before = front ++ [⟨[], []⟩] ∧
      ∀ after, pieces (before ++ after) = front ++ pieces after := by
  induction before with
  | nil => cases ends
  | cons u rest ih =>
      by_cases last : rest = []
      · subst last
        obtain rfl : u = lineFeed := Option.some.inj ends
        refine ⟨[⟨[], [lineFeed]⟩], List.cons_ne_nil _ _, rfl, ?_⟩
        intro after
        exact if_pos rfl
      · have later : rest.getLast? = some lineFeed := by
          obtain ⟨v, more, rfl⟩ := List.exists_cons_of_ne_nil last
          rwa [List.getLast?_cons_cons] at ends
        obtain ⟨front, filled, alone, extended⟩ := ih later
        by_cases feed : u = lineFeed
        · refine ⟨⟨[], [lineFeed]⟩ :: front, List.cons_ne_nil _ _, ?_, ?_⟩
          · rw [pieces, if_pos feed, alone, List.cons_append]
          · intro after
            rw [List.cons_append, pieces, if_pos feed, extended, List.cons_append]
        · refine ⟨prepend u front, ?_, ?_, ?_⟩
          · obtain ⟨piece, more, rfl⟩ := List.exists_cons_of_ne_nil filled
            rw [prepend]
            split <;> exact List.cons_ne_nil _ _
          · rw [pieces, if_neg feed, alone, prepend_append filled]
          · intro after
            rw [List.cons_append, pieces, if_neg feed, extended, prepend_append filled]

theorem splitBreaks_append {before : JsString} (ends : before.getLast? = some lineFeed) :
    ∃ lines, splitBreaks before = lines ++ [[]] ∧
      ∀ after, splitBreaks (before ++ after) = lines ++ splitBreaks after := by
  obtain ⟨front, -, alone, extended⟩ := pieces_append ends
  refine ⟨front.map Piece.line, ?_, ?_⟩
  · rw [splitBreaks, alone, List.map_append]
    rfl
  · intro after
    rw [splitBreaks, extended, List.map_append, splitBreaks]

theorem Broken.relined {all edited : List Piece} (broken : Broken all)
    (same : List.Forall₂
      (fun piece next => next.ending = piece.ending ∧
        (lineFeed ∉ piece.line → lineFeed ∉ next.line) ∧
        next.line.getLast? = piece.line.getLast?) all edited) : Broken edited := by
  induction same with
  | nil => exact broken
  | @cons piece next rest others head tail ih =>
      obtain ⟨ending, feed, last⟩ := head
      by_cases final : rest = []
      · subst final
        cases tail
        exact ⟨feed broken.1, ending.trans broken.2⟩
      · obtain ⟨plain, breaks, later⟩ := (broken_cons final).mp broken
        have filled : others ≠ [] := by
          rintro rfl
          cases tail
          exact final rfl
        refine (broken_cons filled).mpr ⟨feed plain, ?_, ih later⟩
        rwa [ending, last]

theorem Broken.ending_head {all : List Piece} (broken : Broken all) {piece : Piece}
    (member : piece ∈ all) :
    piece.ending = [] ∨ piece.ending = [lineFeed] ∨
      piece.ending = [carriageReturn, lineFeed] := by
  induction all with
  | nil => cases member
  | cons first rest ih =>
      by_cases final : rest = []
      · subst final
        rw [List.mem_singleton] at member
        subst member
        exact Or.inl broken.2
      · obtain ⟨-, breaks, later⟩ := (broken_cons final).mp broken
        rcases List.mem_cons.mp member with rfl | inside
        · rcases breaks with crlf | ⟨feed, -⟩
          · exact Or.inr (Or.inr crlf)
          · exact Or.inr (Or.inl feed)
        · exact ih later inside

section Offsets

variable {α : Type}

/-- Where the `k`-th of some lists begins in their concatenation. -/
def offset : List (List α) → Nat → Nat
  | [], _ => 0
  | _, 0 => 0
  | first :: rest, k + 1 => first.length + offset rest k

theorem getElem?_flatten {all : List (List α)} {k j : Nat} {one : List α}
    (at_k : all[k]? = some one) (inside : j < one.length) :
    all.flatten[offset all k + j]? = one[j]? := by
  induction all generalizing k with
  | nil => cases at_k
  | cons first rest ih =>
      cases k with
      | zero =>
          have same : first = one := by simpa using at_k
          subst same
          show (first ++ rest.flatten)[0 + j]? = _
          rw [Nat.zero_add, List.getElem?_append_left inside]
      | succ k =>
          have later : rest[k]? = some one := by simpa using at_k
          show (first ++ rest.flatten)[first.length + offset rest k + j]? = _
          rw [List.getElem?_append_right (by omega), ← ih later]
          congr 1
          omega

theorem exists_offset {all : List (List α)} {i : Nat} (inside : i < all.flatten.length) :
    ∃ k j one, all[k]? = some one ∧ j < one.length ∧ i = offset all k + j := by
  induction all generalizing i with
  | nil => exact absurd inside (Nat.not_lt_zero i)
  | cons first rest ih =>
      rw [List.flatten_cons, List.length_append] at inside
      by_cases here : i < first.length
      · refine ⟨0, i, first, rfl, here, ?_⟩
        show i = 0 + i
        omega
      · obtain ⟨k, j, one, at_k, short, position⟩ := ih (i := i - first.length) (by omega)
        refine ⟨k + 1, j, one, by simpa using at_k, short, ?_⟩
        show i = first.length + offset rest k + j
        omega

theorem offset_unique {all : List (List α)} {k j k' j' : Nat} {one two : List α}
    (left : all[k]? = some one) (right : all[k']? = some two)
    (short : j < one.length) (short' : j' < two.length)
    (same : offset all k + j = offset all k' + j') : k = k' ∧ j = j' := by
  induction all generalizing k k' with
  | nil => cases left
  | cons first rest ih =>
      cases k with
      | zero =>
          have head : first = one := by simpa using left
          subst head
          cases k' with
          | zero => exact ⟨rfl, by simpa [offset] using same⟩
          | succ k' =>
              have shift : offset (first :: rest) (k' + 1) = first.length + offset rest k' := rfl
              have zero : offset (first :: rest) 0 = 0 := rfl
              omega
      | succ k =>
          cases k' with
          | zero =>
              have head : first = two := by simpa using right
              subst head
              have shift : offset (first :: rest) (k + 1) = first.length + offset rest k := rfl
              have zero : offset (first :: rest) 0 = 0 := rfl
              omega
          | succ k' =>
              have shift : offset (first :: rest) (k + 1) = first.length + offset rest k := rfl
              have shift' : offset (first :: rest) (k' + 1) = first.length + offset rest k' := rfl
              obtain ⟨equal, equal'⟩ :=
                ih (by simpa using left) (by simpa using right) (by omega)
              exact ⟨congrArg Nat.succ equal, equal'⟩

theorem offset_congr {all other : List (List α)}
    (same : List.Forall₂ (fun one two => one.length = two.length) all other) (k : Nat) :
    offset all k = offset other k := by
  induction same generalizing k with
  | nil => rfl
  | cons head _ ih =>
      cases k with
      | zero => rfl
      | succ k => exact congrArg₂ (· + ·) head (ih k)

end Offsets

end Kratos.Foundation.Pieces
