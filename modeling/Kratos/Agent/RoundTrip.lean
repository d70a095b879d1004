/- source: domain/agent/extract.ts
   digest: Line endings do not change what is extracted, and a rendered object is read back. -/

import Kratos.Agent.Extract
import Kratos.Schema.PlainText
import Mathlib.Data.List.Chain

set_option autoImplicit false

namespace Kratos.Agent

open Foundation.Text Foundation.JsonText
open Foundation.Lines (lineFeed)
open Foundation.Splitting Schema

section Endings

/-- A line with a carriage return at its end. -/
def withReturn (line : JsString) : JsString :=
  if line.getLast? = some carriageReturn then line else line ++ [carriageReturn]

/-- The reply with a carriage return before every line feed that has none. -/
def crlfForm (reply : JsString) : JsString :=
  joinLines ((reply.splitOn lineFeed).dropLast.map withReturn ++
    [(reply.splitOn lineFeed).getLastD []])

theorem stripCarriageReturn_concat (line : JsString) :
    stripCarriageReturn (line ++ [carriageReturn]) = line := by
  rw [stripCarriageReturn, List.getLast?_concat, if_pos rfl, List.dropLast_concat]

theorem stripCarriageReturn_withReturn (line : JsString) :
    stripCarriageReturn (withReturn line) = stripCarriageReturn line := by
  by_cases ends : line.getLast? = some carriageReturn
  · rw [withReturn, if_pos ends]
  · rw [withReturn, if_neg ends, stripCarriageReturn_concat, stripCarriageReturn, if_neg ends]

theorem withReturn_plain {line : JsString} (plain : lineFeed ∉ line) :
    lineFeed ∉ withReturn line := by
  rw [withReturn]
  split
  · exact plain
  · rw [List.mem_append, not_or]
    exact ⟨plain, by decide⟩

theorem replyLines_crlfForm (reply : JsString) : replyLines (crlfForm reply) = replyLines reply := by
  have filled : reply.splitOn lineFeed ≠ [] := List.splitOn_ne_nil lineFeed reply
  have parts : (reply.splitOn lineFeed).dropLast ++ [(reply.splitOn lineFeed).getLastD []] =
      reply.splitOn lineFeed := by
    rw [List.getLastD_eq_getLast?, List.getLast?_eq_some_getLast filled, Option.getD_some,
      List.dropLast_concat_getLast filled]
  have plain : ∀ line ∈ (reply.splitOn lineFeed).dropLast.map withReturn ++
      [(reply.splitOn lineFeed).getLastD []], lineFeed ∉ line := by
    have each : ∀ line ∈ (reply.splitOn lineFeed).dropLast ++
        [(reply.splitOn lineFeed).getLastD []], lineFeed ∉ line := by
      rw [parts]
      exact fun line member => not_mem_of_mem_splitOn member
    intro line member
    rcases List.mem_append.mp member with early | last
    · obtain ⟨source, held, rfl⟩ := List.mem_map.mp early
      exact withReturn_plain (each source (List.mem_append_left _ held))
    · exact each line (List.mem_append_right _ last)
  have split : (crlfForm reply).splitOn lineFeed =
      (reply.splitOn lineFeed).dropLast.map withReturn ++
        [(reply.splitOn lineFeed).getLastD []] :=
    List.splitOn_intercalate lineFeed plain (List.append_ne_nil_of_right_ne_nil _ (by simp))
  have same : (stripCarriageReturn ∘ withReturn) = stripCarriageReturn :=
    funext stripCarriageReturn_withReturn
  rw [replyLines, split, List.map_append, List.map_map, same, ← List.map_append, parts, replyLines]

theorem extractAgentBlock_congr {reply other : JsString}
    (same : replyLines reply = replyLines other) :
    extractAgentBlock reply = extractAgentBlock other := by
  simp only [extractAgentBlock, same]

theorem extractAgentBlock_crlfForm (reply : JsString) :
    extractAgentBlock (crlfForm reply) = extractAgentBlock reply :=
  extractAgentBlock_congr (replyLines_crlfForm reply)

end Endings

section Rendering

/-- A text of which no line begins with an equals sign and which holds no carriage return. -/
structure Sound (text : JsString) : Prop where
  head : text.head? ≠ some (unit '=')
  lines : text.IsChain fun u v => ¬ (u = lineFeed ∧ v = unit '=')
  returns : carriageReturn ∉ text

theorem Sound.nil : Sound [] := ⟨by decide, List.IsChain.nil, List.not_mem_nil⟩

theorem Sound.append {front back : JsString} (first : Sound front) (second : Sound back) :
    Sound (front ++ back) := by
  refine ⟨?_, ?_, ?_⟩
  · cases front with
    | nil => exact second.head
    | cons u front => exact first.head
  · refine List.isChain_append.mpr ⟨first.lines, second.lines, ?_⟩
    rintro u - v begins ⟨-, rfl⟩
    exact second.head begins
  · rw [List.mem_append, not_or]
    exact ⟨first.returns, second.returns⟩

theorem Sound.of_printable {text : JsString} (printable : Printable text)
    (head : text.head? ≠ some (unit '=')) : Sound text := by
  refine ⟨head, ?_, printable.not_mem (by decide)⟩
  rw [List.isChain_iff_forall_rel_of_append_cons_cons]
  rintro u v front back rfl ⟨rfl, -⟩
  have feed : lineFeed ∉ front ++ lineFeed :: v :: back := printable.not_mem (by decide)
  exact feed (List.mem_append_right _ List.mem_cons_self)

theorem Sound.of_blank {text : JsString} (blank : ∀ u ∈ text, isJsonSpace u = true)
    (returns : carriageReturn ∉ text) : Sound text := by
  have mark : unit '=' ∉ text := by
    intro member
    have space := blank _ member
    revert space
    decide
  refine ⟨?_, ?_, returns⟩
  · intro begins
    exact mark (List.mem_of_mem_head? begins)
  · rw [List.isChain_iff_forall_rel_of_append_cons_cons]
    rintro u v front back rfl ⟨-, rfl⟩
    exact mark (List.mem_append_right _ (List.mem_cons_of_mem _ List.mem_cons_self))

variable {layout : Layout}

/-- A layout that breaks no line with a carriage return. -/
def PlainBreaks (layout : Layout) : Prop :=
  (∀ depth, carriageReturn ∉ layout.newline depth) ∧ carriageReturn ∉ layout.gap

theorem sound_joinEntries {separator : JsString} {entries : List JsString}
    (between : Sound separator) (each : ∀ entry ∈ entries, Sound entry) :
    Sound (joinEntries separator entries) := by
  have comma : Sound [unit ','] := .of_printable (by decide) (by decide)
  induction entries using joinEntries.induct with
  | case1 => exact .nil
  | case2 entry => exact each entry List.mem_cons_self
  | case3 entry next rest ih =>
      have later := ih fun other member => each other (List.mem_cons_of_mem _ member)
      rw [joinEntries, List.append_assoc]
      exact (each entry List.mem_cons_self).append ((comma.append between).append later)

theorem sound_enclose (plain : PlainBreaks layout) {opening closing : Char} (depth : Nat)
    (first : Sound [unit opening]) (last : Sound [unit closing]) {entries : List JsString}
    (each : ∀ entry ∈ entries, Sound entry) :
    Sound (enclose layout depth opening closing entries) := by
  have newline : ∀ depth, Sound (layout.newline depth) :=
    fun depth => .of_blank (layout.newline_blank depth) (plain.1 depth)
  rw [enclose]
  split
  · exact first.append last
  · exact (((first.append (newline (depth + 1))).append
      (sound_joinEntries (newline (depth + 1)) each)).append (newline depth)).append last

theorem sound_integerText (value : Int) : Sound (integerText value) := by
  refine .of_printable (integerText_printable value) ?_
  rw [integerText]
  split
  · rw [List.head?_cons]
    decide
  · intro begins
    have digit := decimal_digits _ _ (List.mem_of_mem_head? begins)
    revert digit
    decide

theorem sound_quote (text : JsString) : Sound (quote text) := by
  refine .of_printable (quote_printable text) ?_
  rw [quote, List.head?_cons]
  decide

theorem sound_literal {literal : JsString}
    (formed : readNumber literal = some (.double literal, [])) : Sound literal := by
  refine .of_printable (literal_printable formed) ?_
  intro begins
  obtain ⟨rest, rfl⟩ := List.head?_eq_some_iff.mp begins
  have none : readNumber (unit '=' :: rest) = none := by
    have digit : isDigit (unit '=') = false := by decide
    have minus : (unit '=' == unit '-') = false := by decide
    simp [readNumber, readMinus, minus, digit, validInteger]
  rw [none] at formed
  cases formed

mutual

theorem sound_stringify (plain : PlainBreaks layout) (depth : Nat) :
    ∀ {value : Json}, WellFormed value → Sound (stringify layout depth value)
  | .null, _ => by rw [stringify]; exact .of_printable (by decide) (by decide)
  | .bool false, _ => by rw [stringify]; exact .of_printable (by decide) (by decide)
  | .bool true, _ => by rw [stringify]; exact .of_printable (by decide) (by decide)
  | .integer value, _ => by
      rw [stringify]
      exact sound_integerText value
  | .double _, formed => by
      rw [WellFormed] at formed
      rw [stringify]
      exact sound_literal formed
  | .string value, _ => by
      rw [stringify]
      exact sound_quote value
  | .array items, formed => by
      rw [WellFormed] at formed
      rw [stringify]
      exact sound_enclose plain depth (.of_printable (by decide) (by decide))
        (.of_printable (by decide) (by decide)) (sound_stringifyItems plain (depth + 1) formed)
  | .object members, formed => by
      rw [WellFormed] at formed
      rw [stringify]
      exact sound_enclose plain depth (.of_printable (by decide) (by decide))
        (.of_printable (by decide) (by decide))
        (sound_stringifyMembers plain (depth + 1) formed.2)

theorem sound_stringifyItems (plain : PlainBreaks layout) (depth : Nat) :
    ∀ {items : List Json}, WellFormedItems items →
      ∀ entry ∈ stringifyItems layout depth items, Sound entry
  | [], _, _, listed => by cases listed
  | item :: rest, formed, entry, listed => by
      rw [WellFormedItems] at formed
      rw [stringifyItems] at listed
      rcases List.mem_cons.mp listed with rfl | later
      · exact sound_stringify plain depth formed.1
      · exact sound_stringifyItems plain depth formed.2 entry later

theorem sound_stringifyMembers (plain : PlainBreaks layout) (depth : Nat) :
    ∀ {members : List (JsString × Json)}, WellFormedMembers members →
      ∀ entry ∈ stringifyMembers layout depth members, Sound entry
  | [], _, _, listed => by cases listed
  | (key, value) :: rest, formed, entry, listed => by
      rw [WellFormedMembers] at formed
      rw [stringifyMembers] at listed
      have gap : Sound layout.gap := .of_blank layout.gap_blank plain.2
      have colon : Sound [unit ':'] := .of_printable (by decide) (by decide)
      rcases List.mem_cons.mp listed with rfl | later
      · exact ((sound_quote key).append (colon.append gap)).append (sound_stringify plain depth formed.1)
      · exact sound_stringifyMembers plain depth formed.2 entry later

end

private theorem splitOn_units (text : JsString) :
    (∀ line ∈ text.splitOn lineFeed, ∀ u ∈ line, u ∈ text) ∧
      ∀ u, (text.splitOn lineFeed).head?.bind List.head? = some u → text.head? = some u := by
  induction text with
  | nil => simp
  | cons v rest ih =>
      rw [List.splitOn_cons_eq_if_modifyHead]
      split
      · constructor
        · intro line member u held
          rcases List.mem_cons.mp member with rfl | later
          · cases held
          · exact List.mem_cons_of_mem _ (ih.1 line later u held)
        · intro u begins
          cases begins
      · obtain ⟨line, lines, shape⟩ :=
          List.exists_cons_of_ne_nil (List.splitOn_ne_nil lineFeed rest)
        rw [shape, List.modifyHead_cons]
        constructor
        · intro other member u held
          rcases List.mem_cons.mp member with rfl | later
          · rcases List.mem_cons.mp held with rfl | inside
            · exact List.mem_cons_self
            · exact List.mem_cons_of_mem _ (ih.1 line (shape ▸ List.mem_cons_self) u inside)
          · exact List.mem_cons_of_mem _
              (ih.1 other (shape ▸ List.mem_cons_of_mem _ later) u held)
        · exact fun u begins => begins

private theorem splitOn_later {text : JsString}
    (lines : text.IsChain fun u v => ¬ (u = lineFeed ∧ v = unit '=')) :
    ∀ line ∈ (text.splitOn lineFeed).tail, line.head? ≠ some (unit '=') := by
  induction text with
  | nil => simp
  | cons u rest ih =>
      obtain ⟨first, later⟩ := List.isChain_cons.mp lines
      obtain ⟨head, tail, shape⟩ := List.exists_cons_of_ne_nil (List.splitOn_ne_nil lineFeed rest)
      have behind := ih later
      rw [shape, List.tail_cons] at behind
      rw [List.splitOn_cons_eq_if_modifyHead, shape]
      split
      · rename_i feed
        rw [List.tail_cons, List.forall_mem_cons]
        refine ⟨fun begins => ?_, behind⟩
        refine first (unit '=') ((splitOn_units rest).2 _ ?_) ⟨beq_iff_eq.mp feed, rfl⟩
        rw [shape, List.head?_cons, Option.bind_some, begins]
      · rw [List.modifyHead_cons, List.tail_cons]
        exact behind

/-- The lines of a sound text are as they stand, and none of them is a delimiter. -/
theorem Sound.replyLines {text : JsString} (sound : Sound text) :
    replyLines text = text.splitOn lineFeed ∧
      agentBlockOpen ∉ text.splitOn lineFeed ∧ agentBlockClose ∉ text.splitOn lineFeed := by
  have heads : ∀ line ∈ text.splitOn lineFeed, line.head? ≠ some (unit '=') := by
    obtain ⟨head, tail, shape⟩ := List.exists_cons_of_ne_nil (List.splitOn_ne_nil lineFeed text)
    have later := splitOn_later sound.lines
    have first := (splitOn_units text).2 (unit '=')
    rw [shape, List.head?_cons, Option.bind_some] at first
    rw [shape, List.tail_cons] at later
    rw [shape, List.forall_mem_cons]
    exact ⟨fun begins => sound.head (first begins), later⟩
  refine ⟨?_, fun member => heads _ member (by decide), fun member => heads _ member (by decide)⟩
  rw [Agent.replyLines]
  refine (List.map_congr_left fun line member => ?_).trans (List.map_id _)
  rw [stripCarriageReturn, if_neg]
  · rfl
  · intro ends
    exact sound.returns ((splitOn_units text).1 line member _ (List.mem_of_getLast? ends))

end Rendering

/-- A value rendered between delimiter lines, after some prose and before some text. -/
def renderedReply (layout : Layout) (prose : JsString) (value : Json) (tail : JsString) :
    JsString :=
  prose ++ lineFeed :: (agentBlockOpen ++ lineFeed ::
    (stringify layout 0 value ++ lineFeed :: (agentBlockClose ++ tail)))

def FreeOfDelimiters (text : JsString) : Prop :=
  agentBlockOpen ∉ replyLines text ∧ agentBlockClose ∉ replyLines text

/-- What may follow the closing delimiter: nothing, or a line feed and blanks. -/
def EndsBlank (tail : JsString) : Prop :=
  tail = [] ∨ ∃ blank, tail = lineFeed :: blank ∧ ∀ u ∈ blank, isWhiteSpace u = true

section Replies

variable {layout : Layout} {prose tail : JsString} {members : List (JsString × Json)}

theorem replyLines_append (front back : JsString) :
    replyLines (front ++ lineFeed :: back) = replyLines front ++ replyLines back := by
  rw [replyLines, List.splitOn_append_cons_self, List.map_append, replyLines, replyLines]

theorem replyLines_delimiters :
    replyLines agentBlockOpen = [agentBlockOpen] ∧
      replyLines agentBlockClose = [agentBlockClose] := by decide

theorem replyLines_tail (ends : EndsBlank tail) :
    ∃ after, replyLines (agentBlockClose ++ tail) = agentBlockClose :: after ∧
      ∀ line ∈ after, ∀ u ∈ line, isWhiteSpace u = true := by
  rcases ends with rfl | ⟨blank, rfl, spaces⟩
  · refine ⟨[], ?_, by simp⟩
    rw [List.append_nil, replyLines_delimiters.2]
  · refine ⟨replyLines blank, ?_, ?_⟩
    · rw [replyLines_append, replyLines_delimiters.2, List.singleton_append]
    · intro line member u held
      obtain ⟨source, listed, rfl⟩ := List.mem_map.mp member
      refine spaces u ((splitOn_units blank).1 source listed u ?_)
      rw [stripCarriageReturn] at held
      split at held
      · exact List.dropLast_subset source held
      · exact held

/-- What is read of a reply is the rendered text between the delimiter lines. -/
theorem extractAgentBlock_renderedReply (plain : PlainBreaks layout)
    (formed : WellFormed (.object members)) (free : FreeOfDelimiters prose)
    (ends : EndsBlank tail) :
    extractAgentBlock (renderedReply layout prose (.object members) tail) =
      readBlock (stringify layout 0 (.object members)) := by
  obtain ⟨after, closing, blank⟩ := replyLines_tail ends
  obtain ⟨asIs, noOpen, noClose⟩ := (sound_stringify plain 0 formed).replyLines
  have shape : replyLines (renderedReply layout prose (.object members) tail) =
      replyLines prose ++ agentBlockOpen ::
        ((stringify layout 0 (.object members)).splitOn lineFeed ++ agentBlockClose :: after) := by
    rw [renderedReply, replyLines_append, replyLines_append, replyLines_append,
      replyLines_delimiters.1, closing, asIs, List.singleton_append]
  have solid : ∀ marker, (∃ u ∈ marker, isWhiteSpace u = false) → marker ∉ after := by
    rintro marker ⟨u, held, other⟩ member
    rw [blank marker member u held] at other
    cases other
  have openCount := List.count_eq_zero.mpr free.1
  have closeCount := List.count_eq_zero.mpr free.2
  have openAfter := List.count_eq_zero.mpr (solid agentBlockOpen ⟨unit '=', by decide, by decide⟩)
  have closeAfter :=
    List.count_eq_zero.mpr (solid agentBlockClose ⟨unit '=', by decide, by decide⟩)
  have opened : (replyLines (renderedReply layout prose (.object members) tail)).count
      agentBlockOpen = 1 := by
    rw [shape, List.count_append, openCount, List.count_cons_self, List.count_append,
      List.count_eq_zero.mpr noOpen, List.count_cons_of_ne delimiters_differ, openAfter]
  have closed : (replyLines (renderedReply layout prose (.object members) tail)).count
      agentBlockClose = 1 := by
    rw [shape, List.count_append, closeCount, List.count_cons_of_ne delimiters_differ.symm,
      List.count_append, List.count_eq_zero.mpr noClose, List.count_cons_self, closeAfter]
  rw [extractAgentBlock_of_shape shape opened closed, if_pos blank, joinLines,
    List.intercalate_splitOn]

theorem renderedReply_extracted (plain : PlainBreaks layout)
    (formed : WellFormed (.object members)) (free : FreeOfDelimiters prose)
    (ends : EndsBlank tail)
    (size : (stringify layout 0 (.object members)).length ≤ maxBlockLength) :
    extractAgentBlock (renderedReply layout prose (.object members) tail) =
      .extracted (.object members) (stringify layout 0 (.object members)) := by
  have read := @parse_stringify layout _ formed [] (by simp [Blank])
  rw [List.append_nil] at read
  rw [extractAgentBlock_renderedReply plain formed free ends]
  exact readBlock_eq_extracted_iff.mpr ⟨rfl, size, read, members, rfl⟩

end Replies

/-- The extraction of machine blocks: its grammar, line endings, and rendered objects. -/
theorem agent_block_exact :
    (∀ reply value text,
      extractAgentBlock reply = .extracted value text ↔ Carries reply value text) ∧
    (∀ reply, extractAgentBlock (crlfForm reply) = extractAgentBlock reply) ∧
    ∀ layout prose members tail, PlainBreaks layout → WellFormed (.object members) →
      FreeOfDelimiters prose → EndsBlank tail →
      (stringify layout 0 (.object members)).length ≤ maxBlockLength →
      extractAgentBlock (renderedReply layout prose (.object members) tail) =
        .extracted (.object members) (stringify layout 0 (.object members)) :=
  ⟨fun _ _ _ => extractAgentBlock_eq_extracted_iff, extractAgentBlock_crlfForm,
    fun _ _ _ _ plain formed free ends size =>
      renderedReply_extracted plain formed free ends size⟩

def sampleBlock : List (JsString × Json) := [(js "agent", .string (js "prd"))]

theorem sampleBlock_extracted :
    extractAgentBlock (renderedReply compact (js "Done.") (.object sampleBlock) (js "\n")) =
      .extracted (.object sampleBlock) (js "\x7b\"agent\":\"prd\"\x7d") :=
  agent_block_exact.2.2 compact (js "Done.") sampleBlock (js "\n")
    ⟨fun _ => List.not_mem_nil, List.not_mem_nil⟩
    (by simp [WellFormed, WellFormedMembers, sampleBlock]) ⟨by decide, by decide⟩
    (.inr ⟨[], rfl, fun _ member => nomatch member⟩) (by decide)

def summaryBlock (size : Nat) : List (JsString × Json) :=
  [(js "summary", .string (List.replicate size (unit 'a')))]

theorem summaryBlock_formed (size : Nat) : WellFormed (.object (summaryBlock size)) := by
  simp only [WellFormed, WellFormedMembers, summaryBlock, List.map_cons, List.map_nil,
    List.nodup_singleton, and_self]

theorem summaryBlock_large (size : Nat) :
    size < (stringify compact 0 (.object (summaryBlock size))).length := by
  have plain : Plain (List.replicate size (unit 'a')) := by
    intro u member
    rw [List.eq_of_mem_replicate member]
    decide
  simp only [summaryBlock, stringify, stringifyMembers, enclose, List.isEmpty_cons,
    Bool.false_eq_true, if_false, joinEntries, quote_plain plain, List.length_append,
    List.length_cons, List.length_replicate]
  omega

/-- An object whose text exceeds the limit is not extracted. -/
theorem oversized_block_refused :
    ¬ ∀ prose members, WellFormed (.object members) → FreeOfDelimiters prose →
      ∃ text, extractAgentBlock (renderedReply compact prose (.object members) []) =
        .extracted (.object members) text := by
  intro claimed
  obtain ⟨text, read⟩ := claimed [] (summaryBlock maxBlockLength) (summaryBlock_formed _)
    ⟨by decide, by decide⟩
  rw [extractAgentBlock_renderedReply ⟨fun _ => List.not_mem_nil, List.not_mem_nil⟩
    (summaryBlock_formed _) ⟨by decide, by decide⟩ (.inl rfl), readBlock,
    if_pos (summaryBlock_large _)] at read
  cases read

end Kratos.Agent
