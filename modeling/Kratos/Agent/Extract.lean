/- source: domain/agent/model.ts, domain/agent/extract.ts
   digest: The machine block of an agent's reply and the grammar its extraction accepts. -/

import Kratos.Foundation.JsonParser
import Kratos.Foundation.Lines
import Kratos.Foundation.Splitting

set_option autoImplicit false

namespace Kratos.Agent

open Foundation.Text Foundation.JsonText
open Foundation.Lines (lineFeed)

def agentBlockOpen : JsString := js "===KRATOS-AGENT-OUTPUT-V1==="

def agentBlockClose : JsString := js "===END-KRATOS-AGENT-OUTPUT-V1==="

/-- The largest machine block the extractor reads, in code units. -/
def maxBlockLength : Nat := 262144

def carriageReturn : CodeUnit := 0x0D

/-- Every way a block can be present and still unusable before parsing. -/
inductive BlockMalformation where
  | blockTooLarge
  | duplicateClose
  | duplicateOpen
  | emptyBlock
  | invalidJson
  | misordered
  | nonObject
  | trailingContent
  | unopened
  | unterminated
  deriving DecidableEq

inductive BlockExtraction where
  | absent
  | malformed (reason : BlockMalformation)
  | extracted (value : Json) (text : JsString)

/-- `line.endsWith("\r") ? line.slice(0, -1) : line`. -/
def stripCarriageReturn (line : JsString) : JsString :=
  if line.getLast? = some carriageReturn then line.dropLast else line

/-- The positions of a marker among the lines. -/
def indicesOf (lines : List JsString) (marker : JsString) : List Nat :=
  (lines.zipIdx.filter fun entry => entry.1 == marker).map Prod.snd

/-- Why the delimiters alone already refuse the reply, or nothing when they do not. -/
def classifyDelimiters (opens closes : List Nat) : Option BlockExtraction :=
  if opens.length = 0 ∧ closes.length = 0 then some .absent
  else if 1 < opens.length then some (.malformed .duplicateOpen)
  else if 1 < closes.length then some (.malformed .duplicateClose)
  else if opens.length = 0 then some (.malformed .unopened)
  else if closes.length = 0 then some (.malformed .unterminated)
  else if closes.headD 0 < opens.headD 0 then some (.malformed .misordered)
  else none

/-- The lines of a reply, each without its trailing carriage return. -/
def replyLines (reply : JsString) : List JsString :=
  (reply.splitOn lineFeed).map stripCarriageReturn

/-- `lines.join("\n")`. -/
def joinLines (lines : List JsString) : JsString := [lineFeed].intercalate lines

/-- What stands between the delimiters of accepted lines. -/
def readBlock (text : JsString) : BlockExtraction :=
  if maxBlockLength < text.length then .malformed .blockTooLarge
  else if trim text = [] then .malformed .emptyBlock
  else
    match parse text with
    | none => .malformed .invalidJson
    | some (.object members) => .extracted (.object members) text
    | some _ => .malformed .nonObject

/-- Read one agent reply and return the machine block it carries. -/
def extractAgentBlock (reply : JsString) : BlockExtraction :=
  let lines := replyLines reply
  let opens := indicesOf lines agentBlockOpen
  let closes := indicesOf lines agentBlockClose
  match classifyDelimiters opens closes with
  | some structural => structural
  | none =>
      let opening := opens.headD 0
      let closing := closes.headD 0
      if (lines.drop (closing + 1)).any fun line => decide (trim line ≠ []) then
        .malformed .trailingContent
      else readBlock (joinLines ((lines.take closing).drop (opening + 1)))

/-- The grammar of a reply that carries a block: one opening line, one later closing line, blanks
after it, and between them the text of an object within the size limit. -/
structure Carries (reply : JsString) (value : Json) (text : JsString) : Prop where
  shape : ∃ before body after,
    replyLines reply = before ++ agentBlockOpen :: (body ++ agentBlockClose :: after) ∧
      (∀ line ∈ after, ∀ u ∈ line, isWhiteSpace u = true) ∧ text = joinLines body
  opened : (replyLines reply).count agentBlockOpen = 1
  closed : (replyLines reply).count agentBlockClose = 1
  size : text.length ≤ maxBlockLength
  json : parse text = some value
  object : ∃ members, value = .object members


section Positions

variable {lines front back : List JsString} {marker : JsString}

private theorem filter_zipIdx_absent (absent : marker ∉ lines) (start : Nat) :
    ((lines.zipIdx start).filter fun entry => entry.1 == marker) = [] := by
  rw [List.filter_eq_nil_iff]
  rintro ⟨line, index⟩ member
  have inside : line ∈ lines := List.fst_mem_of_mem_zipIdx member
  rw [beq_iff_eq]
  rintro rfl
  exact absent inside

theorem indicesOf_length (lines : List JsString) (marker : JsString) :
    (indicesOf lines marker).length = lines.count marker := by
  have each : ∀ start, ((lines.zipIdx start).filter fun entry => entry.1 == marker).length =
      lines.count marker := by
    induction lines with
    | nil => exact fun _ => rfl
    | cons line lines ih =>
        intro start
        rw [List.zipIdx_cons, List.filter_cons, List.count_cons]
        by_cases same : (line == marker) = true
        · rw [if_pos same, List.length_cons, ih, if_pos same]
        · rw [if_neg same, ih, if_neg same, Nat.add_zero]
  rw [indicesOf, List.length_map, each]

theorem indicesOf_once (before : marker ∉ front) (after : marker ∉ back) :
    indicesOf (front ++ marker :: back) marker = [front.length] := by
  rw [indicesOf, List.zipIdx_append, List.filter_append, filter_zipIdx_absent before,
    List.zipIdx_cons, List.filter_cons, if_pos (beq_self_eq_true marker),
    filter_zipIdx_absent after]
  simp only [List.nil_append, List.map_cons, List.map_nil, Nat.zero_add]

theorem exists_once (once : lines.count marker = 1) :
    ∃ front back, lines = front ++ marker :: back ∧ marker ∉ front ∧ marker ∉ back := by
  have present : marker ∈ lines := List.count_pos_iff.mp (by omega)
  obtain ⟨front, back, rfl⟩ := List.append_of_mem present
  rw [List.count_append, List.count_cons_self] at once
  refine ⟨front, back, rfl, ?_, ?_⟩
  · exact List.count_eq_zero.mp (by omega)
  · exact List.count_eq_zero.mp (by omega)

theorem not_mem_of_once (once : (front ++ marker :: back).count marker = 1) :
    marker ∉ front ∧ marker ∉ back := by
  rw [List.count_append, List.count_cons_self] at once
  exact ⟨List.count_eq_zero.mp (by omega), List.count_eq_zero.mp (by omega)⟩

end Positions

theorem delimiters_differ : agentBlockClose ≠ agentBlockOpen := by decide

/-- The delimiters are accepted exactly when each stands once and they stand in order. -/
theorem classifyDelimiters_eq_none_iff {opens closes : List Nat} :
    classifyDelimiters opens closes = none ↔
      opens.length = 1 ∧ closes.length = 1 ∧ opens.headD 0 ≤ closes.headD 0 := by
  unfold classifyDelimiters
  split_ifs with absent openTwice closeTwice unopened unterminated misordered
  · simp only [false_iff]
    omega
  · simp only [false_iff]
    omega
  · simp only [false_iff]
    omega
  · simp only [false_iff]
    omega
  · simp only [false_iff]
    omega
  · simp only [false_iff]
    omega
  · simp only [true_iff]
    omega

theorem trim_eq_nil_iff (text : JsString) :
    trim text = [] ↔ ∀ u ∈ text, isWhiteSpace u = true := by
  rw [trim, List.rdropWhile_eq_nil_iff]
  constructor
  · intro blank u member
    by_contra solid
    have kept : ∃ v ∈ text.dropWhile isWhiteSpace, ¬ isWhiteSpace v = true := by
      rw [← List.takeWhile_append_dropWhile (p := isWhiteSpace) (l := text)] at member
      rcases List.mem_append.mp member with inside | inside
      · exact absurd (List.mem_takeWhile_imp inside) solid
      · exact ⟨u, inside, solid⟩
    obtain ⟨v, inside, other⟩ := kept
    exact other (blank v inside)
  · intro blank u member
    exact blank u ((List.dropWhile_sublist _).mem member)

theorem parse_blank {text : JsString} (blank : ∀ u ∈ text, isWhiteSpace u = true) :
    parse text = none := by
  have read : readValue (text.length + 1) text = none := by
    rw [readValue]
    cases first : skipSpace text with
    | nil => rfl
    | cons u rest =>
        have space : isWhiteSpace u = true := by
          refine blank u ((List.dropWhile_sublist isJsonSpace).mem ?_)
          rw [← skipSpace, first]
          exact List.mem_cons_self
        have other : ∀ c ∈ ['"', '[', '{', 'n', 't', 'f', '-'], u ≠ unit c := by
          have solid : (['"', '[', '{', 'n', 't', 'f', '-'].all fun c => !isWhiteSpace (unit c)) =
              true := by decide
          rintro c listed rfl
          have solid := List.all_eq_true.mp solid c listed
          rw [space] at solid
          cases solid
        have digit : isDigit u = false := by
          rw [Bool.eq_false_iff]
          intro digit
          simp only [isDigit, between, Bool.and_eq_true, decide_eq_true_eq] at digit
          have low : 48 ≤ u.toNat := digit.1
          have high : u.toNat ≤ 57 := digit.2
          simp only [isWhiteSpace, Bool.or_eq_true, Bool.and_eq_true, decide_eq_true_eq,
            beq_iff_eq] at space
          omega
        have head : ∀ c ∈ ['"', '[', '{', 'n', 't', 'f', '-'], (u == unit c) = false :=
          fun c listed => beq_eq_false_iff_ne.mpr (other c listed)
        have name : ∀ c ∈ ['n', 't', 'f'], ∀ later, startsWith (u :: rest) (unit c :: later) = false := by
          intro c listed later
          rw [startsWith, List.isPrefixOf_cons_cons, Bool.and_eq_false_iff]
          exact .inl (beq_eq_false_iff_ne.mpr (Ne.symm (other c (by
            simp only [List.mem_cons, List.not_mem_nil, or_false] at listed ⊢
            tauto))))
        have scalar : readScalar (u :: rest) = none := by
          have plainNull : startsWith (u :: rest) (js "null") = false :=
            name 'n' (by decide) (js "ull")
          have plainTrue : startsWith (u :: rest) (js "true") = false :=
            name 't' (by decide) (js "rue")
          have plainFalse : startsWith (u :: rest) (js "false") = false :=
            name 'f' (by decide) (js "alse")
          simp [readScalar, readNumber, readMinus, plainNull, plainTrue, plainFalse,
            head '-' (by decide), digit, validInteger]
        simp only [head '"' (by decide), head '[' (by decide), head '{' (by decide), scalar,
          Bool.false_eq_true, if_false]
  rw [parse, read]
  rfl

section Grammar

variable {reply text : JsString} {value : Json} {before body after : List JsString}

theorem readBlock_eq_extracted_iff {block : JsString} :
    readBlock block = .extracted value text ↔
      text = block ∧ block.length ≤ maxBlockLength ∧ parse block = some value ∧
        ∃ members, value = .object members := by
  unfold readBlock
  constructor
  · intro read
    split at read
    · cases read
    · rename_i small
      split at read
      · cases read
      · split at read
        · cases read
        · rename_i members parsed
          obtain ⟨rfl, rfl⟩ := BlockExtraction.extracted.inj read
          exact ⟨rfl, Nat.not_lt.mp small, parsed, members, rfl⟩
        · cases read
  · rintro ⟨rfl, small, parsed, members, rfl⟩
    have filled : trim text ≠ [] := by
      intro empty
      rw [parse_blank ((trim_eq_nil_iff text).mp empty)] at parsed
      cases parsed
    rw [if_neg (Nat.not_lt.mpr small), if_neg filled, parsed]

/-- The delimiters of a reply that has each once and in order say nothing; the reply is read
between them. -/
theorem extractAgentBlock_of_shape
    (shape : replyLines reply = before ++ agentBlockOpen :: (body ++ agentBlockClose :: after))
    (opened : (replyLines reply).count agentBlockOpen = 1)
    (closed : (replyLines reply).count agentBlockClose = 1) :
    extractAgentBlock reply =
      if ∀ line ∈ after, ∀ u ∈ line, isWhiteSpace u = true then readBlock (joinLines body)
      else .malformed .trailingContent := by
  have regrouped : replyLines reply =
      (before ++ agentBlockOpen :: body) ++ agentBlockClose :: after := by
    rw [shape, List.append_assoc, List.cons_append]
  have opens : indicesOf (replyLines reply) agentBlockOpen = [before.length] := by
    rw [shape] at opened ⊢
    obtain ⟨front, back⟩ := not_mem_of_once opened
    exact indicesOf_once front back
  have closes : indicesOf (replyLines reply) agentBlockClose =
      [before.length + (body.length + 1)] := by
    rw [regrouped] at closed ⊢
    obtain ⟨front, back⟩ := not_mem_of_once closed
    rw [indicesOf_once front back, List.length_append, List.length_cons]
  have accepted : classifyDelimiters [before.length] [before.length + (body.length + 1)] = none :=
    classifyDelimiters_eq_none_iff.mpr ⟨rfl, rfl, Nat.le_add_right _ _⟩
  have taken : (replyLines reply).take (before.length + (body.length + 1)) =
      before ++ agentBlockOpen :: body := by
    rw [regrouped]
    refine List.take_left' ?_
    rw [List.length_append, List.length_cons]
  have inner : (before ++ agentBlockOpen :: body).drop (before.length + 1) = body := by
    rw [← List.drop_drop, List.drop_left]
    rfl
  have rest : (replyLines reply).drop (before.length + (body.length + 1) + 1) = after := by
    have front : before.length + (body.length + 1) = (before ++ agentBlockOpen :: body).length := by
      rw [List.length_append, List.length_cons]
    rw [regrouped, ← List.drop_drop, front, List.drop_left]
    rfl
  have blanks : (after.any fun line => decide (trim line ≠ [])) = true ↔
      ¬ ∀ line ∈ after, ∀ u ∈ line, isWhiteSpace u = true := by
    simp only [List.any_eq_true, decide_eq_true_eq, ne_eq, trim_eq_nil_iff]
    push Not
    rfl
  simp only [extractAgentBlock, opens, closes, accepted, List.headD_cons, taken, inner, rest]
  by_cases blank : ∀ line ∈ after, ∀ u ∈ line, isWhiteSpace u = true
  · rw [if_pos blank, if_neg (fun some => blanks.mp some blank)]
  · rw [if_neg blank, if_pos (blanks.mpr blank)]

theorem exists_shape (opened : (replyLines reply).count agentBlockOpen = 1)
    (closed : (replyLines reply).count agentBlockClose = 1)
    (ordered : (indicesOf (replyLines reply) agentBlockOpen).headD 0 ≤
      (indicesOf (replyLines reply) agentBlockClose).headD 0) :
    ∃ before body after,
      replyLines reply = before ++ agentBlockOpen :: (body ++ agentBlockClose :: after) := by
  obtain ⟨before, back, shape, front, behind⟩ := exists_once opened
  have present : agentBlockClose ∈ replyLines reply := List.count_pos_iff.mp (by omega)
  rw [shape, List.mem_append, List.mem_cons] at present
  rcases present with early | same | late
  · obtain ⟨first, second, rfl⟩ := List.append_of_mem early
    have regrouped : replyLines reply =
        first ++ agentBlockClose :: (second ++ agentBlockOpen :: back) := by
      rw [shape, List.append_assoc, List.cons_append]
    have opens : indicesOf (replyLines reply) agentBlockOpen =
        [(first ++ agentBlockClose :: second).length] := by
      rw [shape, indicesOf_once front behind]
    have closes : indicesOf (replyLines reply) agentBlockClose = [first.length] := by
      rw [regrouped] at closed ⊢
      obtain ⟨apart, later⟩ := not_mem_of_once closed
      exact indicesOf_once apart later
    rw [opens, closes, List.headD_cons, List.headD_cons, List.length_append,
      List.length_cons] at ordered
    omega
  · exact absurd same delimiters_differ
  · obtain ⟨body, after, rfl⟩ := List.append_of_mem late
    exact ⟨before, body, after, shape⟩

theorem classifyDelimiters_ne_extracted {opens closes : List Nat} :
    classifyDelimiters opens closes ≠ some (.extracted value text) := by
  unfold classifyDelimiters
  split_ifs <;> simp

theorem extractAgentBlock_eq_extracted_iff :
    extractAgentBlock reply = .extracted value text ↔ Carries reply value text := by
  constructor
  · intro read
    have accepted : classifyDelimiters (indicesOf (replyLines reply) agentBlockOpen)
        (indicesOf (replyLines reply) agentBlockClose) = none := by
      cases structural : classifyDelimiters (indicesOf (replyLines reply) agentBlockOpen)
          (indicesOf (replyLines reply) agentBlockClose) with
      | none => rfl
      | some refusal =>
          simp only [extractAgentBlock, structural] at read
          exact absurd (read ▸ structural) classifyDelimiters_ne_extracted
    obtain ⟨opened, closed, ordered⟩ := classifyDelimiters_eq_none_iff.mp accepted
    rw [indicesOf_length] at opened closed
    obtain ⟨before, body, after, shape⟩ := exists_shape opened closed ordered
    rw [extractAgentBlock_of_shape shape opened closed] at read
    split_ifs at read with blank
    obtain ⟨rfl, size, json, object⟩ := readBlock_eq_extracted_iff.mp read
    exact ⟨⟨before, body, after, shape, blank, rfl⟩, opened, closed, size, json, object⟩
  · rintro ⟨⟨before, body, after, shape, blank, rfl⟩, opened, closed, size, json, object⟩
    rw [extractAgentBlock_of_shape shape opened closed, if_pos blank]
    exact readBlock_eq_extracted_iff.mpr ⟨rfl, size, json, object⟩

end Grammar
end Kratos.Agent
