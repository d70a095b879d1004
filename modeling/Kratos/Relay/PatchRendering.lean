/- source: adapters/codex/pre-tool-use.ts
   digest: A rendered list of file operations is read as exactly its mutations. -/

import Kratos.Relay.PatchReader

set_option autoImplicit false

namespace Kratos.Relay

open Foundation.Text Foundation.Pieces
open Foundation.Lines (lineFeed)

section Grammar

inductive PatchLine
  | context (text : JsString)
  | added (text : JsString)
  | removed (text : JsString)
deriving DecidableEq, Repr

structure PatchChunk where
  heading : Option JsString
  lines : List PatchLine
  ended : Bool
deriving DecidableEq, Repr

inductive FileOperation
  | add (path : JsString) (content : List JsString)
  | delete (path : JsString)
  | update (path : JsString) (moved : Option JsString) (chunks : List PatchChunk)
deriving DecidableEq, Repr

def PatchLine.text : PatchLine → JsString
  | .context text => unit ' ' :: text
  | .added text => unit '+' :: text
  | .removed text => unit '-' :: text

def PatchChunk.header (chunk : PatchChunk) : JsString :=
  match chunk.heading with
  | none => js "@@"
  | some heading => js "@@ " ++ heading

def PatchChunk.text (chunk : PatchChunk) : List JsString :=
  chunk.header :: (chunk.lines.map PatchLine.text ++
    if chunk.ended then [endOfFile] else [])

def FileOperation.lines : FileOperation → List JsString
  | .add path content => (addFile ++ path) :: content.map (unit '+' :: ·)
  | .delete path => [deleteFile ++ path]
  | .update path moved chunks =>
      (updateFile ++ path) :: ((moved.map fun destination => moveTo ++ destination).toList ++
        chunks.flatMap PatchChunk.text)

def FileOperation.mutation : FileOperation → Mutation
  | .add path _ => .change .create path
  | .delete path => .change .delete path
  | .update path none _ => .change .update path
  | .update path (some destination) _ => .move path destination

/-- A path that is not empty, holds no line break and neither begins nor ends in white space. -/
structure PatchPath (path : JsString) : Prop where
  filled : path ≠ []
  oneLine : lineFeed ∉ path
  begins : ∀ u ∈ path.head?, isRustWhitespace u = false
  ends : ∀ u ∈ path.getLast?, isRustWhitespace u = false

instance (path : JsString) : Decidable (PatchPath path) :=
  decidable_of_iff
    (path ≠ [] ∧ lineFeed ∉ path ∧ (∀ u ∈ path.head?, isRustWhitespace u = false) ∧
      ∀ u ∈ path.getLast?, isRustWhitespace u = false)
    ⟨fun all => ⟨all.1, all.2.1, all.2.2.1, all.2.2.2⟩,
      fun good => ⟨good.filled, good.oneLine, good.begins, good.ends⟩⟩

def FileOperation.WellFormed : FileOperation → Prop
  | .add path content => PatchPath path ∧ ∀ line ∈ content, lineFeed ∉ line
  | .delete path => PatchPath path
  | .update path moved chunks =>
      PatchPath path ∧ (∀ destination ∈ moved, PatchPath destination) ∧ chunks ≠ [] ∧
        ∀ chunk ∈ chunks, chunk.lines ≠ [] ∧ ∀ line ∈ chunk.text, lineFeed ∉ line

instance : (operation : FileOperation) → Decidable operation.WellFormed
  | .add path content => inferInstanceAs (Decidable (PatchPath path ∧ ∀ line ∈ content, _))
  | .delete path => inferInstanceAs (Decidable (PatchPath path))
  | .update path moved chunks =>
      inferInstanceAs (Decidable (PatchPath path ∧ (∀ destination ∈ moved, PatchPath destination) ∧
        chunks ≠ [] ∧ ∀ chunk ∈ chunks, _ ∧ ∀ line ∈ chunk.text, _))

inductive LineEnding
  | lf | crlf
deriving DecidableEq, Repr

def LineEnding.text : LineEnding → JsString
  | .lf => [lineFeed]
  | .crlf => [carriageReturn, lineFeed]

inductive HereDocument
  | bare | single | double
deriving DecidableEq, Repr

def HereDocument.opening : HereDocument → JsString
  | .bare => js "<<EOF"
  | .single => js "<<'EOF'"
  | .double => js "<<\"EOF\""

/-- The lines of a command before its last one. -/
def leadingLines (wrapped : Option HereDocument) (operations : List FileOperation) :
    List JsString :=
  match wrapped with
  | none => beginPatch :: operations.flatMap FileOperation.lines
  | some form => form.opening :: beginPatch :: (operations.flatMap FileOperation.lines ++ [endPatch])

def lastLine (wrapped : Option HereDocument) : JsString :=
  match wrapped with
  | none => endPatch
  | some _ => js "EOF"

/-- A patch command; its last line may be ended or not. -/
def renderPatch (ending : LineEnding) (closed : Bool) (wrapped : Option HereDocument)
    (operations : List FileOperation) : JsString :=
  ending.text.intercalate (leadingLines wrapped operations ++ [lastLine wrapped]) ++
    if closed then ending.text else []

end Grammar

section Lines

/-- How the reader sees a line: without the carriage return that the break took from it. -/
def LineEnding.seen : LineEnding → JsString → JsString
  | .lf => stripReturn
  | .crlf => id

theorem LineEnding.seen_cases (ending : LineEnding) (line : JsString) :
    ending.seen line = line ∨ line = ending.seen line ++ [carriageReturn] := by
  cases ending with
  | lf =>
      show stripReturn line = line ∨ line = stripReturn line ++ [carriageReturn]
      unfold stripReturn
      split
      · next closed => exact Or.inr (List.dropLast_append_getLast? _ closed).symm
      · exact Or.inl rfl
  | crlf => exact Or.inl rfl

theorem rustTrimEnd_seen (ending : LineEnding) (line : JsString) :
    rustTrimEnd (ending.seen line) = rustTrimEnd line := by
  have white : isRustWhitespace carriageReturn = true := by decide
  rcases ending.seen_cases line with same | longer
  · rw [same]
  · conv_rhs => rw [longer]
    exact (List.rdropWhile_concat_pos _ _ _ white).symm

theorem seen_closed (ending : LineEnding) {line : JsString}
    (ends : ∀ u ∈ line.getLast?, isRustWhitespace u = false) : ending.seen line = line := by
  rcases ending.seen_cases line with same | longer
  · exact same
  · have white := ends carriageReturn (by rw [longer, List.getLast?_concat]; rfl)
    exact absurd white (by decide)

theorem seen_cons (ending : LineEnding) {u : CodeUnit} (other : u ≠ carriageReturn)
    (rest : JsString) : ∃ tail, ending.seen (u :: rest) = u :: tail := by
  rcases ending.seen_cases (u :: rest) with same | longer
  · exact ⟨rest, same⟩
  · cases shape : ending.seen (u :: rest) with
    | nil =>
        rw [shape] at longer
        injection longer with head
        exact absurd head other
    | cons v tail =>
        rw [shape] at longer
        injection longer with head
        exact ⟨tail, by rw [head]⟩

theorem rustTrimEnd_closed {line : JsString}
    (ends : ∀ u ∈ line.getLast?, isRustWhitespace u = false) : rustTrimEnd line = line := by
  refine List.rdropWhile_eq_self_iff.mpr ?_
  intro filled white
  rw [ends _ (by rw [List.getLast?_eq_getLast_of_ne_nil filled]; rfl)] at white
  cases white

theorem rustTrimEnd_cons (u : CodeUnit) (rest : JsString) :
    (isRustWhitespace u = true ∧ rustTrimEnd (u :: rest) = []) ∨
      ∃ tail, rustTrimEnd (u :: rest) = u :: tail := by
  have front : rustTrimEnd (u :: rest) <+: u :: rest := List.rdropWhile_prefix _ _
  cases shape : rustTrimEnd (u :: rest) with
  | nil =>
      refine Or.inl ⟨?_, rfl⟩
      exact List.rdropWhile_eq_nil_iff.mp shape u List.mem_cons_self
  | cons v tail =>
      rw [shape] at front
      obtain ⟨more, same⟩ := front
      injection same with head
      exact Or.inr ⟨tail, by rw [head]⟩

theorem rustTrimEnd_append (front back : JsString) :
    rustTrimEnd (front ++ back) =
      if rustTrimEnd back = [] then rustTrimEnd front else front ++ rustTrimEnd back := by
  unfold rustTrimEnd List.rdropWhile
  rw [List.reverse_append, List.dropWhile_append]
  by_cases none : List.dropWhile isRustWhitespace back.reverse = []
  · rw [if_pos (by rw [none]; rfl), if_pos (by rw [none]; rfl)]
  · rw [if_neg (by rwa [List.isEmpty_iff]), if_neg (by rwa [List.reverse_eq_nil_iff]),
      List.reverse_append, List.reverse_reverse]

theorem rustTrim_visible {u : CodeUnit} (visible : isRustWhitespace u = false) (rest : JsString) :
    rustTrim (u :: rest) = rustTrimEnd (u :: rest) := by
  rw [rustTrim, List.dropWhile_cons_of_neg (by rw [visible]; exact Bool.false_ne_true)]

end Lines

section Reading

/-- A state in which a file header may come. -/
def ParserState.Ready (state : ParserState) : Prop :=
  state.mode ≠ .ended ∧ state.mode.unfinished = false

private theorem startsWith_star {expected line : JsString}
    (star : expected.head? = some (unit '*')) (other : ∀ rest, line ≠ unit '*' :: rest) :
    startsWith line expected = false := by
  obtain ⟨tail, rfl⟩ := List.head?_eq_some_iff.mp star
  rcases begins : startsWith line (unit '*' :: tail) with _ | _
  · rfl
  · obtain ⟨rest, same⟩ := (startsWith_iff line _).mp begins
    exact absurd same (other (tail ++ rest))

theorem startHunk_foreign (state : ParserState) {line : JsString}
    (other : ∀ rest, line ≠ unit '*' :: rest) : startHunk state line = .notHandled := by
  have environment : startsWith line environmentId = false := startsWith_star (by decide) other
  have final : line ≠ endPatch := by
    rintro rfl
    obtain ⟨tail, shape⟩ := List.head?_eq_some_iff.mp
      (show endPatch.head? = some (unit '*') by decide)
    exact other tail shape
  have header : fileHeader line = none := by
    unfold fileHeader
    rw [Option.map_eq_none_iff, List.find?_eq_none]
    intro marker member
    have star : ∀ marker ∈ fileMarkers, marker.1.head? = some (unit '*') := by decide
    rw [startsWith_star (star marker member) other]
    exact Bool.false_ne_true
  unfold startHunk
  rw [if_neg (by rw [environment]; rintro ⟨-, bad⟩; cases bad), if_neg final, header]

def FileChange.marker : FileChange → JsString
  | .create => addFile
  | .delete => deleteFile
  | .update => updateFile

theorem fileHeader_marker (kind : FileChange) (path : JsString) :
    fileHeader (kind.marker ++ path) = some (kind, path) := by
  have other : ∀ {left right : JsString}, startsWith left right = false →
      startsWith right left = false → startsWith (left ++ path) right = false :=
    fun forward backward => startsWith_append_of_disjoint forward backward path
  cases kind with
  | create =>
      show fileHeader (addFile ++ path) = _
      simp only [fileHeader, fileMarkers, List.find?_cons, startsWith_append, Option.map_some,
        List.drop_left]
  | delete =>
      have first : startsWith (deleteFile ++ path) addFile = false := other (by decide) (by decide)
      show fileHeader (deleteFile ++ path) = _
      simp only [fileHeader, fileMarkers, List.find?_cons, first, startsWith_append,
        Option.map_some, List.drop_left]
  | update =>
      have first : startsWith (updateFile ++ path) addFile = false := other (by decide) (by decide)
      have second : startsWith (updateFile ++ path) deleteFile = false :=
        other (by decide) (by decide)
      show fileHeader (updateFile ++ path) = _
      simp only [fileHeader, fileMarkers, List.find?_cons, first, second, startsWith_append,
        Option.map_some, List.drop_left]

private theorem getLast?_path {front path : JsString} (good : PatchPath path) :
    ∀ u ∈ (front ++ path).getLast?, isRustWhitespace u = false := by
  rw [List.getLast?_append_of_ne_nil _ good.filled]
  exact good.ends

theorem startHunk_marker {state : ParserState} (ready : state.mode.unfinished = false)
    (kind : FileChange) {path : JsString} (filled : path ≠ []) :
    startHunk state (kind.marker ++ path) =
      .handled ⟨openedMode kind (state.mutations.length + 1),
        state.mutations ++ [.change kind path]⟩ := by
  have environment : startsWith (kind.marker ++ path) environmentId = false := by
    cases kind <;> exact startsWith_append_of_disjoint (by decide) (by decide) path
  have final : kind.marker ++ path ≠ endPatch := by
    intro same
    have begins : startsWith endPatch kind.marker = true := by
      rw [← same]
      exact startsWith_append _ _
    cases kind <;> exact absurd begins (by decide)
  unfold startHunk
  rw [if_neg (by rw [environment]; rintro ⟨-, bad⟩; cases bad), if_neg final,
    fileHeader_marker]
  simp only
  rw [if_neg (by rw [ready]; exact Bool.false_ne_true), if_neg filled]

theorem readPatchLine_marker {state : ParserState} (ready : state.Ready) (ending : LineEnding)
    (kind : FileChange) {path : JsString} (good : PatchPath path) :
    readPatchLine state (ending.seen (kind.marker ++ path)) =
      some ⟨openedMode kind (state.mutations.length + 1),
        state.mutations ++ [.change kind path]⟩ := by
  have ends : ∀ u ∈ (kind.marker ++ path).getLast?, isRustWhitespace u = false :=
    getLast?_path good
  have trimEnd : rustTrimEnd (kind.marker ++ path) = kind.marker ++ path := rustTrimEnd_closed ends
  have trim : rustTrim (kind.marker ++ path) = kind.marker ++ path := by
    have star : ∃ tail, kind.marker ++ path = unit '*' :: tail := by
      cases kind <;> exact ⟨_, rfl⟩
    obtain ⟨tail, shape⟩ := star
    rw [shape, rustTrim_visible (by decide), ← shape, trimEnd]
  have started := startHunk_marker ready.2 kind good.filled
  rw [seen_closed ending ends]
  unfold readPatchLine
  split
  · next ended => exact absurd ended ready.1
  · rw [trimEnd, started]
  · rw [trim, started]

private theorem star_ne {u : CodeUnit} (other : u ≠ unit '*') (tail : JsString) :
    ∀ rest, u :: tail ≠ unit '*' :: rest := by
  intro rest same
  injection same with head
  exact other head

private theorem nil_ne_star : ∀ rest : JsString, [] ≠ unit '*' :: rest := by
  intro rest same
  cases same

theorem readPatchLines_content (ending : LineEnding) (content : List JsString)
    (mutations : List Mutation) :
    readPatchLines ⟨.add, mutations⟩ ((content.map (unit '+' :: ·)).map ending.seen) =
      some ⟨.add, mutations⟩ := by
  induction content with
  | nil => rfl
  | cons line content ih =>
      obtain ⟨tail, seen⟩ := seen_cons ending (show unit '+' ≠ carriageReturn by decide) line
      have kept : startHunk ⟨.add, mutations⟩ (rustTrim (unit '+' :: tail)) = .notHandled := by
        refine startHunk_foreign _ ?_
        rw [rustTrim_visible (by decide)]
        rcases rustTrimEnd_cons (unit '+') tail with ⟨white, -⟩ | ⟨more, shape⟩
        · exact absurd white (by decide)
        · rw [shape]
          exact star_ne (by decide) more
      have read : readPatchLine ⟨.add, mutations⟩ (unit '+' :: tail) =
          some ⟨.add, mutations⟩ := by
        unfold readPatchLine
        simp only [kept]
        exact if_pos ⟨trivial, startsWith_append (js "+") tail⟩
      rw [List.map_cons, List.map_cons, readPatchLines, seen, read]
      exact ih

private theorem readPatchLine_update {mutations : List Mutation} {update : UpdateState}
    {line : JsString} (kept : startHunk ⟨.update update, mutations⟩ (rustTrimEnd line) = .notHandled) :
    readPatchLine ⟨.update update, mutations⟩ line =
      readUpdateLine ⟨.update update, mutations⟩ update line := by
  unfold readPatchLine
  simp only [kept]

private theorem startHunk_inner {mutations : List Mutation} {update : UpdateState}
    {line : JsString} (header : fileHeader line = none) (final : line ≠ endPatch) :
    startHunk ⟨.update update, mutations⟩ line = .notHandled := by
  unfold startHunk
  rw [if_neg (by rintro ⟨bad, -⟩; cases bad), if_neg final, header]

theorem readPatchLine_move (ending : LineEnding) (mutations : List Mutation) (path : JsString)
    {destination : JsString} (good : PatchPath destination) :
    readPatchLine ⟨.update ⟨mutations.length, [], false⟩, mutations ++ [.change .update path]⟩
        (ending.seen (moveTo ++ destination)) =
      some ⟨.update ⟨mutations.length, [], true⟩, mutations ++ [.move path destination]⟩ := by
  have ends : ∀ u ∈ (moveTo ++ destination).getLast?, isRustWhitespace u = false :=
    getLast?_path good
  have trimEnd : rustTrimEnd (moveTo ++ destination) = moveTo ++ destination :=
    rustTrimEnd_closed ends
  have other : ∀ right : JsString, startsWith moveTo right = false →
      startsWith right moveTo = false → startsWith (moveTo ++ destination) right = false :=
    fun _ forward backward => startsWith_append_of_disjoint forward backward destination
  have header : fileHeader (moveTo ++ destination) = none := by
    have first := other addFile (by decide) (by decide)
    have second := other deleteFile (by decide) (by decide)
    have third := other updateFile (by decide) (by decide)
    simp only [fileHeader, fileMarkers, List.find?_cons, first, second, third, List.find?_nil,
      Option.map_none]
  have final : moveTo ++ destination ≠ endPatch := by
    intro same
    have begins : startsWith endPatch moveTo = true := by
      rw [← same]
      exact startsWith_append _ _
    exact absurd begins (by decide)
  have found : (mutations ++ [Mutation.change .update path])[mutations.length]? =
      some (.change .update path) := List.getElem?_concat_length
  have replaced : (mutations ++ [Mutation.change .update path]).set mutations.length
      (.move path destination) = mutations ++ [.move path destination] := by
    rw [List.set_append_right _ _ (Nat.le_refl _), Nat.sub_self]
    rfl
  rw [seen_closed ending ends, readPatchLine_update (by
    rw [trimEnd]
    exact startHunk_inner header final)]
  unfold readUpdateLine
  simp only [trimEnd, List.getLast?_nil, Option.map_none, Option.getD_none]
  rw [if_neg (by rintro ⟨bad, -⟩; cases bad), if_neg (by rintro ⟨bad, -⟩; cases bad),
    if_pos ⟨trivial, trivial, startsWith_append _ _⟩, found]
  simp only [List.drop_left]
  rw [if_neg good.filled, replaced]

private theorem isChunkHeader_star {line : JsString} (star : ∀ rest, line ≠ unit '@' :: rest) :
    isChunkHeader line = false := by
  have plain : line ≠ js "@@" := star _
  have longer : startsWith line (js "@@ ") = false := by
    rcases begins : startsWith line (js "@@ ") with _ | _
    · rfl
    · obtain ⟨rest, same⟩ := (startsWith_iff line _).mp begins
      exact absurd same (star _)
  rw [isChunkHeader, longer, beq_eq_false_iff_ne.mpr plain]
  rfl

/-- Whether a chunk header may come: no chunk is open without lines. -/
def Closable (chunks : List Chunk) : Prop :=
  chunks.getLast?.map Chunk.hasLines ≠ some false

private theorem header_trimmed (chunk : PatchChunk) :
    isChunkHeader (rustTrimEnd chunk.header) = true ∧
      ∃ tail, rustTrimEnd chunk.header = unit '@' :: tail := by
  cases heading : chunk.heading with
  | none =>
      have shape : chunk.header = js "@@" := by rw [PatchChunk.header, heading]
      rw [shape]
      exact ⟨by decide, _, rfl⟩
  | some text =>
      have shape : chunk.header = js "@@" ++ unit ' ' :: text := by
        rw [PatchChunk.header, heading]
        rfl
      rw [shape, rustTrimEnd_append]
      rcases rustTrimEnd_cons (unit ' ') text with ⟨-, none⟩ | ⟨tail, filled⟩
      · rw [if_pos none]
        exact ⟨by decide, _, rfl⟩
      · rw [filled, if_neg (List.cons_ne_nil _ _)]
        refine ⟨?_, _, rfl⟩
        have longer : startsWith (js "@@" ++ unit ' ' :: tail) (js "@@ ") = true :=
          startsWith_append (js "@@ ") tail
        rw [isChunkHeader, longer, Bool.or_true]

theorem readPatchLine_header (ending : LineEnding) (mutations : List Mutation)
    (update : UpdateState) (chunk : PatchChunk) (closable : Closable update.chunks) :
    readPatchLine ⟨.update update, mutations⟩ (ending.seen chunk.header) =
      some ⟨.update { update with chunks := update.chunks ++ [⟨false, false⟩] }, mutations⟩ := by
  obtain ⟨header, tail, shape⟩ := header_trimmed chunk
  have trimmed : rustTrimEnd (ending.seen chunk.header) = rustTrimEnd chunk.header :=
    rustTrimEnd_seen ending _
  have filled : rustTrimEnd chunk.header ≠ [] := by
    rw [shape]
    exact List.cons_ne_nil _ _
  have unmoved : startsWith (rustTrimEnd chunk.header) moveTo = false := by
    rw [shape]
    exact startsWith_star (by decide) (star_ne (by decide) tail)
  rw [readPatchLine_update (by
    rw [trimmed, shape]
    exact startHunk_foreign _ (star_ne (by decide) tail))]
  unfold readUpdateLine
  simp only [trimmed]
  rw [if_neg (fun bad => filled bad.2), if_neg (by rw [header]; rintro ⟨-, bad⟩; cases bad),
    if_neg (by rw [unmoved]; rintro ⟨-, -, bad⟩; cases bad), if_pos header, if_neg closable]

private theorem text_seen (ending : LineEnding) (line : PatchLine) :
    isChunkLine (ending.seen line.text) = true ∧
      ∃ u, u ≠ unit '*' ∧ u ≠ unit '@' ∧
        (rustTrimEnd (ending.seen line.text) = [] ∨
          ∃ tail, rustTrimEnd (ending.seen line.text) = u :: tail) := by
  have shape : ∃ u text, line.text = u :: text ∧ (u = unit ' ' ∨ u = unit '+' ∨ u = unit '-') := by
    cases line with
    | context text => exact ⟨_, text, rfl, Or.inl rfl⟩
    | added text => exact ⟨_, text, rfl, Or.inr (Or.inl rfl)⟩
    | removed text => exact ⟨_, text, rfl, Or.inr (Or.inr rfl)⟩
  obtain ⟨u, text, same, kinds⟩ := shape
  have plain : u ≠ carriageReturn ∧ u ≠ unit '*' ∧ u ≠ unit '@' := by
    rcases kinds with rfl | rfl | rfl <;> decide
  obtain ⟨tail, seen⟩ := seen_cons ending plain.1 text
  rw [same, seen]
  refine ⟨?_, u, plain.2.1, plain.2.2, ?_⟩
  · rcases kinds with rfl | rfl | rfl
    · have begins : startsWith (unit ' ' :: tail) (js " ") = true := startsWith_append (js " ") tail
      rw [isChunkLine, begins]
      simp
    · have begins : startsWith (unit '+' :: tail) (js "+") = true := startsWith_append (js "+") tail
      rw [isChunkLine, begins]
      simp
    · have begins : startsWith (unit '-' :: tail) (js "-") = true := startsWith_append (js "-") tail
      rw [isChunkLine, begins]
      simp
  · rcases rustTrimEnd_cons u tail with ⟨-, none⟩ | filled
    · exact Or.inl none
    · exact Or.inr filled

theorem readPatchLine_text (ending : LineEnding) {mutations : List Mutation} {index : Nat}
    {moved : Bool} (chunks : List Chunk) (filled : Bool) (line : PatchLine) :
    readPatchLine ⟨.update ⟨index, chunks ++ [⟨filled, false⟩], moved⟩, mutations⟩
        (ending.seen line.text) =
      some ⟨.update ⟨index, chunks ++ [⟨true, false⟩], moved⟩, mutations⟩ := by
  obtain ⟨chunkLine, u, star, heading, trimmed⟩ := text_seen ending line
  have starless : ∀ rest, rustTrimEnd (ending.seen line.text) ≠ unit '*' :: rest := by
    rcases trimmed with none | ⟨tail, shape⟩
    · rw [none]
      exact nil_ne_star
    · rw [shape]
      exact star_ne star tail
  have headless : isChunkHeader (rustTrimEnd (ending.seen line.text)) = false := by
    refine isChunkHeader_star ?_
    intro rest same
    rcases trimmed with none | ⟨tail, shape⟩
    · rw [none] at same
      cases same
    · rw [shape] at same
      injection same with head
      exact heading head
  have open' : List.getLast? (chunks ++ [⟨filled, false⟩]) = some (⟨filled, false⟩ : Chunk) :=
    List.getLast?_concat
  have going : rustTrimEnd (ending.seen line.text) ≠ endOfFile := by
    intro same
    obtain ⟨rest, shape⟩ := List.head?_eq_some_iff.mp
      (show endOfFile.head? = some (unit '*') by decide)
    exact starless rest (same.trans shape)
  rw [readPatchLine_update (startHunk_foreign _ starless)]
  unfold readUpdateLine
  simp only [open', Option.map_some, Option.getD_some]
  rw [if_neg (by rintro ⟨bad, -⟩; cases bad), if_neg (by rintro ⟨bad, -⟩; cases bad),
    if_neg (by rintro ⟨bad, -⟩; exact List.append_ne_nil_of_right_ne_nil _ (List.cons_ne_nil _ _) bad),
    if_neg (by rw [headless]; exact Bool.false_ne_true), if_neg going, if_pos chunkLine,
    UpdateState.withLast, List.dropLast_concat]

theorem readPatchLines_texts (ending : LineEnding) {mutations : List Mutation} {index : Nat}
    {moved : Bool} (chunks : List Chunk) {lines : List PatchLine} (filled : lines ≠ [])
    (before : Bool) :
    readPatchLines ⟨.update ⟨index, chunks ++ [⟨before, false⟩], moved⟩, mutations⟩
        ((lines.map PatchLine.text).map ending.seen) =
      some ⟨.update ⟨index, chunks ++ [⟨true, false⟩], moved⟩, mutations⟩ := by
  induction lines generalizing before with
  | nil => exact absurd rfl filled
  | cons line lines ih =>
      rw [List.map_cons, List.map_cons, readPatchLines, readPatchLine_text]
      by_cases last : lines = []
      · subst last
        rfl
      · exact ih last true

theorem readPatchLine_end (ending : LineEnding) {mutations : List Mutation} {index : Nat}
    {moved : Bool} (chunks : List Chunk) :
    readPatchLine ⟨.update ⟨index, chunks ++ [⟨true, false⟩], moved⟩, mutations⟩
        (ending.seen endOfFile) =
      some ⟨.update ⟨index, chunks ++ [⟨true, true⟩], moved⟩, mutations⟩ := by
  have seen : ending.seen endOfFile = endOfFile := by
    refine seen_closed ending ?_
    decide
  have trimmed : rustTrimEnd endOfFile = endOfFile := by decide
  have open' : List.getLast? (chunks ++ [⟨true, false⟩]) = some (⟨true, false⟩ : Chunk) :=
    List.getLast?_concat
  rw [seen, readPatchLine_update (by
    rw [trimmed]
    exact startHunk_inner (by decide) (by decide))]
  unfold readUpdateLine
  simp only [trimmed, open', Option.map_some, Option.getD_some]
  rw [if_neg (by rintro ⟨bad, -⟩; cases bad), if_neg (by rintro ⟨bad, -⟩; cases bad),
    if_neg (by rintro ⟨-, -, bad⟩; exact absurd bad (by decide)),
    if_neg (by decide), if_pos trivial, if_neg (by decide), UpdateState.withLast,
    List.dropLast_concat]

theorem readPatchLines_append (state : ParserState) (front back : List JsString) :
    readPatchLines state (front ++ back) =
      (readPatchLines state front).bind fun state => readPatchLines state back := by
  induction front generalizing state with
  | nil => rfl
  | cons line front ih =>
      rw [List.cons_append, readPatchLines, readPatchLines]
      cases readPatchLine state line with
      | none => rfl
      | some next => exact ih next

/-- An update with at least one chunk, the last of them with lines. -/
def Complete (chunks : List Chunk) : Prop := ∃ front ended, chunks = front ++ [⟨true, ended⟩]

private theorem Complete.closable {chunks : List Chunk} (complete : Complete chunks) :
    Closable chunks := by
  obtain ⟨front, ended, rfl⟩ := complete
  intro bad
  rw [List.getLast?_concat] at bad
  cases bad

theorem readPatchLines_chunk (ending : LineEnding) (mutations : List Mutation) (index : Nat)
    (moved : Bool) {chunks : List Chunk} (closable : Closable chunks) {chunk : PatchChunk}
    (filled : chunk.lines ≠ []) :
    readPatchLines ⟨.update ⟨index, chunks, moved⟩, mutations⟩ (chunk.text.map ending.seen) =
      some ⟨.update ⟨index, chunks ++ [⟨true, chunk.ended⟩], moved⟩, mutations⟩ := by
  have header := readPatchLine_header ending mutations ⟨index, chunks, moved⟩ chunk closable
  rw [PatchChunk.text, List.map_cons, readPatchLines, header]
  simp only [Option.bind_some]
  rw [List.map_append, readPatchLines_append, readPatchLines_texts ending chunks filled]
  cases chunk.ended with
  | false => rfl
  | true =>
      show (readPatchLine _ (ending.seen endOfFile)).bind _ = _
      rw [readPatchLine_end]
      rfl

theorem readPatchLines_chunks (ending : LineEnding) (mutations : List Mutation) (index : Nat)
    (moved : Bool) {chunks : List PatchChunk} {before : List Chunk} (closable : Closable before)
    (filled : chunks ≠ []) (lines : ∀ chunk ∈ chunks, chunk.lines ≠ []) :
    ∃ after, Complete after ∧
      readPatchLines ⟨.update ⟨index, before, moved⟩, mutations⟩
          ((chunks.flatMap PatchChunk.text).map ending.seen) =
        some ⟨.update ⟨index, after, moved⟩, mutations⟩ := by
  induction chunks generalizing before with
  | nil => exact absurd rfl filled
  | cons chunk chunks ih =>
      have read := readPatchLines_chunk ending mutations index moved closable
        (lines chunk List.mem_cons_self)
      have complete : Complete (before ++ [⟨true, chunk.ended⟩]) := ⟨before, _, rfl⟩
      rw [List.flatMap_cons, List.map_append, readPatchLines_append, read]
      by_cases last : chunks = []
      · subst last
        exact ⟨_, complete, rfl⟩
      · exact ih complete.closable last
          fun other member => lines other (List.mem_cons_of_mem _ member)

private theorem ready_opened (kind : FileChange) (simple : kind ≠ .update) (count : Nat)
    (mutations : List Mutation) : ParserState.Ready ⟨openedMode kind count, mutations⟩ := by
  cases kind with
  | update => exact absurd rfl simple
  | create => exact ⟨nofun, rfl⟩
  | delete => exact ⟨nofun, rfl⟩

private theorem ready_complete {chunks : List Chunk} (complete : Complete chunks) (index : Nat)
    (moved : Bool) (mutations : List Mutation) :
    ParserState.Ready ⟨.update ⟨index, chunks, moved⟩, mutations⟩ := by
  obtain ⟨front, ended, rfl⟩ := complete
  refine ⟨nofun, ?_⟩
  show (!((List.getLast? _).map Chunk.hasLines).getD false) = false
  rw [List.getLast?_concat]
  rfl

/-- An operation is read as its mutation, and leaves the reader ready for the next. -/
theorem readPatchLines_operation (ending : LineEnding) {state : ParserState}
    {operation : FileOperation} (ready : state.Ready) (well : operation.WellFormed) :
    ∃ mode, ParserState.Ready ⟨mode, state.mutations ++ [operation.mutation]⟩ ∧
      readPatchLines state (operation.lines.map ending.seen) =
        some ⟨mode, state.mutations ++ [operation.mutation]⟩ := by
  cases operation with
  | add path content =>
      have header := readPatchLine_marker ready ending .create well.1
      refine ⟨.add, ready_opened .create nofun 0 _, ?_⟩
      rw [FileOperation.lines, List.map_cons, readPatchLines]
      rw [show addFile ++ path = FileChange.create.marker ++ path from rfl, header]
      exact readPatchLines_content ending content _
  | delete path =>
      have header := readPatchLine_marker ready ending .delete well
      refine ⟨.delete, ready_opened .delete nofun 0 _, ?_⟩
      rw [FileOperation.lines, List.map_cons, readPatchLines]
      rw [show deleteFile ++ path = FileChange.delete.marker ++ path from rfl, header]
      rfl
  | update path moved chunks =>
      obtain ⟨good, goodMove, filled, lines⟩ := well
      have header := readPatchLine_marker ready ending .update good
      have texts := fun chunk member => (lines chunk member).1
      have fresh : Closable [] := nofun
      rw [FileOperation.lines, List.map_cons, readPatchLines]
      rw [show updateFile ++ path = FileChange.update.marker ++ path from rfl, header]
      cases moved with
      | none =>
          obtain ⟨after, complete, read⟩ := readPatchLines_chunks ending
            (state.mutations ++ [.change .update path]) state.mutations.length false fresh filled
            texts
          exact ⟨_, ready_complete complete _ _ _, read⟩
      | some destination =>
          obtain ⟨after, complete, read⟩ := readPatchLines_chunks ending
            (state.mutations ++ [.move path destination]) state.mutations.length true fresh filled
            texts
          refine ⟨_, ready_complete complete state.mutations.length true _, ?_⟩
          have move := readPatchLine_move ending state.mutations path (goodMove destination rfl)
          show (readPatchLine _ (ending.seen (moveTo ++ destination))).bind _ = _
          have opened : openedMode .update (state.mutations.length + 1) =
              .update ⟨state.mutations.length, [], false⟩ := rfl
          rw [opened, move]
          exact read

theorem readPatchLines_operations (ending : LineEnding) {state : ParserState}
    {operations : List FileOperation} (ready : state.Ready)
    (well : ∀ operation ∈ operations, operation.WellFormed) :
    ∃ mode, ParserState.Ready ⟨mode, state.mutations ++ operations.map FileOperation.mutation⟩ ∧
      readPatchLines state ((operations.flatMap FileOperation.lines).map ending.seen) =
        some ⟨mode, state.mutations ++ operations.map FileOperation.mutation⟩ := by
  induction operations generalizing state with
  | nil =>
      refine ⟨state.mode, ?_, ?_⟩
      · rw [List.map_nil, List.append_nil]
        exact ready
      · rw [List.map_nil, List.append_nil]
        rfl
  | cons operation operations ih =>
      obtain ⟨mode, later, read⟩ :=
        readPatchLines_operation ending ready (well operation List.mem_cons_self)
      obtain ⟨final, done, rest⟩ :=
        ih later fun other member => well other (List.mem_cons_of_mem _ member)
      rw [List.append_assoc] at done rest
      refine ⟨final, done, ?_⟩
      rw [List.flatMap_cons, List.map_append, readPatchLines_append, read]
      exact rest

end Reading

section Commands

variable {ending : LineEnding} {operations : List FileOperation}

private theorem intercalate_concat (separator : JsString) (front : List JsString)
    (last : JsString) :
    separator.intercalate (front ++ [last]) =
      (front.flatMap fun line => line ++ separator) ++ last := by
  induction front with
  | nil => rw [List.nil_append, List.intercalate_singleton, List.flatMap_nil, List.nil_append]
  | cons line front ih =>
      have filled : front ++ [last] ≠ [] := List.append_ne_nil_of_right_ne_nil _ (List.cons_ne_nil _ _)
      obtain ⟨next, rest, shape⟩ := List.exists_cons_of_ne_nil filled
      rw [List.cons_append, shape, List.intercalate_cons_cons, ← shape, ih, List.flatMap_cons]
      simp only [List.append_assoc]

private theorem lastLine_closed (wrapped : Option HereDocument) :
    lineFeed ∉ lastLine wrapped ∧ lastLine wrapped ≠ [] ∧
      ∀ u ∈ (lastLine wrapped).getLast?, isRustWhitespace u = false := by
  cases wrapped with
  | none => decide
  | some form => cases form <;> decide

private theorem operation_lines {operation : FileOperation} (well : operation.WellFormed) :
    ∀ line ∈ operation.lines, lineFeed ∉ line := by
  have headed : ∀ (front : JsString), lineFeed ∉ front → ∀ path, lineFeed ∉ path →
      lineFeed ∉ front ++ path := by
    intro front plain path oneLine member
    rcases List.mem_append.mp member with inside | inside
    · exact plain inside
    · exact oneLine inside
  cases operation with
  | add path content =>
      intro line member
      rcases List.mem_cons.mp member with rfl | inside
      · exact headed addFile (by decide) path well.1.oneLine
      · obtain ⟨text, at_text, rfl⟩ := List.mem_map.mp inside
        exact headed (js "+") (by decide) text (well.2 text at_text)
  | delete path =>
      intro line member
      rw [FileOperation.lines, List.mem_singleton] at member
      rw [member]
      exact headed deleteFile (by decide) path well.oneLine
  | update path moved chunks =>
      obtain ⟨good, goodMove, -, texts⟩ := well
      intro line member
      rcases List.mem_cons.mp member with rfl | inside
      · exact headed updateFile (by decide) path good.oneLine
      rcases List.mem_append.mp inside with first | later
      · cases moved with
        | none => cases first
        | some destination =>
            rw [Option.map_some, Option.toList_some, List.mem_singleton] at first
            rw [first]
            exact headed moveTo (by decide) destination (goodMove destination rfl).oneLine
      · obtain ⟨chunk, at_chunk, here⟩ := List.mem_flatMap.mp later
        exact (texts chunk at_chunk).2 line here

private theorem leading_lines (wrapped : Option HereDocument)
    (well : ∀ operation ∈ operations, operation.WellFormed) :
    ∀ line ∈ leadingLines wrapped operations, lineFeed ∉ line := by
  have body : ∀ line ∈ operations.flatMap FileOperation.lines, lineFeed ∉ line := by
    intro line member
    obtain ⟨operation, inside, here⟩ := List.mem_flatMap.mp member
    exact operation_lines (well operation inside) line here
  have marker : lineFeed ∉ beginPatch := by decide
  have final : lineFeed ∉ endPatch := by decide
  intro line member
  cases wrapped with
  | none =>
      rcases List.mem_cons.mp member with rfl | inside
      · exact marker
      · exact body line inside
  | some form =>
      simp only [leadingLines, List.mem_cons, List.mem_append, List.not_mem_nil, or_false] at member
      rcases member with rfl | rfl | inside | rfl
      · cases form <;> decide
      · exact marker
      · exact body line inside
      · exact final

private theorem splitBreaks_command (wrapped : Option HereDocument)
    (well : ∀ operation ∈ operations, operation.WellFormed) :
    splitBreaks (((leadingLines wrapped operations).flatMap fun line => line ++ ending.text) ++
        lastLine wrapped) =
      (leadingLines wrapped operations).map ending.seen ++ [lastLine wrapped] := by
  obtain ⟨final, -, -⟩ := lastLine_closed wrapped
  cases ending with
  | lf => exact splitBreaks_fed (leading_lines wrapped well) final
  | crlf =>
      rw [show LineEnding.crlf.seen = id from rfl, List.map_id]
      exact splitBreaks_returned (leading_lines wrapped well) final

private theorem rustTrim_command (closed : Bool) (wrapped : Option HereDocument) :
    rustTrim (renderPatch ending closed wrapped operations) =
      ((leadingLines wrapped operations).flatMap fun line => line ++ ending.text) ++
        lastLine wrapped := by
  have trail : rustTrimEnd (if closed then ending.text else []) = [] := by
    cases closed <;> cases ending <;> decide
  obtain ⟨-, filled, last⟩ := lastLine_closed wrapped
  have ends : ∀ u ∈ (((leadingLines wrapped operations).flatMap fun line =>
      line ++ ending.text) ++ lastLine wrapped).getLast?, isRustWhitespace u = false := by
    rw [List.getLast?_append_of_ne_nil _ filled]
    exact last
  have visible : ∃ u rest, isRustWhitespace u = false ∧
      renderPatch ending closed wrapped operations = u :: rest := by
    unfold renderPatch
    rw [intercalate_concat]
    cases wrapped with
    | none => exact ⟨_, _, by decide, rfl⟩
    | some form => cases form <;> exact ⟨_, _, by decide, rfl⟩
  obtain ⟨u, rest, plain, shape⟩ := visible
  rw [shape, rustTrim_visible plain, ← shape, renderPatch, intercalate_concat, rustTrimEnd_append,
    if_pos trail]
  exact rustTrimEnd_closed ends

private theorem bounded_markers (middle : List JsString) :
    bounded (beginPatch :: (middle ++ [endPatch])) = some (beginPatch :: (middle ++ [endPatch])) := by
  have last : (beginPatch :: (middle ++ [endPatch])).getLast? = some endPatch := by
    rw [← List.cons_append]
    exact List.getLast?_concat
  unfold bounded
  rw [List.head?_cons, last]
  exact if_pos ⟨by decide, by decide⟩

/-- The markers of a rendered command are found, in or out of a here-document. -/
theorem boundedPatchLines_render (closed : Bool) (wrapped : Option HereDocument)
    (well : ∀ operation ∈ operations, operation.WellFormed) :
    boundedPatchLines (renderPatch ending closed wrapped operations) =
      some (beginPatch :: ((operations.flatMap FileOperation.lines).map ending.seen ++
        [endPatch])) := by
  have keeps : ∀ line : JsString, (∀ u ∈ line.getLast?, isRustWhitespace u = false) →
      ending.seen line = line := fun line ends => seen_closed ending ends
  have seenBegin : ending.seen beginPatch = beginPatch := keeps _ (by decide)
  have seenEnd : ending.seen endPatch = endPatch := keeps _ (by decide)
  have filled : rustTrim (renderPatch ending closed wrapped operations) ≠ [] := by
    rw [rustTrim_command]
    exact List.append_ne_nil_of_right_ne_nil _ (lastLine_closed wrapped).2.1
  unfold boundedPatchLines
  simp only
  rw [if_neg filled, rustTrim_command, splitBreaks_command wrapped well]
  cases wrapped with
  | none =>
      have shape : (leadingLines none operations).map ending.seen ++ [lastLine none] =
          beginPatch :: ((operations.flatMap FileOperation.lines).map ending.seen ++
            [endPatch]) := by
        rw [leadingLines, List.map_cons, seenBegin, lastLine, List.cons_append]
      rw [shape, bounded_markers]
  | some form =>
      have seenOpening : ending.seen form.opening = form.opening := by
        refine keeps _ ?_
        cases form <;> decide
      have shape : (leadingLines (some form) operations).map ending.seen ++ [lastLine (some form)] =
          form.opening :: ((beginPatch :: ((operations.flatMap FileOperation.lines).map ending.seen ++
            [endPatch])) ++ [js "EOF"]) := by
        rw [leadingLines, List.map_cons, List.map_cons, List.map_append, seenOpening, seenBegin,
          List.map_singleton, seenEnd]
        rfl
      generalize (operations.flatMap FileOperation.lines).map ending.seen = middle at shape
      have last : (form.opening :: ((beginPatch :: (middle ++ [endPatch])) ++
          [js "EOF"])).getLast? = some (js "EOF") := by
        rw [← List.cons_append]
        exact List.getLast?_concat
      have unbound : bounded (form.opening :: ((beginPatch :: (middle ++ [endPatch])) ++
          [js "EOF"])) = none := by
        unfold bounded
        rw [List.head?_cons, last]
        refine if_neg ?_
        rintro ⟨bad, -⟩
        revert bad
        cases form <;> decide
      have named : form.opening ∈ hereDocuments := by
        cases form <;> decide
      rw [shape, unbound, List.head?_cons, last]
      simp only
      rw [if_pos ⟨by simp only [List.length_cons, List.length_append]; omega, named, by decide⟩,
        List.drop_succ_cons, List.drop_zero, List.dropLast_concat, bounded_markers]

theorem parsePatch_render (closed : Bool) (wrapped : Option HereDocument)
    (well : ∀ operation ∈ operations, operation.WellFormed) :
    parsePatch (renderPatch ending closed wrapped operations) =
      if operations = [] then none else some (operations.map FileOperation.mutation) := by
  have ready : ParserState.start.Ready := ⟨nofun, rfl⟩
  obtain ⟨mode, done, read⟩ := readPatchLines_operations ending ready well
  have middle : (List.drop 1 (beginPatch ::
      ((operations.flatMap FileOperation.lines).map ending.seen ++ [endPatch]))).dropLast =
        (operations.flatMap FileOperation.lines).map ending.seen := by
    rw [List.drop_succ_cons, List.drop_zero, List.dropLast_concat]
  unfold parsePatch
  simp only [boundedPatchLines_render closed wrapped well, bind, Option.bind_some, middle, read]
  rw [if_neg (by rw [done.2]; exact Bool.false_ne_true)]
  have fresh : ParserState.start.mutations ++ operations.map FileOperation.mutation =
      operations.map FileOperation.mutation := List.nil_append _
  rw [fresh]
  simp only [List.map_eq_nil_iff]

end Commands

end Kratos.Relay
