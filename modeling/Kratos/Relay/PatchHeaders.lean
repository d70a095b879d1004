/- source: adapters/codex/pre-tool-use.ts
   digest: The headers a patch shows and the mutations they give, one for one. -/

import Kratos.Relay.PatchReader

set_option autoImplicit false

namespace Kratos.Relay

open Foundation.Text

inductive Header
  | file (kind : FileChange) (path : JsString)
  | move (destination : JsString)
deriving DecidableEq, Repr

/-- The header a line is in the state it is read in: outside updates after trimming both ends,
inside them after trimming the end; a move header only before the first chunk of an update that is
not moved yet. -/
def headerIn (state : ParserState) (line : JsString) : Option Header :=
  match state.mode with
  | .update update =>
      match fileHeader (rustTrimEnd line) with
      | some (kind, path) => some (.file kind path)
      | none =>
          if update.chunks = [] ∧ update.moved = false ∧
              startsWith (rustTrimEnd line) moveTo = true then
            some (.move ((rustTrimEnd line).drop moveTo.length))
          else none
  | _ => (fileHeader (rustTrim line)).map fun header => .file header.1 header.2

def headersRead (state : ParserState) : List JsString → List Header
  | [] => []
  | line :: lines =>
      (headerIn state line).toList ++
        match readPatchLine state line with
        | some state => headersRead state lines
        | none => []

def Mutation.headers : Mutation → List Header
  | .change kind path => [.file kind path]
  | .move source destination => [.file .update source, .move destination]

/-- An update in progress is the last mutation. -/
def ParserState.Indexed (state : ParserState) : Prop :=
  ∀ update, state.mode = .update update → update.mutationIndex + 1 = state.mutations.length

theorem ParserState.indexed_start : ParserState.start.Indexed := by
  intro update same
  cases same

theorem startHunk_handled {state next : ParserState} {line : JsString}
    (handled : startHunk state line = .handled next) :
    (line = endPatch ∧ next = { state with mode := .ended }) ∨
      ∃ kind path, line ≠ endPatch ∧ fileHeader line = some (kind, path) ∧ path ≠ [] ∧
        next = ⟨openedMode kind (state.mutations.length + 1),
          state.mutations ++ [.change kind path]⟩ := by
  unfold startHunk at handled
  split at handled
  · cases handled
  split at handled
  · next final =>
      split at handled
      · cases handled
      · injection handled with handled
        exact Or.inl ⟨final, handled.symm⟩
  · next other =>
      split at handled
      · next kind path header =>
          split at handled
          · cases handled
          split at handled
          · cases handled
          · next filled =>
              injection handled with handled
              exact Or.inr ⟨kind, path, other, header, filled, handled.symm⟩
      · cases handled

theorem startHunk_notHandled {state : ParserState} {line : JsString}
    (kept : startHunk state line = .notHandled) : fileHeader line = none := by
  unfold startHunk at kept
  split at kept
  · cases kept
  split at kept
  · split at kept <;> cases kept
  split at kept
  · split at kept
    · cases kept
    · split at kept <;> cases kept
  · assumption

/-- What a line of an update that starts no hunk does: it changes chunks, or names the
destination of the update. -/
theorem readUpdateLine_cases {state next : ParserState} {update : UpdateState} {line : JsString}
    (read : readUpdateLine state update line = some next) (mode : state.mode = .update update) :
    (∃ later, next = ⟨.update later, state.mutations⟩ ∧
        later.mutationIndex = update.mutationIndex ∧
        ¬ (update.chunks = [] ∧ update.moved = false ∧
          startsWith (rustTrimEnd line) moveTo = true)) ∨
      ∃ source, update.chunks = [] ∧ update.moved = false ∧
        startsWith (rustTrimEnd line) moveTo = true ∧
        state.mutations[update.mutationIndex]? = some (.change .update source) ∧
        next = ⟨.update { update with moved := true },
          state.mutations.set update.mutationIndex
            (.move source ((rustTrimEnd line).drop moveTo.length))⟩ := by
  have same : state = ⟨.update update, state.mutations⟩ := by
    rw [← mode]
  have chunked : (update.chunks.getLast?.map Chunk.endOfFile).getD false = true →
      update.chunks ≠ [] := by
    rintro ended none
    rw [none] at ended
    cases ended
  unfold readUpdateLine at read
  simp only at read
  split at read
  · next blank =>
      obtain rfl := Option.some.inj read
      exact Or.inl ⟨update, same, rfl, fun moving => chunked blank.1 moving.1⟩
  split at read
  · cases read
  split at read
  · next moving =>
      split at read
      · next source found =>
          split at read
          · cases read
          · obtain rfl := Option.some.inj read
            exact Or.inr ⟨source, moving.1, moving.2.1, moving.2.2, found, rfl⟩
      · cases read
  next still =>
  split at read
  · split at read
    · cases read
    · obtain rfl := Option.some.inj read
      exact Or.inl ⟨_, rfl, rfl, still⟩
  split at read
  · split at read
    · split at read
      · cases read
      · obtain rfl := Option.some.inj read
        exact Or.inl ⟨_, rfl, rfl, still⟩
    · obtain rfl := Option.some.inj read
      exact Or.inl ⟨update, same, rfl, still⟩
  split at read
  · split at read
    · obtain rfl := Option.some.inj read
      exact Or.inl ⟨_, rfl, rfl, still⟩
    · obtain rfl := Option.some.inj read
      exact Or.inl ⟨_, rfl, rfl, still⟩
  · cases read

private theorem flatMap_headers_set {mutations : List Mutation} {index : Nat} {source : JsString}
    (last : index + 1 = mutations.length)
    (found : mutations[index]? = some (.change .update source)) (destination : JsString) :
    (mutations.set index (.move source destination)).flatMap Mutation.headers =
      mutations.flatMap Mutation.headers ++ [.move destination] := by
  have filled : mutations ≠ [] := by
    rintro rfl
    cases last
  obtain ⟨front, final, rfl⟩ := (List.eq_nil_or_concat mutations).resolve_left filled
  rw [List.concat_eq_append] at last found ⊢
  have place : index = front.length := by
    rw [List.length_append, List.length_singleton] at last
    omega
  subst place
  rw [List.getElem?_concat_length] at found
  obtain rfl := Option.some.inj found
  rw [List.set_append_right _ _ (Nat.le_refl _), Nat.sub_self, List.flatMap_append,
    List.flatMap_append, List.append_assoc]
  rfl

theorem fileHeader_endPatch : fileHeader endPatch = none := by decide

private theorem readPatchLine_outside {state next : ParserState} {line : JsString}
    (outside : ∀ update, state.mode ≠ .update update) (running : state.mode ≠ .ended)
    (read : readPatchLine state line = some next) :
    startHunk state (rustTrim line) = .handled next ∨
      startHunk state (rustTrim line) = .notHandled ∧ next = state := by
  unfold readPatchLine at read
  split at read
  · next ended => exact absurd ended running
  · next update mode => exact absurd mode (outside update)
  · split at read
    · cases read
    · next handled =>
        rw [← Option.some.inj read]
        exact Or.inl handled
    · next kept =>
        split at read
        · rw [← Option.some.inj read]
          exact Or.inr ⟨kept, rfl⟩
        · cases read

private theorem indexed_opened (kind : FileChange) (path : JsString) (mutations : List Mutation) :
    ParserState.Indexed ⟨openedMode kind (mutations.length + 1),
      mutations ++ [.change kind path]⟩ := by
  intro update mode
  rw [List.length_append, List.length_singleton]
  cases kind with
  | update =>
      injection mode with mode
      subst mode
      rfl
  | create => cases mode
  | delete => cases mode

private theorem startHunk_headers {state next : ParserState} {line : JsString}
    (handled : startHunk state line = .handled next) :
    next.Indexed ∧ next.mutations.flatMap Mutation.headers =
      state.mutations.flatMap Mutation.headers ++
        ((fileHeader line).map fun header => Header.file header.1 header.2).toList := by
  rcases startHunk_handled handled with ⟨rfl, rfl⟩ | ⟨kind, path, -, header, -, rfl⟩
  · refine ⟨?_, ?_⟩
    · intro update mode
      cases mode
    · rw [fileHeader_endPatch]
      exact (List.append_nil _).symm
  · refine ⟨indexed_opened kind path state.mutations, ?_⟩
    rw [header, List.flatMap_append]
    rfl

private theorem headerIn_outside {state : ParserState}
    (outside : ∀ update, state.mode ≠ .update update) (line : JsString) :
    headerIn state line =
      (fileHeader (rustTrim line)).map fun header => Header.file header.1 header.2 := by
  unfold headerIn
  split
  · next update mode => exact absurd mode (outside update)
  · rfl

private theorem readUpdateLine_headers {state next : ParserState} {update : UpdateState}
    {line : JsString} (indexed : state.Indexed) (mode : state.mode = .update update)
    (plain : fileHeader (rustTrimEnd line) = none)
    (read : readUpdateLine state update line = some next) :
    next.Indexed ∧ next.mutations.flatMap Mutation.headers =
      state.mutations.flatMap Mutation.headers ++ (headerIn state line).toList := by
  have index := indexed update mode
  have header : headerIn state line =
      if update.chunks = [] ∧ update.moved = false ∧
          startsWith (rustTrimEnd line) moveTo = true then
        some (.move ((rustTrimEnd line).drop moveTo.length))
      else none := by
    unfold headerIn
    rw [mode]
    simp only [plain]
  rw [header]
  rcases readUpdateLine_cases read mode with ⟨later, rfl, place, still⟩ |
    ⟨source, fresh, unmoved, begins, found, rfl⟩
  · rw [if_neg still]
    refine ⟨?_, (List.append_nil _).symm⟩
    intro other same
    injection same with same
    subst same
    show later.mutationIndex + 1 = _
    rw [place]
    exact index
  · rw [if_pos ⟨fresh, unmoved, begins⟩]
    refine ⟨?_, flatMap_headers_set index found _⟩
    intro other same
    injection same with same
    subst same
    show update.mutationIndex + 1 = (state.mutations.set _ _).length
    rw [List.length_set]
    exact index

theorem readPatchLine_headers {state next : ParserState} {line : JsString}
    (indexed : state.Indexed) (read : readPatchLine state line = some next) :
    next.Indexed ∧ next.mutations.flatMap Mutation.headers =
      state.mutations.flatMap Mutation.headers ++ (headerIn state line).toList := by
  by_cases inside : ∃ update, state.mode = .update update
  · obtain ⟨update, mode⟩ := inside
    unfold readPatchLine at read
    rw [mode] at read
    simp only at read
    split at read
    · cases read
    · next after handled =>
        obtain rfl := Option.some.inj read
        obtain ⟨later, headers⟩ := startHunk_headers handled
        refine ⟨later, ?_⟩
        rw [headers, headerIn, mode]
        rcases startHunk_handled handled with ⟨final, -⟩ | ⟨kind, path, -, header, -, -⟩
        · simp only [final, fileHeader_endPatch]
          rw [if_neg]
          · rfl
          · rintro ⟨-, -, moving⟩
            exact absurd moving (by decide)
        · simp only [header, Option.map_some]
    · next kept => exact readUpdateLine_headers indexed mode (startHunk_notHandled kept) read
  · have outside : ∀ update, state.mode ≠ .update update := fun update mode =>
      inside ⟨update, mode⟩
    rw [headerIn_outside outside]
    by_cases ended : state.mode = .ended
    · unfold readPatchLine at read
      rw [ended] at read
      simp only at read
      split at read
      · next blank =>
          obtain rfl := Option.some.inj read
          rw [blank]
          exact ⟨indexed, (List.append_nil _).symm⟩
      · cases read
    · rcases readPatchLine_outside outside ended read with handled | ⟨kept, rfl⟩
      · exact startHunk_headers handled
      · rw [startHunk_notHandled kept]
        exact ⟨indexed, (List.append_nil _).symm⟩

theorem readPatchLines_headers {lines : List JsString} {state final : ParserState}
    (indexed : state.Indexed) (read : readPatchLines state lines = some final) :
    final.mutations.flatMap Mutation.headers =
      state.mutations.flatMap Mutation.headers ++ headersRead state lines := by
  induction lines generalizing state with
  | nil =>
      obtain rfl := Option.some.inj read
      exact (List.append_nil _).symm
  | cons line lines ih =>
      rw [readPatchLines] at read
      obtain ⟨next, step, rest⟩ := Option.bind_eq_some_iff.mp read
      obtain ⟨later, headers⟩ := readPatchLine_headers indexed step
      rw [ih later rest, headers, headersRead, step, List.append_assoc]

/-- The headers shown by the lines between the markers of a command. -/
def commandHeaders (command : JsString) : List Header :=
  ((boundedPatchLines command).map fun lines =>
    headersRead .start (lines.drop 1).dropLast).getD []

/-- Every header line of an accepted command belongs to one mutation, in order. -/
theorem parsePatch_headers {command : JsString} {mutations : List Mutation}
    (parsed : parsePatch command = some mutations) :
    mutations.flatMap Mutation.headers = commandHeaders command := by
  simp only [parsePatch, bind, Option.bind_eq_some_iff] at parsed
  obtain ⟨lines, bounds, final, read, parsed⟩ := parsed
  have headers := readPatchLines_headers ParserState.indexed_start read
  split at parsed
  · cases parsed
  split at parsed
  · cases parsed
  · obtain rfl := Option.some.inj parsed
    rw [headers, commandHeaders, bounds]
    rfl

end Kratos.Relay
