/- source: adapters/codex/pre-tool-use.ts
   digest: The line state machine that extracts the mutations of an apply_patch command. -/

import Kratos.Foundation.Pieces

set_option autoImplicit false

namespace Kratos.Relay

open Foundation.Text Foundation.Pieces

inductive FileChange
  | create | delete | update
deriving DecidableEq, Repr

inductive Mutation
  | change (kind : FileChange) (path : JsString)
  | move (source destination : JsString)
deriving DecidableEq, Repr

def beginPatch : JsString := js "*** Begin Patch"
def endPatch : JsString := js "*** End Patch"
def environmentId : JsString := js "*** Environment ID:"
def addFile : JsString := js "*** Add File: "
def deleteFile : JsString := js "*** Delete File: "
def updateFile : JsString := js "*** Update File: "
def moveTo : JsString := js "*** Move to: "
def endOfFile : JsString := js "*** End of File"

def isRustWhitespace (code : CodeUnit) : Bool :=
  (0x0009 ≤ code.toNat && code.toNat ≤ 0x000D) || code.toNat == 0x0020 || code.toNat == 0x0085 ||
    code.toNat == 0x00A0 || code.toNat == 0x1680 ||
    (0x2000 ≤ code.toNat && code.toNat ≤ 0x200A) || code.toNat == 0x2028 ||
    code.toNat == 0x2029 || code.toNat == 0x202F || code.toNat == 0x205F || code.toNat == 0x3000

def rustTrimEnd (value : JsString) : JsString := value.rdropWhile isRustWhitespace

def rustTrim (value : JsString) : JsString := rustTrimEnd (value.dropWhile isRustWhitespace)

/-- The lines from the begin marker to the end marker. -/
def bounded (lines : List JsString) : Option (List JsString) :=
  match lines.head?, lines.getLast? with
  | some firstLine, some lastLine =>
      if rustTrim firstLine = beginPatch ∧ rustTrim lastLine = endPatch then some lines else none
  | _, _ => none

def hereDocuments : List JsString := [js "<<EOF", js "<<'EOF'", js "<<\"EOF\""]

/-- `value.endsWith(suffix)`. -/
def endsWith (value suffix : JsString) : Bool := suffix.isSuffixOf value

def boundedPatchLines (command : JsString) : Option (List JsString) :=
  let text := rustTrim command
  if text = [] then none
  else
    let original := splitBreaks text
    match bounded original with
    | some lines => some lines
    | none =>
        match original.head?, original.getLast? with
        | some first, some last =>
            if 4 ≤ original.length ∧ first ∈ hereDocuments ∧ endsWith last (js "EOF") = true then
              bounded (original.drop 1).dropLast
            else none
        | _, _ => none

structure Chunk where
  hasLines : Bool
  endOfFile : Bool
deriving DecidableEq, Repr

structure UpdateState where
  mutationIndex : Nat
  chunks : List Chunk
  moved : Bool
deriving DecidableEq, Repr

inductive ParserMode
  | started | add | delete
  | update (state : UpdateState)
  | ended
deriving DecidableEq, Repr

structure ParserState where
  mode : ParserMode
  mutations : List Mutation
deriving DecidableEq, Repr

def ParserState.start : ParserState := ⟨.started, []⟩

def UpdateState.isComplete (update : UpdateState) : Bool :=
  (update.chunks.getLast?.map Chunk.hasLines).getD false

/-- `state.mode === "update" && !updateIsComplete()`. -/
def ParserMode.unfinished : ParserMode → Bool
  | .update state => !state.isComplete
  | _ => false

def fileMarkers : List (JsString × FileChange) :=
  [(addFile, .create), (deleteFile, .delete), (updateFile, .update)]

def fileHeader (line : JsString) : Option (FileChange × JsString) :=
  (fileMarkers.find? fun marker => startsWith line marker.1).map fun marker =>
    (marker.2, line.drop marker.1.length)

inductive HunkStart
  | handled (state : ParserState)
  | notHandled
  | invalid
deriving DecidableEq, Repr

/-- The mode a file header opens, its mutation being the last of so many. -/
def openedMode (kind : FileChange) (count : Nat) : ParserMode :=
  match kind with
  | .create => .add
  | .delete => .delete
  | .update => .update ⟨count - 1, [], false⟩

def startHunk (state : ParserState) (line : JsString) : HunkStart :=
  if state.mode = .started ∧ startsWith line environmentId = true then .invalid
  else if line = endPatch then
    if state.mode.unfinished then .invalid else .handled { state with mode := .ended }
  else
    match fileHeader line with
    | some (kind, path) =>
        if state.mode.unfinished then .invalid
        else if path = [] then .invalid
        else
          .handled
            { mode := openedMode kind (state.mutations.length + 1)
              mutations := state.mutations ++ [.change kind path] }
    | none => .notHandled

/-- `updateLine === "@@" || updateLine.startsWith("@@ ")`. -/
def isChunkHeader (line : JsString) : Bool := line == js "@@" || startsWith line (js "@@ ")

/-- `line.length === 0` or a context, added or removed line. -/
def isChunkLine (line : JsString) : Bool :=
  line.isEmpty || startsWith line (js " ") || startsWith line (js "+") || startsWith line (js "-")

def UpdateState.withLast (update : UpdateState) (chunk : Chunk) : UpdateState :=
  { update with chunks := update.chunks.dropLast ++ [chunk] }

def readUpdateLine (state : ParserState) (update : UpdateState) (line : JsString) :
    Option ParserState :=
  let updateLine := rustTrimEnd line
  let lastChunk := update.chunks.getLast?
  let afterEnd := (lastChunk.map Chunk.endOfFile).getD false
  if afterEnd = true ∧ updateLine = [] then some state
  else if afterEnd = true ∧ isChunkHeader updateLine = false then none
  else if update.chunks = [] ∧ update.moved = false ∧ startsWith updateLine moveTo = true then
    let destination := updateLine.drop moveTo.length
    match state.mutations[update.mutationIndex]? with
    | some (.change .update source) =>
        if destination = [] then none
        else
          some
            { mode := .update { update with moved := true }
              mutations := state.mutations.set update.mutationIndex (.move source destination) }
    | _ => none
  else if isChunkHeader updateLine then
    if lastChunk.map Chunk.hasLines = some false then none
    else
      some { state with
        mode := .update { update with chunks := update.chunks ++ [⟨false, false⟩] } }
  else if updateLine = endOfFile then
    match lastChunk with
    | some chunk =>
        if chunk.hasLines = false then none
        else some { state with mode := .update (update.withLast { chunk with endOfFile := true }) }
    | none => some state
  else if isChunkLine line then
    match lastChunk with
    | some chunk =>
        some { state with mode := .update (update.withLast { chunk with hasLines := true }) }
    | none => some { state with mode := .update { update with chunks := [⟨true, false⟩] } }
  else none

def readPatchLine (state : ParserState) (line : JsString) : Option ParserState :=
  match state.mode with
  | .ended => if rustTrim line = [] then some state else none
  | .update update =>
      match startHunk state (rustTrimEnd line) with
      | .invalid => none
      | .handled state => some state
      | .notHandled => readUpdateLine state update line
  | mode =>
      match startHunk state (rustTrim line) with
      | .invalid => none
      | .handled state => some state
      | .notHandled => if mode = .add ∧ startsWith line (js "+") = true then some state else none

def readPatchLines (state : ParserState) : List JsString → Option ParserState
  | [] => some state
  | line :: lines => (readPatchLine state line).bind fun state => readPatchLines state lines

/-- Extract the mutations of a command; none where it is not understood to its end. -/
def parsePatch (command : JsString) : Option (List Mutation) := do
  let lines ← boundedPatchLines command
  let state ← readPatchLines .start (lines.drop 1).dropLast
  if state.mode.unfinished then none
  else if state.mutations = [] then none
  else some state.mutations

end Kratos.Relay
