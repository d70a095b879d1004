/- source: domain/init/tasks.ts
   digest: The commands that workflows, task files and containers name. -/

import Kratos.Foundation.Collections
import Kratos.Foundation.JsonParser
import Kratos.Foundation.Regexes
import Kratos.Initialization.StackTables
import Kratos.Initialization.WorkflowSteps

set_option autoImplicit false

namespace Kratos.Initialization

open Foundation.Collections Foundation.JsonText Foundation.Lines Foundation.Regexes Foundation.Text
open Foundation.Utf8 (unitsOfCodePoint)

/-- `{ status: "derived", value, evidence }`. -/
structure Leaf (α : Type) where
  value : α
  evidence : JsString
  deriving DecidableEq, Repr

/-- One file read from disk, with the path it was read from. -/
structure ManifestFile where
  path : JsString
  content : JsString
  deriving DecidableEq, Repr

/-- The longest evidence string the profile schema stores. -/
def EVIDENCE_MAX_LENGTH : Nat := 256

/-- The longest command the profile schema stores. -/
def COMMAND_MAX_LENGTH : Nat := 2048

namespace CommandSlot

def text : CommandSlot → JsString
  | test => js "test"
  | lint => js "lint"
  | build => js "build"
  | run => js "run"

end CommandSlot

/-- The derived commands, in the order they were derived. -/
abbrev Commands := List (CommandSlot × Leaf JsString)

/-- `slot in commands`. -/
def Commands.has (commands : Commands) (slot : CommandSlot) : Bool :=
  commands.any fun entry => decide (entry.1 = slot)

section Names

def wordsPattern (choices : List Regex) : Regex :=
  .sequence [.wordBoundary wordPointAnyCase, .oneOf choices, .wordBoundary wordPointAnyCase]

/-- What a task name has to say before a command is attributed to a slot. -/
def SLOT_PATTERNS : List (CommandSlot × Regex) :=
  [(.test, wordsPattern [.seq (.wordAnyCase "test") (.maybe (.wordAnyCase "s")), .wordAnyCase "testing"]),
   (.lint, wordsPattern (["lint", "lints", "linting", "linter", "format", "formatting"].map .wordAnyCase)),
   (.build, wordsPattern
      (["build", "builds", "building", "compile", "compiles", "compilation"].map .wordAnyCase)),
   (.run, wordsPattern (["start", "starts", "serve", "serves", "launch", "launches"].map .wordAnyCase))]

/-- The one slot a name states, or nothing: a name that states two states neither. -/
def slotOfName (name : JsString) : Option CommandSlot :=
  match SLOT_PATTERNS.filter fun entry => entry.2.test name with
  | [entry] => some entry.1
  | _ => none

example : slotOfName (js "Run the Tests") = some .test ∧ slotOfName (js "Build and test") = none := by
  decide +kernel

def firstGroup (pattern : Regex) (text : JsString) : Option JsString :=
  (search pattern none (codePoints text)).map fun found =>
    (captured found.2.groups 1).flatMap unitsOfCodePoint

/-- `[A-Za-z0-9_-]`. -/
def namePoint (point : Nat) : Bool := wordPoint point || point == '-'.toNat

def quotePoint (point : Nat) : Bool := point == '"'.toNat || point == '\''.toNat

end Names

/-- Record a derived command, unless a more specific source already answered. -/
def offer (commands : Commands) (slot : CommandSlot) (value evidence : JsString) : Commands :=
  if commands.has slot then commands
  else
    let command := trim value
    if command.isEmpty || decide (COMMAND_MAX_LENGTH < command.length) then commands
    else if command.any fun u => u == unit '\r' || u == unit '\n' then commands
    else if decide (EVIDENCE_MAX_LENGTH < evidence.length) then commands
    else commands ++ [(slot, { value := command, evidence })]

def offerSlots (names : List JsString) (command evidence : CommandSlot → JsString) (commands : Commands) :
    Commands :=
  COMMAND_SLOTS.foldl (fun commands slot =>
    if names.contains slot.text then offer commands slot (command slot) (evidence slot) else commands) commands

section Workflows

def slotOfStep (steps : List WorkflowStep) (step : WorkflowStep) : Option CommandSlot :=
  (step.name.bind slotOfName).or
    (if steps.countP (fun other => decide (other.job = step.job)) = 1 then slotOfName (step.jobName.getD step.job)
     else none)

def stepEvidence (path : JsString) (step : WorkflowStep) : JsString :=
  path ++ js "#job:" ++ step.job ++
    match step.name with
    | none => []
    | some name => js "/step:" ++ name

def deriveWorkflowFile (commands : Commands) (workflow : ManifestFile) : Commands :=
  let steps := readWorkflowSteps workflow.content
  steps.foldl (fun commands step =>
    match slotOfStep steps step with
    | none => commands
    | some slot => offer commands slot step.run (stepEvidence workflow.path step)) commands

/-- Derive commands from what the repository's CI actually runs. -/
def deriveWorkflowCommands (workflows : List ManifestFile) (commands : Commands) : Commands :=
  workflows.foldl deriveWorkflowFile commands

end Workflows

section TaskFiles

def taskNames (nameIndent : Option Nat) (names : List JsString) : List JsString → List JsString
  | [] => names
  | line :: rest =>
      if isIgnorable line then taskNames nameIndent names rest
      else if indentOf line = 0 then names
      else
        let place := nameIndent.getD (indentOf line)
        if indentOf line ≠ place then taskNames (some place) names rest
        else
          match keyOf (line.drop (indentOf line)) with
          | none => taskNames (some place) names rest
          | some entry => taskNames (some place) (names ++ [entry.1]) rest

/-- `/^tasks\s*:/`. -/
def opensTasks (line : JsString) : Bool := startsWith line (js "tasks") && (afterColon (line.drop 5)).isSome

def readTaskNames : List JsString → List JsString
  | [] => []
  | line :: rest =>
      if isIgnorable line then readTaskNames rest
      else if decide (indentOf line = 0) && opensTasks line then taskNames none [] rest
      else readTaskNames rest

def deriveTaskfileCommands (file : ManifestFile) (commands : Commands) : Commands :=
  offerSlots (readTaskNames (splitLines file.content)) (fun slot => js "task " ++ slot.text)
    (fun slot => file.path ++ js "#tasks." ++ slot.text) commands

/-- `/^@?([a-zA-Z0-9_-]+)(?:\s+[^:]*)?:(?!=)/`. -/
def recipePattern : Regex :=
  .sequence [.start, .maybe (.word "@"), .group 1 (.plus (.any namePoint)),
    .maybe (.seq (.plus (.any spacePoint)) (.star true (.any (· != ':'.toNat)))), .word ":",
    .ahead false (.word "=")]

def readRecipes (content : JsString) : List JsString :=
  (splitLines content).filterMap fun line =>
    if isIgnorable line then none
    else if decide (0 < indentOf line) || startsWith line (js "\t") then none
    else firstGroup recipePattern line

def deriveJustfileCommands (file : ManifestFile) (commands : Commands) : Commands :=
  offerSlots (readRecipes file.content) (fun slot => js "just " ++ slot.text)
    (fun slot => file.path ++ js ":" ++ slot.text) commands

/-- `/^\[+\s*([^\]]*?)\s*\]+$/`. -/
def tablePattern : Regex :=
  .sequence [.start, .plus (.word "["), .star true (.any spacePoint), .group 1 (.star false (.any (· != ']'.toNat))),
    .star true (.any spacePoint), .plus (.word "]"), .finish]

/-- `/^tasks\.["']?([A-Za-z0-9_-]+)["']?$/`. -/
def namedTablePattern : Regex :=
  .sequence [.start, .word "tasks.", .maybe (.any quotePoint), .group 1 (.plus (.any namePoint)),
    .maybe (.any quotePoint), .finish]

/-- `/^["']?([A-Za-z0-9_-]+)["']?\s*=/`. -/
def settingPattern : Regex :=
  .sequence [.start, .maybe (.any quotePoint), .group 1 (.plus (.any namePoint)), .maybe (.any quotePoint),
    .star true (.any spacePoint), .word "="]

/-- One trimmed line of a mise configuration: whether it is under `[tasks]`, and the names so far. -/
def readMiseLine (state : Bool × List JsString) (trimmed : JsString) : Bool × List JsString :=
  if trimmed.isEmpty || startsWith trimmed (js "#") then state
  else if startsWith trimmed (js "[") then
    let table := firstGroup tablePattern trimmed
    (table == some (js "tasks"), state.2 ++ (firstGroup namedTablePattern (table.getD [])).toList)
  else if !state.1 then state
  else (state.1, state.2 ++ (firstGroup settingPattern trimmed).toList)

def deriveMiseCommands (file : ManifestFile) (commands : Commands) : Commands :=
  offerSlots (((splitLines file.content).map trim).foldl readMiseLine (false, [])).2
    (fun slot => js "mise run " ++ slot.text) (fun slot => file.path ++ js "#tasks." ++ slot.text) commands

end TaskFiles

section Containers

/-- The devcontainer lifecycle keys that can carry named commands. -/
def DEVCONTAINER_LIFECYCLE : List String :=
  ["onCreateCommand", "updateContentCommand", "postCreateCommand", "postStartCommand", "postAttachCommand"]

/-- One named command; a key the language would move to the front has no letter and states no slot. -/
def deriveLifecycleCommand (path lifecycle : JsString) (commands : Commands) (entry : JsString × Json) : Commands :=
  match entry.2, slotOfName entry.1 with
  | .string command, some slot => offer commands slot command (path ++ js "#" ++ lifecycle ++ js "." ++ entry.1)
  | _, _ => commands

def deriveDevcontainerCommands (file : ManifestFile) (commands : Commands) : Commands :=
  match parse file.content with
  | some (.object document) =>
      DEVCONTAINER_LIFECYCLE.foldl (fun commands lifecycle =>
        match mapGet document (js lifecycle) with
        | some (.object entries) => entries.foldl (deriveLifecycleCommand file.path (js lifecycle)) commands
        | _ => commands) commands
  | _ => commands

end Containers

end Kratos.Initialization
