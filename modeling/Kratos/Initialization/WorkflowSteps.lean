/- source: domain/init/tasks.ts
   digest: The reader of the run steps a CI workflow declares. -/

import Kratos.Foundation.Lines

set_option autoImplicit false

namespace Kratos.Initialization

open Foundation.Text Foundation.Lines

def trimStart (text : JsString) : JsString := text.dropWhile isWhiteSpace

/-- A YAML or TOML scalar with its quoting removed, if it carried any. -/
def unquote (value : JsString) : JsString :=
  let trimmed := trim value
  if trimmed.length < 2 then trimmed
  else
    let first := trimmed.head?
    if (first == some (unit '"') || first == some (unit '\'')) && trimmed.getLast? == first then
      (trimmed.drop 1).dropLast
    else trimmed

def indentOf (line : JsString) : Nat := (line.takeWhile (· == unit ' ')).length

def isIgnorable (line : JsString) : Bool := (trim line).isEmpty || startsWith (trim line) (js "#")

/-- `[A-Za-z0-9_.\-$]`. -/
def isKeyUnit (u : CodeUnit) : Bool :=
  isAlnum u || u == unit '_' || u == unit '.' || u == unit '-' || u == unit '$'

/-- What stands after the spaces and the colon that end a key. -/
def afterColon (text : JsString) : Option JsString :=
  match trimStart text with
  | [] => none
  | u :: rest => if u == unit ':' then some rest else none

/-- `(?:\s+(.*))?$`: nothing, or spaces and the rest of the line. -/
def valueOf (text : JsString) : Option JsString :=
  match text with
  | [] => some []
  | u :: rest =>
      if isWhiteSpace u && (trimStart rest).all (fun v => !isLineTerminator v) then
        some (trimStart rest)
      else none

/-- Split `key: value` into its two halves, or nothing when it is not a key. -/
def keyOf (body : JsString) : Option (JsString × JsString) :=
  match body.takeWhile isKeyUnit with
  | [] => none
  | key => ((afterColon (body.dropWhile isKeyUnit)).bind valueOf).map fun value => (key, value)

structure WorkflowStep where
  job : JsString
  jobName : Option JsString
  name : Option JsString
  run : JsString
  deriving DecidableEq, Repr

structure StepDraft where
  /-- Column the step's own keys sit at, past the `- ` that opened the item. -/
  contentIndent : Nat
  name : Option JsString
  run : Option JsString
  deriving DecidableEq, Repr

structure JobDraft where
  id : JsString
  name : Option JsString
  deriving DecidableEq, Repr

/-- The variables of `readWorkflowSteps`. -/
structure Reading where
  steps : List WorkflowStep
  inJobs : Bool
  jobIndent : Option Nat
  job : Option JobDraft
  jobBodyIndent : Option Nat
  stepsIndent : Option Nat
  step : Option StepDraft
  deriving DecidableEq, Repr

/-- What a draft comes to when it is flushed. -/
def drafted (job : Option JobDraft) (step : Option StepDraft) : List WorkflowStep :=
  match job, step with
  | some job, some step =>
      match step.run with
      | some run => [{ job := job.id, jobName := job.name, name := step.name, run := run }]
      | none => []
  | _, _ => []

def flush (state : Reading) : Reading :=
  { state with steps := state.steps ++ drafted state.job state.step, step := none }

/-- A block scalar is many commands under one key. -/
def opensBlock (value : JsString) : Bool :=
  startsWith (trim value) (js "|") || startsWith (trim value) (js ">")

/-- The command a `run` value answers with, if it does. -/
def commandOf (value : JsString) : Option JsString :=
  if !opensBlock value && !(unquote value).isEmpty then some (unquote value) else none

def assign (draft : StepDraft) (body : JsString) : StepDraft :=
  match keyOf body with
  | none => draft
  | some (key, value) =>
      if key = js "name" then { draft with name := some (unquote value) }
      else if key = js "run" then
        match commandOf value with
        | some command => { draft with run := some command }
        | none => draft
      else draft

/-- `/^jobs\s*:/`. -/
def opensJobs (body : JsString) : Bool :=
  startsWith body (js "jobs") && (afterColon (body.drop 4)).isSome

/-- The draft a dash opens: its keys sit past the dash and the spaces behind it. -/
def openedStep (indent : Nat) (body : JsString) : StepDraft :=
  let rest := body.drop 1
  assign { contentIndent := indent + 1 + (rest.length - (trimStart rest).length), name := none, run := none }
    (trim rest)

/-- The line opens an item of the list the reader takes for the steps. -/
def opensItem (state : Reading) (indent : Nat) (body : JsString) : Bool :=
  match state.stepsIndent with
  | some steps => decide (steps ≤ indent) && startsWith body (js "-")
  | none => false

/-- The open draft, when the line is no shallower than its keys. -/
def heldStep (state : Reading) (indent : Nat) : Option StepDraft :=
  state.step.filter fun step => decide (step.contentIndent ≤ indent)

def readJobKey (state : Reading) (job : JobDraft) (indent : Nat) (body : JsString) : Reading :=
  match keyOf body with
  | none => state
  | some (key, value) =>
      if key = js "name" then { state with job := some { job with name := some (unquote value) } }
      else if key = js "steps" then { state with stepsIndent := some indent }
      else state

def readJobLine (state : Reading) (indent : Nat) (body : JsString) : Reading :=
  let jobIndent := state.jobIndent.getD indent
  if indent = jobIndent then
    { state with
      jobIndent := some jobIndent
      job := (keyOf body).map fun entry => { id := entry.1, name := none }
      jobBodyIndent := none
      stepsIndent := none }
  else
    match state.job with
    | none => { state with jobIndent := some jobIndent }
    | some job =>
        if indent < jobIndent then { state with jobIndent := some jobIndent }
        else
          let jobBodyIndent := state.jobBodyIndent.getD indent
          let placed := { state with jobIndent := some jobIndent, jobBodyIndent := some jobBodyIndent }
          if indent = jobBodyIndent then readJobKey placed job indent body else placed

/-- One line of the document that is not ignored. -/
def readLine (state : Reading) (indent : Nat) (body : JsString) : Reading :=
  if !state.inJobs then
    if decide (indent = 0) && opensJobs body then { state with inJobs := true } else state
  else if indent = 0 then { flush state with inJobs := false, job := none }
  else if opensItem state indent body then
    { flush state with step := some (openedStep indent body) }
  else
    match heldStep state indent with
    | some step =>
        if indent = step.contentIndent then { state with step := some (assign step body) } else state
    | none => readJobLine (flush state) indent body

/-- `/^\s*\t/`. -/
def tabbed (line : JsString) : Bool := (line.takeWhile isWhiteSpace).contains (unit '\t')

/-- The lines of a file; none where one is indented with a tab. -/
def readLines (state : Reading) : List JsString → Option Reading
  | [] => some state
  | line :: rest =>
      if isIgnorable line then readLines state rest
      else if tabbed line then none
      else readLines (readLine state (indentOf line) (line.drop (indentOf line))) rest

def start : Reading :=
  { steps := [], inJobs := false, jobIndent := none, job := none, jobBodyIndent := none,
    stepsIndent := none, step := none }

/-- The `run:` steps a GitHub workflow declares, with the job and step that named them. -/
def readWorkflowSteps (content : JsString) : List WorkflowStep :=
  match readLines start (splitLines content) with
  | none => []
  | some state => (flush state).steps

end Kratos.Initialization
