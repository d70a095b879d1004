/- source: domain/init/tasks.ts
   digest: Workflow documents in block style, their lines, and the run steps they list. -/

import Kratos.Initialization.WorkflowSteps

set_option autoImplicit false

namespace Kratos.Initialization.WorkflowDocument

open Foundation.Text Initialization

/-- A line past the column it starts at. -/
structure Line where
  indent : Nat
  body : JsString
  deriving DecidableEq, Repr

namespace Line

def text (line : Line) : JsString := List.replicate line.indent (unit ' ') ++ line.body

def dashed (line : Line) : Bool := startsWith line.body (js "-")

end Line

/-- A piece of a double quoted scalar: a unit, or an escape with what it stands for. -/
inductive Piece
  | plain (u : CodeUnit)
  | escape (spelled meaning : JsString)
  deriving DecidableEq, Repr

namespace Piece

def spelled : Piece → JsString
  | plain u => [u]
  | escape text _ => text

def meaning : Piece → JsString
  | plain u => [u]
  | escape _ text => text

end Piece

/-- A scalar on one line, in its three styles. -/
inductive Scalar
  | plain (text : JsString)
  | single (text : JsString)
  | double (pieces : List Piece)
  deriving DecidableEq, Repr

namespace Scalar

/-- A quote inside single quotes is written twice. -/
def doubled (text : JsString) : JsString :=
  text.flatMap fun u => if u = unit '\'' then [u, u] else [u]

def spelled : Scalar → JsString
  | plain text => text
  | single text => unit '\'' :: (doubled text ++ [unit '\''])
  | double pieces => unit '"' :: (pieces.flatMap Piece.spelled ++ [unit '"'])

def meaning : Scalar → JsString
  | plain text => text
  | single text => text
  | double pieces => pieces.flatMap Piece.meaning

end Scalar

inductive Value
  | nothing
  | scalar (value : Scalar)
  /-- The header of a block scalar or the first line of a scalar of several lines. -/
  | opening (text meaning : JsString)
  deriving DecidableEq, Repr

namespace Value

def spelled : Value → JsString
  | nothing => []
  | scalar value => value.spelled
  | opening text _ => text

def meaning : Value → Option JsString
  | nothing => none
  | scalar value => some value.meaning
  | opening _ meaning => some meaning

end Value

/-- A key of a block mapping with what follows it. -/
structure Entry where
  key : Scalar
  /-- What stands before the colon. -/
  gap : JsString
  /-- What stands between the colon and the value. -/
  space : JsString
  value : Value
  /-- The blanks and the comment at the end of the line. -/
  tail : JsString
  /-- The lines of a value that goes on below the key, less blank ones and comments. -/
  nested : List Line
  deriving DecidableEq, Repr

namespace Entry

def rest (entry : Entry) : JsString := entry.space ++ entry.value.spelled ++ entry.tail

def text (entry : Entry) : JsString := entry.key.spelled ++ entry.gap ++ unit ':' :: entry.rest

def lines (column : Nat) (entry : Entry) : List Line := ⟨column, entry.text⟩ :: entry.nested

/-- The text of a value that is a scalar on one line; an empty one is no command. -/
def command (entry : Entry) : Option JsString :=
  match entry.value with
  | .scalar value => if value.meaning = [] then none else some value.meaning
  | _ => none

end Entry

def lookup (key : JsString) (entries : List Entry) : Option Entry :=
  entries.find? fun entry => decide (entry.key.meaning = key)

/-- An item of `steps`: a mapping after a dash. -/
structure Item where
  /-- What follows the dash; none where the first key does. -/
  alone : Option JsString
  /-- The blanks between the column behind the dash and the column of the keys. -/
  inset : Nat
  entries : List Entry
  deriving DecidableEq, Repr

namespace Item

/-- The column of the keys of an item whose dash is at this column. -/
def column (dash : Nat) (item : Item) : Nat := dash + 1 + item.inset

def opening (item : Item) : JsString :=
  match item.alone, item.entries with
  | some after, _ => after
  | none, first :: _ => List.replicate item.inset (unit ' ') ++ first.text
  | none, [] => []

def below (dash : Nat) (item : Item) : List Line :=
  match item.alone, item.entries with
  | none, first :: rest => first.nested ++ rest.flatMap (Entry.lines (item.column dash))
  | _, entries => entries.flatMap (Entry.lines (item.column dash))

def lines (dash : Nat) (item : Item) : List Line := ⟨dash, unit '-' :: item.opening⟩ :: item.below dash

/-- The command of the item, where its `run` is a scalar on one line. -/
def run (item : Item) : Option JsString := (lookup (js "run") item.entries).bind Entry.command

def name (item : Item) : Option JsString :=
  (lookup (js "name") item.entries).bind fun entry => entry.value.meaning

end Item

/-- The `steps` of a job: their key, the column of the dashes and the items. -/
structure Steps where
  head : Entry
  dash : Nat
  items : List Item
  deriving DecidableEq, Repr

structure Job where
  head : Entry
  /-- The column of the keys of the job. -/
  column : Nat
  before : List Entry
  steps : Option Steps
  after : List Entry
  deriving DecidableEq, Repr

namespace Job

def stepLines (column : Nat) (steps : Steps) : List Line :=
  ⟨column, steps.head.text⟩ :: steps.items.flatMap (Item.lines steps.dash)

def lines (column : Nat) (job : Job) : List Line :=
  ⟨column, job.head.text⟩ :: (job.before.flatMap (Entry.lines job.column) ++
    ((job.steps.map (stepLines job.column)).getD [] ++ job.after.flatMap (Entry.lines job.column)))

def items (job : Job) : List Item := (job.steps.map Steps.items).getD []

def id (job : Job) : JsString := job.head.key.meaning

def name (job : Job) : Option JsString :=
  (lookup (js "name") (job.before ++ job.after)).bind fun entry => entry.value.meaning

/-- The steps of the job whose `run` is a scalar on one line. -/
def listed (job : Job) : List WorkflowStep :=
  job.items.flatMap fun item =>
    (item.run.map fun run => { job := job.id, jobName := job.name, name := item.name, run := run }).toList

end Job

/-- A workflow: its lines before `jobs`, the jobs, and its lines from the next key on. -/
structure Document where
  before : List Line
  head : Entry
  /-- The column of the job ids. -/
  column : Nat
  jobs : List Job
  after : List Line
  deriving DecidableEq, Repr

namespace Document

def lines (document : Document) : List Line :=
  document.before ++ (⟨0, document.head.text⟩ :: (document.jobs.flatMap (Job.lines document.column) ++
    document.after))

/-- The steps listed under `jobs.<id>.steps` whose `run` is a scalar on one line, in order. -/
def listed (document : Document) : List WorkflowStep := document.jobs.flatMap Job.listed

/-- The text has these lines, apart from blank ones and comments. -/
def WrittenIn (document : Document) (content : JsString) : Prop :=
  unit '\t' ∉ content ∧
    (Kratos.Foundation.Lines.splitLines content).filter (fun line => !isIgnorable line) =
      document.lines.map Line.text

end Document

section Layout

/-- Lines below a key at this column: the dashes of a list may stand at the column itself. -/
def Below (column : Nat) (lines : List Line) : Prop :=
  ∀ line ∈ lines, column ≤ line.indent ∧ (line.dashed = false → column < line.indent)

/-- Keys differ, a scalar is all of its value, and what goes on stands below its key. -/
structure Mapping (column : Nat) (entries : List Entry) : Prop where
  distinct : (entries.map fun entry => entry.key.meaning).Nodup
  below : ∀ entry ∈ entries, Below column entry.nested

structure Item.Laid (dash : Nat) (item : Item) : Prop where
  mapping : Mapping (item.column dash) item.entries
  /-- A lone dash has at most a comment behind it. -/
  alone : ∀ after, item.alone = some after → isIgnorable after = true

structure Job.Laid (column : Nat) (job : Job) : Prop where
  deeper : column < job.column
  mapping : Mapping job.column (job.before ++ job.after)
  dash : ∀ steps, job.steps = some steps → job.column ≤ steps.dash
  items : ∀ steps, job.steps = some steps → ∀ item ∈ steps.items, item.Laid steps.dash
  /-- Without `steps` no key stands after them. -/
  whole : job.steps = none → job.after = []

/-- The layout of block style: what belongs to a key is indented below it. -/
structure Document.Laid (document : Document) : Prop where
  aligned : ∀ line ∈ document.lines, line.body.head? ≠ some (unit ' ')
  indented : 0 < document.column
  jobs : ∀ job ∈ document.jobs, job.Laid document.column
  after : ∀ line, document.after.head? = some line → line.indent = 0

end Layout

section Likeness

/-- The text answers the question for a command. -/
def statesRun (body : JsString) : Bool :=
  match keyOf body with
  | some (key, value) => decide (key = js "run") && (commandOf value).isSome
  | none => false

/-- A line states a run at this column, before a dash and before a shallower line. -/
def statedAt (column : Nat) : List Line → Bool
  | [] => false
  | line :: rest =>
      if line.dashed || decide (line.indent < column) then false
      else (decide (line.indent = column) && statesRun line.body) || statedAt column rest

/-- A line with a dash looks like a step: a run follows the dash, or stands below what does. -/
def looksLikeStep : List Line → Bool
  | [] => false
  | line :: rest =>
      (line.dashed && (statesRun (trim (line.body.drop 1)) ||
        statedAt (openedStep line.indent line.body).contentIndent rest)) || looksLikeStep rest

/-- Lines below the keys of a step or of a job after its `steps` look like a step. -/
def Job.lookAlike (job : Job) : Bool :=
  job.steps.isSome && ((job.items.flatMap Item.entries ++ job.after).any fun entry => looksLikeStep entry.nested)

def Document.lookAlike (document : Document) : Bool := document.jobs.any Job.lookAlike

end Likeness

section Readability

/-- The key is written plainly, in units of a key, and the line ends as one line does. -/
structure Entry.Plain (entry : Entry) (key : JsString) : Prop where
  key : entry.key = .plain key
  gap : ∀ u ∈ entry.gap, isWhiteSpace u = true
  rest : (valueOf entry.rest).isSome = true

/-- The scalar reads as it is written between its quotes. -/
def Scalar.Bare : Scalar → Prop
  | .plain text => trim text = text ∧
      ∀ indicator ∈ [unit '"', unit '\'', unit '|', unit '>'], text.head? ≠ some indicator
  | .single text => unit '\'' ∉ text
  | .double pieces => ∀ piece ∈ pieces, ∃ u, piece = .plain u

/-- The value is a scalar of this text, with nothing behind it on its line. -/
structure Entry.Answers (entry : Entry) (onDash : Bool) (key : JsString) : Prop where
  key : entry.key = .plain key
  gap : ∀ u ∈ entry.gap, isWhiteSpace u = true
  space : entry.space ≠ [] ∧ ∀ u ∈ entry.space, isWhiteSpace u = true
  value : ∃ value, entry.value = .scalar value ∧ value.Bare
  tail : ∀ u ∈ entry.tail, isWhiteSpace u = true
  oneLine : ∀ u ∈ entry.value.spelled ++ (if onDash then [] else entry.tail), isLineTerminator u = false

/-- The text of an entry as it is read: the line of a dash is trimmed. -/
def Entry.readAs (onDash : Bool) (entry : Entry) : JsString := if onDash then trim entry.text else entry.text

def ReadsNot (key body : JsString) : Prop := (keyOf body).map Prod.fst ≠ some key

/-- The entries with whether the dash of the item is on their line. -/
def Item.placed (item : Item) : List (Bool × Entry) :=
  match item.alone, item.entries with
  | none, first :: rest => (true, first) :: rest.map (Prod.mk false)
  | _, entries => entries.map (Prod.mk false)

/-- An item that lists a step. -/
structure Item.Tells (item : Item) : Prop where
  name : ∀ place ∈ item.placed, place.2.key.meaning = js "name" → place.2.Answers place.1 (js "name")
  run : ∀ place ∈ item.placed, place.2.key.meaning = js "run" → place.2.Answers place.1 (js "run")
  others : ∀ place ∈ item.placed, place.2.key.meaning ≠ js "name" → place.2.key.meaning ≠ js "run" →
    ReadsNot (js "name") (place.2.readAs place.1) ∧ ReadsNot (js "run") (place.2.readAs place.1)
  /-- No line with a dash stands between the first key and its name and run. -/
  ordered : item.entries.Pairwise fun entry later => entry.nested.any Line.dashed = true →
    later.key.meaning ≠ js "name" ∧ later.key.meaning ≠ js "run"

structure Item.Readable (item : Item) : Prop where
  /-- The keys stand where the first one is sought. -/
  column : item.alone = none ∨ item.run ≠ none →
    item.opening.length - (trimStart item.opening).length = item.inset
  dashless : ∀ place ∈ item.placed, place.1 = false → startsWith place.2.text (js "-") = false
  told : item.run ≠ none → item.Tells
  silent : item.run = none → ∀ place ∈ item.placed, statesRun (place.2.readAs place.1) = false

structure Job.Readable (job : Job) : Prop where
  head : job.head.Plain job.id
  id : job.id ≠ [] ∧ ∀ u ∈ job.id, isKeyUnit u = true
  stepless : ∀ entry ∈ job.before, ReadsNot (js "steps") entry.text
  steps : ∀ steps, job.steps = some steps → steps.head.Plain (js "steps")
  items : ∀ item ∈ job.items, item.Readable
  name : job.listed ≠ [] → ∀ entry ∈ job.before, entry.key.meaning = js "name" → entry.Answers false (js "name")
  others : job.listed ≠ [] → ∀ entry ∈ job.before, entry.key.meaning ≠ js "name" →
    ReadsNot (js "name") entry.text
  /-- The name of the job stands before its steps. -/
  named : job.listed ≠ [] → ∀ entry ∈ job.after, entry.key.meaning ≠ js "name"
  dashless : ∀ entry ∈ job.after, startsWith entry.text (js "-") = false

/-- Keys and texts are written the way the reader takes them. -/
structure Document.Readable (document : Document) : Prop where
  head : document.head.key = .plain (js "jobs") ∧ ∀ u ∈ document.head.gap, isWhiteSpace u = true
  jobs : ∀ job ∈ document.jobs, job.Readable
  sole : ∀ line ∈ document.before ++ document.after, line.indent = 0 → opensJobs line.body = false

end Readability

end Kratos.Initialization.WorkflowDocument
