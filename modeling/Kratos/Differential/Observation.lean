/- source: packages/differential/src/types.ts
   digest: What a run of the program is observed to do, and that observation as a JSON value. -/

import Kratos.Foundation.JsonPlaces

set_option autoImplicit false

namespace Kratos.Differential

open Foundation.Text Foundation.JsonText

structure CapturedStream where
  bytes : Nat
  sha256 : JsString
  content : Option JsString

inductive Outcome
  | exit | signal | timeout | outputLimit | spawnError
  deriving DecidableEq

structure ProcessObservation where
  outcome : Outcome
  exitCode : Option Int
  signal : Option JsString
  stdout : CapturedStream
  stderr : CapturedStream

inductive EntryType
  | directory | file | symlink
  deriving DecidableEq

inductive EntryMode
  | directory | file | executable | symlink
  deriving DecidableEq

structure ManifestEntry where
  path : JsString
  type : EntryType
  mode : EntryMode
  size : Nat
  sha256 : Option JsString
  target : Option JsString

inductive MutationKind
  | added | modified | deleted
  deriving DecidableEq

structure Mutation where
  path : JsString
  kind : MutationKind

/-- A selected artifact is always observable: absence, an unreadable path and unparsable content
are states of their own. -/
inductive StructuredObservation
  | absent (id path : JsString)
  | unreadable (id path : JsString)
  | invalid (id path : JsString) (bytes : Nat) (sha256 : JsString)
  | valid (id path : JsString) (value : Json)

structure GitReference where
  name : JsString
  object : JsString

structure GitObservation where
  head : Option JsString
  status : CapturedStream
  worktreeDiff : CapturedStream
  indexDiff : CapturedStream
  refs : List GitReference

structure DifferentialObservation where
  process : ProcessObservation
  before : List ManifestEntry
  after : List ManifestEntry
  mutations : List Mutation
  structured : List StructuredObservation
  git : Option GitObservation

section Values

def nullable (text : Option JsString) : Json := text.elim .null .string

/-- A member that is left out when it is undefined. -/
def optional (name : String) (text : Option JsString) : List (JsString × Json) :=
  text.toList.map fun value => (js name, .string value)

def CapturedStream.json (stream : CapturedStream) : Json :=
  .object ([(js "bytes", .integer stream.bytes), (js "sha256", .string stream.sha256)] ++
    optional "content" stream.content)

def Outcome.text : Outcome → JsString
  | .exit => js "exit"
  | .signal => js "signal"
  | .timeout => js "timeout"
  | .outputLimit => js "output_limit"
  | .spawnError => js "spawn_error"

def ProcessObservation.json (process : ProcessObservation) : Json :=
  .object [(js "outcome", .string process.outcome.text),
    (js "exitCode", process.exitCode.elim .null .integer),
    (js "signal", nullable process.signal), (js "stdout", process.stdout.json),
    (js "stderr", process.stderr.json)]

def EntryType.text : EntryType → JsString
  | .directory => js "directory"
  | .file => js "file"
  | .symlink => js "symlink"

def EntryMode.text : EntryMode → JsString
  | .directory => js "directory"
  | .file => js "file"
  | .executable => js "executable"
  | .symlink => js "symlink"

def ManifestEntry.json (entry : ManifestEntry) : Json :=
  .object ([(js "path", .string entry.path), (js "type", .string entry.type.text),
    (js "mode", .string entry.mode.text), (js "size", .integer entry.size)] ++
      optional "sha256" entry.sha256 ++ optional "target" entry.target)

def MutationKind.text : MutationKind → JsString
  | .added => js "added"
  | .modified => js "modified"
  | .deleted => js "deleted"

def Mutation.json (mutation : Mutation) : Json :=
  .object [(js "path", .string mutation.path), (js "kind", .string mutation.kind.text)]

def StructuredObservation.json : StructuredObservation → Json
  | .absent id path =>
      .object [(js "id", .string id), (js "path", .string path), (js "state", .string (js "absent"))]
  | .unreadable id path =>
      .object [(js "id", .string id), (js "path", .string path),
        (js "state", .string (js "unreadable"))]
  | .invalid id path bytes sha256 =>
      .object [(js "id", .string id), (js "path", .string path),
        (js "state", .string (js "invalid")), (js "bytes", .integer bytes),
        (js "sha256", .string sha256)]
  | .valid id path value =>
      .object [(js "id", .string id), (js "path", .string path), (js "state", .string (js "valid")),
        (js "value", value)]

def GitReference.json (reference : GitReference) : Json :=
  .object [(js "name", .string reference.name), (js "object", .string reference.object)]

def GitObservation.json (git : GitObservation) : Json :=
  .object [(js "head", nullable git.head), (js "status", git.status.json),
    (js "worktreeDiff", git.worktreeDiff.json), (js "indexDiff", git.indexDiff.json),
    (js "refs", .array (git.refs.map GitReference.json))]

/-- The observation as the value that rules and comparisons walk through. -/
def DifferentialObservation.json (observation : DifferentialObservation) : Json :=
  .object [(js "process", observation.process.json),
    (js "filesystem", .object [(js "before", .array (observation.before.map ManifestEntry.json)),
      (js "after", .array (observation.after.map ManifestEntry.json)),
      (js "mutations", .array (observation.mutations.map Mutation.json))]),
    (js "structured", .array (observation.structured.map StructuredObservation.json)),
    (js "git", observation.git.elim .null GitObservation.json)]

end Values

inductive Token
  | timestamp | duration
  deriving DecidableEq

def Token.text : Token → JsString
  | .timestamp => js "<TIMESTAMP>"
  | .duration => js "<DURATION>"

inductive Operation
  | lineEndings | workspacePath
  | replaceJsonValue (token : Token)
  | sortJsonArray (identityKey : JsString)
  | removeField (justification : JsString)

structure NormalizationRule where
  operation : Operation
  pointer : JsString

inductive Disclosure
  | digest | content
  deriving DecidableEq

/-- What a comparison reads of a scenario. -/
structure DifferentialScenario where
  id : JsString
  parityContractIds : List JsString
  artifacts : Disclosure
  normalization : List NormalizationRule
  expected : DifferentialObservation

end Kratos.Differential
