/- source: ports/transactions.ts, domain/transactions/model.ts
   digest: Stored entries, their fingerprints, and a workspace of paths with what they hold. -/

import Kratos.Foundation.Lines

set_option autoImplicit false

namespace Kratos.Durable

open Foundation.Text Foundation.Lines

inductive DurableEntry
  | missing
  | directory
  | symlink
  | special
  | file (size : Nat) (sha256 : JsString)
  deriving DecidableEq, Repr

inductive PathFingerprint
  | missing
  | directory
  | file (size : Nat) (sha256 : JsString)
  deriving DecidableEq, Repr

inductive Node
  | directory
  | symlink
  | special
  | file (content : JsString)
  deriving DecidableEq, Repr

abbrev Workspace := JsString → Option Node

/-- The reading half of the durable filesystem; `none` is a call that throws. -/
structure DurableFileSystem where
  inspect : JsString → Option DurableEntry
  readText : JsString → Option JsString

def Node.entry (sha256 : JsString → JsString) : Option Node → DurableEntry
  | none => .missing
  | some .directory => .directory
  | some .symlink => .symlink
  | some .special => .special
  | some (.file content) => .file (utf8Length content) (sha256 content)

def Node.text : Option Node → Option JsString
  | some (.file content) => some content
  | _ => none

/-- The filesystem of a workspace, with no call failing. -/
def Workspace.fileSystem (workspace : Workspace) (sha256 : JsString → JsString) :
    DurableFileSystem where
  inspect path := some (Node.entry sha256 (workspace path))
  readText path := Node.text (workspace path)

def Workspace.write (workspace : Workspace) (path content : JsString) : Workspace :=
  Function.update workspace path (some (.file content))

section Reading

variable {workspace : Workspace} {sha256 : JsString → JsString} {path : JsString}

theorem inspect_missing (missing : Node.entry sha256 (workspace path) = .missing) :
    workspace path = none := by
  cases held : workspace path with
  | none => rfl
  | some node =>
      rw [held] at missing
      cases node <;> cases missing

theorem write_same (content : JsString) :
    workspace.write path content path = some (.file content) :=
  Function.update_self path _ workspace

theorem write_other {other : JsString} (different : other ≠ path) (content : JsString) :
    workspace.write path content other = workspace other :=
  Function.update_of_ne different _ workspace

end Reading

end Kratos.Durable
