/- source: domain/git/status.ts, domain/git/paths.ts, domain/git/model.ts
   digest: The reading of a porcelain status: its head and its changes. -/

import Kratos.Foundation.Doubles
import Kratos.Foundation.Utf8Decoding
import Kratos.Schema.CanonicalJson
import Mathlib.Data.List.Sort

set_option autoImplicit false

namespace Kratos.Git

open Foundation.Text Foundation.Doubles
open Foundation.JsonText (digitsValue)
open Foundation.Utf8 Schema

abbrev Bytes := List Nat

inductive GitPath
  | text (value : JsString)
  | undecodable (sha256 : JsString) (bytes : Nat)
  deriving DecidableEq, Repr

inductive GitChangeKind
  | none | added | modified | deleted | renamed | copied | typeChanged
  deriving DecidableEq, Repr

structure GitConflict where
  ours : Bool
  theirs : Bool
  base : Bool
  deriving DecidableEq, Repr

inductive GitTracking
  | tracked | untracked | ignored
  deriving DecidableEq, Repr

inductive GitEntryKind
  | file | directory | symlink | submodule
  deriving DecidableEq, Repr

structure GitChange where
  path : GitPath
  tracking : GitTracking
  index : GitChangeKind
  worktree : GitChangeKind
  conflict : Option GitConflict
  renamedFrom : Option GitPath
  entry : GitEntryKind
  deriving DecidableEq, Repr

structure GitUpstream where
  ref : JsString
  ahead : Int
  behind : Int
  deriving DecidableEq, Repr

inductive GitHead
  | unborn (branch : JsString)
  | branch (branch commit : JsString) (upstream : Option GitUpstream)
  | detached (commit : JsString)
  deriving DecidableEq, Repr

structure ParsedStatus where
  head : GitHead
  changes : List GitChange
  deriving DecidableEq, Repr

section Paths

variable (sha256Bytes : Bytes → JsString)

/-- Decode one raw path from Git, refusing to invent a name for bad bytes. -/
def decodeGitPath (bytes : Bytes) : GitPath :=
  match decodeFatal bytes with
  | some value => .text value
  | none => .undecodable (sha256Bytes bytes) bytes.length

/-- `left` may come first under `compareGitPaths`. -/
def pathNotAfter : GitPath → GitPath → Bool
  | .text left, .text right => decide (compareBytes (encode left) (encode right) ≤ 0)
  | .text _, .undecodable _ _ => true
  | .undecodable _ _, .text _ => false
  | .undecodable left _, .undecodable right _ => notAfter left right

/-- `left` may come first in the list of changes. -/
def ByPath (left right : GitChange) : Prop := pathNotAfter left.path right.path = true

instance : DecidableRel ByPath := fun left right =>
  inferInstanceAs (Decidable (pathNotAfter left.path right.path = true))

end Paths

section Fields

/-- `KINDS`. -/
def kindOf : CodeUnit → Option GitChangeKind := fun letter =>
  if letter = unit '.' then some .none
  else if letter = unit 'A' then some .added
  else if letter = unit 'M' then some .modified
  else if letter = unit 'D' then some .deleted
  else if letter = unit 'R' then some .renamed
  else if letter = unit 'C' then some .copied
  else if letter = unit 'T' then some .typeChanged
  else Option.none

/-- The records from a byte on, with the bytes of the record it stands in. -/
def splitFrom (record : Bytes) : Bytes → List Bytes
  | [] => if record = [] then [] else [record]
  | byte :: rest => if byte = 0 then record :: splitFrom [] rest else splitFrom (record ++ [byte]) rest

/-- Split the NUL-delimited payload; trailing bytes without a terminator are a record of their own. -/
def splitRecords (stdout : Bytes) : List Bytes := splitFrom [] stdout

def entryKindFromMode (mode : JsString) : GitEntryKind :=
  if mode = js "120000" then .symlink
  else if mode = js "160000" then .submodule
  else if mode = js "040000" then .directory
  else .file

def ABSENT_MODE : JsString := js "000000"

def firstNonZeroMode (modes : List JsString) : JsString :=
  (modes.find? fun mode => decide (mode ≠ ABSENT_MODE)).getD ABSENT_MODE

/-- `id.replace(/0/gu, "") !== ""`. -/
def hasObjectId (id : JsString) : Bool := id.any fun u => u != unit '0'

structure HeaderFields where
  oid : Option JsString
  head : Option JsString
  upstream : Option JsString
  ahead : Option Int
  behind : Option Int
  deriving DecidableEq, Repr

/-- `text.split(" ")`. -/
def spaceParts (text : JsString) : List JsString := text.splitOn (unit ' ')

/-- `parts.join(" ")`. -/
def spaceJoined (parts : List JsString) : JsString := List.intercalate [unit ' '] parts

/-- `Number.parseInt(text, 10)`, none where it is no integer. -/
def parseInteger (text : JsString) : Option Int :=
  let text := text.dropWhile isWhiteSpace
  let negative := text.head? = some (unit '-')
  let unsigned := if negative ∨ text.head? = some (unit '+') then text.tail else text
  let digits := unsigned.takeWhile isDigit
  let value := digitsValue digits
  if digits = [] ∨ infiniteFrom ≤ value then none
  else some (nearestInteger (if negative then -value else value))

/-- The fields with one more header, none where it cannot be read. -/
def readHeader (text : JsString) (fields : HeaderFields) : Option HeaderFields :=
  let parts := spaceParts text
  let key := parts.getD 1 []
  let value := spaceJoined (parts.drop 2)
  if key = js "branch.oid" then some { fields with oid := some value }
  else if key = js "branch.head" then some { fields with head := some value }
  else if key = js "branch.upstream" then some { fields with upstream := some value }
  else if key = js "branch.ab" then
    match spaceParts value with
    | ahead :: behind :: _ =>
        if !startsWith ahead (js "+") || !startsWith behind (js "-") then none
        else
          match parseInteger (ahead.drop 1), parseInteger (behind.drop 1) with
          | some ahead, some behind => some { fields with ahead := some ahead, behind := some behind }
          | _, _ => none
    | _ => none
  -- An unknown header is tolerated.
  else some fields

def buildHead (fields : HeaderFields) : Option GitHead :=
  match fields.oid, fields.head with
  | some oid, some head =>
      if oid = js "(initial)" then
        if head = js "(detached)" then none else some (.unborn head)
      else if head = js "(detached)" then some (.detached oid)
      else
        some (.branch head oid (fields.upstream.map fun ref =>
          { ref, ahead := fields.ahead.getD 0, behind := fields.behind.getD 0 }))
  | _, _ => none

end Fields

section Records

variable (sha256Bytes : Bytes → JsString)

def untrackedChange (path : GitPath) (tracking : GitTracking) (raw : JsString) : GitChange where
  path := path
  tracking := tracking
  index := .none
  worktree := .none
  conflict := none
  renamedFrom := none
  entry := if raw.getLast? = some (unit '/') then .directory else .file

/-- The bytes after so many fields of a record, by the length of the fields as text. -/
def pathBytes (bytes : Bytes) (parts : List JsString) (leading : Nat) : Bytes :=
  bytes.drop ((spaceJoined (parts.take leading)).length + 1)

/-- A `1` or `2` record with so many fields before its path, without its origin. -/
def readTracked (bytes : Bytes) (text : JsString) (leading : Nat) : Option GitChange :=
  let parts := spaceParts text
  if parts.length < leading + 1 then none
  else
    let status := parts.getD 1 []
    match status[0]?.bind kindOf, status[1]?.bind kindOf with
    | some index, some worktree =>
        some {
          path := decodeGitPath sha256Bytes (pathBytes bytes parts leading)
          tracking := .tracked
          index
          worktree
          conflict := none
          renamedFrom := none
          entry := entryKindFromMode (firstNonZeroMode
            [parts.getD 5 [], parts.getD 4 [], parts.getD 3 []]) }
    | _, _ => none

def readUnmerged (bytes : Bytes) (text : JsString) : Option GitChange :=
  let parts := spaceParts text
  if parts.length < 11 then none
  else
    some {
      path := decodeGitPath sha256Bytes (pathBytes bytes parts 10)
      tracking := .tracked
      index := .modified
      worktree := .modified
      conflict := some {
        base := hasObjectId (parts.getD 7 [])
        ours := hasObjectId (parts.getD 8 [])
        theirs := hasObjectId (parts.getD 9 []) }
      renamedFrom := none
      entry := entryKindFromMode (parts.getD 6 []) }

inductive Reading
  | blank
  | header (text : JsString)
  | change (change : GitChange)
  /-- A change that takes its origin from the next record. -/
  | renaming (change : GitChange)
  deriving DecidableEq, Repr

/-- What one record says, none where it does not have its expected shape. -/
def readRecord (bytes : Bytes) : Option Reading :=
  if bytes = [] then some .blank
  else
    let text := decode bytes
    if startsWith text (js "# ") then some (.header text)
    else
      let type := text.take 2
      if type = js "? " ∨ type = js "! " then
        some (.change (untrackedChange (decodeGitPath sha256Bytes (bytes.drop 2))
          (if type = js "? " then .untracked else .ignored) (text.drop 2)))
      else if type = js "1 " then (readTracked sha256Bytes bytes text 8).map .change
      else if type = js "2 " then (readTracked sha256Bytes bytes text 9).map .renaming
      else if type = js "u " then (readUnmerged sha256Bytes bytes text).map .change
      else none

def readRecords : HeaderFields → List GitChange → List Bytes →
    Option (HeaderFields × List GitChange)
  | fields, changes, [] => some (fields, changes)
  | fields, changes, bytes :: rest =>
      match readRecord sha256Bytes bytes with
      | none => none
      | some .blank => readRecords fields changes rest
      | some (.header text) =>
          match readHeader text fields with
          | none => none
          | some fields => readRecords fields changes rest
      | some (.change change) => readRecords fields (changes ++ [change]) rest
      | some (.renaming change) =>
          match rest with
          | [] => none
          | origin :: rest =>
              if origin = [] then none
              else
                readRecords fields (changes ++
                  [{ change with renamedFrom := some (decodeGitPath sha256Bytes origin) }]) rest

/-- Parse `status --porcelain=v2 -z` output, all of it or nothing. -/
def parseStatusPorcelainV2 (stdout : Bytes) : Option ParsedStatus := do
  let (fields, changes) ← readRecords sha256Bytes ⟨none, none, none, none, none⟩ []
    (splitRecords stdout)
  let head ← buildHead fields
  pure { head, changes := changes.insertionSort ByPath }

end Records

end Kratos.Git
