/- source: ports/transactions.ts, infra/fake/transactions.ts
   digest: The durable calls of a transaction, what they do to stored paths and what a cut leaves of them. -/

import Kratos.Foundation.Crashes
import Kratos.Transactions.Documents
import Mathlib.Data.List.Dedup
import Mathlib.Data.List.Sort

set_option autoImplicit false

namespace Kratos.Durable

open Foundation.Text Foundation.Collections Patterns

namespace Storage

def remove (storage : Storage) (path : JsString) : Storage :=
  storage.filter fun entry => decide (entry.1 ≠ path)

/-- What is put at a path takes the place of what was there. -/
def put (storage : Storage) (path : JsString) (node : Node) : Storage :=
  storage.remove path ++ [(path, node)]

section Changing

variable (storage : Storage) (path : JsString) (node : Node)

theorem find_remove : (storage.remove path).find = Function.update storage.find path none := by
  funext other
  rw [find, mapGet, remove, ← List.filter_reverse, List.find?_filter]
  by_cases same : other = path
  · subst same
    rw [Function.update_self, Option.map_eq_none_iff, List.find?_eq_none]
    intro entry _ both
    simp only [decide_eq_true_eq] at both
    exact both.1 both.2
  · rw [Function.update_of_ne same, find, mapGet]
    congr 2
    funext entry
    by_cases here : entry.1 = other
    · simp [here, same]
    · simp [here]

theorem find_put : (storage.put path node).find = Function.update storage.find path (some node) := by
  funext other
  rw [put, find_concat, find_remove]
  by_cases same : path = other
  · rw [if_pos same, same, Function.update_self]
  · rw [if_neg same, Function.update_of_ne (Ne.symm same), Function.update_of_ne (Ne.symm same)]

variable {storage path node} {directory : JsString}

theorem list_remove (outside : childName directory path = none) :
    (storage.remove path).list directory = storage.list directory := by
  rw [list, list, remove, List.filterMap_filter]
  refine List.filterMap_congr fun entry _ => ?_
  by_cases same : entry.1 = path
  · simp [same, outside]
  · simp [same]

theorem list_put (outside : childName directory path = none) :
    (storage.put path node).list directory = storage.list directory := by
  have nothing : Storage.list [(path, node)] directory = [] :=
    List.filterMap_cons_none outside
  rw [put, list_append, nothing, List.append_nil, list_remove outside]

theorem find_free (unused : storage.free path = true) {other : JsString}
    (inside : within path other = true) : storage.find other = none := by
  rw [find, mapGet_eq_none_iff, List.mem_map]
  rintro ⟨entry, member, rfl⟩
  have apart := List.all_eq_true.mp unused entry member
  rw [inside] at apart
  cases apart

end Changing

end Storage

end Kratos.Durable

namespace Kratos.Transactions

open Foundation.Text Foundation.Crashes Patterns Durable

/-- A clock reading written out, its date within the years of four digits. -/
structure Timestamp where
  text : JsString
  written : timestampPattern text = true

/-- Stored paths, with what the clock and the directory synchronisation are yet to answer. -/
structure Disk where
  storage : Storage
  clock : Nat → Timestamp
  syncs : Nat → Bool

inductive DurableCall
  | inspect (path : JsString)
  | list (path : JsString)
  | readText (path : JsString)
  | createDirectory (path : JsString)
  | createDirectoryExclusive (path : JsString)
  | writeSynced (path content : JsString)
  | replaceFile (stagedPath targetPath : JsString)
  | removeFile (path : JsString)
  | removeEmptyDirectory (path : JsString)
  | syncDirectory (path : JsString)
  | now

def DurableReply : DurableCall → Type
  | .inspect _ => DurableEntry
  | .list _ => List JsString
  | .readText _ => JsString
  | .syncDirectory _ => Bool
  | .now => JsString
  | .createDirectory _ | .createDirectoryExclusive _ | .writeSynced _ _ | .replaceFile _ _
  | .removeFile _ | .removeEmptyDirectory _ => Unit

inductive ReasonCode
  | leaseConflict | recoveryRequired | revisionConflict | stateCorrupt
  deriving DecidableEq, Repr

/-- A plain error, or a `TransactionFailure` with the paths of its evidence. -/
inductive DriverFailure
  | error
  | transaction (reasonCode : ReasonCode) (evidence : List JsString)
  deriving DecidableEq, Repr

namespace Disk

def held (disk : Disk) : JsString → Option Node := disk.storage.find

def put (disk : Disk) (path : JsString) (node : Node) : Disk :=
  { disk with storage := disk.storage.put path node }

def remove (disk : Disk) (path : JsString) : Disk :=
  { disk with storage := disk.storage.remove path }

def tick (disk : Disk) : Disk := { disk with clock := fun n => disk.clock (n + 1) }

def synced (disk : Disk) : Disk := { disk with syncs := fun n => disk.syncs (n + 1) }

/-- `immediateEntries`: each name once, in the order of the locale. -/
def entries (localeCompare : JsString → JsString → Int) (disk : Disk) (path : JsString) :
    List JsString :=
  (disk.storage.list path).dedup.mergeSort fun left right => decide (localeCompare left right ≤ 0)

/-- `requireParentDirectory`. -/
def hasParent (disk : Disk) (path : JsString) : Bool :=
  parentOf path == js "." || disk.held (parentOf path) == some .directory

/-- Nothing is stored at a path that may hold something. -/
def writable (disk : Disk) (path : JsString) : Bool :=
  isManagedPathShape path && disk.hasParent path && disk.held path == none

def isFile (disk : Disk) (path : JsString) : Bool :=
  match disk.held path with
  | some (.file _) => true
  | _ => false

def readText (disk : Disk) (path : JsString) : Except DriverFailure (JsString × Disk) :=
  match disk.held path with
  | some (.file content) => if isManagedPathShape path then .ok (content, disk) else .error .error
  | _ => .error .error

def createDirectory (disk : Disk) (path : JsString) : Except DriverFailure (Unit × Disk) :=
  if !isManagedPathShape path || !disk.hasParent path then .error .error
  else
    match disk.held path with
    | none => .ok ((), disk.put path .directory)
    | some .directory => .ok ((), disk)
    | some _ => .error .error

/-- A file takes the place of a file or of nothing, and is gone where it was. -/
def replaceFile (disk : Disk) (stagedPath targetPath : JsString) :
    Except DriverFailure (Unit × Disk) :=
  if !isManagedPathShape stagedPath || !isManagedPathShape targetPath ||
      !disk.hasParent stagedPath || !disk.hasParent targetPath ||
      !(disk.held targetPath == none || disk.isFile targetPath) then .error .error
  else
    match disk.held stagedPath with
    | some (.file content) => .ok ((), (disk.remove stagedPath).put targetPath (.file content))
    | _ => .error .error

def removeEmptyDirectory (disk : Disk) (path : JsString) : Except DriverFailure (Unit × Disk) :=
  if isManagedPathShape path ∧ disk.held path = some .directory ∧ disk.storage.list path = [] then
    .ok ((), disk.remove path)
  else .error .error

/-- The directories that may be looked at and synchronised, the project root among them. -/
def isDirectory (disk : Disk) (path : JsString) : Bool :=
  path == js "." || (isManagedPathShape path && disk.held path == some .directory)

end Disk

section Machine

variable (sha256 : JsString → JsString) (localeCompare : JsString → JsString → Int)

def serve : (request : DurableCall) → Disk → Except DriverFailure (DurableReply request × Disk)
  | .inspect path, disk =>
      if path = js "." then .ok (.directory, disk)
      else if isManagedPathShape path then .ok (Node.entry sha256 (disk.held path), disk)
      else .error .error
  | .list path, disk =>
      if isManagedPathShape path ∧ disk.held path = some .directory then
        .ok (disk.entries localeCompare path, disk)
      else .error .error
  | .readText path, disk => disk.readText path
  | .createDirectory path, disk => disk.createDirectory path
  | .createDirectoryExclusive path, disk =>
      if disk.writable path then .ok ((), disk.put path .directory) else .error .error
  | .writeSynced path content, disk =>
      if disk.writable path then .ok ((), disk.put path (.file content)) else .error .error
  | .replaceFile stagedPath targetPath, disk => disk.replaceFile stagedPath targetPath
  | .removeFile path, disk =>
      if isManagedPathShape path && disk.isFile path then .ok ((), disk.remove path)
      else .error .error
  | .removeEmptyDirectory path, disk => disk.removeEmptyDirectory path
  | .syncDirectory path, disk =>
      if disk.isDirectory path then .ok (disk.syncs 0, disk.synced) else .error .error
  | .now, disk => .ok ((disk.clock 0).text, disk.tick)

/-- A file that was being written may be left with any text; every other call is atomic. -/
def torn : DurableCall → Disk → Disk → Prop
  | .writeSynced path _, disk, left => disk.writable path = true ∧ ∃ text, left = disk.put path (.file text)
  | _, _, _ => False

def durableFileSystem : Machine DurableCall DurableReply Disk DriverFailure where
  serve := serve sha256 localeCompare
  torn := torn

end Machine

abbrev Driver (α : Type) := Program DurableCall DurableReply DriverFailure α

section Changes

variable (disk : Disk) (path : JsString) (node : Node)

@[simp] theorem Disk.held_put : (disk.put path node).held = Function.update disk.held path (some node) :=
  Storage.find_put disk.storage path node

@[simp] theorem Disk.held_remove : (disk.remove path).held = Function.update disk.held path none :=
  Storage.find_remove disk.storage path

@[simp] theorem Disk.held_tick : disk.tick.held = disk.held := rfl

@[simp] theorem Disk.held_synced : disk.synced.held = disk.held := rfl

variable {disk path} {localeCompare : JsString → JsString → Int}

theorem Disk.mem_entries_iff {name : JsString} :
    name ∈ disk.entries localeCompare path ↔
      unit '/' ∉ name ∧ disk.held (path ++ (js "/" ++ name)) ≠ none := by
  rw [Disk.entries, List.mem_mergeSort, List.mem_dedup]
  exact Storage.mem_list_iff

theorem Disk.nodup_entries : (disk.entries localeCompare path).Nodup :=
  (List.mergeSort_perm _ _).nodup_iff.mpr (List.nodup_dedup _)

end Changes

end Kratos.Transactions
