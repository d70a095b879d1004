/- source: ports/transactions.ts
   digest: Stored paths, their listings and the durable calls that add and move them. -/

import Kratos.Durable
import Kratos.Foundation.Collections
import Kratos.Patterns
import Mathlib.Data.List.Find

set_option autoImplicit false

namespace Kratos.Durable

open Foundation.Text Foundation.Collections Patterns

abbrev Storage := List (JsString × Node)

namespace Storage

def find (storage : Storage) (path : JsString) : Option Node := mapGet storage path

/-- The name of a path among the children of a directory. -/
def childName (directory path : JsString) : Option JsString :=
  (literal (directory ++ js "/") path).bind fun name => if unit '/' ∈ name then none else some name

def list (storage : Storage) (directory : JsString) : List JsString :=
  storage.filterMap fun entry => childName directory entry.1

def within (path other : JsString) : Bool := other == path || startsWith other (path ++ js "/")

/-- Nothing lies beneath a path that holds nothing. -/
def free (storage : Storage) (path : JsString) : Bool :=
  storage.all fun entry => !within path entry.1

def createDirectoryExclusive (storage : Storage) (path : JsString) : Option Storage :=
  if storage.free path then some (storage ++ [(path, .directory)]) else none

/-- Writing a file where nothing is stored yet. -/
def writeSynced (storage : Storage) (path content : JsString) : Option Storage :=
  if storage.free path then some (storage ++ [(path, .file content)]) else none

def moved (source target path : JsString) : JsString :=
  if within source path then target ++ path.drop source.length else path

def renameDirectoryExclusive (storage : Storage) (source target : JsString) : Option Storage :=
  if storage.find source = some .directory ∧ storage.free target then
    some (storage.map fun entry => (moved source target entry.1, entry.2))
  else none

/-- What a path may be extended by: nothing, or a child and what lies beneath it. -/
def Extension (rest : JsString) : Prop := rest = [] ∨ ∃ name, rest = js "/" ++ name

section Paths

theorem within_iff {path other : JsString} :
    within path other = true ↔ ∃ rest, Extension rest ∧ other = path ++ rest := by
  simp only [within, Bool.or_eq_true, beq_iff_eq, startsWith_iff]
  constructor
  · rintro (rfl | ⟨name, rfl⟩)
    · exact ⟨[], .inl rfl, (List.append_nil _).symm⟩
    · exact ⟨js "/" ++ name, .inr ⟨name, rfl⟩, List.append_assoc _ _ _⟩
  · rintro ⟨rest, rfl | ⟨name, rfl⟩, rfl⟩
    · exact .inl (List.append_nil _)
    · exact .inr ⟨name, (List.append_assoc _ _ _).symm⟩

theorem within_append {path rest : JsString} (extension : Extension rest) :
    within path (path ++ rest) = true :=
  within_iff.mpr ⟨rest, extension, rfl⟩

theorem childName_append (directory path : JsString) (front : JsString) :
    childName (front ++ directory) (front ++ path) = childName directory path := by
  unfold childName literal
  have begins : startsWith (front ++ path) (front ++ directory ++ js "/") =
      startsWith path (directory ++ js "/") := by
    rw [Bool.eq_iff_iff, startsWith_iff, startsWith_iff]
    constructor
    · rintro ⟨rest, same⟩
      exact ⟨rest, by simpa [List.append_assoc] using same⟩
    · rintro ⟨rest, rfl⟩
      exact ⟨rest, by simp [List.append_assoc]⟩
  have rest : (front ++ path).drop (front ++ directory ++ js "/").length =
      path.drop (directory ++ js "/").length := by
    rw [List.append_assoc, List.length_append, ← List.drop_drop, List.drop_left]
  rw [begins, rest]

theorem childName_within {directory path name : JsString}
    (child : childName directory path = some name) : within directory path = true := by
  obtain ⟨rest, read, -⟩ := Option.bind_eq_some_iff.mp child
  unfold literal at read
  split at read
  · rename_i begins
    rw [within, begins, Bool.or_true]
  · cases read

theorem childName_outside {path rest other : JsString} (extension : Extension rest)
    (outside : within path other = false) : childName (path ++ rest) other = none := by
  cases child : childName (path ++ rest) other with
  | none => rfl
  | some name =>
      obtain ⟨tail, tailExtension, same⟩ := within_iff.mp (childName_within child)
      have inside : within path other = true := by
        rcases extension with rfl | ⟨first, rfl⟩
        · rw [List.append_nil] at same
          exact within_iff.mpr ⟨tail, tailExtension, same⟩
        · refine within_iff.mpr ⟨js "/" ++ (first ++ tail), .inr ⟨_, rfl⟩, ?_⟩
          rw [same]
          simp only [List.append_assoc]
      rw [inside] at outside
      cases outside

theorem moved_append {source rest : JsString} (target : JsString) (extension : Extension rest) :
    moved source target (source ++ rest) = target ++ rest := by
  rw [moved, if_pos (within_append extension), List.drop_left]

end Paths

section Moving

variable {storage : Storage} {source target : JsString}

private theorem moved_eq_iff {path rest : JsString} (extension : Extension rest)
    (fresh : within target path = false) :
    moved source target path = target ++ rest ↔ path = source ++ rest := by
  constructor
  · intro same
    cases inside : within source path with
    | true =>
        obtain ⟨tail, tailExtension, rfl⟩ := within_iff.mp inside
        rw [moved_append target tailExtension] at same
        rw [List.append_cancel_left same]
    | false =>
        rw [moved, if_neg (by simp [inside])] at same
        rw [same, within_append extension] at fresh
        cases fresh
  · rintro rfl
    exact moved_append target extension

private theorem childName_moved {path rest : JsString} (extension : Extension rest)
    (fresh : within target path = false) :
    childName (target ++ rest) (moved source target path) = childName (source ++ rest) path := by
  cases inside : within source path with
  | true =>
      obtain ⟨tail, tailExtension, rfl⟩ := within_iff.mp inside
      rw [moved_append target tailExtension, childName_append, childName_append]
  | false =>
      rw [moved, if_neg (by simp [inside]), childName_outside extension fresh,
        childName_outside extension inside]

private theorem free_iff {path : JsString} :
    storage.free path = true ↔ ∀ entry ∈ storage, within path entry.1 = false := by
  simp [free]

/-- A renamed directory lists and holds, under its new name, what it did under its old one. -/
theorem renameDirectoryExclusive_spec {renamed : Storage}
    (done : storage.renameDirectoryExclusive source target = some renamed) {rest : JsString}
    (extension : Extension rest) :
    renamed.list (target ++ rest) = storage.list (source ++ rest) ∧
      renamed.find (target ++ rest) = storage.find (source ++ rest) := by
  unfold renameDirectoryExclusive at done
  split at done
  · rename_i ready
    obtain rfl := Option.some.inj done
    have fresh := free_iff.mp ready.2
    constructor
    · rw [list, list, List.filterMap_map]
      exact List.filterMap_congr fun entry member => childName_moved extension (fresh entry member)
    · rw [find, find, mapGet, mapGet, ← List.map_reverse, List.find?_map, Option.map_map]
      have same : storage.reverse.find? ((fun entry => decide (entry.1 = target ++ rest)) ∘
          fun entry => (moved source target entry.1, entry.2)) =
          storage.reverse.find? fun entry => decide (entry.1 = source ++ rest) := by
        refine List.find?_congr fun entry member => ?_
        simp only [Function.comp]
        exact decide_eq_decide.mpr
          (moved_eq_iff extension (fresh entry (List.mem_reverse.mp member)))
      rw [same]
      rfl
  · cases done

end Moving

section Growing

variable {storage : Storage}

theorem childName_child {name : JsString} (directory : JsString) (plain : unit '/' ∉ name) :
    childName directory (directory ++ (js "/" ++ name)) = some name := by
  rw [childName, literal, ← List.append_assoc, startsWith_append, if_pos rfl, List.drop_left,
    Option.bind_some, if_neg plain]

theorem childName_deeper {name : JsString} (directory : JsString) (slash : unit '/' ∈ name) :
    childName directory (directory ++ (js "/" ++ name)) = none := by
  rw [childName, literal, ← List.append_assoc, startsWith_append, if_pos rfl, List.drop_left,
    Option.bind_some, if_pos slash]

theorem childName_short {directory path : JsString} (short : path.length ≤ directory.length) :
    childName directory path = none := by
  cases child : childName directory path with
  | none => rfl
  | some name =>
      obtain ⟨rest, read, -⟩ := Option.bind_eq_some_iff.mp child
      unfold literal at read
      split at read
      · rename_i begins
        obtain ⟨tail, rfl⟩ := (startsWith_iff _ _).mp begins
        have slash : (js "/").length = 1 := rfl
        rw [List.length_append, List.length_append] at short
        omega
      · cases read

theorem mem_list_iff {directory name : JsString} :
    name ∈ storage.list directory ↔
      unit '/' ∉ name ∧ storage.find (directory ++ (js "/" ++ name)) ≠ none := by
  have stored : storage.find (directory ++ (js "/" ++ name)) ≠ none ↔
      directory ++ (js "/" ++ name) ∈ storage.map Prod.fst := by
    rw [find, ne_eq, mapGet_eq_none_iff, not_not]
  rw [stored, list, List.mem_filterMap]
  constructor
  · rintro ⟨entry, member, child⟩
    obtain ⟨rest, read, plain⟩ := Option.bind_eq_some_iff.mp child
    unfold literal at read
    split at read
    · rename_i begins
      obtain ⟨tail, shape⟩ := (startsWith_iff _ _).mp begins
      rw [shape, List.drop_left] at read
      obtain rfl := Option.some.inj read
      split at plain
      · cases plain
      · rename_i clean
        obtain rfl := Option.some.inj plain
        refine ⟨clean, List.mem_map.mpr ⟨entry, member, ?_⟩⟩
        rw [shape, List.append_assoc]
    · cases read
  · rintro ⟨plain, member⟩
    obtain ⟨entry, held, path⟩ := List.mem_map.mp member
    refine ⟨entry, held, ?_⟩
    rw [path]
    exact childName_child directory plain

theorem list_append (front back : Storage) (directory : JsString) :
    (front ++ back : Storage).list directory = front.list directory ++ back.list directory :=
  List.filterMap_append

theorem find_concat (path : JsString) (node : Node) (other : JsString) :
    (storage ++ [(path, node)] : Storage).find other =
      if path = other then some node else storage.find other :=
  mapGet_concat storage path node other

theorem list_free {path rest : JsString} (unused : storage.free path = true)
    (extension : Extension rest) : storage.list (path ++ rest) = [] :=
  List.filterMap_eq_nil_iff.mpr fun entry member =>
    childName_outside extension (free_iff.mp unused entry member)

end Growing

end Storage

end Kratos.Durable
