/- source: domain/paths/canonicalize.ts, domain/transactions/surface.ts
   digest: The canonical spelling of a path and the surface a plan may write. -/

import Kratos.Foundation.Paths
import Kratos.Patterns

set_option autoImplicit false

namespace Kratos.Transactions

open Foundation.Text Foundation.Paths Patterns

section Canonical

inductive CanonicalPathReason
  | pathEscape
  | targetUninspectable
  deriving DecidableEq, Repr

inductive CanonicalPathResult
  | canonical (path : JsString)
  | refused (reasonCode : CanonicalPathReason) (resolvedPath : JsString)
  deriving DecidableEq, Repr

/-- `^[A-Za-z]:`. -/
def driveLetterPattern : JsString → Bool
  | letter :: colon :: _ => (isLowerAlpha letter || isUpperAlpha letter) && colon == unit ':'
  | _ => false

/-- `^[a-zA-Z][a-zA-Z0-9+.-]*:`. -/
def urlSchemePattern : JsString → Bool
  | [] => false
  | first :: rest =>
      (isLowerAlpha first || isUpperAlpha first) &&
        (rest.dropWhile fun u =>
          isAlnum u || u == unit '+' || u == unit '.' || u == unit '-').head? == some (unit ':')

/-- The stack of segments and the number of parents that escaped it. -/
def pushSegment (state : List JsString × Nat) (segment : JsString) : List JsString × Nat :=
  if segment = [] ∨ segment = js "." then state
  else if segment = js ".." then
    if state.1 = [] then (state.1, state.2 + 1) else (state.1.dropLast, state.2)
  else (state.1 ++ [segment], state.2)

/-- `canonicalizeProjectPath` of a target with no root given. -/
def canonicalizeProjectPath (target : JsString) : CanonicalPathResult :=
  if target = [] then .refused .targetUninspectable []
  else if unit '\\' ∈ target ∨ hasControlCharacters target then .refused .targetUninspectable target
  else if driveLetterPattern target || urlSchemePattern target then .refused .pathEscape target
  else if startsWith target (js "/") then .refused .pathEscape target
  else
    let (stack, escapedParents) := (segments target).foldl pushSegment ([], 0)
    if escapedParents > 0 then
      let parentPrefix := joinSegments (List.replicate escapedParents (js ".."))
      .refused .pathEscape
        (if stack ≠ [] then parentPrefix ++ js "/" ++ joinSegments stack else parentPrefix)
    else .canonical (joinSegments stack)

end Canonical

section Surface

def managedDirectoryRoots : List JsString := [js ".brain", js ".claude", js ".codex", js ".gemini"]

def managedRootFiles : List JsString := [js "AGENTS.md", js "CLAUDE.md", js "GEMINI.md"]

def reservedStateNamespace : JsString := js "transactions"

def isManagedRoot (segment : JsString) : Bool := managedDirectoryRoots.contains segment

def isManagedPathShape (path : JsString) : Bool :=
  match canonicalizeProjectPath path with
  | .refused _ _ => false
  | .canonical canonical =>
      if canonical ≠ path ∨ canonical = [] then false
      else
        match segments path with
        | [] | [_] => managedRootFiles.contains path || isManagedRoot path
        | root :: _ => isManagedRoot root

variable (lower : CaseMapping)

/-- Whether what follows the managed root is the reserved namespace. -/
def reservedNamespace (rest : List JsString) : Bool :=
  rest.head?.map lower.toLowerCase == some reservedStateNamespace

def isManagedDestination (path : JsString) : Bool :=
  if !isManagedPathShape path then false
  else
    match segments path with
    | [] | [_] => managedRootFiles.contains path
    | root :: rest => !(root == js ".brain" && reservedNamespace lower rest)

def isManagedDirectoryDestination (path : JsString) : Bool :=
  if isManagedDestination lower path then true else isManagedRoot path && path != js ".brain"

end Surface

section Canonicity

/-- A segment the canonical form of a path keeps where it stands. -/
def Kept (segment : JsString) : Prop := segment ≠ [] ∧ segment ≠ js "." ∧ segment ≠ js ".."

private theorem pushSegment_kept {segment : JsString} (kept : Kept segment)
    (state : List JsString × Nat) : pushSegment state segment = (state.1 ++ [segment], state.2) := by
  rw [pushSegment, if_neg (not_or.mpr ⟨kept.1, kept.2.1⟩), if_neg kept.2.2]

theorem foldl_kept {parts : List JsString} (kept : ∀ part ∈ parts, Kept part)
    (state : List JsString × Nat) : parts.foldl pushSegment state = (state.1 ++ parts, state.2) := by
  induction parts generalizing state with
  | nil => simp
  | cons part rest ih =>
      rw [List.foldl_cons, pushSegment_kept (kept part List.mem_cons_self),
        ih (fun other member => kept other (List.mem_cons_of_mem _ member)), List.append_assoc]
      rfl

private theorem foldl_shorter (parts : List JsString) (state : List JsString × Nat) :
    (parts.foldl pushSegment state).1.length ≤ state.1.length + parts.length ∧
      ((parts.foldl pushSegment state).1.length = state.1.length + parts.length →
        ∀ part ∈ parts, Kept part) := by
  induction parts generalizing state with
  | nil => simp
  | cons part rest ih =>
      rw [List.foldl_cons, List.length_cons]
      obtain ⟨shorter, full⟩ := ih (pushSegment state part)
      by_cases kept : Kept part
      · rw [pushSegment_kept kept, List.length_append, List.length_singleton] at shorter full
        rw [pushSegment_kept kept]
        constructor
        · omega
        · intro equal other member
          rcases List.mem_cons.mp member with rfl | inside
          · exact kept
          · exact full (by omega) other inside
      · have dropped : (pushSegment state part).1.length ≤ state.1.length := by
          unfold pushSegment
          split
          · exact Nat.le_refl _
          · rename_i other
            split
            · split
              · exact Nat.le_refl _
              · rw [List.length_dropLast]
                omega
            · rename_i parent
              exact absurd ⟨fun none => other (.inl none), fun dot => other (.inr dot), parent⟩ kept
        constructor
        · omega
        · intro equal
          omega

private theorem foldl_plain {parts : List JsString} (plain : ∀ part ∈ parts, unit '/' ∉ part)
    {state : List JsString × Nat} (before : ∀ part ∈ state.1, unit '/' ∉ part) :
    ∀ part ∈ (parts.foldl pushSegment state).1, unit '/' ∉ part := by
  induction parts generalizing state with
  | nil => exact before
  | cons part rest ih =>
      rw [List.foldl_cons]
      refine ih (fun other member => plain other (List.mem_cons_of_mem _ member)) ?_
      unfold pushSegment
      split
      · exact before
      · split
        · split
          · exact before
          · exact fun other member => before other (List.mem_of_mem_dropLast member)
        · intro other member
          rcases List.mem_append.mp member with old | new
          · exact before other old
          · rw [List.mem_singleton.mp new]
            exact plain part List.mem_cons_self

/-- A path in canonical form has no control units and only segments that are kept. -/
theorem canonical_segments {path : JsString} (named : path ≠ [])
    (canonical : canonicalizeProjectPath path = .canonical path) :
    (unit '\\' ∉ path ∧ hasControlCharacters path = false) ∧
      ∀ part ∈ segments path, Kept part := by
  rw [canonicalizeProjectPath, if_neg named] at canonical
  split at canonical
  · cases canonical
  · rename_i units
    rw [not_or, Bool.not_eq_true] at units
    refine ⟨units, ?_⟩
    split at canonical
    · cases canonical
    · split at canonical
      · cases canonical
      · dsimp only at canonical
        split at canonical
        · cases canonical
        · injection canonical with joined
          have plain : ∀ part ∈ ((segments path).foldl pushSegment ([], 0)).1, unit '/' ∉ part :=
            foldl_plain (fun _ => segments_plain) fun _ inside => absurd inside List.not_mem_nil
          have stacked : ((segments path).foldl pushSegment ([], 0)).1 ≠ [] := by
            intro none
            rw [none] at joined
            exact named joined.symm
          have same : segments path = ((segments path).foldl pushSegment ([], 0)).1 := by
            conv_lhs => rw [← joined]
            exact segments_joinSegments plain stacked
          refine (foldl_shorter (segments path) ([], 0)).2 ?_
          rw [← same]
          simp

theorem canonical_of_segments {path rest : JsString} (dotted : path = unit '.' :: rest)
    (units : unit '\\' ∉ path ∧ hasControlCharacters path = false)
    (kept : ∀ part ∈ segments path, Kept part) :
    canonicalizeProjectPath path = .canonical path := by
  have drive : (driveLetterPattern path || urlSchemePattern path) = false := by
    rw [dotted]
    cases rest <;> rfl
  have relative : startsWith path (js "/") = false := by
    rw [dotted]
    rfl
  rw [canonicalizeProjectPath, if_neg (by rw [dotted]; exact List.cons_ne_nil _ _),
    if_neg (by simp [units]), drive, relative, if_neg (by simp), if_neg (by simp), foldl_kept kept]
  simp

end Canonicity

section Parents

variable {lower : CaseMapping} {path parent : JsString}

private theorem root_dotted {root : JsString} (managed : isManagedRoot root = true) :
    ∃ rest, root = unit '.' :: rest := by
  have cases : root ∈ managedDirectoryRoots := by simpa [isManagedRoot] using managed
  simp only [managedDirectoryRoots, List.mem_cons, List.not_mem_nil, or_false] at cases
  rcases cases with rfl | rfl | rfl | rfl <;> exact ⟨_, rfl⟩

theorem managed_shape {root next : JsString} {rest : List JsString}
    (shape : segments path = root :: next :: rest)
    (allowed : isManagedDirectoryDestination lower path = true) :
    isManagedRoot root = true ∧ ¬(root = js ".brain" ∧
      lower.toLowerCase next = reservedStateNamespace) ∧
      (unit '\\' ∉ path ∧ hasControlCharacters path = false) ∧ ∀ part ∈ segments path, Kept part := by
  have destination : isManagedDestination lower path = true := by
    rw [isManagedDirectoryDestination] at allowed
    split at allowed
    · assumption
    · simp only [Bool.and_eq_true] at allowed
      have single : path ∈ managedDirectoryRoots := by simpa [isManagedRoot] using allowed.1
      simp only [managedDirectoryRoots, List.mem_cons, List.not_mem_nil, or_false] at single
      have length : (segments path).length = 1 := by rcases single with rfl | rfl | rfl | rfl <;> rfl
      rw [shape] at length
      simp at length
  rw [isManagedDestination] at destination
  split at destination
  · cases destination
  · rename_i surface
    rw [shape] at destination
    simp only [Bool.not_eq_true', Bool.and_eq_false_iff, beq_eq_false_iff_ne, reservedNamespace,
      List.head?_cons, Option.map_some, ne_eq, Option.some.injEq] at destination
    rw [Bool.not_eq_true', Bool.not_eq_false, isManagedPathShape] at surface
    split at surface
    · cases surface
    · rename_i canonical read
      split at surface
      · cases surface
      · rename_i whole
        rw [not_or, not_not] at whole
        rw [shape] at surface
        obtain ⟨rfl, named⟩ := whole
        exact ⟨surface, fun both => destination.elim (· both.1) (· both.2),
          canonical_segments named read⟩

/-- A parent of a managed path is a directory a plan may create, or `.brain`. -/
theorem isManagedDirectoryDestination_parent (allowed : isManagedDirectoryDestination lower path = true)
    (above : isParent parent path = true) (owned : parent ≠ js ".brain") :
    isManagedDirectoryDestination lower parent = true := by
  obtain ⟨root, next, rest, shape⟩ : ∃ root next rest, segments path = root :: next :: rest := by
    obtain ⟨tail, some, split⟩ := isParent_iff.mp above
    obtain ⟨root, front, parts⟩ := List.exists_cons_of_ne_nil (segments_ne_nil parent)
    rw [parts, List.cons_append] at split
    obtain ⟨next, rest, more⟩ := List.exists_cons_of_ne_nil (List.append_ne_nil_of_right_ne_nil front some)
    exact ⟨root, next, rest, by rw [split, more]⟩
  obtain ⟨managed, unreserved, units, kept⟩ := managed_shape shape allowed
  obtain ⟨tail, some, split⟩ := isParent_iff.mp above
  obtain ⟨front, parts⟩ : ∃ front, segments parent = root :: front := by
    obtain ⟨first, front, parts⟩ := List.exists_cons_of_ne_nil (segments_ne_nil parent)
    rw [parts, List.cons_append, shape] at split
    injection split with same
    exact ⟨front, by rw [parts, same]⟩
  have parentKept : ∀ part ∈ segments parent, Kept part :=
    fun part member => kept part (split ▸ List.mem_append_left _ member)
  obtain ⟨name, whole⟩ := (startsWith_iff _ _).mp above
  have parentUnits : unit '\\' ∉ parent ∧ hasControlCharacters parent = false := by
    rw [whole, List.append_assoc] at units
    rw [hasControlCharacters, List.any_append, Bool.or_eq_false_iff] at units
    exact ⟨fun inside => units.1 (List.mem_append_left _ inside), units.2.1⟩
  obtain ⟨rootRest, dotted⟩ := root_dotted managed
  have parentDotted : ∃ rest, parent = unit '.' :: rest := by
    rw [← joinSegments_segments parent, parts]
    cases front with
    | nil => exact ⟨rootRest, by rw [joinSegments, List.intercalate_singleton, dotted]⟩
    | cons second others =>
        exact ⟨rootRest ++ js "/" ++ joinSegments (second :: others), by
          rw [joinSegments, List.intercalate_cons_cons, dotted]
          rfl⟩
  obtain ⟨parentRest, begins⟩ := parentDotted
  have canonical := canonical_of_segments begins parentUnits parentKept
  have named : parent ≠ [] := by
    rw [begins]
    exact List.cons_ne_nil _ _
  rw [isManagedDirectoryDestination]
  split
  · rfl
  · rename_i refused
    cases front with
    | nil =>
        have same : parent = root := by
          rw [← joinSegments_segments parent, parts, joinSegments, List.intercalate_singleton]
        rw [same, managed, Bool.true_and, bne_iff_ne]
        exact same ▸ owned
    | cons second others =>
        exfalso
        apply refused
        have second_next : second = next := by
          rw [shape, parts] at split
          injection split with _ split
          injection split with same
          exact same.symm
        have surface : isManagedPathShape parent = true := by
          rw [isManagedPathShape, canonical]
          simp only [ne_eq, not_true_eq_false, named, or_self, if_false, parts]
          exact managed
        rw [isManagedDestination, surface]
        simp only [Bool.not_true, Bool.false_eq_true, if_false, parts, second_next,
          reservedNamespace, List.head?_cons, Option.map_some, Bool.not_eq_true',
          Bool.and_eq_false_iff, beq_eq_false_iff_ne, ne_eq, Option.some.injEq]
        by_cases brain : root = js ".brain"
        · right
          intro reserved
          exact unreserved ⟨brain, reserved⟩
        · exact .inl brain

end Parents

end Kratos.Transactions
