/- source: infra/node/target-inspection.ts, domain/paths/canonicalize.ts
   digest: The inspection of a target: its lexical path, the ancestor that exists, and the place that reaches. -/

import Kratos.Foundation.PathWalk
import Kratos.Transactions.Surface

set_option autoImplicit false

namespace Kratos.WriteGuard

open Foundation.Text Foundation.Paths Foundation.PathWalk
open Patterns (hasControlCharacters)
open Transactions

section Names

/-- A file name: not empty, no dot segment, and without the separator. -/
structure Name where
  text : JsString
  kept : Kept text
  plain : unit '/' ∉ text
deriving DecidableEq

instance (segment : JsString) : Decidable (Kept segment) := inferInstanceAs (Decidable (_ ∧ _ ∧ _))

/-- What a segment of a path asks of a walk. -/
def stepOf (segment : JsString) : Step Name :=
  if kept : Kept segment ∧ unit '/' ∉ segment then .name ⟨segment, kept.1, kept.2⟩
  else if segment = js ".." then .up
  else .here

def stepsOf (path : JsString) : List (Step Name) := (segments path).map stepOf

def namesPath (names : List Name) : JsString := joinSegments (names.map Name.text)

def absolutePath (names : List Name) : JsString := js "/" ++ namesPath names

end Names

section Canonicalize

def stackSegment (stack : List JsString) (segment : JsString) : List JsString :=
  if segment = [] ∨ segment = js "." then stack
  else if segment = js ".." then stack.dropLast
  else stack ++ [segment]

def normalizeAbsoluteSegments (path : JsString) : JsString :=
  js "/" ++ joinSegments ((segments path).foldl stackSegment [])

/-- `canonicalizeProjectPath(target, { root })`; a relative target does not use the root. -/
def canonicalizeProjectPathIn (root target : JsString) : CanonicalPathResult :=
  if target = [] then .refused .targetUninspectable []
  else if unit '\\' ∈ target ∨ hasControlCharacters target then .refused .targetUninspectable target
  else if driveLetterPattern target || urlSchemePattern target then .refused .pathEscape target
  else if startsWith target (js "/") then
    let normalizedRoot := normalizeAbsoluteSegments root
    let normalizedTarget := normalizeAbsoluteSegments target
    if normalizedTarget = normalizedRoot then .canonical []
    else
      let rootPrefix := if normalizedRoot = js "/" then js "/" else normalizedRoot ++ js "/"
      if startsWith normalizedTarget rootPrefix then
        .canonical (normalizedTarget.drop rootPrefix.length)
      else .refused .pathEscape normalizedTarget
  else canonicalizeProjectPath target

end Canonicalize

section Inspect

inductive TargetInspection
  | inside (lexicalPath canonicalPath : JsString)
  | escape
  | uninspectable
deriving DecidableEq, Repr

/-- Where a path starts: an absolute one at the root of the tree. -/
def startOf (base : List Name) (path : JsString) : List Name :=
  if startsWith path (js "/") then [] else base

/-- `resolve(base, path)`. -/
def resolve (base : List Name) (path : JsString) : List Name :=
  collapse (startOf base path) (stepsOf path)

/-- `relative(from, to)`. -/
def relative : List Name → List Name → JsString
  | a :: base, b :: path =>
      if a = b then relative base path
      else joinSegments (List.replicate (base.length + 1) (js "..") ++ (b :: path).map Name.text)
  | base, path => joinSegments (List.replicate base.length (js "..") ++ path.map Name.text)

def inside (root candidate : List Name) : Bool :=
  let path := relative root candidate
  path.isEmpty || (!startsWith path (js "../") && path != js "..")

variable (tree : Foundation.PathWalk.Tree Name) (limit : Nat)

def isDirectory (path : List Name) : Bool :=
  match lstat tree false limit path with
  | .ok .directory => true
  | _ => false

/-- The identity of a root is its place: the tree does not change. -/
def rootMatches (root : List Name) : Bool :=
  isDirectory tree limit root && decide (realpath tree limit root = .ok root)

/-- The loop to the nearest ancestor that exists, from the path last name first. -/
def existingAncestor : List Name → List Name → Option (List Name × List Name)
  | [], suffix =>
      match lstat tree false limit [] with
      | .ok _ => some ([], suffix)
      | .error _ => none
  | last :: above, suffix =>
      match lstat tree false limit (last :: above).reverse with
      | .ok _ => some ((last :: above).reverse, suffix)
      | .error .missing => existingAncestor above (last :: suffix)
      | .error _ => none

/-- The place an ancestor and a missing suffix stand for. -/
def inspectAncestor (root : List Name) (lexicalPath : JsString) (ancestor suffix : List Name) :
    TargetInspection :=
  match realpath tree limit ancestor with
  | .error _ => .uninspectable
  | .ok canonicalAncestor =>
      if !inside root canonicalAncestor then .escape
      else if !suffix.isEmpty && !isDirectory tree limit canonicalAncestor then .uninspectable
      else
        let canonicalTarget := canonicalAncestor ++ suffix
        if !inside root canonicalTarget then .escape
        else
          let canonicalPath := relative root canonicalTarget
          if canonicalPath = [] then .uninspectable else .inside lexicalPath canonicalPath

def inspect (root : List Name) (target : JsString) : TargetInspection :=
  if !rootMatches tree limit root then .uninspectable
  else
    match canonicalizeProjectPathIn (absolutePath root) target with
    | .refused reasonCode _ => if reasonCode = .pathEscape then .escape else .uninspectable
    | .canonical lexicalPath =>
        if lexicalPath = [] then .uninspectable
        else
          match existingAncestor tree limit (resolve root lexicalPath).reverse [] with
          | none => .uninspectable
          | some (ancestor, suffix) => inspectAncestor tree limit root lexicalPath ancestor suffix

/-- Where a write through a target string ends, with the directories it lacks made on the way. -/
def location (root : List Name) (target : JsString) : Except WalkError (List Name) :=
  (walk tree true limit (startOf root target) (stepsOf target)).map Prod.fst

end Inspect

section Lexical

variable {root names : List Name} {path target lexicalPath : JsString}

private theorem stepOf_name (name : Name) : stepOf name.text = .name name := by
  rw [stepOf, dif_pos ⟨name.kept, name.plain⟩]

theorem map_stepOf (names : List Name) : (names.map Name.text).map stepOf = down names := by
  rw [List.map_map, down]
  exact List.map_congr_left fun name _ => stepOf_name name

theorem text_plain {names : List Name} : ∀ part ∈ names.map Name.text, unit '/' ∉ part := by
  intro part member
  obtain ⟨name, -, rfl⟩ := List.mem_map.mp member
  exact name.plain

theorem text_kept {names : List Name} : ∀ part ∈ names.map Name.text, Kept part := by
  intro part member
  obtain ⟨name, -, rfl⟩ := List.mem_map.mp member
  exact name.kept

theorem segments_namesPath (filled : names ≠ []) : segments (namesPath names) = names.map Name.text :=
  segments_joinSegments text_plain (by simpa using filled)

private theorem text_injective : Function.Injective Name.text := by
  rintro ⟨one, _, _⟩ ⟨two, _, _⟩ same
  cases same
  rfl

private theorem stackSegment_text {segment : JsString} (plain : unit '/' ∉ segment)
    (stack : List Name) :
    stackSegment (stack.map Name.text) segment = (collapse stack [stepOf segment]).map Name.text := by
  rw [stackSegment, stepOf]
  by_cases kept : Kept segment
  · rw [if_neg (not_or.mpr ⟨kept.1, kept.2.1⟩), if_neg kept.2.2, dif_pos ⟨kept, plain⟩]
    simp [collapse]
  · rw [dif_neg (fun both => kept both.1)]
    by_cases parent : segment = js ".."
    · subst parent
      rw [if_neg (by decide), if_pos rfl, if_pos rfl, collapse, collapse, List.map_dropLast]
    · have dropped : segment = [] ∨ segment = js "." := by
        by_contra other
        rw [not_or] at other
        exact kept ⟨other.1, other.2, parent⟩
      rw [if_pos dropped, if_neg parent]
      rfl

private theorem foldl_stackSegment {parts : List JsString} (plain : ∀ part ∈ parts, unit '/' ∉ part)
    (stack : List Name) :
    parts.foldl stackSegment (stack.map Name.text) =
      (collapse stack (parts.map stepOf)).map Name.text := by
  induction parts generalizing stack with
  | nil => rfl
  | cons part rest ih =>
      rw [List.foldl_cons, stackSegment_text (plain part List.mem_cons_self),
        ih fun other member => plain other (List.mem_cons_of_mem _ member), ← collapse_append]
      rfl

theorem normalizeAbsoluteSegments_eq (path : JsString) :
    normalizeAbsoluteSegments path = absolutePath (collapse [] (stepsOf path)) := by
  rw [normalizeAbsoluteSegments, absolutePath, namesPath, stepsOf,
    ← foldl_stackSegment (fun _ => segments_plain) []]
  rfl

theorem segments_absolutePath (filled : names ≠ []) :
    segments (absolutePath names) = [] :: names.map Name.text := by
  have split := segments_append [] (namesPath names)
  rw [segments_namesPath filled] at split
  exact split

theorem absolutePath_injective {other : List Name} (same : absolutePath names = absolutePath other) :
    names = other := by
  have shown : ∀ names : List Name, (segments (absolutePath names)).filter (· ≠ []) =
      names.map Name.text := by
    intro names
    cases names with
    | nil => rfl
    | cons first rest =>
        rw [segments_absolutePath (List.cons_ne_nil _ _), List.filter_cons_of_neg (by simp)]
        apply List.filter_eq_self.mpr
        intro part member
        simpa using (text_kept part member).1
  have texts := shown names
  rw [same, shown other] at texts
  exact (List.map_injective_iff.mpr text_injective texts).symm

theorem collapse_absolutePath (names : List Name) :
    collapse [] (stepsOf (absolutePath names)) = names := by
  cases names with
  | nil => rfl
  | cons first rest =>
      rw [stepsOf, segments_absolutePath (List.cons_ne_nil _ _), List.map_cons, map_stepOf]
      exact collapse_down [] (first :: rest)

theorem absolutePath_append (rootFilled : root ≠ []) (filled : names ≠ []) :
    absolutePath (root ++ names) = absolutePath root ++ js "/" ++ namesPath names := by
  apply segments_injective
  rw [segments_append, segments_absolutePath rootFilled, segments_namesPath filled,
    segments_absolutePath (List.append_ne_nil_of_left_ne_nil rootFilled _), List.map_append]
  rfl

theorem absolutePath_below (rootFilled : root ≠ []) {reached : List Name}
    (below : isParent (absolutePath root) (absolutePath reached) = true) :
    ∃ names, names ≠ [] ∧ reached = root ++ names := by
  obtain ⟨rest, some, split⟩ := isParent_iff.mp below
  rw [segments_absolutePath rootFilled] at split
  cases reached with
  | nil =>
      have lengths := congrArg List.length split
      obtain ⟨first, more, rfl⟩ := List.exists_cons_of_ne_nil rootFilled
      obtain ⟨head, tail, rfl⟩ := List.exists_cons_of_ne_nil some
      have two : (segments (absolutePath [])).length = 2 := rfl
      rw [two] at lengths
      simp only [List.length_append, List.length_cons, List.map_cons] at lengths
      omega
  | cons first more =>
      rw [segments_absolutePath (List.cons_ne_nil _ _), List.cons_append] at split
      obtain ⟨front, names, shape, same, last⟩ :=
        List.map_eq_append_iff.mp (List.cons_injective split)
      rw [List.map_injective_iff.mpr text_injective same] at shape
      refine ⟨names, ?_, shape⟩
      rintro rfl
      exact some last.symm

private theorem pushSegment_text {segment : JsString} (plain : unit '/' ∉ segment)
    (stack : List Name) (escaped : Nat) :
    ∃ more, pushSegment (stack.map Name.text, escaped) segment =
        ((collapse stack [stepOf segment]).map Name.text, escaped + more) ∧
      (more = 0 → ∀ base,
        collapse (base ++ stack) [stepOf segment] = base ++ collapse stack [stepOf segment]) := by
  rw [pushSegment, stepOf]
  by_cases kept : Kept segment
  · rw [if_neg (not_or.mpr ⟨kept.1, kept.2.1⟩), if_neg kept.2.2, dif_pos ⟨kept, plain⟩]
    exact ⟨0, by simp [collapse], fun _ base => by simp [collapse]⟩
  · rw [dif_neg (fun both => kept both.1)]
    by_cases parent : segment = js ".."
    · subst parent
      rw [if_neg (by decide), if_pos rfl, if_pos rfl]
      cases stack with
      | nil => exact ⟨1, rfl, fun one => absurd one (by decide)⟩
      | cons first rest =>
          rw [if_neg (by simp)]
          refine ⟨0, by simp [collapse], fun _ base => ?_⟩
          rw [collapse, collapse, collapse, collapse,
            List.dropLast_append_of_ne_nil (List.cons_ne_nil _ _)]
    · have dropped : segment = [] ∨ segment = js "." := by
        by_contra other
        rw [not_or] at other
        exact kept ⟨other.1, other.2, parent⟩
      rw [if_pos dropped, if_neg parent]
      exact ⟨0, rfl, fun _ _ => rfl⟩

theorem foldl_pushSegment {parts : List JsString} (plain : ∀ part ∈ parts, unit '/' ∉ part)
    (stack : List Name) (escaped : Nat) :
    ∃ more, parts.foldl pushSegment (stack.map Name.text, escaped) =
        ((collapse stack (parts.map stepOf)).map Name.text, escaped + more) ∧
      (more = 0 → ∀ base, collapse (base ++ stack) (parts.map stepOf) =
        base ++ collapse stack (parts.map stepOf)) := by
  induction parts generalizing stack escaped with
  | nil => exact ⟨0, rfl, fun _ _ => rfl⟩
  | cons part rest ih =>
      obtain ⟨now, pushed, inner⟩ := pushSegment_text (plain part List.mem_cons_self) stack escaped
      obtain ⟨later, folded, outer⟩ := ih (fun other member =>
        plain other (List.mem_cons_of_mem _ member)) (collapse stack [stepOf part]) (escaped + now)
      refine ⟨now + later, ?_, fun none base => ?_⟩
      · rw [List.foldl_cons, pushed, folded, ← collapse_append, Nat.add_assoc]
        rfl
      · have split : ∀ stack : List Name, collapse stack ((part :: rest).map stepOf) =
            collapse (collapse stack [stepOf part]) (rest.map stepOf) :=
          fun stack => collapse_append stack [stepOf part] (rest.map stepOf)
        rw [split, split, inner (by omega), outer (by omega)]

theorem canonicalizeProjectPathIn_ok
    (canonical : canonicalizeProjectPathIn (absolutePath root) target = .canonical lexicalPath) :
    ∃ names, resolve root target = root ++ names ∧ lexicalPath = namesPath names := by
  rw [canonicalizeProjectPathIn] at canonical
  split at canonical
  · cases canonical
  split at canonical
  · cases canonical
  split at canonical
  · cases canonical
  split at canonical
  · rename_i absolute
    rw [resolve, startOf, if_pos absolute]
    simp only [normalizeAbsoluteSegments_eq, collapse_absolutePath] at canonical
    generalize collapse [] (stepsOf target) = reached at canonical ⊢
    by_cases same : absolutePath reached = absolutePath root
    · rw [if_pos same] at canonical
      injection canonical with empty
      exact ⟨[], by rw [absolutePath_injective same, List.append_nil], by rw [← empty]; rfl⟩
    · rw [if_neg same] at canonical
      by_cases top : root = []
      · subst top
        have whole : startsWith (absolutePath reached) (js "/") = true := startsWith_append _ _
        rw [if_pos (show absolutePath [] = js "/" from rfl), if_pos whole] at canonical
        injection canonical with rest
        exact ⟨reached, rfl, rest.symm⟩
      · have deep : ¬absolutePath root = js "/" := fun root => top (absolutePath_injective root)
        rw [if_neg deep] at canonical
        by_cases below : startsWith (absolutePath reached) (absolutePath root ++ js "/") = true
        · rw [if_pos below] at canonical
          injection canonical with rest
          obtain ⟨names, filled, rfl⟩ := absolutePath_below top below
          rw [absolutePath_append top filled, List.drop_left] at rest
          exact ⟨names, rfl, rest.symm⟩
        · rw [if_neg below] at canonical
          cases canonical
  · rename_i named units schemed relative
    rw [resolve, startOf, if_neg relative]
    rw [canonicalizeProjectPath, if_neg named, if_neg units, if_neg schemed, if_neg relative] at canonical
    have plain : ∀ part ∈ segments target, unit '/' ∉ part := fun _ => segments_plain
    obtain ⟨more, folded, based⟩ := foldl_pushSegment plain [] 0
    rw [List.map_nil] at folded
    simp only [folded] at canonical
    split at canonical
    · cases canonical
    · injection canonical with joined
      refine ⟨collapse [] (stepsOf target), ?_, joined.symm⟩
      have stayed := based (by omega) root
      rw [List.append_nil] at stayed
      exact stayed

theorem resolve_namesPath (filled : names ≠ []) : resolve root (namesPath names) = root ++ names := by
  have relative : startsWith (namesPath names) (js "/") = false := by
    obtain ⟨first, rest, rfl⟩ := List.exists_cons_of_ne_nil filled
    obtain ⟨u, more, shape⟩ := List.exists_cons_of_ne_nil first.kept.1
    have other : u ≠ unit '/' := fun slash => first.plain (by rw [shape, slash]; exact List.mem_cons_self)
    rw [namesPath, joinSegments, List.map_cons, shape]
    cases rest <;> simp [startsWith, js, unitsOfChar, unit, List.isPrefixOf] <;> exact other.symm
  rw [resolve, startOf, relative, if_neg (by decide), stepsOf, segments_namesPath filled, map_stepOf,
    collapse_down]

theorem canonicalizeProjectPath_namesPath {path : JsString} (filled : names ≠ [])
    (canonical : canonicalizeProjectPath (namesPath names) = .canonical path) :
    path = namesPath names := by
  rw [canonicalizeProjectPath] at canonical
  split at canonical
  · cases canonical
  split at canonical
  · cases canonical
  split at canonical
  · cases canonical
  split at canonical
  · cases canonical
  rw [segments_namesPath filled, foldl_kept text_kept] at canonical
  simp only [List.nil_append, Nat.lt_irrefl, if_false] at canonical
  injection canonical with same
  exact same.symm

end Lexical

section Places

variable {tree : Foundation.PathWalk.Tree Name} {limit : Nat} {root : List Name} {lexicalPath canonicalPath : JsString}

private theorem relative_cases (root candidate : List Name) :
    (∃ rest, candidate = root ++ rest ∧ relative root candidate = namesPath rest) ∨
      ∃ parts, relative root candidate = joinSegments (js ".." :: parts) := by
  induction root generalizing candidate with
  | nil =>
      left
      refine ⟨candidate, rfl, ?_⟩
      cases candidate <;> rfl
  | cons first root ih =>
      cases candidate with
      | nil => exact .inr ⟨List.replicate root.length (js ".."), by simp [relative, List.replicate_succ]⟩
      | cons other candidate =>
          rw [relative]
          split
          · rename_i same
            subst same
            rcases ih candidate with ⟨rest, rfl, shown⟩ | above
            · exact .inl ⟨rest, rfl, shown⟩
            · exact .inr above
          · exact .inr ⟨_, rfl⟩

theorem inside_iff {candidate : List Name} (within : inside root candidate = true) :
    ∃ rest, candidate = root ++ rest ∧ relative root candidate = namesPath rest := by
  rcases relative_cases root candidate with below | ⟨parts, above⟩
  · exact below
  · rw [inside, above] at within
    cases parts with
    | nil => exact absurd within (by decide)
    | cons part parts =>
        rw [joinSegments, List.intercalate_cons_cons, ← joinSegments] at within
        have outside : startsWith (js ".." ++ [unit '/'] ++ joinSegments (part :: parts)) (js "../") =
            true := startsWith_append (js "../") _
        rw [outside] at within
        simp [js] at within

private theorem rootMatches_directory (matched : rootMatches tree limit root = true) :
    tree.entry root = some .directory := by
  rw [rootMatches, Bool.and_eq_true, decide_eq_true_eq, isDirectory] at matched
  obtain ⟨directory, real⟩ := matched
  rcases List.eq_nil_or_concat root with rfl | ⟨above, last, rfl⟩
  · exact tree.root
  · rw [List.concat_eq_append] at directory real ⊢
    have seen : lstat tree false limit (above ++ [last]) = .ok .directory := by
      split at directory
      · assumption
      · cases directory
    rw [realpath] at real
    cases walked : walk tree false limit [] (down (above ++ [last])) with
    | error e =>
        rw [walked] at real
        cases real
    | ok reached =>
        obtain ⟨place, left⟩ := reached
        rw [walked] at real
        obtain rfl : place = above ++ [last] := Except.ok.inj real
        obtain ⟨parent, before, same⟩ := walk_last walked fun entry found => by
          rw [seen] at found
          rw [← Except.ok.inj found]
          rfl
        obtain ⟨rfl, -⟩ := List.append_inj' same rfl
        rw [lstat_concat last before] at seen
        split at seen
        · split at seen
          · rename_i entry here
            rw [here, Except.ok.inj seen]
          · cases seen
        · cases seen

private theorem existingAncestor_some {reversed later ancestor suffix : List Name}
    (found : existingAncestor tree limit reversed later = some (ancestor, suffix)) :
    ∃ dropped, suffix = dropped ++ later ∧ reversed.reverse = ancestor ++ dropped ∧
      ∀ first rest, dropped = first :: rest →
        lstat tree false limit (ancestor ++ [first]) = .error .missing := by
  induction reversed generalizing later with
  | nil =>
      rw [existingAncestor] at found
      split at found
      · obtain ⟨rfl, rfl⟩ := Prod.mk.inj (Option.some.inj found)
        exact ⟨[], rfl, rfl, fun _ _ none => absurd none.symm (List.cons_ne_nil _ _)⟩
      · cases found
  | cons last above ih =>
      rw [existingAncestor] at found
      split at found
      · obtain ⟨rfl, rfl⟩ := Prod.mk.inj (Option.some.inj found)
        exact ⟨[], rfl, (List.append_nil _).symm,
          fun _ _ none => absurd none.symm (List.cons_ne_nil _ _)⟩
      · rename_i missing
        obtain ⟨dropped, rfl, whole, absent⟩ := ih found
        refine ⟨dropped ++ [last], by rw [List.append_assoc]; rfl, ?_, ?_⟩
        · rw [List.reverse_cons, whole, List.append_assoc]
        · intro first rest shape
          cases dropped with
          | nil =>
              obtain ⟨rfl, -⟩ := List.cons.inj shape
              rw [List.append_nil] at whole
              rw [List.reverse_cons, whole] at missing
              exact missing
          | cons head tail =>
              obtain ⟨rfl, -⟩ := List.cons.inj shape
              exact absent head tail rfl
      · cases found

private theorem walk_suffix {ancestor suffix place : List Name}
    (real : realpath tree limit ancestor = .ok place)
    (absent : ∀ first rest, suffix = first :: rest →
      lstat tree false limit (ancestor ++ [first]) = .error .missing) :
    ∃ left, walk tree true limit [] (down (ancestor ++ suffix)) = .ok (place ++ suffix, left) := by
  rw [realpath] at real
  cases walked : walk tree false limit [] (down ancestor) with
  | error e =>
      rw [walked] at real
      cases real
  | ok reached =>
      obtain ⟨place, left⟩ := reached
      rw [walked] at real
      obtain rfl := Except.ok.inj real
      refine ⟨left, ?_⟩
      rw [down, List.map_append, ← down, walk_append, walk_creating walked]
      change walk tree true left place (down suffix) = _
      cases suffix with
      | nil => rw [down, List.map_nil, walk_nil, List.append_nil]
      | cons first rest =>
          have seen := absent first rest rfl
          rw [lstat_concat first walked] at seen
          split at seen
          · rename_i enter
            split at seen
            · cases seen
            · rename_i missing
              have below := walk_missing missing left rest
              rw [down, List.map_cons, walk_cons, if_pos (enters_creating enter)]
              simp only [missing, if_true]
              rw [← down, below, List.append_assoc]
              rfl
          · cases seen

/-- What a target inspected as inside stands for. -/
structure Inspected (tree : Foundation.PathWalk.Tree Name) (limit : Nat) (root : List Name) (target lexicalPath
    canonicalPath : JsString) (names real : List Name) : Prop where
  directory : tree.entry root = some .directory
  resolved : resolve root target = root ++ names
  lexical : lexicalPath = namesPath names
  named : names ≠ []
  canonical : canonicalPath = namesPath real
  placed : real ≠ []
  reached : ∃ left, walk tree true limit [] (down (root ++ names)) = .ok (root ++ real, left)

theorem inspect_inside {target : JsString}
    (inspected : inspect tree limit root target = .inside lexicalPath canonicalPath) :
    ∃ names real, Inspected tree limit root target lexicalPath canonicalPath names real := by
  rw [inspect] at inspected
  split at inspected
  · cases inspected
  rename_i matched
  rw [Bool.not_eq_true', Bool.not_eq_false] at matched
  split at inspected
  · split at inspected <;> cases inspected
  rename_i lexical accepted
  obtain ⟨names, resolved, rfl⟩ := canonicalizeProjectPathIn_ok accepted
  split at inspected
  · cases inspected
  rename_i some
  have named : names ≠ [] := fun none => some (by rw [none]; rfl)
  rw [resolve_namesPath named] at inspected
  split at inspected
  · cases inspected
  rename_i ancestor suffix found
  obtain ⟨dropped, rfl, whole, absent⟩ := existingAncestor_some found
  rw [List.append_nil] at inspected
  rw [List.reverse_reverse] at whole
  rw [inspectAncestor] at inspected
  split at inspected
  · cases inspected
  rename_i place real
  split at inspected
  · cases inspected
  split at inspected
  · cases inspected
  simp only at inspected
  split at inspected
  · cases inspected
  rename_i within
  rw [Bool.not_eq_true', Bool.not_eq_false] at within
  split at inspected
  · cases inspected
  rename_i placed
  obtain ⟨rest, below, shown⟩ := inside_iff within
  injection inspected with lexical canonical
  rw [shown] at canonical placed
  refine ⟨names, rest, rootMatches_directory matched, resolved, lexical.symm, named, canonical.symm,
    fun none => placed (by rw [none]; rfl), ?_⟩
  rw [whole, ← below]
  exact walk_suffix real absent

/-- A write lands where the inspection says, unless a parent step drops a link on the way. -/
theorem Inspected.location {target : JsString} {names real place : List Name}
    (inspected : Inspected tree limit root target lexicalPath canonicalPath names real)
    (located : location tree limit root target = .ok place)
    (kept : dropsLink tree limit (startOf root target) (stepsOf target) = false) :
    place = root ++ real := by
  rw [WriteGuard.location] at located
  cases walked : walk tree true limit (startOf root target) (stepsOf target) with
  | error e =>
      rw [walked] at located
      cases located
  | ok reached =>
      obtain ⟨place, left⟩ := reached
      rw [walked] at located
      obtain rfl := Except.ok.inj located
      have start : tree.entry (startOf root target) = some .directory := by
        rw [startOf]
        split
        · exact tree.root
        · exact inspected.directory
      have collapsed := walk_collapse (walk_directory start) walked kept
      rw [← resolve, inspected.resolved] at collapsed
      obtain ⟨other, lands⟩ := inspected.reached
      rw [collapsed] at lands
      exact (Prod.mk.inj (Except.ok.inj lands)).1

end Places

end Kratos.WriteGuard
