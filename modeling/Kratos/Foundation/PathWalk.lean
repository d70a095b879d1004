/- source: none(filesystem path resolution)
   digest: Component-wise resolution in a tree with symbolic links, and the lexical collapse of parent steps. -/

import Mathlib.Data.List.Induction

set_option autoImplicit false

namespace Kratos.Foundation.PathWalk

variable {ν : Type*}

section Model

inductive Step (ν : Type*)
  | here
  | up
  | name (n : ν)
deriving DecidableEq, Repr

inductive Entry (ν : Type*)
  | directory
  | file
  | link (absolute : Bool) (target : List (Step ν))
deriving DecidableEq, Repr

def Entry.isLink : Entry ν → Bool
  | .link _ _ => true
  | _ => false

/-- The places of a tree: the root is a directory, and so is what holds an entry. -/
structure Tree (ν : Type*) where
  entry : List ν → Option (Entry ν)
  root : entry [] = some .directory
  parent : ∀ place n, entry (place ++ [n]) ≠ none → entry place = some .directory

inductive WalkError
  | missing
  | notDirectory
  | loop
deriving DecidableEq, Repr

/-- The place a walk reaches, and the links it may still follow. -/
abbrev Walked (ν : Type*) := Except WalkError (List ν × Nat)

/-- Whether a walk may leave from this entry; a creating walk makes what is missing. -/
def enters (creating : Bool) : Option (Entry ν) → Bool
  | some .directory => true
  | none => creating
  | _ => false

/-- One walk along the steps; `follow` continues where a link leads. -/
def walkFrom (tree : Tree ν) (creating : Bool) (budget : Nat)
    (follow : List ν → List (Step ν) → Walked ν) (place : List ν) : List (Step ν) → Walked ν
  | [] => .ok (place, budget)
  | step :: rest =>
      if enters creating (tree.entry place) then
        match step with
        | .here => walkFrom tree creating budget follow place rest
        | .up => walkFrom tree creating budget follow place.dropLast rest
        | .name n =>
            match tree.entry (place ++ [n]) with
            | some (.link absolute target) =>
                follow (if absolute then [] else place) (target ++ rest)
            | none =>
                if creating then walkFrom tree creating budget follow (place ++ [n]) rest
                else .error .missing
            | some _ => walkFrom tree creating budget follow (place ++ [n]) rest
      else .error .notDirectory

/-- Resolution with at most `budget` links followed. -/
def walk (tree : Tree ν) (creating : Bool) : Nat → List ν → List (Step ν) → Walked ν
  | 0 => walkFrom tree creating 0 fun _ _ => .error .loop
  | budget + 1 => walkFrom tree creating (budget + 1) (walk tree creating budget)

def down (names : List ν) : List (Step ν) := names.map .name

/-- The entry at a path, its last component not followed. -/
def lstat (tree : Tree ν) (creating : Bool) (limit : Nat) (path : List ν) :
    Except WalkError (Entry ν) :=
  match path.getLast? with
  | none => .ok .directory
  | some last => do
      let (place, _) ← walk tree creating limit [] (down path.dropLast)
      if enters creating (tree.entry place) then
        match tree.entry (place ++ [last]) with
        | some entry => .ok entry
        | none => .error .missing
      else .error .notDirectory

def realpath (tree : Tree ν) (limit : Nat) (path : List ν) : Except WalkError (List ν) :=
  (walk tree false limit [] (down path)).map Prod.fst

/-- Steps taken on names alone: a parent step drops the last name. -/
def collapse (stack : List ν) : List (Step ν) → List ν
  | [] => stack
  | .here :: rest => collapse stack rest
  | .up :: rest => collapse stack.dropLast rest
  | .name n :: rest => collapse (stack ++ [n]) rest

/-- Whether some parent step drops a name that is a symbolic link. -/
def dropsLink (tree : Tree ν) (limit : Nat) (stack : List ν) : List (Step ν) → Bool
  | [] => false
  | .here :: rest => dropsLink tree limit stack rest
  | .up :: rest =>
      (match lstat tree true limit stack with
        | .ok entry => entry.isLink
        | .error _ => false) || dropsLink tree limit stack.dropLast rest
  | .name n :: rest => dropsLink tree limit (stack ++ [n]) rest

end Model

section Walks

variable {tree : Tree ν} {creating : Bool}

theorem enters_creating {entry : Option (Entry ν)} (enter : enters false entry = true) :
    enters true entry = true := by
  cases entry with
  | none => rfl
  | some entry => cases entry <;> trivial

@[simp] theorem walk_nil (budget : Nat) (place : List ν) :
    walk tree creating budget place [] = .ok (place, budget) := by
  cases budget <;> rfl

theorem walk_cons (budget : Nat) (place : List ν) (step : Step ν) (rest : List (Step ν)) :
    walk tree creating budget place (step :: rest) =
      if enters creating (tree.entry place) then
        match step with
        | .here => walk tree creating budget place rest
        | .up => walk tree creating budget place.dropLast rest
        | .name n =>
            match tree.entry (place ++ [n]) with
            | some (.link absolute target) =>
                match budget with
                | 0 => .error .loop
                | budget + 1 =>
                    walk tree creating budget (if absolute then [] else place) (target ++ rest)
            | none =>
                if creating then walk tree creating budget (place ++ [n]) rest
                else .error .missing
            | some _ => walk tree creating budget (place ++ [n]) rest
      else .error .notDirectory := by
  cases budget <;> cases step <;> simp only [walk, walkFrom]

/-- Induction over the steps of a walk, and over its budget where a link leads elsewhere. -/
theorem walk_induction {motive : Nat → List ν → List (Step ν) → Prop}
    (nil : ∀ budget place, motive budget place [])
    (cons : ∀ budget place step rest, (∀ next, motive budget next rest) →
      (∀ less next steps, less < budget → motive less next steps) →
        motive budget place (step :: rest)) (budget : Nat) (place : List ν) (steps : List (Step ν)) :
    motive budget place steps := by
  induction budget using Nat.strongRecOn generalizing place steps with
  | ind budget links =>
      induction steps generalizing place with
      | nil => exact nil budget place
      | cons step rest ih =>
          exact cons budget place step rest ih fun less next steps smaller =>
            links less smaller next steps

/-- A walk along two runs of steps is a walk along the second from where the first ends. -/
theorem walk_append (budget : Nat) (place : List ν) (front back : List (Step ν)) :
    walk tree creating budget place (front ++ back) =
      (walk tree creating budget place front).bind fun reached =>
        walk tree creating reached.2 reached.1 back := by
  induction budget, place, front using walk_induction with
  | nil budget place =>
      rw [List.nil_append, walk_nil]
      rfl
  | cons budget place step rest ih links =>
      rw [List.cons_append, walk_cons, walk_cons]
      split
      · cases step with
        | here => exact ih place
        | up => exact ih place.dropLast
        | name n =>
            simp only
            split
            · cases budget with
              | zero => rfl
              | succ budget =>
                  rw [← List.append_assoc]
                  exact links budget _ _ (Nat.lt_succ_self budget)
            · split
              · exact ih (place ++ [n])
              · rfl
            · exact ih (place ++ [n])
      · rfl

theorem walk_creating {budget : Nat} {place : List ν} {steps : List (Step ν)}
    {reached : List ν × Nat} (plain : walk tree false budget place steps = .ok reached) :
    walk tree true budget place steps = .ok reached := by
  induction budget, place, steps using walk_induction with
  | nil budget place => simpa using plain
  | cons budget place step rest ih links =>
      rw [walk_cons] at plain ⊢
      split at plain
      · rename_i enter
        rw [if_pos (enters_creating enter)]
        cases step with
        | here => exact ih _ plain
        | up => exact ih _ plain
        | name n =>
            simp only at plain ⊢
            split at plain
            · cases budget with
              | zero => cases plain
              | succ budget => exact links budget _ _ (Nat.lt_succ_self budget) plain
            · simp at plain
            · exact ih _ plain
      · cases plain

theorem walk_missing {place : List ν} (missing : tree.entry place = none) (budget : Nat)
    (names : List ν) : walk tree true budget place (down names) = .ok (place ++ names, budget) := by
  induction names generalizing place with
  | nil => rw [down, List.map_nil, walk_nil, List.append_nil]
  | cons n rest ih =>
      have below : tree.entry (place ++ [n]) = none := by
        by_contra present
        rw [tree.parent place n present] at missing
        cases missing
      rw [down, List.map_cons, walk_cons, missing, if_pos (show enters true none = true from rfl)]
      simp only [below, if_true]
      rw [← down, ih below, List.append_assoc]
      rfl

end Walks

section Collapse

variable {tree : Tree ν} {limit budget left : Nat} {place reached stack : List ν}

theorem collapse_append (stack : List ν) (front back : List (Step ν)) :
    collapse stack (front ++ back) = collapse (collapse stack front) back := by
  induction front generalizing stack with
  | nil => rfl
  | cons step rest ih => cases step <;> exact ih _

@[simp] theorem collapse_down (stack names : List ν) : collapse stack (down names) = stack ++ names := by
  induction names generalizing stack with
  | nil => exact (List.append_nil stack).symm
  | cons n rest ih =>
      rw [down, List.map_cons, collapse, ← down, ih, List.append_assoc]
      rfl

theorem mem_collapse {steps : List (Step ν)} {n : ν} (member : n ∈ collapse stack steps) :
    n ∈ stack ∨ .name n ∈ steps := by
  induction steps generalizing stack with
  | nil => exact .inl member
  | cons step rest ih =>
      cases step with
      | here => exact (ih member).imp_right (List.mem_cons_of_mem _)
      | up =>
          rcases ih member with early | late
          · exact .inl (List.dropLast_subset _ early)
          · exact .inr (List.mem_cons_of_mem _ late)
      | name other =>
          rcases ih member with early | late
          · rcases List.mem_append.mp early with before | now
            · exact .inl before
            · rw [List.mem_singleton.mp now]
              exact .inr List.mem_cons_self
          · exact .inr (List.mem_cons_of_mem _ late)

private theorem walk_split {creating : Bool} {front back : List (Step ν)}
    (whole : walk tree creating budget place (front ++ back) = .ok (reached, left)) :
    ∃ middle rest, walk tree creating budget place front = .ok (middle, rest) ∧
      walk tree creating rest middle back = .ok (reached, left) := by
  rw [walk_append] at whole
  cases first : walk tree creating budget place front with
  | error e =>
      rw [first] at whole
      cases whole
  | ok one =>
      rw [first] at whole
      exact ⟨one.1, one.2, rfl, whole⟩

private theorem walk_join {creating : Bool} {front back : List (Step ν)} {middle : List ν}
    {rest : Nat} (first : walk tree creating budget place front = .ok (middle, rest)) :
    walk tree creating budget place (front ++ back) = walk tree creating rest middle back := by
  rw [walk_append, first]
  rfl

theorem lstat_concat {creating : Bool} {names above : List ν} (last : ν)
    (walked : walk tree creating limit [] (down names) = .ok (above, budget)) :
    lstat tree creating limit (names ++ [last]) =
      if enters creating (tree.entry above) then
        match tree.entry (above ++ [last]) with
        | some entry => .ok entry
        | none => .error .missing
      else .error .notDirectory := by
  rw [lstat, List.getLast?_concat]
  simp only [List.dropLast_concat]
  rw [walked]
  rfl

theorem walk_last {creating : Bool} {names : List ν} {last : ν}
    (walked : walk tree creating limit [] (down (names ++ [last])) = .ok (place, budget))
    (plain : ∀ entry, lstat tree creating limit (names ++ [last]) = .ok entry →
      entry.isLink = false) :
    ∃ above, walk tree creating limit [] (down names) = .ok (above, budget) ∧
      place = above ++ [last] := by
  rw [down, List.map_append] at walked
  obtain ⟨above, before, first, second⟩ := walk_split walked
  have seen := lstat_concat last first
  rw [List.map_singleton, walk_cons] at second
  split at second
  · rename_i enter
    rw [if_pos enter] at seen
    simp only at second
    split at second
    · rename_i absolute target link
      rw [link] at seen
      cases plain _ seen
    · split at second
      · rw [walk_nil] at second
        obtain ⟨rfl, rfl⟩ := Prod.mk.inj (Except.ok.inj second)
        exact ⟨above, first, rfl⟩
      · cases second
    · rw [walk_nil] at second
      obtain ⟨rfl, rfl⟩ := Prod.mk.inj (Except.ok.inj second)
      exact ⟨above, first, rfl⟩
  · cases second

theorem walk_directory {creating : Bool} (directory : tree.entry place = some .directory) :
    walk tree creating budget [] (down place) = .ok (place, budget) := by
  induction place using List.reverseRecOn with
  | nil => rw [down, List.map_nil, walk_nil]
  | append_singleton above last ih =>
      have parent : tree.entry above = some .directory :=
        tree.parent above last (by rw [directory]; exact Option.some_ne_none _)
      rw [down, List.map_append, ← down, walk_join (ih parent), List.map_singleton, walk_cons,
        parent, if_pos (show enters creating (some .directory) = true from rfl)]
      simp only [directory, walk_nil]

/-- Where no parent step drops a link, the collapsed path leads where the steps lead. -/
theorem walk_collapse {steps : List (Step ν)}
    (before : walk tree true limit [] (down stack) = .ok (place, budget))
    (walked : walk tree true budget place steps = .ok (reached, left))
    (kept : dropsLink tree limit stack steps = false) :
    walk tree true limit [] (down (collapse stack steps)) = .ok (reached, left) := by
  induction steps generalizing stack place budget with
  | nil =>
      rw [walk_nil] at walked
      rw [collapse, before, walked]
  | cons step rest ih =>
      cases step with
      | here =>
          rw [walk_cons] at walked
          split at walked
          · exact ih before walked kept
          · cases walked
      | up =>
          rw [dropsLink, Bool.or_eq_false_iff] at kept
          rw [walk_cons] at walked
          split at walked
          · rcases List.eq_nil_or_concat stack with rfl | ⟨names, last, rfl⟩
            · -- the parent of the root is the root
              rw [down, List.map_nil, walk_nil] at before
              obtain ⟨rfl, rfl⟩ := Prod.mk.inj (Except.ok.inj before)
              exact ih (by rw [List.dropLast_nil, down, List.map_nil, walk_nil]) walked kept.2
            · have plain : ∀ entry, lstat tree true limit (names ++ [last]) = .ok entry →
                  entry.isLink = false := by
                intro entry seen
                have none := kept.1
                rw [List.concat_eq_append, seen] at none
                exact none
              rw [List.concat_eq_append] at before kept
              obtain ⟨above, parent, rfl⟩ := walk_last before plain
              rw [List.dropLast_concat] at walked kept
              rw [collapse, List.concat_eq_append, List.dropLast_concat]
              exact ih parent walked kept.2
          · cases walked
      | name n =>
          obtain ⟨middle, between, first, second⟩ :=
            walk_split (show walk tree true budget place ([.name n] ++ rest) = _ from walked)
          refine ih ?_ second kept
          rw [down, List.map_append, List.map_singleton, ← down, walk_join before, first]

end Collapse

end Kratos.Foundation.PathWalk
