/- source: composition/index.ts, domain/transactions/normalize.ts
   digest: Committing planned writes to stored paths, and what the paths hold afterwards. -/

import Kratos.Migration.ConfigPlan
import Kratos.Transactions.Relationships

set_option autoImplicit false

namespace Kratos.Migration

open Foundation.Text Foundation.Paths Durable Transactions

section Writing

/-- A write with the state it depends on. -/
structure WriteEffect where
  path : JsString
  content : JsString
  expected : PathFingerprint
deriving DecidableEq, Repr

def fingerprintOf : DurableEntry → Option PathFingerprint
  | .missing => some .missing
  | .directory => some .directory
  | .file size sha256 => some (.file size sha256)
  | .symlink | .special => none

/-- Setting a path: the last entry of a path is the one it has. -/
def put (storage : Storage) (path : JsString) (node : Node) : Storage := storage ++ [(path, node)]

/-- A directory on the way to a write, made where it is missing. -/
def makeDirectory (storage : Storage) (path : JsString) : Except MigrationFailure Storage :=
  match storage.find path with
  | none => .ok (put storage path .directory)
  | some .directory => .ok storage
  | some _ => .error (stateCorrupt (js ".brain"))

def writeFile (storage : Storage) (effect : WriteEffect) : Except MigrationFailure Storage := do
  let storage ← (prefixes effect.path).dropLast.foldlM makeDirectory storage
  if storage.find effect.path = some .directory then .error (stateCorrupt (js ".brain"))
  else .ok (put storage effect.path (.file effect.content))

def WriteEffect.requested (effect : WriteEffect) : Effect :=
  .managed (.writeFile effect.content) effect.path

/-- What the planner checks of the writes before it looks at any state. -/
def checkPlan (lower : CaseMapping) (effects : List WriteEffect) : Except PlanRefusal Unit := do
  let selected ← selectManagedEffects lower (effects.map WriteEffect.requested)
  validateRelationships lower selected

def planFailure : PlanRefusal → MigrationFailure
  | .outsideAllow => .refused (js "guard.outside_allow") []
  | .stateCorrupt => stateCorrupt (js ".brain")

/-- `applyPlan` of a plan of writes: every precondition, the planner's checks, then the writes. -/
def commit (lower : CaseMapping) (sha256 : JsString → JsString) (storage : Storage)
    (effects : List WriteEffect) : Except MigrationFailure Storage :=
  match effects.find? fun effect =>
    fingerprintOf (Node.entry sha256 (storage.find effect.path)) != some effect.expected with
  | some effect => .error (revisionConflict effect.path)
  | none =>
      match checkPlan lower effects with
      | .error refusal => .error (planFailure refusal)
      | .ok () => effects.foldlM writeFile storage

end Writing

section Holding

/-- What paths hold once a file was written: the file, and the directories on the way to it. -/
def written (held : Workspace) (effect : WriteEffect) : Workspace := fun path =>
  if path = effect.path then some (.file effect.content)
  else if isParent path effect.path = true ∧ held path = none then some .directory
  else held path

/-- Everything that is held lies in directories. -/
def Housed (held : Workspace) : Prop :=
  ∀ path, held path ≠ none → ∀ parent, isParent parent path = true → held parent = some .directory

def Writable (held : Workspace) (path : JsString) : Prop :=
  held path ≠ some .directory ∧
    ∀ parent, isParent parent path = true → held parent = none ∨ held parent = some .directory

/-- Two paths neither of which lies at or beneath the other. -/
def Unrelated (left right : JsString) : Prop :=
  left ≠ right ∧ isParent left right = false ∧ isParent right left = false

variable {held : Workspace} {effect : WriteEffect} {path : JsString}

theorem written_own : written held effect effect.path = some (.file effect.content) :=
  if_pos rfl

theorem written_other (other : path ≠ effect.path) (beside : isParent path effect.path = false) :
    written held effect path = held path := by
  rw [written, if_neg other, if_neg]
  intro above
  rw [beside] at above
  exact Bool.false_ne_true above.1

theorem written_stored (other : path ≠ effect.path) (stored : held path ≠ none) :
    written held effect path = held path := by
  rw [written, if_neg other, if_neg]
  intro above
  exact stored above.2

theorem written_above (above : isParent path effect.path = true) (writable : Writable held effect.path) :
    written held effect path = some .directory := by
  have other : path ≠ effect.path := by
    rintro rfl
    rw [isParent_irrefl] at above
    cases above
  rw [written, if_neg other]
  rcases writable.2 path above with none | directory
  · rw [if_pos ⟨above, none⟩]
  · rw [if_neg (by simp [directory]), directory]

theorem Unrelated.symm {left right : JsString} (unrelated : Unrelated left right) :
    Unrelated right left :=
  ⟨unrelated.1.symm, unrelated.2.2, unrelated.2.1⟩

theorem Writable.written (writable : Writable held path) (own : Writable held effect.path)
    (beside : Unrelated path effect.path) : Writable (written held effect) path := by
  constructor
  · rw [written_other beside.1 beside.2.1]
    exact writable.1
  · intro parent above
    by_cases same : parent = effect.path
    · rw [same, beside.2.2] at above
      cases above
    · by_cases shared : isParent parent effect.path = true
      · exact .inr (written_above shared own)
      · rw [written_other same (Bool.eq_false_iff.mpr shared)]
        exact writable.2 parent above

theorem Housed.written (housed : Housed held) (writable : Writable held effect.path) :
    Housed (written held effect) := by
  intro path stored parent above
  by_cases shared : isParent parent effect.path = true
  · exact written_above shared writable
  · have outside : path ≠ effect.path ∧ isParent path effect.path = false := by
      constructor
      · rintro rfl
        exact shared above
      · rw [Bool.eq_false_iff]
        intro below
        exact shared (isParent_trans above below)
    rw [written_other outside.1 outside.2] at stored
    have directory := housed path stored parent above
    have other : parent ≠ effect.path := by
      rintro rfl
      exact writable.1 directory
    rw [written_other other (Bool.eq_false_iff.mpr shared), directory]

theorem Housed.writable (housed : Housed held) {content : JsString}
    (stored : held path = some (.file content)) : Writable held path := by
  constructor
  · rw [stored]
    intro directory
    cases directory
  · intro parent above
    exact .inr (housed path (by rw [stored]; exact Option.some_ne_none _) parent above)

end Holding

section Sequences

variable {held : Workspace} {effects : List WriteEffect} {path : JsString}

/-- Writes that can be made one after the other, in any order. -/
structure Independent (held : Workspace) (effects : List WriteEffect) : Prop where
  writable : ∀ effect ∈ effects, Writable held effect.path
  unrelated : effects.Pairwise fun left right => Unrelated left.path right.path

theorem Independent.tail {effect : WriteEffect} (independent : Independent held (effect :: effects)) :
    Independent (written held effect) effects where
  writable other member :=
    (independent.writable other (List.mem_cons_of_mem _ member)).written
      (independent.writable effect List.mem_cons_self)
      ((List.pairwise_cons.mp independent.unrelated).1 other member).symm
  unrelated := (List.pairwise_cons.mp independent.unrelated).2

theorem foldl_written_other (other : ∀ effect ∈ effects, path ≠ effect.path)
    (beside : ∀ effect ∈ effects, isParent path effect.path = false) :
    effects.foldl written held path = held path := by
  induction effects generalizing held with
  | nil => rfl
  | cons effect rest ih =>
      rw [List.foldl_cons, ih (fun later member => other later (List.mem_cons_of_mem _ member))
        (fun later member => beside later (List.mem_cons_of_mem _ member))]
      exact written_other (other effect List.mem_cons_self) (beside effect List.mem_cons_self)

/-- What is held after writes was held before, or lies on the way to one of them. -/
theorem foldl_written_new (stored : effects.foldl written held path ≠ none) :
    held path ≠ none ∨ ∃ effect ∈ effects, path = effect.path ∨ isParent path effect.path = true := by
  by_contra unrelated
  rw [not_or, not_not] at unrelated
  obtain ⟨none, away⟩ := unrelated
  refine stored ?_
  rw [foldl_written_other, none]
  · exact fun effect member same => away ⟨effect, member, .inl same⟩
  · exact fun effect member => Bool.eq_false_iff.mpr fun above => away ⟨effect, member, .inr above⟩

theorem foldl_written_stored (other : ∀ effect ∈ effects, path ≠ effect.path)
    (stored : held path ≠ none) : effects.foldl written held path = held path := by
  induction effects generalizing held with
  | nil => rfl
  | cons effect rest ih =>
      have same := written_stored (other effect List.mem_cons_self) stored
      rw [List.foldl_cons, ih (fun later member => other later (List.mem_cons_of_mem _ member))
        (same ▸ stored), same]

theorem foldl_written_own (independent : Independent held effects) {effect : WriteEffect}
    (member : effect ∈ effects) :
    effects.foldl written held effect.path = some (.file effect.content) := by
  induction effects generalizing held with
  | nil => cases member
  | cons first rest ih =>
      rw [List.foldl_cons]
      rcases List.mem_cons.mp member with rfl | later
      · have before := (List.pairwise_cons.mp independent.unrelated).1
        rw [foldl_written_other (fun other inside => (before other inside).1)
          fun other inside => (before other inside).2.1]
        exact written_own
      · exact ih independent.tail later

theorem foldl_written_housed (housed : Housed held) (independent : Independent held effects) :
    Housed (effects.foldl written held) := by
  induction effects generalizing held with
  | nil => exact housed
  | cons effect rest ih =>
      exact ih (housed.written (independent.writable effect List.mem_cons_self)) independent.tail

end Sequences

section Committing

variable {storage : Storage}

private theorem makeDirectories_spec {parents : List JsString}
    (clear : ∀ parent ∈ parents, storage.find parent = none ∨ storage.find parent = some .directory) :
    ∃ next, parents.foldlM makeDirectory storage = .ok next ∧
      ∀ path, next.find path =
        if path ∈ parents ∧ storage.find path = none then some .directory else storage.find path := by
  induction parents generalizing storage with
  | nil => exact ⟨storage, rfl, fun path => by simp⟩
  | cons parent rest ih =>
      rcases clear parent List.mem_cons_self with none | directory
      · have grown : ∀ path, (put storage parent .directory).find path =
            if parent = path then some .directory else storage.find path :=
          fun path => Storage.find_concat parent .directory path
        have later : ∀ other ∈ rest, (put storage parent .directory).find other = Option.none ∨
            (put storage parent .directory).find other = some .directory := by
          intro other member
          rw [grown]
          split
          · exact .inr rfl
          · exact clear other (List.mem_cons_of_mem _ member)
        obtain ⟨next, run, holds⟩ := ih later
        refine ⟨next, ?_, ?_⟩
        · rw [List.foldlM_cons, makeDirectory, none]
          exact run
        · intro path
          rw [holds, grown]
          by_cases own : parent = path
          · subst own
            simp [none]
          · have other : path ≠ parent := fun same => own same.symm
            simp [own, other]
      · obtain ⟨next, run, holds⟩ := ih fun other member => clear other (List.mem_cons_of_mem _ member)
        refine ⟨next, ?_, ?_⟩
        · rw [List.foldlM_cons, makeDirectory, directory]
          exact run
        · intro path
          rw [holds]
          by_cases own : path = parent
          · subst own
            simp [directory]
          · simp [own]

theorem writeFile_spec {effect : WriteEffect} (writable : Writable storage.find effect.path) :
    ∃ next, writeFile storage effect = .ok next ∧ next.find = written storage.find effect := by
  obtain ⟨middle, made, holds⟩ := makeDirectories_spec fun parent member =>
    writable.2 parent (mem_dropLast_prefixes_iff.mp member)
  have same : middle.find effect.path = storage.find effect.path := by
    rw [holds, if_neg]
    rintro ⟨above, -⟩
    rw [mem_dropLast_prefixes_iff, isParent_irrefl] at above
    cases above
  refine ⟨put middle effect.path (.file effect.content), ?_, ?_⟩
  · rw [writeFile, made]
    show (if middle.find effect.path = some .directory then _ else _) = _
    rw [same, if_neg writable.1]
  · funext path
    rw [put, Storage.find_concat, written]
    by_cases own : path = effect.path
    · rw [if_pos own.symm, if_pos own]
    · rw [if_neg fun same => own same.symm, if_neg own, holds]
      simp only [mem_dropLast_prefixes_iff]

theorem writeFiles_spec {effects : List WriteEffect} (independent : Independent storage.find effects) :
    ∃ next, effects.foldlM writeFile storage = .ok next ∧
      next.find = effects.foldl written storage.find := by
  induction effects generalizing storage with
  | nil => exact ⟨storage, rfl, rfl⟩
  | cons effect rest ih =>
      obtain ⟨middle, first, holds⟩ := writeFile_spec (independent.writable effect List.mem_cons_self)
      have tail := independent.tail
      rw [← holds] at tail
      obtain ⟨next, run, final⟩ := ih tail
      refine ⟨next, ?_, ?_⟩
      · rw [List.foldlM_cons, first]
        exact run
      · rw [final, holds, List.foldl_cons]

variable {lower : CaseMapping} {effects : List WriteEffect}

private theorem selectManagedEffects_writes
    (managed : ∀ effect ∈ effects, isManagedDestination lower effect.path = true) :
    selectManagedEffects lower (effects.map WriteEffect.requested) =
      .ok (effects.map fun effect => ⟨.writeFile effect.content, effect.path⟩) := by
  induction effects with
  | nil => rfl
  | cons effect rest ih =>
      have own : assertDestination lower (.writeFile effect.content) effect.path = .ok () :=
        if_pos (managed effect List.mem_cons_self)
      rw [List.map_cons, WriteEffect.requested, selectManagedEffects, own,
        ih fun other member => managed other (List.mem_cons_of_mem _ member)]
      rfl

theorem checkPlan_ok (managed : ∀ effect ∈ effects, isManagedDestination lower effect.path = true)
    (spelled : Spelled lower (effects.flatMap fun effect => prefixes effect.path))
    (unrelated : effects.Pairwise fun left right => Unrelated left.path right.path) :
    checkPlan lower effects = .ok () := by
  rw [checkPlan, selectManagedEffects_writes managed]
  refine validateRelationships_ok_iff.mpr ⟨?_, ?_⟩
  · rw [List.flatMap_map]
    exact spelled
  · refine List.pairwise_map.mpr (unrelated.imp ?_)
    intro left right beside
    refine ⟨beside.1, ?_, beside.2.2⟩
    intro above
    rw [beside.2.1] at above
    cases above

theorem commit_spec {sha256 : JsString → JsString}
    (expected : ∀ effect ∈ effects,
      fingerprintOf (Node.entry sha256 (storage.find effect.path)) = some effect.expected)
    (planned : checkPlan lower effects = .ok ()) (independent : Independent storage.find effects) :
    ∃ next, commit lower sha256 storage effects = .ok next ∧
      next.find = effects.foldl written storage.find := by
  have met : effects.find? (fun effect =>
      fingerprintOf (Node.entry sha256 (storage.find effect.path)) != some effect.expected) = none := by
    rw [List.find?_eq_none]
    intro effect member
    simp [expected effect member]
  rw [commit, met, planned]
  exact writeFiles_spec independent

end Committing

end Kratos.Migration
