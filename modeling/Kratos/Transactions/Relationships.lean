/- source: domain/transactions/normalize.ts, composition/transactions.ts
   digest: What the relationship checks of the planner and of the executor accept. -/

import Kratos.Foundation.Runs
import Kratos.Transactions.Plan

set_option autoImplicit false

namespace Kratos.Transactions

open Foundation.Text Foundation.Collections Foundation.Paths Foundation.Runs

variable {lower : CaseMapping}

/-- The paths have pairwise different collision keys. -/
def Spelled (lower : CaseMapping) (paths : List JsString) : Prop :=
  ∀ left ∈ paths, ∀ right ∈ paths,
    lower.toLowerCase left = lower.toLowerCase right → left = right

section Spellings

private def spellingEntries (lower : CaseMapping) (paths : List JsString) :
    List (JsString × JsString) :=
  paths.map fun path => (lower.toLowerCase path, path)

private theorem spellings_snoc (paths : List JsString) (path : JsString) :
    spellingEntries lower paths ++ [(lower.toLowerCase path, path)] =
      spellingEntries lower (paths ++ [path]) := by
  simp [spellingEntries]

private theorem checkSpellings_from (before : List JsString) {rest : List JsString} (spelled : Spelled lower before) :
    checkSpellings lower (spellingEntries lower before) rest = .ok () ↔
      Spelled lower (before ++ rest) := by
  induction rest generalizing before with
  | nil =>
      rw [List.append_nil]
      exact ⟨fun _ => spelled, fun _ => rfl⟩
  | cons path rest ih =>
      have shape : before ++ path :: rest = before ++ [path] ++ rest := by simp
      rw [checkSpellings]
      cases found : mapGet (spellingEntries lower before) (lower.toLowerCase path) with
      | some prior =>
          obtain ⟨earlier, member, entry⟩ := List.mem_map.mp (mapGet_mem found)
          injection entry with key same
          subst same
          simp only
          rw [guard_ok_iff, not_not, spellings_snoc]
          constructor
          · rintro ⟨rfl, accepted⟩
            rw [shape]
            refine (ih _ ?_).mp accepted
            intro left leftIn right rightIn equal
            have inside : ∀ other ∈ before ++ [earlier], other ∈ before := by
              intro other among
              rcases List.mem_append.mp among with old | new
              · exact old
              · rw [List.mem_singleton.mp new]
                exact member
            exact spelled left (inside left leftIn) right (inside right rightIn) equal
          · intro whole
            have same : earlier = path :=
              whole earlier (List.mem_append_left _ member) path
                (List.mem_append_right _ List.mem_cons_self) key
            refine ⟨same, (ih _ ?_).mpr (shape ▸ whole)⟩
            intro left leftIn right rightIn equal
            exact whole left (by rw [shape]; exact List.mem_append_left _ leftIn) right
              (by rw [shape]; exact List.mem_append_left _ rightIn) equal
      | none =>
          have fresh : ∀ other ∈ before, lower.toLowerCase other ≠ lower.toLowerCase path := by
            intro other member equal
            have absent := mapGet_eq_none_iff.mp found
            refine absent ?_
            rw [← equal, spellingEntries, List.map_map]
            exact List.mem_map_of_mem (f := Prod.fst ∘ fun path => (lower.toLowerCase path, path)) member
          simp only
          rw [spellings_snoc, shape]
          refine ih _ ?_
          intro left leftIn right rightIn equal
          rcases List.mem_append.mp leftIn with leftOld | leftNew
          · rcases List.mem_append.mp rightIn with rightOld | rightNew
            · exact spelled left leftOld right rightOld equal
            · rw [List.mem_singleton.mp rightNew] at equal
              exact absurd equal (fresh left leftOld)
          · rw [List.mem_singleton.mp leftNew] at equal ⊢
            rcases List.mem_append.mp rightIn with rightOld | rightNew
            · exact absurd equal.symm (fresh right rightOld)
            · rw [List.mem_singleton.mp rightNew]

theorem checkSpellings_ok_iff {paths : List JsString} :
    checkSpellings lower [] paths = .ok () ↔ Spelled lower paths :=
  checkSpellings_from [] fun _ member => absurd member List.not_mem_nil

theorem Spelled.subset {paths others : List JsString} (spelled : Spelled lower paths)
    (subset : ∀ path ∈ others, path ∈ paths) : Spelled lower others :=
  fun left leftIn right rightIn equal =>
    spelled left (subset left leftIn) right (subset right rightIn) equal

theorem Spelled.isParent_map {paths : List JsString} (spelled : Spelled lower paths)
    {parent child : JsString} (parentIn : parent ∈ paths)
    (childIn : ∀ path ∈ prefixes child, path ∈ paths) :
    isParent (lower.toLowerCase parent) (lower.toLowerCase child) =
      isParent parent child := by
  rw [Bool.eq_iff_iff, isParent_toLowerCase]
  constructor
  · rintro ⟨other, above, equal⟩
    have same := spelled other (childIn other (mem_prefixes_iff.mpr (.inr above))) parent parentIn equal
    exact same ▸ above
  · intro above
    exact ⟨parent, above, rfl⟩

end Spellings

section Pairs

variable {α : Type} {check : α → α → Except PlanRefusal Unit}

theorem checkPairs_ok_iff {entries : List α} :
    checkPairs check entries = .ok () ↔
      entries.Pairwise fun left right => check left right = .ok () := by
  induction entries with
  | nil => simp [checkPairs]
  | cons left rest ih =>
      rw [checkPairs, bind_ok_iff, List.pairwise_cons, ← ih]
      constructor
      · rintro ⟨⟨⟩, first, later⟩
        exact ⟨forM_ok_iff.mp first, later⟩
      · rintro ⟨first, later⟩
        exact ⟨(), forM_ok_iff.mpr first, later⟩

end Pairs

section Effects

/-- How two requested effects may stand to each other. -/
def EffectsRelated (left right : ManagedEffect) : Prop :=
  left.path ≠ right.path ∧
    (isParent left.path right.path = true → left.kind = .createDirectory) ∧
      isParent right.path left.path = false

theorem checkEffectPair_ok_iff {paths : List JsString} (spelled : Spelled lower paths)
    {left right : ManagedEffect} (leftIn : ∀ path ∈ prefixes left.path, path ∈ paths)
    (rightIn : ∀ path ∈ prefixes right.path, path ∈ paths) :
    checkEffectPair lower left right = .ok () ↔ EffectsRelated left right := by
  have ownLeft := leftIn _ (self_mem_prefixes left.path)
  have ownRight := rightIn _ (self_mem_prefixes right.path)
  have equal : lower.toLowerCase left.path = lower.toLowerCase right.path ↔
      left.path = right.path :=
    ⟨spelled _ ownLeft _ ownRight, congrArg _⟩
  rw [checkEffectPair, spelled.isParent_map ownLeft rightIn, spelled.isParent_map ownRight leftIn, guard_ok_iff,
    equal, EffectsRelated]
  cases below : isParent left.path right.path with
  | true =>
      have upward : isParent right.path left.path = false := by
        rw [Bool.eq_false_iff]
        intro above
        have loop := isParent_trans below above
        rw [isParent_irrefl] at loop
        cases loop
      rw [if_pos rfl, guard_ok_iff, not_not, upward]
      simp
  | false =>
      rw [if_neg (by simp), guard_ok_iff, Bool.not_eq_true]
      simp

/-- The planner accepts effects that are spelled one way and stand in order. -/
theorem validateRelationships_ok_iff {effects : List ManagedEffect} :
    validateRelationships lower effects = .ok () ↔
      Spelled lower (effects.flatMap fun effect => prefixes effect.path) ∧
        effects.Pairwise EffectsRelated := by
  rw [validateRelationships, bind_ok_iff]
  constructor
  · rintro ⟨⟨⟩, first, pairs⟩
    have spelled := checkSpellings_ok_iff.mp first
    refine ⟨spelled, (checkPairs_ok_iff.mp pairs).imp_of_mem ?_⟩
    intro left right leftIn rightIn accepted
    exact (checkEffectPair_ok_iff spelled
      (fun path member => List.mem_flatMap.mpr ⟨left, leftIn, member⟩)
      (fun path member => List.mem_flatMap.mpr ⟨right, rightIn, member⟩)).mp accepted
  · rintro ⟨spelled, related⟩
    refine ⟨(), checkSpellings_ok_iff.mpr spelled, checkPairs_ok_iff.mpr (related.imp_of_mem ?_)⟩
    intro left right leftIn rightIn related
    exact (checkEffectPair_ok_iff spelled
      (fun path member => List.mem_flatMap.mpr ⟨left, leftIn, member⟩)
      (fun path member => List.mem_flatMap.mpr ⟨right, rightIn, member⟩)).mpr related

end Effects

section Operations

/-- How two operations of a plan may stand to each other. -/
def OperationsRelated (left right : DraftOperation) : Prop :=
  left.path ≠ right.path ∧
    (isParent left.path right.path = true →
      left.kind = .createDirectory ∧ right.expected = .missing) ∧
      isParent right.path left.path = false

/-- The directories a list of operations creates. -/
def createdPaths (operations : List DraftOperation) : List JsString :=
  (operations.filter fun operation => operation.kind = .createDirectory).map DraftOperation.path

/-- Between a created parent of a path and the path, every parent is created. -/
def Beneath (created : List JsString) (path : JsString) : Prop :=
  ∀ upper between, isParent between path = true → isParent upper between = true →
    upper ∈ created → between ∈ created

theorem mem_createdPaths {operations : List DraftOperation} {path : JsString} :
    path ∈ createdPaths operations ↔
      ∃ operation ∈ operations, operation.kind = .createDirectory ∧ operation.path = path := by
  simp only [createdPaths, List.mem_map, List.mem_filter, decide_eq_true_eq, and_assoc]

private theorem checkOperationPair_ok {paths : List JsString} (spelled : Spelled lower paths)
    {left right : ManagedOperation} (leftIn : ∀ path ∈ prefixes left.path, path ∈ paths)
    (rightIn : ∀ path ∈ prefixes right.path, path ∈ paths)
    (related : OperationsRelated left.toDraftOperation right.toDraftOperation) :
    checkOperationPair lower left right = .ok () := by
  have ownLeft := leftIn _ (self_mem_prefixes left.path)
  have ownRight := rightIn _ (self_mem_prefixes right.path)
  obtain ⟨different, creates, upward⟩ := related
  have keys : lower.toLowerCase left.path ≠ lower.toLowerCase right.path :=
    fun equal => different (spelled _ ownLeft _ ownRight equal)
  rw [checkOperationPair, spelled.isParent_map ownLeft rightIn, spelled.isParent_map ownRight leftIn,
    if_neg keys]
  cases below : isParent left.path right.path with
  | true =>
      obtain ⟨kind, missing⟩ := creates below
      simp [kind, missing]
  | false => simp [upward]

private theorem checkBeneath_ok {paths created parents : List JsString}
    (spelled : Spelled lower paths) (createdIn : ∀ path ∈ created, path ∈ paths)
    (parentsIn : ∀ path ∈ parents, path ∈ paths)
    (ordered : parents.Pairwise fun upper between => upper ∈ created → between ∈ created)
    {beneath : Bool} (started : beneath = true → ∀ path ∈ parents, path ∈ created) :
    checkBeneath lower (created.map lower.toLowerCase) beneath parents = .ok () := by
  induction parents generalizing beneath with
  | nil => rfl
  | cons pre rest ih =>
      obtain ⟨first, later⟩ := List.pairwise_cons.mp ordered
      have restIn : ∀ path ∈ rest, path ∈ paths :=
        fun path member => parentsIn path (List.mem_cons_of_mem _ member)
      have known : (created.map lower.toLowerCase).contains (lower.toLowerCase pre) = true ↔
          pre ∈ created := by
        rw [List.contains_iff_mem, List.mem_map]
        constructor
        · rintro ⟨other, member, equal⟩
          have same := spelled other (createdIn other member) pre
            (parentsIn pre List.mem_cons_self) equal
          exact same ▸ member
        · intro member
          exact ⟨pre, member, rfl⟩
      rw [checkBeneath]
      by_cases made : pre ∈ created
      · rw [if_pos (known.mpr made)]
        exact ih restIn later fun _ path member => first path member made
      · rw [if_neg (fun found => made (known.mp found))]
        have outside : beneath = false := by
          rw [Bool.eq_false_iff]
          intro inside
          exact made (started inside pre List.mem_cons_self)
        rw [if_neg (by simp [outside])]
        exact ih restIn later fun inside => by simp [outside] at inside

private theorem checkCreated_ok {paths : List JsString} (spelled : Spelled lower paths)
    {operations : List ManagedOperation}
    (named : ∀ operation ∈ operations, ∀ path ∈ prefixes operation.path, path ∈ paths)
    (before : List DraftOperation) (beforeIn : ∀ operation ∈ before, operation.path ∈ paths)
    (beneath : ∀ front operation back, operations = front ++ operation :: back →
      Beneath (createdPaths (before ++ front.map ManagedOperation.toDraftOperation)) operation.path) :
    checkCreated lower ((createdPaths before).map lower.toLowerCase) operations = .ok () := by
  induction operations generalizing before with
  | nil => rfl
  | cons operation rest ih =>
      rw [checkCreated, bind_ok_iff]
      have head := beneath [] operation rest rfl
      rw [List.map_nil, List.append_nil] at head
      have createdIn : ∀ path ∈ createdPaths before, path ∈ paths := by
        intro path member
        obtain ⟨earlier, among, -, rfl⟩ := mem_createdPaths.mp member
        exact beforeIn earlier among
      have ordered : (prefixes operation.path).dropLast.Pairwise fun upper between =>
          upper ∈ createdPaths before → between ∈ createdPaths before := by
        have pairs := (prefixes_pairwise operation.path).sublist (List.dropLast_sublist _)
        refine pairs.imp_of_mem ?_
        intro upper between _ betweenIn above created
        exact head upper between (mem_dropLast_prefixes_iff.mp betweenIn) above created
      refine ⟨(), checkBeneath_ok spelled createdIn
        (fun path member => named operation List.mem_cons_self path (List.mem_of_mem_dropLast member))
        ordered (fun inside => by cases inside), ?_⟩
      have snoc : (if operation.kind = .createDirectory then
            (createdPaths before).map lower.toLowerCase ++ [lower.toLowerCase operation.path]
          else (createdPaths before).map lower.toLowerCase) =
          (createdPaths (before ++ [operation.toDraftOperation])).map lower.toLowerCase := by
        by_cases made : operation.kind = .createDirectory
        · simp [createdPaths, made]
        · simp [createdPaths, made]
      rw [snoc]
      refine ih (fun other member => named other (List.mem_cons_of_mem _ member)) _ ?_ ?_
      · intro other member
        rcases List.mem_append.mp member with old | new
        · exact beforeIn other old
        · rw [List.mem_singleton.mp new]
          exact named operation List.mem_cons_self _ (self_mem_prefixes _)
      · intro front other back shape
        have whole := beneath (operation :: front) other back (by rw [shape, List.cons_append])
        rwa [List.map_cons, List.append_cons] at whole

/-- The executor accepts operations that are spelled one way, stand in order and lie beneath the
directories they create. -/
theorem validateManagedRelationships_ok {paths : List JsString} (spelled : Spelled lower paths)
    {operations : List ManagedOperation}
    (named : ∀ operation ∈ operations, ∀ path ∈ prefixes operation.path, path ∈ paths)
    (related : (operations.map ManagedOperation.toDraftOperation).Pairwise OperationsRelated)
    (beneath : ∀ front operation back, operations = front ++ operation :: back →
      Beneath (createdPaths (front.map ManagedOperation.toDraftOperation)) operation.path) :
    validateManagedRelationships lower operations = .ok () := by
  rw [validateManagedRelationships, bind_ok_iff]
  refine ⟨(), checkSpellings_ok_iff.mpr (spelled.subset ?_), ?_⟩
  · intro path member
    obtain ⟨operation, among, inside⟩ := List.mem_flatMap.mp member
    exact named operation among path inside
  · rw [bind_ok_iff]
    refine ⟨(), checkPairs_ok_iff.mpr ?_, ?_⟩
    · refine (List.pairwise_map.mp related).imp_of_mem ?_
      intro left right leftIn rightIn pair
      exact checkOperationPair_ok spelled (named left leftIn) (named right rightIn) pair
    · exact checkCreated_ok spelled named [] (fun _ member => absurd member List.not_mem_nil)
        (by simpa using beneath)

end Operations

end Kratos.Transactions
