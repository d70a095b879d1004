/- source: domain/transactions/normalize.ts, composition/transactions.ts, composition/index.ts
   digest: The executor accepts what the planner returns, and publishing it does what was asked. -/

import Kratos.Transactions.Relationships

set_option autoImplicit false

namespace Kratos.Transactions

open Foundation.Text Foundation.Collections Foundation.Lines Foundation.Paths Foundation.Runs
open Patterns

/-- A tree in which everything lies in directories, down from the project root. -/
structure Rooted (tree : Tree) : Prop where
  root : tree (js ".") = .directory
  ancestors : ∀ path, tree path ≠ .missing → ∀ parent, isParent parent path = true →
    tree parent = .directory

/-- The tree holds at the path of an effect what the effect asks for. -/
def Satisfies (sha256 : JsString → JsString) (tree : Tree) (effect : ManagedEffect) : Prop :=
  tree effect.path = published sha256 effect.kind

def Named (effects : List ManagedEffect) (path : JsString) : Prop :=
  ∃ effect ∈ effects, path ∈ prefixes effect.path

/-- Where a plan writes: at a path that is asked for, or at a directory on the way to one. -/
def Touched (effects : List ManagedEffect) (draft : DraftOperation) : Prop :=
  (∃ effect ∈ effects, effect.path = draft.path) ∨
    draft.kind = .createDirectory ∧
      ∃ effect ∈ effects, effect.kind ≠ .deleteFile ∧ isParent draft.path effect.path = true

/-- What the executor checks of one operation besides its number. -/
structure Shaped (lower : CaseMapping) (sha256 : JsString → JsString) (draft : DraftOperation) :
    Prop where
  destination : assertDestination lower draft.kind draft.path = .ok ()
  expected : validFingerprint draft.expected = true
  result : draft.result = published sha256 draft.kind
  resultValid : validFingerprint draft.result = true
  changes : draft.expected ≠ draft.result
  missing : draft.kind = .createDirectory → draft.expected = .missing
  file : draft.kind = .deleteFile → isFile draft.expected = true
  placed : draft.expected ≠ .directory

section Publishing

variable {sha256 : JsString → JsString} {tree next : Tree}

theorem publishOperation_ok_iff {draft : DraftOperation} :
    publishOperation sha256 tree draft = .ok next ↔
      tree (parentOf draft.path) = .directory ∧ tree draft.path = draft.expected ∧
        Function.update tree draft.path (published sha256 draft.kind) = next := by
  rw [publishOperation, guard_ok_iff, guard_ok_iff, not_not, not_not, Except.ok.injEq]

theorem publish_frame {drafts : List DraftOperation} {path : JsString}
    (run : Reaches (publishOperation sha256) tree drafts next)
    (untouched : ∀ draft ∈ drafts, draft.path ≠ path) : next path = tree path := by
  induction drafts generalizing tree with
  | nil => rw [reaches_nil.mp run]
  | cons draft rest ih =>
      obtain ⟨middle, first, later⟩ := reaches_cons.mp run
      obtain ⟨-, -, rfl⟩ := publishOperation_ok_iff.mp first
      rw [ih later fun other member => untouched other (List.mem_cons_of_mem _ member)]
      exact Function.update_of_ne (untouched draft List.mem_cons_self).symm _ _

/-- The directory a path sits in is one of its parents, or the project root. -/
theorem parentOf_cases (path : JsString) :
    parentOf path = js "." ∨ isParent (parentOf path) path = true := by
  rw [parentOf]
  cases parts : (segments path).dropLast with
  | nil => exact .inl rfl
  | cons first rest =>
      right
      have count : (segments path).length - 1 ≠ 0 := by
        intro zero
        have length := congrArg List.length parts
        rw [List.length_dropLast, zero] at length
        cases length
      have taken : first :: rest = (segments path).take ((segments path).length - 1) := by
        rw [← parts, List.dropLast_eq_take]
      show isParent (joinSegments (first :: rest)) path = true
      rw [taken]
      refine isParent_iff.mpr ⟨(segments path).drop ((segments path).length - 1), ?_, ?_⟩
      · rw [Ne, List.drop_eq_nil_iff]
        omega
      · rw [segments_take (Nat.pos_of_ne_zero count), List.take_append_drop]

end Publishing

section Drafting

variable (lower : CaseMapping) (sha256 : JsString → JsString) (effects : List ManagedEffect)
  (start : Tree)

/-- What holds after the planner's loop has handled the effects in `handled`. -/
structure Drafted (handled : List ManagedEffect) (state : PlanState) (current : Tree) : Prop where
  looked : ∀ path, Named effects path → path ≠ js ".brain" →
    lookup state.observedState path = current path
  run : Reaches (publishOperation sha256) start state.drafts current
  rooted : Rooted current
  valid : ∀ path, validFingerprint (current path) = true
  kept : ∀ path, start path = .directory → current path = .directory
  satisfied : ∀ effect ∈ handled, Satisfies sha256 current effect
  origin : ∀ draft ∈ state.drafts, draft.kind ≠ .createDirectory →
    ∃ effect ∈ handled, effect.path = draft.path ∧ effect.kind ≠ .createDirectory
  touched : ∀ draft ∈ state.drafts, Touched effects draft
  shaped : ∀ draft ∈ state.drafts, Shaped lower sha256 draft
  fresh : ∀ draft ∈ state.drafts, start draft.path = draft.expected
  created : ∀ draft ∈ state.drafts, draft.kind = .createDirectory →
    current draft.path = .directory
  parents : ∀ draft ∈ state.drafts, ∀ parent, isParent parent draft.path = true →
    current parent = .directory
  empty : ∀ draft ∈ state.drafts, draft.kind = .createDirectory →
    ∀ path, isParent draft.path path = true → (∀ other ∈ state.drafts, other.path ≠ path) →
      current path = .missing
  related : state.drafts.Pairwise OperationsRelated
  beneath : ∀ front draft back, state.drafts = front ++ draft :: back →
    Beneath (createdPaths front) draft.path

variable {lower sha256 effects start} {handled : List ManagedEffect} {state : PlanState}
  {current : Tree}

/-- An effect that changes nothing is handled by noting what its path holds. -/
theorem Drafted.note (before : Drafted lower sha256 effects start handled state current)
    {effect : ManagedEffect} (satisfied : Satisfies sha256 current effect) :
    Drafted lower sha256 effects start (handled ++ [effect])
      (state.observe effect.path (published sha256 effect.kind)) current where
  looked path named other := by
    rw [lookup, PlanState.observe, mapGet_concat]
    split
    · rename_i same
      rw [← same, Option.getD_some]
      exact satisfied.symm
    · exact before.looked path named other
  run := before.run
  rooted := before.rooted
  valid := before.valid
  kept := before.kept
  satisfied other member := by
    rcases List.mem_append.mp member with old | new
    · exact before.satisfied other old
    · rw [List.mem_singleton.mp new]
      exact satisfied
  origin draft member kind := by
    obtain ⟨cause, among, matched⟩ := before.origin draft member kind
    exact ⟨cause, List.mem_append_left _ among, matched⟩
  touched := before.touched
  shaped := before.shaped
  fresh := before.fresh
  created := before.created
  parents := before.parents
  empty := before.empty
  related := before.related
  beneath := before.beneath

/-- A draft's path is apart from the effects handled before it. -/
def Apart (handled : List ManagedEffect) (path : JsString) : Prop :=
  ∀ effect ∈ handled, effect.kind ≠ .createDirectory →
    effect.path ≠ path ∧ isParent effect.path path = false

theorem Drafted.undrafted (before : Drafted lower sha256 effects start handled state current)
    {path : JsString} (apart : Apart handled path) (placed : current path ≠ .directory) :
    ∀ draft ∈ state.drafts, draft.path ≠ path := by
  intro draft member same
  by_cases kind : draft.kind = .createDirectory
  · exact placed (same ▸ before.created draft member kind)
  · obtain ⟨effect, among, matched, cause⟩ := before.origin draft member kind
    exact (apart effect among cause).1 (matched.trans same)

theorem Drafted.push (before : Drafted lower sha256 effects start handled state current)
    {draft : DraftOperation} {after : List ManagedEffect}
    (shaped : Shaped lower sha256 draft) (expected : draft.expected = current draft.path)
    (apart : Apart handled draft.path)
    (parents : ∀ parent, isParent parent draft.path = true → current parent = .directory)
    (touched : Touched effects draft) (grown : handled ⊆ after)
    (origin : draft.kind ≠ .createDirectory →
      ∃ effect ∈ after, effect.path = draft.path ∧ effect.kind ≠ .createDirectory)
    (added : ∀ effect ∈ after, effect ∈ handled ∨
      effect.path = draft.path ∧ effect.kind = draft.kind) :
    Drafted lower sha256 effects start after
      ((state.push draft).observe draft.path draft.result)
      (Function.update current draft.path draft.result) := by
  have placed : current draft.path ≠ .directory := expected ▸ shaped.placed
  have undrafted := before.undrafted apart placed
  have update_other : ∀ path, path ≠ draft.path →
      Function.update current draft.path draft.result path = current path :=
    fun path other => Function.update_of_ne other _ _
  have stays : ∀ path, current path = .directory →
      Function.update current draft.path draft.result path = .directory := by
    intro path held
    rw [update_other path (by rintro rfl; exact placed held), held]
  have drafts : ((state.push draft).observe draft.path draft.result).drafts =
      state.drafts ++ [draft] := rfl
  refine
    { looked := ?_, run := ?_, rooted := ?_, valid := ?_, kept := ?_, satisfied := ?_, origin := ?_,
      touched := ?_, shaped := ?_, fresh := ?_, created := ?_, parents := ?_, empty := ?_,
      related := ?_, beneath := ?_ }
  · intro path named other
    rw [lookup, PlanState.observe, mapGet_concat]
    by_cases same : draft.path = path
    · rw [if_pos same, Option.getD_some, ← same, Function.update_self]
    · rw [if_neg same, update_other path (Ne.symm same)]
      exact before.looked path named other
  · rw [drafts, reaches_snoc]
    have present : current (parentOf draft.path) = .directory := by
      rcases parentOf_cases draft.path with root | above
      · rw [root]
        exact before.rooted.root
      · exact parents _ above
    exact ⟨current, before.run, publishOperation_ok_iff.mpr
      ⟨present, expected.symm, by rw [← shaped.result]⟩⟩
  · refine ⟨stays _ before.rooted.root, ?_⟩
    intro path held parent above
    by_cases same : path = draft.path
    · exact stays parent (parents parent (same ▸ above))
    · rw [update_other path same] at held
      exact stays parent (before.rooted.ancestors path held parent above)
  · intro path
    by_cases same : path = draft.path
    · rw [same, Function.update_self]
      exact shaped.resultValid
    · rw [update_other path same]
      exact before.valid path
  · exact fun path held => stays path (before.kept path held)
  · intro effect member
    rcases added effect member with old | ⟨path, kind⟩
    · have satisfied := before.satisfied effect old
      have different : effect.path ≠ draft.path := by
        intro same
        by_cases made : effect.kind = .createDirectory
        · rw [Satisfies, made, same] at satisfied
          exact placed satisfied
        · exact (apart effect old made).1 same
      rw [Satisfies, update_other effect.path different]
      exact satisfied
    · rw [Satisfies, path, Function.update_self, kind, shaped.result]
  · intro other member kind
    rw [drafts] at member
    rcases List.mem_append.mp member with old | new
    · obtain ⟨effect, among, matched⟩ := before.origin other old kind
      exact ⟨effect, grown among, matched⟩
    · rw [List.mem_singleton.mp new] at kind ⊢
      exact origin kind
  · intro other member
    rw [drafts] at member
    rcases List.mem_append.mp member with old | new
    · exact before.touched other old
    · rw [List.mem_singleton.mp new]
      exact touched
  · intro other member
    rw [drafts] at member
    rcases List.mem_append.mp member with old | new
    · exact before.shaped other old
    · rw [List.mem_singleton.mp new]
      exact shaped
  · intro other member
    rw [drafts] at member
    rcases List.mem_append.mp member with old | new
    · exact before.fresh other old
    · rw [List.mem_singleton.mp new, expected]
      exact (publish_frame before.run undrafted).symm
  · intro other member kind
    rw [drafts] at member
    rcases List.mem_append.mp member with old | new
    · exact stays _ (before.created other old kind)
    · rw [List.mem_singleton.mp new] at kind ⊢
      rw [Function.update_self, shaped.result, kind]
      rfl
  · intro other member parent above
    rw [drafts] at member
    rcases List.mem_append.mp member with old | new
    · exact stays parent (before.parents other old parent above)
    · rw [List.mem_singleton.mp new] at above
      exact stays parent (parents parent above)
  · intro other member kind path above free
    rw [drafts] at member free
    have own : path ≠ draft.path :=
      (free draft (List.mem_append_right _ (List.mem_singleton_self _))).symm
    rw [update_other path own]
    rcases List.mem_append.mp member with old | new
    · exact before.empty other old kind path above
        fun earlier among => free earlier (List.mem_append_left _ among)
    · rw [List.mem_singleton.mp new] at kind above
      by_contra held
      have directory := before.rooted.ancestors path held draft.path above
      exact placed directory
  · rw [drafts, List.pairwise_append]
    refine ⟨before.related, List.pairwise_singleton _ _, ?_⟩
    intro earlier member other new
    rw [List.mem_singleton.mp new]
    refine ⟨undrafted earlier member, ?_, ?_⟩
    · intro above
      have kind : earlier.kind = .createDirectory := by
        by_contra other
        obtain ⟨effect, among, matched, cause⟩ := before.origin earlier member other
        have below := (apart effect among cause).2
        rw [matched, above] at below
        cases below
      refine ⟨kind, ?_⟩
      rw [expected]
      exact before.empty earlier member kind draft.path above undrafted
    · rw [Bool.eq_false_iff]
      intro above
      exact placed (before.parents earlier member draft.path above)
  · intro front other back shape
    rw [drafts] at shape
    rcases List.eq_nil_or_concat' back with rfl | ⟨rest, last, rfl⟩
    · have ends := List.append_inj' shape rfl
      obtain ⟨rfl, single⟩ := ends
      injection single with same
      rw [← same]
      intro upper between lower above made
      obtain ⟨earlier, member, kind, path⟩ := mem_createdPaths.mp made
      have held := parents between lower
      have drafted : ∃ other ∈ state.drafts, other.path = between := by
        by_contra none
        push Not at none
        have gone := before.empty earlier member kind between (path ▸ above) none
        rw [held] at gone
        cases gone
      obtain ⟨middle, among, matched⟩ := drafted
      refine mem_createdPaths.mpr ⟨middle, among, ?_, matched⟩
      by_contra cause
      obtain ⟨effect, handledIn, effectPath, other⟩ := before.origin middle among cause
      have below := (apart effect handledIn other).2
      rw [effectPath, matched, lower] at below
      cases below
    · rw [← List.cons_append, ← List.append_assoc] at shape
      have ends := List.append_inj' shape rfl
      exact before.beneath front other rest ends.1

end Drafting

section Parents

variable {path parent : JsString}

private theorem prefixes_cons (path : JsString) :
    ∃ rest, prefixes path = joinSegments ((segments path).take 1) :: rest := by
  have positive := List.length_pos_of_ne_nil (segments_ne_nil path)
  obtain ⟨count, length⟩ := Nat.exists_eq_add_of_lt positive
  rw [prefixes, length, Nat.zero_add, List.range_succ_eq_map, List.map_cons]
  exact ⟨_, rfl⟩

private theorem ownedParents_pairwise (path : JsString) :
    (ownedParents path).Pairwise fun front back => isParent front back = true :=
  (prefixes_pairwise path).sublist ((List.drop_sublist _ _).trans (List.dropLast_sublist _))

private theorem ownedParents_brain (inside : startsWith path (js ".brain/") = true) :
    (prefixes path).dropLast = js ".brain" :: ownedParents path := by
  have above : isParent (js ".brain") path = true := inside
  obtain ⟨rest, some, shape⟩ := isParent_iff.mp above
  obtain ⟨others, first⟩ := prefixes_cons path
  have head : joinSegments ((segments path).take 1) = js ".brain" := by
    rw [shape]
    rfl
  have among := mem_dropLast_prefixes_iff.mpr above
  rw [ownedParents, firstOwnedDepth, if_pos inside, first, head]
  rw [first] at among
  cases others with
  | nil => cases among
  | cons next others => rfl

private theorem mem_ownedParents_iff :
    parent ∈ ownedParents path ↔ isParent parent path = true ∧ parent ≠ js ".brain" := by
  by_cases inside : startsWith path (js ".brain/") = true
  · have parents := ownedParents_brain inside
    have pairs := (prefixes_pairwise path).sublist (List.dropLast_sublist _)
    rw [← mem_dropLast_prefixes_iff, parents]
    rw [parents, List.pairwise_cons] at pairs
    constructor
    · intro member
      refine ⟨List.mem_cons_of_mem _ member, ?_⟩
      rintro rfl
      have loop := pairs.1 _ member
      rw [isParent_irrefl] at loop
      cases loop
    · rintro ⟨member, other⟩
      exact (List.mem_cons.mp member).resolve_left other
  · rw [ownedParents, firstOwnedDepth, if_neg inside, Nat.sub_self, List.drop_zero,
      mem_dropLast_prefixes_iff]
    constructor
    · intro above
      refine ⟨above, ?_⟩
      rintro rfl
      exact inside above
    · exact And.left

end Parents

section Steps

variable {lower : CaseMapping} {sha256 : JsString → JsString} {effects handled : List ManagedEffect}
  {start current : Tree} {state next : PlanState} {effect : ManagedEffect}

private theorem assertDestination_brain (kind : ManagedKind) :
    assertDestination lower kind (js ".brain") ≠ .ok () := by
  intro accepted
  cases kind with
  | createDirectory => cases accepted
  | writeFile content => cases accepted
  | deleteFile => cases accepted

private theorem assertDestination_directory {kind : ManagedKind} {path : JsString}
    (accepted : assertDestination lower kind path = .ok ()) :
    isManagedDirectoryDestination lower path = true := by
  have managed : isManagedDestination lower path = true →
      isManagedDirectoryDestination lower path = true := by
    intro destination
    rw [isManagedDirectoryDestination, if_pos destination]
  cases kind with
  | createDirectory =>
      rw [assertDestination, assertManagedDirectory] at accepted
      split at accepted
      · assumption
      · cases accepted
  | writeFile content =>
      rw [assertDestination, assertManagedPath] at accepted
      split at accepted
      · exact managed ‹_›
      · cases accepted
  | deleteFile =>
      rw [assertDestination, assertManagedPath] at accepted
      split at accepted
      · exact managed ‹_›
      · cases accepted

private theorem apart_parent {parent : JsString}
    (ordered : ∀ earlier ∈ handled, EffectsRelated earlier effect)
    (above : isParent parent effect.path = true) : Apart handled parent := by
  intro earlier member kind
  obtain ⟨-, creates, -⟩ := ordered earlier member
  constructor
  · rintro rfl
    exact kind (creates above)
  · rw [Bool.eq_false_iff]
    intro below
    exact kind (creates (isParent_trans below above))

private theorem apart_own (ordered : ∀ earlier ∈ handled, EffectsRelated earlier effect) :
    Apart handled effect.path := by
  intro earlier member kind
  obtain ⟨different, creates, -⟩ := ordered earlier member
  refine ⟨different, ?_⟩
  rw [Bool.eq_false_iff]
  exact fun below => kind (creates below)

private theorem synthesize_parents {parents : List JsString}
    (before : Drafted lower sha256 effects start handled state current)
    (inside : effect ∈ effects) (kind : effect.kind ≠ .deleteFile)
    (allowed : isManagedDirectoryDestination lower effect.path = true)
    (ordered : ∀ earlier ∈ handled, EffectsRelated earlier effect)
    (line : parents.Pairwise fun front back => isParent front back = true)
    (owned : ∀ parent ∈ parents, isParent parent effect.path = true ∧ parent ≠ js ".brain")
    (ready : ∀ parent, isParent parent effect.path = true →
      parent ∈ parents ∨ current parent = .directory)
    (accepted : parents.foldlM synthesizeParent state = .ok next) :
    ∃ after, Drafted lower sha256 effects start handled next after ∧
      ∀ parent, isParent parent effect.path = true → after parent = .directory := by
  induction parents generalizing state current with
  | nil =>
      rw [List.foldlM_nil] at accepted
      cases accepted
      exact ⟨current, before, fun parent above => (ready parent above).resolve_left List.not_mem_nil⟩
  | cons parent rest ih =>
      obtain ⟨first, later⟩ := List.pairwise_cons.mp line
      obtain ⟨above, named⟩ := owned parent List.mem_cons_self
      have ownedRest : ∀ other ∈ rest, isParent other effect.path = true ∧ other ≠ js ".brain" :=
        fun other member => owned other (List.mem_cons_of_mem _ member)
      rw [List.foldlM_cons, bind_ok_iff] at accepted
      obtain ⟨middle, created, accepted⟩ := accepted
      have seen := before.looked parent ⟨effect, inside, mem_prefixes_iff.mpr (.inr above)⟩ named
      rw [synthesizeParent, seen] at created
      cases held : current parent with
      | file size digest =>
          rw [held] at created
          cases created
      | directory =>
          rw [held] at created
          cases created
          refine ih before later ownedRest ?_ accepted
          intro other lies
          rcases ready other lies with member | directory
          · rcases List.mem_cons.mp member with rfl | among
            · exact .inr held
            · exact .inl among
          · exact .inr directory
      | missing =>
          rw [held] at created
          cases created
          have shaped : Shaped lower sha256 ⟨.createDirectory, parent, .missing, .directory⟩ :=
            { destination := by
                rw [assertDestination, assertManagedDirectory,
                  if_pos (isManagedDirectoryDestination_parent allowed above named)]
              expected := rfl
              result := rfl
              resultValid := rfl
              changes := by simp
              missing := fun _ => rfl
              file := by simp
              placed := by simp }
          have directories : ∀ upper, isParent upper parent = true → current upper = .directory := by
            intro upper higher
            refine (ready upper (isParent_trans higher above)).resolve_left ?_
            intro member
            have loop : isParent upper upper = true := by
              rcases List.mem_cons.mp member with rfl | among
              · exact higher
              · exact isParent_trans higher (first upper among)
            rw [isParent_irrefl] at loop
            cases loop
          have pushed := before.push shaped held.symm (apart_parent ordered above) directories
            (.inr ⟨rfl, effect, inside, kind, above⟩) (List.Subset.refl _)
            (fun other => absurd rfl other) (fun _ member => .inl member)
          refine ih pushed later ownedRest ?_ accepted
          intro other lies
          by_cases same : other = parent
          · right
            rw [same]
            exact Function.update_self _ _ _
          · rw [Function.update_of_ne same]
            rcases ready other lies with member | directory
            · exact .inl ((List.mem_cons.mp member).resolve_left same)
            · exact .inr directory

private theorem synthesizeMissingParents_spec
    (before : Drafted lower sha256 effects start handled state current)
    (brain : start (js ".brain") = .directory)
    (inside : effect ∈ effects) (kind : effect.kind ≠ .deleteFile)
    (allowed : isManagedDirectoryDestination lower effect.path = true)
    (ordered : ∀ earlier ∈ handled, EffectsRelated earlier effect)
    (accepted : synthesizeMissingParents effect.path state = .ok next) :
    ∃ after, Drafted lower sha256 effects start handled next after ∧
      ∀ parent, isParent parent effect.path = true → after parent = .directory := by
  refine synthesize_parents before inside kind allowed ordered (ownedParents_pairwise _)
    (fun parent member => mem_ownedParents_iff.mp member) ?_ accepted
  intro parent above
  by_cases named : parent = js ".brain"
  · right
    rw [named]
    exact before.kept _ brain
  · exact .inl (mem_ownedParents_iff.mpr ⟨above, named⟩)

private theorem Drafted.own (before : Drafted lower sha256 effects start handled state current)
    (inside : effect ∈ effects) (sized : validFingerprint (published sha256 effect.kind) = true)
    (allowed : assertDestination lower effect.kind effect.path = .ok ())
    (ordered : ∀ earlier ∈ handled, EffectsRelated earlier effect)
    (parents : ∀ parent, isParent parent effect.path = true → current parent = .directory)
    (changes : current effect.path ≠ published sha256 effect.kind)
    (missing : effect.kind = .createDirectory → current effect.path = .missing)
    (file : effect.kind = .deleteFile → isFile (current effect.path) = true)
    (placed : current effect.path ≠ .directory) :
    Drafted lower sha256 effects start (handled ++ [effect])
      ((state.push ⟨effect.kind, effect.path, current effect.path, published sha256 effect.kind⟩).observe
        effect.path (published sha256 effect.kind))
      (Function.update current effect.path (published sha256 effect.kind)) := by
  have shaped : Shaped lower sha256
      ⟨effect.kind, effect.path, current effect.path, published sha256 effect.kind⟩ :=
    { destination := allowed
      expected := before.valid _
      result := rfl
      resultValid := sized
      changes := changes
      missing := missing
      file := file
      placed := placed }
  refine before.push shaped rfl (apart_own ordered) parents (.inl ⟨effect, inside, rfl⟩)
    (List.subset_append_left _ _) ?_ ?_
  · intro kind
    exact ⟨effect, List.mem_append_right _ (List.mem_singleton_self _), rfl, kind⟩
  · intro other member
    rcases List.mem_append.mp member with old | new
    · exact .inl old
    · rw [List.mem_singleton.mp new]
      exact .inr ⟨rfl, rfl⟩

theorem Drafted.step (before : Drafted lower sha256 effects start handled state current)
    (brain : start (js ".brain") = .directory) (inside : effect ∈ effects)
    (sized : validFingerprint (published sha256 effect.kind) = true)
    (allowed : assertDestination lower effect.kind effect.path = .ok ())
    (ordered : ∀ earlier ∈ handled, EffectsRelated earlier effect)
    (accepted : normalizeEffect sha256 state effect = .ok next) :
    ∃ after, Drafted lower sha256 effects start (handled ++ [effect]) next after := by
  have other : effect.path ≠ js ".brain" := by
    intro same
    rw [same] at allowed
    exact assertDestination_brain _ allowed
  have named : Named effects effect.path := ⟨effect, inside, self_mem_prefixes _⟩
  have directory := assertDestination_directory allowed
  rw [normalizeEffect] at accepted
  cases kind : effect.kind with
  | createDirectory =>
      rw [kind] at accepted
      obtain ⟨middle, synthesized, accepted⟩ := bind_ok_iff.mp accepted
      obtain ⟨present, drafted, parents⟩ := synthesizeMissingParents_spec before brain inside
        (by simp [kind]) directory ordered synthesized
      rw [drafted.looked _ named other] at accepted
      cases held : present effect.path with
      | file size digest =>
          rw [held] at accepted
          cases accepted
      | missing =>
          rw [held] at accepted
          cases accepted
          have own := drafted.own inside sized allowed ordered parents
            (by rw [held, kind]; simp [published]) (fun _ => held) (by simp [kind]) (by simp [held])
          rw [held, kind] at own
          exact ⟨_, own⟩
      | directory =>
          rw [held] at accepted
          cases accepted
          have holds : Satisfies sha256 present effect := by
            rw [Satisfies, held, kind]
            rfl
          have noted := drafted.note holds
          rw [kind] at noted
          exact ⟨_, noted⟩
  | writeFile content =>
      rw [kind] at accepted
      obtain ⟨middle, synthesized, accepted⟩ := bind_ok_iff.mp accepted
      obtain ⟨present, drafted, parents⟩ := synthesizeMissingParents_spec before brain inside
        (by simp [kind]) directory ordered synthesized
      rw [drafted.looked _ named other, normalizeWriteFile, guard_ok_iff] at accepted
      obtain ⟨placed, accepted⟩ := accepted
      split at accepted
      · rename_i same
        cases accepted
        have holds : Satisfies sha256 present effect := by
          rw [Satisfies, same, kind]
          rfl
        have noted := drafted.note holds
        rw [kind] at noted
        exact ⟨_, noted⟩
      · rename_i changes
        cases accepted
        have own := drafted.own inside sized allowed ordered parents (by rw [kind]; exact changes)
          (by simp [kind]) (by simp [kind]) placed
        rw [kind] at own
        exact ⟨_, own⟩
  | deleteFile =>
      rw [kind] at accepted
      rw [before.looked _ named other] at accepted
      cases held : current effect.path with
      | directory =>
          rw [held] at accepted
          cases accepted
      | missing =>
          rw [held] at accepted
          cases accepted
          have holds : Satisfies sha256 current effect := by
            rw [Satisfies, held, kind]
            rfl
          have noted := before.note holds
          rw [kind] at noted
          exact ⟨_, noted⟩
      | file size digest =>
          rw [held] at accepted
          cases accepted
          have own := before.own inside sized allowed ordered
            (before.rooted.ancestors _ (by simp [held])) (by rw [held, kind]; simp [published])
            (by simp [kind]) (by simp [held, isFile]) (by simp [held])
          rw [held, kind] at own
          exact ⟨_, own⟩

theorem Drafted.run_all {rest : List ManagedEffect}
    (before : Drafted lower sha256 effects start handled state current)
    (brain : start (js ".brain") = .directory) (whole : handled ++ rest = effects)
    (sized : ∀ effect ∈ effects, validFingerprint (published sha256 effect.kind) = true)
    (allowed : ∀ effect ∈ effects, assertDestination lower effect.kind effect.path = .ok ())
    (ordered : effects.Pairwise EffectsRelated)
    (accepted : Reaches (normalizeEffect sha256) state rest next) :
    ∃ after, Drafted lower sha256 effects start effects next after := by
  induction rest generalizing handled state current with
  | nil =>
      rw [List.append_nil] at whole
      rw [reaches_nil] at accepted
      subst whole accepted
      exact ⟨current, before⟩
  | cons effect rest ih =>
      obtain ⟨middle, first, later⟩ := reaches_cons.mp accepted
      have inside : effect ∈ effects := by
        rw [← whole]
        exact List.mem_append_right _ List.mem_cons_self
      have earlier : ∀ earlier ∈ handled, EffectsRelated earlier effect := by
        rw [← whole] at ordered
        exact fun earlier member =>
          (List.pairwise_append.mp ordered).2.2 earlier member effect List.mem_cons_self
      obtain ⟨after, drafted⟩ := before.step brain inside (sized effect inside)
        (allowed effect inside) earlier first
      exact ih drafted (by rw [← whole, List.append_assoc]; rfl) later

end Steps

section Freezing

variable {lower : CaseMapping} {sha256 : JsString → JsString} {effects handled : List ManagedEffect}
  {start current : Tree} {state : PlanState}

private theorem drafts_finalized (drafts : List DraftOperation) :
    (drafts.mapIdx finalizeOperation).map ManagedOperation.toDraftOperation = drafts := by
  apply List.ext_getElem
  · simp
  · intro index left right
    simp [finalizeOperation]

private theorem Shaped.exact {draft : DraftOperation} (shaped : Shaped lower sha256 draft)
    (index : Nat) : exactOperation sha256 (finalizeOperation index draft) = true := by
  have result := shaped.result
  have missing := shaped.missing
  have file := shaped.file
  have placed := shaped.placed
  obtain ⟨kind, path, expected, outcome⟩ := draft
  rw [exactOperation, finalizeOperation]
  cases kind with
  | createDirectory =>
      have absent : expected = .missing := missing rfl
      simp [absent, show outcome = .directory from result]
  | writeFile content =>
      simp only at placed
      simp [placed, show outcome = contentFingerprint sha256 content from result]
  | deleteFile =>
      have held : isFile expected = true := file rfl
      simp [held, show outcome = .missing from result]

theorem Drafted.frozen (drafted : Drafted lower sha256 effects start handled state current)
    (spelled : Spelled lower (effects.flatMap fun effect => prefixes effect.path))
    (some : state.drafts ≠ []) :
    freezeManagedPlan lower sha256 (state.drafts.mapIdx finalizeOperation) =
      .ok (state.drafts.mapIdx finalizeOperation) := by
  have finalized := drafts_finalized state.drafts
  have among : ∀ operation ∈ state.drafts.mapIdx finalizeOperation,
      operation.toDraftOperation ∈ state.drafts := by
    intro operation member
    rw [← finalized]
    exact List.mem_map_of_mem member
  have named : ∀ operation ∈ state.drafts.mapIdx finalizeOperation,
      ∀ path ∈ prefixes operation.path,
        path ∈ effects.flatMap fun effect => prefixes effect.path := by
    intro operation member path inside
    rw [List.mem_flatMap]
    rcases drafted.touched _ (among operation member) with ⟨effect, asked, same⟩ |
      ⟨-, effect, asked, -, above⟩
    · exact ⟨effect, asked, by rw [same]; exact inside⟩
    · exact ⟨effect, asked, prefixes_trans inside (mem_prefixes_iff.mpr (.inr above))⟩
  rw [freezeManagedPlan, guard_ok_iff, bind_ok_iff]
  refine ⟨by simpa using some, (), forM_ok_iff.mpr ?_, ?_⟩
  · intro entry member
    rw [List.mapIdx_mapIdx, List.mem_mapIdx] at member
    obtain ⟨index, within, rfl⟩ := member
    have shaped := drafted.shaped _ (List.getElem_mem within)
    have exact := shaped.exact index
    show freezeManagedOperation lower sha256 index (finalizeOperation index _) = .ok ()
    rw [freezeManagedOperation, guard_ok_iff, bind_ok_iff]
    refine ⟨fun other => other rfl, (), shaped.destination, ?_⟩
    rw [guard_ok_iff, guard_ok_iff, guard_ok_iff, exact]
    have expected := shaped.expected
    have result := shaped.resultValid
    refine ⟨?_, shaped.changes, ?_, rfl⟩
    · simp [finalizeOperation, expected, result]
    · simp [finalizeOperation]
  · rw [bind_ok_iff]
    refine ⟨(), validateManagedRelationships_ok spelled named ?_ ?_, rfl⟩
    · rw [finalized]
      exact drafted.related
    · intro front operation back shape
      refine drafted.beneath _ operation.toDraftOperation
        (back.map ManagedOperation.toDraftOperation) ?_
      rw [← finalized, shape, List.map_append, List.map_cons]

end Freezing

section Planning

variable {lower : CaseMapping} {sha256 : JsString → JsString} {effects : List Effect}
  {observations : Observations} {tree : Tree}

/-- The observations cover what the effects name, in a tree whose entries lie in directories. -/
structure Observed (lower : CaseMapping) (effects : List Effect) (observations : Observations)
    (tree : Tree) : Prop where
  covered : ∀ path ∈ managedObservationPaths lower effects,
    mapGet observations path = some (tree path)
  rooted : Rooted tree
  valid : ∀ path, validFingerprint (tree path) = true
  brain : isFile (tree (js ".brain")) = false

/-- The tree once the transaction manager has created a missing `.brain`. -/
def bootstrapped (tree : Tree) : Tree :=
  if tree (js ".brain") = .missing then Function.update tree (js ".brain") .directory else tree

private theorem bootstrapped_brain (present : isFile (tree (js ".brain")) = false) :
    bootstrapped tree (js ".brain") = .directory := by
  rw [bootstrapped]
  split
  · exact Function.update_self _ _ _
  · rename_i held
    cases entry : tree (js ".brain") with
    | missing => exact absurd entry held
    | directory => rfl
    | file size digest =>
        rw [entry] at present
        cases present

private theorem bootstrapped_other {path : JsString} (other : path ≠ js ".brain") :
    bootstrapped tree path = tree path := by
  rw [bootstrapped]
  split
  · exact Function.update_of_ne other _ _
  · rfl

private theorem selectManagedEffects_spec {selected : List ManagedEffect}
    (accepted : selectManagedEffects lower effects = .ok selected) :
    (∀ effect, effect ∈ selected ↔ .managed effect.kind effect.path ∈ effects) ∧
      ∀ effect ∈ selected, assertDestination lower effect.kind effect.path = .ok () := by
  induction effects generalizing selected with
  | nil =>
      cases accepted
      simp
  | cons effect rest ih =>
      cases effect with
      | assertFile path =>
          obtain ⟨⟨⟩, -, accepted⟩ := bind_ok_iff.mp accepted
          simpa using ih accepted
      | emit => simpa using ih accepted
      | appendEvent => cases accepted
      | managed kind path =>
          obtain ⟨⟨⟩, allowed, accepted⟩ := bind_ok_iff.mp accepted
          obtain ⟨later, others, same⟩ := bind_ok_iff.mp accepted
          cases same
          obtain ⟨members, destinations⟩ := ih others
          refine ⟨?_, List.forall_mem_cons.mpr ⟨allowed, destinations⟩⟩
          intro other
          rw [List.mem_cons, List.mem_cons, members, Effect.managed.injEq]
          constructor
          · rintro (rfl | member)
            · exact .inl ⟨rfl, rfl⟩
            · exact .inr member
          · rintro (⟨rfl, rfl⟩ | member)
            · exact .inl rfl
            · exact .inr member

private theorem brain_top (parent : JsString) : isParent parent (js ".brain") = false := by
  rw [Bool.eq_false_iff]
  intro above
  obtain ⟨rest, some, shape⟩ := isParent_iff.mp above
  have length := congrArg List.length shape
  have one : (segments (js ".brain")).length = 1 := rfl
  have positive := List.length_pos_of_ne_nil (segments_ne_nil parent)
  have more := List.length_pos_of_ne_nil some
  rw [List.length_append, one] at length
  omega

private theorem bootstrapped_rooted (rooted : Rooted tree)
    (present : isFile (tree (js ".brain")) = false) : Rooted (bootstrapped tree) := by
  refine ⟨?_, ?_⟩
  · rw [bootstrapped_other (by decide)]
    exact rooted.root
  · intro path held parent above
    by_cases brain : parent = js ".brain"
    · rw [brain]
      exact bootstrapped_brain present
    · have other : path ≠ js ".brain" := by
        rintro rfl
        rw [brain_top] at above
        cases above
      rw [bootstrapped_other other] at held
      rw [bootstrapped_other brain]
      exact rooted.ancestors path held parent above

private theorem Observed.looked (observed : Observed lower effects observations tree)
    {selected : List ManagedEffect} (accepted : selectManagedEffects lower effects = .ok selected)
    {path : JsString} (named : Named selected path) : lookup observations path = tree path := by
  obtain ⟨effect, member, inside⟩ := named
  obtain ⟨members, destinations⟩ := selectManagedEffects_spec accepted
  have watched : path ∈ managedObservationPaths lower effects := by
    rw [managedObservationPaths, List.mem_eraseDups, List.mem_flatMap]
    refine ⟨_, (members effect).mp member, ?_⟩
    rw [Effect.observationPaths, if_pos (assertDestination_directory (destinations effect member))]
    exact List.mem_cons_of_mem _ inside
  rw [lookup, observed.covered path watched, Option.getD_some]

private theorem Observed.drafted (observed : Observed lower effects observations tree)
    {selected : List ManagedEffect} (accepted : selectManagedEffects lower effects = .ok selected) :
    Drafted lower sha256 selected (bootstrapped tree) [] ⟨observations, []⟩ (bootstrapped tree) where
  looked path named other := by
    rw [bootstrapped_other other]
    exact observed.looked accepted named
  run := reaches_nil.mpr rfl
  rooted := bootstrapped_rooted observed.rooted observed.brain
  valid path := by
    by_cases brain : path = js ".brain"
    · rw [brain, bootstrapped_brain observed.brain]
      rfl
    · rw [bootstrapped_other brain]
      exact observed.valid path
  kept _ held := held
  satisfied _ member := absurd member List.not_mem_nil
  origin _ member := absurd member List.not_mem_nil
  touched _ member := absurd member List.not_mem_nil
  shaped _ member := absurd member List.not_mem_nil
  fresh _ member := absurd member List.not_mem_nil
  created _ member := absurd member List.not_mem_nil
  parents _ member := absurd member List.not_mem_nil
  empty _ member := absurd member List.not_mem_nil
  related := List.Pairwise.nil
  beneath front draft back shape := by
    exact absurd (congrArg List.length shape) (by simp)

private theorem synthesizeMissingParents_quiet {path : JsString} {state : PlanState}
    (present : ∀ parent, isParent parent path = true → parent ≠ js ".brain" →
      lookup state.observedState parent = .directory) :
    synthesizeMissingParents path state = .ok state := by
  have quiet : ∀ parents : List JsString,
      (∀ parent ∈ parents, lookup state.observedState parent = .directory) →
        parents.foldlM synthesizeParent state = .ok state := by
    intro parents
    induction parents with
    | nil =>
        intro _
        rfl
    | cons parent rest ih =>
        intro held
        rw [List.foldlM_cons, synthesizeParent, held parent List.mem_cons_self]
        exact ih fun other member => held other (List.mem_cons_of_mem _ member)
  refine quiet _ fun parent member => ?_
  obtain ⟨above, other⟩ := mem_ownedParents_iff.mp member
  exact present parent above other

private theorem normalizeEffect_quiet {selected : List ManagedEffect} {state : PlanState}
    {effect : ManagedEffect} (rooted : Rooted tree)
    (looked : ∀ path, Named selected path → lookup state.observedState path = tree path)
    (inside : effect ∈ selected) (satisfied : Satisfies sha256 tree effect) :
    normalizeEffect sha256 state effect =
      .ok (state.observe effect.path (published sha256 effect.kind)) := by
  have own := looked effect.path ⟨effect, inside, self_mem_prefixes _⟩
  have parents : tree effect.path ≠ .missing → synthesizeMissingParents effect.path state =
      .ok state := by
    intro held
    refine synthesizeMissingParents_quiet fun parent above _ => ?_
    rw [looked parent ⟨effect, inside, mem_prefixes_iff.mpr (.inr above)⟩]
    exact rooted.ancestors _ held parent above
  rw [Satisfies] at satisfied
  rw [normalizeEffect]
  cases kind : effect.kind with
  | createDirectory =>
      rw [kind] at satisfied
      simp only [parents (by rw [satisfied]; simp [published])]
      show normalizeCreateDirectory effect.path (lookup state.observedState effect.path) state = _
      rw [own, satisfied]
      rfl
  | writeFile content =>
      rw [kind] at satisfied
      simp only [parents (by rw [satisfied]; simp [published, contentFingerprint])]
      show normalizeWriteFile sha256 effect.path content (lookup state.observedState effect.path)
        state = _
      have same : published sha256 (.writeFile content) = contentFingerprint sha256 content := rfl
      rw [own, satisfied, normalizeWriteFile, same, if_neg (by simp [contentFingerprint]), if_pos rfl]
  | deleteFile =>
      rw [kind] at satisfied
      simp only [own, satisfied]
      rfl

private theorem run_quiet {selected rest : List ManagedEffect} (state : PlanState)
    (rooted : Rooted tree) (undrafted : state.drafts = [])
    (looked : ∀ path, Named selected path → lookup state.observedState path = tree path)
    (inside : ∀ effect ∈ rest, effect ∈ selected)
    (satisfied : ∀ effect ∈ rest, Satisfies sha256 tree effect) :
    ∃ final, Reaches (normalizeEffect sha256) state rest final ∧ final.drafts = [] := by
  induction rest generalizing state with
  | nil => exact ⟨state, reaches_nil.mpr rfl, undrafted⟩
  | cons effect rest ih =>
      have holds := satisfied effect List.mem_cons_self
      have turn := normalizeEffect_quiet rooted looked (inside effect List.mem_cons_self) holds
      have looking : ∀ path, Named selected path →
          lookup (state.observe effect.path (published sha256 effect.kind)).observedState path =
            tree path := by
        intro path named
        rw [lookup, PlanState.observe, mapGet_concat]
        by_cases same : effect.path = path
        · rw [if_pos same, Option.getD_some, ← same]
          exact holds.symm
        · rw [if_neg same]
          exact looked path named
      obtain ⟨final, run, none⟩ := ih (state.observe effect.path _) undrafted looking
        (fun other member => inside other (List.mem_cons_of_mem _ member))
        (fun other member => satisfied other (List.mem_cons_of_mem _ member))
      exact ⟨final, reaches_cons.mpr ⟨_, turn, run⟩, none⟩

/-- The planner refuses the effects: one lies outside the managed surface or is no file effect,
or two of them cannot stand together. -/
def Refused (lower : CaseMapping) (effects : List Effect) : Prop :=
  ∀ selected, selectManagedEffects lower effects = .ok selected →
    validateRelationships lower selected ≠ .ok ()

private theorem normalized_drafts {selected : List ManagedEffect} {final : PlanState}
    (hashed : ∀ content, sha256Pattern (sha256 content) = true)
    (sized : ∀ content path, Effect.managed (.writeFile content) path ∈ effects →
      utf8Length content ≤ 9007199254740991)
    (observed : Observed lower effects observations tree)
    (accepted : selectManagedEffects lower effects = .ok selected)
    (related : validateRelationships lower selected = .ok ())
    (run : Reaches (normalizeEffect sha256) ⟨observations, []⟩ selected final) :
    ∃ after, Drafted lower sha256 selected (bootstrapped tree) selected final after := by
  obtain ⟨members, destinations⟩ := selectManagedEffects_spec accepted
  refine (observed.drafted accepted).run_all (bootstrapped_brain observed.brain) rfl ?_ destinations
    (validateRelationships_ok_iff.mp related).2 run
  intro effect member
  have asked := (members effect).mp member
  cases kind : effect.kind with
  | createDirectory => rfl
  | deleteFile => rfl
  | writeFile content =>
      rw [kind] at asked
      simp [published, contentFingerprint, validFingerprint, sized content _ asked, hashed]

/-- The executor accepts the plans of the planner, and publishing them does what was asked. -/
theorem planner_executor_agreement
    (hashed : ∀ content, sha256Pattern (sha256 content) = true)
    (sized : ∀ content path, Effect.managed (.writeFile content) path ∈ effects →
      utf8Length content ≤ 9007199254740991)
    (observed : Observed lower effects observations tree) :
    (∀ operations,
      normalizeManagedMutationPlan lower sha256 effects observations = .ok (.ready operations) →
        freezeManagedPlan lower sha256 operations = .ok operations ∧
          ∃ final, Reaches (publishOperation sha256) (bootstrapped tree)
              (operations.map ManagedOperation.toDraftOperation) final ∧
            (∀ kind path, .managed kind path ∈ effects → final path = published sha256 kind) ∧
            ∀ path, final path ≠ bootstrapped tree path →
              (∃ kind, .managed kind path ∈ effects) ∨
                tree path = .missing ∧ final path = .directory ∧
                  ∃ kind child, kind ≠ .deleteFile ∧ .managed kind child ∈ effects ∧
                    isParent path child = true) ∧
      (normalizeManagedMutationPlan lower sha256 effects observations = .ok .noop ↔
        ¬Refused lower effects ∧
          ∀ kind path, .managed kind path ∈ effects → tree path = published sha256 kind) := by
  have planned : ∀ outcome,
      normalizeManagedMutationPlan lower sha256 effects observations = .ok outcome ↔
        ∃ selected final, selectManagedEffects lower effects = .ok selected ∧
          validateRelationships lower selected = .ok () ∧
          Reaches (normalizeEffect sha256) ⟨observations, []⟩ selected final ∧
          (if final.drafts = [] then NormalizedPlan.noop
            else .ready (final.drafts.mapIdx finalizeOperation)) = outcome := by
    intro outcome
    simp only [normalizeManagedMutationPlan, bind_ok_iff, Reaches]
    constructor
    · rintro ⟨selected, accepted, ⟨⟩, related, final, run, shape⟩
      refine ⟨selected, final, accepted, related, run, ?_⟩
      split at shape
      · rename_i none
        rw [if_pos none]
        exact Except.ok.inj shape
      · rename_i some
        rw [if_neg some]
        exact Except.ok.inj shape
    · rintro ⟨selected, final, accepted, related, run, rfl⟩
      refine ⟨selected, accepted, (), related, final, run, ?_⟩
      split
      · rfl
      · rfl
  have other : ∀ kind path, Effect.managed kind path ∈ effects →
      ∀ selected, selectManagedEffects lower effects = .ok selected → path ≠ js ".brain" := by
    rintro kind path asked selected accepted rfl
    obtain ⟨members, destinations⟩ := selectManagedEffects_spec accepted
    exact assertDestination_brain kind (destinations ⟨kind, _⟩ ((members ⟨kind, _⟩).mpr asked))
  constructor
  · intro operations ready
    obtain ⟨selected, final, accepted, related, run, shape⟩ := (planned _).mp ready
    split at shape
    · cases shape
    · rename_i some
      injection shape with same
      obtain ⟨members, -⟩ := selectManagedEffects_spec accepted
      obtain ⟨after, drafted⟩ := normalized_drafts hashed sized observed accepted related run
      have frozen := drafted.frozen (validateRelationships_ok_iff.mp related).1 some
      rw [same] at frozen
      refine ⟨frozen, after, ?_, ?_, ?_⟩
      · rw [← same, drafts_finalized]
        exact drafted.run
      · exact fun kind path asked => drafted.satisfied ⟨kind, path⟩ ((members ⟨kind, path⟩).mpr asked)
      · intro path changed
        have drafts : ∃ draft ∈ final.drafts, draft.path = path := by
          by_contra none
          push Not at none
          exact changed (publish_frame drafted.run none)
        obtain ⟨draft, member, rfl⟩ := drafts
        rcases drafted.touched draft member with ⟨effect, asked, matched⟩ |
          ⟨created, effect, asked, kept, above⟩
        · exact .inl ⟨effect.kind, matched ▸ (members effect).mp asked⟩
        · have absent := (drafted.fresh draft member).trans ((drafted.shaped draft member).missing created)
          have outside : draft.path ≠ js ".brain" := by
            intro brain
            rw [brain, bootstrapped_brain observed.brain] at absent
            cases absent
          rw [bootstrapped_other outside] at absent
          exact .inr ⟨absent, drafted.created draft member created, effect.kind, effect.path, kept,
            (members effect).mp asked, above⟩
  · rw [planned]
    constructor
    · rintro ⟨selected, final, accepted, related, run, shape⟩
      split at shape
      · rename_i none
        obtain ⟨members, -⟩ := selectManagedEffects_spec accepted
        obtain ⟨after, drafted⟩ := normalized_drafts hashed sized observed accepted related run
        have unchanged := drafted.run
        rw [none, reaches_nil] at unchanged
        refine ⟨fun refused => refused selected accepted related, ?_⟩
        intro kind path asked
        have held := drafted.satisfied ⟨kind, path⟩ ((members ⟨kind, path⟩).mpr asked)
        rwa [Satisfies, ← unchanged, bootstrapped_other (other kind path asked selected accepted)] at held
      · cases shape
    · rintro ⟨allowed, satisfied⟩
      rw [Refused] at allowed
      push Not at allowed
      obtain ⟨selected, accepted, related⟩ := allowed
      obtain ⟨members, -⟩ := selectManagedEffects_spec accepted
      have holds : ∀ effect ∈ selected, Satisfies sha256 tree effect :=
        fun effect member => satisfied effect.kind effect.path ((members effect).mp member)
      obtain ⟨final, run, none⟩ := run_quiet ⟨observations, []⟩ observed.rooted rfl
        (fun path named => observed.looked accepted named) (fun effect member => member) holds
      exact ⟨selected, final, accepted, related, run, if_pos none⟩

end Planning

section Samples

def treeOf (directories : List JsString) : Tree := fun path =>
  if path ∈ directories then .directory else .missing

private theorem observed_treeOf {directories : List JsString} (effects : List Effect)
    (root : js "." ∈ directories)
    (closed : ∀ path ∈ directories, ∀ parent ∈ prefixes path, parent ∈ directories) :
    Observed asciiLowerCase effects
      (observeManagedPaths asciiLowerCase effects (treeOf directories)) (treeOf directories) where
  covered path member := mapGet_map _ member
  rooted := by
    refine ⟨if_pos root, fun path held parent above => ?_⟩
    have inside : path ∈ directories := by
      by_contra outside
      exact held (if_neg outside)
    exact if_pos (closed path inside parent (mem_prefixes_iff.mpr (.inr above)))
  valid path := by
    rw [treeOf]
    split
    · rfl
    · rfl
  brain := by
    rw [treeOf]
    split
    · rfl
    · rfl

/-- A request for one file beneath directories that are missing. -/
def skillEffects : List Effect := [.managed (.writeFile (js "# Skill\n")) (js ".claude/skills/a.md")]

def skillDigest : JsString := js "74daeff849609b74a42500aff45eb6229a086907ab1b2badae4c29ed4fc10e3c"

theorem skill_plan_agrees :
    ∃ operations,
      normalizeManagedMutationPlan asciiLowerCase (fun _ => skillDigest) skillEffects
          (observeManagedPaths asciiLowerCase skillEffects (treeOf [js ".", js ".brain"])) =
        .ok (.ready operations) ∧
      freezeManagedPlan asciiLowerCase (fun _ => skillDigest) operations = .ok operations ∧
      ∃ final,
        Reaches (publishOperation fun _ => skillDigest) (bootstrapped (treeOf [js ".", js ".brain"]))
          (operations.map ManagedOperation.toDraftOperation) final ∧
        final (js ".claude/skills/a.md") = .file 8 skillDigest := by
  have closed : ∀ path ∈ [js ".", js ".brain"], ∀ parent ∈ prefixes path,
      parent ∈ [js ".", js ".brain"] := by decide
  have observed := observed_treeOf skillEffects (by decide) closed
  have digest : sha256Pattern skillDigest = true := by decide
  have hashed : ∀ content : JsString, sha256Pattern ((fun _ => skillDigest) content) = true :=
    fun _ => digest
  have sized : ∀ content path, Effect.managed (.writeFile content) path ∈ skillEffects →
      utf8Length content ≤ 9007199254740991 := by
    intro content path member
    cases List.mem_singleton.mp member
    decide
  have agreement := planner_executor_agreement hashed sized observed
  obtain ⟨frozen, final, run, asked, -⟩ := agreement.1 _ rfl
  exact ⟨_, rfl, frozen, final, run, asked _ _ (List.mem_singleton_self _)⟩

/-- Two directories asked for, the inner one first. -/
def nestedEffects : List Effect :=
  [.managed .createDirectory (js ".claude/skills"), .managed .createDirectory (js ".claude")]

/-- A directory asked for in the managed state. -/
def stateEffects : List Effect := [.managed .createDirectory (js ".brain/notes")]

/-- Effects that all hold can be refused, and a plan in `.brain` needs the bootstrap. -/
theorem planner_executor_disagreement :
    (Observed asciiLowerCase nestedEffects
        (observeManagedPaths asciiLowerCase nestedEffects
          (treeOf [js ".", js ".claude", js ".claude/skills"]))
        (treeOf [js ".", js ".claude", js ".claude/skills"]) ∧
      (∀ kind path, .managed kind path ∈ nestedEffects →
        treeOf [js ".", js ".claude", js ".claude/skills"] path =
          published (fun _ => skillDigest) kind) ∧
      normalizeManagedMutationPlan asciiLowerCase (fun _ => skillDigest) nestedEffects
          (observeManagedPaths asciiLowerCase nestedEffects
            (treeOf [js ".", js ".claude", js ".claude/skills"])) = .error .stateCorrupt) ∧
      Observed asciiLowerCase stateEffects
          (observeManagedPaths asciiLowerCase stateEffects (treeOf [js "."])) (treeOf [js "."]) ∧
        ∃ operation,
          normalizeManagedMutationPlan asciiLowerCase (fun _ => skillDigest) stateEffects
              (observeManagedPaths asciiLowerCase stateEffects (treeOf [js "."])) =
            .ok (.ready [operation]) ∧
          publishOperation (fun _ => skillDigest) (treeOf [js "."]) operation.toDraftOperation =
            .error (.stateCorrupt (js ".brain/notes")) := by
  refine ⟨⟨observed_treeOf _ (by decide) (by decide), ?_, rfl⟩,
    observed_treeOf _ (by decide) (by decide), _, rfl, rfl⟩
  intro kind path member
  rcases List.mem_cons.mp member with same | rest
  · cases same
    rfl
  · cases List.mem_singleton.mp rest
    rfl

end Samples

end Kratos.Transactions
