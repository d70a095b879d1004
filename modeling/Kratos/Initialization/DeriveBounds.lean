/- source: domain/init/derive.ts, schemas/state/project-config.v1.5.schema.json
   digest: The bounds of the profile schema, and the derived leaves that keep them. -/

import Kratos.Initialization.DeriveOrder

set_option autoImplicit false

namespace Kratos.Initialization.DeriveBounds

open Foundation.JsonText Foundation.Lines Foundation.Sorting Foundation.Text Initialization
open Initialization.DeriveOrder

section Schema

def PROJECT_PATH_MAX_LENGTH : Nat := 512

def LANGUAGE_MAX_LENGTH : Nat := 64

/-- `minLength` 1 and this `maxLength`, which count code points. -/
def Within (limit : Nat) (text : JsString) : Prop :=
  1 ≤ (codePoints text).length ∧ (codePoints text).length ≤ limit

instance (limit : Nat) (text : JsString) : Decidable (Within limit text) :=
  inferInstanceAs (Decidable (_ ∧ _))

/-- `minItems` 1 and `uniqueItems`, each item within a limit. -/
def ItemsWithin (limit : Nat) (items : List JsString) : Prop :=
  items ≠ [] ∧ items.Nodup ∧ ∀ item ∈ items, Within limit item

/-- A leaf whose value and evidence the schema takes. -/
structure LeafFits {α : Type} (value : α → Prop) (leaf : Leaf α) : Prop where
  value : value leaf.value
  evidence : Within EVIDENCE_MAX_LENGTH leaf.evidence

/-- Every leaf of a derived profile is within the length and item bounds of the schema. -/
structure Fits (profile : PartialProjectProfile) : Prop where
  commands : ∀ entry ∈ profile.commands, LeafFits (Within COMMAND_MAX_LENGTH) entry.2
  source : ∀ leaf ∈ profile.paths.source, LeafFits (ItemsWithin PROJECT_PATH_MAX_LENGTH) leaf
  tests : ∀ leaf ∈ profile.paths.tests, LeafFits (ItemsWithin PROJECT_PATH_MAX_LENGTH) leaf
  configuration : ∀ leaf ∈ profile.paths.configuration, LeafFits (ItemsWithin PROJECT_PATH_MAX_LENGTH) leaf
  directoryLayout : ∀ leaf ∈ profile.conventions.directoryLayout, LeafFits (Within CONVENTION_MAX_LENGTH) leaf
  naming : ∀ leaf ∈ profile.conventions.naming, LeafFits (Within CONVENTION_MAX_LENGTH) leaf
  implementationLanguages : ∀ leaf ∈ profile.conventions.implementationLanguages,
    LeafFits (ItemsWithin LANGUAGE_MAX_LENGTH) leaf

theorem within_of_length {limit : Nat} {text : JsString} (filled : text ≠ []) (short : text.length ≤ limit) :
    Within limit text := by
  obtain ⟨most, least⟩ := codePoints_length text
  exact ⟨least filled, most.trans short⟩

theorem part_length_le_join {separator part : JsString} {parts : List JsString} (member : part ∈ parts) :
    part.length ≤ (join separator parts).length := by
  induction parts with
  | nil => exact absurd member List.not_mem_nil
  | cons first rest ih =>
      unfold join at ih ⊢
      cases rest with
      | nil =>
          obtain rfl := List.mem_singleton.mp member
          rw [List.intercalate_singleton]
      | cons next rest =>
          rw [List.intercalate_cons_cons, List.length_append, List.length_append]
          rcases List.mem_cons.mp member with rfl | later
          · omega
          · have bound := ih later
            omega

end Schema

section Commands

variable {commands : Commands}

def CommandsFit (commands : Commands) : Prop :=
  ∀ entry ∈ commands, LeafFits (Within COMMAND_MAX_LENGTH) entry.2

theorem CommandsFit.append (fit : CommandsFit commands) {slot : CommandSlot} {leaf : Leaf JsString}
    (fits : LeafFits (Within COMMAND_MAX_LENGTH) leaf) : CommandsFit (commands ++ [(slot, leaf)]) := by
  intro entry member
  rcases List.mem_append.mp member with old | new
  · exact fit entry old
  · obtain rfl := List.mem_singleton.mp new
    exact fits

theorem offer_fits (fit : CommandsFit commands) (slot : CommandSlot) (value : JsString) {evidence : JsString}
    (filled : evidence ≠ []) : CommandsFit (offer commands slot value evidence) := by
  unfold offer
  split
  · exact fit
  dsimp only
  split
  · exact fit
  rename_i answers
  split
  · exact fit
  split
  · exact fit
  rename_i fitting
  simp only [Bool.or_eq_true, List.isEmpty_iff, decide_eq_true_eq, not_or, Nat.not_lt] at answers fitting
  exact fit.append ⟨within_of_length answers.1 answers.2, within_of_length filled fitting⟩

theorem offerSlots_fits (fit : CommandsFit commands) (names : List JsString) (command : CommandSlot → JsString)
    {evidence : CommandSlot → JsString} (filled : ∀ slot, evidence slot ≠ []) :
    CommandsFit (offerSlots names command evidence commands) := by
  refine List.foldlRecOn COMMAND_SLOTS _ fit fun commands fit slot _ => ?_
  split
  · exact offer_fits fit slot _ (filled slot)
  · exact fit

theorem answer_fits (fit : CommandsFit commands) (slot : CommandSlot) {value evidence : JsString}
    (command : Within COMMAND_MAX_LENGTH value) (short : Within EVIDENCE_MAX_LENGTH evidence) :
    CommandsFit (answer commands slot value evidence) := by
  unfold answer
  split
  · exact fit
  · exact fit.append ⟨command, short⟩

theorem deriveTaskfileCommands_fits (fit : CommandsFit commands) (file : ManifestFile) :
    CommandsFit (deriveTaskfileCommands file commands) :=
  offerSlots_fits fit _ _ fun slot => by simp [js, unitsOfChar]

theorem deriveJustfileCommands_fits (fit : CommandsFit commands) (file : ManifestFile) :
    CommandsFit (deriveJustfileCommands file commands) :=
  offerSlots_fits fit _ _ fun slot => by simp [js, unitsOfChar]

theorem deriveMiseCommands_fits (fit : CommandsFit commands) (file : ManifestFile) :
    CommandsFit (deriveMiseCommands file commands) :=
  offerSlots_fits fit _ _ fun slot => by simp [js, unitsOfChar]

theorem deriveWorkflowCommands_fits (fit : CommandsFit commands) (workflows : List ManifestFile) :
    CommandsFit (deriveWorkflowCommands workflows commands) := by
  refine List.foldlRecOn workflows _ fit fun commands fit workflow _ => ?_
  refine List.foldlRecOn (readWorkflowSteps workflow.content) _ fit fun commands fit step _ => ?_
  split
  · exact fit
  · refine offer_fits fit _ _ ?_
    simp [stepEvidence, js, unitsOfChar]

theorem deriveLifecycleCommand_fits (fit : CommandsFit commands) (path lifecycle : JsString)
    (entry : JsString × Json) : CommandsFit (deriveLifecycleCommand path lifecycle commands entry) := by
  unfold deriveLifecycleCommand
  split
  · refine offer_fits fit _ _ ?_
    simp [js, unitsOfChar]
  · exact fit

theorem deriveDevcontainerCommands_fits (fit : CommandsFit commands) (file : ManifestFile) :
    CommandsFit (deriveDevcontainerCommands file commands) := by
  unfold deriveDevcontainerCommands
  split
  · refine List.foldlRecOn DEVCONTAINER_LIFECYCLE _ fit fun commands fit lifecycle _ => ?_
    split
    · rename_i entries _
      exact List.foldlRecOn entries _ fit fun commands fit entry _ =>
        deriveLifecycleCommand_fits fit file.path (js lifecycle) entry
    · exact fit
  · exact fit

theorem packageManagerOf_via {parsed : List (JsString × Json)} {rootEntries : List JsString}
    {choice : PackageManagerChoice} (chosen : packageManagerOf parsed rootEntries = some choice) {file : JsString}
    (via : choice.via = some file) : file.length ≤ 27 := by
  have locked : lockfileManager rootEntries = some choice → file.length ≤ 27 := by
    intro found
    unfold lockfileManager at found
    dsimp only at found
    split at found
    · obtain rfl := Option.some.inj found
      cases via
    · rename_i first rest present
      split at found
      · cases found
      · obtain rfl := Option.some.inj found
        obtain rfl := Option.some.inj via
        have short : (PACKAGE_MANAGER_LOCKFILES.all fun entry => decide ((js entry.1).length ≤ 27)) = true := by
          decide
        have listed : first ∈ PACKAGE_MANAGER_LOCKFILES :=
          List.mem_of_mem_filter (present ▸ List.mem_cons_self)
        exact of_decide_eq_true (List.all_eq_true.mp short first listed)
  unfold packageManagerOf at chosen
  split at chosen
  · split at chosen
    · obtain rfl := Option.some.inj chosen
      obtain rfl := Option.some.inj via
      decide
    · exact locked chosen
  · exact locked chosen

theorem manager_text_length (manager : PackageManager) : manager.text.length ≤ 4 := by
  cases manager <;> decide

theorem scriptCommand_fits (manager : PackageManager) {script : JsString} (short : script.length ≤ 5) :
    Within COMMAND_MAX_LENGTH (scriptCommand manager script) := by
  have most := manager_text_length manager
  have space : (js " ").length = 1 := by decide
  have run : (js " run ").length = 5 := by decide
  unfold scriptCommand COMMAND_MAX_LENGTH
  split
  · refine within_of_length (by simp [js, unitsOfChar]) ?_
    simp only [List.length_append, space]
    omega
  · refine within_of_length (by simp [js, unitsOfChar]) ?_
    simp only [List.length_append, run]
    omega

theorem deriveScript_fits {choice : PackageManagerChoice} (vias : ∀ file, choice.via = some file → file.length ≤ 27)
    (scripts : List (JsString × Json)) (fit : CommandsFit commands) {slot : CommandSlot × List String}
    (listed : slot ∈ PACKAGE_SCRIPTS) : CommandsFit (deriveScript choice scripts commands slot) := by
  unfold deriveScript
  split
  · exact fit
  split
  · exact fit
  rename_i script found
  have short : (js script).length ≤ 5 := by
    have bounds : (PACKAGE_SCRIPTS.all fun slot => slot.2.all fun script => decide ((js script).length ≤ 5)) = true := by
      decide
    have here := List.all_eq_true.mp bounds slot listed
    exact of_decide_eq_true (List.all_eq_true.mp here script (List.mem_of_find?_eq_some found))
  refine fit.append ⟨scriptCommand_fits choice.manager short, within_of_length ?_ ?_⟩
  · simp [js, unitsOfChar]
  have field : (js "package.json#scripts.").length = 21 := by decide
  have mark : (js " via ").length = 5 := by decide
  unfold EVIDENCE_MAX_LENGTH
  simp only [List.length_append, field]
  split
  · rw [List.length_nil]
    omega
  · rename_i file via
    have bound := vias file via
    rw [List.length_append, mark]
    omega

theorem derivePackageJsonCommands_fits (fit : CommandsFit commands) (content : JsString) (rootEntries : List JsString) :
    CommandsFit (derivePackageJsonCommands content rootEntries commands) := by
  unfold derivePackageJsonCommands
  split
  · split
    · split
      · rename_i scripts _ _ choice chosen
        exact List.foldlRecOn PACKAGE_SCRIPTS _ fit fun commands fit slot listed =>
          deriveScript_fits (fun file => packageManagerOf_via chosen) scripts fit listed
      · exact fit
    · exact fit
  · exact fit

theorem deriveMakefileCommands_fits (fit : CommandsFit commands) (content : JsString) :
    CommandsFit (deriveMakefileCommands content commands) := by
  unfold deriveMakefileCommands
  dsimp only
  refine List.foldlRecOn COMMAND_SLOTS _ fit fun commands fit slot _ => ?_
  split
  · exact answer_fits fit slot (by cases slot <;> decide) (by cases slot <;> decide)
  · exact fit

theorem derivePyprojectTomlCommands_fits (fit : CommandsFit commands) (content : JsString) :
    CommandsFit (derivePyprojectTomlCommands content commands) := by
  refine List.foldlRecOn (splitLines content) _ fit fun commands fit line _ => ?_
  have tested : CommandsFit
      (if trim line == js "[tool.pytest.ini_options]" || trim line == js "[tool.pytest]" then
        answer commands .test (js "pytest") (js "pyproject.toml#" ++ ((trim line).drop 1).dropLast)
      else commands) := by
    split
    · rename_i table
      refine answer_fits fit _ (by decide) ?_
      rcases Bool.or_eq_true_iff.mp table with options | plain
      · rw [eq_of_beq options]
        decide
      · rw [eq_of_beq plain]
        decide
    · exact fit
  unfold derivePyprojectLine
  dsimp only
  split
  · exact answer_fits tested _ (by decide) (by decide)
  · exact tested

theorem stackEvidence_fits (detected : DetectedStack) : Within EVIDENCE_MAX_LENGTH (stackEvidence detected) := by
  unfold stackEvidence
  dsimp only
  split
  · rename_i short
    refine within_of_length ?_ short
    simp [js, unitsOfChar]
  · cases detected.id <;> decide

theorem stackCommand_fits {id : StackId} {slot : CommandSlot} {value : String}
    (verb : (STACK_COMMANDS id).at slot = some value) : Within COMMAND_MAX_LENGTH (js value) := by
  have verbs : (((STACK_COMMANDS id).at slot).all fun value => decide (Within COMMAND_MAX_LENGTH (js value))) = true := by
    cases id <;> cases slot <;> decide
  rw [verb] at verbs
  exact of_decide_eq_true verbs

theorem deriveStackCommands_fits (fit : CommandsFit commands) (stack : StackProfile) :
    CommandsFit (deriveStackCommands stack commands) := by
  refine List.foldlRecOn stack.detectedStacks _ fit fun commands fit detected _ => ?_
  refine List.foldlRecOn COMMAND_SLOTS _ fit fun commands fit slot _ => ?_
  split
  · exact fit
  · rename_i value verb
    exact answer_fits fit slot (stackCommand_fits verb) (stackEvidence_fits detected)

theorem fromManifest_fits {α : Type} {derive : α → Commands → Commands}
    (each : ∀ content commands, CommandsFit commands → CommandsFit (derive content commands)) (manifest : Option α)
    (fit : CommandsFit commands) : CommandsFit (fromManifest manifest derive commands) := by
  cases manifest with
  | none => exact fit
  | some content => exact each content commands fit

theorem deriveCommands_fits (stack : StackProfile) (manifests : ManifestContents) (rootEntries : List JsString) :
    CommandsFit (deriveCommands stack manifests rootEntries) := by
  have nothing : CommandsFit [] := fun entry member => absurd member List.not_mem_nil
  have packaged := fromManifest_fits
    (fun content commands fit => derivePackageJsonCommands_fits fit content rootEntries) manifests.packageJson nothing
  have project := fromManifest_fits
    (fun content commands fit => derivePyprojectTomlCommands_fits fit content) manifests.pyprojectToml packaged
  have made := fromManifest_fits
    (fun content commands fit => deriveMakefileCommands_fits fit content) manifests.makefile project
  have tasks := fromManifest_fits
    (fun file commands fit => deriveTaskfileCommands_fits fit file) manifests.taskfile made
  have recipes := fromManifest_fits
    (fun file commands fit => deriveJustfileCommands_fits fit file) manifests.justfile tasks
  have tables := fromManifest_fits
    (fun file commands fit => deriveMiseCommands_fits fit file) manifests.miseToml recipes
  have contained := fromManifest_fits
    (fun file commands fit => deriveDevcontainerCommands_fits fit file) manifests.devcontainerJson tables
  exact deriveStackCommands_fits (deriveWorkflowCommands_fits contained manifests.workflows) stack

end Commands

section Paths

variable {layout : ObservedLayout} {candidates : List String} {ranked : List DirectoryCandidate}

theorem fitting_prefix (tokens : List JsString) (ranked : List DirectoryCandidate) :
    fitting tokens ranked <+: ranked := by
  induction ranked generalizing tokens with
  | nil => exact List.prefix_rfl
  | cons candidate rest ih =>
      rw [fitting]
      split
      · exact List.nil_prefix
      · exact (List.prefix_cons_inj candidate).mpr (ih _)

theorem fitting_length (tokens : List JsString) (some : fitting tokens ranked ≠ []) :
    (directoryEvidence (tokens ++ (fitting tokens ranked).map pathToken)).length ≤ EVIDENCE_MAX_LENGTH := by
  induction ranked generalizing tokens with
  | nil => exact absurd rfl some
  | cons candidate rest ih =>
      rw [fitting] at some ⊢
      split at some
      · exact absurd rfl some
      · rename_i short
        rw [if_neg short, List.map_cons]
        by_cases last : fitting (tokens ++ [pathToken candidate]) rest = []
        · rw [last, List.map_nil]
          exact Nat.not_lt.mp short
        · have later := ih _ last
          rwa [List.append_assoc, List.singleton_append] at later

theorem path_length_le_token (candidate : DirectoryCandidate) :
    candidate.path.length ≤ (pathToken candidate).length := by
  unfold pathToken
  split
  · exact le_rfl
  · rw [List.length_append]
    omega

theorem selectPaths_fits (distinct : (ranked.map DirectoryCandidate.path).Nodup)
    (filled : ∀ candidate ∈ ranked, candidate.path ≠ []) {leaf : Leaf (List JsString)}
    (selected : selectPaths ranked = some leaf) : LeafFits (ItemsWithin PROJECT_PATH_MAX_LENGTH) leaf := by
  unfold selectPaths at selected
  dsimp only at selected
  split at selected
  · cases selected
  rename_i some
  obtain rfl := Option.some.inj selected
  have chosen := fitting_prefix [] ranked
  have short := fitting_length [] fun none => some (List.isEmpty_iff.mpr none)
  rw [List.nil_append] at short
  refine ⟨⟨?_, distinct.sublist (chosen.sublist.map _), fun path member => ?_⟩, within_of_length ?_ short⟩
  · simpa using some
  · obtain ⟨candidate, inside, rfl⟩ := List.mem_map.mp member
    refine within_of_length (filled candidate (chosen.subset inside)) ?_
    have token := path_length_le_token candidate
    have part : (pathToken candidate).length ≤ (join (js ", ") ((fitting [] ranked).map pathToken)).length :=
      part_length_le_join (List.mem_map_of_mem inside)
    rw [directoryEvidence, List.length_append] at short
    unfold EVIDENCE_MAX_LENGTH at short
    unfold PROJECT_PATH_MAX_LENGTH
    omega
  · simp [directoryEvidence, js, unitsOfChar]

theorem rankCandidates_subperm (found : List DirectoryCandidate) : (rankCandidates found).Subperm found := by
  unfold rankCandidates
  dsimp only
  split
  · exact (List.take_sublist _ _).subperm.trans (List.mergeSort_perm _ _).subperm
  · exact (List.take_sublist _ _).subperm.trans
      ((List.mergeSort_perm _ _).subperm.trans List.filter_sublist.subperm)

theorem candidateOf_filled (names : (candidates.all fun name => !(js name).isEmpty) = true) {path : JsString}
    {candidate : DirectoryCandidate} (found : candidateOf layout candidates path = some candidate) :
    candidate.path ≠ [] := by
  rw [candidateOf_path found]
  rintro rfl
  obtain ⟨rank, index, -⟩ := Option.map_eq_some_iff.mp found
  obtain ⟨bound, same, -⟩ := List.findIdx?_eq_some_iff_getElem.mp index
  have named := List.all_eq_true.mp names _ (List.getElem_mem bound)
  rw [eq_of_beq same] at named
  exact absurd named (by decide)

theorem derivePathSlot_fits (rootEntries : List JsString) (plain : PlainNames candidates)
    (names : (candidates.all fun name => !(js name).isEmpty) = true) (notBelow : List String) :
    ∀ leaf ∈ (derivePathSlot rootEntries layout candidates notBelow).map DerivedPathSlot.leaf,
      LeafFits (ItemsWithin PROJECT_PATH_MAX_LENGTH) leaf := by
  intro leaf member
  obtain ⟨slot, derived, rfl⟩ := Option.map_eq_some_iff.mp (Option.mem_def.mp member)
  have gathered := candidateDirectories_gathered layout rootEntries plain
  unfold derivePathSlot at derived
  dsimp only at derived
  split at derived
  · cases derived
  obtain ⟨leaf, selected, rfl⟩ := Option.map_eq_some_iff.mp derived
  have among : (rankCandidates (withoutEnclosed ((candidateDirectories rootEntries layout candidates).filter
      fun candidate => !sitsBelow candidate.path notBelow))).Subperm
      (candidateDirectories rootEntries layout candidates) :=
    (rankCandidates_subperm _).trans (List.filter_sublist.trans List.filter_sublist).subperm
  refine selectPaths_fits ?_ (fun candidate member => ?_) selected
  · obtain ⟨part, perm, below⟩ := among
    exact (perm.map _).nodup_iff.mp (gathered.distinct.sublist (below.map _))
  · obtain ⟨path, -, found⟩ := (gathered.members candidate).mp (among.subset member)
    exact candidateOf_filled names found

end Paths

section Conventions

variable {toLowerCase : JsString → JsString}

theorem layoutLeaf_fits {value evidence : JsString} (told : value ≠ []) (shown : evidence ≠ []) :
    ∀ leaf ∈ layoutLeaf value evidence, LeafFits (Within CONVENTION_MAX_LENGTH) leaf := by
  intro leaf member
  unfold layoutLeaf at member
  split at member
  · cases member
  rename_i short
  split at member
  · cases member
  rename_i brief
  obtain rfl := Option.some.inj (Option.mem_def.mp member)
  exact ⟨within_of_length told (Nat.not_lt.mp brief), within_of_length shown (Nat.not_lt.mp short)⟩

theorem deriveDirectoryLayout_fits (paths : DerivedPaths) (observed : List JsString) :
    ∀ leaf ∈ deriveDirectoryLayout toLowerCase paths observed, LeafFits (Within CONVENTION_MAX_LENGTH) leaf := by
  intro leaf member
  unfold deriveDirectoryLayout at member
  split at member
  · cases member
  split at member
  · refine layoutLeaf_fits ?_ ?_ leaf member
    · simp [js, unitsOfChar]
    · simp [js, unitsOfChar]
  · obtain ⟨shape, -, placed⟩ := Option.bind_eq_some_iff.mp (Option.mem_def.mp member)
    refine layoutLeaf_fits ?_ ?_ leaf placed
    · split <;> simp [js, unitsOfChar]
    · simp [js, unitsOfChar]

theorem dominantNaming_files {census : List NamingForm} {dominant : Dominant}
    (found : dominantNaming census = some dominant) : dominant.files ≤ 2 * census.length := by
  have counted : ∀ form, census.count form ≤ census.length := fun form => List.count_le_length
  have kept : ∀ state : Option NamingForm × Nat × Bool, state.2.1 ≤ census.length →
      (NAMING_FORMS.foldl (strongest census) state).2.1 ≤ census.length := by
    intro state small
    refine List.foldlRecOn (motive := fun state : Option NamingForm × Nat × Bool => state.2.1 ≤ census.length)
      NAMING_FORMS (strongest census) small fun state small form _ => ?_
    have most := counted form
    unfold strongest
    dsimp only
    split
    · exact small
    split
    · exact most
    split
    · exact small
    · exact small
  have kebab := counted .kebabCase
  have snake := counted .snakeCase
  have lowercase := counted .lowercase
  unfold dominantNaming at found
  dsimp only at found
  split at found
  · obtain rfl := Option.some.inj found
    dsimp only
    omega
  split at found
  · obtain rfl := Option.some.inj found
    dsimp only
    omega
  split at found
  · rename_i best files chosen
    obtain rfl := Option.some.inj found
    have most := kept (none, 0, false) (Nat.zero_le _)
    rw [chosen] at most
    dsimp only at most ⊢
    omega
  · cases found

theorem chooseNaming_counts {paths : List JsString} {languages : List DetectedLanguage} {chosen : Chosen}
    (found : chooseNaming toLowerCase paths languages = some chosen) :
    chosen.files ≤ 2 * paths.length ∧ chosen.total ≤ paths.length := by
  induction languages with
  | nil => cases found
  | cons language rest ih =>
      have most : (censusNames (paths.filter fun path => languageOfPath toLowerCase path == some language.id)).length ≤
          paths.length :=
        (List.length_filterMap_le _ _).trans (List.length_filter_le _ _)
      rw [chooseNaming] at found
      split at found
      · exact ih found
      split at found
      · cases found
      rename_i dominant supported
      split at found
      · cases found
      · obtain rfl := Option.some.inj found
        have files := dominantNaming_files supported
        exact ⟨files.trans (Nat.mul_le_mul_left 2 most), most⟩

theorem observedPaths_length (evidence : RepositoryEvidence) : (observedPaths evidence).length < 2 ^ 32 := by
  have kept := List.length_filterMap_le normalize (evidence.rootEntries ++ evidence.files.getD [])
  have bounded := evidence.bounded
  rw [List.length_append] at kept
  have fewer := sortedUnique_length TextOrdered
    ((evidence.rootEntries ++ evidence.files.getD []).filterMap normalize)
  unfold observedPaths
  omega

theorem deriveNaming_fits (stack : StackProfile) {paths : List JsString} (few : paths.length < 2 ^ 32) :
    ∀ leaf ∈ deriveNaming toLowerCase stack paths, LeafFits (Within CONVENTION_MAX_LENGTH) leaf := by
  intro leaf member
  obtain ⟨chosen, found, rfl⟩ := Option.map_eq_some_iff.mp (Option.mem_def.mp member)
  obtain ⟨files, total⟩ := chooseNaming_counts found
  have first : (decimal chosen.files).length ≤ 10 := decimal_length 9 (by omega)
  have second : (decimal chosen.total).length ≤ 10 := decimal_length 9 (by omega)
  have language := (LanguageId.text_length chosen.language).2
  have form : (NAMING_INSTRUCTION chosen.form).length ≤ 40 ∧ chosen.form.text.length ≤ 10 := by
    cases chosen.form <;> decide
  have words : (js ", as the ").length = 9 ∧ (js " files in this project already are.").length = 35 ∧
      (js "naming:").length = 7 ∧ (js " on ").length = 4 ∧ (js " of ").length = 4 ∧ (js " ").length = 1 ∧
      (js " files").length = 6 := by decide
  refine ⟨within_of_length ?_ ?_, within_of_length ?_ ?_⟩
  · simp [js, unitsOfChar]
  · unfold CONVENTION_MAX_LENGTH
    simp only [List.length_append]
    omega
  · simp [js, unitsOfChar]
  · unfold EVIDENCE_MAX_LENGTH
    simp only [List.length_append]
    omega

end Conventions

end Kratos.Initialization.DeriveBounds
