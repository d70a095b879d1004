/- source: domain/init/stack.ts, domain/init/derive.ts
   digest: Which repositories derive a profile that the schema stores. -/

import Kratos.Initialization.DeriveBounds

set_option autoImplicit false

namespace Kratos.Initialization.DeriveStorage

open Foundation.Collections
open Foundation.Paths (asciiLowerCase)
open Foundation.Sorting Foundation.Splitting Foundation.Text Initialization
open Initialization.DeriveBounds Initialization.DeriveOrder

variable {toLowerCase : JsString → JsString}

section Census

/-- What the survey holds of the languages after some paths: each once, with a file at least. -/
structure Surveyed (toLowerCase : JsString → JsString) (paths : List JsString)
    (census : List (LanguageId × Counted)) : Prop where
  unique : (census.map Prod.fst).Nodup
  named : ∀ id, id ∈ census.map Prod.fst ↔ ∃ path ∈ paths, languageOfPath toLowerCase path = some id
  counted : ∀ entry ∈ census, 0 < entry.2.files

theorem surveyMarker_census (survey : Survey) (candidate : Candidate) :
    (surveyMarker survey candidate).census = survey.census := by
  unfold surveyMarker
  split
  · rfl
  · split <;> rfl

theorem surveyLanguage_census (toLowerCase : JsString → JsString) (survey : Survey) (candidate : Candidate) :
    (languageOfPath toLowerCase candidate.path = none ∧
        (surveyLanguage toLowerCase survey candidate).census = survey.census) ∨
      ∃ language counted, languageOfPath toLowerCase candidate.path = some language ∧ 0 < counted.files ∧
        (surveyLanguage toLowerCase survey candidate).census = mapSet survey.census language counted := by
  unfold languageOfPath surveyLanguage
  cases extensionOf toLowerCase (basenameOf candidate.path) with
  | none => exact .inl ⟨rfl, rfl⟩
  | some extension =>
      dsimp only [Option.bind_some]
      cases LANGUAGE_BY_EXTENSION extension with
      | none => exact .inl ⟨rfl, rfl⟩
      | some language =>
          refine .inr ⟨language, _, rfl, ?_, rfl⟩
          split
          · exact Nat.one_pos
          · exact Nat.succ_pos _

theorem surveyPath_surveyed {paths : List JsString} {survey : Survey}
    (surveyed : Surveyed toLowerCase paths survey.census) (path : JsString) :
    Surveyed toLowerCase (paths ++ [path]) (surveyPath toLowerCase survey path).census := by
  have split : ∀ id, (∃ other ∈ paths ++ [path], languageOfPath toLowerCase other = some id) ↔
      id ∈ survey.census.map Prod.fst ∨ languageOfPath toLowerCase path = some id := by
    intro id
    simp only [List.mem_append, List.mem_singleton, or_and_right, exists_or, exists_eq_left, surveyed.named]
  unfold surveyPath
  rcases surveyLanguage_census toLowerCase (surveyMarker survey { path, depth := depthOf path })
      { path, depth := depthOf path } with
    ⟨foreign, same⟩ | ⟨language, counted, written, positive, same⟩
  · rw [surveyMarker_census] at same
    rw [same]
    refine ⟨surveyed.unique, fun id => ?_, surveyed.counted⟩
    rw [split, foreign]
    simp
  · rw [surveyMarker_census] at same
    rw [same]
    refine ⟨nodup_mapSet surveyed.unique language counted, fun id => ?_, fun entry member => ?_⟩
    · rw [mem_keys_mapSet, split, written, Option.some.injEq, or_comm, eq_comm]
    · rcases mem_mapSet member with rfl | old
      · exact positive
      · exact surveyed.counted entry old

theorem survey_surveyed (toLowerCase : JsString → JsString) (paths : List JsString) :
    Surveyed toLowerCase paths (survey toLowerCase paths).census := by
  have run : ∀ (later earlier : List JsString) (survey : Survey), Surveyed toLowerCase earlier survey.census →
      Surveyed toLowerCase (earlier ++ later) (later.foldl (surveyPath toLowerCase) survey).census := by
    intro later
    induction later with
    | nil =>
        intro earlier survey surveyed
        rwa [List.append_nil]
    | cons path rest ih =>
        intro earlier survey surveyed
        have next := ih (earlier ++ [path]) _ (surveyPath_surveyed surveyed path)
        rwa [List.append_assoc] at next
  have start : Surveyed toLowerCase [] [] := ⟨List.nodup_nil, fun id => by simp, fun entry member => by cases member⟩
  exact run paths [] { markers := [], census := [], unmapped := [] } start

/-- The languages that names outside excluded directories are written in, one for each name. -/
def writtenLanguages (toLowerCase : JsString → JsString) (evidence : RepositoryEvidence) : List LanguageId :=
  (evidence.rootEntries ++ evidence.files.getD []).filterMap fun entry =>
    (normalize entry).bind (languageOfPath toLowerCase)

theorem mem_writtenLanguages {evidence : RepositoryEvidence} {id : LanguageId} :
    id ∈ writtenLanguages toLowerCase evidence ↔
      ∃ path ∈ observedPaths evidence, languageOfPath toLowerCase path = some id := by
  unfold writtenLanguages observedPaths
  simp only [mem_sortedUnique, List.mem_filterMap, Option.bind_eq_some_iff]
  constructor
  · rintro ⟨entry, member, path, kept, written⟩
    exact ⟨path, ⟨entry, member, kept⟩, written⟩
  · rintro ⟨path, ⟨entry, member, kept⟩, written⟩
    exact ⟨entry, member, path, kept, written⟩

theorem languages_perm (toLowerCase : JsString → JsString) (evidence : RepositoryEvidence) :
    ((profileStack toLowerCase evidence).languages.map DetectedLanguage.id).Perm
      (LanguageId.all.filter (writtenLanguages toLowerCase evidence).contains) := by
  have surveyed := survey_surveyed toLowerCase (observedPaths evidence)
  have listed : ((profileStack toLowerCase evidence).languages.map DetectedLanguage.id).Perm
      ((survey toLowerCase (observedPaths evidence)).census.map Prod.fst) := by
    have sorted := (List.mergeSort_perm ((survey toLowerCase (observedPaths evidence)).census.map fun entry =>
      { id := entry.1, files := entry.2.files, evidence := entry.2.best.path : DetectedLanguage })
      (byFiles DetectedLanguage.files fun language => js language.id.text)).map DetectedLanguage.id
    rwa [List.map_map] at sorted
  refine listed.trans ((List.perm_ext_iff_of_nodup surveyed.unique (LanguageId.nodup_all.filter _)).mpr fun id => ?_)
  rw [surveyed.named, ← mem_writtenLanguages, List.mem_filter, List.contains_iff_mem, and_iff_right (LanguageId.mem_all id)]

theorem languages_counted (evidence : RepositoryEvidence) :
    ∀ language ∈ (profileStack toLowerCase evidence).languages, 0 < language.files := by
  intro language member
  obtain ⟨entry, inside, rfl⟩ := List.mem_map.mp ((List.mergeSort_perm _ _).mem_iff.mp member)
  exact (survey_surveyed toLowerCase (observedPaths evidence)).counted entry inside

end Census

section Languages

/-- The room the languages of a repository take in the census, each with its separator. -/
def languagesLength (toLowerCase : JsString → JsString) (evidence : RepositoryEvidence) : Nat :=
  ((LanguageId.all.filter (writtenLanguages toLowerCase evidence).contains).map fun id => (js id.text).length + 1).sum

theorem plain_text (id : LanguageId) : ∀ u ∈ js id.text, isHighSurrogate u = false := by
  have plain : ((js id.text).all fun u => !isHighSurrogate u) = true := by cases id <;> decide
  intro u member
  simpa using List.all_eq_true.mp plain u member

/-- The evidence of the languages takes as many code points as the census has units. -/
theorem census_length {ids : List LanguageId} (filled : ids ≠ []) :
    (codePoints (js "census:" ++ join (js ",") (ids.map fun id => js id.text))).length =
      6 + (ids.map fun id => (js id.text).length + 1).sum := by
  have comma : js "," = [unit ','] := by decide
  have plain : ∀ u ∈ js "census:" ++ join (js ",") (ids.map fun id => js id.text), isHighSurrogate u = false := by
    intro u member
    rcases List.mem_append.mp member with head | tail
    · have front : ((js "census:").all fun u => !isHighSurrogate u) = true := by decide
      simpa using List.all_eq_true.mp front u head
    · rw [join, comma] at tail
      rcases mem_intercalate tail with rfl | ⟨word, listed, inside⟩
      · decide
      · obtain ⟨id, -, rfl⟩ := List.mem_map.mp listed
        exact plain_text id u inside
  have words : ids.map (fun id => js id.text) ≠ [] := List.map_eq_nil_iff.not.mpr filled
  have ended : (join (js ",") (ids.map fun id => js id.text)).length + 1 =
      (ids.map fun id => (js id.text).length + 1).sum := by
    have whole := congrArg List.length (intercalate_ended words (unit ','))
    rw [List.length_append, List.length_singleton, List.length_flatMap, List.map_map] at whole
    rw [join, comma, whole]
    simp [Function.comp_def]
  have head : (js "census:").length = 7 := by decide
  rw [codePoints_length_plain plain, List.length_append, head]
  omega

theorem deriveLanguages_fits_iff (evidence : RepositoryEvidence) :
    (∀ leaf ∈ deriveLanguages (profileStack toLowerCase evidence), LeafFits (ItemsWithin LANGUAGE_MAX_LENGTH) leaf) ↔
      languagesLength toLowerCase evidence ≤ 250 := by
  have perm := languages_perm toLowerCase evidence
  have active : (profileStack toLowerCase evidence).languages.filter (fun language => decide (0 < language.files)) =
      (profileStack toLowerCase evidence).languages :=
    List.filter_eq_self.mpr fun language member => decide_eq_true (languages_counted evidence language member)
  have ids : (profileStack toLowerCase evidence).languages.map (fun language => js language.id.text) =
      ((profileStack toLowerCase evidence).languages.map DetectedLanguage.id).map fun id => js id.text := by
    rw [List.map_map]
    rfl
  have room : languagesLength toLowerCase evidence =
      (((profileStack toLowerCase evidence).languages.map DetectedLanguage.id).map fun id =>
        (js id.text).length + 1).sum := (perm.map _).sum_nat.symm
  unfold deriveLanguages
  dsimp only
  rw [active, ids, room]
  have unique : ((profileStack toLowerCase evidence).languages.map DetectedLanguage.id).Nodup :=
    perm.nodup_iff.mpr (LanguageId.nodup_all.filter _)
  generalize (profileStack toLowerCase evidence).languages.map DetectedLanguage.id = found at unique ⊢
  cases found with
  | nil => simp
  | cons first rest =>
      have length := census_length (List.cons_ne_nil first rest)
      have items : ItemsWithin LANGUAGE_MAX_LENGTH ((first :: rest).map fun id => js id.text) := by
        refine ⟨List.cons_ne_nil _ _, unique.map fun left right => LanguageId.text_injective, fun item member => ?_⟩
        obtain ⟨id, -, rfl⟩ := List.mem_map.mp member
        obtain ⟨least, most⟩ := LanguageId.text_length id
        refine within_of_length (fun empty => ?_) (most.trans (by decide))
        rw [empty] at least
        exact absurd least (by decide)
      rw [if_neg (by simp)]
      constructor
      · intro fits
        have evidence := (fits _ rfl).evidence
        rw [Within, length, EVIDENCE_MAX_LENGTH] at evidence
        omega
      · intro short leaf member
        obtain rfl := Option.some.inj (Option.mem_def.mp member)
        refine ⟨items, ?_⟩
        rw [Within, length, EVIDENCE_MAX_LENGTH]
        omega

end Languages

section Storage

/-- What a derivation owes a repository: an answer that only the names outside excluded directories
decide, and leaves that the schema stores. -/
structure Settled (toLowerCase : JsString → JsString) (evidence : RepositoryEvidence) : Prop where
  classified : ∀ other, Alike evidence other → profileStack toLowerCase evidence = profileStack toLowerCase other
  derived : ∀ other, Alike evidence other → ∀ manifests,
    deriveProjectProfile toLowerCase evidence manifests = deriveProjectProfile toLowerCase other manifests
  fits : ∀ manifests, Fits (deriveProjectProfile toLowerCase evidence manifests)

theorem deriveProjectProfile_fits_iff (evidence : RepositoryEvidence) (manifests : ManifestContents) :
    Fits (deriveProjectProfile toLowerCase evidence manifests) ↔ languagesLength toLowerCase evidence ≤ 250 := by
  rw [← deriveLanguages_fits_iff]
  refine ⟨Fits.implementationLanguages, fun languages => ?_⟩
  exact {
    commands := deriveCommands_fits _ manifests evidence.rootEntries
    source := derivePathSlot_fits evidence.rootEntries plainNames_source (by decide) TESTS_PATH_CANDIDATES
    tests := derivePathSlot_fits evidence.rootEntries plainNames_tests (by decide) []
    configuration := derivePathSlot_fits evidence.rootEntries plainNames_configuration (by decide) []
    directoryLayout := deriveDirectoryLayout_fits _ _
    naming := deriveNaming_fits _ (observedPaths_length evidence)
    implementationLanguages := languages }

/-- A profile depends only on the files seen, and it is stored exactly where the languages' census fits. -/
theorem profile_settled_iff (evidence : RepositoryEvidence) :
    Settled toLowerCase evidence ↔ languagesLength toLowerCase evidence ≤ 250 := by
  constructor
  · intro settled
    exact (deriveProjectProfile_fits_iff evidence noManifests).mp (settled.fits noManifests)
  · intro short
    exact {
      classified := fun other alike => profileStack_congr alike
      derived := fun other alike manifests => deriveProjectProfile_congr alike manifests
      fits := fun manifests => (deriveProjectProfile_fits_iff evidence manifests).mpr short }

/-- A repository with one file in each of thirty-three languages. -/
def manyLanguages : RepositoryEvidence where
  rootEntries := [".asm", ".clj", ".coffee", ".cr", ".cs", ".dart", ".ex", ".erl", ".f90", ".fs", ".gd", ".groovy",
    ".hs", ".html", ".java", ".js", ".kt", ".m", ".pas", ".proto", ".py", ".rb", ".rkt", ".rs", ".scala", ".scm",
    ".sh", ".sol", ".svelte", ".swift", ".tf", ".ts", ".vb"].map fun extension => js "main" ++ js extension
  files := none
  truncated := false
  bounded := by decide

/-- Their census takes more than the evidence of a leaf may. -/
theorem manyLanguages_unsettled : ¬ Settled asciiLowerCase.toLowerCase manyLanguages := by
  intro settled
  have short := (deriveProjectProfile_fits_iff manyLanguages noManifests).mp (settled.fits noManifests)
  have written : writtenLanguages asciiLowerCase.toLowerCase manyLanguages =
      [.assembly, .clojure, .coffeescript, .crystal, .csharp, .dart, .elixir, .erlang, .fortran, .fsharp, .gdscript,
       .groovy, .haskell, .html, .java, .javascript, .kotlin, .objectiveC, .pascal, .protobuf, .python, .ruby, .racket,
       .rust, .scala, .scheme, .shell, .solidity, .svelte, .swift, .terraform, .typescript, .visualbasic] := by
    decide +kernel
  have long : languagesLength asciiLowerCase.toLowerCase manyLanguages = 257 := by
    rw [languagesLength, written]
    decide +kernel
  omega

end Storage

end Kratos.Initialization.DeriveStorage
