/- source: domain/init/stack.ts, domain/init/derive.ts
   digest: The profile depends only on which names were seen outside excluded directories. -/

import Kratos.Initialization.Derive

set_option autoImplicit false

namespace Kratos.Initialization.DeriveOrder

open Foundation.FirstBest Foundation.Paths Foundation.Ranking Foundation.Sorting Foundation.Text
open Schema Initialization

section Orders

instance : Std.Total TextOrdered := ⟨notAfter_total⟩

instance : IsTrans JsString TextOrdered := ⟨fun _ _ _ => notAfter_trans⟩

instance : Std.Antisymm TextOrdered := ⟨fun _ _ => notAfter_antisymm⟩

theorem textOrder_consistent : Consistent textOrder :=
  ⟨fun _ _ _ => notAfter_trans, fun left right => by simpa using notAfter_total left right⟩

theorem sortedUnique_congr {left right : List JsString} (same : ∀ text, text ∈ left ↔ text ∈ right) :
    sortedUnique TextOrdered left = sortedUnique TextOrdered right := by
  have perm : (sortedUnique TextOrdered left).Perm (sortedUnique TextOrdered right) :=
    (List.perm_ext_iff_of_nodup (nodup_sortedUnique left) (nodup_sortedUnique right)).mpr fun text => by
      rw [mem_sortedUnique, mem_sortedUnique, same]
  have first : (sortedUnique TextOrdered left).Pairwise TextOrdered := pairwise_sortedUnique left
  have second : (sortedUnique TextOrdered right).Pairwise TextOrdered := pairwise_sortedUnique right
  exact perm.eq_of_pairwise (fun _ _ _ _ => notAfter_antisymm) first second

end Orders

section Exclusion

variable {entry : JsString}

/-- A directory on the way to the entry is excluded. -/
def UnderExcluded (entry : JsString) : Prop := ∃ directory ∈ (segments entry).dropLast, isExcluded directory = true

/-- The same names were seen outside excluded directories, in any order and number. -/
structure Alike (left right : RepositoryEvidence) : Prop where
  rootEntries : ∀ entry, ¬ UnderExcluded entry → (entry ∈ left.rootEntries ↔ entry ∈ right.rootEntries)
  files : ∀ entry, ¬ UnderExcluded entry → (entry ∈ left.files.getD [] ↔ entry ∈ right.files.getD [])
  truncated : left.truncated = right.truncated

theorem normalize_underExcluded (under : UnderExcluded entry) : normalize entry = none := by
  obtain ⟨directory, inside, excluded⟩ := under
  have caught : ∀ trimmed : JsString, directory ∈ (segments trimmed).dropLast →
      (segments trimmed).dropLast.any isExcluded = true := fun trimmed member =>
    List.any_eq_true.mpr ⟨directory, member, excluded⟩
  have trimmed : (segments (if startsWith entry (js "./") then entry.drop 2 else entry)).dropLast.any
      isExcluded = true := by
    split
    · rename_i dotted
      obtain ⟨rest, rfl⟩ := (startsWith_iff _ _).mp dotted
      have split : segments (js "./" ++ rest) = js "." :: segments rest := segments_append (js ".") rest
      rw [split, List.dropLast_cons_of_ne_nil (segments_ne_nil rest)] at inside
      rcases List.mem_cons.mp inside with rfl | later
      · exact absurd excluded (by decide)
      · exact caught rest later
    · exact caught entry inside
  rw [normalize]
  simp only [trimmed, if_true, ite_self]

theorem not_underExcluded (plain : unit '/' ∉ entry) : ¬ UnderExcluded entry := by
  rintro ⟨directory, inside, -⟩
  rw [segments, List.splitOn_eq_singleton plain] at inside
  exact absurd inside List.not_mem_nil

end Exclusion

section Classification

variable {toLowerCase : JsString → JsString} {left right : RepositoryEvidence}

theorem Alike.normalized (alike : Alike left right) (path : JsString) :
    path ∈ (left.rootEntries ++ left.files.getD []).filterMap normalize ↔
      path ∈ (right.rootEntries ++ right.files.getD []).filterMap normalize := by
  have among : ∀ entry, normalize entry = some path →
      (entry ∈ left.rootEntries ++ left.files.getD [] ↔ entry ∈ right.rootEntries ++ right.files.getD []) := by
    intro entry kept
    have free : ¬ UnderExcluded entry := fun under => by
      rw [normalize_underExcluded under] at kept
      cases kept
    rw [List.mem_append, List.mem_append, alike.rootEntries entry free, alike.files entry free]
  simp only [List.mem_filterMap]
  constructor
  · rintro ⟨entry, member, kept⟩
    exact ⟨entry, (among entry kept).mp member, kept⟩
  · rintro ⟨entry, member, kept⟩
    exact ⟨entry, (among entry kept).mpr member, kept⟩

theorem observedPaths_congr (alike : Alike left right) : observedPaths left = observedPaths right :=
  sortedUnique_congr alike.normalized

theorem profileStack_congr (alike : Alike left right) :
    profileStack toLowerCase left = profileStack toLowerCase right := by
  have entries : ∀ text, text ∈ left.rootEntries.filter (fun entry => (normalize entry).isSome) ↔
      text ∈ right.rootEntries.filter (fun entry => (normalize entry).isSome) := by
    intro text
    rw [List.mem_filter, List.mem_filter]
    refine and_congr_left fun kept => alike.rootEntries text fun under => ?_
    rw [normalize_underExcluded under] at kept
    cases kept
  unfold profileStack observedEvidence
  rw [observedPaths_congr alike, sortedUnique_congr entries, alike.truncated]

theorem Alike.plain (alike : Alike left right) {name : JsString} (plain : unit '/' ∉ name) :
    name ∈ left.rootEntries ↔ name ∈ right.rootEntries :=
  alike.rootEntries name (not_underExcluded plain)

theorem packageManagerOf_congr (alike : Alike left right)
    (parsed : List (JsString × Kratos.Foundation.JsonText.Json)) :
    packageManagerOf parsed left.rootEntries = packageManagerOf parsed right.rootEntries := by
  have files : ∀ entry ∈ PACKAGE_MANAGER_LOCKFILES,
      left.rootEntries.contains (js entry.1) = right.rootEntries.contains (js entry.1) := by
    intro entry member
    have plain : (PACKAGE_MANAGER_LOCKFILES.all fun entry => !(js entry.1).contains (unit '/')) = true := by decide
    have apart := List.all_eq_true.mp plain entry member
    rw [Bool.eq_iff_iff, List.contains_iff_mem, List.contains_iff_mem]
    exact alike.plain (by simpa using apart)
  have present : lockfileManager left.rootEntries = lockfileManager right.rootEntries := by
    unfold lockfileManager
    rw [List.filter_congr files]
  unfold packageManagerOf
  rw [present]

theorem deriveCommands_congr (alike : Alike left right) (stack : StackProfile) (manifests : ManifestContents) :
    deriveCommands stack manifests left.rootEntries = deriveCommands stack manifests right.rootEntries := by
  have declared : (fun content => derivePackageJsonCommands content left.rootEntries) =
      fun content => derivePackageJsonCommands content right.rootEntries := by
    funext content commands
    unfold derivePackageJsonCommands
    simp only [packageManagerOf_congr alike]
  unfold deriveCommands
  rw [declared]

end Classification

section Candidates

variable {layout : ObservedLayout} {candidates : List String}

def candidateOf (layout : ObservedLayout) (candidates : List String) (path : JsString) : Option DirectoryCandidate :=
  (candidates.findIdx? fun name => js name == basenameOf path).map fun rank =>
    { path, rank, root := !path.contains (unit '/'), depth := depthOf path, files := layout.census path }

theorem candidateOf_path {path : JsString} {candidate : DirectoryCandidate}
    (found : candidateOf layout candidates path = some candidate) : candidate.path = path := by
  obtain ⟨rank, -, rfl⟩ := Option.map_eq_some_iff.mp found
  rfl

/-- Each candidate is what its path makes it, and no path stands twice. -/
structure Gathered (layout : ObservedLayout) (candidates : List String) (paths : List JsString)
    (found : List DirectoryCandidate) : Prop where
  distinct : (found.map DirectoryCandidate.path).Nodup
  members : ∀ candidate, candidate ∈ found ↔ ∃ path ∈ paths, candidateOf layout candidates path = some candidate

theorem consider_gathered {paths : List JsString} {found : List DirectoryCandidate} {place : JsString × Bool}
    (gathered : Gathered layout candidates paths found) (root : place.2 = !place.1.contains (unit '/')) :
    Gathered layout candidates (paths ++ [place.1]) (consider layout candidates found place) := by
  have split : ∀ candidate, (∃ path ∈ paths ++ [place.1], candidateOf layout candidates path = some candidate) ↔
      candidate ∈ found ∨ candidateOf layout candidates place.1 = some candidate := by
    intro candidate
    simp only [List.mem_append, List.mem_singleton, or_and_right, exists_or, exists_eq_left, gathered.members]
  rw [consider]
  cases rank : candidates.findIdx? fun name => js name == basenameOf place.1 with
  | none =>
      have nothing : candidateOf layout candidates place.1 = none := by rw [candidateOf, rank]; rfl
      exact ⟨gathered.distinct, fun candidate => by rw [split, nothing]; simp⟩
  | some rank' =>
      have fresh : candidateOf layout candidates place.1 = some
          { path := place.1, rank := rank', root := place.2, depth := depthOf place.1,
            files := layout.census place.1 } := by
        rw [candidateOf, rank, root]
        rfl
      dsimp only
      split
      · rename_i present
        obtain ⟨other, member, same⟩ := List.any_eq_true.mp present
        obtain ⟨path, -, made⟩ := (gathered.members other).mp member
        have here : candidateOf layout candidates place.1 = some other := by
          rw [← eq_of_beq same, candidateOf_path made, made]
        refine ⟨gathered.distinct, fun candidate => ?_⟩
        rw [split, here]
        refine ⟨.inl, fun either => either.elim id fun same => ?_⟩
        exact Option.some.inj same ▸ member
      · rename_i absent
        have apart : ∀ other ∈ found, other.path ≠ place.1 := fun other member same =>
          absent (List.any_eq_true.mpr ⟨other, member, by rw [same]; exact beq_self_eq_true _⟩)
        constructor
        · rw [List.map_append, List.map_singleton]
          refine List.nodup_append.mpr ⟨gathered.distinct, List.nodup_singleton _, fun path member last ends same => ?_⟩
          obtain ⟨other, inside, rfl⟩ := List.mem_map.mp member
          exact apart other inside (same.trans (List.mem_singleton.mp ends))
        · intro candidate
          rw [split, fresh, List.mem_append, List.mem_singleton, Option.some.injEq, eq_comm]

theorem foldl_gathered {places : List (JsString × Bool)}
    (roots : ∀ place ∈ places, place.2 = !place.1.contains (unit '/')) {paths : List JsString}
    {found : List DirectoryCandidate} (gathered : Gathered layout candidates paths found) :
    Gathered layout candidates (paths ++ places.map Prod.fst) (places.foldl (consider layout candidates) found) := by
  induction places generalizing paths found with
  | nil => simpa using gathered
  | cons place rest ih =>
      obtain ⟨root, others⟩ := List.forall_mem_cons.mp roots
      have later := ih others (consider_gathered gathered root)
      rwa [List.append_assoc] at later

def PlainNames (candidates : List String) : Prop := (candidates.all fun name => !(js name).contains (unit '/')) = true

theorem candidateDirectories_gathered (layout : ObservedLayout) (rootEntries : List JsString)
    (plain : PlainNames candidates) :
    Gathered layout candidates
      ((rootEntries.filter fun entry => candidates.any fun name => js name == entry) ++ layout.directories)
      (candidateDirectories rootEntries layout candidates) := by
  have nothing : Gathered layout candidates [] [] := ⟨List.nodup_nil, fun candidate => by simp⟩
  have roots : ∀ place ∈ (rootEntries.filter fun entry => candidates.any fun name => js name == entry).map
        (fun entry => (entry, true)) ++
      layout.directories.map fun directory => (directory, !directory.contains (unit '/')),
      place.2 = !place.1.contains (unit '/') := by
    intro place member
    rcases List.mem_append.mp member with early | late
    · obtain ⟨entry, inside, rfl⟩ := List.mem_map.mp early
      obtain ⟨name, listed, same⟩ := List.any_eq_true.mp (List.mem_filter.mp inside).2
      have apart := List.all_eq_true.mp plain name listed
      rw [eq_of_beq same] at apart
      exact apart.symm
    · obtain ⟨directory, -, rfl⟩ := List.mem_map.mp late
      rfl
  have gathered := foldl_gathered roots nothing
  simp only [List.map_append, List.map_map, Function.comp_def, List.map_id', List.nil_append] at gathered
  exact gathered

theorem candidateDirectories_perm (layout : ObservedLayout) {left right : RepositoryEvidence}
    (alike : Alike left right) (plain : PlainNames candidates) :
    (candidateDirectories left.rootEntries layout candidates).Perm
      (candidateDirectories right.rootEntries layout candidates) := by
  have first := candidateDirectories_gathered layout left.rootEntries plain
  have second := candidateDirectories_gathered layout right.rootEntries plain
  have entries : ∀ path, path ∈ left.rootEntries.filter (fun entry => candidates.any fun name => js name == entry) ↔
      path ∈ right.rootEntries.filter (fun entry => candidates.any fun name => js name == entry) := by
    intro path
    rw [List.mem_filter, List.mem_filter]
    refine and_congr_left fun listed => alike.plain ?_
    obtain ⟨name, member, same⟩ := List.any_eq_true.mp listed
    have apart := List.all_eq_true.mp plain name member
    rw [eq_of_beq same] at apart
    simpa using apart
  refine (List.perm_ext_iff_of_nodup first.distinct.of_map second.distinct.of_map).mpr fun candidate => ?_
  simp only [first.members, second.members, List.mem_append, entries]

end Candidates

section Ranking

variable {candidates left right : List DirectoryCandidate}

theorem byRank_consistent : Consistent byRank :=
  chained_consistent (onKey_consistent nat_consistent _)
    (chained_consistent (onKey_consistent nat_consistent _) (onKey_consistent textOrder_consistent _))

theorem byCensus_consistent : Consistent byCensus :=
  chained_consistent (onKey_consistent nat_consistent_down _)
    (chained_consistent (onKey_consistent nat_consistent _) (onKey_consistent textOrder_consistent _))

theorem path_of_tie {files : DirectoryCandidate → DirectoryCandidate → Bool}
    {depth : DirectoryCandidate → DirectoryCandidate → Bool} {a b : DirectoryCandidate}
    (forward : chained files (chained depth (onKey DirectoryCandidate.path textOrder)) a b = true)
    (backward : chained files (chained depth (onKey DirectoryCandidate.path textOrder)) b a = true) :
    a.path = b.path := by
  obtain ⟨-, one, two⟩ := chained_antisymm forward backward
  obtain ⟨-, before, behind⟩ := chained_antisymm one two
  exact notAfter_antisymm before behind

theorem mostFiles_perm (same : left.Perm right) : mostFiles left = mostFiles right :=
  same.foldl_eq' (fun one _ other _ most => by omega) 0

theorem rankCandidates_perm (same : left.Perm right) (distinct : (left.map DirectoryCandidate.path).Nodup) :
    rankCandidates left = rankCandidates right := by
  have one : ∀ a ∈ left, ∀ b ∈ left, a.path = b.path → a = b := fun a inA b inB =>
    List.inj_on_of_nodup_map distinct inA inB
  unfold rankCandidates
  simp only [mostFiles_perm same]
  split
  · rw [mergeSort_eq_of_perm byRank_consistent same
      fun a inA b inB forward backward => one a inA b inB (path_of_tie forward backward)]
  · rw [mergeSort_eq_of_perm byCensus_consistent (same.filter _)
      fun a inA b inB forward backward =>
        one a (List.mem_of_mem_filter inA) b (List.mem_of_mem_filter inB) (path_of_tie forward backward)]

theorem withoutEnclosed_perm (same : left.Perm right) : (withoutEnclosed left).Perm (withoutEnclosed right) := by
  have enclosed : ∀ path, (left.any fun other => isParent other.path path) =
      right.any fun other => isParent other.path path := fun path => same.any_eq
  unfold withoutEnclosed
  simp only [enclosed]
  exact same.filter _

end Ranking

section Profiles

variable {toLowerCase : JsString → JsString} {left right : RepositoryEvidence} {layout : ObservedLayout}

theorem derivePathSlot_congr (alike : Alike left right) {candidates : List String} (plain : PlainNames candidates)
    (notBelow : List String) :
    derivePathSlot left.rootEntries layout candidates notBelow =
      derivePathSlot right.rootEntries layout candidates notBelow := by
  have perm := (candidateDirectories_perm layout alike plain).filter
    fun candidate => !sitsBelow candidate.path notBelow
  have distinct := (candidateDirectories_gathered layout left.rootEntries plain).distinct
  have ranked : rankCandidates (withoutEnclosed ((candidateDirectories left.rootEntries layout candidates).filter
        fun candidate => !sitsBelow candidate.path notBelow)) =
      rankCandidates (withoutEnclosed ((candidateDirectories right.rootEntries layout candidates).filter
        fun candidate => !sitsBelow candidate.path notBelow)) :=
    rankCandidates_perm (withoutEnclosed_perm perm)
      (distinct.sublist ((List.filter_sublist.trans List.filter_sublist).map _))
  have empty := perm.isEmpty_eq
  unfold derivePathSlot
  simp only [ranked, empty]

theorem plainNames_source : PlainNames SOURCE_PATH_CANDIDATES := by
  unfold PlainNames
  decide

theorem plainNames_tests : PlainNames TESTS_PATH_CANDIDATES := by
  unfold PlainNames
  decide

theorem plainNames_configuration : PlainNames CONFIG_PATH_CANDIDATES := by
  unfold PlainNames
  decide

theorem derivePaths_congr (alike : Alike left right) :
    derivePaths left.rootEntries layout = derivePaths right.rootEntries layout := by
  unfold derivePaths
  rw [derivePathSlot_congr alike plainNames_source, derivePathSlot_congr alike plainNames_tests,
    derivePathSlot_congr alike plainNames_configuration]

/-- The derived profile depends only on the names seen outside excluded directories. -/
theorem deriveProjectProfile_congr (alike : Alike left right) (manifests : ManifestContents) :
    deriveProjectProfile toLowerCase left manifests = deriveProjectProfile toLowerCase right manifests := by
  unfold deriveProjectProfile
  simp only [profileStack_congr alike, observedPaths_congr alike, deriveCommands_congr alike,
    derivePaths_congr alike]

end Profiles

end Kratos.Initialization.DeriveOrder
