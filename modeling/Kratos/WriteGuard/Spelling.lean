/- source: domain/paths/canonicalize.ts
   digest: Which spellings of a target agree, and what every accepted spelling stands for. -/

import Kratos.WriteGuard.Inspection

set_option autoImplicit false

namespace Kratos.WriteGuard

open Foundation.Text Foundation.Paths Foundation.PathWalk
open Patterns (hasControlCharacters)
open Transactions

section Spelling

/-- A spelling the guard can inspect: not empty, no backslash and no control character. -/
structure Inspectable (target : JsString) : Prop where
  filled : target ≠ []
  slashed : unit '\\' ∉ target
  visible : hasControlCharacters target = false

/-- A spelling that begins like a drive letter or a URL scheme. -/
abbrev Schemed (target : JsString) : Prop := (driveLetterPattern target || urlSchemePattern target) = true

abbrev Absolute (target : JsString) : Prop := startsWith target (js "/") = true

/-- An initial run of the segments with more parents in it than names. -/
def Climbs (target : JsString) : Prop :=
  ∃ front, front <+: segments target ∧
    front.countP (fun part => decide (Kept part)) < front.count (js "..")

/-- Where a root leads, whatever its own spelling. -/
def placeOf (root : JsString) : List Name := collapse [] (stepsOf root)

/-- Both spellings are accepted with one result, or both are refused. -/
def Agree : CanonicalPathResult → CanonicalPathResult → Prop
  | .canonical one, .canonical two => one = two
  | .refused _ _, .refused _ _ => True
  | _, _ => False

end Spelling

section Refused

variable {root target path : JsString}

theorem refused_of_uninspectable (root : JsString) (other : ¬ Inspectable target) :
    canonicalizeProjectPathIn root target = .refused .targetUninspectable target := by
  rw [canonicalizeProjectPathIn]
  by_cases none : target = []
  · rw [if_pos none, none]
  · rw [if_neg none, if_pos]
    by_contra units
    rw [not_or, Bool.not_eq_true] at units
    exact other ⟨none, units.1, units.2⟩

theorem canonicalizeProjectPathIn_accepted
    (accepted : canonicalizeProjectPathIn root target = .canonical path) : Inspectable target := by
  by_contra other
  rw [refused_of_uninspectable root other] at accepted
  cases accepted

/-- A path that begins with the separator begins with no drive letter and no scheme. -/
theorem Absolute.not_schemed (absolute : Absolute target) : ¬ Schemed target := by
  obtain ⟨rest, rfl⟩ := (startsWith_iff target (js "/")).mp absolute
  rw [Schemed]
  have letter : driveLetterPattern (js "/" ++ rest) = false := by cases rest <;> rfl
  have scheme : urlSchemePattern (js "/" ++ rest) = false := rfl
  rw [letter, scheme]
  exact Bool.false_ne_true

end Refused

section AbsoluteTarget

variable {root names : List Name} {target : JsString}

theorem canonicalizeProjectPathIn_root (root target : JsString) :
    canonicalizeProjectPathIn root target =
      canonicalizeProjectPathIn (absolutePath (placeOf root)) target := by
  have normal : normalizeAbsoluteSegments root =
      normalizeAbsoluteSegments (absolutePath (placeOf root)) := by
    rw [normalizeAbsoluteSegments_eq, normalizeAbsoluteSegments_eq, collapse_absolutePath, placeOf]
  rw [canonicalizeProjectPathIn, canonicalizeProjectPathIn, normal]

private theorem absolute_eq (inspectable : Inspectable target) (absolute : Absolute target)
    (root : List Name) :
    canonicalizeProjectPathIn (absolutePath root) target =
      let reached := absolutePath (resolve root target)
      if reached = absolutePath root then .canonical []
      else
        let rootPrefix := if absolutePath root = js "/" then js "/" else absolutePath root ++ js "/"
        if startsWith reached rootPrefix then .canonical (reached.drop rootPrefix.length)
        else .refused .pathEscape reached := by
  have clean : ¬(unit '\\' ∈ target ∨ hasControlCharacters target = true) := by
    rw [not_or, Bool.not_eq_true]
    exact ⟨inspectable.slashed, inspectable.visible⟩
  rw [canonicalizeProjectPathIn, if_neg inspectable.filled, if_neg clean,
    if_neg absolute.not_schemed, if_pos absolute, resolve, startOf, if_pos absolute]
  simp only [normalizeAbsoluteSegments_eq, collapse_absolutePath]

theorem absolute_below (inspectable : Inspectable target) (absolute : Absolute target)
    (below : resolve root target = root ++ names) :
    canonicalizeProjectPathIn (absolutePath root) target = .canonical (namesPath names) := by
  rw [absolute_eq inspectable absolute, below]
  cases names with
  | nil =>
      rw [List.append_nil]
      exact if_pos rfl
  | cons first rest =>
      have apart : ¬ absolutePath (root ++ first :: rest) = absolutePath root := by
        intro same
        have lengths := congrArg List.length (absolutePath_injective same)
        rw [List.length_append, List.length_cons] at lengths
        omega
      simp only [if_neg apart]
      by_cases top : root = []
      · subst top
        have whole : startsWith (absolutePath (first :: rest)) (js "/") = true :=
          startsWith_append _ _
        rw [if_pos (show absolutePath [] = js "/" from rfl), List.nil_append, if_pos whole]
        rfl
      · have deep : ¬ absolutePath root = js "/" := fun root => top (absolutePath_injective root)
        rw [if_neg deep, absolutePath_append top (List.cons_ne_nil _ _),
          if_pos (startsWith_append _ _), List.drop_left]

theorem absolute_outside (inspectable : Inspectable target) (absolute : Absolute target)
    (outside : ∀ names, resolve root target ≠ root ++ names) :
    canonicalizeProjectPathIn (absolutePath root) target =
      .refused .pathEscape (absolutePath (resolve root target)) := by
  have apart : ¬ absolutePath (resolve root target) = absolutePath root := by
    intro same
    exact outside [] (by rw [absolutePath_injective same, List.append_nil])
  have top : root ≠ [] := fun top => outside (resolve root target) (by rw [top, List.nil_append])
  have deep : ¬ absolutePath root = js "/" := fun root => top (absolutePath_injective root)
  have above : ¬ startsWith (absolutePath (resolve root target)) (absolutePath root ++ js "/") = true := by
    intro under
    obtain ⟨names, -, shape⟩ := absolutePath_below top under
    exact outside names shape
  rw [absolute_eq inspectable absolute]
  simp only [if_neg apart, if_neg deep, if_neg above]

end AbsoluteTarget

section RelativeTarget

private theorem escaped_mono (parts : List JsString) (state : List JsString × Nat) :
    state.2 ≤ (parts.foldl pushSegment state).2 := by
  induction parts generalizing state with
  | nil => exact Nat.le_refl _
  | cons part rest ih =>
      have grown : state.2 ≤ (pushSegment state part).2 := by
        unfold pushSegment
        split
        · exact Nat.le_refl _
        · split
          · split
            · exact Nat.le_succ _
            · exact Nat.le_refl _
          · exact Nat.le_refl _
      exact grown.trans (ih _)

private theorem cons_run_iff {part : JsString} {rest : List JsString} {depth : Nat}
    {kept parents : List JsString → Nat} (none : ¬ depth + kept [] < parents []) :
    (∃ front, front <+: part :: rest ∧ depth + kept front < parents front) ↔
      ∃ front, front <+: rest ∧ depth + kept (part :: front) < parents (part :: front) := by
  constructor
  · rintro ⟨front, run, more⟩
    cases front with
    | nil => exact absurd more none
    | cons first front =>
        obtain ⟨rfl, inside⟩ := List.cons_prefix_cons.mp run
        exact ⟨front, inside, more⟩
  · rintro ⟨front, run, more⟩
    exact ⟨part :: front, List.cons_prefix_cons.mpr ⟨rfl, run⟩, more⟩

private theorem escaped_iff (parts stack : List JsString) (escaped : Nat) :
    escaped < (parts.foldl pushSegment (stack, escaped)).2 ↔
      ∃ front, front <+: parts ∧
        stack.length + front.countP (fun part => decide (Kept part)) < front.count (js "..") := by
  induction parts generalizing stack escaped with
  | nil =>
      constructor
      · intro less
        exact absurd less (Nat.lt_irrefl _)
      · rintro ⟨front, run, more⟩
        rw [List.prefix_nil.mp run] at more
        exact absurd more (Nat.not_lt_zero _)
  | cons part rest ih =>
      rw [@cons_run_iff part rest stack.length (fun front => front.countP fun part => decide (Kept part))
        (fun front => front.count (js "..")) (Nat.not_lt_zero _), List.foldl_cons]
      simp only [List.countP_cons, List.count_cons, decide_eq_true_eq, beq_iff_eq]
      by_cases kept : Kept part
      · have pushed : pushSegment (stack, escaped) part = (stack ++ [part], escaped) := by
          rw [pushSegment, if_neg (not_or.mpr ⟨kept.1, kept.2.1⟩), if_neg kept.2.2]
        rw [pushed, ih]
        simp only [if_pos kept, if_neg kept.2.2, List.length_append, List.length_singleton]
        constructor <;> rintro ⟨front, run, more⟩ <;> exact ⟨front, run, by omega⟩
      · simp only [if_neg kept]
        by_cases parent : part = js ".."
        · subst parent
          have named : ¬(js ".." = [] ∨ js ".." = js ".") := by decide
          simp only [if_true]
          cases stack with
          | nil =>
              have pushed : pushSegment ([], escaped) (js "..") = ([], escaped + 1) := by
                rw [pushSegment, if_neg named, if_pos rfl, if_pos rfl]
              rw [pushed]
              constructor
              · intro _
                exact ⟨[], List.nil_prefix, by simp⟩
              · intro _
                exact escaped_mono rest ([], escaped + 1)
          | cons first others =>
              have pushed : pushSegment (first :: others, escaped) (js "..") =
                  ((first :: others).dropLast, escaped) := by
                rw [pushSegment, if_neg named, if_pos rfl, if_neg (List.cons_ne_nil _ _)]
              rw [pushed, ih, List.length_dropLast, List.length_cons]
              constructor <;> rintro ⟨front, run, more⟩ <;> exact ⟨front, run, by omega⟩
        · have dropped : part = [] ∨ part = js "." := by
            by_contra other
            rw [not_or] at other
            exact kept ⟨other.1, other.2, parent⟩
          have pushed : pushSegment (stack, escaped) part = (stack, escaped) := by
            rw [pushSegment, if_pos dropped]
          rw [pushed, ih]
          simp only [if_neg parent, Nat.add_zero]

variable {target : JsString}

private theorem climbs_iff :
    Climbs target ↔ 0 < ((segments target).foldl pushSegment ([], 0)).2 := by
  rw [escaped_iff, Climbs]
  simp only [List.length_nil, Nat.zero_add]

private theorem relative_eq (inspectable : Inspectable target) (relative : ¬ Absolute target)
    (plain : ¬ Schemed target) (base : JsString) :
    canonicalizeProjectPathIn base target = canonicalizeProjectPath target ∧
      canonicalizeProjectPath target =
        let (stack, escapedParents) := (segments target).foldl pushSegment ([], 0)
        if escapedParents > 0 then
          let parentPrefix := joinSegments (List.replicate escapedParents (js ".."))
          .refused .pathEscape
            (if stack ≠ [] then parentPrefix ++ js "/" ++ joinSegments stack else parentPrefix)
        else .canonical (joinSegments stack) := by
  have clean : ¬(unit '\\' ∈ target ∨ hasControlCharacters target = true) := by
    rw [not_or, Bool.not_eq_true]
    exact ⟨inspectable.slashed, inspectable.visible⟩
  constructor
  · rw [canonicalizeProjectPathIn, if_neg inspectable.filled, if_neg clean, if_neg plain,
      if_neg relative]
  · rw [canonicalizeProjectPath, if_neg inspectable.filled, if_neg clean, if_neg plain,
      if_neg relative]

/-- A relative spelling that does not climb is accepted with the names it leads to. -/
theorem relative_stays (inspectable : Inspectable target) (relative : ¬ Absolute target)
    (plain : ¬ Schemed target) (stays : ¬ Climbs target) (base : JsString) (root : List Name) :
    canonicalizeProjectPathIn base target = .canonical (namesPath (placeOf target)) ∧
      canonicalizeProjectPath target = .canonical (namesPath (placeOf target)) ∧
      resolve root target = root ++ placeOf target := by
  have separated : ∀ part ∈ segments target, unit '/' ∉ part := fun _ => segments_plain
  obtain ⟨more, folded, based⟩ := foldl_pushSegment separated [] 0
  rw [List.map_nil] at folded
  rw [climbs_iff, folded] at stays
  have none : more = 0 := by omega
  obtain ⟨same, shown⟩ := relative_eq inspectable relative plain base
  have accepted : canonicalizeProjectPath target = .canonical (namesPath (placeOf target)) := by
    rw [shown]
    simp only [folded, none, Nat.add_zero, Nat.lt_irrefl, if_false]
    rfl
  refine ⟨same.trans accepted, accepted, ?_⟩
  have stayed := based none root
  rw [List.append_nil] at stayed
  rw [resolve, startOf, if_neg relative]
  exact stayed

theorem relative_climbs (inspectable : Inspectable target) (relative : ¬ Absolute target)
    (plain : ¬ Schemed target) (climbs : Climbs target) (base : JsString) :
    ∃ resolvedPath, canonicalizeProjectPathIn base target = .refused .pathEscape resolvedPath := by
  obtain ⟨same, shown⟩ := relative_eq inspectable relative plain base
  rw [climbs_iff] at climbs
  rw [same, shown]
  simp only [if_pos climbs]
  exact ⟨_, rfl⟩

end RelativeTarget

section Accepted

variable {base target path : JsString}

theorem canonicalizeProjectPath_in (accepted : canonicalizeProjectPath target = .canonical path)
    (base : JsString) : canonicalizeProjectPathIn base target = .canonical path := by
  have whole := accepted
  rw [canonicalizeProjectPath] at whole
  split at whole
  · cases whole
  rename_i filled
  split at whole
  · cases whole
  rename_i clean
  split at whole
  · cases whole
  rename_i plain
  split at whole
  · cases whole
  rename_i relative
  rw [canonicalizeProjectPathIn, if_neg filled, if_neg clean, if_neg plain, if_neg relative]
  exact accepted

private theorem text_mem_segments {name : Name} (member : name ∈ placeOf path) :
    name.text ∈ segments path := by
  rcases mem_collapse member with none | step
  · exact absurd none List.not_mem_nil
  · obtain ⟨part, inside, stepped⟩ := List.mem_map.mp step
    rw [stepOf] at stepped
    split at stepped
    · rw [← Step.name.inj stepped]
      exact inside
    · split at stepped <;> cases stepped

private theorem inspectable_iff :
    Inspectable target ↔ target ≠ [] ∧ ∀ u ∈ target, u ≠ unit '\\' ∧ isControl u = false := by
  constructor
  · intro inspectable
    refine ⟨inspectable.filled, fun u member => ⟨?_, ?_⟩⟩
    · rintro rfl
      exact inspectable.slashed member
    · have visible := inspectable.visible
      rw [hasControlCharacters, List.any_eq_false] at visible
      exact Bool.eq_false_iff.mpr (visible u member)
  · rintro ⟨filled, units⟩
    refine ⟨filled, fun slash => (units _ slash).1 rfl, ?_⟩
    rw [hasControlCharacters, List.any_eq_false]
    intro u member
    rw [(units u member).2]
    exact Bool.false_ne_true

private theorem namesPath_inspectable {names : List Name} (inspectable : Inspectable target)
    (filled : names ≠ []) (named : ∀ name ∈ names, name.text ∈ segments target) :
    Inspectable (namesPath names) := by
  rw [inspectable_iff] at inspectable ⊢
  constructor
  · intro none
    have parts := segments_namesPath filled
    rw [none] at parts
    obtain ⟨first, rest, rfl⟩ := List.exists_cons_of_ne_nil filled
    exact first.kept.1 (List.cons.inj parts).1.symm
  · intro u member
    rcases mem_joinSegments member with rfl | ⟨part, inside, own⟩
    · decide
    · obtain ⟨name, among, rfl⟩ := List.mem_map.mp inside
      exact inspectable.2 u (mem_of_mem_segments (named name among) own)

private theorem accepted_not_schemed
    (accepted : canonicalizeProjectPathIn base target = .canonical path) : ¬ Schemed target := by
  intro schemed
  rw [canonicalizeProjectPathIn] at accepted
  split at accepted
  · cases accepted
  split at accepted <;> cases accepted

/-- An accepted spelling leads to the names it is accepted as, below the root. -/
theorem canonicalizeProjectPathIn_names
    (accepted : canonicalizeProjectPathIn base target = .canonical path) :
    ∃ names, resolve (placeOf base) target = placeOf base ++ names ∧ path = namesPath names ∧
      ∀ name ∈ names, name.text ∈ segments target := by
  have inspectable := canonicalizeProjectPathIn_accepted accepted
  have plain := accepted_not_schemed accepted
  by_cases absolute : Absolute target
  · rw [canonicalizeProjectPathIn_root] at accepted
    by_cases below : ∃ names, resolve (placeOf base) target = placeOf base ++ names
    · obtain ⟨names, reached⟩ := below
      rw [absolute_below inspectable absolute reached] at accepted
      refine ⟨names, reached, (CanonicalPathResult.canonical.inj accepted).symm, ?_⟩
      intro name member
      rw [resolve, startOf, if_pos absolute] at reached
      apply text_mem_segments
      rw [placeOf, reached]
      exact List.mem_append_right _ member
    · rw [absolute_outside inspectable absolute (not_exists.mp below)] at accepted
      cases accepted
  · by_cases climbs : Climbs target
    · obtain ⟨resolvedPath, refused⟩ := relative_climbs inspectable absolute plain climbs base
      rw [refused] at accepted
      cases accepted
    · obtain ⟨same, -, reached⟩ :=
        relative_stays inspectable absolute plain climbs base (placeOf base)
      rw [same] at accepted
      exact ⟨placeOf target, reached, (CanonicalPathResult.canonical.inj accepted).symm,
        fun name member => text_mem_segments member⟩

private theorem namesPath_relative {names : List Name} (filled : names ≠ []) :
    ¬ Absolute (namesPath names) := by
  intro absolute
  obtain ⟨rest, shape⟩ := (startsWith_iff _ _).mp absolute
  have parts := segments_namesPath filled
  have split := segments_append [] rest
  rw [List.nil_append, ← shape, parts] at split
  obtain ⟨first, others, rfl⟩ := List.exists_cons_of_ne_nil filled
  exact first.kept.1 (List.cons.inj split).1

private theorem namesPath_stays {names : List Name} (filled : names ≠ []) :
    ¬ Climbs (namesPath names) ∧ placeOf (namesPath names) = names := by
  have parts := segments_namesPath filled
  constructor
  · rintro ⟨front, run, more⟩
    have none : front.count (js "..") = 0 := by
      rw [List.count_eq_zero]
      intro parent
      rw [parts] at run
      exact (text_kept _ (run.subset parent)).2.2 rfl
    omega
  · rw [placeOf, stepsOf, parts, map_stepOf, collapse_down, List.nil_append]

/-- An accepted result is its own canonical form, unless it begins like a drive letter or a scheme. -/
theorem accepted_fixed (accepted : canonicalizeProjectPathIn base target = .canonical path)
    (filled : path ≠ []) (plain : ¬ Schemed path) :
    canonicalizeProjectPathIn base path = .canonical path ∧
      canonicalizeProjectPath path = .canonical path := by
  obtain ⟨names, -, rfl, own⟩ := canonicalizeProjectPathIn_names accepted
  have named : names ≠ [] := by
    rintro rfl
    exact filled rfl
  have inspectable :=
    namesPath_inspectable (canonicalizeProjectPathIn_accepted accepted) named own
  obtain ⟨stays, place⟩ := namesPath_stays named
  obtain ⟨within, alone, -⟩ :=
    relative_stays inspectable (namesPath_relative named) plain stays base []
  rw [place] at within alone
  exact ⟨within, alone⟩

end Accepted

section Joined

variable {root target : JsString}

private theorem placeOf_joined (root target : JsString) :
    placeOf (root ++ js "/" ++ target) = collapse (placeOf root) (stepsOf target) := by
  rw [placeOf, stepsOf, segments_append, List.map_append, collapse_append]
  rfl

private theorem inspectable_joined (rooted : Inspectable root) (filled : target ≠ []) :
    Inspectable (root ++ js "/" ++ target) ↔ Inspectable target := by
  rw [inspectable_iff] at rooted
  rw [inspectable_iff, inspectable_iff]
  constructor
  · rintro ⟨-, units⟩
    exact ⟨filled, fun u member => units u (List.mem_append_right _ member)⟩
  · rintro ⟨-, units⟩
    refine ⟨by simp [filled], ?_⟩
    intro u member
    rcases List.mem_append.mp member with front | own
    · rcases List.mem_append.mp front with base | slash
      · exact rooted.2 u base
      · rw [List.mem_singleton.mp slash]
        decide
    · exact units u own

/-- A relative spelling that does not climb agrees with its spelling behind the root. -/
theorem agree_joined (absolute : Absolute root) (rooted : Inspectable root) (filled : target ≠ [])
    (relative : ¬ Absolute target) (plain : ¬ Schemed target) (stays : ¬ Climbs target) :
    Agree (canonicalizeProjectPathIn root target)
      (canonicalizeProjectPathIn root (root ++ js "/" ++ target)) := by
  by_cases inspectable : Inspectable target
  · obtain ⟨same, -, reached⟩ := relative_stays inspectable relative plain stays root (placeOf root)
    have whole : Absolute (root ++ js "/" ++ target) := by
      obtain ⟨rest, rfl⟩ := (startsWith_iff _ _).mp absolute
      rw [Absolute, List.append_assoc, List.append_assoc]
      exact startsWith_append _ _
    have below : resolve (placeOf root) (root ++ js "/" ++ target) =
        placeOf root ++ placeOf target := by
      rw [resolve, startOf, if_neg relative] at reached
      rw [resolve, startOf, if_pos whole, ← placeOf, placeOf_joined, reached]
    rw [same, canonicalizeProjectPathIn_root root (root ++ js "/" ++ target),
      absolute_below ((inspectable_joined rooted filled).mpr inspectable) whole below]
    rfl
  · have other := fun whole => inspectable ((inspectable_joined rooted filled).mp whole)
    rw [refused_of_uninspectable root inspectable, refused_of_uninspectable root other]
    trivial

end Joined

section Canonical

/-- What canonicalising against a root promises of the spellings of a target. -/
structure Canonicalises (root : JsString) : Prop where
  joined : ∀ target, Absolute root → Inspectable root → target ≠ [] → ¬ Absolute target →
    ¬ Schemed target → ¬ Climbs target →
      Agree (canonicalizeProjectPathIn root target)
        (canonicalizeProjectPathIn root (root ++ js "/" ++ target))
  samePlace : ∀ relative absolute, Inspectable relative → Inspectable absolute →
    ¬ Absolute relative → Absolute absolute → ¬ Schemed relative → ¬ Climbs relative →
      resolve (placeOf root) relative = resolve (placeOf root) absolute →
        ∃ path, canonicalizeProjectPathIn root relative = .canonical path ∧
          canonicalizeProjectPathIn root absolute = .canonical path
  climbing : ∀ target, Inspectable target → ¬ Absolute target → ¬ Schemed target → Climbs target →
    ∃ resolvedPath, canonicalizeProjectPathIn root target = .refused .pathEscape resolvedPath
  placed : ∀ target path, Inspectable target → Absolute target →
    (canonicalizeProjectPathIn root target = .canonical path ↔
      ∃ names, resolve (placeOf root) target = placeOf root ++ names ∧ path = namesPath names)
  uninspectable : ∀ target, ¬ Inspectable target →
    canonicalizeProjectPathIn root target = .refused .targetUninspectable target
  rootless : ∀ target path, canonicalizeProjectPath target = .canonical path →
    canonicalizeProjectPathIn root target = .canonical path
  fixed : ∀ target path, canonicalizeProjectPathIn root target = .canonical path → path ≠ [] →
    ¬ Schemed path → canonicalizeProjectPathIn root path = .canonical path ∧
      canonicalizeProjectPath path = .canonical path
  kept : ∀ target path, canonicalizeProjectPathIn root target = .canonical path → path ≠ [] →
    ∀ segment ∈ segments path, segment ≠ [] ∧ segment ≠ js "." ∧ segment ≠ js ".."
  inside : ∀ target path, canonicalizeProjectPathIn root target = .canonical path → path ≠ [] →
    ∃ names, names ≠ [] ∧ resolve (placeOf root) path = placeOf root ++ names ∧
      resolve (placeOf root) target = placeOf root ++ names

/-- The spellings of a target agree where they do not climb, and what is accepted is canonical. -/
theorem canonicalizeProjectPath_canonicalises (root : JsString) : Canonicalises root where
  joined _ absolute rooted filled relative plain stays :=
    agree_joined absolute rooted filled relative plain stays
  samePlace relative absolute inspectable readable apart whole plain stays same := by
    obtain ⟨accepted, -, reached⟩ :=
      relative_stays inspectable apart plain stays root (placeOf root)
    refine ⟨_, accepted, ?_⟩
    rw [canonicalizeProjectPathIn_root]
    exact absolute_below readable whole (same.symm.trans reached)
  climbing _ inspectable relative plain climbs :=
    relative_climbs inspectable relative plain climbs root
  placed target path inspectable absolute := by
    constructor
    · intro accepted
      obtain ⟨names, reached, shown, -⟩ := canonicalizeProjectPathIn_names accepted
      exact ⟨names, reached, shown⟩
    · rintro ⟨names, reached, rfl⟩
      rw [canonicalizeProjectPathIn_root]
      exact absolute_below inspectable absolute reached
  uninspectable _ other := refused_of_uninspectable root other
  rootless _ _ accepted := canonicalizeProjectPath_in accepted root
  fixed _ _ accepted filled plain := accepted_fixed accepted filled plain
  kept target path accepted filled := by
    obtain ⟨names, -, rfl, -⟩ := canonicalizeProjectPathIn_names accepted
    have named : names ≠ [] := by
      rintro rfl
      exact filled rfl
    intro segment member
    rw [segments_namesPath named] at member
    exact text_kept segment member
  inside target path accepted filled := by
    obtain ⟨names, reached, rfl, -⟩ := canonicalizeProjectPathIn_names accepted
    have named : names ≠ [] := by
      rintro rfl
      exact filled rfl
    exact ⟨names, named, resolve_namesPath named, reached⟩

/-- A spelling that climbs out of the root and back is refused and its absolute spelling accepted;
a first segment with a colon is accepted behind a dot and refused alone. -/
theorem spellings_disagree :
    canonicalizeProjectPathIn (js "/repo") (js "../repo/a") =
        .refused .pathEscape (js "../repo/a") ∧
      canonicalizeProjectPathIn (js "/repo") (js "/repo/../repo/a") = .canonical (js "a") ∧
      canonicalizeProjectPathIn (js "/repo") (js "./a:b") = .canonical (js "a:b") ∧
      canonicalizeProjectPathIn (js "/repo") (js "a:b") = .refused .pathEscape (js "a:b") := by
  refine ⟨?_, ?_, ?_, ?_⟩ <;> decide +kernel

end Canonical

end Kratos.WriteGuard
