/- source: domain/extensions/policy-packs.ts
   digest: The profile a pack selects: its floor, more matching rules, and the order of the pack. -/

import Kratos.Extensions.Inheritance
import Kratos.Foundation.FirstBest

set_option autoImplicit false

namespace Kratos.Extensions

open Foundation.Text Foundation.FirstBest

variable {collation : Collation} {pack : PolicyPack} {facts : RiskFacts}

theorem notBehind_consistent (collation : Collation) : Consistent (notBehind collation) where
  trans first second third one two := by
    simp only [notBehind, Bool.or_eq_true, Bool.and_eq_true, decide_eq_true_eq] at one two ⊢
    rcases one with one | ⟨same, one⟩
    · rcases two with two | ⟨equal, -⟩
      · exact .inl (two.trans one)
      · exact .inl (equal ▸ one)
    · rcases two with two | ⟨equal, two⟩
      · exact .inl (same ▸ two)
      · exact .inr ⟨equal.trans same, collation.trans _ _ _ one two⟩
  total left right := by
    simp only [notBehind, Bool.or_eq_true, Bool.and_eq_true, decide_eq_true_eq]
    rcases lt_trichotomy left.rank right.rank with below | same | above
    · exact .inr (.inl below)
    · rcases collation.total left.id right.id with front | back
      · exact .inl (.inr ⟨same.symm, front⟩)
      · exact .inr (.inr ⟨same, back⟩)
    · exact .inl (.inl above)

theorem ruleOrder_consistent (collation : Collation) :
    Consistent fun left right : RiskRule => decide (collation.compare left.id right.id ≤ 0) where
  trans first second third one two := by
    simp only [decide_eq_true_eq] at one two ⊢
    exact collation.trans _ _ _ one two
  total left right := by
    simp only [Bool.or_eq_true, decide_eq_true_eq]
    exact collation.total _ _

/-- What a pack that is not refused at once selects by: its floor, its fallback and the profile
that comes first of all candidates. -/
structure Chosen (collation : Collation) (pack : PolicyPack) (facts : RiskFacts)
    (floor fallback chosen : RigorProfile) : Prop where
  trusted : pack.trusted = true
  profileIds : (pack.profiles.map RigorProfile.id).Nodup
  ruleIds : (pack.rules.map RiskRule.id).Nodup
  floorFound : profileOf pack.profiles pack.minimumProfileId = some floor
  fallbackFound : profileOf pack.profiles pack.defaultProfileId = some fallback
  known : ∀ rule ∈ pack.rules, matchesRule rule facts = true →
    ∃ profile, profileOf pack.profiles rule.profileId = some profile
  first : firstBest (notBehind collation) (floor :: fallback ::
    (matchingRules collation pack facts).filterMap fun rule =>
      profileOf pack.profiles rule.profileId) = some chosen

theorem mem_matchingRules {rule : RiskRule} :
    rule ∈ matchingRules collation pack facts ↔
      rule ∈ pack.rules ∧ matchesRule rule facts = true := by
  rw [matchingRules, List.mem_mergeSort, List.mem_filter]

variable {floor fallback chosen : RigorProfile}

theorem mem_candidates {profile : RigorProfile} :
    profile ∈ floor :: fallback :: (matchingRules collation pack facts).filterMap (fun rule =>
        profileOf pack.profiles rule.profileId) ↔
      profile = floor ∨ profile = fallback ∨ ∃ rule ∈ pack.rules, matchesRule rule facts = true ∧
        profileOf pack.profiles rule.profileId = some profile := by
  simp only [List.mem_cons, List.mem_filterMap, mem_matchingRules, and_assoc]

theorem Chosen.listed (held : Chosen collation pack facts floor fallback chosen) :
    Listed pack.profiles chosen := by
  rcases mem_candidates.mp (firstBest_mem held.first) with rfl | rfl | ⟨rule, -, -, found⟩
  · exact listed_of_found held.floorFound
  · exact listed_of_found held.fallbackFound
  · exact listed_of_found found

theorem Chosen.floor_le (held : Chosen collation pack facts floor fallback chosen) :
    floor.rank ≤ chosen.rank := by
  have first := firstBest_le (notBehind_consistent collation) held.first floor List.mem_cons_self
  simp only [notBehind, Bool.or_eq_true, Bool.and_eq_true, decide_eq_true_eq] at first
  rcases first with above | ⟨same, -⟩
  · exact above.le
  · exact same.le

/-- What a pack says of the profile it chose. -/
def report (collation : Collation) (pack : PolicyPack) (facts : RiskFacts) (chosen : RigorProfile)
    (requirements : RigorRequirements) : SelectedProfile where
  profileId := chosen.id
  packId := pack.packId
  packVersion := pack.version
  packDigest := pack.digest
  matchedRuleIds := (matchingRules collation pack facts).map RiskRule.id
  requirements := requirements

/-- The rule of a pack that names an unknown profile is noticed where it matches. -/
theorem any_unknown_iff :
    ((matchingRules collation pack facts).any fun rule =>
        (profileOf pack.profiles rule.profileId).isNone) = false ↔
      ∀ rule ∈ pack.rules, matchesRule rule facts = true →
        ∃ profile, profileOf pack.profiles rule.profileId = some profile := by
  simp only [List.any_eq_false, mem_matchingRules, Option.isNone_iff_eq_none, and_imp,
    ← Option.ne_none_iff_exists']

theorem Chosen.select (held : Chosen collation pack facts floor fallback chosen) :
    selectRigorProfile collation pack facts =
      (resolveRequirements pack.profiles (pack.profiles.length + 1) chosen []).map
        fun requirements =>
          match requirements with
          | none => .refused .inheritanceCycle
          | some requirements => .selected (report collation pack facts chosen requirements) := by
  have unique : ¬ (¬ (pack.profiles.map RigorProfile.id).Nodup ∨
      ¬ (pack.rules.map RiskRule.id).Nodup) := by
    rw [not_or, not_not, not_not]
    exact ⟨held.profileIds, held.ruleIds⟩
  have head := head?_mergeSort (notBehind_consistent collation) (floor :: fallback ::
    (matchingRules collation pack facts).filterMap fun rule =>
      profileOf pack.profiles rule.profileId)
  rw [held.first] at head
  obtain ⟨others, sorted⟩ := List.head?_eq_some_iff.mp head
  have above : ¬ chosen.rank < floor.rank := not_lt.mpr held.floor_le
  simp only [selectRigorProfile, held.trusted, Bool.true_eq_false, if_false, unique,
    held.floorFound, held.fallbackFound, any_unknown_iff.mpr held.known, Bool.false_eq_true,
    candidates, sorted, above, report]
  all_goals rfl

theorem select_cases (collation : Collation) (pack : PolicyPack) (facts : RiskFacts) :
    (∃ reason, reason ≠ .inheritanceCycle ∧
      selectRigorProfile collation pack facts = some (.refused reason)) ∨
    ∃ floor fallback chosen, Chosen collation pack facts floor fallback chosen := by
  by_cases trusted : pack.trusted = false
  · exact .inl ⟨.untrusted, nofun, by rw [selectRigorProfile, if_pos trusted]⟩
  by_cases repeated : ¬ (pack.profiles.map RigorProfile.id).Nodup ∨
      ¬ (pack.rules.map RiskRule.id).Nodup
  · exact .inl ⟨.invalid, nofun, by rw [selectRigorProfile, if_neg trusted, if_pos repeated]⟩
  cases floorFound : profileOf pack.profiles pack.minimumProfileId with
  | none =>
      refine .inl ⟨.invalid, nofun, ?_⟩
      simp only [selectRigorProfile, if_neg trusted, if_neg repeated, floorFound]
  | some floor =>
      cases fallbackFound : profileOf pack.profiles pack.defaultProfileId with
      | none =>
          refine .inl ⟨.invalid, nofun, ?_⟩
          simp only [selectRigorProfile, if_neg trusted, if_neg repeated, floorFound, fallbackFound]
      | some fallback =>
          by_cases unknown : ((matchingRules collation pack facts).any fun rule =>
              (profileOf pack.profiles rule.profileId).isNone) = true
          · refine .inl ⟨.invalid, nofun, ?_⟩
            simp only [selectRigorProfile, if_neg trusted, if_neg repeated, floorFound,
              fallbackFound, if_pos unknown]
          · obtain ⟨chosen, first⟩ := @firstBest_cons_isSome _ (notBehind collation) floor
              (fallback :: (matchingRules collation pack facts).filterMap fun rule =>
                profileOf pack.profiles rule.profileId)
            rw [not_or, not_not, not_not] at repeated
            exact .inr ⟨floor, fallback, chosen, by simpa using trusted, repeated.1, repeated.2,
              floorFound, fallbackFound, any_unknown_iff.mp (by simpa using unknown), first⟩

/-- A selection is that of a chosen profile which resolves to the requirements. -/
theorem selected_iff {selected : SelectedProfile} :
    selectRigorProfile collation pack facts = some (.selected selected) ↔
      ∃ floor fallback chosen, Chosen collation pack facts floor fallback chosen ∧
        Resolves pack.profiles chosen selected.requirements ∧
        selected = report collation pack facts chosen selected.requirements := by
  constructor
  · intro found
    rcases select_cases collation pack facts with ⟨reason, -, refused⟩ | ⟨floor, fallback, chosen, held⟩
    · rw [refused] at found
      cases found
    · refine ⟨floor, fallback, chosen, held, ?_⟩
      rw [held.select] at found
      obtain ⟨outcome, resolved, same⟩ := Option.map_eq_some_iff.mp found
      cases outcome with
      | none => cases same
      | some requirements =>
          obtain rfl := ProfileSelection.selected.inj same
          exact ⟨(resolve_eq_some_iff held.listed _).mp resolved, rfl⟩
  · rintro ⟨floor, fallback, chosen, held, resolved, same⟩
    rw [held.select, (resolve_eq_some_iff held.listed _).mpr resolved]
    exact congrArg (fun selection => some (ProfileSelection.selected selection)) same.symm

theorem Chosen.selected (held : Chosen collation pack facts floor fallback chosen)
    {requirements : RigorRequirements} (resolved : Resolves pack.profiles chosen requirements) :
    selectRigorProfile collation pack facts =
      some (.selected (report collation pack facts chosen requirements)) :=
  selected_iff.mpr ⟨floor, fallback, chosen, held, resolved, rfl⟩

/-- The selection always ends, and refuses for inheritance exactly where the chain of the chosen
profile is cyclic or names an unknown parent. -/
theorem refused_iff :
    (∃ selection, selectRigorProfile collation pack facts = some selection) ∧
      (selectRigorProfile collation pack facts = some (.refused .inheritanceCycle) ↔
        ∃ floor fallback chosen, Chosen collation pack facts floor fallback chosen ∧
          (Cyclic pack.profiles chosen ∨ Dangling pack.profiles chosen)) := by
  constructor
  · rcases select_cases collation pack facts with ⟨reason, -, refused⟩ | ⟨floor, fallback, chosen, held⟩
    · exact ⟨_, refused⟩
    · rcases resolve_from_start held.listed with ⟨found, ends, -⟩ | ⟨ends, -⟩
      · exact ⟨_, by rw [held.select, ends]; rfl⟩
      · exact ⟨_, by rw [held.select, ends]; rfl⟩
  · constructor
    · intro found
      rcases select_cases collation pack facts with ⟨reason, other, refused⟩ |
        ⟨floor, fallback, chosen, held⟩
      · rw [refused] at found
        cases found
        exact absurd rfl other
      · refine ⟨floor, fallback, chosen, held, ?_⟩
        rcases resolve_from_start held.listed with ⟨requirements, ends, -⟩ | ⟨-, refused⟩
        · rw [held.select, ends] at found
          cases found
        · exact refused
    · rintro ⟨floor, fallback, chosen, held, refused⟩
      rw [held.select, (resolve_eq_none_iff held.listed).mpr refused]
      rfl

section Strength

/-- The better of floor and fallback: what is selected where no rule matches. -/
def base (collation : Collation) (floor fallback : RigorProfile) : RigorProfile :=
  better (notBehind collation) floor fallback

/-- One profile comes strictly before another. -/
def Precedes (collation : Collation) (left right : RigorProfile) : Prop :=
  notBehind collation right left = false

/-- A profile of the pack that some rules may bring to be selected. -/
def Eligible (collation : Collation) (pack : PolicyPack) (floor fallback profile : RigorProfile) :
    Prop :=
  Listed pack.profiles profile ∧ (profile = base collation floor fallback ∨
    Precedes collation profile (base collation floor fallback))

/-- Where both resolve, one profile asks for no more than another. -/
def WeakerThan (pack : PolicyPack) (weak strong : RigorProfile) : Prop :=
  ∀ asked given, Resolves pack.profiles weak asked → Resolves pack.profiles strong given →
    asked ≤ given

/-- From the better of floor and fallback upwards, a profile of higher rank asks for no less, and
each asks for no less than the floor. -/
def RanksAgree (collation : Collation) (pack : PolicyPack) : Prop :=
  (pack.profiles.map RigorProfile.id).Nodup → ∀ floor fallback,
    profileOf pack.profiles pack.minimumProfileId = some floor →
    profileOf pack.profiles pack.defaultProfileId = some fallback →
    ∀ profile, Eligible collation pack floor fallback profile →
      WeakerThan pack floor profile ∧
        ∀ lower, Eligible collation pack floor fallback lower →
          ¬ Precedes collation lower profile → WeakerThan pack lower profile

/-- The pack declares the same profiles, floor and default. -/
structure SameLadder (pack other : PolicyPack) : Prop where
  profiles : other.profiles = pack.profiles
  minimum : other.minimumProfileId = pack.minimumProfileId
  fallback : other.defaultProfileId = pack.defaultProfileId

/-- What is selected contains what the minimum profile resolves to. -/
def FloorKept (collation : Collation) (pack : PolicyPack) : Prop :=
  ∀ facts selected floor asked, selectRigorProfile collation pack facts = some (.selected selected) →
    profileOf pack.profiles pack.minimumProfileId = some floor →
    Resolves pack.profiles floor asked → asked ≤ selected.requirements

/-- More matching rules never select weaker requirements. -/
def NeverWeaker (collation : Collation) (pack : PolicyPack) : Prop :=
  ∀ other facts selected more, SameLadder pack other →
    (∀ rule ∈ pack.rules, matchesRule rule facts = true → rule ∈ other.rules) →
    selectRigorProfile collation pack facts = some (.selected selected) →
    selectRigorProfile collation other facts = some (.selected more) →
    selected.requirements ≤ more.requirements

theorem Chosen.eligible (held : Chosen collation pack facts floor fallback chosen) :
    Eligible collation pack floor fallback chosen :=
  ⟨held.listed, firstBest_pair (notBehind_consistent collation) held.first⟩

/-- Where the ranks agree with strength, no selection is weaker than it should be. -/
theorem RanksAgree.keeps (agree : RanksAgree collation pack) :
    FloorKept collation pack ∧ NeverWeaker collation pack := by
  constructor
  · intro facts selected floor asked found floorFound resolved
    obtain ⟨own, fallback, chosen, held, given, -⟩ := selected_iff.mp found
    rw [held.floorFound] at floorFound
    cases floorFound
    exact (agree held.profileIds _ fallback held.floorFound held.fallbackFound chosen
      held.eligible).1 _ _ resolved given
  · intro other facts selected more ladder kept found foundMore
    obtain ⟨floor, fallback, chosen, held, given, -⟩ := selected_iff.mp found
    obtain ⟨floor', fallback', chosen', held', given', -⟩ := selected_iff.mp foundMore
    have sameFloor : floor' = floor := by
      have found := held'.floorFound
      rw [ladder.profiles, ladder.minimum, held.floorFound] at found
      exact (Option.some.inj found).symm
    have sameFallback : fallback' = fallback := by
      have found := held'.fallbackFound
      rw [ladder.profiles, ladder.fallback, held.fallbackFound] at found
      exact (Option.some.inj found).symm
    subst sameFloor sameFallback
    have eligible : Eligible collation pack floor' fallback' chosen' := by
      have own := held'.eligible
      rw [Eligible, ladder.profiles] at own
      exact own
    have later : ¬ Precedes collation chosen chosen' := by
      rw [Precedes, Bool.not_eq_false]
      refine firstBest_le (notBehind_consistent collation) held'.first chosen
        (mem_candidates.mpr ?_)
      rcases mem_candidates.mp (firstBest_mem held.first) with same | same | ⟨rule, member, matched, found⟩
      · exact .inl same
      · exact .inr (.inl same)
      · refine .inr (.inr ⟨rule, kept rule member matched, matched, ?_⟩)
        rw [ladder.profiles]
        exact found
    rw [ladder.profiles] at given'
    exact (agree held.profileIds floor' fallback' held.floorFound held.fallbackFound chosen'
      eligible).2 chosen held.eligible later _ _ given given'

/-- A rule that matches whatever the facts are. -/
def standingRule (id profileId : JsString) : RiskRule where
  id := id
  profileId := profileId
  condition := ⟨none, none, none, none, none, none⟩

theorem standingRule_matches (id profileId : JsString) (facts : RiskFacts) :
    matchesRule (standingRule id profileId) facts = true := rfl

/-- The trusted pack over the same profiles with other rules. -/
def withRules (pack : PolicyPack) (rules : List RiskRule) : PolicyPack :=
  { pack with trusted := true, rules }

theorem matchingRules_standing {rules : List RiskRule}
    (standing : ∀ rule ∈ rules, matchesRule rule facts = true)
    (sorted : rules.Pairwise fun left right => collation.compare left.id right.id ≤ 0) :
    matchingRules collation (withRules pack rules) facts = rules := by
  have all : (withRules pack rules).rules.filter (fun rule => matchesRule rule facts) = rules :=
    List.filter_eq_self.mpr standing
  rw [matchingRules, all]
  exact List.mergeSort_of_pairwise (sorted.imp fun held => decide_eq_true held)

/-- The rules that bring an eligible profile to be selected. -/
def bringing (collation : Collation) (floor fallback profile : RigorProfile) (id : JsString) :
    List RiskRule :=
  if profile = base collation floor fallback then [] else [standingRule id profile.id]

/-- The ladder of a pack: different profiles, its floor and its fallback among them. -/
structure Ladder (pack : PolicyPack) (floor fallback : RigorProfile) : Prop where
  profileIds : (pack.profiles.map RigorProfile.id).Nodup
  floorFound : profileOf pack.profiles pack.minimumProfileId = some floor
  fallbackFound : profileOf pack.profiles pack.defaultProfileId = some fallback

theorem bringing_standing {profile : RigorProfile} {id : JsString} :
    ∀ rule ∈ bringing collation floor fallback profile id, matchesRule rule facts = true ∧
      rule.id = id ∧ rule.profileId = profile.id := by
  rw [bringing]
  split
  · simp
  · intro rule member
    rw [List.mem_singleton.mp member]
    exact ⟨standingRule_matches _ _ _, rfl, rfl⟩

theorem bringing_small (profile : RigorProfile) (id : JsString) :
    (bringing collation floor fallback profile id).length ≤ 1 := by
  rw [bringing]
  split <;> simp

private theorem pairwise_small {α : Type} {r : α → α → Prop} {values : List α}
    (small : values.length ≤ 1) : values.Pairwise r := by
  match values, small with
  | [], _ => exact List.Pairwise.nil
  | [a], _ => exact List.pairwise_singleton r a

theorem Ladder.choose (ladder : Ladder pack floor fallback) {profile : RigorProfile}
    {rules : List RiskRule} (facts : RiskFacts)
    (ruleIds : (rules.map RiskRule.id).Nodup)
    (standing : ∀ rule ∈ rules, matchesRule rule facts = true ∧
      ∃ named, profileOf pack.profiles rule.profileId = some named)
    (sorted : rules.Pairwise fun left right => collation.compare left.id right.id ≤ 0)
    (first : firstBest (notBehind collation) (floor :: fallback ::
      rules.filterMap fun rule => profileOf pack.profiles rule.profileId) = some profile) :
    Chosen collation (withRules pack rules) facts floor fallback profile where
  trusted := rfl
  profileIds := ladder.profileIds
  ruleIds := ruleIds
  floorFound := ladder.floorFound
  fallbackFound := ladder.fallbackFound
  known rule member _ := (standing rule member).2
  first := by
    rw [matchingRules_standing (fun rule member => (standing rule member).1) sorted]
    exact first

theorem Ladder.choose_eligible (ladder : Ladder pack floor fallback) {profile : RigorProfile}
    (eligible : Eligible collation pack floor fallback profile) (facts : RiskFacts)
    (id : JsString) :
    Chosen collation (withRules pack (bringing collation floor fallback profile id)) facts floor
      fallback profile := by
  have one : (bringing collation floor fallback profile id).length ≤ 1 := bringing_small profile id
  refine ladder.choose facts (pairwise_small (by rwa [List.length_map])) ?_ (pairwise_small one) ?_
  · intro rule member
    have standing : matchesRule rule facts = true ∧ rule.id = id ∧ rule.profileId = profile.id :=
      bringing_standing rule member
    obtain ⟨matched, -, named⟩ := standing
    exact ⟨matched, profile, named ▸ eligible.1⟩
  · rw [bringing]
    split
    · rename_i same
      rw [List.filterMap_nil, firstBest_two, same, base]
    · rename_i other
      have strict := eligible.2.resolve_left other
      have found : profileOf pack.profiles (standingRule id profile.id).profileId = some profile :=
        eligible.1
      simp only [List.filterMap_cons, found, List.filterMap_nil]
      exact firstBest_of_strict (notBehind_consistent collation) rfl strict

/-- One more rule brings a profile to be chosen over an eligible one that is not before it. -/
theorem Ladder.choose_above (ladder : Ladder pack floor fallback) {profile lower : RigorProfile}
    (eligible : Eligible collation pack floor fallback profile)
    (strict : Precedes collation profile (base collation floor fallback))
    (below : Eligible collation pack floor fallback lower)
    (apart : ¬ Precedes collation lower profile) (facts : RiskFacts) {front back : JsString}
    (different : front ≠ back) (ordered : collation.compare front back ≤ 0) :
    Chosen collation (withRules pack (standingRule front profile.id ::
      bringing collation floor fallback lower back)) facts floor fallback profile := by
  have one : (bringing collation floor fallback lower back).length ≤ 1 := bringing_small lower back
  have each : ∀ rule ∈ bringing collation floor fallback lower back,
      matchesRule rule facts = true ∧ rule.id = back ∧ rule.profileId = lower.id :=
    bringing_standing
  have found : profileOf pack.profiles (standingRule front profile.id).profileId = some profile :=
    eligible.1
  refine ladder.choose facts ?_ ?_ ?_ ?_
  · rw [List.map_cons, List.nodup_cons]
    refine ⟨?_, pairwise_small (by rwa [List.length_map])⟩
    intro member
    obtain ⟨rule, held, same⟩ := List.mem_map.mp member
    exact different ((each rule held).2.1 ▸ same.symm)
  · rw [List.forall_mem_cons]
    refine ⟨⟨standingRule_matches _ _ _, profile, found⟩, fun rule member => ?_⟩
    obtain ⟨matched, -, named⟩ := each rule member
    exact ⟨matched, lower, named ▸ below.1⟩
  · rw [List.pairwise_cons]
    refine ⟨fun rule member => ?_, pairwise_small one⟩
    rw [(each rule member).2.1]
    exact ordered
  · simp only [List.filterMap_cons, found]
    refine firstBest_of_strict (notBehind_consistent collation) ?_ strict
    rw [bringing]
    split
    · rfl
    · have other : profileOf pack.profiles (standingRule back lower.id).profileId = some lower :=
        below.1
      have front : notBehind collation profile lower = true := by
        rwa [Precedes, Bool.not_eq_false] at apart
      simp only [List.filterMap_cons, other, List.filterMap_nil]
      rw [firstBest_two, better, if_pos front]

theorem withRules_ladder (pack : PolicyPack) (rules : List RiskRule) :
    SameLadder pack (withRules pack rules) := ⟨rfl, rfl, rfl⟩

theorem SameLadder.between {first second : PolicyPack} (left : SameLadder pack first)
    (right : SameLadder pack second) : SameLadder first second :=
  ⟨right.profiles.trans left.profiles.symm, right.minimum.trans left.minimum.symm,
    right.fallback.trans left.fallback.symm⟩

/-- Facts about a change, the same for every rule that always matches. -/
def someFacts : RiskFacts := ⟨0, false, false, false, false⟩

private theorem exists_ordered_ids (collation : Collation) :
    ∃ front back : JsString, front ≠ back ∧ collation.compare front back ≤ 0 := by
  rcases collation.total (js "a") (js "b") with front | back
  · exact ⟨_, _, by decide, front⟩
  · exact ⟨_, _, by decide, back⟩

/-- Every pack over a ladder keeps its floor and grows stricter with its rules exactly where the
ranks of the ladder agree with strength. -/
theorem ranksAgree_iff (collation : Collation) (pack : PolicyPack) :
    (∀ other, SameLadder pack other → FloorKept collation other ∧ NeverWeaker collation other) ↔
      RanksAgree collation pack := by
  constructor
  · intro kept profileIds floor fallback floorFound fallbackFound profile eligible
    have ladder : Ladder pack floor fallback := ⟨profileIds, floorFound, fallbackFound⟩
    obtain ⟨front, back, different, ordered⟩ := exists_ordered_ids collation
    constructor
    · intro asked given resolved own
      have chosen := ladder.choose_eligible eligible someFacts front
      exact (kept _ (withRules_ladder pack _)).1 _ _ floor asked (chosen.selected own) floorFound
        resolved
    · intro lower below apart asked given resolved own
      by_cases same : profile = base collation floor fallback
      · rcases below.2 with rfl | strict
        · rw [← same] at resolved
          rw [resolved.unique own]
        · rw [← same] at strict
          exact absurd strict apart
      · have strict := eligible.2.resolve_left same
        have first := ladder.choose_eligible below someFacts back
        have second := ladder.choose_above eligible strict below apart someFacts different ordered
        exact (kept _ (withRules_ladder pack _)).2 _ someFacts _ _
          ((withRules_ladder pack _).between (withRules_ladder pack _))
          (fun rule member _ => List.mem_cons_of_mem _ member) (first.selected resolved)
          (second.selected own)
  · intro agree other ladder
    have same : RanksAgree collation other := by
      intro profileIds floor fallback floorFound fallbackFound profile eligible
      rw [ladder.profiles] at profileIds floorFound fallbackFound
      rw [ladder.minimum] at floorFound
      rw [ladder.fallback] at fallbackFound
      simp only [Eligible, WeakerThan, ladder.profiles] at eligible ⊢
      exact agree profileIds floor fallback floorFound fallbackFound profile eligible
    exact same.keeps

end Strength

end Kratos.Extensions
