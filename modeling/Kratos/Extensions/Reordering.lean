/- source: domain/extensions/policy-packs.ts
   digest: When the order of profiles and rules in a pack does not show in what it selects. -/

import Kratos.Extensions.Selection

set_option autoImplicit false

namespace Kratos.Extensions

open Foundation.Text Foundation.Collections Foundation.FirstBest Schema

variable {collation : Collation} {pack other : PolicyPack} {facts : RiskFacts}

/-- The same pack with its profiles and rules listed in another order. -/
def Reordered (pack other : PolicyPack) : Prop :=
  ∃ profiles rules, profiles.Perm pack.profiles ∧ rules.Perm pack.rules ∧
    other = { pack with profiles, rules }

/-- Of the rules that match, no two have ids that the collation takes for equal. -/
def Separated (collation : Collation) (pack : PolicyPack) (facts : RiskFacts) : Prop :=
  ∀ left ∈ pack.rules, ∀ right ∈ pack.rules, matchesRule left facts = true →
    matchesRule right facts = true → collation.compare left.id right.id ≤ 0 →
    collation.compare right.id left.id ≤ 0 → left = right

theorem profileOf_perm {profiles listed : List RigorProfile} (perm : listed.Perm profiles)
    (unique : (profiles.map RigorProfile.id).Nodup) (id : JsString) :
    profileOf listed id = profileOf profiles id := by
  have entries : (listed.map fun profile => (profile.id, profile)).Perm
      (profiles.map fun profile => (profile.id, profile)) := perm.map _
  have keys : ((profiles.map fun profile => (profile.id, profile)).map Prod.fst).Nodup := by
    rw [List.map_map]
    exact unique
  cases found : profileOf profiles id with
  | none =>
      refine mapGet_eq_none_iff.mpr fun member => ?_
      exact mapGet_eq_none_iff.mp found ((entries.map Prod.fst).mem_iff.mp member)
  | some profile =>
      refine mapGet_of_mem ((entries.map Prod.fst).nodup_iff.mpr keys) ?_
      exact entries.mem_iff.mpr (mapGet_mem found)

theorem resolveRequirements_congr {profiles listed : List RigorProfile}
    (same : ∀ id, profileOf listed id = profileOf profiles id) (fuel : Nat)
    (profile : RigorProfile) (visiting : List JsString) :
    resolveRequirements listed fuel profile visiting =
      resolveRequirements profiles fuel profile visiting := by
  induction fuel generalizing profile visiting with
  | zero => rfl
  | succ fuel ih => simp only [resolveRequirements, same, ih]

theorem matchingRules_perm {rules : List RiskRule} (perm : rules.Perm pack.rules) :
    (matchingRules collation { pack with rules } facts).Perm (matchingRules collation pack facts) :=
  ((List.mergeSort_perm _ _).trans (perm.filter _)).trans (List.mergeSort_perm _ _).symm

theorem matchingRules_eq {rules : List RiskRule} (perm : rules.Perm pack.rules)
    (separated : Separated collation pack facts) :
    matchingRules collation { pack with rules } facts = matchingRules collation pack facts := by
  have order := ruleOrder_consistent collation
  refine (matchingRules_perm perm).eq_of_pairwise ?_
    (List.pairwise_mergeSort order.trans order.total _)
    (List.pairwise_mergeSort order.trans order.total _)
  intro left right leftMember rightMember one two
  obtain ⟨leftHeld, leftMatch⟩ := mem_matchingRules.mp leftMember
  obtain ⟨rightHeld, rightMatch⟩ := mem_matchingRules.mp rightMember
  exact separated left (perm.mem_iff.mp leftHeld) right rightHeld leftMatch rightMatch
    (of_decide_eq_true one) (of_decide_eq_true two)

/-- Where the collation separates the rules, the order of the pack does not show. -/
theorem select_reordered (separated : Separated collation pack facts)
    (reordered : Reordered pack other) :
    selectRigorProfile collation other facts = selectRigorProfile collation pack facts := by
  obtain ⟨profiles, rules, permProfiles, permRules, rfl⟩ := reordered
  have profileIds := (permProfiles.map RigorProfile.id).nodup_iff
  have ruleIds := (permRules.map RiskRule.id).nodup_iff
  have matching : matchingRules collation { pack with profiles, rules } facts =
      matchingRules collation pack facts := matchingRules_eq permRules separated
  by_cases unique : (pack.profiles.map RigorProfile.id).Nodup
  · have same := profileOf_perm permProfiles unique
    simp only [selectRigorProfile, candidates, profileIds, ruleIds, matching, same,
      permProfiles.length_eq, resolveRequirements_congr same]
  · simp only [selectRigorProfile, profileIds, unique, not_false_eq_true, true_or, if_true]

section Ties

variable {α : Type} {a b : α} {values : List α}

private theorem pair_sublist (left : a ∈ values) (right : b ∈ values) (different : a ≠ b) :
    List.Sublist [a, b] values ∨ List.Sublist [b, a] values := by
  obtain ⟨front, back, rfl⟩ := List.append_of_mem left
  rcases List.mem_append.mp right with before | after
  · exact .inr ((List.singleton_sublist.mpr before).append
      (List.singleton_sublist.mpr List.mem_cons_self))
  · have later := (List.mem_cons.mp after).resolve_left different.symm
    exact .inl (((List.singleton_sublist.mpr later).cons_cons a).trans
      (List.sublist_append_right front _))

private theorem not_both_sublist (unique : values.Nodup) (one : List.Sublist [a, b] values)
    (two : List.Sublist [b, a] values) : False := by
  induction values with
  | nil => cases one
  | cons c values ih =>
      obtain ⟨fresh, unique⟩ := List.nodup_cons.mp unique
      cases one with
      | cons _ one =>
          cases two with
          | cons _ two => exact ih unique one two
          | cons_cons _ two => exact fresh (one.subset (List.mem_cons_of_mem _ List.mem_cons_self))
      | cons_cons _ one =>
          cases two with
          | cons _ two => exact fresh (two.subset (List.mem_cons_of_mem _ List.mem_cons_self))
          | cons_cons _ two => exact fresh (one.subset List.mem_cons_self)

private theorem eq_of_map_eq {β : Type} {f : α → β} {first second : List α}
    (apart : ∀ x ∈ first, ∀ y ∈ second, f x = f y → x = y) (same : first.map f = second.map f) :
    first = second := by
  induction first generalizing second with
  | nil => exact (List.map_eq_nil_iff.mp same.symm).symm
  | cons x first ih =>
      cases second with
      | nil => cases same
      | cons y second =>
          rw [List.map_cons, List.map_cons] at same
          obtain ⟨head, tail⟩ := List.cons.inj same
          rw [apart x List.mem_cons_self y List.mem_cons_self head,
            ih (fun x left y right => apart x (List.mem_cons_of_mem _ left) y
              (List.mem_cons_of_mem _ right)) tail]

end Ties

/-- Rules that the collation takes for equal show the order of the pack that selects by them. -/
theorem separated_of_reordered {selected : SelectedProfile}
    (found : selectRigorProfile collation pack facts = some (.selected selected))
    (free : ∀ other, Reordered pack other →
      selectRigorProfile collation other facts = selectRigorProfile collation pack facts) :
    Separated collation pack facts := by
  intro left leftHeld right rightHeld leftMatch rightMatch one two
  by_contra different
  obtain ⟨floor, fallback, chosen, held, -, same⟩ := selected_iff.mp found
  have perm : pack.rules.reverse.Perm pack.rules := List.reverse_perm pack.rules
  have again := free { pack with rules := pack.rules.reverse }
    ⟨pack.profiles, pack.rules.reverse, .refl _, perm, rfl⟩
  rw [found] at again
  obtain ⟨_, _, chosen', _, _, shown⟩ := selected_iff.mp again
  have ids : (matchingRules collation pack facts).map RiskRule.id =
      (matchingRules collation { pack with rules := pack.rules.reverse } facts).map RiskRule.id := by
    have first := congrArg SelectedProfile.matchedRuleIds same
    have second := congrArg SelectedProfile.matchedRuleIds shown
    exact first.symm.trans second
  have sorted : matchingRules collation pack facts =
      matchingRules collation { pack with rules := pack.rules.reverse } facts := by
    refine eq_of_map_eq (fun rule first other second equal => ?_) ids
    exact List.inj_on_of_nodup_map held.ruleIds (mem_matchingRules.mp first).1
      (perm.mem_iff.mp (mem_matchingRules.mp second).1) equal
  have order := ruleOrder_consistent collation
  -- Two rules that tie stay in the order in which each pack lists them.
  have stable : ∀ rules : List RiskRule, ∀ a b : RiskRule, matchesRule a facts = true →
      matchesRule b facts = true → collation.compare a.id b.id ≤ 0 →
      List.Sublist [a, b] rules →
      List.Sublist [a, b] (matchingRules collation { pack with rules } facts) := by
    intro rules a b aMatch bMatch tie listed
    refine List.pair_sublist_mergeSort order.trans order.total (decide_eq_true tie) ?_
    have filtered := listed.filter fun rule => matchesRule rule facts
    have kept : [a, b].filter (fun rule => matchesRule rule facts) = [a, b] := by
      simp [aMatch, bMatch]
    rwa [kept] at filtered
  have listed : ∀ a b : RiskRule, matchesRule a facts = true → matchesRule b facts = true →
      collation.compare a.id b.id ≤ 0 → collation.compare b.id a.id ≤ 0 →
      ¬ List.Sublist [a, b] pack.rules := by
    intro a b aMatch bMatch forward backward inOrder
    have unique : (matchingRules collation pack facts).Nodup :=
      (List.mergeSort_perm _ _).nodup_iff.mpr (held.ruleIds.of_map.filter _)
    refine not_both_sublist unique (stable pack.rules a b aMatch bMatch forward inOrder) ?_
    rw [sorted]
    exact stable _ b a bMatch aMatch backward inOrder.reverse
  rcases pair_sublist leftHeld rightHeld different with inOrder | inOrder
  · exact listed left right leftMatch rightMatch one two inOrder
  · exact listed right left rightMatch leftMatch two one inOrder

/-- What a pack selects is independent of the order in which it lists profiles and rules exactly
where the collation separates the rules that match. -/
theorem order_free_iff {selected : SelectedProfile}
    (found : selectRigorProfile collation pack facts = some (.selected selected)) :
    (∀ other, Reordered pack other →
      selectRigorProfile collation other facts = selectRigorProfile collation pack facts) ↔
      Separated collation pack facts :=
  ⟨separated_of_reordered found, fun separated _ reordered => select_reordered separated reordered⟩

/-- The selection of rigor profiles: termination and refusals, floor and growth over every ladder,
and the order of the pack. -/
theorem rigor_selection_exact (collation : Collation) :
    (∀ pack facts, (∃ selection, selectRigorProfile collation pack facts = some selection) ∧
      (selectRigorProfile collation pack facts = some (.refused .inheritanceCycle) ↔
        ∃ floor fallback chosen, Chosen collation pack facts floor fallback chosen ∧
          (Cyclic pack.profiles chosen ∨ Dangling pack.profiles chosen))) ∧
    (∀ pack, (∀ other, SameLadder pack other →
        FloorKept collation other ∧ NeverWeaker collation other) ↔ RanksAgree collation pack) ∧
    ∀ pack facts selected, selectRigorProfile collation pack facts = some (.selected selected) →
      ((∀ other, Reordered pack other →
        selectRigorProfile collation other facts = selectRigorProfile collation pack facts) ↔
        Separated collation pack facts) :=
  ⟨fun _ _ => refused_iff, ranksAgree_iff collation, fun _ _ _ found => order_free_iff found⟩

section Samples

/-- The comparison of texts by their code units. -/
def unitCollation : Collation where
  compare left right := if notAfter left right then (if notAfter right left then 0 else -1) else 1
  total left right := by
    rcases notAfter_total left right with front | back
    · simp only [front, if_true]
      split <;> simp
    · simp only [back, if_true]
      split <;> simp
  trans first second third one two := by
    have before : ∀ left right : JsString,
        (if notAfter left right then (if notAfter right left then (0 : Int) else -1) else 1) ≤ 0 ↔
          notAfter left right = true := by
      intro left right
      split
      · rename_i front
        split <;> simp [front]
      · rename_i behind
        simp [behind]
    rw [before] at one two ⊢
    exact notAfter_trans one two

/-- A profile without a parent that asks for the given gates. -/
def plainProfile (id : String) (rank : JsNumber) (gateIds : List JsString) : RigorProfile :=
  ⟨js id, rank, none, ⟨gateIds, [], 0, 0⟩⟩

/-- A pack whose floor asks for the tests, with a second profile of higher rank. -/
def twoProfiles (gateIds : List JsString) : PolicyPack where
  packId := js "org-default"
  version := js "1.0.0"
  digest := []
  authority := .organization
  trusted := true
  defaultProfileId := js "standard"
  minimumProfileId := js "standard"
  profiles := [plainProfile "standard" 10 [js "tests"], plainProfile "express" 20 gateIds]
  rules := [standingRule (js "any-change") (js "express")]

theorem twoProfiles_chosen (gateIds : List JsString) :
    Chosen unitCollation (twoProfiles gateIds) someFacts
      (plainProfile "standard" 10 [js "tests"]) (plainProfile "standard" 10 [js "tests"])
      (plainProfile "express" 20 gateIds) := by
  have floorFound : profileOf (twoProfiles gateIds).profiles (js "standard") =
      some (plainProfile "standard" 10 [js "tests"]) := rfl
  have found : profileOf (twoProfiles gateIds).profiles (js "express") =
      some (plainProfile "express" 20 gateIds) := rfl
  have ladder : Ladder (twoProfiles gateIds) (plainProfile "standard" 10 [js "tests"])
      (plainProfile "standard" 10 [js "tests"]) :=
    ⟨show [js "standard", js "express"].Nodup by decide, floorFound, floorFound⟩
  have strict : notBehind unitCollation (better (notBehind unitCollation)
      (plainProfile "standard" 10 [js "tests"]) (plainProfile "standard" 10 [js "tests"]))
      (plainProfile "express" 20 gateIds) = false := by
    rw [better, ite_self]
    have below : ¬ (20 : JsNumber) < 10 := by decide +kernel
    have other : ¬ (20 : JsNumber) = 10 := by decide +kernel
    rw [notBehind, Bool.or_eq_false_iff, Bool.and_eq_false_iff]
    exact ⟨decide_eq_false below, .inl (decide_eq_false other)⟩
  show Chosen unitCollation (withRules (twoProfiles gateIds)
    [standingRule (js "any-change") (js "express")]) someFacts _ _ _
  refine ladder.choose someFacts (by decide) ?_ (List.pairwise_singleton _ _) ?_
  · rw [List.forall_mem_singleton]
    exact ⟨rfl, _, found⟩
  · simp only [List.filterMap_cons, standingRule, found, List.filterMap_nil]
    exact firstBest_of_strict (notBehind_consistent unitCollation) rfl strict

/-- The profile of higher rank is selected though it drops the gate of the floor. -/
theorem higher_rank_drops_gate : ¬ FloorKept unitCollation (twoProfiles []) := by
  intro kept
  have selected := (twoProfiles_chosen []).selected (.root rfl)
  have covered := kept someFacts _ (plainProfile "standard" 10 [js "tests"]) _ selected
    (twoProfiles_chosen []).floorFound (.root rfl)
  have lost := covered.1 List.mem_cons_self
  cases lost

/-- With one rule, the order of the pack does not show. -/
theorem twoProfiles_order_free :
    ∀ other, Reordered (twoProfiles [js "tests"]) other →
      selectRigorProfile unitCollation other someFacts =
        selectRigorProfile unitCollation (twoProfiles [js "tests"]) someFacts :=
  ((rigor_selection_exact unitCollation).2.2 (twoProfiles [js "tests"]) someFacts _
    ((twoProfiles_chosen [js "tests"]).selected (.root rfl))).mpr
    fun _ left _ right _ _ _ _ => (List.mem_singleton.mp left).trans (List.mem_singleton.mp right).symm

end Samples

end Kratos.Extensions
