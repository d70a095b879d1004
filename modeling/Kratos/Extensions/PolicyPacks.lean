/- source: domain/extensions/policy-packs.ts
   digest: Rigor profiles, their inheritance, the selection of one and the shadow comparison. -/

import Kratos.Foundation.Collections
import Kratos.Foundation.Sorting
import Kratos.Schema.CanonicalJson
import Mathlib.Data.Rat.Defs
import Mathlib.Algebra.Order.Ring.Rat

set_option autoImplicit false

namespace Kratos.Extensions

open Foundation.Text Foundation.Collections Foundation.Sorting Schema

/-- A finite number of the language; packs only compare them. -/
abbrev JsNumber := ℚ

inductive PolicyAuthority
  | organization | project
  deriving DecidableEq, Repr

instance judgesNonzero : NeZero 3 := ⟨by decide⟩

structure RigorRequirements where
  gateIds : List JsString
  evidenceKinds : List JsString
  minimumApprovals : JsNumber
  independentJudges : Fin 3
  deriving DecidableEq

/-- A profile; `extendsId` is its `extends`. -/
structure RigorProfile where
  id : JsString
  rank : JsNumber
  extendsId : Option JsString
  requirements : RigorRequirements
  deriving DecidableEq

structure RiskFacts where
  changedFiles : JsNumber
  touchesProtectedPath : Bool
  securitySensitive : Bool
  changesPublicContract : Bool
  migratesData : Bool

/-- `Partial<RiskFacts>` with the least number of changed files. -/
structure RiskCondition where
  changedFiles : Option JsNumber
  touchesProtectedPath : Option Bool
  securitySensitive : Option Bool
  changesPublicContract : Option Bool
  migratesData : Option Bool
  minimumChangedFiles : Option JsNumber
  deriving DecidableEq

structure RiskRule where
  id : JsString
  profileId : JsString
  condition : RiskCondition
  deriving DecidableEq

structure PolicyPack where
  packId : JsString
  version : JsString
  digest : JsString
  authority : PolicyAuthority
  trusted : Bool
  defaultProfileId : JsString
  minimumProfileId : JsString
  profiles : List RigorProfile
  rules : List RiskRule

inductive SelectionRefusal
  | untrusted | invalid | inheritanceCycle
  deriving DecidableEq, Repr

structure SelectedProfile where
  profileId : JsString
  packId : JsString
  packVersion : JsString
  packDigest : JsString
  matchedRuleIds : List JsString
  requirements : RigorRequirements
  deriving DecidableEq

inductive ProfileSelection
  | selected (profile : SelectedProfile)
  | refused (reason : SelectionRefusal)
  deriving DecidableEq

/-- An expected fact that a rule states holds. -/
def agreesWith {α : Type} [DecidableEq α] (expected : Option α) (actual : α) : Bool :=
  expected.all fun value => decide (actual = value)

def matchesRule (rule : RiskRule) (facts : RiskFacts) : Bool :=
  !(rule.condition.minimumChangedFiles.any fun least => decide (facts.changedFiles < least)) &&
    agreesWith rule.condition.changedFiles facts.changedFiles &&
    agreesWith rule.condition.touchesProtectedPath facts.touchesProtectedPath &&
    agreesWith rule.condition.securitySensitive facts.securitySensitive &&
    agreesWith rule.condition.changesPublicContract facts.changesPublicContract &&
    agreesWith rule.condition.migratesData facts.migratesData

/-- `[...new Set(values)].sort()`. -/
def sortedSet (values : List JsString) : List JsString :=
  sortedUnique (fun left right => notAfter left right = true) values

def mergeRequirements (parent own : RigorRequirements) : RigorRequirements where
  gateIds := sortedSet (parent.gateIds ++ own.gateIds)
  evidenceKinds := sortedSet (parent.evidenceKinds ++ own.evidenceKinds)
  minimumApprovals := max parent.minimumApprovals own.minimumApprovals
  independentJudges := max parent.independentJudges own.independentJudges

/-- `profiles.get(id)` of the map from ids to profiles. -/
def profileOf (profiles : List RigorProfile) (id : JsString) : Option RigorProfile :=
  mapGet (profiles.map fun profile => (profile.id, profile)) id

/-- The requirements with all that is inherited, or `null`; none only where the fuel runs out. -/
def resolveRequirements (profiles : List RigorProfile) :
    Nat → RigorProfile → List JsString → Option (Option RigorRequirements)
  | 0, _, _ => none
  | fuel + 1, profile, visiting =>
      if profile.id ∈ visiting then some none
      else
        match profile.extendsId with
        | none => some (some profile.requirements)
        | some parentId =>
            match profileOf profiles parentId with
            | none => some none
            | some parent =>
                (resolveRequirements profiles fuel parent (profile.id :: visiting)).map
                  fun inherited => inherited.map (mergeRequirements · profile.requirements)

/-- `left.localeCompare(right, "en-US")`: a consistent comparison, in which different texts may
be equal. -/
structure Collation where
  compare : JsString → JsString → Int
  total : ∀ left right, compare left right ≤ 0 ∨ compare right left ≤ 0
  trans : ∀ first second third, compare first second ≤ 0 → compare second third ≤ 0 →
    compare first third ≤ 0

/-- The comparison of candidates puts `left` first or leaves it before `right`. -/
def notBehind (collation : Collation) (left right : RigorProfile) : Bool :=
  decide (right.rank < left.rank) ||
    (decide (right.rank = left.rank) && decide (collation.compare left.id right.id ≤ 0))

def matchingRules (collation : Collation) (pack : PolicyPack) (facts : RiskFacts) :
    List RiskRule :=
  (pack.rules.filter fun rule => matchesRule rule facts).mergeSort fun left right =>
    decide (collation.compare left.id right.id ≤ 0)

/-- The floor, the fallback and the profiles of the matching rules, the first one selected. -/
def candidates (collation : Collation) (pack : PolicyPack) (facts : RiskFacts)
    (floor fallback : RigorProfile) : List RigorProfile :=
  (floor :: fallback ::
    (matchingRules collation pack facts).filterMap fun rule =>
      profileOf pack.profiles rule.profileId).mergeSort (notBehind collation)

/-- Selects a profile; none only where the resolution runs out of fuel. -/
def selectRigorProfile (collation : Collation) (pack : PolicyPack) (facts : RiskFacts) :
    Option ProfileSelection :=
  if pack.trusted = false then some (.refused .untrusted)
  else if ¬ (pack.profiles.map RigorProfile.id).Nodup ∨ ¬ (pack.rules.map RiskRule.id).Nodup then
    some (.refused .invalid)
  else
    match profileOf pack.profiles pack.minimumProfileId,
        profileOf pack.profiles pack.defaultProfileId with
    | some floor, some fallback =>
        let matching := matchingRules collation pack facts
        if matching.any fun rule => (profileOf pack.profiles rule.profileId).isNone then
          some (.refused .invalid)
        else
          match candidates collation pack facts floor fallback with
          | [] => some (.refused .invalid)
          | selected :: _ =>
              if selected.rank < floor.rank then some (.refused .invalid)
              else
                (resolveRequirements pack.profiles (pack.profiles.length + 1) selected []).map
                  fun requirements =>
                    match requirements with
                    | none => .refused .inheritanceCycle
                    | some requirements =>
                        .selected {
                          profileId := selected.id
                          packId := pack.packId
                          packVersion := pack.version
                          packDigest := pack.digest
                          matchedRuleIds := matching.map RiskRule.id
                          requirements }
    | _, _ => some (.refused .invalid)

structure HistoricalRigorDecision where
  profileId : JsString
  requirements : RigorRequirements

inductive ShadowChange
  | same | tightened | wouldWeaken
  deriving DecidableEq, Repr

inductive ShadowProfileComparison
  | compared (change : ShadowChange) (addedGateIds removedGateIds : List JsString)
  | blocked
  deriving DecidableEq

def comparePolicyPackShadow (historical : HistoricalRigorDecision)
    (candidate : ProfileSelection) : ShadowProfileComparison :=
  match candidate with
  | .refused _ => .blocked
  | .selected candidate =>
      let before := historical.requirements
      let after := candidate.requirements
      let addedGateIds := sortedSet (after.gateIds.filter fun id => decide (id ∉ before.gateIds))
      let removedGateIds := sortedSet (before.gateIds.filter fun id => decide (id ∉ after.gateIds))
      let weaker := removedGateIds ≠ [] ∨ after.minimumApprovals < before.minimumApprovals ∨
        after.independentJudges < before.independentJudges
      let tightened := addedGateIds ≠ [] ∨ before.minimumApprovals < after.minimumApprovals ∨
        before.independentJudges < after.independentJudges
      .compared (if weaker then .wouldWeaken else if tightened then .tightened else .same)
        addedGateIds removedGateIds

section Strength

/-- One set of requirements asks for no more than another. -/
instance : LE RigorRequirements where
  le weak strong := weak.gateIds ⊆ strong.gateIds ∧ weak.evidenceKinds ⊆ strong.evidenceKinds ∧
    weak.minimumApprovals ≤ strong.minimumApprovals ∧
    weak.independentJudges ≤ strong.independentJudges

instance : Preorder RigorRequirements where
  le_refl requirements := ⟨fun _ => id, fun _ => id, le_refl _, le_refl _⟩
  le_trans _ _ _ first second :=
    ⟨fun _ member => second.1 (first.1 member), fun _ member => second.2.1 (first.2.1 member),
      first.2.2.1.trans second.2.2.1, first.2.2.2.trans second.2.2.2⟩

theorem le_def {weak strong : RigorRequirements} :
    weak ≤ strong ↔ weak.gateIds ⊆ strong.gateIds ∧
      weak.evidenceKinds ⊆ strong.evidenceKinds ∧
      weak.minimumApprovals ≤ strong.minimumApprovals ∧
      weak.independentJudges ≤ strong.independentJudges := Iff.rfl

@[simp] theorem mem_sortedSet {values : List JsString} {value : JsString} :
    value ∈ sortedSet values ↔ value ∈ values := mem_sortedUnique

/-- What is inherited and what a profile asks itself is exactly what the merge asks. -/
theorem mergeRequirements_le_iff {parent own other : RigorRequirements} :
    mergeRequirements parent own ≤ other ↔ parent ≤ other ∧ own ≤ other := by
  have union : ∀ {left right values : List JsString},
      sortedSet (left ++ right) ⊆ values ↔ left ⊆ values ∧ right ⊆ values := by
    intro left right values
    simp only [List.subset_def, mem_sortedSet, List.mem_append, or_imp, forall_and]
  simp only [le_def, mergeRequirements, union, max_le_iff]
  tauto

end Strength

end Kratos.Extensions
