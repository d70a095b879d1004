/- source: domain/hooks/index.ts, domain/memory/index.ts
   digest: What captured failures amount to: one candidate a key, with its count and its bounds. -/

import Kratos.Foundation.Sha256
import Kratos.Hooks.Candidates
import Kratos.Patterns
import Mathlib.Algebra.BigOperators.Group.List.Basic

set_option autoImplicit false

namespace Kratos.Hooks

open Foundation.Text Foundation.JsonText Foundation.Doubles Memory

section Writing

variable {inbox : List FailureCandidate}

/-- Writing over the only candidate of an identifier exchanges it for another. -/
theorem writeCandidate_over {held written : FailureCandidate} (unique : inbox.Nodup)
    (listed : held ∈ inbox) (same : held.candidateId = written.candidateId)
    (only : ∀ other ∈ inbox, other.candidateId = written.candidateId → other = held) :
    ∃ rest, inbox.Perm (held :: rest) ∧ (writeCandidate inbox written).Perm (written :: rest) := by
  obtain ⟨front, back, rfl⟩ := List.append_of_mem listed
  have present : written.candidateId ∈
      (front ++ held :: back).map (fun other => other.candidateId) :=
    List.mem_map.mpr ⟨held, listed, same⟩
  have apart : held ∉ front ∧ held ∉ back := by
    have fresh := (List.nodup_middle.mp unique)
    rw [List.nodup_cons, List.mem_append, not_or] at fresh
    exact fresh.1
  have kept {others : List FailureCandidate} (inside : ∀ other ∈ others, other ∈ front ++ held :: back)
      (absent : held ∉ others) : others.map (fun other =>
        if other.candidateId = written.candidateId then written else other) = others := by
    refine (List.map_congr_left fun other member => if_neg fun equal => ?_).trans (List.map_id _)
    exact absent (only other (inside other member) equal ▸ member)
  refine ⟨front ++ back, List.perm_middle, ?_⟩
  rw [writeCandidate, if_pos present, List.map_append, List.map_cons, if_pos same,
    kept (fun other member => List.mem_append_left _ member) apart.1,
    kept (fun other member => List.mem_append_right _ (List.mem_cons_of_mem _ member)) apart.2]
  exact List.perm_middle

theorem writeCandidate_fresh {written : FailureCandidate}
    (fresh : ∀ other ∈ inbox, other.candidateId ≠ written.candidateId) :
    (writeCandidate inbox written).Perm (written :: inbox) := by
  have absent : written.candidateId ∉ inbox.map (fun other => other.candidateId) := by
    intro member
    obtain ⟨other, listed, same⟩ := List.mem_map.mp member
    exact fresh other listed same
  rw [writeCandidate, if_neg absent]
  exact List.perm_append_comm

end Writing

section Steps

variable {digest : JsString → JsString} {localeCompare : JsString → JsString → Int}
  {inbox : List FailureCandidate} {observation : FailureObservation}

def keyOf (digest : JsString → JsString) (candidate : FailureCandidate) : JsString :=
  candidateNormalizationKey digest candidate.toCandidateIdentity

def observedKey (digest : JsString → JsString) (observation : FailureObservation) : JsString :=
  candidateNormalizationKey digest observation.toCandidateIdentity

theorem matchingCandidate_some {matched : FailureCandidate}
    (found : matchingCandidate digest localeCompare observation inbox = some matched) :
    matched ∈ inbox ∧ keyOf digest matched = observedKey digest observation := by
  refine ⟨(List.mergeSort_perm _ _).mem_iff.mp (List.mem_of_find?_eq_some found), ?_⟩
  have same := List.find?_some found
  exact eq_of_beq same

theorem matchingCandidate_none :
    matchingCandidate digest localeCompare observation inbox = none ↔
      observedKey digest observation ∉ inbox.map (keyOf digest) := by
  simp only [matchingCandidate, List.find?_eq_none, beq_iff_eq, List.mem_map, not_exists, not_and,
    (List.mergeSort_perm _ _).mem_iff]
  rfl

/-- Where a capture does what it should: the identifier it writes under is of no other candidate,
and the observation is compared with bounds in the order of their instants and counted below the
limit of exact numbers. -/
structure StepSound (digest : JsString → JsString) (inbox : List FailureCandidate)
    (observation : FailureObservation) : Prop where
  ownId : ∀ held ∈ inbox, keyOf digest held = observedKey digest observation →
    ∀ other ∈ inbox, other.candidateId = held.candidateId → other = held
  freshId : observedKey digest observation ∉ inbox.map (keyOf digest) →
    ∀ other ∈ inbox, other.candidateId ≠ observedKey digest observation
  bounds : ∀ held ∈ inbox, keyOf digest held = observedKey digest observation →
    InOrder held.firstObservedAt observation.observedAt ∧
      InOrder held.lastObservedAt observation.observedAt ∧ held.observationCount < exactLimit

/-- A sound capture exchanges the candidate of its key, or adds the first one. -/
theorem capture_cases (distinct : (inbox.map (keyOf digest)).Nodup)
    (sound : StepSound digest inbox observation) :
    (∃ matched rest, inbox.Perm (matched :: rest) ∧
      keyOf digest matched = observedKey digest observation ∧
      (capture digest localeCompare inbox observation).Perm
        (reobserved matched observation.observedAt :: rest)) ∨
    observedKey digest observation ∉ inbox.map (keyOf digest) ∧
      (capture digest localeCompare inbox observation).Perm
        (firstCandidate digest observation :: inbox) := by
  cases found : matchingCandidate digest localeCompare observation inbox with
  | some matched =>
      obtain ⟨listed, key⟩ := matchingCandidate_some found
      have written : captureCandidate digest localeCompare observation inbox =
          reobserved matched observation.observedAt := by
        rw [captureCandidate, found]
      obtain ⟨rest, split, next⟩ := @writeCandidate_over inbox matched
        (reobserved matched observation.observedAt) distinct.of_map listed rfl
        (sound.ownId matched listed key)
      refine .inl ⟨matched, rest, split, key, ?_⟩
      rwa [capture, written]
  | none =>
      have absent := matchingCandidate_none.mp found
      have written : captureCandidate digest localeCompare observation inbox =
          firstCandidate digest observation := by
        rw [captureCandidate, found]
      refine .inr ⟨absent, ?_⟩
      rw [capture, written]
      exact writeCandidate_fresh (sound.freshId absent)

end Steps

section Accounts

variable {digest : JsString → JsString} {localeCompare : JsString → JsString → Int}

def ofKey (digest : JsString → JsString) (initial : List FailureCandidate) (key : JsString) :
    List FailureCandidate := initial.filter fun candidate => keyOf digest candidate == key

def observedOf (digest : JsString → JsString) (observations : List FailureObservation)
    (key : JsString) : List FailureObservation :=
  observations.filter fun observation => observedKey digest observation == key

/-- How often a failure was observed, before the captures and by them. -/
def sightings (digest : JsString → JsString) (initial : List FailureCandidate)
    (observations : List FailureObservation) (key : JsString) : Nat :=
  ((ofKey digest initial key).map fun candidate => candidate.observationCount).sum +
    (observedOf digest observations key).length

/-- The instants a failure was observed at; what happened before the captures is known by a
bound. -/
def sightedAt (digest : JsString → JsString) (bound : FailureCandidate → JsString)
    (initial : List FailureCandidate) (observations : List FailureObservation) (key : JsString) :
    List JsString :=
  (ofKey digest initial key).map bound ++
    (observedOf digest observations key).map FailureObservation.observedAt

/-- A candidate has the count of its key, and its bounds are the outermost instants of it. -/
structure Tallied (digest : JsString → JsString) (initial : List FailureCandidate)
    (observations : List FailureObservation) (candidate : FailureCandidate) : Prop where
  count : candidate.observationCount =
    sightings digest initial observations (keyOf digest candidate)
  first : Earliest (sightedAt digest (fun held => held.firstObservedAt) initial observations
    (keyOf digest candidate)) candidate.firstObservedAt
  last : Latest (sightedAt digest (fun held => held.lastObservedAt) initial observations
    (keyOf digest candidate)) candidate.lastObservedAt

/-- The inbox accounts for all that was observed. -/
structure Accounts (digest : JsString → JsString) (initial : List FailureCandidate)
    (observations : List FailureObservation) (inbox : List FailureCandidate) : Prop where
  distinct : (inbox.map (keyOf digest)).Nodup
  covered : ∀ key, key ∈ inbox.map (keyOf digest) ↔
    key ∈ initial.map (keyOf digest) ∨ key ∈ observations.map (observedKey digest)
  total : (inbox.map fun candidate => candidate.observationCount).sum =
    (initial.map fun candidate => candidate.observationCount).sum + observations.length
  tallied : ∀ candidate ∈ inbox, Tallied digest initial observations candidate

variable {initial inbox : List FailureCandidate} {observations : List FailureObservation}
  {observation : FailureObservation}

theorem ofKey_of_mem (distinct : (initial.map (keyOf digest)).Nodup)
    {candidate : FailureCandidate} (listed : candidate ∈ initial) :
    ofKey digest initial (keyOf digest candidate) = [candidate] := by
  induction initial with
  | nil => cases listed
  | cons held rest ih =>
      obtain ⟨alone, later⟩ := List.nodup_cons.mp distinct
      rcases List.mem_cons.mp listed with rfl | inside
      · have others : rest.filter (fun other => keyOf digest other == keyOf digest candidate) = [] := by
          refine List.filter_eq_nil_iff.mpr fun other member same => alone ?_
          exact List.mem_map.mpr ⟨other, member, eq_of_beq same⟩
        simp only [ofKey, List.filter_cons, beq_self_eq_true, if_true, others]
      · have other : ¬(keyOf digest held == keyOf digest candidate) = true := by
          intro same
          exact alone (eq_of_beq same ▸ List.mem_map_of_mem inside)
        simp only [ofKey, List.filter_cons, other, Bool.false_eq_true, if_false]
        exact ih later inside

theorem ofKey_of_not_mem {key : JsString} (absent : key ∉ initial.map (keyOf digest)) :
    ofKey digest initial key = [] := by
  refine List.filter_eq_nil_iff.mpr fun other member same => absent ?_
  exact List.mem_map.mpr ⟨other, member, eq_of_beq same⟩

theorem observedOf_of_not_mem {key : JsString}
    (absent : key ∉ observations.map (observedKey digest)) :
    observedOf digest observations key = [] := by
  refine List.filter_eq_nil_iff.mpr fun other member same => absent ?_
  exact List.mem_map.mpr ⟨other, member, eq_of_beq same⟩

theorem observedOf_same : observedOf digest (observations ++ [observation])
      (observedKey digest observation) =
    observedOf digest observations (observedKey digest observation) ++ [observation] := by
  simp [observedOf]

theorem observedOf_other {key : JsString} (other : observedKey digest observation ≠ key) :
    observedOf digest (observations ++ [observation]) key = observedOf digest observations key := by
  simp [observedOf, other]

theorem accounts_start (distinct : (initial.map (keyOf digest)).Nodup) :
    Accounts digest initial [] initial := by
  refine ⟨distinct, fun key => by simp, by simp, fun candidate listed => ?_⟩
  have own := ofKey_of_mem distinct listed
  refine ⟨?_, ?_, ?_⟩
  · simp [sightings, own, observedOf]
  · simpa [sightedAt, own, observedOf] using earliest_singleton candidate.firstObservedAt
  · simpa [sightedAt, own, observedOf] using latest_singleton candidate.lastObservedAt

theorem Tallied.other {candidate : FailureCandidate}
    (tallied : Tallied digest initial observations candidate)
    (other : observedKey digest observation ≠ keyOf digest candidate) :
    Tallied digest initial (observations ++ [observation]) candidate := by
  obtain ⟨count, first, last⟩ := tallied
  refine ⟨?_, ?_, ?_⟩
  · rwa [sightings, observedOf_other other]
  · rwa [sightedAt, observedOf_other other]
  · rwa [sightedAt, observedOf_other other]

theorem Tallied.reobserved {matched : FailureCandidate}
    (tallied : Tallied digest initial observations matched)
    (key : keyOf digest matched = observedKey digest observation)
    (first : InOrder matched.firstObservedAt observation.observedAt)
    (last : InOrder matched.lastObservedAt observation.observedAt)
    (small : matched.observationCount < exactLimit) :
    Tallied digest initial (observations ++ [observation])
      (Hooks.reobserved matched observation.observedAt) := by
  have same : keyOf digest (Hooks.reobserved matched observation.observedAt) =
      observedKey digest observation := key
  have counted : (Hooks.reobserved matched observation.observedAt).observationCount =
      matched.observationCount + 1 := nearestDouble_exact small
  refine ⟨?_, ?_, ?_⟩
  · rw [counted, tallied.count, key, same, sightings, sightings, observedOf_same,
      List.length_append, List.length_singleton, Nat.add_assoc]
  · have bound := tallied.first.append (earliest_singleton observation.observedAt) first
    rw [same, sightedAt, observedOf_same, List.map_append, ← List.append_assoc]
    rw [key] at bound
    exact bound
  · have bound := tallied.last.append (latest_singleton observation.observedAt) last
    rw [same, sightedAt, observedOf_same, List.map_append, ← List.append_assoc]
    rw [key] at bound
    exact bound

theorem tallied_firstCandidate
    (fresh : observedKey digest observation ∉ initial.map (keyOf digest))
    (unseen : observedKey digest observation ∉ observations.map (observedKey digest)) :
    Tallied digest initial (observations ++ [observation]) (firstCandidate digest observation) := by
  have same : keyOf digest (firstCandidate digest observation) = observedKey digest observation := rfl
  have only : observedOf digest (observations ++ [observation]) (observedKey digest observation) =
      [observation] := by
    rw [observedOf_same, observedOf_of_not_mem unseen, List.nil_append]
  refine ⟨?_, ?_, ?_⟩
  · rw [same, sightings, ofKey_of_not_mem fresh, only]
    rfl
  · rw [same, sightedAt, ofKey_of_not_mem fresh, only]
    exact earliest_singleton observation.observedAt
  · rw [same, sightedAt, ofKey_of_not_mem fresh, only]
    exact latest_singleton observation.observedAt

theorem Accounts.capture (accounts : Accounts digest initial observations inbox)
    (sound : StepSound digest inbox observation) :
    Accounts digest initial (observations ++ [observation])
      (Hooks.capture digest localeCompare inbox observation) := by
  rcases @capture_cases digest localeCompare _ _ accounts.distinct sound with
    ⟨matched, rest, split, key, next⟩ | ⟨absent, next⟩
  · have inside : matched ∈ inbox := split.mem_iff.mpr List.mem_cons_self
    obtain ⟨first, last, small⟩ := sound.bounds matched inside key
    have keys : ((Hooks.capture digest localeCompare inbox observation).map (keyOf digest)).Perm
        (inbox.map (keyOf digest)) := (next.map (keyOf digest)).trans (split.map (keyOf digest)).symm
    refine ⟨keys.nodup_iff.mpr accounts.distinct, fun wanted => ?_, ?_, fun candidate listed => ?_⟩
    · rw [keys.mem_iff, accounts.covered, List.map_append, List.mem_append, ← or_assoc]
      refine (or_iff_left_of_imp fun last => ?_).symm
      rw [← accounts.covered, List.mem_singleton.mp last, ← key]
      exact List.mem_map_of_mem inside
    · have before := (split.map (·.observationCount)).sum_eq
      rw [(next.map (·.observationCount)).sum_eq, List.map_cons,
        List.sum_cons, List.length_append, ← Nat.add_assoc, ← accounts.total, before]
      have counted : (Hooks.reobserved matched observation.observedAt).observationCount =
          matched.observationCount + 1 := nearestDouble_exact small
      rw [counted, List.map_cons, List.sum_cons, List.length_singleton]
      omega
    · rcases List.mem_cons.mp (next.mem_iff.mp listed) with rfl | later
      · exact (accounts.tallied matched inside).reobserved key first last small
      · refine (accounts.tallied candidate (split.mem_iff.mpr
          (List.mem_cons_of_mem _ later))).other fun same => ?_
        have unique := (split.map (keyOf digest)).nodup_iff.mp accounts.distinct
        exact (List.nodup_cons.mp unique).1 (key.trans same ▸ List.mem_map_of_mem later)
  · have absentKeys := absent
    rw [accounts.covered, not_or] at absentKeys
    obtain ⟨fresh, unseen⟩ := absentKeys
    have keys : ((Hooks.capture digest localeCompare inbox observation).map (keyOf digest)).Perm
        (observedKey digest observation :: inbox.map (keyOf digest)) := next.map (keyOf digest)
    refine ⟨keys.nodup_iff.mpr (List.nodup_cons.mpr ⟨absent, accounts.distinct⟩),
      fun wanted => ?_, ?_, fun candidate listed => ?_⟩
    · rw [keys.mem_iff, List.mem_cons, accounts.covered, List.map_append, List.mem_append,
        List.map_singleton, List.mem_singleton]
      tauto
    · rw [(next.map (·.observationCount)).sum_eq, List.map_cons,
        List.sum_cons, accounts.total, List.length_append, List.length_singleton]
      have once : (firstCandidate digest observation).observationCount = 1 := rfl
      omega
    · rcases List.mem_cons.mp (next.mem_iff.mp listed) with rfl | held
      · exact tallied_firstCandidate fresh unseen
      · refine (accounts.tallied candidate held).other fun same => ?_
        exact absent (same ▸ List.mem_map_of_mem held)

/-- Every capture of a run is sound, over the inbox it finds. -/
def RunSound (digest : JsString → JsString) (localeCompare : JsString → JsString → Int) :
    List FailureCandidate → List FailureObservation → Prop
  | _, [] => True
  | inbox, observation :: rest =>
      StepSound digest inbox observation ∧
        RunSound digest localeCompare (capture digest localeCompare inbox observation) rest

/-- Over a run of sound captures the account is kept, by induction with what was already
captured. -/
theorem Accounts.run (accounts : Accounts digest initial observations inbox)
    {later : List FailureObservation} (sound : RunSound digest localeCompare inbox later) :
    Accounts digest initial (observations ++ later)
      (later.foldl (Hooks.capture digest localeCompare) inbox) := by
  induction later generalizing observations inbox with
  | nil => rwa [List.append_nil]
  | cons observation rest ih =>
      obtain ⟨first, others⟩ := sound
      have next := ih (@Accounts.capture digest localeCompare _ _ _ _ accounts first) others
      rwa [List.append_assoc, List.singleton_append] at next

end Accounts

section Keys

theorem toolFamilyText_injective {left right : ToolFamily} (same : left.text = right.text) :
    left = right := by
  revert same
  cases left <;> cases right <;> decide

theorem failureClassText_injective {left right : FailureKind}
    (same : failureClassText left = failureClassText right) : left = right := by
  revert same
  cases left <;> cases right <;> decide

theorem exitCodeJson_injective {left right : Option (Fin 256)}
    (same : exitCodeJson left = exitCodeJson right) : left = right := by
  cases left with
  | none =>
      cases right with
      | none => rfl
      | some exitCode => cases same
  | some exitCode =>
      cases right with
      | none => cases same
      | some other =>
          have equal := Int.ofNat.inj (Json.integer.inj same)
          rw [Fin.ext equal]

theorem identityJson_formed (identity : CandidateIdentity) : WellFormed (identityJson identity) := by
  have exitCode : WellFormed (exitCodeJson identity.exitCode) := by
    cases identity.exitCode with
    | none => trivial
    | some exitCode =>
        have small := exitCode.isLt
        have safe : isSafeInteger exitCode.val = true :=
          decide_eq_true (by rw [maxSafeInteger, Int.natAbs_natCast]; omega)
        exact safe
  simp only [identityJson, WellFormed, WellFormedItems, exitCode, and_self]

theorem identityText_injective {left right : CandidateIdentity}
    (same : identityText left = identityText right) : identityJson left = identityJson right := by
  have read (identity : CandidateIdentity) :
      parse (identityText identity) = some (identityJson identity) := by
    have parsed := @parse_stringify compact _ (identityJson_formed identity) [] nofun
    rwa [List.append_nil] at parsed
  have both := read left
  rw [same, read right] at both
  exact (Option.some.inj both).symm

/-- A digest that tells the two texts apart gives one key exactly to one normal form. -/
theorem same_key_iff {digest : JsString → JsString} {left right : CandidateIdentity}
    (injective : digest (identityText left) = digest (identityText right) →
      identityText left = identityText right) :
    candidateNormalizationKey digest left = candidateNormalizationKey digest right ↔
      left.toolFamily = right.toolFamily ∧ left.failureClass = right.failureClass ∧
        left.exitCode = right.exitCode ∧ normalizeCandidateDiagnostic left.diagnostic =
          normalizeCandidateDiagnostic right.diagnostic := by
  constructor
  · intro same
    have items := Json.array.inj (identityText_injective (injective same))
    simp only [List.cons.injEq, Json.string.injEq, and_true] at items
    obtain ⟨family, failure, exitCode, diagnostic⟩ := items
    exact ⟨toolFamilyText_injective family, failureClassText_injective failure,
      exitCodeJson_injective exitCode, diagnostic⟩
  · rintro ⟨family, failure, exitCode, diagnostic⟩
    simp only [candidateNormalizationKey, identityText, identityJson, family, failure, exitCode,
      diagnostic]

end Keys

/-- Failures observed in sound captures are accounted for by one candidate a key; keys are the
normal forms; and the changes of the ledger carry counts and bounds over where they compare
timestamps in the order of their instants. -/
theorem failure_observations_accounted (digest : JsString → JsString)
    (localeCompare : JsString → JsString → Int) (initial : List FailureCandidate)
    (observations : List FailureObservation) (distinct : (initial.map (keyOf digest)).Nodup)
    (sound : RunSound digest localeCompare initial observations) :
    Accounts digest initial observations
      (observations.foldl (capture digest localeCompare) initial) ∧
    (∀ left right : CandidateIdentity,
      (digest (identityText left) = digest (identityText right) →
        identityText left = identityText right) →
      (candidateNormalizationKey digest left = candidateNormalizationKey digest right ↔
        left.toolFamily = right.toolFamily ∧ left.failureClass = right.failureClass ∧
          left.exitCode = right.exitCode ∧ normalizeCandidateDiagnostic left.diagnostic =
            normalizeCandidateDiagnostic right.diagnostic)) ∧
    ∀ ledger candidates proposal now ready,
      reduceMemoryChangeV1_4 digest ledger candidates proposal now = .ok ready →
        ChangeExact ledger candidates proposal →
          ChangeCarries ledger candidates ready.ledger.confirmed proposal := by
  refine ⟨?_, fun left right => same_key_iff, ?_⟩
  · exact (accounts_start distinct).run sound
  · exact fun ledger candidates proposal now ready => change_carries

private def sampleFailure (observedAt : JsString) : FailureObservation where
  toolFamily := .shell
  failureClass := .nonzeroExit
  exitCode := some 1
  diagnostic := js "exit 1"
  observedAt := observedAt

private theorem capture_first (digest : JsString → JsString) (observation : FailureObservation) :
    capture digest compareText [] observation = [firstCandidate digest observation] := by
  simp [capture, captureCandidate, matchingCandidate, writeCandidate]

private theorem capture_second (digest : JsString → JsString) (first second : JsString) :
    [sampleFailure first, sampleFailure second].foldl (capture digest compareText) [] =
      [reobserved (firstCandidate digest (sampleFailure first)) second] := by
  have found : matchingCandidate digest compareText (sampleFailure second)
      [firstCandidate digest (sampleFailure first)] =
        some (firstCandidate digest (sampleFailure first)) := by
    rw [matchingCandidate, List.mergeSort_singleton]
    exact List.find?_cons_of_pos (beq_self_eq_true _)
  have written : captureCandidate digest compareText (sampleFailure second)
      [firstCandidate digest (sampleFailure first)] =
        reobserved (firstCandidate digest (sampleFailure first)) second := by
    rw [captureCandidate, found]
    rfl
  have present : (reobserved (firstCandidate digest (sampleFailure first)) second).candidateId ∈
      [firstCandidate digest (sampleFailure first)].map fun held => held.candidateId :=
    List.mem_cons_self
  rw [List.foldl_cons, capture_first, List.foldl_cons, List.foldl_nil, capture, written,
    writeCandidate, if_pos present]
  exact congrArg ([·]) (if_pos rfl)

theorem same_precision_accounted :
    Accounts Foundation.Sha256.sha256 []
      [sampleFailure (js "2026-01-01T00:00:00.5Z"), sampleFailure (js "2026-01-01T00:00:00.2Z")]
      ([sampleFailure (js "2026-01-01T00:00:00.5Z"),
        sampleFailure (js "2026-01-01T00:00:00.2Z")].foldl
          (capture Foundation.Sha256.sha256 compareText) []) := by
  refine (failure_observations_accounted Foundation.Sha256.sha256 compareText []
    [sampleFailure (js "2026-01-01T00:00:00.5Z"), sampleFailure (js "2026-01-01T00:00:00.2Z")]
    List.nodup_nil ⟨⟨nofun, fun _ => nofun, nofun⟩, ?_, trivial⟩).1
  rw [capture_first]
  refine ⟨?_, fun absent => absurd List.mem_cons_self absent, ?_⟩
  · rintro held member - other listed -
    rw [List.mem_singleton.mp member, List.mem_singleton.mp listed]
  · rintro held member -
    rw [List.mem_singleton.mp member]
    exact ⟨by decide +kernel, by decide +kernel, by decide⟩

/-- A whole second is a later text than its own half, so that the later failure is not the last. -/
theorem mixed_precision_misdated :
    Patterns.timestampPattern (js "2026-01-01T00:00:00Z") = true ∧
    Patterns.timestampPattern (js "2026-01-01T00:00:00.5Z") = true ∧
    ¬Accounts Foundation.Sha256.sha256 []
      [sampleFailure (js "2026-01-01T00:00:00Z"), sampleFailure (js "2026-01-01T00:00:00.5Z")]
      ([sampleFailure (js "2026-01-01T00:00:00Z"),
        sampleFailure (js "2026-01-01T00:00:00.5Z")].foldl
          (capture Foundation.Sha256.sha256 compareText) []) := by
  refine ⟨by decide +kernel, by decide +kernel, fun accounts => ?_⟩
  rw [capture_second] at accounts
  have seen : js "2026-01-01T00:00:00.5Z" ∈ sightedAt Foundation.Sha256.sha256
      (fun held => held.lastObservedAt) [] [sampleFailure (js "2026-01-01T00:00:00Z"),
        sampleFailure (js "2026-01-01T00:00:00.5Z")]
      (observedKey Foundation.Sha256.sha256 (sampleFailure (js "2026-01-01T00:00:00.5Z"))) := by
    refine List.mem_append_right _ (List.mem_map.mpr
      ⟨sampleFailure (js "2026-01-01T00:00:00.5Z"), List.mem_filter.mpr ⟨?_, ?_⟩, rfl⟩)
    · exact List.mem_cons_of_mem _ List.mem_cons_self
    · exact beq_self_eq_true _
  have bound := (accounts.tallied _ List.mem_cons_self).last.greatest _ seen
  have earlier : instant (maxText (js "2026-01-01T00:00:00Z") (js "2026-01-01T00:00:00.5Z")) <
      instant (js "2026-01-01T00:00:00.5Z") := by decide +kernel
  exact absurd bound (Int.not_le.mpr earlier)

end Kratos.Hooks
