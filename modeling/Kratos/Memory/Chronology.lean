/- source: domain/memory/index.ts
   digest: Where the earliest and latest texts are the earliest and latest instants. -/

import Kratos.Foundation.Instants
import Kratos.Memory.Upkeep

set_option autoImplicit false

namespace Kratos.Memory

open Foundation.Text Foundation.Doubles Foundation.Instants

/-- The instant of a timestamp in nanoseconds. -/
def instant (timestamp : JsString) : Int := (instantOf timestamp).getD 0

/-- The order of two texts agrees with the order of their instants. -/
def InOrder (left right : JsString) : Prop :=
  (before left right = true → instant left ≤ instant right) ∧
    (before right left = true → instant right ≤ instant left)

instance (left right : JsString) : Decidable (InOrder left right) :=
  inferInstanceAs (Decidable (_ ∧ _))

theorem instant_of_neither {left right : JsString} (forward : before left right ≠ true)
    (backward : before right left ≠ true) : instant left = instant right := by
  have same : left = right := Schema.notAfter_antisymm (by simpa [before] using backward)
    (by simpa [before] using forward)
  rw [same]

/-- One of the times, none of which is earlier. -/
structure Earliest (times : List JsString) (time : JsString) : Prop where
  listed : time ∈ times
  least : ∀ other ∈ times, instant time ≤ instant other

/-- One of the times, none of which is later. -/
structure Latest (times : List JsString) (time : JsString) : Prop where
  listed : time ∈ times
  greatest : ∀ other ∈ times, instant other ≤ instant time

section Pairs

variable {left right : JsString}

theorem InOrder.min_le (ordered : InOrder left right) :
    instant (minText left right) ≤ instant left ∧ instant (minText left right) ≤ instant right := by
  unfold minText
  split
  next forward => exact ⟨le_refl _, ordered.1 forward⟩
  next forward =>
    refine ⟨?_, le_refl _⟩
    by_cases backward : before right left = true
    · exact ordered.2 backward
    · exact (instant_of_neither forward backward).ge

theorem InOrder.le_max (ordered : InOrder left right) :
    instant left ≤ instant (maxText left right) ∧ instant right ≤ instant (maxText left right) := by
  unfold maxText
  split
  next backward => exact ⟨le_refl _, ordered.2 backward⟩
  next backward =>
    refine ⟨?_, le_refl _⟩
    by_cases forward : before left right = true
    · exact ordered.1 forward
    · exact (instant_of_neither forward backward).le

theorem minText_mem (left right : JsString) : minText left right = left ∨ minText left right = right := by
  unfold minText
  split
  · exact .inl rfl
  · exact .inr rfl

theorem maxText_mem (left right : JsString) : maxText left right = left ∨ maxText left right = right := by
  unfold maxText
  split
  · exact .inl rfl
  · exact .inr rfl

end Pairs

section Lists

variable {times others : List JsString} {time other : JsString}

theorem Earliest.append (left : Earliest times time) (right : Earliest others other)
    (ordered : InOrder time other) : Earliest (times ++ others) (minText time other) := by
  obtain ⟨first, second⟩ := ordered.min_le
  constructor
  · rcases minText_mem time other with same | same
    · rw [same]
      exact List.mem_append_left _ left.listed
    · rw [same]
      exact List.mem_append_right _ right.listed
  · intro each member
    rcases List.mem_append.mp member with held | later
    · exact first.trans (left.least each held)
    · exact second.trans (right.least each later)

theorem Latest.append (left : Latest times time) (right : Latest others other)
    (ordered : InOrder time other) : Latest (times ++ others) (maxText time other) := by
  obtain ⟨first, second⟩ := ordered.le_max
  constructor
  · rcases maxText_mem time other with same | same
    · rw [same]
      exact List.mem_append_left _ left.listed
    · rw [same]
      exact List.mem_append_right _ right.listed
  · intro each member
    rcases List.mem_append.mp member with held | later
    · exact (left.greatest each held).trans first
    · exact (right.greatest each later).trans second

theorem earliest_singleton (time : JsString) : Earliest [time] time :=
  ⟨List.mem_singleton_self time, fun other member => by rw [List.mem_singleton.mp member]⟩

theorem latest_singleton (time : JsString) : Latest [time] time :=
  ⟨List.mem_singleton_self time, fun other member => by rw [List.mem_singleton.mp member]⟩

/-- Every two of the times are in one order as texts and as instants. -/
def AllInOrder (times : List JsString) : Prop :=
  ∀ left ∈ times, ∀ right ∈ times, InOrder left right

instance (times : List JsString) : Decidable (AllInOrder times) :=
  inferInstanceAs (Decidable (∀ left ∈ times, ∀ right ∈ times, InOrder left right))

/-- The reduction by the lesser text runs through all times, by induction on those to come. -/
theorem foldl_minText (later : List JsString) (earliest : Earliest times time)
    (ordered : AllInOrder (times ++ later)) :
    Earliest (times ++ later) (later.foldl minText time) := by
  induction later generalizing times time with
  | nil => rwa [List.append_nil]
  | cons next later ih =>
      have pair : InOrder time next := ordered time (List.mem_append_left _ earliest.listed) next
        (List.mem_append_right _ List.mem_cons_self)
      have split : times ++ next :: later = (times ++ [next]) ++ later := by simp
      rw [split] at ordered ⊢
      exact ih (earliest.append (earliest_singleton next) pair) ordered

theorem foldl_maxText (later : List JsString) (latest : Latest times time)
    (ordered : AllInOrder (times ++ later)) :
    Latest (times ++ later) (later.foldl maxText time) := by
  induction later generalizing times time with
  | nil => rwa [List.append_nil]
  | cons next later ih =>
      have pair : InOrder time next := ordered time (List.mem_append_left _ latest.listed) next
        (List.mem_append_right _ List.mem_cons_self)
      have split : times ++ next :: later = (times ++ [next]) ++ later := by simp
      rw [split] at ordered ⊢
      exact ih (latest.append (latest_singleton next) pair) ordered

theorem reduce_minText {bound : JsString} (reduced : reduce minText times = some bound)
    (ordered : AllInOrder times) : Earliest times bound := by
  cases times with
  | nil => cases reduced
  | cons first later =>
      obtain rfl := Option.some.inj reduced
      exact foldl_minText later (earliest_singleton first) ordered

theorem reduce_maxText {bound : JsString} (reduced : reduce maxText times = some bound)
    (ordered : AllInOrder times) : Latest times bound := by
  cases times with
  | nil => cases reduced
  | cons first later =>
      obtain rfl := Option.some.inj reduced
      exact foldl_maxText later (latest_singleton first) ordered

end Lists

section Carrying

def CurrentCandidate.lastObservedAt (candidate : CurrentCandidate) : JsString :=
  match candidate.counted with
  | some (_, lastObservedAt) => lastObservedAt
  | none => candidate.firstObservedAt

def CurrentCandidate.observationCount (candidate : CurrentCandidate) : Nat :=
  match candidate.counted with
  | some (observationCount, _) => observationCount
  | none => 1

/-- The counts are added up and the bounds are the outermost ones. -/
structure Carries (counts : List Nat) (firsts lasts : List JsString) (count : Nat)
    (first last : JsString) : Prop where
  count : count = counts.sum
  first : Earliest firsts first
  last : Latest lasts last

theorem observationFacts_some {selected : List CurrentCandidate} {facts : ObservationFacts}
    (observed : observationFacts selected = some facts) :
    facts.observationCount = addUp (selected.map CurrentCandidate.observationCount) ∧
      reduce minText (selected.map CurrentCandidate.firstObservedAt) = some facts.firstObservedAt ∧
      reduce maxText (selected.map CurrentCandidate.lastObservedAt) = some facts.lastObservedAt := by
  obtain ⟨first, least, observed⟩ := Option.bind_eq_some_iff.mp observed
  obtain ⟨last, greatest, equal⟩ := Option.bind_eq_some_iff.mp observed
  obtain rfl := Option.some.inj equal
  exact ⟨rfl, least, greatest⟩

theorem observationFacts_carries {selected : List CurrentCandidate} {facts : ObservationFacts}
    (observed : observationFacts selected = some facts)
    (small : (selected.map CurrentCandidate.observationCount).sum ≤ exactLimit)
    (firsts : AllInOrder (selected.map CurrentCandidate.firstObservedAt))
    (lasts : AllInOrder (selected.map CurrentCandidate.lastObservedAt)) :
    Carries (selected.map CurrentCandidate.observationCount)
      (selected.map CurrentCandidate.firstObservedAt)
      (selected.map CurrentCandidate.lastObservedAt) facts.observationCount facts.firstObservedAt
      facts.lastObservedAt := by
  obtain ⟨count, least, greatest⟩ := observationFacts_some observed
  exact ⟨count.trans (addUp_exact small), reduce_minText least firsts,
    reduce_maxText greatest lasts⟩

variable {sha256 : JsString → JsString} {ledger : CuratedMemoryV1_1}

theorem mergedLesson_carries {source : List CurrentLesson} {canonical : CurrentLesson}
    (found : canonicalLesson source = some canonical) (reviewer now : JsString)
    (title : Option JsString)
    (small : (source.map CurrentLesson.observationCount).sum ≤ exactLimit)
    (firsts : AllInOrder (source.map CurrentLesson.firstObservedAt))
    (lasts : AllInOrder (source.map CurrentLesson.lastObservedAt)) :
    Carries (source.map CurrentLesson.observationCount) (source.map CurrentLesson.firstObservedAt)
      (source.map CurrentLesson.lastObservedAt)
      (mergedLesson sha256 source canonical reviewer now title).observationCount
      (mergedLesson sha256 source canonical reviewer now title).firstObservedAt
      (mergedLesson sha256 source canonical reviewer now title).lastObservedAt := by
  cases source with
  | nil => cases found
  | cons lesson rest =>
      exact ⟨addUp_exact small, reduce_minText rfl firsts, reduce_maxText rfl lasts⟩

/-- The counts a change adds up have a sum that doubles hold, and the timestamps it compares are
in one order as texts and as instants. -/
def ChangeExact (ledger : CuratedMemoryV1_1) (candidates : List CurrentCandidate) :
    MemoryChange → Prop
  | .promote promotion => ∀ selected,
      selectCandidates candidates promotion.candidateIds = some selected →
        (selected.map CurrentCandidate.observationCount).sum ≤ exactLimit ∧
          AllInOrder (selected.map CurrentCandidate.firstObservedAt) ∧
          AllInOrder (selected.map CurrentCandidate.lastObservedAt)
  | .reinforce _ lessonId candidateIds => ∀ lesson selected,
      findLesson ledger.confirmed lessonId = some lesson →
      selectCandidates candidates candidateIds = some selected →
        (lesson.observationCount :: selected.map CurrentCandidate.observationCount).sum ≤
            exactLimit ∧
          AllInOrder (lesson.firstObservedAt :: selected.map CurrentCandidate.firstObservedAt) ∧
          AllInOrder (lesson.lastObservedAt :: selected.map CurrentCandidate.lastObservedAt)
  | .merge _ lessonIds _ => ∀ source, lessonsByIds ledger.confirmed lessonIds = some source →
      (source.map CurrentLesson.observationCount).sum ≤ exactLimit ∧
        AllInOrder (source.map CurrentLesson.firstObservedAt) ∧
        AllInOrder (source.map CurrentLesson.lastObservedAt)
  | .archive .. => True

/-- The lesson a change leaves has the counts and bounds of what it was made of. -/
def ChangeCarries (ledger : CuratedMemoryV1_1) (candidates : List CurrentCandidate)
    (confirmed : List CurrentLesson) : MemoryChange → Prop
  | .promote promotion => ∃ selected lesson,
      selectCandidates candidates promotion.candidateIds = some selected ∧
        confirmed.Perm (ledger.confirmed ++ [lesson]) ∧
        Carries (selected.map CurrentCandidate.observationCount)
          (selected.map CurrentCandidate.firstObservedAt)
          (selected.map CurrentCandidate.lastObservedAt) lesson.observationCount
          lesson.firstObservedAt lesson.lastObservedAt
  | .reinforce _ lessonId candidateIds => ∃ lesson selected reinforced,
      findLesson ledger.confirmed lessonId = some lesson ∧
        selectCandidates candidates candidateIds = some selected ∧
        confirmed.Perm (replaceLesson ledger.confirmed lesson reinforced) ∧
        Carries (lesson.observationCount :: selected.map CurrentCandidate.observationCount)
          (lesson.firstObservedAt :: selected.map CurrentCandidate.firstObservedAt)
          (lesson.lastObservedAt :: selected.map CurrentCandidate.lastObservedAt)
          reinforced.observationCount reinforced.firstObservedAt reinforced.lastObservedAt
  | .merge _ ids _ => ∃ source merged,
      lessonsByIds ledger.confirmed ids = some source ∧
        confirmed.Perm (withoutLessons ledger.confirmed (lessonIds source) ++ [merged]) ∧
        Carries (source.map CurrentLesson.observationCount)
          (source.map CurrentLesson.firstObservedAt) (source.map CurrentLesson.lastObservedAt)
          merged.observationCount merged.firstObservedAt merged.lastObservedAt
  | .archive .. => True

theorem change_carries {candidates : List CurrentCandidate} {proposal : MemoryChange}
    {now : JsString} {ready : ReadyChange}
    (reduced : reduceMemoryChangeV1_4 sha256 ledger candidates proposal now = .ok ready)
    (ordered : ChangeExact ledger candidates proposal) :
    ChangeCarries ledger candidates ready.ledger.confirmed proposal := by
  have completion := change_cases reduced
  have sorted {confirmed archive ids} (completed : completeCurrent sha256 ledger confirmed archive
      ids now = .ok ready) : ready.ledger.confirmed.Perm confirmed := by
    rw [(completeCurrent_ok completed).2.1]
    exact List.perm_insertionSort _ confirmed
  cases proposal with
  | promote promotion =>
      obtain ⟨selected, facts, selection, observed, completed⟩ := completion
      obtain ⟨small, firsts, lasts⟩ := ordered selected selection
      exact ⟨selected, _, selection, sorted completed,
        observationFacts_carries observed small firsts lasts⟩
  | reinforce reviewer lessonId candidateIds =>
      obtain ⟨lesson, selected, facts, found, selection, observed, completed⟩ := completion
      obtain ⟨small, firsts, lasts⟩ := ordered lesson selected found selection
      rw [List.sum_cons] at small
      have carried := observationFacts_carries observed (by omega)
        (fun left member right => firsts left (List.mem_cons_of_mem _ member) right ∘
          List.mem_cons_of_mem _)
        (fun left member right => lasts left (List.mem_cons_of_mem _ member) right ∘
          List.mem_cons_of_mem _)
      refine ⟨lesson, selected, _, found, selection, sorted completed, ?_, ?_, ?_⟩
      · rw [List.sum_cons, ← carried.count]
        exact nearestDouble_exact (by rw [carried.count]; exact small)
      · exact (earliest_singleton lesson.firstObservedAt).append carried.first
          (firsts _ List.mem_cons_self _ (List.mem_cons_of_mem _ carried.first.listed))
      · exact (latest_singleton lesson.lastObservedAt).append carried.last
          (lasts _ List.mem_cons_self _ (List.mem_cons_of_mem _ carried.last.listed))
  | merge reviewer ids title =>
      obtain ⟨source, canonical, selection, found, completed⟩ := completion
      obtain ⟨small, firsts, lasts⟩ := ordered source selection
      exact ⟨source, _, selection, sorted completed,
        mergedLesson_carries found reviewer now (some title) small firsts lasts⟩
  | archive => trivial

end Carrying

end Kratos.Memory
