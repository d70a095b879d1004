/- source: domain/hooks/index.ts, domain/cli/hook.ts, domain/cli/unlock.ts
   digest: Usage does not depend on the order of delivery, and epochs latch until they are unlocked. -/

import Kratos.Foundation.Peaks
import Kratos.Hooks.Usage

set_option autoImplicit false

namespace Kratos.Hooks

open Foundation.Text Foundation.Doubles Foundation.Peaks

section Sessions

variable {localeCompare : JsString → JsString → Int} {sessions others : List SessionUsage}

abbrev sessionIds (sessions : List SessionUsage) : List JsString :=
  sessions.map SessionUsage.sessionId

theorem find_session_iff (distinct : (sessionIds sessions).Nodup) {sessionId : JsString}
    {session : SessionUsage} :
    sessions.find? (fun other => other.sessionId == sessionId) = some session ↔
      session ∈ sessions ∧ session.sessionId = sessionId := by
  constructor
  · intro found
    exact ⟨List.mem_of_find?_eq_some found, by simpa using List.find?_some found⟩
  · rintro ⟨listed, rfl⟩
    cases found : sessions.find? fun other => other.sessionId == session.sessionId with
    | none =>
        have absent := List.find?_eq_none.mp found session listed
        simp at absent
    | some other =>
        have same : other.sessionId = session.sessionId := by simpa using List.find?_some found
        rw [List.inj_on_of_nodup_map distinct (List.mem_of_find?_eq_some found) listed same]

theorem previousTokens_perm (distinct : (sessionIds sessions).Nodup) (same : others.Perm sessions)
    (sessionId : JsString) :
    previousTokens others sessionId = previousTokens sessions sessionId := by
  have distinctToo : (sessionIds others).Nodup := (same.map _).nodup_iff.mpr distinct
  have found : others.find? (fun other => other.sessionId == sessionId) =
      sessions.find? fun other => other.sessionId == sessionId := by
    ext session
    rw [find_session_iff distinctToo, find_session_iff distinct, same.mem_iff]
  rw [previousTokens, previousTokens, found]

variable {session : SessionUsage}

theorem withSession_perm : (withSession localeCompare sessions session).Perm
    (session :: sessions.filter fun other => other.sessionId != session.sessionId) :=
  (List.mergeSort_perm _ _).trans List.perm_append_comm

theorem cons_distinct (distinct : (sessionIds sessions).Nodup) :
    (sessionIds (session ::
      sessions.filter fun other => other.sessionId != session.sessionId)).Nodup := by
  refine List.nodup_cons.mpr ⟨?_, (List.filter_sublist.map _).nodup distinct⟩
  intro member
  obtain ⟨other, listed, same⟩ := List.mem_map.mp member
  have differs := (List.mem_filter.mp listed).2
  simp [same] at differs

theorem withSession_distinct (distinct : (sessionIds sessions).Nodup) :
    (sessionIds (withSession localeCompare sessions session)).Nodup :=
  (withSession_perm.map _).nodup_iff.mpr (cons_distinct distinct)

theorem find_other {sessionId : JsString} (other : session.sessionId ≠ sessionId) :
    (sessions.filter fun kept => kept.sessionId != session.sessionId).find?
        (fun kept => kept.sessionId == sessionId) =
      sessions.find? fun kept => kept.sessionId == sessionId := by
  rw [List.find?_filter]
  congr 1
  funext kept
  by_cases same : kept.sessionId = sessionId
  · simp [same, Ne.symm other]
  · simp [same]

theorem previousTokens_withSession (distinct : (sessionIds sessions).Nodup)
    (sessionId : JsString) :
    previousTokens (withSession localeCompare sessions session) sessionId =
      if session.sessionId = sessionId then session.cumulativeGrossTokens
      else previousTokens sessions sessionId := by
  rw [previousTokens_perm (cons_distinct distinct) withSession_perm]
  split
  next same => simp [previousTokens, same]
  next other =>
    rw [previousTokens, List.find?_cons_of_neg (by simpa using other), find_other other]
    rfl

end Sessions

section Events

inductive UsageEvent
  | sample (sample : UsageSample)
  | unlock (now : JsString)
  deriving DecidableEq, Repr

variable (localeCompare : JsString → JsString → Int)

def applyEvent (usage : RunUsage) : UsageEvent → RunUsage
  | .sample sample => (recordUsageSample localeCompare usage sample).usage
  | .unlock now => unlockStopLoss usage now

def newTokens (usage : RunUsage) : UsageEvent → Nat
  | .sample sample => (recordUsageSample localeCompare usage sample).newlyObservedGrossTokens
  | .unlock _ => 0

def usageRun (usage : RunUsage) (events : List UsageEvent) : RunUsage :=
  events.foldl (applyEvent localeCompare) usage

/-- The tokens newly observed over the steps of a run. -/
def observedTokens : RunUsage → List UsageEvent → Nat
  | _, [] => 0
  | usage, event :: rest =>
      newTokens localeCompare usage event + observedTokens (applyEvent localeCompare usage event) rest

/-- The cumulative value that an event shows of a session. -/
def shownBy : UsageEvent → Option (JsString × Nat)
  | .sample sample => sample.cumulativeGrossTokens.map (sample.sessionId, ·)
  | .unlock _ => none

def shown (events : List UsageEvent) : List (JsString × Nat) := events.filterMap shownBy

end Events

section Booking

variable {localeCompare : JsString → JsString → Int} {samples : List (JsString × Nat)}
  {usage : RunUsage}

/-- The usage keeps the greatest value of every session and their sum. -/
structure Booked (samples : List (JsString × Nat)) (usage : RunUsage) : Prop where
  distinct : (sessionIds usage.sessions).Nodup
  peaks : ∀ sessionId, previousTokens usage.sessions sessionId = peak samples sessionId
  total : usage.totalGrossTokens = sumOfPeaks samples

theorem booked_initial (runId now : JsString) : Booked [] (initialRunUsage runId now) :=
  ⟨List.nodup_nil, fun _ => rfl, rfl⟩

theorem Booked.congr {other : RunUsage} (booked : Booked samples usage)
    (sessions : other.sessions = usage.sessions)
    (total : other.totalGrossTokens = usage.totalGrossTokens) : Booked samples other :=
  ⟨sessions ▸ booked.distinct, fun sessionId => sessions ▸ booked.peaks sessionId,
    total.trans booked.total⟩

/-- A value that a session has already reached leaves the books as they are. -/
theorem Booked.reached (booked : Booked samples usage) {sessionId : JsString} {value : Nat}
    (reached : max (peak samples sessionId) value - peak samples sessionId = 0) :
    Booked (samples ++ [(sessionId, value)]) usage := by
  refine ⟨booked.distinct, fun other => ?_, ?_⟩
  · rw [booked.peaks, peak_snoc]
    split
    next same =>
      subst same
      omega
    next => rfl
  · rw [booked.total, sumOfPeaks_snoc, reached, Nat.add_zero]

theorem Booked.accepted (booked : Booked samples usage) {sample : UsageSample} {value : Nat}
    (small : sumOfPeaks (samples ++ [(sample.sessionId, value)]) ≤ exactLimit) :
    Booked (samples ++ [(sample.sessionId, value)])
      (Hooks.accepted localeCompare usage sample (max (peak samples sample.sessionId) value)
        (max (peak samples sample.sessionId) value - peak samples sample.sessionId)) := by
  refine ⟨withSession_distinct booked.distinct, fun other => ?_, ?_⟩
  · have kept := @previousTokens_withSession localeCompare usage.sessions
      ⟨sample.sessionId, max (peak samples sample.sessionId) value⟩ booked.distinct other
    rw [peak_snoc]
    refine kept.trans ?_
    split
    next same =>
      subst same
      rfl
    next => exact booked.peaks other
  · rw [sumOfPeaks_snoc] at small
    show nearestDouble (usage.totalGrossTokens + _) = _
    rw [booked.total, nearestDouble_exact small, sumOfPeaks_snoc]

theorem Booked.step (booked : Booked samples usage) (event : UsageEvent)
    (small : sumOfPeaks (samples ++ shown [event]) ≤ exactLimit) :
    Booked (samples ++ shown [event]) (applyEvent localeCompare usage event) ∧
      sumOfPeaks samples + newTokens localeCompare usage event =
        sumOfPeaks (samples ++ shown [event]) := by
  cases event with
  | unlock now =>
      rw [show samples ++ shown [.unlock now] = samples from List.append_nil samples]
      exact ⟨booked.congr rfl rfl, rfl⟩
  | sample sample =>
      cases given : sample.cumulativeGrossTokens with
      | none =>
          have nothing : shown [.sample sample] = [] := by simp [shown, shownBy, given]
          rw [nothing, List.append_nil, applyEvent, newTokens, recordUsageSample, given]
          simp only
          split
          · exact ⟨booked.congr rfl rfl, rfl⟩
          · exact ⟨booked.congr rfl rfl, rfl⟩
      | some value =>
          have one : shown [.sample sample] = [(sample.sessionId, value)] := by
            simp [shown, shownBy, given]
          rw [one] at small ⊢
          rw [applyEvent, newTokens, recordUsageSample, given]
          simp only [booked.peaks]
          split
          next reached =>
            exact ⟨booked.reached reached, by rw [sumOfPeaks_snoc, reached]; rfl⟩
          next =>
            exact ⟨booked.accepted small, (sumOfPeaks_snoc sample.sessionId value).symm⟩

theorem shown_append (front back : List UsageEvent) :
    shown (front ++ back) = shown front ++ shown back := List.filterMap_append ..

/-- Over a run the books are kept and the steps add up, by induction with what was shown before. -/
theorem Booked.run (booked : Booked samples usage) (events : List UsageEvent)
    (small : sumOfPeaks (samples ++ shown events) ≤ exactLimit) :
    Booked (samples ++ shown events) (usageRun localeCompare usage events) ∧
      sumOfPeaks samples + observedTokens localeCompare usage events =
        sumOfPeaks (samples ++ shown events) := by
  induction events generalizing samples usage with
  | nil =>
      rw [show samples ++ shown [] = samples from List.append_nil samples]
      exact ⟨booked, rfl⟩
  | cons event rest ih =>
      have split : samples ++ shown (event :: rest) = (samples ++ shown [event]) ++ shown rest := by
        rw [List.append_assoc, ← shown_append]
        rfl
      rw [split] at small ⊢
      obtain ⟨next, added⟩ := @Booked.step localeCompare _ _ booked event
        (sumOfPeaks_le_append.trans small)
      obtain ⟨final, sum⟩ := ih next small
      refine ⟨final, ?_⟩
      rw [observedTokens, ← Nat.add_assoc, added, sum]

end Booking

section Epochs

variable {localeCompare : JsString → JsString → Int} {samples : List (JsString × Nat)}
  {usage : RunUsage}

def UsageEvent.isSample : UsageEvent → Prop
  | .sample _ => True
  | .unlock _ => False

theorem usageRun_append (front back : List UsageEvent) :
    usageRun localeCompare usage (front ++ back) =
      usageRun localeCompare (usageRun localeCompare usage front) back := List.foldl_append ..

/-- What a sample does to the epoch: it stays, or is exhausted by tokens newly observed. -/
theorem sample_epoch (usage : RunUsage) (sample : UsageSample) :
    (applyEvent localeCompare usage (.sample sample)).epoch =
      { usage.epoch with
        exhaustedAt := usage.epoch.exhaustedAt.or
          (if newTokens localeCompare usage (.sample sample) ≠ 0 ∧
              spent sample.budget
                (applyEvent localeCompare usage (.sample sample)).totalGrossTokens
                usage.epoch.baselineGrossTokens = true
            then some sample.now else none) } := by
  cases given : sample.cumulativeGrossTokens with
  | none =>
      rw [applyEvent, newTokens, recordUsageSample, given]
      simp only
      split <;> simp [sampleResult]
  | some value =>
      rw [applyEvent, newTokens, recordUsageSample, given]
      simp only
      split
      next => simp [sampleResult]
      next more =>
        simp only [sampleResult, accepted, more, ne_eq, not_false_eq_true, true_and]
        cases usage.epoch.exhaustedAt with
        | none => simp
        | some time => simp

/-- An exhausted epoch stays exhausted, at the same time, while nothing unlocks it. -/
theorem latch {time : JsString} (latched : usage.epoch.exhaustedAt = some time)
    {events : List UsageEvent} (samplesOnly : ∀ event ∈ events, event.isSample) :
    (usageRun localeCompare usage events).epoch.exhaustedAt = some time := by
  induction events generalizing usage with
  | nil => exact latched
  | cons event rest ih =>
      obtain ⟨first, later⟩ := List.forall_mem_cons.mp samplesOnly
      cases event with
      | unlock now => cases first
      | sample sample =>
          refine ih ?_ later
          rw [sample_epoch, latched]
          rfl

theorem baseline_kept {events : List UsageEvent} (samplesOnly : ∀ event ∈ events, event.isSample) :
    (usageRun localeCompare usage events).epoch.baselineGrossTokens =
      usage.epoch.baselineGrossTokens := by
  induction events generalizing usage with
  | nil => rfl
  | cons event rest ih =>
      obtain ⟨first, later⟩ := List.forall_mem_cons.mp samplesOnly
      cases event with
      | unlock now => cases first
      | sample sample =>
          refine (ih later).trans ?_
          rw [sample_epoch]

theorem spent_iff {budget : Option Nat} {baseline observed : Nat}
    (small : baseline + observed ≤ exactLimit) :
    spent budget (baseline + observed) baseline = true ↔
      ∃ tokens, budget = some tokens ∧ tokens ≤ observed := by
  have difference : ((baseline + observed : Nat) : Int) - baseline = observed := by omega
  have exactly : nearestInteger ((baseline + observed : Nat) - baseline : Int) = observed := by
    rw [difference, nearestInteger_exact]
    rw [Int.natAbs_natCast]
    omega
  cases budget with
  | none => simp [spent]
  | some tokens =>
      simp only [spent, exactly, decide_eq_true_eq, Option.some.injEq, exists_eq_left']
      omega

/-- Tokens of the run after some time reach the budget of a sample that newly observes some. -/
def SpentSince (localeCompare : JsString → JsString → Int) (start : RunUsage)
    (events : List UsageEvent) : Prop :=
  ∃ front sample back tokens, events = front ++ .sample sample :: back ∧
    newTokens localeCompare (usageRun localeCompare start front) (.sample sample) ≠ 0 ∧
    sample.budget = some tokens ∧
    tokens ≤ observedTokens localeCompare start (front ++ [.sample sample])

theorem spentSince_snoc {start : RunUsage} {events : List UsageEvent} {sample : UsageSample} :
    SpentSince localeCompare start (events ++ [.sample sample]) ↔
      SpentSince localeCompare start events ∨
        newTokens localeCompare (usageRun localeCompare start events) (.sample sample) ≠ 0 ∧
          ∃ tokens, sample.budget = some tokens ∧
            tokens ≤ observedTokens localeCompare start (events ++ [.sample sample]) := by
  constructor
  · rintro ⟨front, other, back, tokens, equal, more, budget, reached⟩
    rcases List.eq_nil_or_concat back with rfl | ⟨rest, last, rfl⟩
    · obtain ⟨rfl, same⟩ := List.append_inj' equal rfl
      obtain rfl := UsageEvent.sample.inj (List.singleton_inj.mp same)
      exact .inr ⟨more, tokens, budget, reached⟩
    · left
      have split : events ++ [.sample sample] = (front ++ .sample other :: rest) ++ [last] := by
        rw [equal]
        simp
      obtain ⟨rfl, -⟩ := List.append_inj' split rfl
      exact ⟨front, other, rest, tokens, rfl, more, budget, reached⟩
  · rintro (⟨front, other, back, tokens, rfl, more, budget, reached⟩ | ⟨more, tokens, budget, reached⟩)
    · exact ⟨front, other, back ++ [.sample sample], tokens, by simp, more, budget, reached⟩
    · exact ⟨events, sample, [], tokens, rfl, more, budget, reached⟩

theorem usageRun_snoc (start : RunUsage) (front : List UsageEvent) (event : UsageEvent) :
    usageRun localeCompare start (front ++ [event]) =
      applyEvent localeCompare (usageRun localeCompare start front) event :=
  usageRun_append front [event]

theorem exhausted_snoc (start : RunUsage) (front : List UsageEvent) (sample : UsageSample) :
    (usageRun localeCompare start (front ++ [.sample sample])).epoch.exhaustedAt.isSome ↔
      (usageRun localeCompare start front).epoch.exhaustedAt.isSome ∨
        newTokens localeCompare (usageRun localeCompare start front) (.sample sample) ≠ 0 ∧
          spent sample.budget
            (usageRun localeCompare start (front ++ [.sample sample])).totalGrossTokens
            (usageRun localeCompare start front).epoch.baselineGrossTokens = true := by
  rw [usageRun_snoc, sample_epoch]
  cases (usageRun localeCompare start front).epoch.exhaustedAt with
  | some time => simp
  | none =>
      simp only [Option.none_or, Option.isSome_none, Bool.false_eq_true, false_or]
      split
      next both => exact iff_of_true rfl both
      next neither => exact iff_of_false nofun neither

/-- From an unlock on, only the tokens observed since count against the budget. -/
theorem unlocked_totals {now : JsString} (booked : Booked samples usage) (events : List UsageEvent)
    (small : sumOfPeaks (samples ++ shown events) ≤ exactLimit) :
    (usageRun localeCompare (unlockStopLoss usage now) events).totalGrossTokens =
        usage.totalGrossTokens + observedTokens localeCompare (unlockStopLoss usage now) events ∧
      usage.totalGrossTokens + observedTokens localeCompare (unlockStopLoss usage now) events ≤
        exactLimit := by
  have unlocked : Booked samples (unlockStopLoss usage now) := booked.congr rfl rfl
  obtain ⟨kept, sum⟩ := @Booked.run localeCompare _ _ unlocked events small
  rw [kept.total, booked.total, sum]
  exact ⟨rfl, small⟩

theorem unlocked_exhausted {now : JsString} (booked : Booked samples usage)
    {events : List UsageEvent} (samplesOnly : ∀ event ∈ events, event.isSample)
    (small : sumOfPeaks (samples ++ shown events) ≤ exactLimit) :
    (usageRun localeCompare (unlockStopLoss usage now) events).epoch.exhaustedAt.isSome ↔
      SpentSince localeCompare (unlockStopLoss usage now) events := by
  induction events using List.reverseRecOn with
  | nil =>
      refine iff_of_false (by simp [usageRun, unlockStopLoss]) ?_
      rintro ⟨front, sample, back, tokens, equal, -⟩
      simp at equal
  | append_singleton front event ih =>
      obtain ⟨before, last⟩ := List.forall_mem_append.mp samplesOnly
      have kind := last event (List.mem_singleton_self event)
      cases event with
      | unlock now => cases kind
      | sample sample =>
          have few : sumOfPeaks (samples ++ shown front) ≤ exactLimit := by
            rw [shown_append, ← List.append_assoc] at small
            exact sumOfPeaks_le_append.trans small
          obtain ⟨total, bound⟩ := @unlocked_totals localeCompare _ _ now booked _ small
          have base : (usageRun localeCompare (unlockStopLoss usage now) front).epoch.baselineGrossTokens =
              usage.totalGrossTokens := baseline_kept before
          rw [exhausted_snoc, spentSince_snoc, ih before few, total, base, spent_iff bound]

theorem recordUsageSample_stopLoss (usage : RunUsage) (sample : UsageSample) :
    (recordUsageSample localeCompare usage sample).stopLoss.exhausted =
      ((applyEvent localeCompare usage (.sample sample)).epoch.exhaustedAt.isSome ||
        spent sample.budget (applyEvent localeCompare usage (.sample sample)).totalGrossTokens
          (applyEvent localeCompare usage (.sample sample)).epoch.baselineGrossTokens) := by
  rw [applyEvent, recordUsageSample]
  cases sample.cumulativeGrossTokens with
  | none =>
      simp only
      split <;> rfl
  | some value =>
      simp only
      split <;> rfl

/-- The stop-loss that a sample reports: an exhausted epoch, or a budget reached since the
unlock. -/
theorem unlocked_stopLoss {now : JsString} (booked : Booked samples usage)
    {events : List UsageEvent} {sample : UsageSample}
    (samplesOnly : ∀ event ∈ events, event.isSample)
    (small : sumOfPeaks (samples ++ shown (events ++ [.sample sample])) ≤ exactLimit) :
    (recordUsageSample localeCompare (usageRun localeCompare (unlockStopLoss usage now) events)
        sample).stopLoss.exhausted = true ↔
      SpentSince localeCompare (unlockStopLoss usage now) (events ++ [.sample sample]) ∨
        ∃ tokens, sample.budget = some tokens ∧ tokens ≤
          observedTokens localeCompare (unlockStopLoss usage now) (events ++ [.sample sample]) := by
  have all : ∀ event ∈ events ++ [.sample sample], event.isSample :=
    List.forall_mem_append.mpr ⟨samplesOnly, List.forall_mem_singleton.mpr trivial⟩
  obtain ⟨total, bound⟩ := @unlocked_totals localeCompare _ _ now booked _ small
  have base : (usageRun localeCompare (unlockStopLoss usage now)
      (events ++ [.sample sample])).epoch.baselineGrossTokens = usage.totalGrossTokens :=
    baseline_kept all
  rw [recordUsageSample_stopLoss, ← usageRun_snoc, Bool.or_eq_true, unlocked_exhausted booked all small,
    total, base, spent_iff bound]

end Epochs

section Books

variable {localeCompare : JsString → JsString → Int}

/-- What the hook and the unlock command are given. -/
inductive BooksEvent
  | sample (sample : UsageSample)
  | unlock (requested confirmation : Option JsString) (now : JsString)

def booksStep (localeCompare : JsString → JsString → Int) (books : StopLossBooks) :
    BooksEvent → StopLossBooks
  | .sample sample => hookSample localeCompare books sample
  | .unlock requested confirmation now => unlockCommand books requested confirmation now

/-- The gates are exhausted wherever the epoch is. -/
def Latched (books : StopLossBooks) : Prop :=
  books.usage.epoch.exhaustedAt.isSome → books.stopLoss.exhausted = true

theorem booksStep_latched {books : StopLossBooks} (latched : Latched books) (event : BooksEvent) :
    Latched (booksStep localeCompare books event) := by
  cases event with
  | sample sample =>
      intro exhausted
      have reported := @recordUsageSample_stopLoss localeCompare books.usage sample
      have same : (applyEvent localeCompare books.usage (.sample sample)).epoch.exhaustedAt.isSome :=
        exhausted
      rw [same, Bool.true_or] at reported
      show (books.stopLoss.exhausted || _) = true
      rw [reported, Bool.or_true]
  | unlock requested confirmation now =>
      show Latched (unlockCommand books requested confirmation now)
      unfold unlockCommand
      split_ifs
      · exact latched
      · exact latched
      · exact latched
      · exact fun exhausted => absurd exhausted Bool.false_ne_true

theorem booksRun_latched {books : StopLossBooks} (latched : Latched books)
    (events : List BooksEvent) : Latched (events.foldl (booksStep localeCompare) books) := by
  induction events generalizing books with
  | nil => exact latched
  | cons event rest ih => exact ih (booksStep_latched latched event)

end Books

/-- Usage is accounted for by session whatever the order of delivery, while the sum of the
greatest values is small enough to be exact; and the epochs latch until they are unlocked. -/
theorem usage_accounted (localeCompare : JsString → JsString → Int) (runId now : JsString)
    (events : List UsageEvent) (small : sumOfPeaks (shown events) ≤ exactLimit) :
    let start := initialRunUsage runId now
    let state := usageRun localeCompare start events
    Booked (shown events) state ∧
    observedTokens localeCompare start events = state.totalGrossTokens ∧
    (∀ other : List UsageEvent, (∀ sample, sample ∈ shown other ↔ sample ∈ shown events) →
      (usageRun localeCompare start other).totalGrossTokens = state.totalGrossTokens ∧
        ∀ sessionId, previousTokens (usageRun localeCompare start other).sessions sessionId =
          previousTokens state.sessions sessionId) ∧
    (∀ front back, events = front ++ back →
      (usageRun localeCompare start front).totalGrossTokens ≤ state.totalGrossTokens) ∧
    (∀ front back time, events = front ++ back → (∀ event ∈ back, event.isSample) →
      (usageRun localeCompare start front).epoch.exhaustedAt = some time →
        state.epoch.exhaustedAt = some time) ∧
    (∀ front unlockedAt back, events = front ++ .unlock unlockedAt :: back →
      (∀ event ∈ back, event.isSample) →
        let unlocked := unlockStopLoss (usageRun localeCompare start front) unlockedAt
        state.totalGrossTokens - state.epoch.baselineGrossTokens =
            observedTokens localeCompare unlocked back ∧
          (state.epoch.exhaustedAt.isSome ↔ SpentSince localeCompare unlocked back) ∧
          ∀ earlier sample, back = earlier ++ [.sample sample] →
            ((recordUsageSample localeCompare (usageRun localeCompare unlocked earlier)
                sample).stopLoss.exhausted = true ↔
              SpentSince localeCompare unlocked back ∨ ∃ tokens, sample.budget = some tokens ∧
                tokens ≤ observedTokens localeCompare unlocked back)) ∧
    ∀ given : List BooksEvent, Latched (given.foldl (booksStep localeCompare)
      ⟨start, { tripped := false, exhausted := false }⟩) := by
  intro start state
  have initial : Booked [] start := booked_initial runId now
  have whole (other : List UsageEvent) (few : sumOfPeaks (shown other) ≤ exactLimit) :=
    @Booked.run localeCompare _ _ initial other few
  obtain ⟨booked, sum⟩ := whole events small
  refine ⟨booked, ?_, ?_, ?_, ?_, ?_, ?_⟩
  · rw [booked.total, ← sum]
    exact (Nat.zero_add _).symm
  · intro other same
    obtain ⟨bookedToo, -⟩ := whole other (sumOfPeaks_congr same ▸ small)
    refine ⟨?_, fun sessionId => ?_⟩
    · rw [bookedToo.total, booked.total]
      exact sumOfPeaks_congr same
    · rw [bookedToo.peaks, booked.peaks]
      exact congrFun (peak_congr same) sessionId
  · rintro front back rfl
    have few : sumOfPeaks (shown front) ≤ exactLimit := by
      rw [shown_append] at small
      exact sumOfPeaks_le_append.trans small
    rw [(whole front few).1.total, booked.total, shown_append]
    exact sumOfPeaks_le_append
  · rintro front back time rfl samplesOnly latched
    show (usageRun localeCompare start (front ++ back)).epoch.exhaustedAt = some time
    rw [usageRun_append]
    exact latch latched samplesOnly
  · rintro front unlockedAt back rfl samplesOnly unlocked
    rw [shown_append] at small
    have later : shown (.unlock unlockedAt :: back) = shown back := rfl
    rw [later] at small
    have few : sumOfPeaks (shown front) ≤ exactLimit := sumOfPeaks_le_append.trans small
    have frontBooked := (whole front few).1
    have shape : state = usageRun localeCompare unlocked back := usageRun_append front _
    obtain ⟨total, -⟩ := @unlocked_totals localeCompare _ _ unlockedAt frontBooked back small
    refine ⟨?_, ?_, ?_⟩
    · rw [shape, total, baseline_kept samplesOnly]
      exact Nat.add_sub_cancel_left ..
    · rw [shape]
      exact unlocked_exhausted frontBooked samplesOnly small
    · rintro earlier sample rfl
      exact unlocked_stopLoss frontBooked (List.forall_mem_append.mp samplesOnly).1 small
  · refine fun given => booksRun_latched (fun exhausted => ?_) given
    exact absurd exhausted Bool.false_ne_true

private def tokensOf (sessionId : String) (tokens : Nat) : UsageEvent :=
  .sample { sessionId := js sessionId, cumulativeGrossTokens := some tokens, budget := none,
            now := js "2026-01-01T00:00:00Z" }

theorem late_sample_accounted :
    observedTokens (fun _ _ => 0) (initialRunUsage (js "run") (js "2026-01-01T00:00:00Z"))
        [tokensOf "a" 5, tokensOf "b" 3, tokensOf "a" 2] =
      (usageRun (fun _ _ => 0) (initialRunUsage (js "run") (js "2026-01-01T00:00:00Z"))
        [tokensOf "a" 5, tokensOf "b" 3, tokensOf "a" 2]).totalGrossTokens :=
  (usage_accounted (fun _ _ => 0) (js "run") (js "2026-01-01T00:00:00Z")
    [tokensOf "a" 5, tokensOf "b" 3, tokensOf "a" 2] (by decide +kernel)).2.1

/-- Past the exact numbers a token is newly observed and not added. -/
theorem large_total_inexact :
    newTokens (fun _ _ => 0) (usageRun (fun _ _ => 0)
        (initialRunUsage (js "run") (js "2026-01-01T00:00:00Z"))
        [tokensOf "a" 9007199254740991, tokensOf "b" 1]) (tokensOf "c" 1) = 1 ∧
    (usageRun (fun _ _ => 0) (initialRunUsage (js "run") (js "2026-01-01T00:00:00Z"))
      [tokensOf "a" 9007199254740991, tokensOf "b" 1, tokensOf "c" 1]).totalGrossTokens =
        9007199254740992 ∧
    sumOfPeaks (shown [tokensOf "a" 9007199254740991, tokensOf "b" 1, tokensOf "c" 1]) =
      9007199254740993 := by
  obtain ⟨booked, -⟩ := @Booked.run (fun _ _ => 0) _ _
    (booked_initial (js "run") (js "2026-01-01T00:00:00Z"))
    [tokensOf "a" 9007199254740991, tokensOf "b" 1] (by decide +kernel)
  set before := usageRun (fun _ _ => 0) (initialRunUsage (js "run") (js "2026-01-01T00:00:00Z"))
    [tokensOf "a" 9007199254740991, tokensOf "b" 1]
  have fresh : previousTokens before.sessions (js "c") = 0 := by
    rw [booked.peaks]
    decide +kernel
  have total : before.totalGrossTokens = 9007199254740992 := by
    rw [booked.total]
    decide +kernel
  refine ⟨?_, ?_, by decide +kernel⟩
  · simp [newTokens, tokensOf, recordUsageSample, fresh, sampleResult]
  · show (applyEvent (fun _ _ => 0) before (tokensOf "c" 1)).totalGrossTokens = _
    simp only [applyEvent, tokensOf, recordUsageSample, fresh, sampleResult, accepted, total]
    decide +kernel

end Kratos.Hooks
