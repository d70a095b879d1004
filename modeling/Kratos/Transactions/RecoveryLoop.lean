/- source: composition/transactions.ts
   digest: The loop of a recovery decides until the transaction is at its end, and says so. -/

import Kratos.Transactions.Publishing

set_option autoImplicit false

namespace Kratos.Transactions

open Foundation.Text Foundation.Crashes Locks.Guard Transactions.Driver

variable {u : Undertaking} {disk : Disk} {view : View} {progress stored memory : TransactionProgressV1}
  {front index count : Nat} {operation : ManagedOperation} {failed : DriverFailure → Disk → Prop}

section Ending

theorem payloadNode_loose (index : Nat) : Loose (payloadNode u index) := by
  rw [payloadNode]
  cases u.plan[index]? with
  | none => exact .inl rfl
  | some operation =>
      rw [Option.bind_some]
      cases operation.kind with
      | writeFile content => exact .inr ⟨content, rfl⟩
      | createDirectory | deleteFile => exact .inl rfl

theorem Bound.payloads (bound : Bound u front progress view) (index : Nat) :
    Loose (view.own (.payload index)) := by
  have whole := payloadNode_loose (u := u) index
  have stage := bound.stage
  unfold Stage at stage
  cases phase : progress.phase with
  | begun =>
      rw [phase] at stage
      exact stage.elim
  | prepared =>
      rw [phase] at stage
      rwa [stage.2.2.2 index]
  | publishing =>
      rw [phase] at stage
      obtain ⟨count, -, -, -, -, -, left⟩ := stage
      rw [left index]
      split
      · exact .inl rfl
      · exact whole
  | committed =>
      rw [phase] at stage
      exact .inl (stage.2.2.2 index)
  | aborted =>
      rw [phase] at stage
      rcases stage.2.2.2 index with gone | there
      · exact .inl gone
      · rwa [there]

/-- The destinations of a transaction at its end are all done or all as they were. -/
theorem Bound.ended (bound : Bound u front progress view)
    (ended : progress.phase = .committed ∨ progress.phase = .aborted) :
    front = (if publishes progress.phase then u.plan.length else 0) ∧
      progress.phase = if publishes progress.phase then .committed else .aborted := by
  have stage := bound.stage
  unfold Stage at stage
  rcases ended with phase | phase
  · rw [phase] at stage ⊢
    exact ⟨stage.1, rfl⟩
  · rw [phase] at stage ⊢
    exact ⟨stage.1, rfl⟩

theorem Bound.settled (bound : Bound u front progress view)
    (ended : progress.phase = .committed ∨ progress.phase = .aborted) (tidy : Tidy view)
    (known : Written progress.toTransactionProgress memory) :
    ∃ receipt, receiptFromProgress memory = .done receipt ∧
      Settled u (publishes progress.phase) receipt view := by
  have phase : memory.phase = progress.phase := by
    rw [known.same]
  obtain ⟨whole, named⟩ := bound.ended ended
  refine ⟨_, receiptFromProgress_done (by rwa [phase]), ?_⟩
  exact
    { standing := bound.standing
      tidy := tidy
      destinations := by
        rw [← whole]
        exact bound.destinations
      phase := phase.trans named
      recorded := ⟨progress, bound.toRecorded, phase.symm, by rw [known.same], by rw [known.same],
        by rw [known.same]⟩ }

theorem Bound.ensures_cleanUp {directorySync : DirectorySync} (bound : Bound u front progress view)
    (ended : progress.phase = .committed ∨ progress.phase = .aborted) (sound : u.Sound)
    (shows : Shows u view disk) (known : Written progress.toTransactionProgress memory) :
    Ensures u.machine (Upheld u (Standing u (publishes progress.phase)))
      (fun next final => ∃ stored last, Shows u last final ∧ Bound u front stored last ∧ Tidy last ∧
        stored.toTransactionProgress = progress.toTransactionProgress ∧
          Written stored.toTransactionProgress next) failed
      (cleanupTransaction (manifestOf u progress.createdAt) directorySync >>=
        persistTerminalDirectorySync memory) disk := by
  have owned : memory.transactionId = u.transactionId := by
    rw [known.same]
    exact bound.identified
  refine (ensures_cleanupTransaction sound shows bound.payloads bound.scratch bound.housing
    fun later kept => (bound.cleared kept ended).standing).bind fun observed first ⟨later, shown, kept, tidy⟩ => ?_
  have clean := bound.cleared kept ended
  have again : ∀ {stored}, Written memory.toTransactionProgress stored →
      Written progress.toTransactionProgress stored := fun written => known.same ▸ written
  refine (ensures_persistTerminalDirectorySync sound shown known.valid owned clean.scratch
    (.inr ⟨_, clean.held⟩) (fun node loose => (clean.beside loose).standing) (fun stored written => ?_)).weaken ?_
  · have standing := (clean.rewritten (again written)).standing
    rwa [show stored.phase = progress.phase from congrArg TransactionProgress.phase
      (again written).same] at standing
  · rintro next final ⟨wrote, same | ⟨stored, written, same⟩⟩
    · exact ⟨progress, later, same, clean, tidy, rfl, again wrote⟩
    · refine ⟨stored, _, same, clean.rewritten (again written), tidy.recorded, (again written).same, ?_⟩
      exact ⟨(again wrote).same.trans (again written).same.symm, wrote.valid⟩

/-- A transaction at its end is cleaned up when something is left, and its receipt is given. -/
theorem Bound.ensures_complete (bound : Bound u front progress view)
    (ended : progress.phase = .committed ∨ progress.phase = .aborted) (sound : u.Sound)
    (shows : Shows u view disk) (known : Written progress.toTransactionProgress memory) :
    Finishes u failed (publishes progress.phase) (do
        let leftovers ← hasCleanupEntries u.root memory.manifestDigest.isNone
        if leftovers then receiptFromProgress (← cleanUp (manifestOf u progress.createdAt) memory)
        else receiptFromProgress memory) disk := by
  have digest : memory.manifestDigest.isNone = false := by
    rw [known.same, bound.bound]
    rfl
  obtain ⟨left, looked, empty⟩ := observes_hasCleanupEntries sound shows
  rw [digest]
  refine looked.then ?_
  cases left with
  | true =>
      refine (bound.ensures_cleanUp ended sound shows known).bind
        fun next final ⟨stored, last, shown, kept, tidy, same, wrote⟩ => ?_
      have phase : stored.phase = progress.phase := congrArg TransactionProgress.phase same
      obtain ⟨receipt, answer, settled⟩ := kept.settled (by rwa [phase]) tidy wrote
      have standing := kept.standing
      rw [phase] at settled standing
      rw [answer]
      exact ⟨shown.upheld standing, last, shown, settled⟩
  | false =>
      obtain ⟨staging, next⟩ := empty rfl
      have gone : ∀ index, view.own (.payload index) = none := by
        rcases bound.housing with directory | ⟨-, gone⟩
        · rw [staging] at directory
          cases directory
        · exact gone
      obtain ⟨receipt, answer, settled⟩ := bound.settled ended ⟨next, staging, gone⟩ known
      rw [if_neg Bool.false_ne_true, answer]
      exact ⟨shows.upheld bound.standing, view, shows, settled⟩

end Ending

section Deciding

theorem decided_done {createdAt : JsString} (sound : u.Sound)
    (held : u.plan[index]? = some operation) :
    Driver.decided (manifestOf u createdAt) operation.operationId =
      .done (persisted u.root index operation) := by
  have there : persisted u.root index operation ∈ (manifestOf u createdAt).operations := by
    refine List.mem_of_getElem? (i := index) ?_
    rw [manifestOf, manifest_at sound, held]
    rfl
  unfold Driver.decided
  cases found : (manifestOf u createdAt).operations.find? fun candidate =>
      candidate.operationId == operation.operationId with
  | none =>
      have absent := List.find?_eq_none.mp found _ there
      exact absurd (beq_iff_eq.mpr rfl) absent
  | some candidate =>
      have named := List.find?_some found
      rw [beq_iff_eq] at named
      obtain ⟨another, other, planned, rfl⟩ := manifest_mem sound (List.mem_of_find?_eq_some found)
      have same : operationIdAt another = operationIdAt index := by
        rw [← (sound.frozen planned).named, ← (sound.frozen held).named]
        exact named
      obtain rfl := operationIdAt_injective same
      rw [held] at planned
      cases planned
      rfl

/-- How many decisions recovery is from its end. -/
def decisionsLeft (u : Undertaking) (progress : TransactionProgressV1) : Nat :=
  match progress.phase with
  | .begun => 0
  | .prepared => 3
  | .publishing => u.plan.length - progress.publishedOperationIds.length + 2
  | .committed => 1
  | .aborted => 2

theorem decisionsLeft_le (progress : TransactionProgressV1) :
    decisionsLeft u progress ≤ u.plan.length + 3 := by
  unfold decisionsLeft
  split <;> omega

theorem Publishing.decisionsLeft_eq (publishing : Publishing u count front progress view) :
    decisionsLeft u progress = u.plan.length - count + 2 := by
  have counted := publishing.bounded
  have behind := publishing.behind
  have length : progress.publishedOperationIds.length = count := by
    rw [publishing.recorded, List.length_take, operationIds, List.length_map]
    omega
  rw [decisionsLeft, publishing.phase, length]

theorem Bound.decisionsLeft_pos (bound : Bound u front progress view) : 0 < decisionsLeft u progress := by
  have stage := bound.stage
  unfold Stage at stage
  unfold decisionsLeft
  cases phase : progress.phase with
  | begun =>
      rw [phase] at stage
      exact stage.elim
  | prepared | publishing | committed | aborted => exact Nat.succ_pos _

private def afterDecision (manifest : TransactionManifestV1) (authority : Option LeaseAuthority)
    (fuel : Nat) (progress : TransactionProgressV1) : RecoveryDecision → Driver TransactionReceipt
  | .abort => do
      assertPhaseTransition progress.phase .aborted
      driveDecisions manifest authority fuel
        (← Driver.record progress .aborted [] progress.directorySync)
  | .recordPublished operationId => do
      driveDecisions manifest authority fuel
        (← Driver.record progress progress.phase (progress.publishedOperationIds ++ [operationId])
          progress.directorySync)
  | .publish operationId => do
      let operation ← Driver.decided manifest operationId
      driveDecisions manifest authority fuel (← republish authority progress operation)
  | .commit => do
      assertPhaseTransition progress.phase .committed
      driveDecisions manifest authority fuel
        (← Driver.record progress .committed (manifest.operations.map PersistedOperation.operationId)
          progress.directorySync)
  | .cleanup _ => do driveDecisions manifest authority fuel (← cleanUp manifest progress)
  | .complete _ => do
      let leftovers ←
        hasCleanupEntries (transactionRoot manifest.transactionId) progress.manifestDigest.isNone
      if leftovers then receiptFromProgress (← cleanUp manifest progress)
      else receiptFromProgress progress
  | .blocked _ operationId => do
      .fail (.transaction .stateCorrupt [← blockedRef manifest operationId])

private theorem driveDecisions_succ (manifest : TransactionManifestV1)
    (authority : Option LeaseAuthority) (fuel : Nat) (progress : TransactionProgressV1) :
    driveDecisions manifest authority (fuel + 1) progress =
      observeTransaction manifest >>= fun observation =>
        afterDecision manifest authority fuel progress
          (decideRecovery manifest.toTransactionManifest progress.toTransactionProgress observation) := by
  unfold driveDecisions afterDecision
  rfl

private theorem ensures_step {authority : Option LeaseAuthority} {fuel : Nat} {during : Disk → Prop}
    {after : TransactionReceipt → Disk → Prop} (bound : Bound u front progress view) (sound : u.Sound)
    (shows : Shows u view disk) (known : Written progress.toTransactionProgress memory)
    {decision : RecoveryDecision} (settled : Transactions.decision u disk progress = decision)
    (ensured : Ensures u.machine during after failed
      (afterDecision (manifestOf u progress.createdAt) authority fuel memory decision) disk) :
    Ensures u.machine during after failed
      (driveDecisions (manifestOf u progress.createdAt) authority (fuel + 1) memory) disk := by
  have same : decideRecovery (manifestOf u progress.createdAt).toTransactionManifest
      memory.toTransactionProgress (observationOf u disk) = decision := by
    rw [known.same]
    exact settled
  rw [driveDecisions_succ]
  refine (observes_transaction sound shows bound.destinations bound.payloads bound.housing).then ?_
  rw [same]
  exact ensured

/-- The loop ends as the progress it goes on from decides. -/
private abbrev Driven (u : Undertaking) (authority : Option LeaseAuthority)
    (failed : DriverFailure → Disk → Prop) (fuel : Nat) (progress memory : TransactionProgressV1)
    (disk : Disk) : Prop :=
  Finishes u failed (publishes progress.phase)
    (driveDecisions (manifestOf u progress.createdAt) authority fuel memory) disk

private theorem Driven.onward {authority : Option LeaseAuthority} {fuel : Nat} {decided : Bool}
    (driven : Driven u authority failed fuel stored memory disk) (same : publishes stored.phase = decided)
    (created : stored.createdAt = progress.createdAt) : Finishes u failed decided
      (driveDecisions (manifestOf u progress.createdAt) authority fuel memory) disk := by
  unfold Driven at driven
  rwa [same, created] at driven

private theorem Bound.ensures_completeStep {authority : Option LeaseAuthority} {fuel : Nat}
    (bound : Bound u front progress view) (ended : progress.phase = .committed ∨ progress.phase = .aborted)
    (sound : u.Sound) (shows : Shows u view disk) (known : Written progress.toTransactionProgress memory)
    {terminal : Terminal} (settled : decision u disk progress = .complete terminal) :
    Driven u authority failed (fuel + 1) progress memory disk :=
  ensures_step bound sound shows known settled (bound.ensures_complete ended sound shows known)

theorem assertPhaseTransition_done {source target : TransactionPhase}
    (legal : legalTransition source target = true) : assertPhaseTransition source target = .done () :=
  if_pos legal

/-- With this much fuel the loop brings any bound transaction to the end that is decided. -/
private def Drives (u : Undertaking) (authority : Option LeaseAuthority)
    (failed : DriverFailure → Disk → Prop) (fuel : Nat) : Prop :=
  ∀ {front : Nat} {progress memory : TransactionProgressV1} {view : View} {disk : Disk},
    Bound u front progress view → Shows u view disk → Written progress.toTransactionProgress memory →
      decisionsLeft u progress ≤ fuel → Driven u authority failed fuel progress memory disk

variable {authority : Option LeaseAuthority} {fuel : Nat}

private theorem drives_aborted (sound : u.Sound)
    (bound : Bound u front progress view) (phase : progress.phase = .aborted)
    (shows : Shows u view disk) (known : Written progress.toTransactionProgress memory)
    (enough : decisionsLeft u progress ≤ fuel + 1) :
    Driven u authority failed (fuel + 1) progress memory disk := by
  rcases bound.decide_aborted sound shows phase with cleanup | complete
  · refine ensures_step bound sound shows known cleanup ?_
    refine (bound.ensures_cleanUp (.inr phase) sound shows known).bind
      fun next final ⟨stored, last, shown, kept, tidy, same, wrote⟩ => ?_
    have again : stored.phase = .aborted := by
      rw [same]
      exact phase
    have created : stored.createdAt = progress.createdAt := by
      rw [same]
    have two : 2 ≤ fuel + 1 := by
      rw [decisionsLeft, phase] at enough
      exact enough
    cases fuel with
    | zero => omega
    | succ fuel =>
        have settled := kept.decide_aborted_gone sound shown again tidy.payloads
        have ended : Ensures _ _ _ failed (driveDecisions _ authority (fuel + 1) _) _ :=
          kept.ensures_completeStep (.inr again) sound shown wrote settled
        rw [again, created] at ended
        rw [phase]
        exact ended
  · exact bound.ensures_completeStep (.inr phase) sound shows known complete

private theorem drives_prepared (drives : Drives u authority failed fuel) (sound : u.Sound)
    (bound : Bound u front progress view) (phase : progress.phase = .prepared)
    (shows : Shows u view disk) (known : Written progress.toTransactionProgress memory)
    (enough : decisionsLeft u progress ≤ fuel + 1) :
    Driven u authority failed (fuel + 1) progress memory disk := by
  have stage := bound.stage
  unfold Stage at stage
  rw [phase] at stage
  obtain ⟨start, -, directory, whole⟩ := stage
  have aborted : ∀ {stored}, Written (goneOn progress.toTransactionProgress .aborted []) stored →
      Bound u front stored (view.recorded stored) := by
    intro stored written
    obtain ⟨-, -, -, -, ended, nothing⟩ := written.members
    refine bound.recorded written ?_
    unfold Stage
    rw [ended]
    exact ⟨start, nothing, .inl directory, fun index => .inr (whole index)⟩
  refine ensures_step bound sound shows known (bound.decide_prepared sound shows phase) ?_
  rw [afterDecision]
  rw [show memory.phase = .prepared by rw [known.same]; exact phase, assertPhaseTransition_done rfl]
  refine (bound.ensures_goOn sound shows known (List.nil_sublist _) (by decide) (by rw [phase]; rfl)
    aborted).bind ?_
  rintro next final ⟨stored, shown, kept, written, wrote⟩
  obtain ⟨-, created, -, -, ended, -⟩ := written.members
  have left : decisionsLeft u stored ≤ fuel := by
    rw [decisionsLeft, phase] at enough
    rw [decisionsLeft, ended]
    exact Nat.le_of_succ_le_succ enough
  exact (drives kept shown wrote left).onward (by rw [ended, phase]; rfl) created

private theorem drives_publishing (drives : Drives u authority failed fuel) (sound : u.Sound)
    (granted : ∀ artifacts ∈ authority, Granted u artifacts.1 ∧ Granted u artifacts.2)
    (publishing : Publishing u count front progress view)
    (shows : Shows u view disk) (known : Written progress.toTransactionProgress memory)
    (enough : decisionsLeft u progress ≤ fuel + 1) :
    Driven u authority failed (fuel + 1) progress memory disk := by
  have phase := publishing.phase
  have memorised : memory.phase = .publishing := by
    rw [known.same]
    exact phase
  have planned : ∀ {index operation}, u.plan[index]? = some operation →
      (manifestOf u progress.createdAt).operations[index]? = some (persisted u.root index operation) := by
    intro index operation held
    rw [manifestOf, manifest_at sound, held]
    rfl
  have decided := publishing.toBound.decide_publishing sound shows phase publishing.recorded
    publishing.behind publishing.bounded publishing.payloads
  -- Where one more operation is recorded, the rest of the fuel brings the rest.
  have onward : ∀ {next final stored last}, Shows u last final →
      Publishing u (count + 1) (count + 1) stored last → stored.createdAt = progress.createdAt →
        Written stored.toTransactionProgress next → count < u.plan.length →
          Finishes u failed true (driveDecisions (manifestOf u progress.createdAt) authority fuel next) final := by
    intro next final stored last shown gone created wrote within
    have left : decisionsLeft u stored ≤ fuel := by
      rw [publishing.decisionsLeft_eq] at enough
      rw [gone.decisionsLeft_eq]
      omega
    exact (drives gone.toBound shown wrote left).onward (by rw [gone.phase]; rfl) created
  unfold Driven
  rw [phase]
  by_cases less : count < front
  · obtain rfl : front = count + 1 := by
      have near := publishing.near
      omega
    have within : count < u.plan.length := Nat.lt_of_lt_of_le less publishing.bounded
    have held := List.getElem?_eq_getElem within
    have settled : decision u disk progress = .recordPublished u.plan[count].operationId := by
      rw [decided, if_pos less, planned held]
      rfl
    refine ensures_step publishing.toBound sound shows known settled ?_
    refine (publishing.ensures_record sound shows known held).bind ?_
    rintro next final ⟨stored, last, shown, gone, created, wrote⟩
    exact onward shown gone created wrote within
  · obtain rfl : count = front := by
      have behind := publishing.behind
      omega
    cases held : u.plan[count]? with
    | some operation =>
        have settled : decision u disk progress = .publish operation.operationId := by
          rw [decided, if_neg less, planned held]
          rfl
        have within := (List.getElem?_eq_some_iff.mp held).1
        refine ensures_step publishing.toBound sound shows known settled ?_
        rw [afterDecision]
        rw [decided_done sound held]
        refine (publishing.ensures_republish sound shows known granted held).bind ?_
        rintro next final ⟨stored, last, shown, gone, created, wrote⟩
        exact onward shown gone created wrote within
    | none =>
        have whole : count = u.plan.length := by
          have beyond := List.getElem?_eq_none_iff.mp held
          have bounded := publishing.bounded
          omega
        have nothing : (manifestOf u progress.createdAt).operations[count]? = none := by
          rw [manifestOf, manifest_at sound, held]
          rfl
        have settled : decision u disk progress = .commit := by
          rw [decided, if_neg less, nothing]
        refine ensures_step publishing.toBound sound shows known settled ?_
        rw [afterDecision]
        have ids : (manifestOf u progress.createdAt).operations.map PersistedOperation.operationId =
            operationIds u := manifest_ids
        rw [memorised, assertPhaseTransition_done rfl, ids]
        have recorded : Ensures u.machine (Upheld u (Standing u (publishes progress.phase))) _ failed
            (Driver.record memory .committed (operationIds u) memory.directorySync) disk :=
          publishing.toBound.ensures_goOn sound shows known (List.Sublist.refl _) (by decide) (by rw [phase]; rfl)
            (publishing.committed whole)
        rw [phase] at recorded
        refine recorded.bind ?_
        rintro next final ⟨stored, shown, kept, written, wrote⟩
        obtain ⟨-, created, -, -, ended, -⟩ := written.members
        have left : decisionsLeft u stored ≤ fuel := by
          rw [publishing.decisionsLeft_eq] at enough
          rw [decisionsLeft, ended]
          show 1 ≤ fuel
          omega
        exact (drives kept shown wrote left).onward (by rw [ended]; rfl) created

/-- The loop goes on from wherever a bound transaction stands, to the end that is decided. -/
theorem Bound.ensures_driveDecisions (sound : u.Sound)
    (granted : ∀ artifacts ∈ authority, Granted u artifacts.1 ∧ Granted u artifacts.2)
    (bound : Bound u front progress view) (shows : Shows u view disk)
    (known : Written progress.toTransactionProgress memory) (enough : decisionsLeft u progress ≤ fuel) :
    Driven u authority failed fuel progress memory disk := by
  have drives : Drives u authority failed fuel := by
    clear bound shows known enough
    induction fuel with
    | zero => exact fun bound _ _ enough => absurd bound.decisionsLeft_pos (by omega)
    | succ fuel ih =>
        intro front progress memory view disk bound shows known enough
        cases phase : progress.phase with
        | begun =>
            have stage := bound.stage
            unfold Stage at stage
            rw [phase] at stage
            exact stage.elim
        | prepared =>
            exact drives_prepared ih sound bound phase shows known enough
        | publishing =>
            obtain ⟨count, publishing⟩ := bound.publishing phase
            exact drives_publishing ih sound granted publishing shows known enough
        | committed =>
            exact bound.ensures_completeStep (.inl phase) sound shows known
              (bound.decide_committed sound shows phase)
        | aborted =>
            exact drives_aborted sound bound phase shows known enough
  exact drives bound shows known enough

end Deciding

end Kratos.Transactions
