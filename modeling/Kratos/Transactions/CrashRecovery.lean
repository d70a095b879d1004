/- source: composition/transactions.ts, domain/transactions/recovery.ts
   digest: A transaction that is cut anywhere, and its recovery cut any number of times, ends whole. -/

import Kratos.Transactions.Executing

set_option autoImplicit false

namespace Kratos.Transactions

open Foundation.Text Foundation.Collections Foundation.Paths Foundation.Crashes Patterns Durable
open Locks.Guard Transactions.Driver

variable {u : Undertaking} {disk : Disk} {view : View} {progress : TransactionProgressV1}
  {decided : Bool} {fuel : Nat} {failed : DriverFailure → Disk → Prop}

section Recovery

private theorem ensures_driveRecovery (failed : DriverFailure → Disk → Prop)
    (standing : Standing u decided view) (sound : u.Sound) (shows : Shows u view disk)
    (enough : u.plan.length + 3 ≤ fuel) :
    ∃ progress, Recorded u progress view ∧ decided = publishes progress.phase ∧
      Observes u.machine (summarize u.services u.transactionId) disk (summaryOf u progress) ∧
      Finishes u failed decided (driveRecovery u.services fuel (summaryOf u progress)) disk := by
  have inspected := observes_manifest sound shows
  obtain ⟨progress, ⟨rfl, unbound⟩ | ⟨front, rfl, bound⟩⟩ := standing
  · have open' : false = publishes progress.phase := by
      rcases unbound.early with phase | phase <;> rw [phase] <;> rfl
    refine ⟨progress, unbound.toRecorded, open', unbound.observes_summarize sound shows, ?_⟩
    have agree : ¬(progress.transactionId ≠ (summaryOf u progress).transactionId ∨
        progress.recoveryToken ≠ (summaryOf u progress).recoveryToken ∨
          progress.manifestDigest ≠ (summaryOf u progress).manifestDigest) := by
      simp [summaryOf, unbound.identified]
    refine (observes_readProgress sound shows unbound.toRecorded).then ?_
    rw [if_neg agree]
    refine inspected.then ?_
    rw [unbound.unbound, if_pos (by rfl)]
    exact unbound.ensures_recoverWithoutManifest sound shows
  · refine ⟨progress, bound.toRecorded, rfl, bound.observes_summarize sound shows, ?_⟩
    have agree : ¬(progress.transactionId ≠ (summaryOf u progress).transactionId ∨
        progress.recoveryToken ≠ (summaryOf u progress).recoveryToken ∨
          progress.manifestDigest ≠ (summaryOf u progress).manifestDigest) := by
      simp [summaryOf, bound.identified]
    have digest : progress.manifestDigest.isNone = false := by
      rw [bound.bound]
      rfl
    refine (observes_readProgress sound shows bound.toRecorded).then ?_
    rw [if_neg agree]
    refine inspected.then ?_
    rw [digest, if_neg Bool.false_ne_true, bound.manifest, isFileEntry_file, if_neg (by decide)]
    refine (observes_readRequiredManifest sound shows bound).then ?_
    have granted : ∀ artifacts ∈ (if progress.phase = .publishing ∨ progress.phase = .committed then
        manifestAuthority (manifestOf u progress.createdAt).operations else none),
          Granted u artifacts.1 ∧ Granted u artifacts.2 := by
      intro artifacts given
      split at given
      · exact manifestAuthority_granted sound given
      · cases given
    refine (observes_authority granted sound shows bound.destinations).then ?_
    exact bound.ensures_driveDecisions sound granted shows ⟨rfl, bound.valid⟩
      ((decisionsLeft_le progress).trans enough)

/-- A recovery brings a transaction that stands anywhere to the end that is decided. -/
theorem Standing.ensures_recoverReported (standing : Standing u decided view) (sound : u.Sound)
    (shows : Shows u view disk) (enough : u.plan.length + 3 ≤ fuel) :
    Finishes u failed decided (recoverReported u.services fuel u.transactionId) disk := by
  obtain ⟨progress, -, -, summarized, driven⟩ := ensures_driveRecovery failed standing sound shows enough
  obtain ⟨summaries, inspected, found⟩ :=
    observes_inspectManagedTransactions sound shows.1 rfl summarized
  refine inspected.then ?_
  rw [found]
  refine inspected.then ?_
  rw [found]
  show Ensures _ _ _ _ (if (summaryOf u progress).recoveryToken ≠ (summaryOf u progress).recoveryToken
    then _ else driveRecovery u.services fuel (summaryOf u progress)) _
  rw [if_neg fun other => other rfl]
  exact driven

/-- A recovery with any token but the recorded one is refused, and changes nothing. -/
theorem Standing.ensures_refused (standing : Standing u decided view) (sound : u.Sound)
    (shows : Shows u view disk) (enough : u.plan.length + 3 ≤ fuel) :
    ∃ progress, Recorded u progress view ∧ ∀ recoveryToken, progress.recoveryToken ≠ recoveryToken →
      Ensures u.machine (fun state => state = disk) (fun _ _ => False)
        (fun failure _ => failure = recoveryRequired u.transactionId)
        (recoverManagedMutation u.services fuel u.transactionId recoveryToken) disk := by
  obtain ⟨progress, recorded, -, summarized, -⟩ :=
    ensures_driveRecovery (fun _ _ => True) standing sound shows enough
  obtain ⟨summaries, inspected, found⟩ :=
    observes_inspectManagedTransactions sound shows.1 rfl summarized
  refine ⟨progress, recorded, fun recoveryToken other => inspected.then ?_⟩
  rw [found]
  show Ensures _ _ _ _ (if (summaryOf u progress).recoveryToken ≠ recoveryToken then _ else _) _
  have differs : (summaryOf u progress).recoveryToken ≠ recoveryToken := other
  rw [if_pos differs]
  exact ⟨rfl, rfl⟩

/-- How far the destinations have come, and the record of them, which is never ahead. -/
structure Progressed (u : Undertaking) (disk : Disk) (progress : TransactionProgressV1)
    (count front : Nat) : Prop where
  recorded : disk.held (progressPath u.root) = some (.file (progressDocument.text progress))
  published : progress.publishedOperationIds = (operationIds u).take count
  behind : count ≤ front ∧ front ≤ count + 1 ∧ front ≤ u.plan.length
  still : progress.phase ≠ .publishing → front = count
  whole : progress.phase = .committed → front = u.plan.length
  reached : ∀ index operation, u.plan[index]? = some operation →
    disk.held operation.path = if index < front then outcome operation else u.start.held operation.path
  untouched : ∀ path, Storage.within u.root path = false →
    (∀ operation ∈ u.plan, operation.path ≠ path) → disk.held path = u.start.held path

theorem Standing.progressed (standing : Standing u decided view) (sound : u.Sound)
    (shows : Shows u view disk) : ∃ progress count front, Progressed u disk progress count front := by
  have reached : ∀ {front}, Destinations u front view → ∀ index operation,
      u.plan[index]? = some operation → disk.held operation.path =
        if index < front then outcome operation else u.start.held operation.path := by
    intro front destinations index operation held
    rw [shows.outside (outside_root (sound.outside (List.mem_of_getElem? held)))]
    exact destinations.reached index operation held
  have untouched : ∀ {front}, Destinations u front view → ∀ path,
      Storage.within u.root path = false → (∀ operation ∈ u.plan, operation.path ≠ path) →
        disk.held path = u.start.held path := by
    intro front destinations path outside apart
    rw [shows.outside outside]
    exact destinations.untouched path outside apart
  have recorded : ∀ {progress}, Recorded u progress view →
      disk.held (progressPath u.root) = some (.file (progressDocument.text progress)) :=
    fun kept => (shows.own .progress).trans kept.held
  obtain ⟨progress, ⟨-, unbound⟩ | ⟨front, -, bound⟩⟩ := standing
  · refine ⟨progress, 0, 0, recorded unbound.toRecorded, unbound.published, ?_, fun _ => rfl, fun phase => ?_,
      reached unbound.destinations, untouched unbound.destinations⟩
    · exact ⟨Nat.le_refl _, Nat.zero_le _, Nat.zero_le _⟩
    · rcases unbound.early with early | early <;> rw [early] at phase <;> cases phase
  · obtain ⟨count, published, allowed, behind, still⟩ := bound.counted
    refine ⟨progress, count, front, recorded bound.toRecorded, published, behind, still, fun phase => ?_,
      reached bound.destinations, untouched bound.destinations⟩
    rw [phase, operationIds, List.length_map] at allowed
    exact Nat.le_antisymm behind.2.2 (Nat.le_trans allowed behind.1)

end Recovery

section Crashes

variable {options : ExecuteManagedMutationOptions} {cut left : Disk}

private theorem Settled.tidied {receipt : TransactionReceipt} (settled : Settled u decided receipt view)
    (shows : Shows u view disk) :
    disk.held (stagingRoot u.root) = none ∧ disk.held (nextPath u.root) = none ∧
      ∀ index, disk.held (stagingRoot u.root ++ (js "/" ++ payloadName index)) = none :=
  ⟨(shows.own .staging).trans settled.tidy.staging, (shows.own .next).trans settled.tidy.next,
    fun index => (shows.own (.payload index)).trans (settled.tidy.payloads index)⟩

private theorem Settled.published {receipt : TransactionReceipt} (settled : Settled u decided receipt view)
    (sound : u.Sound) (shows : Shows u view disk) {operation : ManagedOperation}
    (member : operation ∈ u.plan) :
    disk.held operation.path = if decided then outcome operation else u.start.held operation.path := by
  obtain ⟨index, held⟩ := List.mem_iff_getElem?.mp member
  have within := (List.getElem?_eq_some_iff.mp held).1
  have reached := settled.destinations.reached index operation held
  rw [shows.outside (outside_root (sound.outside member)), reached]
  cases decided with
  | true => exact if_pos within
  | false => exact if_neg (Nat.not_lt_zero index)

/-- An execution that returns has published the whole plan, and nothing else is changed. -/
theorem executed_published (sound : u.Sound) {receipt : TransactionReceipt} {final : Disk}
    (ended : run u.machine (driveExecution u.services u.plan options u.transactionId) u.start =
      .ok (receipt, final)) :
    receipt.phase = .committed ∧ receipt.transactionId = u.transactionId ∧
      (∀ operation ∈ u.plan, final.held operation.path = outcome operation) ∧
      (∀ path, Storage.within u.root path = false → (∀ operation ∈ u.plan, operation.path ≠ path) →
        final.held path = u.start.held path) ∧
      final.held (stagingRoot u.root) = none ∧ final.held (nextPath u.root) = none ∧
      ∀ index, final.held (stagingRoot u.root ++ (js "/" ++ payloadName index)) = none := by
  rcases (ensures_driveExecution sound).run with ⟨answer, later, same, last, shows, settled⟩ |
    ⟨failure, later, threw, -⟩
  · rw [ended] at same
    cases same
    obtain ⟨progress, recorded, -, named, -⟩ := settled.recorded
    refine ⟨settled.phase, named.trans recorded.identified, fun operation member => ?_,
      fun path outside apart => ?_, settled.tidied shows⟩
    · exact settled.published sound shows member
    · rw [shows.outside outside]
      exact settled.destinations.untouched path outside apart
  · rw [ended] at threw
    cases threw

/-- An execution that was begun and cut anywhere, and recoveries of it that were cut anywhere. -/
structure Crashed (u : Undertaking) (options : ExecuteManagedMutationOptions) (fuel : Nat)
    (cut left : Disk) : Prop where
  halted : Cut u.machine (driveExecution u.services u.plan options u.transactionId) u.start cut
  begun : cut.held (progressPath u.root) ≠ none
  retried : Relation.ReflTransGen (Cut u.machine (recoverReported u.services fuel u.transactionId)) cut left
  enough : u.plan.length + 3 ≤ fuel

private theorem Crashed.upheld (sound : u.Sound) (crashed : Crashed u options fuel cut left) :
    ∃ progress decided, Recorded u progress (viewOf u.root cut) ∧ decided = publishes progress.phase ∧
      Upheld u (Standing u decided) left := by
  obtain ⟨anchored, decided, standing⟩ := (ensures_driveExecution sound).cut crashed.halted crashed.begun
  obtain ⟨progress, kept, agrees, -⟩ :=
    ensures_driveRecovery (fun _ _ => True) standing sound ⟨anchored, rfl⟩ crashed.enough
  have covered : ∀ state, Upheld u (Standing u decided) state →
      Finishes u (fun _ _ => False) decided (recoverReported u.services fuel u.transactionId) state :=
    fun state held => held.2.ensures_recoverReported sound ⟨held.1, rfl⟩ crashed.enough
  exact ⟨progress, decided, kept, agrees, (recovers covered ⟨anchored, standing⟩ crashed.retried).1⟩

/-- An execution that was begun and cut anywhere, and recoveries of it that were cut anywhere, are
ended by the next recovery: everything is published when the progress left by the execution says so,
and otherwise nothing is. -/
theorem crash_recovers (sound : u.Sound)
    (halted : Cut u.machine (driveExecution u.services u.plan options u.transactionId) u.start cut)
    (begun : cut.held (progressPath u.root) ≠ none)
    (retried : Relation.ReflTransGen
      (Cut u.machine (recoverReported u.services fuel u.transactionId)) cut left)
    (enough : u.plan.length + 3 ≤ fuel) :
    ∃ progress receipt final,
      cut.held (progressPath u.root) = some (.file (progressDocument.text progress)) ∧
      run u.machine (recoverReported u.services fuel u.transactionId) left = .ok (receipt, final) ∧
      receipt.phase = (if publishes progress.phase then .committed else .aborted) ∧
      (∀ operation ∈ u.plan, final.held operation.path =
        if publishes progress.phase then outcome operation else u.start.held operation.path) ∧
      (∀ path, Storage.within u.root path = false → (∀ operation ∈ u.plan, operation.path ≠ path) →
        final.held path = u.start.held path) ∧
      final.held (stagingRoot u.root) = none ∧ final.held (nextPath u.root) = none ∧
      ∀ index, final.held (stagingRoot u.root ++ (js "/" ++ payloadName index)) = none := by
  obtain ⟨progress, decided, kept, agrees, anchored, standing⟩ :=
    Crashed.upheld sound ⟨halted, begun, retried, enough⟩
  obtain ⟨receipt, final, ended, last, shows, settled⟩ := Ensures.result
    (standing.ensures_recoverReported sound ⟨anchored, rfl⟩ enough)
  refine ⟨progress, receipt, final, kept.held, ended, ?_, ?_, ?_, settled.tidied shows⟩
  · rw [← agrees]
    exact settled.phase
  · intro operation member
    rw [← agrees]
    exact settled.published sound shows member
  · intro path outside apart
    rw [shows.outside outside]
    exact settled.destinations.untouched path outside apart

/-- Whatever was cut, a plan is published from its first operation on and each operation whole, and
the record of it is one operation behind at most and never ahead. -/
theorem crash_keeps_order (sound : u.Sound) (crashed : Crashed u options fuel cut left) :
    ∃ progress count front, Progressed u left progress count front := by
  obtain ⟨-, decided, -, -, anchored, standing⟩ := crashed.upheld sound
  exact standing.progressed sound ⟨anchored, rfl⟩

end Crashes

section Samples

def sampleDigest : JsString := js "74daeff849609b74a42500aff45eb6229a086907ab1b2badae4c29ed4fc10e3c"

def notesPlan : List ManagedOperation :=
  [finalizeOperation 0 ⟨.createDirectory, js ".brain/notes", .missing, .directory⟩,
    finalizeOperation 1
      ⟨.writeFile (js "# Today\n"), js ".brain/notes/today.md", .missing, .file 8 sampleDigest⟩]

/-- The plan over the managed roots and nothing else. -/
def notesUndertaking : Undertaking where
  services := ⟨fun _ => sampleDigest, asciiLowerCase, fun _ _ => 0⟩
  plan := notesPlan
  transactionId := js "t-1"
  start :=
    { storage := [(brain, .directory), (transactionsRoot, .directory)]
      clock := fun _ => ⟨js "2025-01-01T12:00:00.000Z", rfl⟩
      syncs := fun _ => true }

private theorem notes_legible {name : JsString} : notesUndertaking.start.held (transactionRoot name) = none := by
  have roots : [brain, transactionsRoot].all (fun path : JsString => decide (path.length < 20)) = true := by
    decide
  show mapGet notesUndertaking.start.storage (transactionRoot name) = none
  refine mapGet_eq_none_iff.mpr fun member => ?_
  have short := of_decide_eq_true (List.all_eq_true.mp roots _ member)
  rw [transactionRoot, List.length_append, List.length_append] at short
  have long : transactionsRoot.length = 19 := by decide
  have slash : (js "/").length = 1 := rfl
  omega

theorem notes_sound : notesUndertaking.Sound where
  hex _ := (by decide : sha256Pattern sampleDigest = true)
  reserved := rfl
  identified := by decide
  accepted := rfl
  few := by decide
  brain := rfl
  transactions := rfl
  fresh := by decide
  standing operation member := by
    rcases List.mem_cons.mp member with rfl | rest
    · rfl
    · obtain rfl := List.mem_singleton.mp rest
      rfl
  ready index operation held := by
    match index, held with
    | 0, held =>
        cases held
        exact .inr (.inl rfl)
    | 1, held =>
        cases held
        exact .inr (.inr ⟨0, _, Nat.zero_lt_one, rfl, rfl, rfl⟩)
  legible _ _ present := absurd notes_legible present

def notesExecution : Driver TransactionReceipt :=
  driveExecution notesUndertaking.services notesUndertaking.plan ⟨.existing, [], none⟩
    notesUndertaking.transactionId

/-- What the execution leaves when it is cut once the file is at its place and not yet recorded. -/
def notesCut : Disk := stopped notesUndertaking.machine 44 notesExecution notesUndertaking.start

/-- What a recovery that is cut in its turn leaves of that. -/
def notesLeft : Disk :=
  stopped notesUndertaking.machine 20
    (recoverReported notesUndertaking.services 5 notesUndertaking.transactionId) notesCut

private theorem notes_crashed :
    Crashed notesUndertaking ⟨.existing, [], none⟩ 5 notesCut notesLeft where
  halted := cut_stopped 44 notesExecution notesUndertaking.start
  begun := by decide +kernel
  retried := .single (cut_stopped 20 _ notesCut)
  enough := by decide

theorem notes_recovered :
    ∃ progress receipt final,
      notesCut.held (progressPath notesUndertaking.root) = some (.file (progressDocument.text progress)) ∧
      run notesUndertaking.machine
        (recoverReported notesUndertaking.services 5 notesUndertaking.transactionId) notesLeft =
          .ok (receipt, final) ∧
      receipt.phase = (if publishes progress.phase then .committed else .aborted) := by
  obtain ⟨progress, receipt, final, kept, ended, phase, -⟩ :=
    crash_recovers notes_sound notes_crashed.halted notes_crashed.begun notes_crashed.retried
      notes_crashed.enough
  exact ⟨progress, receipt, final, kept, ended, phase⟩

theorem notes_in_order : ∃ progress count front, Progressed notesUndertaking notesLeft progress count front :=
  crash_keeps_order notes_sound notes_crashed

theorem notes_executed :
    ∃ receipt final, run notesUndertaking.machine notesExecution notesUndertaking.start =
        .ok (receipt, final) ∧
      receipt.phase = .committed ∧
      ∀ operation ∈ notesPlan, final.held operation.path = outcome operation := by
  have ends : (run notesUndertaking.machine notesExecution notesUndertaking.start).isOk = true := by
    decide +kernel
  cases ended : run notesUndertaking.machine notesExecution notesUndertaking.start with
  | error failure =>
      rw [ended] at ends
      cases ends
  | ok answer =>
      obtain ⟨receipt, final⟩ := answer
      obtain ⟨phase, -, published, -⟩ := executed_published notes_sound ended
      exact ⟨receipt, final, rfl, phase, published⟩

end Samples

end Kratos.Transactions
