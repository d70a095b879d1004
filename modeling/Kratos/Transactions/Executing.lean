/- source: composition/transactions.ts
   digest: Wherever an execution is cut once its transaction is begun, the transaction stands. -/

import Kratos.Transactions.RecoveryLoop

set_option autoImplicit false

namespace Kratos.Transactions

open Foundation.Text Foundation.Crashes Durable Locks.Guard Transactions.Driver

variable {u : Undertaking} {disk : Disk} {view : View} {progress stored : TransactionProgressV1}
  {front index : Nat} {operation : ManagedOperation} {claim : View → Prop}

section Checking

def Reading : DurableCall → Prop
  | .inspect _ | .list _ | .readText _ => True
  | _ => False

theorem ensures_reads {α : Type} {program : Driver α} {during : Disk → Prop} (here : during disk)
    (calls : program.Calls Reading) :
    Ensures u.machine during (fun _ final => final = disk) (fun _ _ => True) program disk := by
  refine Ensures.reads (fun request region left partway => ?_) (fun request reply later region => ?_) here
    calls
  · cases request <;> first | exact region.elim | exact partway.elim
  · cases request with
    | inspect path =>
        show (if path = js "." then _ else if isManagedPathShape path then _ else _) = _ → _
        split
        · rintro ⟨⟩
          rfl
        · split <;> rintro ⟨⟩
          rfl
    | list path =>
        show (if isManagedPathShape path ∧ disk.held path = some .directory then _ else _) = _ → _
        split <;> rintro ⟨⟩
        rfl
    | readText path =>
        show disk.readText path = _ → _
        unfold Disk.readText
        split
        · split <;> rintro ⟨⟩
          rfl
        · rintro ⟨⟩
    | _ => exact region.elim

theorem calls_observeFingerprint (path : JsString) : (observeFingerprint path).Calls Reading := by
  refine Program.Calls.bind (Program.Calls.perform True.intro) fun entry => ?_
  unfold toFingerprint
  split <;> exact True.intro

theorem calls_fingerprint {α : Type} {path : JsString} {next : PathFingerprint → Driver α}
    (each : ∀ fingerprint, (next fingerprint).Calls Reading) :
    (observeFingerprint path >>= next).Calls Reading :=
  (calls_observeFingerprint path).bind each

private theorem calls_assertArtifact (artifact : GuardedArtifact) :
    (assertArtifact artifact).Calls Reading := by
  refine calls_fingerprint fun fingerprint => ?_
  split <;> exact True.intro

theorem calls_assertLeaseAuthority (authority : Option LeaseAuthority) :
    (assertLeaseAuthority authority).Calls Reading := by
  cases authority with
  | none => exact True.intro
  | some artifacts => exact (calls_assertArtifact _).bind fun _ => calls_assertArtifact _

theorem calls_assertDeclaredGuardPreconditions (entries : List EventStorePrecondition) :
    (assertDeclaredGuardPreconditions entries).Calls Reading := by
  refine (Program.Calls.foldlM (fun changed entry => ?_) entries []).bind fun changed => ?_
  · exact calls_fingerprint fun _ => True.intro
  · split <;> exact True.intro

theorem calls_assertPreconditions (operations : List PersistedOperation) :
    (assertPreconditions operations).Calls Reading := by
  refine Program.Calls.forM (fun operation => calls_fingerprint fun fingerprint => ?_) operations
  split <;> exact True.intro

theorem calls_assertResults (operations : List PersistedOperation) :
    (assertResults operations).Calls Reading := by
  refine Program.Calls.forM (fun operation => calls_fingerprint fun fingerprint => ?_) operations
  split <;> exact True.intro

theorem calls_assertPublishable (operation : ManagedOperation) :
    (assertPublishable operation).Calls Reading := by
  refine Program.Calls.bind (Program.Calls.perform True.intro) fun parent => ?_
  split
  · exact True.intro
  · refine calls_fingerprint fun fingerprint => ?_
    split <;> exact True.intro

theorem calls_assertExecutionPayload (root : JsString) (operation : ManagedOperation) :
    (assertExecutionPayload root operation).Calls Reading := by
  unfold assertExecutionPayload
  split
  · refine calls_fingerprint fun fingerprint => ?_
    split <;> exact True.intro
  · exact True.intro
  · exact True.intro

theorem calls_assertResult (operation : ManagedOperation) : (assertResult operation).Calls Reading := by
  refine calls_fingerprint fun fingerprint => ?_
  split <;> exact True.intro

end Checking

section Committing

/-- A transaction stands somewhere, decided or not. -/
def Recoverable (u : Undertaking) (view : View) : Prop := ∃ decided, Standing u decided view

theorem Standing.recoverable {decided : Bool} (standing : Standing u decided view) : Recoverable u view :=
  ⟨decided, standing⟩

theorem ensures_check {α : Type} {program : Driver α} (shows : Shows u view disk) (here : claim view)
    (calls : program.Calls Reading) :
    Ensures u.machine (Upheld u claim) (fun _ => Shows u view) (fun _ _ => True) program disk :=
  (ensures_reads (shows.upheld here) calls).weaken fun _ _ same => by rwa [same]

theorem ensures_commitTransaction {options : ExecuteManagedMutationOptions}
    {directorySync : DirectorySync} (sound : u.Sound)
    (publishing : Publishing u u.plan.length u.plan.length progress view) (shows : Shows u view disk) :
    Ensures u.machine (Upheld u (Recoverable u)) (Recovered u true) (fun _ _ => True)
      (commitTransaction options (manifestOf u progress.createdAt) progress directorySync) disk := by
  have here := publishing.standing.recoverable
  have ids : (manifestOf u progress.createdAt).operations.map PersistedOperation.operationId =
      operationIds u := manifest_ids
  unfold commitTransaction
  rw [ids]
  refine (ensures_check shows here (calls_assertResults _)).bind fun _ first shown => ?_
  refine (ensures_check shown here (calls_assertDeclaredGuardPreconditions _)).bind
    fun _ second shown => ?_
  refine (ensures_advance shown here (identified_of_valid publishing.valid) (fun _ member => operationIds_valid sound member)
    (operationIds_nodup sound) (publishing.toBound.digest_allowed (by decide))).bind
      fun next third ⟨shown, written⟩ => ?_
  have committed := publishing.committed rfl written
  obtain ⟨identified, created, -, -, ended, -⟩ := written.members
  have owned : next.transactionId = u.transactionId := identified.trans publishing.identified
  refine (ensures_persistProgress sound shown written.valid owned publishing.scratch
    (.inr ⟨_, publishing.held⟩) (fun node loose => (publishing.toBound.beside loose).standing.recoverable)
    committed.standing.recoverable).bind fun sync fourth recorded => ?_
  have cleaned : Ensures _ _ _ (fun _ _ => True) (cleanupTransaction (manifestOf u next.createdAt) sync >>= _)
      _ := committed.ensures_cleanUp (.inl ended) sound recorded ⟨rfl, written.valid⟩
  rw [created] at cleaned
  rw [← bind_assoc]
  refine (cleaned.wider fun _ held => ⟨held.1, held.2.recoverable⟩).bind fun last final ⟨kept, view, shown, bound, tidy, same, wrote⟩ => ?_
  have phase : kept.phase = .committed := (congrArg TransactionProgress.phase same).trans ended
  obtain ⟨receipt, answer, settled⟩ := bound.settled (.inl phase) tidy wrote
  rw [phase] at settled
  rw [answer]
  exact ⟨shown.upheld bound.standing.recoverable, view, shown, settled⟩

end Committing

section Publishing

variable {count : Nat} {options : ExecuteManagedMutationOptions} {authority : Option LeaseAuthority}

theorem stagedPayloadPath_slot {content : JsString} (sound : u.Sound)
    (held : u.plan[index]? = some operation) (kind : operation.kind = .writeFile content) :
    stagedPayloadPath u.root operation = Slot.path u.root (.payload index) := by
  have staged := staged_slot sound held
  rw [kind, stagedOf] at staged
  obtain ⟨path, known, same⟩ := Option.map_eq_some_iff.mp staged
  rw [stagedPayloadPath, known, Option.getD_some]
  exact same

theorem publishOperation_persisted (sound : u.Sound) (held : u.plan[index]? = some operation) :
    Driver.publishOperation u.root operation =
      publishPersistedOperation (persisted u.root index operation) := by
  cases kind : operation.kind with
  | writeFile content =>
      rw [Driver.publishOperation, kind]
      simp only [publishPersistedOperation, persisted, toPersistedManagedOperation, kind,
        Locks.Guard.persistedKind, stagedOf, Option.getD_some]
      rw [stagedPayloadPath_slot sound held kind]
  | createDirectory | deleteFile =>
      rw [Driver.publishOperation, kind]
      simp only [publishPersistedOperation, persisted, toPersistedManagedOperation, kind,
        Locks.Guard.persistedKind]

private theorem ensures_publishNext {directorySync : DirectorySync} (sound : u.Sound)
    (publishing : Publishing u count count progress view) (shows : Shows u view disk)
    (held : u.plan[count]? = some operation) :
    Ensures u.machine (Upheld u (Recoverable u))
      (fun next final => ∃ last, Shows u last final ∧
        Publishing u (count + 1) (count + 1) next.1 last ∧ next.1.createdAt = progress.createdAt)
      (fun _ _ => True) (publishNext options authority u.root (progress, directorySync) operation) disk := by
  have here := publishing.standing.recoverable
  have published := publishing.published sound held
  have there := published.standing.recoverable
  have whole : view.own (.payload count) = payloadNode u count := by
    rw [publishing.payloads count, if_neg (Nat.lt_irrefl count)]
  have ids : progress.publishedOperationIds ++ [operation.operationId] = (operationIds u).take (count + 1) := by
    rw [publishing.recorded, operationIds_take held]
  unfold publishNext
  rw [publishOperation_persisted sound held]
  refine (ensures_check shows here (calls_assertLeaseAuthority _)).bind fun _ first shown => ?_
  refine (ensures_check shown here (calls_assertDeclaredGuardPreconditions _)).bind
    fun _ second shown => ?_
  refine (ensures_check shown here (calls_assertPublishable _)).bind fun _ third shown => ?_
  refine (ensures_check shown here (calls_assertExecutionPayload _ _)).bind fun _ fourth shown => ?_
  refine (ensures_publish sound shown publishing.destinations held whole publishing.directory here
    there).bind fun _ fifth gone => ?_
  have ready := parent_ready sound gone published.destinations held (Nat.le_succ _)
  refine (ensures_syncDirectory gone ready there).bind fun observed sixth gone => ?_
  refine (ensures_check gone there (calls_assertResult _)).bind fun _ seventh gone => ?_
  refine (ensures_advance gone there (identified_of_valid published.valid) ?_ ?_ ?_).bind fun next eighth ⟨gone, written⟩ => ?_
  · rw [ids]
    exact fun operationId member => operationIds_valid sound (List.mem_of_mem_take member)
  · rw [ids]
    exact (operationIds_nodup sound).sublist (List.take_sublist ..)
  · rw [publishing.phase]
    exact published.toBound.digest_allowed (by decide)
  · rw [publishing.phase] at written
    have recorded := published.recordNext held written
    obtain ⟨identified, created, -, -, -, -⟩ := written.members
    refine (ensures_persistProgress sound gone written.valid (identified.trans published.identified)
      published.scratch (.inr ⟨_, published.held⟩)
      (fun node loose => (published.toBound.beside loose).standing.recoverable)
      recorded.standing.recoverable).bind fun sync final shown => ?_
    exact ⟨shown.upheld recorded.standing.recoverable, _, shown, recorded, created⟩

theorem ensures_publishLoop {directorySync : DirectorySync} (sound : u.Sound)
    (publishing : Publishing u 0 0 progress view) (shows : Shows u view disk) :
    Ensures u.machine (Upheld u (Recoverable u))
      (fun next final => ∃ last, Shows u last final ∧
        Publishing u u.plan.length u.plan.length next.1 last ∧ next.1.createdAt = progress.createdAt)
      (fun _ _ => True)
      (u.plan.foldlM (publishNext options authority u.root) (progress, directorySync)) disk := by
  refine (Ensures.foldlM (fun (acc : TransactionProgressV1 × DirectorySync) rest state =>
    ∃ count last, u.plan.drop count = rest ∧ Shows u last state ∧ Publishing u count count acc.1 last ∧
      acc.1.createdAt = progress.createdAt) ?_ ?_ ⟨0, view, rfl, shows, publishing, rfl⟩).weaken ?_
  · rintro acc state ⟨count, last, -, shown, kept, -⟩
    exact shown.upheld kept.standing.recoverable
  · rintro ⟨current, sync⟩ operation rest state ⟨count, last, left, shown, kept, created⟩
    have held : u.plan[count]? = some operation := by
      rw [← List.head?_drop, left]
      rfl
    refine (ensures_publishNext sound kept shown held).weaken ?_
    rintro next final ⟨later, shows, moved, same⟩
    refine ⟨count + 1, later, ?_, shows, moved, same.trans created⟩
    rw [← List.tail_drop, left]
    rfl
  · rintro next final ⟨count, last, left, shown, kept, created⟩
    have whole : count = u.plan.length := by
      have beyond := List.drop_eq_nil_iff.mp left
      have bounded := kept.bounded
      omega
    subst whole
    exact ⟨last, shown, kept, created⟩

end Publishing

section Binding

variable {options : ExecuteManagedMutationOptions} {authority : Option LeaseAuthority}

/-- Everything is staged and the manifest is written, and the progress does not name it yet. -/
structure Staged (u : Undertaking) (progress : TransactionProgressV1) (view : View) : Prop
    extends Unbound u progress view where
  begun : progress.phase = .begun
  directory : view.own .staging = some .directory
  whole : ∀ index, view.own (.payload index) = payloadNode u index
  writable : validManifest (manifestOf u progress.createdAt) = true
  written : view.own .manifest =
    some (.file (manifestDocument.text (manifestOf u progress.createdAt)))

/-- What a progress says once it names its manifest. -/
def naming (digest : JsString) (progress : TransactionProgressV1) : TransactionProgressV1 :=
  { progress with manifestDigest := some digest, recoveryToken := digest }

theorem Staged.prepared (staged : Staged u progress view) {begun : TransactionProgressV1}
    (known : Written progress.toTransactionProgress begun)
    (written : Written (goneOn (naming (manifestDigestOf u.services (manifestOf u progress.createdAt))
      begun).toTransactionProgress .prepared []) stored) :
    Bound u 0 stored (view.recorded stored) ∧ stored.createdAt = progress.createdAt := by
  obtain ⟨identified, created, digest, token, ended, recorded⟩ := written.members
  have moment : begun.createdAt = progress.createdAt := by rw [known.same]
  have owner : begun.transactionId = progress.transactionId := by rw [known.same]
  have createdAt : stored.createdAt = progress.createdAt := created.trans moment
  have owned : stored.transactionId = u.transactionId :=
    identified.trans (owner.trans staged.identified)
  refine ⟨?_, createdAt⟩
  exact
    { recorded_recorded written.valid owned with
      bound := by
        rw [digest, createdAt]
        rfl
      token := by
        rw [token, createdAt]
        rfl
      writable := by
        rw [createdAt]
        exact staged.writable
      manifest := by
        rw [View.own_recorded (by decide) (by decide), createdAt]
        exact staged.written
      destinations := staged.destinations.of_outside rfl
      stage := by
        unfold Stage
        rw [ended]
        exact ⟨rfl, recorded, (View.own_recorded (by decide) (by decide)).trans staged.directory,
          fun index => (View.own_recorded (by simp) (by simp)).trans (staged.whole index)⟩ }

theorem Bound.startPublishing (bound : Bound u front progress view) (phase : progress.phase = .prepared)
    (written : Written (goneOn progress.toTransactionProgress .publishing
      progress.publishedOperationIds) stored) :
    Publishing u 0 0 stored (view.recorded stored) := by
  obtain ⟨-, -, -, -, ended, recorded⟩ := written.members
  have stage := bound.stage
  unfold Stage at stage
  rw [phase] at stage
  obtain ⟨rfl, nothing, directory, whole⟩ := stage
  have none : stored.publishedOperationIds = (operationIds u).take 0 := by
    rw [recorded, nothing, List.take_zero]
  have payloads : ∀ index, view.own (.payload index) = if index < 0 then Option.none else
      payloadNode u index := by
    intro index
    rw [if_neg (Nat.not_lt_zero index)]
    exact whole index
  have again : Stage u 0 stored view := by
    unfold Stage
    rw [ended]
    exact ⟨0, none, Nat.le_refl _, Nat.zero_le _, Nat.zero_le _, directory, payloads⟩
  exact ⟨bound.recorded written again, ended, none, Nat.le_refl _, Nat.zero_le _, Nat.zero_le _,
    (View.own_recorded (by decide) (by decide)).trans directory,
    fun index => (View.own_recorded (by simp) (by simp)).trans (payloads index)⟩

/-- A staged transaction is prepared, its publication is recorded as decided, and it is published. -/
theorem ensures_publishTransaction {begun : TransactionProgressV1} {directorySync : DirectorySync}
    (sound : u.Sound) (staged : Staged u progress view) (shows : Shows u view disk)
    (known : Written progress.toTransactionProgress begun) :
    Ensures u.machine (Upheld u (Recoverable u))
      (fun next final => ∃ last, Shows u last final ∧
        Publishing u u.plan.length u.plan.length next.1 last ∧ next.1.createdAt = progress.createdAt)
      (fun _ _ => True)
      (publishTransaction u.services u.plan options authority begun (manifestOf u progress.createdAt)
        directorySync) disk := by
  have here := staged.toUnbound.standing.recoverable
  have owned : begun.transactionId = u.transactionId := by
    rw [known.same]
    exact staged.identified
  have nothing : begun.publishedOperationIds = [] := by
    rw [known.same]
    exact staged.published
  have root : transactionRoot begun.transactionId = u.root := by
    rw [owned]
    rfl
  unfold publishTransaction
  rw [root]
  refine (ensures_check shows here (calls_assertDeclaredGuardPreconditions _)).bind
    fun _ first shown => ?_
  refine (ensures_check shown here (calls_assertPreconditions _)).bind fun _ second shown => ?_
  have digested : Identified (naming (manifestDigestOf u.services (manifestOf u progress.createdAt))
      begun) :=
    { named := (identified_of_valid known.valid).named
      digest := sound.hex _
      token := sound.hex _
      created := (identified_of_valid known.valid).created }
  have allowed : digestAtPhase .prepared
      (naming (manifestDigestOf u.services (manifestOf u progress.createdAt)) begun).manifestDigest =
        true := rfl
  have advanced : Ensures u.machine (Upheld u (Recoverable u)) _ (fun _ _ => True)
      (advance (naming (manifestDigestOf u.services (manifestOf u progress.createdAt)) begun) .prepared
        begun.publishedOperationIds directorySync) second :=
    ensures_advance shown here digested
      (by rw [nothing]; exact fun _ member => absurd member List.not_mem_nil)
      (by rw [nothing]; exact List.nodup_nil) allowed
  refine advanced.bind fun next third ⟨shown, written⟩ => ?_
  rw [nothing] at written
  obtain ⟨prepared, created⟩ := staged.prepared known written
  obtain ⟨-, -, -, -, phase, published⟩ := written.members
  have there := prepared.standing.recoverable
  refine (ensures_persistProgress sound shown written.valid prepared.identified staged.scratch
    (.inr ⟨_, staged.held⟩) (fun node loose => (staged.toUnbound.beside loose).standing.recoverable)
    there).bind fun sync fourth shown => ?_
  refine (ensures_check shown there (calls_assertLeaseAuthority _)).bind fun _ fifth shown => ?_
  refine (ensures_check shown there (calls_assertDeclaredGuardPreconditions _)).bind
    fun _ sixth shown => ?_
  refine (ensures_advance shown there (identified_of_valid written.valid) ?_ ?_
    (prepared.digest_allowed (by decide))).bind fun last seventh ⟨shown, going⟩ => ?_
  · rw [published]
    exact fun _ member => absurd member List.not_mem_nil
  · rw [published]
    exact List.nodup_nil
  · have publishing := prepared.startPublishing phase going
    obtain ⟨-, moment, -, -, -, -⟩ := going.members
    refine (ensures_persistProgress sound shown going.valid publishing.identified prepared.scratch
      (.inr ⟨_, prepared.held⟩) (fun node loose => (prepared.beside loose).standing.recoverable)
      publishing.standing.recoverable).bind fun _ eighth shown => ?_
    refine (ensures_publishLoop sound publishing shown).weaken ?_
    rintro answer final ⟨later, shows, moved, same⟩
    exact ⟨later, shows, moved, same.trans (moment.trans created)⟩

end Binding

section Preparing

/-- Payloads are staged up to a count, and there is no manifest yet. -/
structure Staging (u : Undertaking) (count : Nat) (progress : TransactionProgressV1) (view : View) : Prop
    extends Unbound u progress view where
  begun : progress.phase = .begun
  directory : view.own .staging = some .directory
  missing : view.own .manifest = none
  left : ∀ index, view.own (.payload index) = if index < count then payloadNode u index else none

variable {count : Nat}

theorem Staging.next (staging : Staging u count progress view)
    (kept : payloadNode u count = none) : Staging u (count + 1) progress view where
  toUnbound := staging.toUnbound
  begun := staging.begun
  directory := staging.directory
  missing := staging.missing
  left index := by
    by_cases same : index = count
    · subst same
      rw [staging.left index, if_neg (Nat.lt_irrefl _), if_pos (Nat.lt_succ_self _), kept]
    · have before : index < count + 1 ↔ index < count := by omega
      simp only [before]
      exact staging.left index

theorem Unbound.payload (unbound : Unbound u progress view) {node : Option Node} (loose : Loose node)
    (directory : view.own .staging = some .directory) (index : Nat) :
    Unbound u progress (view.put (.payload index) node) := unbound.put ⟨loose, directory⟩

theorem Staging.write (staging : Staging u count progress view) {content : JsString}
    (held : u.plan[count]? = some operation) (kind : operation.kind = .writeFile content) :
    Staging u (count + 1) progress (view.put (.payload count) (some (.file content))) where
  toUnbound := staging.toUnbound.payload (.inr ⟨content, rfl⟩) staging.directory count
  begun := staging.begun
  directory := (View.own_put_of_ne view (by simp)).trans staging.directory
  missing := (View.own_put_of_ne view (by simp)).trans staging.missing
  left index := by
    by_cases same : index = count
    · subst same
      rw [View.own_put, if_pos (Nat.lt_succ_self _), payloadNode, held, Option.bind_some, kind]
    · have before : index < count + 1 ↔ index < count := by omega
      simp only [before]
      rw [View.own_put_of_ne view fun equal => same (Slot.payload.inj equal)]
      exact staging.left index

private theorem ensures_stagePayload {directorySync : DirectorySync} (sound : u.Sound)
    (staging : Staging u count progress view) (shows : Shows u view disk)
    (held : u.plan[count]? = some operation) :
    Ensures u.machine (Upheld u (Recoverable u))
      (fun _ final => ∃ last, Shows u last final ∧ Staging u (count + 1) progress last)
      (fun _ _ => True) (stagePayload u.root directorySync operation) disk := by
  have here := staging.toUnbound.standing.recoverable
  cases kind : operation.kind with
  | writeFile content =>
      have used : Slot.Used u (.payload count) := ⟨operation, content, held, kind⟩
      have written := staging.write held kind
      have there := written.toUnbound.standing.recoverable
      have empty : view.own (.payload count) = none := by
        rw [staging.left count, if_neg (Nat.lt_irrefl _)]
      rw [stagePayload, kind, stagedPayloadPath_slot sound held kind]
      refine (ensures_writeSynced sound used shows staging.directory empty content here fun text =>
        (staging.toUnbound.payload (.inr ⟨text, rfl⟩) staging.directory count).standing.recoverable).bind
          fun _ first shown => ?_
      refine (ensures_check shown there (calls_assertExecutionPayload _ _)).bind fun _ second shown => ?_
      have slot : Slot.Used u .staging := trivial
      have directory : second.isDirectory (stagingRoot u.root) = true :=
        isDirectory_of (statePath_slot sound slot).shape
          ((shown.own .staging).trans written.directory)
      refine (ensures_syncDirectory shown directory there).bind fun observed final shown => ?_
      exact ⟨shown.upheld there, _, shown, written⟩
  | createDirectory | deleteFile =>
      have kept : payloadNode u count = none := by
        rw [payloadNode, held, Option.bind_some, kind]
      have next := staging.next kept
      rw [stagePayload, kind]
      exact ⟨shows.upheld here, view, shows, next⟩

theorem ensures_stageLoop {directorySync : DirectorySync} (sound : u.Sound)
    (staging : Staging u 0 progress view) (shows : Shows u view disk) :
    Ensures u.machine (Upheld u (Recoverable u))
      (fun _ final => ∃ last, Shows u last final ∧ Staging u u.plan.length progress last)
      (fun _ _ => True) (u.plan.foldlM (stagePayload u.root) directorySync) disk := by
  refine (Ensures.foldlM (fun (_ : DirectorySync) rest state => ∃ count last,
    u.plan.drop count = rest ∧ count ≤ u.plan.length ∧ Shows u last state ∧
      Staging u count progress last) ?_ ?_ ⟨0, view, rfl, Nat.zero_le _, shows, staging⟩).weaken ?_
  · rintro acc state ⟨count, last, -, -, shown, kept⟩
    exact shown.upheld kept.toUnbound.standing.recoverable
  · rintro acc operation rest state ⟨count, last, left, -, shown, kept⟩
    have held : u.plan[count]? = some operation := by
      rw [← List.head?_drop, left]
      rfl
    refine (ensures_stagePayload sound kept shown held).weaken ?_
    rintro next final ⟨later, shows, moved⟩
    refine ⟨count + 1, later, ?_, (List.getElem?_eq_some_iff.mp held).1, shows, moved⟩
    rw [← List.tail_drop, left]
    rfl
  · rintro next final ⟨count, last, left, bounded, shown, kept⟩
    have whole : count = u.plan.length := by
      have beyond := List.drop_eq_nil_iff.mp left
      omega
    subst whole
    exact ⟨last, shown, kept⟩

/-- Nothing is recorded of the transaction yet, or it stands. -/
def Opened (u : Undertaking) (view : View) : Prop := view.own .progress = none ∨ Recoverable u view

/-- The first record of a transaction. -/
structure Opening (u : Undertaking) (progress : TransactionProgressV1) : Prop where
  valid : validProgress progress = true
  identified : progress.transactionId = u.transactionId
  unbound : progress.manifestDigest = none
  token : progress.recoveryToken = identityToken u.services u.transactionId progress.createdAt
  begun : progress.phase = .begun
  published : progress.publishedOperationIds = []

theorem Opening.unbound_recorded (opening : Opening u progress) (manifest : view.own .manifest = none)
    (staging : view.own .staging = none) (payloads : ∀ index, view.own (.payload index) = none)
    (destinations : Destinations u 0 view) : Unbound u progress (view.recorded progress) :=
  { recorded_recorded opening.valid opening.identified with
    unbound := opening.unbound
    token := opening.token
    early := .inl opening.begun
    published := opening.published
    manifest := .inl ((View.own_recorded (by decide) (by decide)).trans manifest)
    housing := .inr ⟨(View.own_recorded (by decide) (by decide)).trans staging, fun index =>
      (View.own_recorded (by simp) (by simp)).trans (payloads index)⟩
    payloads := fun index => .inl ((View.own_recorded (by simp) (by simp)).trans (payloads index))
    destinations := destinations.of_outside rfl }

theorem Unbound.createStaging (unbound : Unbound u progress view) :
    Unbound u progress (view.put .staging (some .directory)) := unbound.put rfl

theorem Unbound.writeManifest (unbound : Unbound u progress view) (text : JsString) :
    Unbound u progress (view.put .manifest (some (.file text))) := unbound.put (.inr ⟨text, rfl⟩)

private theorem ensures_createStaging (sound : u.Sound) (shows : Shows u view disk)
    (empty : view.own .staging = none) (here : claim view)
    (there : claim (view.put .staging (some .directory))) :
    Ensures u.machine (Upheld u claim) (fun _ => Shows u (view.put .staging (some .directory)))
      (fun _ _ => True) (createDirectory (stagingRoot u.root)) disk := by
  have used : Slot.Used u .staging := trivial
  have later := shows.put sound used .directory
  have held : disk.held (stagingRoot u.root) = none := (shows.own .staging).trans empty
  have served : u.machine.serve (.createDirectory (stagingRoot u.root)) disk =
      .ok ((), disk.put (stagingRoot u.root) .directory) := by
    have shape : isManagedPathShape (stagingRoot u.root) = true := (statePath_slot sound used).shape
    have parent : disk.hasParent (stagingRoot u.root) = true := hasParent_slot sound used shows trivial
    show disk.createDirectory (stagingRoot u.root) = _
    rw [Disk.createDirectory, shape, parent, if_neg (by decide), held]
    rfl
  have whole : ∀ left, ¬ u.machine.torn (.createDirectory (stagingRoot u.root)) disk left :=
    fun _ partway => partway
  exact Ensures.perform (shows.upheld here) (fun left partway => absurd partway (whole left)) served
    (later.upheld there) later

theorem ensures_stageTransaction (directorySync : DirectorySync) (sound : u.Sound)
    (unbound : Unbound u progress view) (phase : progress.phase = .begun)
    (staging : view.own .staging = none) (missing : view.own .manifest = none)
    (payloads : ∀ index, view.own (.payload index) = none) (shows : Shows u view disk) :
    Ensures u.machine (Upheld u (Recoverable u))
      (fun prepared final => ∃ last, Shows u last final ∧ Staged u progress last ∧
        prepared.1 = manifestOf u progress.createdAt) (fun _ _ => True)
      (do
        createDirectory (stagingRoot u.root)
        let directorySync := mergeDirectorySync directorySync (← syncDirectory u.root)
        let directorySync ← u.plan.foldlM (stagePayload u.root) directorySync
        let manifest ← createManifest u.services u.plan u.transactionId progress.createdAt u.root
        writeSynced (manifestPath u.root) (manifestDocument.text manifest)
        return (manifest, mergeDirectorySync directorySync (← syncDirectory u.root))) disk := by
  have housed : Staging u 0 progress (view.put .staging (some .directory)) :=
    { toUnbound := unbound.createStaging
      begun := phase
      directory := View.own_put view
      missing := (View.own_put_of_ne view (by decide)).trans missing
      left := fun index => (View.own_put_of_ne view (by simp)).trans
        ((payloads index).trans (if_neg (Nat.not_lt_zero index)).symm) }
  have there := housed.toUnbound.standing.recoverable
  refine (ensures_createStaging sound shows staging unbound.standing.recoverable there).bind
    fun _ first shown => ?_
  have directory := isDirectory_of (statePath_root sound).shape shown.1.root
  refine (ensures_syncDirectory shown directory there).bind fun _ second shown => ?_
  refine (ensures_stageLoop sound housed shown).bind fun sync third ⟨last, shown, staged⟩ => ?_
  have held := staged.toUnbound.standing.recoverable
  have same : (⟨⟨u.transactionId, progress.createdAt, manifestOperations u.root u.plan⟩,
      u.services.sha256 (operationsText (u.plan.map toPersistedManagedOperation))⟩ :
        TransactionManifestV1) = manifestOf u progress.createdAt := rfl
  unfold createManifest validateManifest
  rw [same]
  by_cases writable : validManifest (manifestOf u progress.createdAt) = true
  · rw [if_pos writable]
    have manifest : Slot.Used u .manifest := trivial
    have written := staged.toUnbound.writeManifest
    have wrote : Ensures u.machine (Upheld u (Recoverable u)) _ (fun _ _ => True)
        (writeSynced (manifestPath u.root) (manifestDocument.text (manifestOf u progress.createdAt))) third :=
      ensures_writeSynced sound manifest shown trivial staged.missing _ held fun text =>
        (written text).standing.recoverable
    refine wrote.bind fun _ fourth shown => ?_
    have directory := isDirectory_of (statePath_root sound).shape shown.1.root
    refine (ensures_syncDirectory shown directory (written _).standing.recoverable).bind
      fun _ final shown => ?_
    refine ⟨shown.upheld (written _).standing.recoverable, _, shown, ?_, rfl⟩
    exact
      { toUnbound := written _
        begun := phase
        directory := (View.own_put_of_ne last (by decide)).trans staged.directory
        whole := fun index => by
          rw [View.own_put_of_ne last (by simp), staged.left index]
          split
          · rfl
          · rename_i beyond
            rw [payloadNode, List.getElem?_eq_none (by omega)]
            rfl
        writable := writable
        written := View.own_put last }
  · rw [if_neg writable]
    exact ⟨shown.upheld held, True.intro⟩

end Preparing

section Beginning

variable {options : ExecuteManagedMutationOptions}

/-- Once its progress is there a transaction stands. -/
def Begun (u : Undertaking) (disk : Disk) : Prop :=
  disk.held (progressPath u.root) ≠ none → Upheld u (Recoverable u) disk

theorem Upheld.begun (upheld : Upheld u (Opened u) disk) : Begun u disk := by
  intro present
  obtain ⟨anchored, absent | recoverable⟩ := upheld
  · exact absurd absent present
  · exact ⟨anchored, recoverable⟩

theorem begun_fresh (sound : u.Sound) (fresh : disk.storage = u.start.storage) : Begun u disk := by
  intro present
  have held : disk.held = u.start.held := congrArg Storage.find fresh
  rw [held] at present
  exact absurd (start_own sound .progress) present

theorem destinations_start (sound : u.Sound) : Destinations u 0 (viewOf u.root u.start) where
  untouched _ outside _ := viewOf_outside outside
  reached index operation held := by
    rw [if_neg (Nat.not_lt_zero index)]
    exact viewOf_outside (outside_root (sound.outside (List.mem_iff_getElem?.mpr ⟨index, held⟩)))

private theorem observes_assertExistingRoot (sound : u.Sound) (fresh : disk.storage = u.start.storage)
    (rootMode : RootMode) : Observes u.machine (assertExistingRoot rootMode) disk () := by
  have held : disk.held = u.start.held := congrArg Storage.find fresh
  have found : Observes u.machine (inspect Driver.brain) disk DurableEntry.directory := by
    have there : Observes u.machine (inspect Driver.brain) disk _ := observes_inspect (by decide)
    rwa [held, sound.brain] at there
  have transactions : Observes u.machine (inspect transactionsRoot) disk DurableEntry.directory := by
    have there : Observes u.machine (inspect transactionsRoot) disk _ := observes_inspect (by decide)
    rwa [held, sound.transactions] at there
  refine found.bind ?_
  cases rootMode <;> exact transactions.bind rfl

private theorem ensures_beginTransaction (sound : u.Sound) (fresh : disk.storage = u.start.storage) :
    Ensures u.machine (Begun u)
      (fun progress final => Opening u progress ∧ final.storage = u.start.storage) (fun _ _ => True)
      (beginTransaction u.services u.transactionId) disk := by
  have first : Begun u disk.tick := begun_fresh sound fresh
  have second : Begun u disk.tick.tick := begun_fresh sound fresh
  have whole : ∀ {left state}, u.machine.torn .now state left → Begun u left := False.elim
  unfold beginTransaction now
  refine Ensures.served (begun_fresh sound fresh) (fun _ => whole) rfl ?_
  refine Ensures.served first (fun _ => whole) rfl ?_
  unfold validateProgress
  split
  · rename_i valid
    exact ⟨second, ⟨valid, rfl, rfl, rfl, rfl, rfl⟩, fresh⟩
  · exact ⟨second, True.intro⟩

private theorem ensures_openRoot (sound : u.Sound) (fresh : disk.storage = u.start.storage) :
    Ensures u.machine (Begun u) (fun _ => Shows u (viewOf u.root u.start)) (fun _ _ => True)
      (createDirectoryExclusive u.root) disk := by
  have held : disk.held = u.start.held := congrArg Storage.find fresh
  have opened := shows_opened sound fresh
  have parent : parentOf u.root = transactionsRoot :=
    parentOf_child (plainName_id sound.identified).noSlash
  have empty : u.start.held u.root = none :=
    sound.held_fresh (Storage.within_iff.mpr ⟨[], .inl rfl, (List.append_nil _).symm⟩)
  have writable : disk.writable u.root = true := by
    rw [Disk.writable, (statePath_root sound).shape, Disk.hasParent, parent, held, sound.transactions,
      empty]
    rfl
  have served : u.machine.serve (.createDirectoryExclusive u.root) disk =
      .ok ((), disk.put u.root .directory) := if_pos writable
  have whole : ∀ left, ¬ u.machine.torn (.createDirectoryExclusive u.root) disk left :=
    fun _ partway => partway
  exact Ensures.perform (begun_fresh sound fresh) (fun left partway => absurd partway (whole left))
    served (opened.upheld (.inl (start_own sound .progress))).begun opened

private theorem ensures_prepareTransaction (sound : u.Sound) (opening : Opening u progress)
    (fresh : disk.storage = u.start.storage) :
    Ensures u.machine (Begun u)
      (fun prepared final => ∃ stored last, Shows u last final ∧ Staged u stored last ∧
        Written stored.toTransactionProgress progress ∧
          prepared.1 = manifestOf u stored.createdAt) (fun _ _ => True)
      (prepareTransaction u.services u.plan u.transactionId progress) disk := by
  have absent := start_own sound .progress
  refine (ensures_openRoot sound fresh).bind fun _ first shown => ?_
  have directory : first.isDirectory transactionsRoot = true :=
    isDirectory_of (by decide) shown.1.transactions
  have synced : Ensures u.machine (Upheld u (Opened u)) _ (fun _ _ => True)
      (syncDirectory transactionsRoot) first := ensures_syncDirectory shown directory (.inl absent)
  refine (synced.wider fun _ held => held.begun).bind fun sync second shown => ?_
  let stored : TransactionProgressV1 :=
    { progress with directorySync := mergeDirectorySync .notAttempted sync }
  have recorded : Opening u stored :=
    ⟨opening.valid, opening.identified, opening.unbound, opening.token, opening.begun, opening.published⟩
  have unbound := recorded.unbound_recorded (start_own sound .manifest) (start_own sound .staging)
    (fun index => start_own sound (.payload index)) (destinations_start sound)
  have persisted : Ensures u.machine (Upheld u (Opened u)) _ (fun _ _ => True)
      (persistProgress stored) second :=
    ensures_persistProgress sound shown recorded.valid recorded.identified
      (.inl (start_own sound .next)) (.inl absent)
      (fun node _ => .inl ((View.own_put_of_ne _ (by decide)).trans absent))
      (.inr unbound.standing.recoverable)
  refine (persisted.wider fun _ held => held.begun).bind fun sync third shown => ?_
  have staged := ensures_stageTransaction sync sound unbound recorded.begun
    ((View.own_recorded (by decide) (by decide)).trans (start_own sound .staging))
    ((View.own_recorded (by decide) (by decide)).trans (start_own sound .manifest))
    (fun index => (View.own_recorded (by simp) (by simp)).trans (start_own sound (.payload index)))
    shown
  refine staged.mono (fun _ held => fun _ => held) ?_ (fun _ _ threw => threw)
  rintro prepared final ⟨last, shows, ready, same⟩
  exact ⟨stored, last, shows, ready, ⟨rfl, opening.valid⟩, same⟩

/-- Wherever an execution is cut, the transaction stands once its progress is there; an execution
that ends has published everything. -/
theorem ensures_driveExecution (sound : u.Sound) :
    Ensures u.machine (Begun u) (Recovered u true) (fun _ _ => True)
      (driveExecution u.services u.plan options u.transactionId) u.start := by
  have here : Begun u u.start := begun_fresh sound rfl
  unfold driveExecution
  refine (ensures_reads here (calls_assertLeaseAuthority _)).bind ?_
  rintro _ first rfl
  refine (observes_assertExistingRoot sound rfl _).then ?_
  refine (ensures_beginTransaction sound rfl).bind fun progress second ⟨opening, fresh⟩ => ?_
  refine (ensures_prepareTransaction sound opening fresh).bind ?_
  rintro ⟨manifest, directorySync⟩ third ⟨stored, last, shows, staged, known, rfl⟩
  have published : Ensures u.machine _ _ _ (publishTransaction u.services u.plan options
    (options.leaseGuard.map (bindingAuthority u.services.sha256)) progress
      (manifestOf u stored.createdAt) directorySync) third :=
    ensures_publishTransaction sound staged shows known
  refine (published.wider fun _ held => fun _ => held).bind ?_
  rintro ⟨next, sync⟩ fourth ⟨later, shows, publishing, created⟩
  have committed : Ensures u.machine _ _ _ (commitTransaction options _ _ sync) fourth :=
    ensures_commitTransaction sound publishing shows
  rw [created] at committed
  exact committed.wider fun _ held => fun _ => held

end Beginning

end Kratos.Transactions
