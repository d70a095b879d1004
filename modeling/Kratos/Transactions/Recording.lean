/- source: composition/transactions.ts
   digest: What recording a progress and cleaning up after a transaction leave, wherever they are cut. -/

import Kratos.Transactions.Standing

set_option autoImplicit false

namespace Kratos.Transactions

open Foundation.Text Foundation.Crashes Patterns Durable Locks.Guard Transactions.Driver

variable {u : Undertaking} {disk : Disk} {view : View} {claim : View → Prop}
  {failed : DriverFailure → Disk → Prop} {progress : TransactionProgressV1}

section Persisting

def View.recorded (view : View) (progress : TransactionProgressV1) : View :=
  (view.put .next none).put .progress (some (.file (progressDocument.text progress)))

def moved (progress : TransactionProgressV1) (phase : TransactionPhase)
    (publishedOperationIds : List JsString) (directorySync : DirectorySync) (updatedAt : JsString) :
    TransactionProgressV1 :=
  { progress with phase, publishedOperationIds, directorySync, updatedAt }

/-- The members of a progress that never change are valid. -/
structure Identified (progress : TransactionProgressV1) : Prop where
  named : idPattern progress.transactionId = true
  digest : progress.manifestDigest.all sha256Pattern = true
  token : sha256Pattern progress.recoveryToken = true
  created : timestampPattern progress.createdAt = true

theorem identified_of_valid (valid : validProgress progress = true) : Identified progress := by
  simp only [validProgress, Bool.and_eq_true] at valid
  obtain ⟨⟨⟨⟨⟨⟨⟨named, digest⟩, token⟩, -⟩, -⟩, created⟩, -⟩, -⟩ := valid
  exact ⟨named, digest, token, created⟩

theorem validProgress_moved {phase : TransactionPhase} {publishedOperationIds : List JsString}
    {directorySync : DirectorySync} {updatedAt : JsString} (identified : Identified progress)
    (named : ∀ operationId ∈ publishedOperationIds, idPattern operationId = true)
    (distinct : publishedOperationIds.Nodup) (reading : timestampPattern updatedAt = true)
    (allowed : digestAtPhase phase progress.manifestDigest = true) :
    validProgress (moved progress phase publishedOperationIds directorySync updatedAt) = true := by
  simp only [validProgress, Bool.and_eq_true]
  exact ⟨⟨⟨⟨⟨⟨⟨identified.named, identified.digest⟩, identified.token⟩, List.all_eq_true.mpr named⟩,
    decide_eq_true distinct⟩, identified.created⟩, reading⟩, allowed⟩

theorem isFileEntry_file (sha256 : JsString → JsString) (text : JsString) :
    isFileEntry (Node.entry sha256 (some (.file text))) = true := rfl

/-- Persisting a progress leaves the old record with some scratch file beside it, or the new one. -/
theorem ensures_persistProgress (sound : u.Sound) (shows : Shows u view disk)
    (valid : validProgress progress = true) (named : progress.transactionId = u.transactionId)
    (scratch : Loose (view.own .next)) (before : Loose (view.own .progress))
    (beside : ∀ node, Loose node → claim (view.put .next node)) (there : claim (view.recorded progress)) :
    Ensures u.machine (Upheld u claim) (fun _ => Shows u (view.recorded progress)) failed
      (persistProgress progress) disk := by
  have next : Slot.Used u .next := trivial
  have used : Slot.Used u .progress := trivial
  have write : ∀ state, Shows u (view.put .next none) state →
      Ensures u.machine (Upheld u claim) (fun _ => Shows u (view.recorded progress)) failed
        (do
          writeSynced (nextPath u.root) (progressDocument.text progress)
          replaceFile (nextPath u.root) (progressPath u.root)
          return mergeDirectorySync progress.directorySync (← syncDirectory u.root)) state := by
    intro state empty
    have partway : ∀ text, claim ((view.put .next none).put .next (some (.file text))) := by
      intro text
      rw [View.put_put]
      exact beside _ (.inr ⟨text, rfl⟩)
    have written : Ensures u.machine (Upheld u claim) _ failed
        (writeSynced (nextPath u.root) (progressDocument.text progress)) state :=
      ensures_writeSynced sound next empty trivial (View.own_put view) _ (beside none (.inl rfl)) partway
    refine written.bind fun _ middle there' => ?_
    have replaced : Ensures u.machine (Upheld u claim) _ failed
        (replaceFile (nextPath u.root) (progressPath u.root)) middle :=
      ensures_replaceFile sound next used there' trivial trivial (View.own_put _) ?_ ?_ ?_
    · refine replaced.bind fun _ last recorded => ?_
      rw [View.put_put, View.put_put] at recorded
      have directory := isDirectory_of (statePath_root sound).shape recorded.1.root
      refine (ensures_syncDirectory recorded directory there).bind fun _ final same => ?_
      exact ⟨same.upheld there, same⟩
    · rw [View.own_put_of_ne _ (by decide), View.own_put_of_ne _ (by decide)]
      exact before
    · rw [View.put_put]
      exact beside _ (.inr ⟨_, rfl⟩)
    · rw [View.put_put, View.put_put]
      exact there
  unfold persistProgress validateProgress
  rw [if_pos valid]
  show Ensures _ _ _ _ (inspect (nextPath (transactionRoot progress.transactionId)) >>= _) _
  rw [named]
  refine (observes_next sound shows).then ?_
  rcases scratch with empty | ⟨text, file⟩
  · rw [empty]
    have same : view.put .next none = view := by
      rw [← empty, View.put_own]
    exact write disk (by rwa [same])
  · rw [file]
    have here : claim view := by
      have kept := beside _ (.inr ⟨text, rfl⟩)
      rwa [← file, View.put_own] at kept
    have removed : Ensures u.machine (Upheld u claim) _ failed (removeFile (nextPath u.root)) disk :=
      ensures_removeFile sound next shows file here (beside none (.inl rfl))
    refine removed.bind fun _ middle empty => ?_
    have directory := isDirectory_of (statePath_root sound).shape empty.1.root
    refine (ensures_syncDirectory empty directory (beside none (.inl rfl))).bind fun _ final same => ?_
    exact write final same

/-- A stored progress says what was to be recorded, at some moment and with some synchronisation. -/
structure Written (target : TransactionProgress) (stored : TransactionProgressV1) : Prop where
  same : stored.toTransactionProgress = target
  valid : validProgress stored = true

/-- What is recorded of a progress that goes on to a phase. -/
def goneOn (source : TransactionProgress) (phase : TransactionPhase)
    (publishedOperationIds : List JsString) : TransactionProgress :=
  { source with phase, publishedOperationIds }

/-- Of a progress that goes on, the phase and the published operations are new. -/
theorem Written.members {phase : TransactionPhase} {publishedOperationIds : List JsString}
    {stored : TransactionProgressV1}
    (written : Written (goneOn progress.toTransactionProgress phase publishedOperationIds) stored) :
    stored.transactionId = progress.transactionId ∧ stored.createdAt = progress.createdAt ∧
      stored.manifestDigest = progress.manifestDigest ∧
      stored.recoveryToken = progress.recoveryToken ∧ stored.phase = phase ∧
      stored.publishedOperationIds = publishedOperationIds := by
  rw [written.same]
  exact ⟨rfl, rfl, rfl, rfl, rfl, rfl⟩

theorem ensures_advance {phase : TransactionPhase} {publishedOperationIds : List JsString}
    {directorySync : DirectorySync} (shows : Shows u view disk) (here : claim view)
    (identified : Identified progress)
    (named : ∀ operationId ∈ publishedOperationIds, idPattern operationId = true)
    (distinct : publishedOperationIds.Nodup)
    (allowed : digestAtPhase phase progress.manifestDigest = true) :
    Ensures u.machine (Upheld u claim)
      (fun next final => Shows u view final ∧
        Written (goneOn progress.toTransactionProgress phase publishedOperationIds) next) failed
      (advance progress phase publishedOperationIds directorySync) disk := by
  refine (ensures_now shows here).bind fun updatedAt final ⟨reading, later⟩ => ?_
  have next : validProgress (moved progress phase publishedOperationIds directorySync updatedAt) = true :=
    validProgress_moved identified named distinct reading allowed
  unfold validateProgress
  rw [moved] at next
  rw [if_pos next]
  exact ⟨later.upheld here, later, rfl, next⟩

theorem ensures_record {phase : TransactionPhase} {publishedOperationIds : List JsString}
    {directorySync : DirectorySync} (sound : u.Sound) (shows : Shows u view disk)
    (valid : validProgress progress = true) (owned : progress.transactionId = u.transactionId)
    (named : ∀ operationId ∈ publishedOperationIds, idPattern operationId = true)
    (distinct : publishedOperationIds.Nodup)
    (allowed : digestAtPhase phase progress.manifestDigest = true)
    (scratch : Loose (view.own .next)) (before : Loose (view.own .progress))
    (beside : ∀ node, Loose node → claim (view.put .next node))
    (there : ∀ stored,
      Written (goneOn progress.toTransactionProgress phase publishedOperationIds) stored →
        claim (view.recorded stored)) :
    Ensures u.machine (Upheld u claim)
      (fun next final =>
        Written (goneOn progress.toTransactionProgress phase publishedOperationIds) next ∧
          ∃ stored, Written (goneOn progress.toTransactionProgress phase publishedOperationIds) stored ∧
            Shows u (view.recorded stored) final) failed
      (record progress phase publishedOperationIds directorySync) disk := by
  have here : claim view := by
    have kept := beside _ scratch
    rwa [View.put_own] at kept
  unfold record
  refine (ensures_advance shows here (identified_of_valid valid) named distinct allowed).bind fun next middle ⟨later, written⟩ => ?_
  have same : next.transactionId = u.transactionId :=
    (congrArg TransactionProgress.transactionId written.same).trans owned
  refine (ensures_persistProgress sound later written.valid same scratch before beside
    (there next written)).bind fun sync final recorded => ?_
  exact ⟨recorded.upheld (there next written), ⟨written.same, written.valid⟩, next, written, recorded⟩

end Persisting

section Cleaning

/-- Some of what a terminal transaction no longer needs is gone. -/
structure Cleared (view later : View) : Prop where
  outside : later.outside = view.outside
  progress : later.own .progress = view.own .progress
  manifest : later.own .manifest = view.own .manifest
  rest : ∀ slot, later.own slot = view.own slot ∨ later.own slot = none
  staging : later.own .staging = view.own .staging ∨
    later.own .staging = none ∧ ∀ index, later.own (.payload index) = none

/-- Nothing is left beside the progress and the manifest. -/
structure Tidy (view : View) : Prop where
  next : view.own .next = none
  staging : view.own .staging = none
  payloads : ∀ index, view.own (.payload index) = none

variable {later : View}

theorem Cleared.refl (view : View) : Cleared view view :=
  ⟨rfl, rfl, rfl, fun _ => .inl rfl, .inl rfl⟩

theorem Cleared.loose {slot : Slot} (cleared : Cleared view later) (loose : Loose (view.own slot)) :
    Loose (later.own slot) := by
  rcases cleared.rest slot with same | gone
  · rwa [same]
  · exact .inl gone

theorem Cleared.gone {slot : Slot} (cleared : Cleared view later) (empty : view.own slot = none) :
    later.own slot = none := by
  rcases cleared.rest slot with same | gone
  · exact same.trans empty
  · exact gone

/-- The directory of the payloads is removed once they are gone, and any other slot at any time. -/
theorem Cleared.remove {slot : Slot} (cleared : Cleared view later) (progress : slot ≠ .progress)
    (manifest : slot ≠ .manifest)
    (bare : slot = .staging → ∀ index, later.own (.payload index) = none) :
    Cleared view (later.put slot none) := by
  have removed : ∀ other, (later.put slot none).own other = later.own other ∨
      (later.put slot none).own other = none := by
    intro other
    by_cases same : other = slot
    · subst same
      exact .inr (View.own_put later)
    · exact .inl (View.own_put_of_ne later same)
  have gone : ∀ {other}, later.own other = none → (later.put slot none).own other = none :=
    fun empty => (removed _).elim (fun same => same.trans empty) id
  refine
    { outside := cleared.outside
      progress := (View.own_put_of_ne later progress.symm).trans cleared.progress
      manifest := (View.own_put_of_ne later manifest.symm).trans cleared.manifest
      rest := fun other => ?_, staging := ?_ }
  · rcases removed other with same | empty
    · rw [same]
      exact cleared.rest other
    · exact .inr empty
  · by_cases same : slot = .staging
    · exact .inr ⟨by rw [same, View.own_put], fun index => gone (bare same index)⟩
    · rw [View.own_put_of_ne later (Ne.symm same)]
      exact cleared.staging.imp_right fun ⟨missing, every⟩ => ⟨missing, fun index => gone (every index)⟩

theorem Cleared.removePayload (cleared : Cleared view later) (index : Nat) :
    Cleared view (later.put (.payload index) none) :=
  cleared.remove (by simp) (by simp) fun same => by cases same

theorem Cleared.removeStaging (cleared : Cleared view later)
    (gone : ∀ index, later.own (.payload index) = none) : Cleared view (later.put .staging none) :=
  cleared.remove (by decide) (by decide) fun _ => gone

theorem Shows.unused (shows : Shows u view disk) {index : Nat}
    (unused : ¬ Slot.Used u (.payload index)) : view.own (.payload index) = none := by
  by_contra present
  rw [← shows.own (.payload index)] at present
  obtain ⟨other, operation, content, held, kind, same⟩ :=
    shows.1.payloads _ (noSlash_payload index) present
  rw [payloadName, payloadName, List.append_cancel_right_eq] at same
  obtain rfl := operationIdAt_injective same
  exact unused ⟨operation, content, held, kind⟩

theorem ensures_removeLeftover {slot : Slot} (sound : u.Sound) (used : slot.Used u)
    (shows : Shows u view disk) (loose : Loose (view.own slot)) (here : claim view)
    (there : claim (view.put slot none)) :
    Ensures u.machine (Upheld u claim) (fun _ => Shows u (view.put slot none)) failed
      (removeLeftover (slot.path u.root)) disk := by
  refine (observes_slot sound used shows).then ?_
  rcases loose with empty | ⟨text, file⟩
  · have same : view.put slot none = view := by
      rw [← empty, View.put_own]
    rw [empty, same]
    exact ⟨shows.upheld here, shows⟩
  · rw [file]
    exact ensures_removeFile sound used shows file here there

/-- The payloads that are still to be removed are those of the operations that are left. -/
private def Removing (u : Undertaking) (view : View) (rest : List PersistedOperation) (disk : Disk) :
    Prop :=
  ∃ later, Shows u later disk ∧ Cleared view later ∧ ∀ index, later.own (.payload index) = none ∨
    ∃ stored ∈ rest, stored.stagedPath = some (Slot.path u.root (.payload index))

private theorem ensures_removePayloads (sound : u.Sound) (shows : Shows u view disk)
    (loose : ∀ index, Loose (view.own (.payload index)))
    (cleared : ∀ later, Cleared view later → claim later) :
    Ensures u.machine (Upheld u claim) (fun _ => Removing u view []) failed
      ((manifestOperations u.root u.plan).forM removePayload) disk := by
  have member : ∀ stored ∈ manifestOperations u.root u.plan, ∀ staged ∈ stored.stagedPath,
      ∃ index, staged = Slot.path u.root (.payload index) ∧ Slot.Used u (.payload index) := by
    intro stored member staged held
    exact (mem_stagedPaths sound).mp (List.mem_filterMap.mpr ⟨stored, member, held⟩)
  refine (Ensures.forM (fun rest state => rest ⊆ manifestOperations u.root u.plan ∧
    Removing u view rest state) ?_ ?_ ⟨List.Subset.refl _, ?_⟩).weaken fun _ _ ended => ended.2
  · rintro state ⟨-, later, shown, kept, -⟩
    exact shown.upheld (cleared later kept)
  · rintro stored rest state ⟨among, later, shown, kept, left⟩
    have within := among List.mem_cons_self
    have others : rest ⊆ manifestOperations u.root u.plan := fun _ inside =>
      among (List.mem_cons_of_mem _ inside)
    unfold removePayload
    cases staged : stored.stagedPath with
    | none =>
        refine ⟨shown.upheld (cleared later kept), others, later, shown, kept, fun index => ?_⟩
        refine (left index).imp_right fun ⟨other, inside, at_index⟩ => ⟨other, ?_, at_index⟩
        rcases List.mem_cons.mp inside with rfl | inside
        · rw [staged] at at_index
          cases at_index
        · exact inside
    | some path =>
        obtain ⟨index, rfl, used⟩ := member stored within path staged
        have removed := kept.removePayload index
        refine (ensures_removeLeftover sound used shown (kept.loose (loose index))
          (cleared later kept) (cleared _ removed)).weaken fun _ final ended => ?_
        refine ⟨others, _, ended, removed, fun other => ?_⟩
        by_cases same : other = index
        · subst same
          exact .inl (View.own_put later)
        · have apart : Slot.payload other ≠ Slot.payload index := fun equal => same (Slot.payload.inj equal)
          rw [View.own_put_of_ne later apart]
          refine (left other).imp_right fun ⟨another, inside, at_index⟩ => ⟨another, ?_, at_index⟩
          rcases List.mem_cons.mp inside with rfl | inside
          · rw [staged] at at_index
            exact absurd (Slot.path_injective (Option.some.inj at_index)).symm apart
          · exact inside
  · refine ⟨view, shows, .refl view, fun index => ?_⟩
    by_cases used : Slot.Used u (.payload index)
    · obtain ⟨stored, inside, staged⟩ := List.mem_filterMap.mp
        ((mem_stagedPaths sound).mpr ⟨index, rfl, used⟩)
      exact .inr ⟨stored, inside, staged⟩
    · exact .inl (shows.unused used)

private theorem ensures_removeStagingRoot (sound : u.Sound) {later : View} (shows : Shows u later disk)
    (cleared : ∀ later, Cleared view later → claim later) (kept : Cleared view later)
    (housing : Housing later) (gone : ∀ index, later.own (.payload index) = none) :
    Ensures u.machine (Upheld u claim) (fun _ => Shows u (later.put .staging none)) failed
      (removeStaging u.root) disk := by
  have used : Slot.Used u .staging := trivial
  refine (observes_staging sound shows).then ?_
  rcases housing with directory | ⟨missing, -⟩
  · rw [directory]
    have listed : Observes u.machine (Driver.list (stagingRoot u.root)) disk _ :=
      observes_list (statePath_slot sound used).shape ((shows.own .staging).trans directory)
    refine listed.then ?_
    have empty : disk.entries u.services.localeCompare (stagingRoot u.root) = [] := by
      refine List.eq_nil_iff_forall_not_mem.mpr fun name member => ?_
      obtain ⟨single, present⟩ := Disk.mem_entries_iff.mp member
      obtain ⟨index, -, -, -, -, rfl⟩ := shows.1.payloads name single present
      exact present ((shows.own (.payload index)).trans (gone index))
    rw [empty]
    exact ensures_removeStaging sound shows directory gone (cleared later kept)
      (cleared _ (kept.removeStaging gone))
  · have same : later.put .staging none = later := by
      rw [← missing, View.put_own]
    rw [missing, same]
    exact ⟨shows.upheld (cleared later kept), shows⟩

theorem ensures_cleanupTransaction {createdAt : JsString} {directorySync : DirectorySync}
    (sound : u.Sound) (shows : Shows u view disk) (loose : ∀ index, Loose (view.own (.payload index)))
    (scratch : Loose (view.own .next)) (housing : Housing view)
    (cleared : ∀ later, Cleared view later → claim later) :
    Ensures u.machine (Upheld u claim)
      (fun _ final => ∃ later, Shows u later final ∧ Cleared view later ∧ Tidy later) failed
      (cleanupTransaction (manifestOf u createdAt) directorySync) disk := by
  have root : transactionRoot (manifestOf u createdAt).transactionId = u.root := rfl
  have operations : (manifestOf u createdAt).operations = manifestOperations u.root u.plan := rfl
  unfold cleanupTransaction
  rw [root, operations]
  refine (ensures_removePayloads sound shows loose cleared).bind fun _ first ⟨later, shown, kept, left⟩ => ?_
  have gone : ∀ index, later.own (.payload index) = none := fun index =>
    (left index).resolve_right fun ⟨_, inside, _⟩ => absurd inside List.not_mem_nil
  have housed : Housing later := by
    rcases kept.staging with same | ⟨missing, -⟩
    · rcases housing with directory | ⟨missing, -⟩
      · exact .inl (same.trans directory)
      · exact .inr ⟨same.trans missing, gone⟩
    · exact .inr ⟨missing, gone⟩
  refine (ensures_removeStagingRoot sound shown cleared kept housed gone).bind fun _ second bare => ?_
  have bareKept := kept.removeStaging gone
  have next : Slot.Used u .next := trivial
  have looseNext := bareKept.loose scratch
  have last : Cleared view _ := bareKept.remove (by decide) (by decide) fun same : Slot.next = _ => by cases same
  have removed : Ensures u.machine (Upheld u claim) _ failed (removeLeftover (nextPath u.root)) second :=
    ensures_removeLeftover sound next bare looseNext (cleared _ bareKept) (cleared _ last)
  refine removed.bind fun _ third tidy => ?_
  have directory := isDirectory_of (statePath_root sound).shape tidy.1.root
  refine (ensures_syncDirectory tidy directory (cleared _ last)).bind fun _ final same => ?_
  refine ⟨same.upheld (cleared _ last), _, same, last, View.own_put _, ?_, fun index => ?_⟩
  · rw [View.own_put_of_ne _ (by decide)]
    exact View.own_put later
  · rw [View.own_put_of_ne _ (by simp), View.own_put_of_ne _ (by simp)]
    exact gone index

/-- What a terminal synchronisation changes of the record is not what it says. -/
theorem ensures_persistTerminalDirectorySync {observed : DirectorySync} (sound : u.Sound)
    (shows : Shows u view disk) (valid : validProgress progress = true)
    (owned : progress.transactionId = u.transactionId) (scratch : Loose (view.own .next))
    (before : Loose (view.own .progress)) (beside : ∀ node, Loose node → claim (view.put .next node))
    (there : ∀ stored, Written progress.toTransactionProgress stored → claim (view.recorded stored)) :
    Ensures u.machine (Upheld u claim)
      (fun next final => Written progress.toTransactionProgress next ∧ (Shows u view final ∨
        ∃ stored, Written progress.toTransactionProgress stored ∧ Shows u (view.recorded stored) final))
      failed (persistTerminalDirectorySync progress observed) disk := by
  have here : claim view := by
    have kept := beside _ scratch
    rwa [View.put_own] at kept
  unfold persistTerminalDirectorySync
  dsimp only
  split
  · exact ⟨shows.upheld here, ⟨rfl, valid⟩, .inl shows⟩
  · refine (ensures_now shows here).bind fun updatedAt middle ⟨reading, later⟩ => ?_
    have written : ∀ sync, Written progress.toTransactionProgress
        { progress with directorySync := sync, updatedAt } := by
      refine fun sync => ⟨rfl, ?_⟩
      simp only [validProgress, Bool.and_eq_true] at valid ⊢
      exact ⟨⟨valid.1.1, reading⟩, valid.2⟩
    generalize mergeDirectorySync progress.directorySync observed = merged
    have stored := written merged
    unfold validateProgress
    rw [if_pos stored.valid]
    refine (ensures_persistProgress sound later stored.valid owned scratch before beside
      (there _ stored)).bind fun sync final recorded => ?_
    exact ⟨recorded.upheld (there _ stored), written sync, .inr ⟨_, stored, recorded⟩⟩

theorem missing_entry {sha256 : JsString → JsString} {node : Option Node}
    (entry : Node.entry sha256 node = .missing) : node = none := by
  cases node with
  | none => rfl
  | some node => cases node <;> cases entry

theorem file_entry {sha256 : JsString → JsString} {node : Option Node} {size : Nat} {digest : JsString}
    (entry : Node.entry sha256 node = .file size digest) : ∃ text, node = some (.file text) := by
  cases node with
  | none => cases entry
  | some node =>
      cases node with
      | file text => exact ⟨text, rfl⟩
      | directory | symlink | special => cases entry

theorem loose_entry {sha256 : JsString → JsString} {node : Option Node} {fingerprint : PathFingerprint}
    (entry : Node.entry sha256 node = entryOf fingerprint) (other : fingerprint ≠ .directory) :
    Loose node := by
  cases fingerprint with
  | missing => exact .inl (missing_entry entry)
  | directory => exact absurd rfl other
  | file size digest => exact .inr (file_entry entry)

/-- Whether something is left beside the progress and the manifest of a bound transaction. -/
theorem observes_hasCleanupEntries (sound : u.Sound) (shows : Shows u view disk) :
    ∃ left, Observes u.machine (hasCleanupEntries u.root false) disk left ∧
      (left = false → view.own .staging = none ∧ view.own .next = none) := by
  have staging : Slot.Used u .staging := trivial
  have next : Slot.Used u .next := trivial
  have first := observes_staging sound shows
  have second := observes_next sound shows
  unfold hasCleanupEntries
  by_cases noStaging : Node.entry u.services.sha256 (view.own .staging) = .missing
  · by_cases noNext : Node.entry u.services.sha256 (view.own .next) = .missing
    · refine ⟨false, first.bind ?_, fun _ => ⟨missing_entry noStaging, missing_entry noNext⟩⟩
      rw [if_neg (not_not.mpr noStaging)]
      refine second.bind ?_
      rw [if_neg (not_not.mpr noNext), if_neg Bool.false_ne_true]
      exact rfl
    · refine ⟨true, first.bind ?_, fun impossible => by cases impossible⟩
      rw [if_neg (not_not.mpr noStaging)]
      refine second.bind ?_
      rw [if_pos noNext]
      exact rfl
  · refine ⟨true, first.bind ?_, fun impossible => by cases impossible⟩
    rw [if_pos noStaging]
    exact rfl

end Cleaning

end Kratos.Transactions
