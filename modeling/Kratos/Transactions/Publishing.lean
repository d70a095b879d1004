/- source: composition/transactions.ts, domain/transactions/recovery.ts
   digest: Publishing an operation moves the front of a plan by one, and recovery goes on from there. -/

import Kratos.Transactions.Resuming

set_option autoImplicit false

namespace Kratos.Transactions

open Foundation.Text Foundation.Crashes Durable Locks.Guard Transactions.Driver

variable {u : Undertaking} {disk : Disk} {view : View} {progress stored : TransactionProgressV1}
  {front index : Nat} {operation : ManagedOperation} {claim : View → Prop}
  {failed : DriverFailure → Disk → Prop}

section Destinations

def View.published (view : View) (index : Nat) (operation : ManagedOperation) : View :=
  (view.put (.payload index) none).set operation.path (outcome operation)

theorem View.own_published {slot : Slot} (apart : slot ≠ .payload index) :
    (view.published index operation).own slot = view.own slot :=
  View.own_put_of_ne view apart

theorem Frozen.expected_ne_directory {lower : Foundation.Paths.CaseMapping} {sha256 : JsString → JsString}
    (frozen : Frozen lower sha256 index operation) : operation.expected ≠ .directory := by
  intro same
  have exact := frozen.exact
  unfold exactOperation at exact
  rw [same] at exact
  cases kind : operation.kind with
  | createDirectory | deleteFile =>
      rw [kind] at exact
      simp [isFile] at exact
  | writeFile content =>
      rw [kind] at exact
      simp at exact

theorem Destinations.published (destinations : Destinations u front view) (sound : u.Sound)
    (held : u.plan[front]? = some operation) :
    Destinations u (front + 1) (view.published front operation) where
  untouched path outside unplanned := by
    have apart : path ≠ operation.path := fun same =>
      unplanned operation (List.mem_of_getElem? held) same.symm
    exact (Function.update_of_ne apart ..).trans (destinations.untouched path outside unplanned)
  reached index other there := by
    by_cases same : index = front
    · subst same
      rw [held] at there
      cases there
      rw [if_pos (Nat.lt_succ_self _)]
      exact Function.update_self ..
    · have apart : other.path ≠ operation.path := fun equal =>
        same (index_of_path sound there held equal)
      have before : index < front + 1 ↔ index < front := by omega
      simp only [before]
      exact (Function.update_of_ne apart ..).trans (destinations.reached index other there)

theorem parent_ready (sound : u.Sound) (shows : Shows u view disk)
    (destinations : Destinations u front view) (held : u.plan[index]? = some operation)
    (come : index ≤ front) :
    disk.isDirectory (parentOf operation.path) = true := by
  have member := List.mem_of_getElem? held
  have frozen := sound.frozen held
  by_cases top : parentOf operation.path = js "."
  · rw [Disk.isDirectory, top]
    rfl
  · have shape := (shape_parent frozen.destination).resolve_left top
    have outside := within_parent (outside_root (u := u) (sound.outside member)) top
    refine isDirectory_of shape ?_
    rw [shows.outside outside]
    rcases sound.ready index operation held with root | standing | ⟨earlier, creating, before, there, kind, same⟩
    · exact absurd root top
    · by_cases planned : ∃ other ∈ u.plan, other.path = parentOf operation.path
      · obtain ⟨other, inside, same⟩ := planned
        obtain ⟨another, at_index, -, known⟩ := sound.at_index inside
        have entry := sound.standing other inside
        rw [same, standing] at entry
        cases expected : other.expected with
        | directory => exact absurd expected known.expected_ne_directory
        | missing =>
            rw [expected] at entry
            cases entry
        | file size sha256 =>
            rw [expected] at entry
            cases entry
      · rw [destinations.untouched _ outside fun other inside same => planned ⟨other, inside, same⟩]
        exact standing
    · have reached := destinations.reached earlier creating there
      rw [if_pos (Nat.lt_of_lt_of_le before come), same, outcome, kind] at reached
      exact reached

theorem hasParent_ready {path : JsString} (directory : disk.isDirectory (parentOf path) = true) :
    disk.hasParent path = true := by
  rw [Disk.isDirectory, Bool.or_eq_true, Bool.and_eq_true] at directory
  rw [Disk.hasParent, Bool.or_eq_true]
  exact directory.imp_right And.right

theorem observes_directory {path : JsString} (directory : disk.isDirectory path = true) :
    Observes u.machine (inspect path) disk .directory := by
  rw [Disk.isDirectory, Bool.or_eq_true, Bool.and_eq_true, beq_iff_eq, beq_iff_eq] at directory
  rcases directory with root | ⟨shape, held⟩
  · exact Observes.call (fun _ partway => partway) (if_pos root)
  · have looked : Observes u.machine (inspect path) disk _ := observes_inspect shape
    rw [held] at looked
    exact looked

end Destinations

section Publishing

private theorem payload_absent {slot : Slot} (empty : view.own slot = none) : view.put slot none = view := by
  rw [← empty, View.put_own]

theorem ensures_publish (sound : u.Sound) (shows : Shows u view disk)
    (destinations : Destinations u front view) (held : u.plan[front]? = some operation)
    (whole : view.own (.payload front) = payloadNode u front)
    (directory : view.own .staging = some .directory) (here : claim view)
    (there : claim (view.published front operation)) :
    Ensures u.machine (Upheld u claim) (fun _ => Shows u (view.published front operation)) failed
      (publishPersistedOperation (persisted u.root front operation)) disk := by
  have member := List.mem_of_getElem? held
  have frozen := sound.frozen held
  have outside := outside_root (u := u) (sound.outside member)
  have shape := shape_destination frozen.destination
  have parent := hasParent_ready (parent_ready sound shows destinations held (Nat.le_refl _))
  have entry := destinations.entry sound held
  rw [if_neg (Nat.lt_irrefl front), ← shows.outside outside] at entry
  have exact := frozen.exact
  unfold exactOperation at exact
  rw [payloadNode, held, Option.bind_some] at whole
  cases kind : operation.kind with
  | createDirectory =>
      rw [kind] at exact whole
      simp only [Bool.and_eq_true, beq_iff_eq] at exact
      rw [exact.1] at entry
      have empty := missing_entry entry
      have same : view.published front operation = view.set operation.path (some .directory) := by
        rw [View.published, payload_absent whole, outcome, kind]
      have later : Shows u (view.published front operation) (disk.put operation.path .directory) := by
        rw [same]
        exact ⟨shows.1.put_outside sound member, by rw [viewOf_put_outside outside, shows.2]⟩
      have served : u.machine.serve (.createDirectory operation.path) disk =
          .ok ((), disk.put operation.path .directory) := by
        show disk.createDirectory operation.path = _
        rw [Disk.createDirectory, shape, parent, if_neg (by decide), empty]
        rfl
      have program : publishPersistedOperation (persisted u.root front operation) =
          createDirectory operation.path := by
        simp only [publishPersistedOperation, persisted, toPersistedManagedOperation, kind,
          Locks.Guard.persistedKind]
      rw [program]
      exact Ensures.perform (shows.upheld here) (fun _ partway => partway.elim) served
        (later.upheld there) later
  | writeFile content =>
      rw [kind] at exact whole
      have used : Slot.Used u (.payload front) := ⟨operation, content, held, kind⟩
      have same : view.published front operation =
          (view.put (.payload front) none).set operation.path (some (.file content)) := by
        rw [View.published, outcome, kind]
      have removed := shows.remove sound used
      have later : Shows u (view.published front operation)
          ((disk.remove (Slot.path u.root (.payload front))).put operation.path (.file content)) := by
        rw [same]
        exact ⟨removed.1.put_outside sound member, by rw [viewOf_put_outside outside, removed.2]⟩
      have free : (disk.held operation.path == none || disk.isFile operation.path) = true := by
        rw [Disk.isFile]
        rcases loose_entry entry frozen.expected_ne_directory with empty | ⟨text, file⟩
        · rw [empty]
          rfl
        · rw [file]
          rfl
      have served : u.machine.serve
          (.replaceFile (Slot.path u.root (.payload front)) operation.path) disk =
          .ok ((), (disk.remove (Slot.path u.root (.payload front))).put operation.path
            (.file content)) := by
        show disk.replaceFile _ _ = _
        rw [Disk.replaceFile, (statePath_slot sound used).shape, shape,
          hasParent_slot sound used shows directory, parent, free, if_neg (by decide),
          shows.own (.payload front), whole]
        rfl
      have program : publishPersistedOperation (persisted u.root front operation) =
          replaceFile (Slot.path u.root (.payload front)) operation.path := by
        simp only [publishPersistedOperation, persisted, toPersistedManagedOperation, kind,
          Locks.Guard.persistedKind, stagedOf, Option.getD_some]
      rw [program]
      exact Ensures.perform (shows.upheld here) (fun _ partway => partway.elim) served
        (later.upheld there) later
  | deleteFile =>
      rw [kind] at exact whole
      simp only [Bool.and_eq_true, beq_iff_eq] at exact
      have same : view.published front operation = view.set operation.path none := by
        rw [View.published, payload_absent whole, outcome, kind]
      have later : Shows u (view.published front operation) (disk.remove operation.path) := by
        rw [same]
        exact ⟨shows.1.remove_outside sound member, by rw [viewOf_remove_outside outside, shows.2]⟩
      have file : disk.isFile operation.path = true := by
        cases expected : operation.expected with
        | missing | directory =>
            rw [expected] at exact
            cases exact.1
        | file size sha256 =>
            rw [expected] at entry
            obtain ⟨text, there⟩ := file_entry entry
            rw [Disk.isFile, there]
      have served : u.machine.serve (.removeFile operation.path) disk =
          .ok ((), disk.remove operation.path) := by
        show (if _ then _ else _) = _
        rw [shape, file]
        rfl
      have program : publishPersistedOperation (persisted u.root front operation) =
          removeFile operation.path := by
        simp only [publishPersistedOperation, persisted, toPersistedManagedOperation, kind,
          Locks.Guard.persistedKind]
      rw [program]
      exact Ensures.perform (shows.upheld here) (fun _ partway => partway.elim) served
        (later.upheld there) later

end Publishing

section Authority

theorem observes_destination (sound : u.Sound) (shows : Shows u view disk)
    (destinations : Destinations u front view) (held : u.plan[index]? = some operation) :
    Observes u.machine (observeFingerprint operation.path) disk
      (if index < front then operation.result else operation.expected) := by
  have entry := destinations.entry sound held
  rw [← shows.outside (outside_root (sound.outside (List.mem_of_getElem? held)))] at entry
  exact observes_fingerprint (shape_destination (sound.frozen held).destination) entry

theorem observes_payload {content : JsString} (sound : u.Sound) (shows : Shows u view disk)
    (held : u.plan[index]? = some operation) (kind : operation.kind = .writeFile content)
    (whole : view.own (.payload index) = payloadNode u index) :
    Observes u.machine (assertPayload (Slot.path u.root (.payload index)) operation.result) disk () := by
  have used : Slot.Used u (.payload index) := ⟨operation, content, held, kind⟩
  have published := outcome_entry (sound.frozen held)
  rw [payloadNode, held, Option.bind_some, kind] at whole
  rw [outcome, kind] at published
  have entry : Node.entry u.services.sha256 (disk.held (Slot.path u.root (.payload index))) =
      entryOf operation.result := by
    rw [shows.own (.payload index), whole]
    exact published
  refine (observes_fingerprint (statePath_slot sound used).shape entry).bind ?_
  rw [sameFingerprint_iff.mpr rfl, if_neg (by decide)]
  exact rfl

/-- The artifacts of an authority are destinations of the plan. -/
def Granted (u : Undertaking) (artifact : GuardedArtifact) : Prop :=
  ∃ operation ∈ u.plan, artifact = ⟨operation.path, operation.expected, operation.result⟩

theorem manifestAuthority_granted (sound : u.Sound) {authority : LeaseAuthority}
    (given : manifestAuthority (manifestOperations u.root u.plan) = some authority) :
    Granted u authority.1 ∧ Granted u authority.2 := by
  have granted : ∀ stored ∈ manifestOperations u.root u.plan,
      Granted u ⟨stored.path, stored.expected, stored.result⟩ := by
    intro stored member
    obtain ⟨index, operation, held, rfl⟩ := manifest_mem sound member
    exact ⟨operation, List.mem_of_getElem? held, rfl⟩
  unfold manifestAuthority at given
  split at given
  · rename_i events lease third rest planned
    split at given
    · cases given
    · obtain rfl := Option.some.inj given
      rw [planned] at granted
      exact ⟨granted events List.mem_cons_self, granted lease (List.mem_cons_of_mem _ List.mem_cons_self)⟩
  · cases given

private theorem observes_artifact {artifact : GuardedArtifact} (granted : Granted u artifact)
    (sound : u.Sound) (shows : Shows u view disk) (destinations : Destinations u front view) :
    Observes u.machine (assertArtifact artifact) disk () := by
  obtain ⟨operation, member, rfl⟩ := granted
  obtain ⟨index, held⟩ := List.mem_iff_getElem?.mp member
  refine (observes_destination sound shows destinations held).bind ?_
  have agree : (!sameFingerprint (if index < front then operation.result else operation.expected)
      operation.expected && !sameFingerprint (if index < front then operation.result else
        operation.expected) operation.result) = false := by
    split
    · rw [sameFingerprint_iff.mpr rfl, Bool.not_true, Bool.and_false]
    · rw [sameFingerprint_iff.mpr rfl, Bool.not_true, Bool.false_and]
  rw [agree]
  exact rfl

/-- Between two operations the authority of the plan's own lock artifacts is not in doubt. -/
theorem observes_authority {authority : Option LeaseAuthority}
    (granted : ∀ artifacts ∈ authority, Granted u artifacts.1 ∧ Granted u artifacts.2)
    (sound : u.Sound) (shows : Shows u view disk) (destinations : Destinations u front view) :
    Observes u.machine (assertLeaseAuthority authority) disk () := by
  cases authority with
  | none => exact rfl
  | some artifacts =>
      obtain ⟨first, second⟩ := granted artifacts rfl
      exact (observes_artifact first sound shows destinations).bind
        (observes_artifact second sound shows destinations)

end Authority

section Republishing

theorem Bound.rewritten (bound : Bound u front progress view)
    (written : Written progress.toTransactionProgress stored) :
    Bound u front stored (view.recorded stored) := by
  have same : progress.toTransactionProgress =
      goneOn progress.toTransactionProgress progress.phase progress.publishedOperationIds := rfl
  rw [same] at written
  refine bound.recorded written ?_
  obtain ⟨-, -, -, -, phase, published⟩ := written.members
  have stage := bound.stage
  unfold Stage at stage ⊢
  rw [phase, published]
  exact stage

/-- A transaction that is being published, recorded up to a count. -/
structure Publishing (u : Undertaking) (count front : Nat) (progress : TransactionProgressV1)
    (view : View) : Prop extends Bound u front progress view where
  phase : progress.phase = .publishing
  recorded : progress.publishedOperationIds = (operationIds u).take count
  behind : count ≤ front
  near : front ≤ count + 1
  bounded : front ≤ u.plan.length
  directory : view.own .staging = some .directory
  payloads : ∀ index, view.own (.payload index) = if index < front then none else payloadNode u index

theorem Bound.publishing (bound : Bound u front progress view) (phase : progress.phase = .publishing) :
    ∃ count, Publishing u count front progress view := by
  have stage := bound.stage
  unfold Stage at stage
  rw [phase] at stage
  obtain ⟨count, recorded, behind, near, bounded, directory, payloads⟩ := stage
  exact ⟨count, bound, phase, recorded, behind, near, bounded, directory, payloads⟩

variable {count : Nat}

theorem Publishing.published (publishing : Publishing u front front progress view) (sound : u.Sound)
    (held : u.plan[front]? = some operation) :
    Publishing u front (front + 1) progress (view.published front operation) := by
  have within := (List.getElem?_eq_some_iff.mp held).1
  have directory : (view.published front operation).own .staging = some .directory :=
    (View.own_published (by simp)).trans publishing.directory
  have payloads : ∀ index, (view.published front operation).own (.payload index) =
      if index < front + 1 then none else payloadNode u index := by
    intro index
    by_cases same : index = front
    · subst same
      rw [if_pos (Nat.lt_succ_self _)]
      exact View.own_put view
    · have apart : Slot.payload index ≠ Slot.payload front := fun equal => same (Slot.payload.inj equal)
      have before : index < front + 1 ↔ index < front := by omega
      simp only [before]
      exact (View.own_published apart).trans (publishing.payloads index)
  have bound : Bound u (front + 1) progress (view.published front operation) :=
    { held := (View.own_published (by simp)).trans publishing.held
      valid := publishing.valid
      identified := publishing.identified
      scratch := by
        rw [View.own_published (by simp)]
        exact publishing.scratch
      bound := publishing.bound
      token := publishing.token
      writable := publishing.writable
      manifest := (View.own_published (by simp)).trans publishing.manifest
      destinations := publishing.destinations.published sound held
      stage := by
        unfold Stage
        rw [publishing.phase]
        exact ⟨front, publishing.recorded, Nat.le_succ _, Nat.le_refl _, within, directory, payloads⟩ }
  exact ⟨bound, publishing.phase, publishing.recorded, Nat.le_succ _, Nat.le_refl _, within, directory,
    payloads⟩

theorem operationIds_take {next : ManagedOperation} (held : u.plan[count]? = some next) :
    (operationIds u).take count ++ [next.operationId] = (operationIds u).take (count + 1) := by
  rw [List.take_add_one, operationIds, List.getElem?_map, held]
  rfl

theorem Publishing.recordNext (publishing : Publishing u count (count + 1) progress view)
    {next : ManagedOperation} (held : u.plan[count]? = some next)
    (written : Written (goneOn progress.toTransactionProgress .publishing
      (progress.publishedOperationIds ++ [next.operationId])) stored) :
    Publishing u (count + 1) (count + 1) stored (view.recorded stored) := by
  obtain ⟨-, -, -, -, phase, published⟩ := written.members
  have recorded : stored.publishedOperationIds = (operationIds u).take (count + 1) := by
    rw [published, publishing.recorded, operationIds_take held]
  have stage : Stage u (count + 1) stored view := by
    unfold Stage
    rw [phase]
    exact ⟨count + 1, recorded, Nat.le_refl _, Nat.le_succ _, publishing.bounded, publishing.directory,
      publishing.payloads⟩
  exact ⟨publishing.toBound.recorded written stage, phase, recorded, Nat.le_refl _, Nat.le_succ _,
    publishing.bounded, (View.own_recorded (by decide) (by decide)).trans publishing.directory,
    fun index => (View.own_recorded (by simp) (by simp)).trans (publishing.payloads index)⟩

theorem Publishing.standing (publishing : Publishing u count front progress view) :
    Standing u true view := by
  have standing := publishing.toBound.standing
  rwa [publishing.phase] at standing

theorem Bound.digest_allowed (bound : Bound u front progress view) {phase : TransactionPhase}
    (other : phase ≠ .begun) : digestAtPhase phase progress.manifestDigest = true := by
  rw [bound.bound]
  cases phase with
  | begun => exact absurd rfl other
  | prepared | publishing | committed | aborted => rfl

/-- Once every operation is published and recorded the transaction may be committed. -/
theorem Publishing.committed (publishing : Publishing u count count progress view)
    (whole : count = u.plan.length)
    (written : Written (goneOn progress.toTransactionProgress .committed (operationIds u)) stored) :
    Bound u count stored (view.recorded stored) := by
  obtain ⟨-, -, -, -, ended, recorded⟩ := written.members
  refine publishing.toBound.recorded written ?_
  unfold Stage
  rw [ended]
  refine ⟨whole, recorded, .inl publishing.directory, fun index => ?_⟩
  rw [publishing.payloads index]
  split
  · rfl
  · rename_i beyond
    rw [payloadNode, List.getElem?_eq_none (by omega)]
    rfl

variable {memory : TransactionProgressV1}

/-- A bound transaction stays bound while it records the phase it goes on to. -/
theorem Bound.ensures_goOn {phase : TransactionPhase} {publishedOperationIds : List JsString}
    {directorySync : DirectorySync} {reached : Nat} (bound : Bound u front progress view) (sound : u.Sound)
    (shows : Shows u view disk) (known : Written progress.toTransactionProgress memory)
    (among : List.Sublist publishedOperationIds (operationIds u)) (other : phase ≠ .begun)
    (kept : publishes phase = publishes progress.phase)
    (onward : ∀ {stored}, Written (goneOn progress.toTransactionProgress phase publishedOperationIds) stored →
      Bound u reached stored (view.recorded stored)) :
    Ensures u.machine (Upheld u (Standing u (publishes progress.phase)))
      (fun next final => ∃ stored, Shows u (view.recorded stored) final ∧
        Bound u reached stored (view.recorded stored) ∧
          Written (goneOn progress.toTransactionProgress phase publishedOperationIds) stored ∧
            Written stored.toTransactionProgress next) failed
      (Driver.record memory phase publishedOperationIds directorySync) disk := by
  have owned : memory.transactionId = u.transactionId := by
    rw [known.same]
    exact bound.identified
  have digest : digestAtPhase phase memory.manifestDigest = true := by
    rw [show memory.manifestDigest = progress.manifestDigest by rw [known.same]]
    exact bound.digest_allowed other
  refine (Transactions.ensures_record sound shows known.valid owned
    (fun _ member => operationIds_valid sound (among.subset member)) (among.nodup (operationIds_nodup sound))
    digest bound.scratch (.inr ⟨_, bound.held⟩) (fun node loose => (bound.beside loose).standing)
    (fun stored written => ?_)).weaken ?_
  · rw [known.same] at written
    have standing := (onward written).standing
    rwa [written.members.2.2.2.2.1, kept] at standing
  · rintro next final ⟨again, stored, written, shown⟩
    have wrote : Written stored.toTransactionProgress next := ⟨again.same.trans written.same.symm, again.valid⟩
    rw [known.same] at written
    exact ⟨stored, shown, onward written, written, wrote⟩

theorem Publishing.ensures_record {directorySync : DirectorySync}
    (publishing : Publishing u count (count + 1) progress view) (sound : u.Sound)
    (shows : Shows u view disk) (known : Written progress.toTransactionProgress memory)
    {next : ManagedOperation} (held : u.plan[count]? = some next) :
    Ensures u.machine (Upheld u (Standing u true))
      (fun result final => ∃ stored last, Shows u last final ∧
        Publishing u (count + 1) (count + 1) stored last ∧
          stored.createdAt = progress.createdAt ∧ Written stored.toTransactionProgress result) failed
      (Driver.record memory memory.phase (memory.publishedOperationIds ++ [next.operationId])
        directorySync) disk := by
  have ids : progress.publishedOperationIds ++ [next.operationId] = (operationIds u).take (count + 1) := by
    rw [publishing.recorded, operationIds_take held]
  have among : List.Sublist (progress.publishedOperationIds ++ [next.operationId]) (operationIds u) := by
    rw [ids]
    exact List.take_sublist ..
  have phase := publishing.phase
  have recorded : Ensures u.machine (Upheld u (Standing u (publishes progress.phase))) _ failed
      (Driver.record memory .publishing (progress.publishedOperationIds ++ [next.operationId]) directorySync)
      disk := publishing.toBound.ensures_goOn sound shows known among (by decide) (by rw [phase])
        fun written => (publishing.recordNext held written).toBound
  rw [show memory.phase = .publishing by rw [known.same]; exact phase,
    show memory.publishedOperationIds = progress.publishedOperationIds by rw [known.same]]
  rw [phase] at recorded
  refine recorded.weaken ?_
  rintro result final ⟨stored, shown, -, written, wrote⟩
  exact ⟨stored, _, shown, publishing.recordNext held written, written.members.2.1, wrote⟩

theorem Publishing.ensures_republish {authority : Option LeaseAuthority}
    (publishing : Publishing u front front progress view) (sound : u.Sound)
    (shows : Shows u view disk) (known : Written progress.toTransactionProgress memory)
    (granted : ∀ artifacts ∈ authority, Granted u artifacts.1 ∧ Granted u artifacts.2)
    (held : u.plan[front]? = some operation) :
    Ensures u.machine (Upheld u (Standing u true))
      (fun result final => ∃ stored last, Shows u last final ∧
        Publishing u (front + 1) (front + 1) stored last ∧
          stored.createdAt = progress.createdAt ∧ Written stored.toTransactionProgress result) failed
      (republish authority memory (persisted u.root front operation)) disk := by
  have member := List.mem_of_getElem? held
  have frozen := sound.frozen held
  have published := publishing.published sound held
  have parent := parent_ready sound shows publishing.destinations held (Nat.le_refl _)
  have before := observes_destination sound shows publishing.destinations held
  rw [if_neg (Nat.lt_irrefl front)] at before
  have other : sameFingerprint operation.expected operation.result = false := by
    rw [Bool.eq_false_iff]
    exact fun same => frozen.changes (sameFingerprint_iff.mp same)
  have whole : view.own (.payload front) = payloadNode u front := by
    rw [publishing.payloads front, if_neg (Nat.lt_irrefl front)]
  -- Everything from the publication on, once the payload has been looked at.
  have publish : Ensures u.machine (Upheld u (Standing u true))
      (fun result final => ∃ stored last, Shows u last final ∧
        Publishing u (front + 1) (front + 1) stored last ∧
          stored.createdAt = progress.createdAt ∧ Written stored.toTransactionProgress result) failed
      (do
        assertLeaseAuthority authority
        publishPersistedOperation (persisted u.root front operation)
        let directorySync :=
          mergeDirectorySync memory.directorySync (← syncDirectory (parentOf operation.path))
        let result ← observeFingerprint operation.path
        if !sameFingerprint result operation.result then .fail (corrupt operation.path)
        else
          Driver.record memory memory.phase (memory.publishedOperationIds ++ [operation.operationId])
            directorySync) disk := by
    refine (observes_authority granted sound shows publishing.destinations).then ?_
    refine (ensures_publish sound shows publishing.destinations held whole publishing.directory
      publishing.standing published.standing).bind fun _ first done' => ?_
    have ready := parent_ready sound done' published.destinations held (Nat.le_succ _)
    refine (ensures_syncDirectory done' ready published.standing).bind fun observed second same => ?_
    have after := observes_destination sound same published.destinations held
    rw [if_pos (Nat.lt_succ_self front)] at after
    refine after.then ?_
    rw [sameFingerprint_iff.mpr rfl, if_neg (by decide)]
    exact published.ensures_record sound same known held
  have path : (persisted u.root front operation).path = operation.path := rfl
  have result : (persisted u.root front operation).result = operation.result := rfl
  have expected : (persisted u.root front operation).expected = operation.expected := rfl
  have named : (persisted u.root front operation).operationId = operation.operationId := rfl
  unfold republish
  rw [path, result, expected, named]
  refine (observes_directory parent).then ?_
  rw [if_neg (fun other => other rfl)]
  refine before.then ?_
  rw [other, if_neg (by decide), sameFingerprint_iff.mpr rfl, if_neg (by decide)]
  cases kind : operation.kind with
  | writeFile content =>
      have persistedKind : (persisted u.root front operation).kind = .writeFile := by
        simp only [persisted, toPersistedManagedOperation, kind, Locks.Guard.persistedKind]
      have staged : (persisted u.root front operation).stagedPath.getD [] =
          Slot.path u.root (.payload front) := by
        simp only [persisted, kind, stagedOf, Option.getD_some]
      rw [if_pos persistedKind, staged]
      exact (observes_payload sound shows held kind whole).then publish
  | createDirectory | deleteFile =>
      have persistedKind : (persisted u.root front operation).kind ≠ .writeFile := by
        simp only [persisted, toPersistedManagedOperation, kind, Locks.Guard.persistedKind]
        decide
      rw [if_neg persistedKind]
      exact publish

end Republishing

end Kratos.Transactions
