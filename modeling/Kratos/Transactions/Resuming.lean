/- source: composition/transactions.ts
   digest: What every step of a recovery keeps of where the transaction stands. -/

import Kratos.Transactions.Inspecting

set_option autoImplicit false

namespace Kratos.Transactions

open Foundation.Text Foundation.Crashes Durable Transactions.Driver

variable {u : Undertaking} {disk : Disk} {view later : View} {progress stored : TransactionProgressV1}
  {front : Nat} {decided : Bool}

section Keeping

theorem Destinations.of_outside (destinations : Destinations u front view)
    (same : later.outside = view.outside) : Destinations u front later :=
  ⟨fun path outside unplanned => by rw [same]; exact destinations.untouched path outside unplanned,
    fun index operation held => by rw [same]; exact destinations.reached index operation held⟩

theorem Recorded.beside (recorded : Recorded u progress view) {node : Option Node} (loose : Loose node) :
    Recorded u progress (view.put .next node) :=
  ⟨(View.own_put_of_ne view (by decide)).trans recorded.held, recorded.valid, recorded.identified,
    by rwa [View.own_put]⟩

theorem recorded_recorded (valid : validProgress stored = true)
    (identified : stored.transactionId = u.transactionId) : Recorded u stored (view.recorded stored) :=
  ⟨View.own_put _, valid, identified, by
    rw [View.recorded, View.own_put_of_ne _ (by decide), View.own_put]
    exact .inl rfl⟩

theorem View.own_recorded {slot : Slot} (apart : slot ≠ .progress) (other : slot ≠ .next) :
    (view.recorded stored).own slot = view.own slot := by
  rw [View.recorded, View.own_put_of_ne _ apart, View.own_put_of_ne _ other]

theorem Housing.congr (housing : Housing view) (staging : later.own .staging = view.own .staging)
    (payloads : ∀ index, later.own (.payload index) = view.own (.payload index)) : Housing later := by
  rcases housing with directory | ⟨missing, gone⟩
  · exact .inl (staging.trans directory)
  · exact .inr ⟨staging.trans missing, fun index => (payloads index).trans (gone index)⟩

theorem Housing.cleared (housing : Housing view) (cleared : Cleared view later) : Housing later := by
  rcases cleared.staging with same | gone
  · rcases housing with directory | ⟨missing, gone⟩
    · exact .inl (same.trans directory)
    · exact .inr ⟨same.trans missing, fun index => cleared.gone (gone index)⟩
  · exact .inr gone

theorem Loose.put {slot other : Slot} {node : Option Node} (loose : Loose (view.own other))
    (put : other = slot → Loose node) : Loose ((view.put slot node).own other) := by
  by_cases same : other = slot
  · subst same
    rw [View.own_put]
    exact put rfl
  · rwa [View.own_put_of_ne view same]

/-- What a slot may come to hold while there is no manifest that is bound. -/
def Slot.Allows (view : View) : Slot → Option Node → Prop
  | .progress, _ => False
  | .next, node | .manifest, node => Loose node
  | .staging, node => node = some .directory
  | .payload _, node => Loose node ∧ view.own .staging = some .directory

theorem Unbound.put (unbound : Unbound u progress view) {slot : Slot} {node : Option Node}
    (allowed : slot.Allows view node) : Unbound u progress (view.put slot node) :=
  { unbound with
    held := (View.own_put_of_ne view fun same => by subst same; exact allowed).trans unbound.held
    scratch := unbound.scratch.put fun same => by subst same; exact allowed
    manifest := unbound.manifest.put fun same => by subst same; exact allowed
    housing := by
      cases slot with
      | progress => exact allowed.elim
      | staging => exact .inl ((View.own_put view).trans allowed)
      | payload index => exact .inl ((View.own_put_of_ne view (by simp)).trans allowed.2)
      | next | manifest =>
          exact unbound.housing.congr (View.own_put_of_ne view (by decide)) fun _ =>
            View.own_put_of_ne view (by simp)
    payloads := fun index => (unbound.payloads index).put fun same => by subst same; exact allowed.1
    destinations := unbound.destinations.of_outside rfl }

theorem Unbound.beside (unbound : Unbound u progress view) {node : Option Node} (loose : Loose node) :
    Unbound u progress (view.put .next node) := unbound.put loose

/-- A progress without a manifest is recorded anew, as it is or as aborted. -/
theorem Unbound.recorded (unbound : Unbound u progress view) {phase : TransactionPhase}
    (early : phase = .begun ∨ phase = .aborted)
    (written : Written (goneOn progress.toTransactionProgress phase []) stored) :
    Unbound u stored (view.recorded stored) := by
  obtain ⟨identified, created, digest, token, phased, published⟩ := written.members
  exact
    { recorded_recorded written.valid (identified.trans unbound.identified) with
      unbound := digest.trans unbound.unbound
      token := by rw [token, created, unbound.token]
      early := by rwa [phased]
      published := published
      manifest := by
        rw [View.own_recorded (by decide) (by decide)]
        exact unbound.manifest
      housing := unbound.housing.congr (View.own_recorded (by decide) (by decide)) fun _ =>
        View.own_recorded (by simp) (by simp)
      payloads := fun index => by
        rw [View.own_recorded (by simp) (by simp)]
        exact unbound.payloads index
      destinations := unbound.destinations.of_outside rfl }

theorem Unbound.cleared (unbound : Unbound u progress view) (cleared : Cleared view later) :
    Unbound u progress later :=
  { held := cleared.progress.trans unbound.held
    valid := unbound.valid
    identified := unbound.identified
    scratch := cleared.loose unbound.scratch
    unbound := unbound.unbound
    token := unbound.token
    early := unbound.early
    published := unbound.published
    manifest := by
      rw [cleared.manifest]
      exact unbound.manifest
    housing := unbound.housing.cleared cleared
    payloads := fun index => cleared.loose (unbound.payloads index)
    destinations := unbound.destinations.of_outside cleared.outside }

theorem Unbound.removeManifest (unbound : Unbound u progress view) :
    Unbound u progress (view.put .manifest none) := unbound.put (.inl rfl)

theorem Stage.congr (stage : Stage u front progress view)
    (staging : later.own .staging = view.own .staging)
    (payloads : ∀ index, later.own (.payload index) = view.own (.payload index)) :
    Stage u front progress later := by
  unfold Stage at stage ⊢
  split at stage
  · exact stage
  · obtain ⟨start, none, directory, whole⟩ := stage
    exact ⟨start, none, staging.trans directory, fun index => (payloads index).trans (whole index)⟩
  · obtain ⟨count, recorded, behind, near, bounded, directory, left⟩ := stage
    exact ⟨count, recorded, behind, near, bounded, staging.trans directory, fun index =>
      (payloads index).trans (left index)⟩
  · obtain ⟨ended, recorded, housing, gone⟩ := stage
    exact ⟨ended, recorded, housing.congr staging payloads, fun index =>
      (payloads index).trans (gone index)⟩
  · obtain ⟨start, none, housing, left⟩ := stage
    exact ⟨start, none, housing.congr staging payloads, fun index => by
      rw [payloads index]
      exact left index⟩

theorem Bound.beside (bound : Bound u front progress view) {node : Option Node} (loose : Loose node) :
    Bound u front progress (view.put .next node) :=
  { bound.toRecorded.beside loose with
    bound := bound.bound
    token := bound.token
    writable := bound.writable
    manifest := (View.own_put_of_ne view (by decide)).trans bound.manifest
    destinations := bound.destinations.of_outside rfl
    stage := bound.stage.congr (View.own_put_of_ne view (by decide)) fun _ =>
      View.own_put_of_ne view (by simp) }

theorem Bound.recorded (bound : Bound u front progress view) {phase : TransactionPhase}
    {publishedOperationIds : List JsString}
    (written : Written (goneOn progress.toTransactionProgress phase publishedOperationIds) stored)
    (stage : Stage u front stored view) : Bound u front stored (view.recorded stored) := by
  obtain ⟨identified, created, digest, token, -, -⟩ := written.members
  exact
    { recorded_recorded written.valid (identified.trans bound.identified) with
      bound := by rw [digest, created, bound.bound]
      token := by rw [token, created, bound.token]
      writable := by
        rw [created]
        exact bound.writable
      manifest := by
        rw [View.own_recorded (by decide) (by decide), created]
        exact bound.manifest
      destinations := bound.destinations.of_outside rfl
      stage := stage.congr (View.own_recorded (by decide) (by decide)) fun _ =>
        View.own_recorded (by simp) (by simp) }

theorem Bound.cleared (bound : Bound u front progress view) (cleared : Cleared view later)
    (ended : progress.phase = .committed ∨ progress.phase = .aborted) : Bound u front progress later :=
  { held := cleared.progress.trans bound.held
    valid := bound.valid
    identified := bound.identified
    scratch := cleared.loose bound.scratch
    bound := bound.bound
    token := bound.token
    writable := bound.writable
    manifest := cleared.manifest.trans bound.manifest
    destinations := bound.destinations.of_outside cleared.outside
    stage := by
      have stage := bound.stage
      unfold Stage at stage ⊢
      rcases ended with phase | phase
      · rw [phase] at stage ⊢
        obtain ⟨whole, recorded, housing, gone⟩ := stage
        exact ⟨whole, recorded, housing.cleared cleared, fun index => cleared.gone (gone index)⟩
      · rw [phase] at stage ⊢
        obtain ⟨start, none, housing, left⟩ := stage
        refine ⟨start, none, housing.cleared cleared, fun index => ?_⟩
        rcases cleared.rest (.payload index) with same | none
        · rw [same]
          exact left index
        · exact .inl none }

theorem Unbound.standing (unbound : Unbound u progress view) : Standing u false view :=
  ⟨progress, .inl ⟨rfl, unbound⟩⟩

theorem Bound.standing (bound : Bound u front progress view) :
    Standing u (publishes progress.phase) view :=
  ⟨progress, .inr ⟨front, rfl, bound⟩⟩

end Keeping

section Unbound

variable {claim : View → Prop} {failed : DriverFailure → Disk → Prop}

/-- The payloads that are there, each once. -/
private structure Unremoved (u : Undertaking) (view : View) (paths : List JsString) : Prop where
  distinct : paths.Nodup
  files : ∀ path ∈ paths, ∃ index, path = Slot.path u.root (.payload index) ∧
    Slot.Used u (.payload index) ∧ ∃ text, view.own (.payload index) = some (.file text)
  every : ∀ index, view.own (.payload index) = none ∨ Slot.path u.root (.payload index) ∈ paths

private theorem observes_unboundPayloads (sound : u.Sound) (shows : Shows u view disk)
    (payloads : ∀ index, Loose (view.own (.payload index)))
    (directory : view.own .staging = some .directory) :
    ∃ paths, Unremoved u view paths ∧ Observes u.machine (do
      (← Driver.list (stagingRoot u.root)).mapM (unboundPayload (stagingRoot u.root))) disk paths := by
  have used : Slot.Used u .staging := trivial
  have listed : Observes u.machine (Driver.list (stagingRoot u.root)) disk _ :=
    observes_list (statePath_slot sound used).shape ((shows.own .staging).trans directory)
  have named : ∀ name ∈ disk.entries u.services.localeCompare (stagingRoot u.root),
      ∃ index, name = payloadName index ∧ Slot.Used u (.payload index) ∧
        ∃ text, view.own (.payload index) = some (.file text) := by
    intro name member
    obtain ⟨single, present⟩ := Disk.mem_entries_iff.mp member
    obtain ⟨index, operation, content, held, kind, rfl⟩ := shows.1.payloads name single present
    have there : view.own (.payload index) ≠ none := by
      rw [← shows.own (.payload index)]
      exact present
    exact ⟨index, rfl, ⟨operation, content, held, kind⟩, (payloads index).resolve_left there⟩
  let place : JsString → JsString := fun name => stagingRoot u.root ++ (js "/" ++ name)
  have each : ∀ name ∈ disk.entries u.services.localeCompare (stagingRoot u.root),
      Observes u.machine (unboundPayload (stagingRoot u.root) name) disk (place name) := by
    intro name member
    obtain ⟨index, rfl, planned, text, file⟩ := named name member
    have pattern : payloadNamePattern (payloadName index) = true := by
      obtain ⟨operation, content, held, -⟩ := planned
      exact payloadNamePattern_payload (sound.index_lt held)
    unfold unboundPayload
    rw [pattern, if_neg (by decide)]
    have inspected : Observes u.machine (inspect (Slot.path u.root (.payload index))) disk _ :=
      observes_slot sound planned shows
    refine inspected.bind ?_
    rw [file]
    exact rfl
  refine ⟨_, ⟨?_, ?_, fun index => ?_⟩, listed.bind (Observes.mapM each)⟩
  · exact Disk.nodup_entries.map fun _ _ same =>
      List.append_cancel_left (List.append_cancel_left same)
  · intro path member
    obtain ⟨name, inside, rfl⟩ := List.mem_map.mp member
    obtain ⟨index, rfl, used, file⟩ := named name inside
    exact ⟨index, rfl, used, file⟩
  · by_cases empty : view.own (.payload index) = none
    · exact .inl empty
    · refine .inr (List.mem_map.mpr ⟨payloadName index, Disk.mem_entries_iff.mpr ?_, rfl⟩)
      exact ⟨noSlash_payload index, fun none => empty ((shows.own (.payload index)).symm.trans none)⟩

private theorem ensures_removeUnbound {paths : List JsString} (sound : u.Sound)
    (shows : Shows u view disk) (unremoved : Unremoved u view paths)
    (cleared : ∀ later, Cleared view later → claim later) :
    Ensures u.machine (Upheld u claim)
      (fun _ final => ∃ later, Shows u later final ∧ Cleared view later ∧
        later.own .staging = view.own .staging ∧ ∀ index, later.own (.payload index) = none) failed
      (paths.forM removeFile) disk := by
  refine (Ensures.forM (fun rest state => ∃ later, Shows u later state ∧ Cleared view later ∧
    later.own .staging = view.own .staging ∧ Unremoved u later rest) ?_ ?_
      ⟨view, shows, .refl view, rfl, unremoved⟩).weaken ?_
  · rintro state ⟨later, shown, kept, -⟩
    exact shown.upheld (cleared later kept)
  · rintro path rest state ⟨later, shown, kept, staging, left⟩
    obtain ⟨index, rfl, used, text, file⟩ := left.files path List.mem_cons_self
    obtain ⟨fresh, distinct⟩ := List.nodup_cons.mp left.distinct
    have removed := kept.removePayload index
    refine (ensures_removeFile sound used shown file (cleared later kept)
      (cleared _ removed)).weaken fun _ final ended => ?_
    refine ⟨_, ended, removed, (View.own_put_of_ne later (by simp)).trans staging, distinct,
      fun path member => ?_, fun other => ?_⟩
    · obtain ⟨other, rfl, usedOther, text, there⟩ := left.files path (List.mem_cons_of_mem _ member)
      refine ⟨other, rfl, usedOther, text, ?_⟩
      rw [View.own_put_of_ne later]
      · exact there
      · rintro same
        rw [same] at member
        exact fresh member
    · by_cases same : other = index
      · subst same
        exact .inl (View.own_put later)
      · have apart : Slot.payload other ≠ Slot.payload index := fun equal => same (Slot.payload.inj equal)
        rw [View.own_put_of_ne later apart]
        refine (left.every other).imp_right fun member => ?_
        exact (List.mem_cons.mp member).resolve_left fun equal => apart (Slot.path_injective equal)
  · rintro _ final ⟨later, shown, kept, staging, left⟩
    exact ⟨later, shown, kept, staging, fun index => (left.every index).resolve_right List.not_mem_nil⟩

/-- What a recovered transaction comes to: its receipt, its last record and its destinations. -/
structure Settled (u : Undertaking) (decided : Bool) (receipt : TransactionReceipt) (view : View) :
    Prop where
  standing : Standing u decided view
  tidy : Tidy view
  destinations : Destinations u (if decided then u.plan.length else 0) view
  phase : receipt.phase = if decided then .committed else .aborted
  recorded : ∃ progress, Recorded u progress view ∧ progress.phase = receipt.phase ∧
    receipt.transactionId = progress.transactionId ∧
      receipt.manifestDigest = progress.manifestDigest ∧ receipt.recoveryToken = progress.recoveryToken

/-- What a recovery comes to, by what was decided. -/
abbrev Recovered (u : Undertaking) (decided : Bool) (receipt : TransactionReceipt) (final : Disk) : Prop :=
  ∃ last, Shows u last final ∧ Settled u decided receipt last

/-- The transaction is brought to the end that is decided, and stands wherever that is cut. -/
abbrev Finishes (u : Undertaking) (failed : DriverFailure → Disk → Prop) (decided : Bool)
    (program : Driver TransactionReceipt) (disk : Disk) : Prop :=
  Ensures u.machine (Upheld u (Standing u decided)) (Recovered u decided) failed program disk

theorem receiptFromProgress_done (ended : progress.phase = .committed ∨ progress.phase = .aborted) :
    receiptFromProgress progress = .done ⟨progress.transactionId, progress.manifestDigest,
      progress.recoveryToken, progress.phase, progress.directorySync⟩ := by
  refine if_neg fun open' => ?_
  rcases ended with committed | aborted
  · exact open'.1 committed
  · exact open'.2 aborted

private theorem ensures_removeScratch (sound : u.Sound) (shows : Shows u view disk)
    (loose : Loose (view.own .next)) (here : claim view) (there : claim (view.put .next none))
    {α : Type} {after : α → Disk → Prop} {rest : Driver α}
    (ensured : ∀ final, Shows u (view.put .next none) final →
      Ensures u.machine (Upheld u claim) after failed rest final) :
    Ensures u.machine (Upheld u claim) after failed (do
      let leftover ← inspect (nextPath u.root)
      if isFileEntry leftover then removeFile (nextPath u.root)
      rest) disk := by
  have used : Slot.Used u .next := trivial
  refine (observes_next sound shows).then ?_
  rcases loose with empty | ⟨text, file⟩
  · have same : view.put .next none = view := by
      rw [← empty, View.put_own]
    rw [empty]
    rw [same] at ensured
    exact ensured disk shows
  · rw [file]
    have removed : Ensures u.machine (Upheld u claim) _ failed (removeFile (nextPath u.root)) disk :=
      ensures_removeFile sound used shows file here there
    exact removed.bind fun _ final empty => ensured final empty

theorem Tidy.recorded (tidy : Tidy view) : Tidy (view.recorded stored) where
  next := by
    rw [View.recorded, View.own_put_of_ne _ (by decide), View.own_put]
  staging := (View.own_recorded (by decide) (by decide)).trans tidy.staging
  payloads index := (View.own_recorded (by simp) (by simp)).trans (tidy.payloads index)

theorem Unbound.rewritten (unbound : Unbound u progress view)
    (written : Written progress.toTransactionProgress stored) :
    Unbound u stored (view.recorded stored) := by
  have same : progress.toTransactionProgress =
      goneOn progress.toTransactionProgress progress.phase [] := by
    rw [goneOn, ← unbound.published]
  rw [same] at written
  exact unbound.recorded unbound.early written

private theorem Unbound.settled {memory : TransactionProgressV1} (unbound : Unbound u progress view)
    (aborted : progress.phase = .aborted) (tidy : Tidy view)
    (written : Written progress.toTransactionProgress memory) :
    ∃ receipt, receiptFromProgress memory = .done receipt ∧ Settled u false receipt view := by
  have ended : memory.phase = .aborted := by
    rw [written.same]
    exact aborted
  refine ⟨_, receiptFromProgress_done (.inr ended), ?_⟩
  exact
    { standing := unbound.standing
      tidy := tidy
      destinations := unbound.destinations
      phase := ended
      recorded := ⟨progress, unbound.toRecorded, aborted.trans ended.symm, by rw [written.same],
        by rw [written.same], by rw [written.same]⟩ }

private theorem ensures_finishWithoutManifest {memory : TransactionProgressV1} (sound : u.Sound)
    (unbound : Unbound u progress view) (aborted : progress.phase = .aborted) (shows : Shows u view disk)
    (bare : view.own .staging = none) (gone : ∀ index, view.own (.payload index) = none)
    (written : Written progress.toTransactionProgress memory) :
    Finishes u failed false (finishWithoutManifest u.root memory) disk := by
  have used : Slot.Used u .manifest := trivial
  have clean := unbound.beside (.inl rfl)
  have last := clean.removeManifest
  have owned : memory.transactionId = u.transactionId := by
    rw [written.same]
    exact unbound.identified
  have tidy : Tidy ((view.put .next none).put .manifest none) :=
    { next := (View.own_put_of_ne _ (by decide)).trans (View.own_put view)
      staging := by
        rw [View.own_put_of_ne _ (by decide), View.own_put_of_ne _ (by decide)]
        exact bare
      payloads := fun index => by
        rw [View.own_put_of_ne _ (by simp), View.own_put_of_ne _ (by simp)]
        exact gone index }
  have removed : ∀ {state}, Shows u (view.put .next none) state → Ensures u.machine
      (Upheld u (Standing u false)) _ failed (removeLeftover (manifestPath u.root)) state := fun shown =>
    ensures_removeLeftover sound used shown clean.manifest clean.standing last.standing
  unfold finishWithoutManifest
  refine ensures_removeScratch sound shows unbound.scratch unbound.standing clean.standing
    fun first shown => (removed shown).bind fun _ second lone => ?_
  have directory := isDirectory_of (statePath_root sound).shape lone.1.root
  refine (ensures_syncDirectory lone directory last.standing).bind fun observed third same => ?_
  refine (ensures_persistTerminalDirectorySync sound same written.valid owned last.scratch
    (.inr ⟨_, last.held⟩) (fun node loose => (last.beside loose).standing)
    (fun stored again => (last.rewritten (written.same ▸ again)).standing)).bind
      fun next final ⟨again, ended⟩ => ?_
  rw [written.same] at again ended
  rcases ended with shown | ⟨stored, wrote, shown⟩
  · obtain ⟨receipt, answer, settled⟩ := last.settled aborted tidy again
    rw [answer]
    exact ⟨shown.upheld last.standing, _, shown, settled⟩
  · have anew := last.rewritten wrote
    have phase : stored.phase = .aborted := by
      rw [wrote.same]
      exact aborted
    rw [← wrote.same] at again
    obtain ⟨receipt, answer, settled⟩ := anew.settled phase tidy.recorded again
    rw [answer]
    exact ⟨shown.upheld anew.standing, _, shown, settled⟩

/-- Once the record says aborted, the payloads, the scratch file and the manifest go. -/
private theorem ensures_clearWithoutManifest {memory : TransactionProgressV1} {paths : List JsString}
    (sound : u.Sound) (unbound : Unbound u progress view) (aborted : progress.phase = .aborted)
    (shows : Shows u view disk) (unremoved : Unremoved u view paths)
    (written : Written progress.toTransactionProgress memory) :
    Finishes u failed false
      (clearWithoutManifest u.root (Node.entry u.services.sha256 (view.own .staging)) paths memory) disk := by
  unfold clearWithoutManifest
  refine (ensures_removeUnbound sound shows unremoved fun later kept =>
    (unbound.cleared kept).standing).bind fun _ first ⟨later, shown, kept, same, gone⟩ => ?_
  have here := unbound.cleared kept
  rcases unbound.housing with directory | ⟨missing, -⟩
  · rw [directory]
    have bare := unbound.cleared (kept.removeStaging gone)
    have removed : Ensures u.machine (Upheld u (Standing u false)) _ failed
        (removeEmptyDirectory (stagingRoot u.root)) first :=
      ensures_removeStaging sound shown (same.trans directory) gone here.standing bare.standing
    exact removed.bind fun _ second shown => ensures_finishWithoutManifest sound bare aborted shown
      (View.own_put later) (fun index => (View.own_put_of_ne later (by simp)).trans (gone index)) written
  · rw [missing]
    exact ensures_finishWithoutManifest sound here aborted shown (same.trans missing) gone written

private theorem ensures_abortWithoutManifest {paths : List JsString} (unbound : Unbound u progress view)
    (sound : u.Sound) (shows : Shows u view disk) (unremoved : Unremoved u view paths) :
    Finishes u failed false
      (abortWithoutManifest u.root progress (Node.entry u.services.sha256 (view.own .staging)) paths) disk := by
  have next : Slot.Used u .next := trivial
  have free : (!isFileEntry (Node.entry u.services.sha256 (view.own .next)) &&
      Node.entry u.services.sha256 (view.own .next) != .missing) = false := by
    rcases unbound.scratch with empty | ⟨text, file⟩
    · rw [empty]
      rfl
    · rw [file]
      rfl
  unfold abortWithoutManifest
  refine (observes_next sound shows).then ?_
  rw [free, if_neg Bool.false_ne_true]
  rcases unbound.early with begun | aborted
  · rw [if_pos begun]
    refine (ensures_record sound shows unbound.valid unbound.identified
      (fun _ member => absurd member List.not_mem_nil) List.nodup_nil rfl unbound.scratch
      (.inr ⟨_, unbound.held⟩) (fun node loose => (unbound.beside loose).standing)
      (fun stored wrote => (unbound.recorded (.inr rfl) wrote).standing)).bind
        fun memory final ⟨again, stored, wrote, shown⟩ => ?_
    have payload : ∀ index, (view.recorded stored).own (.payload index) = view.own (.payload index) :=
      fun index => View.own_recorded (by simp) (by simp)
    have left : Unremoved u (view.recorded stored) paths :=
      ⟨unremoved.distinct, fun path member => by
        obtain ⟨index, same, used, text, file⟩ := unremoved.files path member
        exact ⟨index, same, used, text, (payload index).trans file⟩, fun index => by
        rw [payload]
        exact unremoved.every index⟩
    have staged : (view.recorded stored).own .staging = view.own .staging :=
      View.own_recorded (by decide) (by decide)
    rw [← staged]
    exact ensures_clearWithoutManifest sound (unbound.recorded (.inr rfl) wrote)
      wrote.members.2.2.2.2.1 shown left ⟨again.same.trans wrote.same.symm, again.valid⟩
  · have other : progress.phase ≠ .begun := by
      rw [aborted]
      decide
    rw [if_neg other]
    exact ensures_clearWithoutManifest sound unbound aborted shows unremoved ⟨rfl, unbound.valid⟩

/-- Recovery without a manifest ends with nothing left of the transaction but its aborted record. -/
theorem Unbound.ensures_recoverWithoutManifest (unbound : Unbound u progress view) (sound : u.Sound)
    (shows : Shows u view disk) :
    Finishes u failed false (recoverWithoutManifest progress) disk := by
  unfold recoverWithoutManifest
  rw [unbound.identified]
  refine (observes_staging sound shows).then ?_
  rcases unbound.housing with directory | ⟨missing, gone⟩
  · obtain ⟨paths, unremoved, listed⟩ :=
      observes_unboundPayloads sound shows unbound.payloads directory
    have ensured : Ensures _ _ _ failed (_ >>= abortWithoutManifest u.root progress _) disk :=
      listed.then (ensures_abortWithoutManifest unbound sound shows unremoved)
    rw [directory] at ensured ⊢
    exact ensured
  · have none : Unremoved u view [] :=
      ⟨List.nodup_nil, fun _ member => absurd member List.not_mem_nil, fun index => .inl (gone index)⟩
    have ensured : Ensures _ _ _ failed _ _ := ensures_abortWithoutManifest unbound sound shows none
    rw [missing] at ensured ⊢
    exact ensured

end Unbound

end Kratos.Transactions
