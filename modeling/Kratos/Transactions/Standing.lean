/- source: composition/transactions.ts, domain/transactions/recovery.ts
   digest: Where a transaction may stand between two durable calls, and what recovery observes there. -/

import Kratos.Transactions.Decided
import Kratos.Transactions.Layout

set_option autoImplicit false

namespace Kratos.Transactions

open Foundation.Text Foundation.Collections Foundation.Crashes
open Foundation.Paths (CaseMapping)
open Patterns Durable Locks.Guard Transactions.Driver

section Places

variable (u : Undertaking)

def Loose (node : Option Node) : Prop := node = none ∨ ∃ text, node = some (.file text)

/-- The payload of the operation at an index, before it is published. -/
def payloadNode (index : Nat) : Option Node :=
  (u.plan[index]?).bind fun operation =>
    match operation.kind with
    | .writeFile content => some (.file content)
    | .createDirectory | .deleteFile => none

/-- The operations before the front are done, the others are not begun, and nothing else changed. -/
structure Destinations (front : Nat) (view : View) : Prop where
  untouched : ∀ path, Storage.within u.root path = false →
    (∀ operation ∈ u.plan, operation.path ≠ path) → view.outside path = u.start.held path
  reached : ∀ index operation, u.plan[index]? = some operation →
    view.outside operation.path =
      if index < front then outcome operation else u.start.held operation.path

/-- The progress that is recorded, with a scratch file beside it or none. -/
structure Recorded (progress : TransactionProgressV1) (view : View) : Prop where
  held : view.own .progress = some (.file (progressDocument.text progress))
  valid : validProgress progress = true
  identified : progress.transactionId = u.transactionId
  scratch : Loose (view.own .next)

/-- The payloads are in their directory, or there are none left. -/
def Housing (view : View) : Prop :=
  view.own .staging = some .directory ∨
    view.own .staging = none ∧ ∀ index, view.own (.payload index) = none

/-- Before a manifest is bound nothing is published. -/
structure Unbound (progress : TransactionProgressV1) (view : View) : Prop
    extends Recorded u progress view where
  unbound : progress.manifestDigest = none
  token : progress.recoveryToken = identityToken u.services u.transactionId progress.createdAt
  early : progress.phase = .begun ∨ progress.phase = .aborted
  published : progress.publishedOperationIds = []
  manifest : Loose (view.own .manifest)
  housing : Housing view
  payloads : ∀ index, Loose (view.own (.payload index))
  destinations : Destinations u 0 view

def operationIds : List JsString := u.plan.map fun operation => operation.operationId

def manifestOf (createdAt : JsString) : TransactionManifestV1 where
  transactionId := u.transactionId
  createdAt := createdAt
  operations := manifestOperations u.root u.plan
  planDigest := u.services.sha256 (operationsText (u.plan.map toPersistedManagedOperation))

/-- How far each phase has come: what is recorded, and which payloads are left. -/
def Stage (front : Nat) (progress : TransactionProgressV1) (view : View) : Prop :=
  match progress.phase with
  | .begun => False
  | .prepared => front = 0 ∧ progress.publishedOperationIds = [] ∧
      view.own .staging = some .directory ∧ ∀ index, view.own (.payload index) = payloadNode u index
  | .publishing => ∃ count, progress.publishedOperationIds = (operationIds u).take count ∧
      count ≤ front ∧ front ≤ count + 1 ∧ front ≤ u.plan.length ∧
      view.own .staging = some .directory ∧
      ∀ index, view.own (.payload index) = if index < front then none else payloadNode u index
  | .committed => front = u.plan.length ∧ progress.publishedOperationIds = operationIds u ∧
      Housing view ∧ ∀ index, view.own (.payload index) = none
  | .aborted => front = 0 ∧ progress.publishedOperationIds = [] ∧ Housing view ∧
      ∀ index, view.own (.payload index) = none ∨ view.own (.payload index) = payloadNode u index

/-- A transaction with a manifest its progress is bound to. -/
structure Bound (front : Nat) (progress : TransactionProgressV1) (view : View) : Prop
    extends Recorded u progress view where
  bound : progress.manifestDigest =
    some (manifestDigestOf u.services (manifestOf u progress.createdAt))
  token : progress.recoveryToken = manifestDigestOf u.services (manifestOf u progress.createdAt)
  writable : validManifest (manifestOf u progress.createdAt) = true
  manifest : view.own .manifest =
    some (.file (manifestDocument.text (manifestOf u progress.createdAt)))
  destinations : Destinations u front view
  stage : Stage u front progress view

def publishes (phase : TransactionPhase) : Bool :=
  phase == .publishing || phase == .committed

/-- The places a transaction may be recovered from, by whether its publication is decided. -/
def Standing (decided : Bool) (view : View) : Prop :=
  ∃ progress, (decided = false ∧ Unbound u progress view) ∨
    ∃ front, decided = publishes progress.phase ∧ Bound u front progress view

end Places

section Plans

variable {u : Undertaking} {operation : ManagedOperation} {index : Nat} {createdAt : JsString}

theorem Undertaking.Sound.at_index (sound : u.Sound) (member : operation ∈ u.plan) :
    ∃ index, u.plan[index]? = some operation ∧ index < 9999 ∧
      Frozen u.services.lower u.services.sha256 index operation := by
  obtain ⟨index, held⟩ := List.mem_iff_getElem?.mp member
  exact ⟨index, held, sound.index_lt held, sound.frozen held⟩

theorem operationIds_eq (sound : u.Sound) :
    operationIds u = (List.range u.plan.length).map operationIdAt := by
  apply List.ext_getElem?
  intro index
  rw [operationIds, List.getElem?_map, List.getElem?_map]
  cases held : u.plan[index]? with
  | none =>
      have beyond := List.getElem?_eq_none_iff.mp held
      rw [List.getElem?_eq_none (by simpa using beyond)]
      rfl
  | some operation =>
      have within := (List.getElem?_eq_some_iff.mp held).1
      rw [List.getElem?_range within, Option.map_some, Option.map_some, (sound.frozen held).named]

theorem operationIds_nodup (sound : u.Sound) : (operationIds u).Nodup := by
  rw [operationIds_eq sound]
  exact List.nodup_range.map fun _ _ same => operationIdAt_injective same

theorem operationIds_valid (sound : u.Sound) {operationId : JsString}
    (member : operationId ∈ operationIds u) : idPattern operationId = true := by
  rw [operationIds_eq sound] at member
  obtain ⟨index, within, rfl⟩ := List.mem_map.mp member
  have few := sound.few
  have small := List.mem_range.mp within
  exact idPattern_operationIdAt (by omega)

theorem paths_nodup (sound : u.Sound) : (u.plan.map fun operation => operation.path).Nodup :=
  (freezeManagedPlan_ok sound.accepted).2.2

theorem index_of_path (sound : u.Sound) {other : ManagedOperation} {another : Nat}
    (held : u.plan[index]? = some operation) (there : u.plan[another]? = some other)
    (same : operation.path = other.path) : index = another := by
  have within : index < (u.plan.map fun operation => operation.path).length := by
    simpa using (List.getElem?_eq_some_iff.mp held).1
  refine (List.getElem?_inj within (paths_nodup sound)).mp ?_
  rw [List.getElem?_map, List.getElem?_map, held, there, Option.map_some, Option.map_some, same]

theorem manifest_getElem? (index : Nat) :
    (manifestOperations u.root u.plan)[index]? = (u.plan[index]?).map fun operation =>
      { toPersistedManagedOperation operation with
        stagedPath := operation.stagedPath.map fun staged => u.root ++ js "/" ++ staged } := by
  rw [manifestOperations, List.getElem?_map]
  rfl

/-- Where the payload of an operation is staged. -/
def stagedOf (root : JsString) (index : Nat) (kind : ManagedKind) : Option JsString :=
  match kind with
  | .writeFile _ => some (Slot.path root (.payload index))
  | .createDirectory | .deleteFile => none

theorem staged_slot (sound : u.Sound) (held : u.plan[index]? = some operation) :
    (operation.stagedPath.map fun staged => u.root ++ js "/" ++ staged) =
      stagedOf u.root index operation.kind := by
  rw [(sound.frozen held).staged]
  cases operation.kind with
  | writeFile content =>
      have slash : js "staging/" = js "staging" ++ js "/" := by decide
      simp only [stagedPathAt, Option.map_some, stagedOf, Slot.path, stagingRoot, payloadName, slash,
        List.append_assoc]
  | createDirectory | deleteFile => rfl

/-- The operation a manifest keeps of a planned one. -/
def persisted (root : JsString) (index : Nat) (operation : ManagedOperation) : PersistedOperation :=
  { toPersistedManagedOperation operation with stagedPath := stagedOf root index operation.kind }

theorem manifest_at (sound : u.Sound) (index : Nat) :
    (manifestOperations u.root u.plan)[index]? = (u.plan[index]?).map (persisted u.root index) := by
  rw [manifest_getElem?]
  cases held : u.plan[index]? with
  | none => rfl
  | some operation =>
      rw [Option.map_some, Option.map_some, staged_slot sound held]
      rfl

theorem manifest_mem (sound : u.Sound) {stored : PersistedOperation}
    (member : stored ∈ manifestOperations u.root u.plan) :
    ∃ index operation, u.plan[index]? = some operation ∧ stored = persisted u.root index operation := by
  obtain ⟨index, held⟩ := List.mem_iff_getElem?.mp member
  rw [manifest_at sound] at held
  obtain ⟨operation, there, rfl⟩ := Option.map_eq_some_iff.mp held
  exact ⟨index, operation, there, rfl⟩

theorem manifest_ids : (manifestOperations u.root u.plan).map PersistedOperation.operationId =
    operationIds u := by
  rw [manifestOperations, List.map_map]
  rfl

theorem manifest_paths : (manifestOperations u.root u.plan).map PersistedOperation.path =
    u.plan.map fun operation => operation.path := by
  rw [manifestOperations, List.map_map]
  rfl

theorem manifest_length : (manifestOperations u.root u.plan).length = u.plan.length :=
  List.length_map _

theorem stagedOf_slot {root staged : JsString} {kind : ManagedKind} (held : stagedOf root index kind = some staged) :
    staged = Slot.path root (.payload index) ∧ ∃ content, kind = .writeFile content := by
  cases kind with
  | writeFile content => exact ⟨(Option.some.inj held).symm, content, rfl⟩
  | createDirectory | deleteFile => cases held

theorem stagedPaths_nodup (sound : u.Sound) :
    ((manifestOperations u.root u.plan).filterMap PersistedOperation.stagedPath).Nodup := by
  have apart := operationIds_nodup sound
  rw [← manifest_ids, List.Nodup, List.pairwise_map] at apart
  refine List.pairwise_filterMap.mpr (apart.imp_of_mem ?_)
  intro left right leftIn rightIn different first firstHeld second secondHeld same
  obtain ⟨index, operation, held, rfl⟩ := manifest_mem sound leftIn
  obtain ⟨another, other, there, rfl⟩ := manifest_mem sound rightIn
  obtain ⟨rfl, -⟩ := stagedOf_slot firstHeld
  obtain ⟨rfl, -⟩ := stagedOf_slot secondHeld
  injection Slot.path_injective same with equal
  subst equal
  rw [held] at there
  cases there
  exact different rfl

theorem findManifestFailure_plan (sound : u.Sound) :
    findManifestFailure [] [] [] (manifestOperations u.root u.plan) = none := by
  refine (findManifestFailure_none_iff List.nodup_nil List.nodup_nil List.nodup_nil).mpr ?_
  refine ⟨?_, ?_, stagedPaths_nodup sound, ?_⟩
  · rw [List.nil_append, manifest_ids]
    exact operationIds_nodup sound
  · rw [List.nil_append, manifest_paths]
    exact paths_nodup sound
  · intro stored member
    obtain ⟨index, operation, held, rfl⟩ := manifest_mem sound member
    exact (sound.frozen held).changes

theorem manifestSemantics_plan (sound : u.Sound) :
    manifestSemantics u.services u.root (manifestOf u createdAt) = true := by
  have relative : (manifestOperations u.root u.plan).map relativeOperation =
      u.plan.map toPersistedManagedOperation := by
    apply List.ext_getElem?
    intro index
    rw [List.getElem?_map, List.getElem?_map, manifest_getElem?]
    cases held : u.plan[index]? with
    | none => rfl
    | some operation =>
        have frozen := sound.frozen held
        simp only [Option.map_some, Option.some.injEq, relativeOperation, toPersistedManagedOperation,
          frozen.staged, frozen.named]
        cases operation.kind <;> rfl
  rw [manifestSemantics, manifestOf]
  simp only [relative, BEq.rfl, Bool.and_true]
  rw [List.all_eq_true]
  rintro ⟨stored, index⟩ member
  have there : (manifestOperations u.root u.plan)[index]? = some stored :=
    List.mem_zipIdx_iff_getElem?.mp member
  rw [manifest_at sound] at there
  obtain ⟨operation, held, rfl⟩ := Option.map_eq_some_iff.mp there
  have frozen := sound.frozen held
  have exact := frozen.exact
  have staged := staged_slot sound held
  rw [frozen.staged] at staged
  simp only [operationSemantics, persisted, toPersistedManagedOperation, frozen.named,
    frozen.destination, BEq.rfl, Bool.true_and]
  cases kind : operation.kind with
  | createDirectory =>
      rw [exactOperation, kind] at exact
      exact exact
  | writeFile content =>
      rw [exactOperation, kind] at exact
      simp only [Bool.and_eq_true, beq_iff_eq] at exact
      rw [kind] at staged
      simp only [Locks.Guard.persistedKind, exact.1, exact.2, ← staged, stagedPathAt, Option.map_some,
        BEq.rfl, Bool.true_and]
      rfl
  | deleteFile =>
      rw [exactOperation, kind] at exact
      exact exact

end Plans

section Observing

variable {u : Undertaking} {disk : Disk} {view : View} {operation : ManagedOperation} {index front : Nat}
  {createdAt : JsString}

def fingerprintOf : DurableEntry → PathFingerprint
  | .missing | .symlink | .special => .missing
  | .directory => .directory
  | .file size sha256 => .file size sha256

@[simp] theorem fingerprintOf_entryOf (fingerprint : PathFingerprint) :
    fingerprintOf (entryOf fingerprint) = fingerprint := by
  cases fingerprint <;> rfl

/-- What a path holds has a fingerprint: it is no link and nothing special. -/
def Plain (u : Undertaking) (node : Option Node) : Prop :=
  ∃ fingerprint, Node.entry u.services.sha256 node = entryOf fingerprint

def reading (u : Undertaking) (disk : Disk) (path : JsString) : PathFingerprint :=
  fingerprintOf (Node.entry u.services.sha256 (disk.held path))

theorem reading_of {path : JsString} {fingerprint : PathFingerprint}
    (entry : Node.entry u.services.sha256 (disk.held path) = entryOf fingerprint) :
    reading u disk path = fingerprint := by
  rw [reading, entry, fingerprintOf_entryOf]

theorem Loose.plain {node : Option Node} (loose : Loose node) : Plain u node := by
  rcases loose with rfl | ⟨text, rfl⟩
  · exact ⟨.missing, rfl⟩
  · exact ⟨contentFingerprint u.services.sha256 text, rfl⟩

theorem outcome_entry {lower : CaseMapping} {sha256 : JsString → JsString}
    (frozen : Frozen lower sha256 index operation) :
    Node.entry sha256 (outcome operation) = entryOf operation.result := by
  have exact := frozen.exact
  unfold exactOperation at exact
  unfold outcome
  cases kind : operation.kind with
  | createDirectory | writeFile content | deleteFile =>
      rw [kind] at exact
      simp only [Bool.and_eq_true, beq_iff_eq] at exact
      rw [exact.2]
      rfl

/-- A destination is at its result before the front, and where it was expected from it on. -/
theorem Destinations.entry (destinations : Destinations u front view) (sound : u.Sound)
    (held : u.plan[index]? = some operation) :
    Node.entry u.services.sha256 (view.outside operation.path) =
      entryOf (if index < front then operation.result else operation.expected) := by
  rw [destinations.reached index operation held]
  split
  · exact outcome_entry (sound.frozen held)
  · exact sound.standing operation (List.mem_of_getElem? held)

theorem Shows.outside (shows : Shows u view disk) {path : JsString}
    (outside : Storage.within u.root path = false) : disk.held path = view.outside path := by
  rw [← viewOf_outside outside, shows.2]

theorem observes_fingerprint {path : JsString} {fingerprint : PathFingerprint}
    (shape : isManagedPathShape path = true)
    (entry : Node.entry u.services.sha256 (disk.held path) = entryOf fingerprint) :
    Observes u.machine (observeFingerprint path) disk fingerprint := by
  refine (observes_inspect shape).bind ?_
  rw [entry]
  cases fingerprint <;> exact rfl

theorem observes_into {paths : List JsString}
    (each : ∀ path ∈ paths, isManagedPathShape path = true ∧ Plain u (disk.held path))
    (before : Observations) :
    Observes u.machine (paths.foldlM observeInto before) disk
      (before ++ paths.map fun path => (path, reading u disk path)) := by
  induction paths generalizing before with
  | nil =>
      rw [List.map_nil, List.append_nil]
      exact rfl
  | cons path rest ih =>
      obtain ⟨shape, fingerprint, entry⟩ := each path List.mem_cons_self
      have first : Observes u.machine (observeInto before path) disk
          (before ++ [(path, reading u disk path)]) := by
        refine (observes_fingerprint shape entry).bind ?_
        rw [reading_of entry]
        exact rfl
      rw [List.foldlM_cons, List.map_cons, List.append_cons]
      exact first.bind (ih (fun other member => each other (List.mem_cons_of_mem _ member)) _)

def stagedPaths (u : Undertaking) : List JsString :=
  (manifestOperations u.root u.plan).filterMap PersistedOperation.stagedPath

theorem mem_stagedPaths (sound : u.Sound) {path : JsString} :
    path ∈ stagedPaths u ↔
      ∃ index, path = Slot.path u.root (.payload index) ∧ Slot.Used u (.payload index) := by
  rw [stagedPaths, List.mem_filterMap]
  constructor
  · rintro ⟨stored, member, staged⟩
    obtain ⟨index, operation, held, rfl⟩ := manifest_mem sound member
    obtain ⟨rfl, content, kind⟩ := stagedOf_slot staged
    exact ⟨index, rfl, operation, content, held, kind⟩
  · rintro ⟨index, rfl, operation, content, held, kind⟩
    refine ⟨persisted u.root index operation, ?_, ?_⟩
    · refine List.mem_of_getElem? (i := index) ?_
      rw [manifest_at sound, held]
      rfl
    · rw [persisted, kind]
      rfl

/-- What recovery observes of a transaction with the manifest of a plan. -/
def observationOf (u : Undertaking) (disk : Disk) : TransactionObservation where
  destinations := (u.plan.map fun operation => operation.path).map fun path => (path, reading u disk path)
  stagedPayloads := (stagedPaths u).map fun path => (path, reading u disk path)

theorem observes_transaction (sound : u.Sound) (shows : Shows u view disk)
    (destinations : Destinations u front view) (payloads : ∀ index, Loose (view.own (.payload index)))
    (housing : Housing view) :
    Observes u.machine (observeTransaction (manifestOf u createdAt)) disk (observationOf u disk) := by
  have targets : ∀ path ∈ u.plan.map fun operation => operation.path,
      isManagedPathShape path = true ∧ Plain u (disk.held path) := by
    intro path member
    obtain ⟨operation, planned, rfl⟩ := List.mem_map.mp member
    obtain ⟨index, held, -, frozen⟩ := sound.at_index planned
    have there := destinations.entry sound held
    rw [← shows.outside (outside_root (sound.outside planned))] at there
    exact ⟨shape_destination frozen.destination, _, there⟩
  have staged : ∀ path ∈ stagedPaths u, isManagedPathShape path = true ∧ Plain u (disk.held path) := by
    intro path member
    obtain ⟨index, rfl, used⟩ := (mem_stagedPaths sound).mp member
    refine ⟨(statePath_slot sound used).shape, ?_⟩
    rw [shows.own (.payload index)]
    exact (payloads index).plain
  have first := observes_into targets []
  have second := observes_into staged []
  rw [List.nil_append] at first second
  have known : (manifestOf u createdAt).operations.filterMap PersistedOperation.stagedPath =
      stagedPaths u := rfl
  have paths : (manifestOf u createdAt).operations.map PersistedOperation.path =
      u.plan.map fun operation => operation.path := manifest_paths
  have root : transactionRoot (manifestOf u createdAt).transactionId = u.root := rfl
  unfold observeTransaction
  rw [known, paths, root]
  refine first.bind (second.bind ?_)
  have used : Slot.Used u .staging := trivial
  refine (observes_staging sound shows).bind ?_
  rcases housing with directory | ⟨missing, -⟩
  · rw [directory]
    have listed : Observes u.machine (Driver.list (stagingRoot u.root)) disk _ :=
      observes_list (statePath_slot sound used).shape ((shows.own .staging).trans directory)
    refine listed.bind ?_
    have none : ((disk.entries u.services.localeCompare (stagingRoot u.root)).map fun name =>
        stagingRoot u.root ++ (js "/" ++ name)).filter (fun path => !(stagedPaths u).contains path) = [] := by
      rw [List.filter_eq_nil_iff]
      intro path member
      obtain ⟨name, there, rfl⟩ := List.mem_map.mp member
      obtain ⟨single, present⟩ := Disk.mem_entries_iff.mp there
      obtain ⟨index, operation, content, held, kind, rfl⟩ := shows.1.payloads name single present
      have among : Slot.path u.root (.payload index) ∈ stagedPaths u :=
        (mem_stagedPaths sound).mpr ⟨index, rfl, operation, content, held, kind⟩
      have contained := List.contains_iff_mem.mpr among
      rw [Slot.path] at contained
      rw [contained]
      decide
    rw [none]
    exact rfl
  · rw [missing]
    exact rfl

end Observing

section Deciding

variable {u : Undertaking} {disk : Disk} {view : View} {front : Nat} {progress : TransactionProgressV1}

/-- What recovery decides of a bound transaction on a disk. -/
def decision (u : Undertaking) (disk : Disk) (progress : TransactionProgressV1) : RecoveryDecision :=
  decideRecovery (manifestOf u progress.createdAt).toTransactionManifest progress.toTransactionProgress
    (observationOf u disk)

/-- What is recorded as published is never ahead of the destinations, and one behind at most. -/
theorem Bound.counted (bound : Bound u front progress view) :
    ∃ count, progress.publishedOperationIds = (operationIds u).take count ∧
      mayRecord (operationIds u).length count progress.phase ∧
        (count ≤ front ∧ front ≤ count + 1 ∧ front ≤ u.plan.length) ∧
          (progress.phase ≠ .publishing → front = count) := by
  have stage := bound.stage
  unfold Stage at stage
  cases phase : progress.phase with
  | begun =>
      rw [phase] at stage
      exact stage.elim
  | prepared | aborted =>
      rw [phase] at stage
      obtain ⟨rfl, nothing, -⟩ := stage
      exact ⟨0, nothing, rfl, ⟨Nat.le_refl _, Nat.zero_le _, Nat.zero_le _⟩, fun _ => rfl⟩
  | publishing =>
      rw [phase] at stage
      obtain ⟨count, recorded, behind, near, bounded, -⟩ := stage
      exact ⟨count, recorded, trivial, ⟨behind, near, bounded⟩, fun other => absurd rfl other⟩
  | committed =>
      rw [phase] at stage
      obtain ⟨rfl, every, -⟩ := stage
      have length : (operationIds u).length = u.plan.length := by rw [operationIds, List.length_map]
      exact ⟨u.plan.length, every.trans (List.take_of_length_le length.le).symm, length.le,
        ⟨Nat.le_refl _, Nat.le_succ _, Nat.le_refl _⟩, fun _ => rfl⟩

theorem Bound.coherent (bound : Bound u front progress view) (sound : u.Sound) :
    Coherent (manifestOf u progress.createdAt).toTransactionManifest progress.toTransactionProgress
      (observationOf u disk) where
  identity := by
    have digest : (some progress.recoveryToken == progress.manifestDigest) = true := by
      rw [bound.token, bound.bound, beq_iff_eq]
    rw [hasValidIdentity, if_neg (by simp [manifestOf, bound.identified])]
    cases progress.phase with
    | begun => rfl
    | aborted =>
        rw [digest, Bool.or_true]
    | prepared | publishing | committed => exact digest
  sane := findManifestFailure_plan sound
  published := by
    have ids : (manifestOf u progress.createdAt).operations.map PersistedOperation.operationId =
        operationIds u := manifest_ids
    obtain ⟨count, recorded, allowed, -⟩ := bound.counted
    rw [ids]
    exact hasValidPublishedPrefix_take (operationIds_nodup sound) recorded allowed
  known := by
    rw [hasUnexpectedStagedContent]
    refine List.any_eq_false.mpr ?_
    rintro ⟨path, fingerprint⟩ member
    obtain ⟨staged, among, same⟩ := List.mem_map.mp member
    obtain ⟨rfl, -⟩ := Prod.mk.inj same
    have contained : ((manifestOf u progress.createdAt).operations.filterMap
        PersistedOperation.stagedPath).contains staged = true := List.contains_iff_mem.mpr among
    simp only [contained, Bool.not_true, Bool.false_and, Bool.false_eq_true, not_false_eq_true]

theorem atFront_observed (destinations : Destinations u front view) (sound : u.Sound)
    (shows : Shows u view disk) :
    AtFront (observationOf u disk).destinations (manifestOf u progress.createdAt).operations front := by
  intro index stored there
  rw [manifestOf, manifest_at sound] at there
  obtain ⟨operation, held, rfl⟩ := Option.map_eq_some_iff.mp there
  have member := List.mem_of_getElem? held
  have entry := destinations.entry sound held
  rw [← shows.outside (outside_root (sound.outside member))] at entry
  have found := mapGet_map (reading u disk) (List.mem_map_of_mem (f := fun operation =>
    operation.path) member)
  rw [reading_of entry] at found
  exact found

theorem lookup_staged (sound : u.Sound) (shows : Shows u view disk) {index : Nat}
    (used : Slot.Used u (.payload index)) :
    mapGet (observationOf u disk).stagedPayloads (Slot.path u.root (.payload index)) =
      some (fingerprintOf (Node.entry u.services.sha256 (view.own (.payload index)))) := by
  have among := (mem_stagedPaths sound).mpr ⟨index, rfl, used⟩
  have found := mapGet_map (reading u disk) among
  rw [reading, shows.own] at found
  exact found

/-- The operations of the manifest with a payload, by their place in the plan. -/
theorem staged_at (sound : u.Sound) {stored : PersistedOperation} {index : Nat}
    (there : (manifestOf u progress.createdAt).operations[index]? = some stored) {staged : JsString}
    (held : staged ∈ stored.stagedPath) :
    staged = Slot.path u.root (.payload index) ∧ Slot.Used u (.payload index) ∧
      Node.entry u.services.sha256 (payloadNode u index) = entryOf stored.result := by
  rw [manifestOf, manifest_at sound] at there
  obtain ⟨operation, planned, rfl⟩ := Option.map_eq_some_iff.mp there
  obtain ⟨same, content, kind⟩ := stagedOf_slot held
  have entry := outcome_entry (sound.frozen planned)
  refine ⟨same, ⟨operation, content, planned, kind⟩, ?_⟩
  rw [payloadNode, planned, Option.bind_some, kind]
  rw [outcome, kind] at entry
  exact entry

private theorem intact_reading {index : Nat} {stored : PersistedOperation}
    (entry : Node.entry u.services.sha256 (payloadNode u index) = entryOf stored.result)
    (whole : view.own (.payload index) = payloadNode u index) :
    fingerprintOf (Node.entry u.services.sha256 (view.own (.payload index))) = stored.result := by
  rw [whole, entry, fingerprintOf_entryOf]

private theorem gone_lookup (sound : u.Sound) (shows : Shows u view disk)
    (gone : ∀ index, view.own (.payload index) = none) :
    ∀ stored ∈ (manifestOf u progress.createdAt).operations, ∀ staged ∈ stored.stagedPath,
      lookup (observationOf u disk).stagedPayloads staged = .missing := by
  intro stored member staged held
  obtain ⟨index, there⟩ := List.mem_iff_getElem?.mp member
  obtain ⟨rfl, used, -⟩ := staged_at sound there held
  rw [lookup, lookup_staged sound shows used, gone index]
  rfl

theorem Bound.decide_prepared (bound : Bound u front progress view) (sound : u.Sound)
    (shows : Shows u view disk) (phase : progress.phase = .prepared) :
    decision u disk progress = .abort := by
  have stage := bound.stage
  rw [Stage, phase] at stage
  obtain ⟨rfl, -, -, whole⟩ := stage
  refine Transactions.decide_prepared (bound.coherent sound) phase
    (atFront_zero_iff.mp (atFront_observed bound.destinations sound shows)) ?_
  intro stored member staged held
  obtain ⟨index, there⟩ := List.mem_iff_getElem?.mp member
  obtain ⟨rfl, used, entry⟩ := staged_at sound there held
  rw [lookup_staged sound shows used, intact_reading entry (whole index)]

theorem Bound.decide_aborted (bound : Bound u front progress view) (sound : u.Sound)
    (shows : Shows u view disk) (phase : progress.phase = .aborted) :
    decision u disk progress = .cleanup .aborted ∨ decision u disk progress = .complete .aborted := by
  have stage := bound.stage
  rw [Stage, phase] at stage
  obtain ⟨-, -, -, payloads⟩ := stage
  refine Transactions.decide_aborted (bound.coherent sound) phase ?_
  intro stored member staged held
  obtain ⟨index, there⟩ := List.mem_iff_getElem?.mp member
  obtain ⟨rfl, used, entry⟩ := staged_at sound there held
  rw [lookup, lookup_staged sound shows used, Option.getD_some]
  rcases payloads index with gone | whole
  · left
    rw [gone]
    rfl
  · exact .inr (intact_reading entry whole)

theorem Bound.decide_aborted_gone (bound : Bound u front progress view) (sound : u.Sound)
    (shows : Shows u view disk) (phase : progress.phase = .aborted)
    (gone : ∀ index, view.own (.payload index) = none) :
    decision u disk progress = .complete .aborted :=
  Transactions.decide_aborted_gone (bound.coherent sound) phase (gone_lookup sound shows gone)

theorem Bound.decide_committed (bound : Bound u front progress view) (sound : u.Sound)
    (shows : Shows u view disk) (phase : progress.phase = .committed) :
    decision u disk progress = .complete .committed := by
  have stage := bound.stage
  rw [Stage, phase] at stage
  obtain ⟨rfl, -, -, gone⟩ := stage
  have standing : AtFront (observationOf u disk).destinations
      (manifestOf u progress.createdAt).operations u.plan.length :=
    atFront_observed bound.destinations sound shows
  rw [← manifest_length (u := u)] at standing
  exact Transactions.decide_committed (bound.coherent sound) phase
    (atFront_length_iff.mp standing) (gone_lookup sound shows gone)

theorem Bound.decide_publishing (bound : Bound u front progress view) (sound : u.Sound)
    (shows : Shows u view disk) (phase : progress.phase = .publishing) {count : Nat}
    (recorded : progress.publishedOperationIds = (operationIds u).take count) (behind : count ≤ front)
    (bounded : front ≤ u.plan.length)
    (payloads : ∀ index, view.own (.payload index) = if index < front then none else payloadNode u index) :
    decision u disk progress =
      if count < front then
        match (manifestOf u progress.createdAt).operations[count]? with
        | some operation => .recordPublished operation.operationId
        | none => .commit
      else
        match (manifestOf u progress.createdAt).operations[front]? with
        | some operation => .publish operation.operationId
        | none => .commit := by
  refine Transactions.decide_publishing (bound.coherent sound) phase ?_
    (atFront_observed bound.destinations sound shows) ?_ behind (by rw [recorded, ← manifest_ids]; rfl)
  · exact bounded.trans_eq manifest_length.symm
  · intro index stored there
    split
    · rename_i before
      intro staged held
      obtain ⟨rfl, used, -⟩ := staged_at sound there held
      rw [lookup, lookup_staged sound shows used, payloads index, if_pos before]
      rfl
    · rename_i beyond
      intro staged held
      obtain ⟨rfl, used, entry⟩ := staged_at sound there held
      have whole : view.own (.payload index) = payloadNode u index := by
        rw [payloads index, if_neg beyond]
      rw [lookup, lookup_staged sound shows used, Option.getD_some, intact_reading entry whole]

end Deciding

end Kratos.Transactions
