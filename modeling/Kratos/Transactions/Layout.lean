/- source: composition/transactions.ts, ports/transactions.ts
   digest: The files of a transaction as slots beside everything else, and the durable calls upon them. -/

import Kratos.Transactions.Accepted

set_option autoImplicit false

namespace Kratos.Transactions

open Foundation.Text Foundation.Paths Foundation.Crashes Patterns Durable Transactions.Driver

section Slots

/-- The places a transaction keeps its own files at. -/
inductive Slot
  | progress | next | manifest | staging
  | payload (index : Nat)
  deriving DecidableEq

def Slot.path (root : JsString) : Slot → JsString
  | .progress => progressPath root
  | .next => nextPath root
  | .manifest => manifestPath root
  | .staging => stagingRoot root
  | .payload index => stagingRoot root ++ (js "/" ++ payloadName index)

/-- What stands at the slots of a transaction, and outside of its directory. -/
structure View where
  own : Slot → Option Node
  outside : JsString → Option Node

def View.put (view : View) (slot : Slot) (node : Option Node) : View :=
  { view with own := Function.update view.own slot node }

def View.set (view : View) (path : JsString) (node : Option Node) : View :=
  { view with outside := Function.update view.outside path node }

section Views

variable (view : View) {slot other : Slot} {node : Option Node}

@[simp] theorem View.own_put : (view.put slot node).own slot = node :=
  Function.update_self ..

theorem View.own_put_of_ne (apart : other ≠ slot) : (view.put slot node).own other = view.own other :=
  Function.update_of_ne apart ..

@[simp] theorem View.outside_put : (view.put slot node).outside = view.outside := rfl

@[simp] theorem View.own_set {path : JsString} : (view.set path node).own = view.own := rfl

@[simp] theorem View.put_put {first : Option Node} : (view.put slot first).put slot node = view.put slot node :=
  congrArg (fun own => View.mk own view.outside) (Function.update_idem ..)

@[simp] theorem View.put_own : view.put slot (view.own slot) = view :=
  congrArg (fun own => View.mk own view.outside) (Function.update_eq_self ..)

end Views

def viewOf (root : JsString) (disk : Disk) : View where
  own slot := disk.held (slot.path root)
  outside path := if Storage.within root path then none else disk.held path

variable {root : JsString}

/-- A slot is in the transaction's directory, or it is a payload in the one of the payloads. -/
theorem Slot.path_suffix (root : JsString) (slot : Slot) :
    ∃ suffix, slot.path root = root ++ (js "/" ++ suffix) ∧
      (suffix ∈ layoutNames ∧ (∀ index, slot ≠ .payload index) ∨
        ∃ index, slot = .payload index ∧ suffix = js "staging/" ++ payloadName index) := by
  cases slot with
  | payload index =>
      refine ⟨js "staging/" ++ payloadName index, ?_, .inr ⟨index, rfl, rfl⟩⟩
      have slash : js "staging/" = js "staging" ++ js "/" := by decide
      simp only [Slot.path, stagingRoot, slash, List.append_assoc]
  | progress | next | manifest | staging =>
      exact ⟨_, rfl, .inl ⟨by decide, fun _ same => by cases same⟩⟩

theorem Slot.within (slot : Slot) : Storage.within root (slot.path root) = true := by
  obtain ⟨suffix, shape, -⟩ := slot.path_suffix root
  rw [shape]
  exact Storage.within_append (.inr ⟨suffix, rfl⟩)

private theorem payload_apart {index : Nat} {fixed : JsString}
    (other : startsWith fixed (js "staging/") = false)
    (same : root ++ (js "/" ++ fixed) = Slot.path root (.payload index)) : False := by
  obtain ⟨suffix, shape, ⟨-, plain⟩ | ⟨another, -, known⟩⟩ :=
    Slot.path_suffix root (.payload index)
  · exact plain index rfl
  · rw [shape, known, List.append_cancel_left_eq, List.append_cancel_left_eq] at same
    rw [same, startsWith_append] at other
    cases other

theorem Slot.path_injective {slot other : Slot} (same : slot.path root = other.path root) :
    slot = other := by
  cases slot with
  | payload index =>
      cases other with
      | payload another =>
          rw [Slot.path, Slot.path, List.append_cancel_left_eq, List.append_cancel_left_eq,
            payloadName, payloadName, List.append_cancel_right_eq] at same
          rw [operationIdAt_injective same]
      | progress | next | manifest | staging => exact (payload_apart (by decide) same.symm).elim
  | progress | next | manifest | staging =>
      cases other with
      | payload index => exact (payload_apart (by decide) same).elim
      | progress | next | manifest | staging =>
          first | rfl | exact absurd (List.append_cancel_left same) (by decide)

variable {disk : Disk} {slot : Slot} {path : JsString} {node : Node}

private theorem view_own {node : Option Node} {changed : Disk}
    (held : changed.held = Function.update disk.held (slot.path root) node) :
    viewOf root changed = (viewOf root disk).put slot node := by
  have own : (fun other => changed.held (Slot.path root other)) =
      Function.update (fun other => disk.held (Slot.path root other)) slot node := by
    funext other
    rw [held]
    by_cases same : other = slot
    · rw [same, Function.update_self, Function.update_self]
    · rw [Function.update_of_ne same,
        Function.update_of_ne fun equal => same (Slot.path_injective equal)]
  have outside : ∀ other, Storage.within root other = false → changed.held other = disk.held other := by
    intro other outside
    rw [held, Function.update_of_ne]
    rintro rfl
    rw [slot.within] at outside
    cases outside
  refine congrArg₂ View.mk own (funext fun other => ?_)
  show (if Storage.within root other then none else changed.held other) =
    if Storage.within root other then none else disk.held other
  cases inside : Storage.within root other with
  | true => rfl
  | false => exact outside other inside

private theorem view_outside {node : Option Node} {changed : Disk}
    (outside : Storage.within root path = false)
    (held : changed.held = Function.update disk.held path node) :
    viewOf root changed = (viewOf root disk).set path node := by
  have own : ∀ slot, changed.held (Slot.path root slot) = disk.held (Slot.path root slot) := by
    intro slot
    rw [held, Function.update_of_ne]
    rintro rfl
    rw [slot.within] at outside
    cases outside
  refine congrArg₂ View.mk (funext own) (funext fun other => ?_)
  rw [held]
  by_cases same : other = path
  · simp [same, outside]
  · simp [Function.update_of_ne same, viewOf]

@[simp] theorem viewOf_put : viewOf root (disk.put (slot.path root) node) =
    (viewOf root disk).put slot (some node) :=
  view_own (Disk.held_put disk _ node)

@[simp] theorem viewOf_remove : viewOf root (disk.remove (slot.path root)) =
    (viewOf root disk).put slot none :=
  view_own (Disk.held_remove disk _)

theorem viewOf_put_outside (outside : Storage.within root path = false) :
    viewOf root (disk.put path node) = (viewOf root disk).set path (some node) :=
  view_outside outside (Disk.held_put disk _ node)

theorem viewOf_remove_outside (outside : Storage.within root path = false) :
    viewOf root (disk.remove path) = (viewOf root disk).set path none :=
  view_outside outside (Disk.held_remove disk _)

@[simp] theorem viewOf_tick : viewOf root disk.tick = viewOf root disk := rfl

@[simp] theorem viewOf_synced : viewOf root disk.synced = viewOf root disk := rfl

theorem viewOf_outside (outside : Storage.within root path = false) :
    (viewOf root disk).outside path = disk.held path := by
  simp [viewOf, outside]

end Slots

section Undertakings

/-- A plan that is about to be executed as a transaction, and the disk it finds. -/
structure Undertaking where
  services : TransactionServices
  plan : List ManagedOperation
  transactionId : JsString
  start : Disk

def Undertaking.root (u : Undertaking) : JsString := transactionRoot u.transactionId

def Undertaking.machine (u : Undertaking) : Machine DurableCall DurableReply Disk DriverFailure :=
  durableFileSystem u.services.sha256 u.services.localeCompare

/-- What a destination holds once its operation is published. -/
def outcome (operation : ManagedOperation) : Option Node :=
  match operation.kind with
  | .createDirectory => some .directory
  | .writeFile content => some (.file content)
  | .deleteFile => none

/-- What inspecting a path with a fingerprint reports. -/
def entryOf : PathFingerprint → DurableEntry
  | .missing => .missing
  | .directory => .directory
  | .file size sha256 => .file size sha256

/-- The directory a destination sits in is there, or an earlier operation creates it. -/
def Ready (u : Undertaking) (index : Nat) (operation : ManagedOperation) : Prop :=
  parentOf operation.path = js "." ∨ u.start.held (parentOf operation.path) = some .directory ∨
    ∃ earlier creating, earlier < index ∧ u.plan[earlier]? = some creating ∧
      creating.kind = .createDirectory ∧ creating.path = parentOf operation.path

/-- The plan is one the executor accepts over what the disk holds, and nothing of the transaction is
there yet. -/
structure Undertaking.Sound (u : Undertaking) : Prop where
  hex : ∀ text, sha256Pattern (u.services.sha256 text) = true
  reserved : u.services.lower.toLowerCase reservedStateNamespace = reservedStateNamespace
  identified : idPattern u.transactionId = true
  accepted : freezeManagedPlan u.services.lower u.services.sha256 u.plan = .ok u.plan
  few : u.plan.length ≤ 9999
  brain : u.start.held brain = some .directory
  transactions : u.start.held transactionsRoot = some .directory
  fresh : u.start.storage.free u.root = true
  standing : ∀ operation ∈ u.plan,
    Node.entry u.services.sha256 (u.start.held operation.path) = entryOf operation.expected
  ready : ∀ index operation, u.plan[index]? = some operation → Ready u index operation
  legible : ∀ name, unit '/' ∉ name → u.start.held (transactionRoot name) ≠ none →
    ∃ summary, Observes u.machine (summarize u.services name) u.start summary

/-- What no step of a transaction changes of the disk it runs on. -/
structure Anchored (u : Undertaking) (disk : Disk) : Prop where
  brain : disk.held brain = some .directory
  transactions : disk.held transactionsRoot = some .directory
  root : disk.held u.root = some .directory
  names : ∀ name, unit '/' ∉ name → disk.held (u.root ++ (js "/" ++ name)) ≠ none →
    name ∈ layoutNames
  payloads : ∀ name, unit '/' ∉ name → disk.held (stagingRoot u.root ++ (js "/" ++ name)) ≠ none →
    ∃ index operation content, u.plan[index]? = some operation ∧
      operation.kind = .writeFile content ∧ name = payloadName index
  others : ∀ path, Storage.within transactionsRoot path = true → Storage.within u.root path = false →
    disk.held path = u.start.held path
  listings : ∀ directory, Storage.within transactionsRoot directory = true →
    directory ≠ transactionsRoot → Storage.within u.root directory = false →
      disk.storage.list directory = u.start.storage.list directory

/-- A slot the transaction makes use of: a payload is one of a file that is written. -/
def Slot.Used (u : Undertaking) : Slot → Prop
  | .payload index => ∃ operation content, u.plan[index]? = some operation ∧
      operation.kind = .writeFile content
  | .progress | .next | .manifest | .staging => True

variable {u : Undertaking}

theorem Undertaking.Sound.frozen (sound : u.Sound) {index : Nat} {operation : ManagedOperation}
    (held : u.plan[index]? = some operation) :
    Frozen u.services.lower u.services.sha256 index operation :=
  (freezeManagedPlan_ok sound.accepted).2.1 index operation held

theorem Undertaking.Sound.index_lt (sound : u.Sound) {index : Nat} {operation : ManagedOperation}
    (held : u.plan[index]? = some operation) : index < 9999 := by
  have within := (List.getElem?_eq_some_iff.mp held).1
  have few := sound.few
  omega

/-- The destinations of a plan are outside of the directory of the transactions. -/
theorem Undertaking.Sound.outside (sound : u.Sound) {operation : ManagedOperation}
    (member : operation ∈ u.plan) : Storage.within transactionsRoot operation.path = false := by
  obtain ⟨index, held⟩ := List.mem_iff_getElem?.mp member
  exact destination_outside sound.reserved (sound.frozen held).destination

theorem Undertaking.Sound.ne_brain (sound : u.Sound) {operation : ManagedOperation}
    (member : operation ∈ u.plan) : operation.path ≠ Driver.brain := by
  obtain ⟨index, there⟩ := List.mem_iff_getElem?.mp member
  have destination := (sound.frozen there).destination
  have root : segments Driver.brain = [Driver.brain] := by decide
  have single : managedRootFiles.contains Driver.brain = false := by decide
  have shape : isManagedDestination u.services.lower Driver.brain = false := by
    rw [isManagedDestination, root]
    simp only [single, ite_self]
  have directory : (isManagedRoot Driver.brain && Driver.brain != js ".brain") = false := by decide
  intro same
  rw [same, isManagedDirectoryDestination, shape, directory] at destination
  cases destination

theorem root_within (u : Undertaking) : Storage.within transactionsRoot u.root = true :=
  Storage.within_append (.inr ⟨u.transactionId, rfl⟩)

theorem outside_root {path : JsString} (outside : Storage.within transactionsRoot path = false) :
    Storage.within u.root path = false := by
  rw [Bool.eq_false_iff]
  intro inside
  obtain ⟨rest, extension, rfl⟩ := Storage.within_iff.mp inside
  have deeper : Storage.Extension (js "/" ++ u.transactionId ++ rest) := by
    rcases extension with rfl | ⟨name, rfl⟩
    · exact .inr ⟨u.transactionId, by rw [List.append_nil]⟩
    · exact .inr ⟨u.transactionId ++ (js "/" ++ name), by rw [List.append_assoc]⟩
  have same : u.root ++ rest = transactionsRoot ++ (js "/" ++ u.transactionId ++ rest) := by
    simp only [Undertaking.root, transactionRoot, List.append_assoc]
  rw [same, Storage.within_append deeper] at outside
  cases outside

theorem statePath_root (sound : u.Sound) : StatePath u.root := by
  have base : StatePath transactionsRoot :=
    ⟨by decide, ⟨[js "transactions"], by decide⟩, by decide⟩
  exact base.child (plainName_id sound.identified)

theorem statePath_slot (sound : u.Sound) {slot : Slot} (used : slot.Used u) :
    StatePath (slot.path u.root) := by
  have root := statePath_root sound
  cases slot with
  | payload index =>
      obtain ⟨operation, content, held, -⟩ := used
      exact (root.child (plainName_layout (by decide))).child (plainName_payload (sound.index_lt held))
  | progress | next | manifest | staging => exact root.child (plainName_layout (by decide))

def Slot.directory (root : JsString) : Slot → JsString
  | .payload _ => stagingRoot root
  | .progress | .next | .manifest | .staging => root

theorem parentOf_slot (sound : u.Sound) {slot : Slot} (used : slot.Used u) :
    parentOf (slot.path u.root) = slot.directory u.root := by
  cases slot with
  | payload index =>
      obtain ⟨operation, content, held, -⟩ := used
      exact parentOf_child (plainName_payload (sound.index_lt held)).noSlash
  | progress | next | manifest | staging => exact parentOf_child (by decide)

end Undertakings

section Anchoring

variable {u : Undertaking} {disk changed : Disk} {slot : Slot} {path : JsString} {node : Option Node}

private theorem childName_parent {directory name : JsString}
    (child : Storage.childName directory path = some name) : parentOf path = directory := by
  obtain ⟨rest, read, single⟩ := Option.bind_eq_some_iff.mp child
  split at single
  · cases single
  · rename_i plain
    obtain rfl := Option.some.inj single
    unfold literal at read
    split at read
    · rename_i begins
      obtain ⟨tail, shape⟩ := (startsWith_iff _ _).mp begins
      rw [shape, List.drop_left] at read
      obtain rfl := Option.some.inj read
      rw [shape, List.append_assoc]
      exact parentOf_child plain
    · cases read

private theorem slot_elsewhere (sound : u.Sound) (used : slot.Used u) {directory : JsString}
    (elsewhere : Storage.within u.root directory = false) :
    Storage.childName directory (slot.path u.root) = none := by
  cases child : Storage.childName directory (slot.path u.root) with
  | none => rfl
  | some name =>
      have same := childName_parent child
      rw [parentOf_slot sound used] at same
      have inside : Storage.within u.root (slot.directory u.root) = true := by
        cases slot with
        | payload index => exact Storage.within_append (.inr ⟨_, rfl⟩)
        | progress | next | manifest | staging => exact Storage.within_iff.mpr ⟨[], .inl rfl, by
            rw [List.append_nil]; rfl⟩
      rw [same, elsewhere] at inside
      cases inside

private theorem held_apart (held : changed.held = Function.update disk.held (slot.path u.root) node)
    {other : JsString} (outside : Storage.within u.root other = false) :
    changed.held other = disk.held other := by
  rw [held, Function.update_of_ne]
  rintro rfl
  rw [slot.within] at outside
  cases outside

private theorem held_root (held : changed.held = Function.update disk.held (slot.path u.root) node) :
    changed.held u.root = disk.held u.root := by
  rw [held, Function.update_of_ne]
  intro same
  obtain ⟨suffix, shape, -⟩ := slot.path_suffix u.root
  have length := congrArg List.length (same.trans shape)
  have slash : (js "/").length = 1 := rfl
  rw [List.length_append, List.length_append, slash] at length
  omega

private theorem brain_outside (u : Undertaking) : Storage.within u.root brain = false :=
  outside_root (by decide)

private theorem transactions_outside (u : Undertaking) :
    Storage.within u.root transactionsRoot = false := by
  rw [Bool.eq_false_iff]
  intro inside
  obtain ⟨rest, -, shape⟩ := Storage.within_iff.mp inside
  have length := congrArg List.length shape
  have slash : (js "/").length = 1 := rfl
  rw [Undertaking.root, transactionRoot, List.length_append, List.length_append, List.length_append,
    slash] at length
  omega

private theorem noSlash_layout {name : JsString} (member : name ∈ layoutNames) : unit '/' ∉ name :=
  (plainName_layout member).noSlash

private theorem Anchored.keep (anchored : Anchored u disk) (sound : u.Sound) (used : slot.Used u)
    (held : changed.held = Function.update disk.held (slot.path u.root) node)
    (listed : ∀ directory, Storage.childName directory (slot.path u.root) = none →
      changed.storage.list directory = disk.storage.list directory) : Anchored u changed where
  brain := (held_apart held (brain_outside u)).trans anchored.brain
  transactions := (held_apart held (transactions_outside u)).trans anchored.transactions
  root := (held_root held).trans anchored.root
  names name single present := by
    by_cases same : u.root ++ (js "/" ++ name) = slot.path u.root
    · obtain ⟨suffix, shape, ⟨member, -⟩ | ⟨index, -, known⟩⟩ := slot.path_suffix u.root
      · rw [shape, List.append_cancel_left_eq, List.append_cancel_left_eq] at same
        rw [same]
        exact member
      · rw [shape, known, List.append_cancel_left_eq, List.append_cancel_left_eq] at same
        rw [same] at single
        exact absurd (List.mem_append_left _ (by decide)) single
    · rw [held, Function.update_of_ne same] at present
      exact anchored.names name single present
  payloads name single present := by
    by_cases same : stagingRoot u.root ++ (js "/" ++ name) = slot.path u.root
    · obtain ⟨suffix, shape, ⟨member, -⟩ | ⟨index, rfl, -⟩⟩ := slot.path_suffix u.root
      · have slash : unit '/' ∈ suffix := by
          rw [shape, stagingRoot, List.append_assoc, List.append_assoc, List.append_cancel_left_eq,
            List.append_cancel_left_eq] at same
          rw [← same]
          exact List.mem_append_right _ (List.mem_append_left _ (by decide))
        exact absurd slash (noSlash_layout member)
      · rw [Slot.path, List.append_cancel_left_eq, List.append_cancel_left_eq] at same
        obtain ⟨operation, content, there, kind⟩ := used
        exact ⟨index, operation, content, there, kind, same⟩
    · rw [held, Function.update_of_ne same] at present
      exact anchored.payloads name single present
  others path inside outside := (held_apart held outside).trans (anchored.others path inside outside)
  listings directory inside below outside :=
    (listed directory (slot_elsewhere sound used outside)).trans
      (anchored.listings directory inside below outside)

theorem Anchored.put (anchored : Anchored u disk) (sound : u.Sound) (used : slot.Used u)
    {node : Node} : Anchored u (disk.put (slot.path u.root) node) :=
  anchored.keep sound used (Disk.held_put disk _ node) fun _ apart => Storage.list_put apart

theorem Anchored.remove (anchored : Anchored u disk) (sound : u.Sound) (used : slot.Used u) :
    Anchored u (disk.remove (slot.path u.root)) :=
  anchored.keep sound used (Disk.held_remove disk _) fun _ apart => Storage.list_remove apart

private theorem Anchored.beyond (anchored : Anchored u disk) {operation : ManagedOperation}
    (sound : u.Sound) (member : operation ∈ u.plan)
    (held : changed.held = Function.update disk.held operation.path node)
    (listed : ∀ directory, Storage.childName directory operation.path = none →
      changed.storage.list directory = disk.storage.list directory) : Anchored u changed := by
  have outside := sound.outside member
  have named := sound.ne_brain member
  have apart : ∀ {other : JsString}, Storage.within transactionsRoot other = true →
      changed.held other = disk.held other := by
    intro other inside
    rw [held, Function.update_of_ne]
    rintro rfl
    rw [outside] at inside
    cases inside
  have own : ∀ rest : JsString, Storage.within transactionsRoot (u.root ++ (js "/" ++ rest)) = true := by
    intro rest
    have same : u.root ++ (js "/" ++ rest) =
        transactionsRoot ++ (js "/" ++ (u.transactionId ++ (js "/" ++ rest))) := by
      simp only [Undertaking.root, transactionRoot, List.append_assoc]
    rw [same]
    exact Storage.within_append (.inr ⟨_, rfl⟩)
  have staged : ∀ name : JsString, stagingRoot u.root ++ (js "/" ++ name) =
      u.root ++ (js "/" ++ (js "staging" ++ (js "/" ++ name))) := by
    intro name
    simp only [stagingRoot, List.append_assoc]
  exact
    { brain := by
        rw [held, Function.update_of_ne (Ne.symm named)]
        exact anchored.brain
      transactions := (apart (by decide)).trans anchored.transactions
      root := (apart (root_within u)).trans anchored.root
      names := fun name single present => anchored.names name single (by rwa [← apart (own name)])
      payloads := fun name single present => anchored.payloads name single (by
        rw [staged] at present ⊢
        rwa [← apart (own _)])
      others := fun path inside elsewhere => (apart inside).trans (anchored.others path inside elsewhere)
      listings := fun directory inside below elsewhere => by
        rw [← anchored.listings directory inside below elsewhere]
        obtain ⟨rest, extension, rfl⟩ := Storage.within_iff.mp inside
        exact listed _ (Storage.childName_outside extension outside) }

theorem Anchored.put_outside (anchored : Anchored u disk) (sound : u.Sound)
    {operation : ManagedOperation} (member : operation ∈ u.plan) {node : Node} :
    Anchored u (disk.put operation.path node) :=
  anchored.beyond sound member (Disk.held_put disk _ node) fun _ apart => Storage.list_put apart

theorem Anchored.remove_outside (anchored : Anchored u disk) (sound : u.Sound)
    {operation : ManagedOperation} (member : operation ∈ u.plan) :
    Anchored u (disk.remove operation.path) :=
  anchored.beyond sound member (Disk.held_remove disk _) fun _ apart => Storage.list_remove apart

/-- Nothing is held beneath the directory of a transaction that has not begun. -/
theorem Undertaking.Sound.held_fresh (sound : u.Sound) (inside : Storage.within u.root path = true) :
    u.start.held path = none :=
  Storage.find_free sound.fresh inside

/-- Creating the directory of a transaction fixes what no later step changes. -/
theorem anchored_opened (sound : u.Sound) (same : disk.storage = u.start.storage) :
    Anchored u (disk.put u.root .directory) := by
  have elsewhere : ∀ {other : JsString}, Storage.within u.root other = false →
      (disk.put u.root .directory).held other = u.start.held other := by
    intro other outside
    rw [Disk.held_put, Function.update_of_ne, Disk.held, same, Disk.held]
    rintro rfl
    rw [show Storage.within u.root u.root = true from
      Storage.within_iff.mpr ⟨[], .inl rfl, (List.append_nil _).symm⟩] at outside
    cases outside
  have beneath : ∀ rest : JsString, (disk.put u.root .directory).held (u.root ++ (js "/" ++ rest)) = none := by
    intro rest
    have apart : u.root ++ (js "/" ++ rest) ≠ u.root := by
      intro whole
      cases List.append_right_eq_self.mp whole
    rw [Disk.held_put, Function.update_of_ne apart, Disk.held, same]
    exact sound.held_fresh (Storage.within_append (.inr ⟨rest, rfl⟩))
  exact
    { brain := (elsewhere (brain_outside u)).trans sound.brain
      transactions := (elsewhere (transactions_outside u)).trans sound.transactions
      root := by rw [Disk.held_put, Function.update_self]
      names := fun name _ present => absurd (beneath name) present
      payloads := fun name _ present => by
        rw [stagingRoot, List.append_assoc, List.append_assoc] at present
        exact absurd (beneath _) present
      others := fun path _ outside => elsewhere outside
      listings := fun directory _ other _ => by
        have child : Storage.childName directory u.root = none := by
          cases listed : Storage.childName directory u.root with
          | none => rfl
          | some name =>
              have parent : parentOf u.root = transactionsRoot :=
                parentOf_child (plainName_id sound.identified).noSlash
              exact absurd ((childName_parent listed).symm.trans parent) other
        rw [← same]
        exact Storage.list_put child }

theorem Anchored.tick (anchored : Anchored u disk) : Anchored u disk.tick :=
  ⟨anchored.brain, anchored.transactions, anchored.root, anchored.names, anchored.payloads,
    anchored.others, anchored.listings⟩

theorem Anchored.synced (anchored : Anchored u disk) : Anchored u disk.synced :=
  ⟨anchored.brain, anchored.transactions, anchored.root, anchored.names, anchored.payloads,
    anchored.others, anchored.listings⟩

end Anchoring

section Calls

variable {u : Undertaking} {disk : Disk} {slot : Slot} {view : View} {claim : View → Prop}
  {failed : DriverFailure → Disk → Prop}

/-- A claim about the view of a disk on which everything that is fixed stands. -/
def Upheld (u : Undertaking) (claim : View → Prop) (disk : Disk) : Prop :=
  Anchored u disk ∧ claim (viewOf u.root disk)

def Shows (u : Undertaking) (view : View) (disk : Disk) : Prop :=
  Anchored u disk ∧ viewOf u.root disk = view

theorem Shows.upheld (shows : Shows u view disk) (held : claim view) : Upheld u claim disk :=
  ⟨shows.1, by rw [shows.2]; exact held⟩

theorem Shows.own (shows : Shows u view disk) (slot : Slot) :
    disk.held (slot.path u.root) = view.own slot :=
  congrArg (fun shown => shown.own slot) shows.2

/-- A payload is put in the directory of the payloads. -/
def Housed (view : View) : Slot → Prop
  | .payload _ => view.own .staging = some .directory
  | .progress | .next | .manifest | .staging => True

theorem shows_opened (sound : u.Sound) (same : disk.storage = u.start.storage) :
    Shows u (viewOf u.root u.start) (disk.put u.root .directory) := by
  have held : disk.held = u.start.held := congrArg Storage.find same
  have whole : Storage.within u.root u.root = true :=
    Storage.within_iff.mpr ⟨[], .inl rfl, (List.append_nil _).symm⟩
  refine ⟨anchored_opened sound same, ?_⟩
  unfold viewOf
  rw [Disk.held_put, held]
  congr 1
  · funext slot
    obtain ⟨suffix, shape, -⟩ := slot.path_suffix u.root
    refine Function.update_of_ne ?_ _ _
    rw [shape]
    intro same
    cases List.append_right_eq_self.mp same
  · funext path
    by_cases inside : Storage.within u.root path = true
    · rw [if_pos inside, if_pos inside]
    · rw [if_neg inside, if_neg inside, Function.update_of_ne]
      rintro rfl
      exact inside whole

/-- A transaction that has not begun has nothing of its own, and no destination is changed. -/
theorem start_own (sound : u.Sound) (slot : Slot) : (viewOf u.root u.start).own slot = none :=
  sound.held_fresh slot.within

theorem hasParent_slot (sound : u.Sound) (used : slot.Used u) (shows : Shows u view disk)
    (housed : Housed view slot) : disk.hasParent (slot.path u.root) = true := by
  rw [Disk.hasParent, parentOf_slot sound used, Bool.or_eq_true, beq_iff_eq, beq_iff_eq]
  right
  cases slot with
  | payload index => exact (shows.own .staging).trans housed
  | progress | next | manifest | staging => exact shows.1.root

theorem writable_slot (sound : u.Sound) (used : slot.Used u) (shows : Shows u view disk)
    (housed : Housed view slot) (empty : view.own slot = none) :
    disk.writable (slot.path u.root) = true := by
  rw [Disk.writable, (statePath_slot sound used).shape, hasParent_slot sound used shows housed,
    shows.own slot, empty]
  rfl

theorem Shows.put (shows : Shows u view disk) (sound : u.Sound) (used : slot.Used u) (node : Node) :
    Shows u (view.put slot (some node)) (disk.put (slot.path u.root) node) :=
  ⟨shows.1.put sound used, by rw [viewOf_put, shows.2]⟩

theorem Shows.remove (shows : Shows u view disk) (sound : u.Sound) (used : slot.Used u) :
    Shows u (view.put slot none) (disk.remove (slot.path u.root)) :=
  ⟨shows.1.remove sound used, by rw [viewOf_remove, shows.2]⟩

theorem ensures_writeSynced (sound : u.Sound) (used : slot.Used u) (shows : Shows u view disk)
    (housed : Housed view slot) (empty : view.own slot = none) (content : JsString)
    (here : claim view) (partway : ∀ text, claim (view.put slot (some (.file text)))) :
    Ensures u.machine (Upheld u claim)
      (fun _ => Shows u (view.put slot (some (.file content)))) failed
      (writeSynced (slot.path u.root) content) disk := by
  have writable := writable_slot sound used shows housed empty
  have served : u.machine.serve (.writeSynced (slot.path u.root) content) disk =
      .ok ((), disk.put (slot.path u.root) (.file content)) := if_pos writable
  refine Ensures.perform (shows.upheld here) ?_ served
    ((shows.put sound used _).upheld (partway content)) (shows.put sound used _)
  rintro left ⟨-, text, rfl⟩
  exact (shows.put sound used _).upheld (partway text)

theorem ensures_removeFile (sound : u.Sound) (used : slot.Used u) (shows : Shows u view disk)
    {content : JsString} (file : view.own slot = some (.file content)) (here : claim view)
    (there : claim (view.put slot none)) :
    Ensures u.machine (Upheld u claim) (fun _ => Shows u (view.put slot none)) failed
      (removeFile (slot.path u.root)) disk := by
  have held := (shows.own slot).trans file
  have ready : (isManagedPathShape (slot.path u.root) && disk.isFile (slot.path u.root)) = true := by
    rw [(statePath_slot sound used).shape, Disk.isFile, held]
    rfl
  have served : u.machine.serve (.removeFile (slot.path u.root)) disk =
      .ok ((), disk.remove (slot.path u.root)) := if_pos ready
  exact Ensures.perform (shows.upheld here) (fun _ partway => partway.elim) served
    ((shows.remove sound used).upheld there) (shows.remove sound used)

theorem ensures_replaceFile {target : Slot} (sound : u.Sound) (used : slot.Used u)
    (targetUsed : target.Used u) (shows : Shows u view disk) (housed : Housed view slot)
    (targetHoused : Housed view target) {content : JsString}
    (file : view.own slot = some (.file content))
    (free : view.own target = none ∨ ∃ text, view.own target = some (.file text))
    (here : claim view) (there : claim ((view.put slot none).put target (some (.file content)))) :
    Ensures u.machine (Upheld u claim)
      (fun _ => Shows u ((view.put slot none).put target (some (.file content)))) failed
      (replaceFile (slot.path u.root) (target.path u.root)) disk := by
  have held := (shows.own slot).trans file
  have taken : (disk.held (target.path u.root) == none || disk.isFile (target.path u.root)) = true := by
    rw [Disk.isFile, shows.own target]
    rcases free with empty | ⟨text, other⟩
    · rw [empty]
      rfl
    · rw [other]
      rfl
  have served : u.machine.serve (.replaceFile (slot.path u.root) (target.path u.root)) disk =
      .ok ((), (disk.remove (slot.path u.root)).put (target.path u.root) (.file content)) := by
    show disk.replaceFile _ _ = _
    rw [Disk.replaceFile, (statePath_slot sound used).shape, (statePath_slot sound targetUsed).shape,
      hasParent_slot sound used shows housed, hasParent_slot sound targetUsed shows targetHoused, taken,
      held]
    rfl
  have moved := (shows.remove sound used).put sound targetUsed (.file content)
  exact Ensures.perform (shows.upheld here) (fun _ partway => partway.elim) served
    (moved.upheld there) moved

theorem isDirectory_of {path : JsString} (shape : isManagedPathShape path = true)
    (held : disk.held path = some .directory) : disk.isDirectory path = true := by
  rw [Disk.isDirectory, shape, held]
  simp

theorem ensures_syncDirectory {path : JsString} (shows : Shows u view disk)
    (directory : disk.isDirectory path = true) (here : claim view) :
    Ensures u.machine (Upheld u claim) (fun _ => Shows u view) failed (syncDirectory path) disk := by
  have served : u.machine.serve (.syncDirectory path) disk = .ok (disk.syncs 0, disk.synced) :=
    if_pos directory
  have later : Shows u view disk.synced := ⟨shows.1.synced, shows.2⟩
  exact Ensures.served (shows.upheld here) (fun _ partway => partway.elim) served
    ⟨later.upheld here, later⟩

theorem ensures_now (shows : Shows u view disk) (here : claim view) :
    Ensures u.machine (Upheld u claim)
      (fun reading final => timestampPattern reading = true ∧ Shows u view final) failed now disk := by
  have later : Shows u view disk.tick := ⟨shows.1.tick, shows.2⟩
  exact Ensures.perform (shows.upheld here) (fun _ partway => partway.elim) rfl (later.upheld here)
    ⟨(disk.clock 0).written, later⟩

theorem observes_inspect {path : JsString} (shape : isManagedPathShape path = true) :
    Observes u.machine (inspect path) disk (Node.entry u.services.sha256 (disk.held path)) := by
  have other : path ≠ js "." := by
    rintro rfl
    exact absurd shape (by decide)
  have served : u.machine.serve (.inspect path) disk =
      .ok (Node.entry u.services.sha256 (disk.held path), disk) := by
    show (if path = js "." then _ else _) = _
    rw [if_neg other, if_pos shape]
  exact Observes.call (fun _ partway => partway) served

theorem observes_slot (sound : u.Sound) (used : slot.Used u) (shows : Shows u view disk) :
    Observes u.machine (inspect (slot.path u.root)) disk
      (Node.entry u.services.sha256 (view.own slot)) := by
  rw [← shows.own slot]
  exact observes_inspect (statePath_slot sound used).shape

theorem observes_manifest (sound : u.Sound) (shows : Shows u view disk) :
    Observes u.machine (inspect (manifestPath u.root)) disk
      (Node.entry u.services.sha256 (view.own .manifest)) :=
  have used : Slot.Used u .manifest := trivial
  observes_slot sound used shows

theorem observes_next (sound : u.Sound) (shows : Shows u view disk) :
    Observes u.machine (inspect (nextPath u.root)) disk
      (Node.entry u.services.sha256 (view.own .next)) :=
  have used : Slot.Used u .next := trivial
  observes_slot sound used shows

theorem observes_staging (sound : u.Sound) (shows : Shows u view disk) :
    Observes u.machine (inspect (stagingRoot u.root)) disk
      (Node.entry u.services.sha256 (view.own .staging)) :=
  have used : Slot.Used u .staging := trivial
  observes_slot sound used shows

theorem observes_list {path : JsString} (shape : isManagedPathShape path = true)
    (directory : disk.held path = some .directory) :
    Observes u.machine (list path) disk (disk.entries u.services.localeCompare path) :=
  Observes.call (fun _ partway => partway) (if_pos ⟨shape, directory⟩)

theorem observes_readText {path content : JsString} (shape : isManagedPathShape path = true)
    (file : disk.held path = some (.file content)) :
    Observes u.machine (readText path) disk content := by
  refine Observes.call (fun _ partway => partway) ?_
  show disk.readText path = _
  rw [Disk.readText, file]
  exact if_pos shape

theorem ensures_removeStaging (sound : u.Sound) (shows : Shows u view disk)
    (directory : view.own .staging = some .directory) (gone : ∀ index, view.own (.payload index) = none)
    (here : claim view) (there : claim (view.put .staging none)) :
    Ensures u.machine (Upheld u claim) (fun _ => Shows u (view.put .staging none)) failed
      (removeEmptyDirectory (stagingRoot u.root)) disk := by
  have held : disk.held (stagingRoot u.root) = some .directory := (shows.own .staging).trans directory
  have empty : disk.storage.list (stagingRoot u.root) = [] := by
    refine List.eq_nil_iff_forall_not_mem.mpr fun name member => ?_
    obtain ⟨single, present⟩ := Storage.mem_list_iff.mp member
    obtain ⟨index, -, -, -, -, rfl⟩ := shows.1.payloads name single present
    exact present ((shows.own (.payload index)).trans (gone index))
  have used : Slot.Used u .staging := trivial
  have served : u.machine.serve (.removeEmptyDirectory (stagingRoot u.root)) disk =
      .ok ((), disk.remove (Slot.path u.root .staging)) :=
    if_pos ⟨(statePath_slot sound used).shape, held, empty⟩
  have later := shows.remove sound used
  exact Ensures.perform (shows.upheld here) (fun _ partway => partway.elim) served
    (later.upheld there) later

end Calls

end Kratos.Transactions
