/- source: composition/transactions.ts
   digest: What inspecting the transactions reports of one that stands, with every other as it was. -/

import Kratos.Transactions.Recording

set_option autoImplicit false

namespace Kratos.Transactions

open Foundation.Text Foundation.Crashes Durable Transactions.Driver

variable {u : Undertaking} {disk : Disk} {view : View} {progress : TransactionProgressV1} {front : Nat}

section Own

theorem observes_document {α : Type} {document : Document α} {slot : Slot} {a : α} (sound : u.Sound)
    (used : slot.Used u) (shows : Shows u view disk)
    (file : view.own slot = some (.file (document.text a))) (valid : document.valid a = true) :
    Observes u.machine (readDocument document (slot.path u.root)) disk a := by
  have shape := (statePath_slot sound used).shape
  have text : Observes u.machine (readRegularText (slot.path u.root)) disk (document.text a) := by
    refine (observes_slot sound used shows).bind ?_
    rw [file]
    exact observes_readText shape ((shows.own slot).trans file)
  refine text.bind ?_
  rw [document.read_text valid]
  exact rfl

theorem observes_readProgress (sound : u.Sound) (shows : Shows u view disk)
    (recorded : Recorded u progress view) :
    Observes u.machine (readProgress (progressPath u.root)) disk progress := by
  have used : Slot.Used u .progress := trivial
  exact observes_document sound used shows recorded.held recorded.valid

/-- The manifest that is bound is read back by whoever holds the progress it is bound to. -/
theorem observes_readRequiredManifest (sound : u.Sound) (shows : Shows u view disk)
    (bound : Bound u front progress view) :
    Observes u.machine (readRequiredManifest u.services u.root progress) disk
      (manifestOf u progress.createdAt) := by
  have used : Slot.Used u .manifest := trivial
  have document : Observes u.machine (readDocument manifestDocument (manifestPath u.root)) disk
      (manifestOf u progress.createdAt) :=
    observes_document sound used shows bound.manifest bound.writable
  refine document.bind ?_
  have agree : ¬((manifestOf u progress.createdAt).transactionId ≠ progress.transactionId ∨
      (manifestOf u progress.createdAt).createdAt ≠ progress.createdAt ∨
        (progress.manifestDigest.any fun digest =>
          digest != manifestDigestOf u.services (manifestOf u progress.createdAt)) = true) := by
    rw [bound.bound, bound.identified]
    simp [manifestOf]
  rw [manifestSemantics_plan sound, if_neg (by decide), if_neg agree]
  exact rfl

private theorem observes_loose {slot : Slot} (sound : u.Sound) (used : slot.Used u)
    (shows : Shows u view disk) (loose : Loose (view.own slot)) {failure : DriverFailure} :
    Observes u.machine (do
      let observed ← inspect (slot.path u.root)
      if observed ≠ .missing && !isFileEntry observed then .fail failure) disk () := by
  refine (observes_slot sound used shows).bind ?_
  rcases loose with empty | ⟨text, file⟩
  · rw [empty]
    exact rfl
  · rw [file]
    exact rfl

theorem observes_validateTransactionLayout (sound : u.Sound) (shows : Shows u view disk)
    (manifest : Loose (view.own .manifest)) (progress : Loose (view.own .progress))
    (next : Loose (view.own .next)) (housing : Housing view) :
    Observes u.machine (validateTransactionLayout u.root) disk () := by
  have listed : Observes u.machine (Driver.list u.root) disk _ :=
    observes_list (statePath_root sound).shape shows.1.root
  have known : ((disk.entries u.services.localeCompare u.root).any fun entry =>
      !layoutNames.contains entry) = false := by
    rw [List.any_eq_false]
    intro name member
    obtain ⟨single, present⟩ := Disk.mem_entries_iff.mp member
    rw [List.contains_iff_mem.mpr (shows.1.names name single present)]
    decide
  have usedManifest : Slot.Used u .manifest := trivial
  have usedProgress : Slot.Used u .progress := trivial
  have usedNext : Slot.Used u .next := trivial
  unfold validateTransactionLayout
  refine listed.bind ?_
  rw [known, if_neg Bool.false_ne_true]
  have files : Observes u.machine
      ([manifestPath u.root, progressPath u.root, nextPath u.root].forM fun path => do
        let observed ← inspect path
        if observed ≠ .missing && !isFileEntry observed then .fail (corrupt path)) disk () :=
    (observes_loose sound usedManifest shows manifest).bind
      ((observes_loose sound usedProgress shows progress).bind
        ((observes_loose sound usedNext shows next).bind rfl))
  refine files.bind ?_
  refine (observes_staging sound shows).bind ?_
  rcases housing with directory | ⟨missing, -⟩
  · rw [directory]
    exact rfl
  · rw [missing]
    exact rfl

/-- What is reported of a transaction with a progress. -/
def summaryOf (u : Undertaking) (progress : TransactionProgressV1) : TransactionSummary :=
  ⟨u.transactionId, progress.manifestDigest, progress.recoveryToken, progress.phase⟩

private theorem observes_summary (sound : u.Sound) (shows : Shows u view disk)
    (recorded : Recorded u progress view) (manifest : Loose (view.own .manifest))
    (housing : Housing view)
    (identity : Observes u.machine (validatePersistedIdentity u.services progress u.root) disk ()) :
    Observes u.machine (summarize u.services u.transactionId) disk (summaryOf u progress) := by
  have root : Observes u.machine (inspect u.root) disk _ := observes_inspect (statePath_root sound).shape
  have text : Loose (view.own .progress) := .inr ⟨_, recorded.held⟩
  refine root.bind ?_
  rw [shows.1.root, if_neg (fun other => other rfl)]
  refine (observes_validateTransactionLayout sound shows manifest text recorded.scratch housing).bind ?_
  refine (observes_readProgress sound shows recorded).bind ?_
  rw [if_neg (not_not.mpr recorded.identified)]
  exact identity.bind rfl

theorem Unbound.observes_summarize (unbound : Unbound u progress view) (sound : u.Sound)
    (shows : Shows u view disk) :
    Observes u.machine (summarize u.services u.transactionId) disk (summaryOf u progress) := by
  refine observes_summary sound shows unbound.toRecorded unbound.manifest unbound.housing ?_
  unfold validatePersistedIdentity
  simp only [unbound.unbound, unbound.token, unbound.identified, BEq.rfl, Bool.not_true,
    Bool.false_eq_true, if_false, Option.isSome_none]
  exact (observes_manifest sound shows).bind rfl

theorem Bound.housing (bound : Bound u front progress view) : Housing view := by
  have stage := bound.stage
  unfold Stage at stage
  cases phase : progress.phase with
  | begun =>
      rw [phase] at stage
      exact stage.elim
  | prepared =>
      rw [phase] at stage
      exact .inl stage.2.2.1
  | publishing =>
      rw [phase] at stage
      obtain ⟨count, -, -, -, -, staging, -⟩ := stage
      exact .inl staging
  | committed | aborted =>
      rw [phase] at stage
      exact stage.2.2.1

theorem Bound.observes_summarize (bound : Bound u front progress view) (sound : u.Sound)
    (shows : Shows u view disk) :
    Observes u.machine (summarize u.services u.transactionId) disk (summaryOf u progress) := by
  refine observes_summary sound shows bound.toRecorded (.inr ⟨_, bound.manifest⟩) bound.housing ?_
  unfold validatePersistedIdentity
  simp only [bound.bound, bound.token, BEq.rfl, Bool.not_true, Bool.false_eq_true, if_false,
    Option.isSome_some, if_true]
  refine (observes_manifest sound shows).bind ?_
  rw [bound.manifest]
  exact (observes_readRequiredManifest sound shows bound).bind rfl

end Own

section Others

/-- The calls that look at a path and at what lies beneath it. -/
def Looks (root : JsString) : DurableCall → Prop
  | .inspect path | .list path | .readText path => Storage.within root path = true
  | _ => False

variable {services : TransactionServices} {root : JsString}

private theorem within_slot (root name : JsString) :
    Storage.within root (root ++ (js "/" ++ name)) = true :=
  Storage.within_append (.inr ⟨name, rfl⟩)

private theorem calls_inspect {path : JsString} (inside : Storage.within root path = true) :
    (inspect path).Calls (Looks root) := Program.Calls.perform inside

private theorem calls_readDocument {α : Type} {document : Document α} {path : JsString}
    (inside : Storage.within root path = true) : (readDocument document path).Calls (Looks root) := by
  refine Program.Calls.bind (.bind (calls_inspect inside) fun entry => ?_) fun text => ?_
  · split
    · exact True.intro
    · exact Program.Calls.perform inside
  · split <;> exact True.intro

private theorem calls_validateTransactionLayout (root : JsString) :
    (validateTransactionLayout root).Calls (Looks root) := by
  have here : Storage.within root root = true :=
    Storage.within_iff.mpr ⟨[], .inl rfl, (List.append_nil root).symm⟩
  have loose : ∀ path, Storage.within root path = true → (do
      let observed ← inspect path
      if observed ≠ .missing && !isFileEntry observed then .fail (corrupt path) :
        Driver Unit).Calls (Looks root) := by
    intro path inside
    refine Program.Calls.bind (calls_inspect inside) fun entry => ?_
    split <;> exact True.intro
  refine Program.Calls.bind (Program.Calls.perform here) fun entries => ?_
  split
  · exact True.intro
  · refine Program.Calls.bind (.bind (loose _ (within_slot root _)) fun _ =>
      .bind (loose _ (within_slot root _)) fun _ => .bind (loose _ (within_slot root _)) fun _ => True.intro)
      fun _ => ?_
    refine Program.Calls.bind (calls_inspect (within_slot root _)) fun staging => ?_
    split <;> exact True.intro

private theorem calls_validatePersistedIdentity (progress : TransactionProgressV1) :
    (validatePersistedIdentity services progress root).Calls (Looks root) := by
  have bound : ∀ bound : Bool, (if !bound then .fail (corrupt (progressPath root)) else do
      let manifestEntry ← inspect (manifestPath root)
      if progress.manifestDigest.isSome then
        if !isFileEntry manifestEntry then .fail (corrupt (manifestPath root))
        else
          let _ ← readRequiredManifest services root progress : Driver Unit).Calls (Looks root) := by
    intro bound
    split
    · exact True.intro
    · refine Program.Calls.bind (calls_inspect (within_slot root _)) fun entry => ?_
      split
      · split
        · exact True.intro
        · refine Program.Calls.bind ?_ fun _ => True.intro
          refine Program.Calls.bind (calls_readDocument (within_slot root _)) fun value => ?_
          split
          · exact True.intro
          · split <;> exact True.intro
      · exact True.intro
  exact bound _

theorem calls_summarize (name : JsString) :
    (summarize services name).Calls (Looks (transactionRoot name)) := by
  have here : Storage.within (transactionRoot name) (transactionRoot name) = true :=
    Storage.within_iff.mpr ⟨[], .inl rfl, (List.append_nil _).symm⟩
  refine Program.Calls.bind (calls_inspect here) fun found => ?_
  split
  · exact True.intro
  · refine Program.Calls.bind (calls_validateTransactionLayout _) fun _ => ?_
    refine Program.Calls.bind (calls_readDocument (within_slot _ _)) fun progress => ?_
    split
    · exact True.intro
    · exact Program.Calls.bind (calls_validatePersistedIdentity progress) fun _ => True.intro

theorem yields_summarize (name : JsString) :
    (summarize services name).Yields fun summary => summary.transactionId = name := by
  refine Program.Yields.bind fun found => ?_
  split
  · exact True.intro
  · refine Program.Yields.bind fun _ => Program.Yields.bind fun progress => ?_
    split
    · exact True.intro
    · exact Program.Yields.bind fun _ => rfl

theorem apart_within {name path : JsString} (single : unit '/' ∉ name) (own : unit '/' ∉ u.transactionId)
    (different : name ≠ u.transactionId) (inside : Storage.within (transactionRoot name) path = true) :
    Storage.within u.root path = false := by
  have front : ∀ {first rest : JsString}, unit '/' ∉ first → Storage.Extension rest →
      (first ++ rest).takeWhile (fun part => part != unit '/') = first := by
    intro first rest plain extension
    rw [List.takeWhile_append_of_pos]
    · rcases extension with rfl | ⟨tail, rfl⟩
      · rw [List.takeWhile_nil, List.append_nil]
      · rw [show js "/" ++ tail = unit '/' :: tail from rfl, List.takeWhile_cons_of_neg (by simp),
          List.append_nil]
    · intro part member
      rw [bne_iff_ne]
      rintro rfl
      exact plain member
  rw [Bool.eq_false_iff]
  intro also
  obtain ⟨rest, extension, rfl⟩ := Storage.within_iff.mp inside
  obtain ⟨tail, other, same⟩ := Storage.within_iff.mp also
  simp only [Undertaking.root, transactionRoot, List.append_assoc, List.append_cancel_left_eq] at same
  have names := congrArg (List.takeWhile fun part => part != unit '/') same
  rw [front single extension, front own other] at names
  exact different names

theorem Anchored.observes_other (anchored : Anchored u disk) (sound : u.Sound) {name : JsString}
    (single : unit '/' ∉ name) (different : name ≠ u.transactionId) {summary : TransactionSummary}
    (observed : Observes u.machine (summarize u.services name) u.start summary) :
    Observes u.machine (summarize u.services name) disk summary := by
  have own := (plainName_id sound.identified).noSlash
  have inside : ∀ {path}, Storage.within (transactionRoot name) path = true →
      Storage.within transactionsRoot path = true := by
    intro path within
    obtain ⟨rest, extension, rfl⟩ := Storage.within_iff.mp within
    have same : transactionRoot name ++ rest = transactionsRoot ++ (js "/" ++ (name ++ rest)) := by
      simp only [transactionRoot, List.append_assoc]
    rw [same]
    exact Storage.within_append (.inr ⟨_, rfl⟩)
  have held : ∀ {path}, Storage.within (transactionRoot name) path = true →
      disk.held path = u.start.held path := fun within =>
    anchored.others _ (inside within) (apart_within single own different within)
  have listed : ∀ {path}, Storage.within (transactionRoot name) path = true →
      disk.storage.list path = u.start.storage.list path := by
    intro path within
    refine anchored.listings path (inside within) ?_ (apart_within single own different within)
    rintro rfl
    obtain ⟨rest, -, same⟩ := Storage.within_iff.mp within
    have length := congrArg List.length same
    have slash : (js "/").length = 1 := rfl
    simp only [transactionRoot, List.length_append, slash] at length
    omega
  refine observed.transport (fun request reply region whole served => ?_) (calls_summarize name)
  revert served
  cases request with
  | inspect path =>
      refine fun served => ⟨fun _ partway => partway, ?_⟩
      revert served
      show (if path = js "." then _ else if isManagedPathShape path then _ else _) = _ →
        (if path = js "." then _ else if isManagedPathShape path then _ else _) = _
      rw [held region]
      split
      · rintro ⟨⟩
        rfl
      · split
        · rintro ⟨⟩
          rfl
        · rintro ⟨⟩
  | list path =>
      have entries : disk.entries u.services.localeCompare path =
          u.start.entries u.services.localeCompare path := by
        rw [Disk.entries, Disk.entries, listed region]
      refine fun served => ⟨fun _ partway => partway, ?_⟩
      revert served
      show (if isManagedPathShape path = true ∧ u.start.held path = some .directory then _ else _) = _ →
        (if isManagedPathShape path = true ∧ disk.held path = some .directory then _ else _) = _
      rw [held region, entries]
      split
      · rintro ⟨⟩
        rfl
      · rintro ⟨⟩
  | readText path =>
      refine fun served => ⟨fun _ partway => partway, ?_⟩
      revert served
      show u.start.readText path = _ → disk.readText path = _
      unfold Disk.readText
      rw [held region]
      split
      · split
        · rintro ⟨⟩
          rfl
        · rintro ⟨⟩
      · rintro ⟨⟩
  | _ => exact region.elim

private theorem find_summary {names : List JsString} {summaries : List TransactionSummary}
    {summary : TransactionSummary} {transactionId : JsString}
    (own : summary.transactionId = transactionId)
    (paired : List.Forall₂ (fun name value =>
      value.transactionId = name ∧ (name = transactionId → value = summary)) names summaries)
    (present : transactionId ∈ names) :
    (summaries.find? fun candidate => candidate.transactionId == transactionId) = some summary := by
  induction paired with
  | nil => cases present
  | @cons name value others values fits rest ih =>
      rw [List.find?_cons]
      by_cases here : name = transactionId
      · rw [fits.2 here, own, BEq.rfl]
      · have other : (value.transactionId == transactionId) = false := by
          rw [fits.1]
          exact beq_eq_false_iff_ne.mpr here
        rw [other]
        exact ih ((List.mem_cons.mp present).resolve_left fun equal => here equal.symm)

theorem observes_inspectManagedTransactions (sound : u.Sound) (anchored : Anchored u disk)
    {summary : TransactionSummary} (own : summary.transactionId = u.transactionId)
    (observed : Observes u.machine (summarize u.services u.transactionId) disk summary) :
    ∃ summaries, Observes u.machine (inspectManagedTransactions u.services) disk summaries ∧
      (summaries.find? fun candidate => candidate.transactionId == u.transactionId) = some summary := by
  have plain := plainName_id sound.identified
  let names := (disk.entries u.services.localeCompare transactionsRoot).mergeSort fun left right =>
    decide (u.services.localeCompare left right ≤ 0)
  have listed : ∀ name, name ∈ names ↔ unit '/' ∉ name ∧ disk.held (transactionRoot name) ≠ none := by
    intro name
    rw [List.mem_mergeSort]
    exact Disk.mem_entries_iff
  have each : ∀ name ∈ names, ∃ value, Observes u.machine (summarize u.services name) disk value ∧
      value.transactionId = name ∧ (name = u.transactionId → value = summary) := by
    intro name member
    obtain ⟨single, present⟩ := (listed name).mp member
    by_cases same : name = u.transactionId
    · subst same
      exact ⟨summary, observed, own, fun _ => rfl⟩
    · have inside : Storage.within (transactionRoot name) (transactionRoot name) = true :=
        Storage.within_iff.mpr ⟨[], .inl rfl, (List.append_nil _).symm⟩
      have outside := apart_within single plain.noSlash same inside
      have held : disk.held (transactionRoot name) = u.start.held (transactionRoot name) :=
        anchored.others _ (within_slot transactionsRoot name) outside
      rw [held] at present
      obtain ⟨value, looked⟩ := sound.legible name single present
      exact ⟨value, anchored.observes_other sound single same looked, looked.yields (yields_summarize name),
        fun equal => absurd equal same⟩
  obtain ⟨summaries, looked, paired⟩ := Observes.mapM_forall₂ each
  refine ⟨summaries, ?_, ?_⟩
  · have brain : Observes u.machine (inspect Driver.brain) disk _ := observes_inspect (by decide)
    have transactions : Observes u.machine (inspect transactionsRoot) disk _ := observes_inspect (by decide)
    refine brain.bind ?_
    rw [anchored.brain]
    refine transactions.bind ?_
    rw [anchored.transactions]
    exact (observes_list (by decide) anchored.transactions).bind looked
  · have present : u.transactionId ∈ names := by
      refine (listed _).mpr ⟨plain.noSlash, ?_⟩
      show disk.held u.root ≠ none
      rw [anchored.root]
      exact Option.some_ne_none _
    exact find_summary own paired present

end Others

end Kratos.Transactions
