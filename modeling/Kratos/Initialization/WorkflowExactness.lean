/- source: domain/init/tasks.ts
   digest: A readable workflow is read exactly where nothing below its keys looks like a step. -/

import Kratos.Initialization.WorkflowEntries
import Kratos.Initialization.WorkflowReading

set_option autoImplicit false

namespace Kratos.Initialization.WorkflowExactness

open Foundation.Text Initialization Initialization.WorkflowDocument Initialization.WorkflowReading
open Initialization.WorkflowEntries

section Folding

variable {σ β γ : Type}

/-- A fold that writes a field at one entry only ends with what that entry gives. -/
theorem foldl_found (step : σ → β → σ) (field : σ → Option γ) (mine : β → Bool) (gives : β → Option γ)
    {entries : List β} (sole : entries.Pairwise fun entry later => mine entry = true → mine later = false)
    (hit : ∀ entry ∈ entries, mine entry = true → ∀ s, field (step s entry) = (gives entry).or (field s))
    (miss : ∀ entry ∈ entries, mine entry = false → ∀ s, field (step s entry) = field s) (s : σ) :
    field (entries.foldl step s) = ((entries.find? mine).bind gives).or (field s) := by
  induction entries generalizing s with
  | nil => rfl
  | cons entry rest ih =>
      obtain ⟨alone, soles⟩ := List.pairwise_cons.mp sole
      obtain ⟨hitFirst, hits⟩ := List.forall_mem_cons.mp hit
      obtain ⟨missFirst, misses⟩ := List.forall_mem_cons.mp miss
      have later := ih soles hits misses (step s entry)
      rw [List.foldl_cons, later]
      cases own : mine entry with
      | true =>
          have absent : rest.find? mine = none :=
            List.find?_eq_none.mpr fun other member => by simp [alone other member own]
          rw [absent, List.find?_cons_of_pos own, hitFirst own]
          rfl
      | false => rw [List.find?_cons_of_neg (by simp [own]), missFirst own]

end Folding

section Items

variable {job : JobDraft} {item : Item} {dash : Nat}

/-- The lines below the first key and the keys that follow, where a key stands behind the dash. -/
def lead (item : Item) : List Line × List Entry :=
  match item.alone, item.entries with
  | none, first :: rest => (first.nested, rest)
  | _, entries => ([], entries)

theorem below_eq (dash : Nat) (item : Item) :
    item.below dash = (lead item).1 ++ (lead item).2.flatMap (Entry.lines (item.column dash)) := by
  obtain ⟨alone, inset, entries⟩ := item
  cases alone with
  | some after => rfl
  | none => cases entries <;> rfl

theorem placed_entries (item : Item) : item.placed.map Prod.snd = item.entries := by
  obtain ⟨alone, inset, entries⟩ := item
  have below : ∀ all : List Entry, (all.map (Prod.mk false)).map Prod.snd = all := fun all => by
    rw [List.map_map]
    exact List.map_id all
  cases alone with
  | some after => exact below entries
  | none =>
      cases entries with
      | nil => rfl
      | cons first rest => exact congrArg (first :: ·) (below rest)

theorem lead_looks (item : Item) :
    (looksLikeStep (lead item).1 || (lead item).2.any fun entry => looksLikeStep entry.nested) =
      item.entries.any fun entry => looksLikeStep entry.nested := by
  obtain ⟨alone, inset, entries⟩ := item
  cases alone with
  | some after => rfl
  | none => cases entries <;> rfl

theorem lead_placed {entry : Entry} (member : entry ∈ (lead item).2) : (false, entry) ∈ item.placed := by
  obtain ⟨alone, inset, entries⟩ := item
  cases alone with
  | some after => exact List.mem_map_of_mem member
  | none =>
      cases entries with
      | nil => exact absurd member List.not_mem_nil
      | cons first rest => exact List.mem_cons_of_mem _ (List.mem_map_of_mem member)

theorem lead_below {column : Nat} (below : ∀ entry ∈ item.entries, Below column entry.nested) :
    Below column (lead item).1 ∧ ∀ entry ∈ (lead item).2, Below column entry.nested := by
  obtain ⟨alone, inset, entries⟩ := item
  have nothing : Below column [] := fun line member => absurd member List.not_mem_nil
  cases alone with
  | some after => exact ⟨nothing, below⟩
  | none =>
      cases entries with
      | nil => exact ⟨nothing, below⟩
      | cons first rest => exact List.forall_mem_cons.mp below

/-- The draft that an item's dash opens, before anything is read into it. -/
def blank (dash : Nat) (item : Item) : StepDraft :=
  { contentIndent := dash + 1 + (item.opening.length - (trimStart item.opening).length)
    name := none
    run := none }

def readPlace (draft : StepDraft) (place : Bool × Entry) : StepDraft :=
  assign draft (place.2.readAs place.1)

theorem foldl_below (draft : StepDraft) (entries : List Entry) :
    (entries.map (Prod.mk false)).foldl readPlace draft = gathered draft entries := by
  rw [List.foldl_map]
  rfl

theorem keyOf_comment {text : JsString} (ignorable : isIgnorable text = true) : keyOf (trim text) = none := by
  have unkeyed : (trim text).takeWhile isKeyUnit = [] := by
    cases trimmed : trim text with
    | nil => rfl
    | cons u rest =>
        rw [isIgnorable, trimmed, List.isEmpty_cons, Bool.false_or, startsWith_iff] at ignorable
        obtain ⟨more, same⟩ := ignorable
        obtain rfl : u = unit '#' := (List.cons.inj same).1
        exact List.takeWhile_cons_of_neg (by decide)
  rw [keyOf, unkeyed]

def leading (item : Item) : List (Bool × Entry) :=
  match item.alone, item.entries with
  | none, first :: _ => [(true, first)]
  | _, _ => []

theorem placed_eq (item : Item) : item.placed = leading item ++ (lead item).2.map (Prod.mk false) := by
  obtain ⟨alone, inset, entries⟩ := item
  cases alone with
  | some after => rfl
  | none => cases entries <;> rfl

theorem openedStep_item (laid : item.Laid dash) :
    openedStep dash (unit '-' :: item.opening) = (leading item).foldl readPlace (blank dash item) := by
  obtain ⟨alone, inset, entries⟩ := item
  cases alone with
  | some after =>
      have opened : openedStep dash (unit '-' :: after) = blank dash ⟨some after, inset, entries⟩ := by
        rw [openedStep, List.drop_one, List.tail_cons, assign, keyOf_comment (laid.alone after rfl)]
        rfl
      exact opened
  | none =>
      cases entries with
      | nil => rfl
      | cons first rest =>
          have spaces : ∀ u ∈ List.replicate inset (unit ' '), isWhiteSpace u = true := fun u member => by
            rw [List.eq_of_mem_replicate member]
            decide
          have text : trim (Item.mk none inset (first :: rest)).opening = trim first.text :=
            congrArg trimEnd (trimStart_pad spaces first.text)
          rw [openedStep, List.drop_one, List.tail_cons, text]
          rfl

theorem gathered_item (laid : item.Laid dash) :
    gathered (openedStep dash (unit '-' :: item.opening)) (lead item).2 =
      item.placed.foldl readPlace (blank dash item) := by
  rw [openedStep_item laid, placed_eq, List.foldl_append, foldl_below]

theorem foldl_silent {places : List (Bool × Entry)} {draft : StepDraft} (bare : draft.run = none)
    (silent : ∀ place ∈ places, statesRun (place.2.readAs place.1) = false) :
    (places.foldl readPlace draft).run = none := by
  induction places generalizing draft with
  | nil => exact bare
  | cons place rest ih =>
      obtain ⟨first, others⟩ := List.forall_mem_cons.mp silent
      exact ih (assign_run_none bare first) others

theorem settled_silent {draft : StepDraft} {nested : List Line} {entries : List Entry}
    (bare : draft.run = none) (silent : ∀ entry ∈ entries, statesRun entry.text = false) :
    Settled job draft nested entries := by
  induction entries generalizing draft nested with
  | nil => trivial
  | cons entry rest ih =>
      obtain ⟨first, others⟩ := List.forall_mem_cons.mp silent
      have later : (gathered draft (entry :: rest)).run = none := by
        rw [← foldl_below]
        refine foldl_silent bare fun place member => ?_
        obtain ⟨other, inside, rfl⟩ := List.mem_map.mp member
        exact silent other inside
      exact ⟨fun _ => by rw [output_bare later, output_bare bare], ih (assign_run_none bare first) others⟩

/-- A key that is read neither as a name nor as a run. -/
def Inert (entry : Entry) : Prop := ReadsNot (js "name") entry.text ∧ ReadsNot (js "run") entry.text

theorem gathered_inert {draft : StepDraft} {entries : List Entry} (inert : ∀ entry ∈ entries, Inert entry) :
    gathered draft entries = draft := by
  induction entries generalizing draft with
  | nil => rfl
  | cons entry rest ih =>
      obtain ⟨first, others⟩ := List.forall_mem_cons.mp inert
      exact (ih others).trans (assign_other first.1 first.2 draft)

theorem settled_ordered {draft : StepDraft} {nested : List Line} {entries : List Entry}
    (first : nested.any Line.dashed = true → ∀ entry ∈ entries, Inert entry)
    (ordered : entries.Pairwise fun entry later => entry.nested.any Line.dashed = true → Inert later) :
    Settled job draft nested entries := by
  induction entries generalizing draft nested with
  | nil => trivial
  | cons entry rest ih =>
      obtain ⟨next, others⟩ := List.pairwise_cons.mp ordered
      exact ⟨fun dashes => by rw [gathered_inert (first dashes)],
        ih (fun dashes later member => next later member dashes) others⟩

theorem find_placed (key : JsString) (item : Item) :
    (item.placed.find? fun place => decide (place.2.key.meaning = key)).map Prod.snd =
      lookup key item.entries := by
  rw [lookup, ← placed_entries item, List.find?_map]
  rfl

section Told

variable {place : Bool × Entry}

theorem readPlace_name (tells : item.Tells) (member : place ∈ item.placed) (draft : StepDraft) :
    (readPlace draft place).name =
      if place.2.key.meaning = js "name" then place.2.value.meaning.or draft.name else draft.name := by
  split
  · rename_i named
    have answers := tells.name place member named
    obtain ⟨value, held, -⟩ := answers.value
    rw [readPlace, assign_name answers, held]
    rfl
  · rename_i other
    by_cases run : place.2.key.meaning = js "run"
    · rw [readPlace, assign_run (tells.run place member run)]
    · have apart := tells.others place member other run
      rw [readPlace, assign_other apart.1 apart.2]

theorem readPlace_run (tells : item.Tells) (member : place ∈ item.placed) (draft : StepDraft) :
    (readPlace draft place).run =
      if place.2.key.meaning = js "run" then place.2.command.or draft.run else draft.run := by
  split
  · rename_i run
    rw [readPlace, assign_run (tells.run place member run)]
  · rename_i other
    by_cases named : place.2.key.meaning = js "name"
    · rw [readPlace, assign_name (tells.name place member named)]
    · have apart := tells.others place member named other
      rw [readPlace, assign_other apart.1 apart.2]

theorem placed_sole (mapping : (item.entries.map fun entry => entry.key.meaning).Nodup) (key : JsString) :
    item.placed.Pairwise fun place later =>
      decide (place.2.key.meaning = key) = true → decide (later.2.key.meaning = key) = false := by
  rw [← placed_entries item, List.map_map] at mapping
  refine (List.pairwise_map.mp mapping).imp fun differ own => ?_
  simp only [decide_eq_true_eq, decide_eq_false_iff_not] at own ⊢
  exact fun also => differ (own.trans also.symm)

theorem foldl_name (mapping : (item.entries.map fun entry => entry.key.meaning).Nodup) (tells : item.Tells)
    (draft : StepDraft) : (item.placed.foldl readPlace draft).name = item.name.or draft.name := by
  have found := foldl_found readPlace StepDraft.name (fun place => decide (place.2.key.meaning = js "name"))
    (fun place => place.2.value.meaning) (placed_sole mapping _)
    (fun place member own start => by
      rw [readPlace_name tells member, if_pos (of_decide_eq_true own)])
    (fun place member other start => by
      rw [readPlace_name tells member, if_neg (of_decide_eq_false other)]) draft
  rw [found, Item.name, ← find_placed, Option.bind_map]
  rfl

theorem foldl_run (mapping : (item.entries.map fun entry => entry.key.meaning).Nodup) (tells : item.Tells)
    (draft : StepDraft) : (item.placed.foldl readPlace draft).run = item.run.or draft.run := by
  have found := foldl_found readPlace StepDraft.run (fun place => decide (place.2.key.meaning = js "run"))
    (fun place => place.2.command) (placed_sole mapping _)
    (fun place member own start => by
      rw [readPlace_run tells member, if_pos (of_decide_eq_true own)])
    (fun place member other start => by
      rw [readPlace_run tells member, if_neg (of_decide_eq_false other)]) draft
  rw [found, Item.run, ← find_placed, Option.bind_map]
  rfl

end Told

/-- The step an item lists, under the name its job has. -/
def told (job : JobDraft) (item : Item) : List WorkflowStep :=
  (item.run.map fun run => { job := job.id, jobName := job.name, name := item.name, run := run }).toList

theorem output_item (laid : item.Laid dash) (readable : item.Readable) :
    output job (some (item.placed.foldl readPlace (blank dash item))) = told job item := by
  cases listed : item.run with
  | none =>
      rw [output_bare (foldl_silent rfl (readable.silent listed)), told, listed]
      rfl
  | some run =>
      have tells := readable.told (by simp [listed])
      have name := (foldl_name laid.mapping.distinct tells (blank dash item)).trans Option.or_none
      have held := (foldl_run laid.mapping.distinct tells (blank dash item)).trans Option.or_none
      simp only [output, drafted, held, listed, name, told]
      rfl

theorem lead_dashless (readable : item.Readable) :
    ∀ entry ∈ (lead item).2, startsWith entry.text (js "-") = false :=
  fun _ member => readable.dashless _ (lead_placed member) rfl

theorem openedStep_silent (laid : item.Laid dash) (readable : item.Readable) (listed : item.run = none) :
    (openedStep dash (unit '-' :: item.opening)).run = none := by
  rw [openedStep_item laid]
  refine foldl_silent rfl fun place member => readable.silent listed place ?_
  rw [placed_eq]
  exact List.mem_append_left _ member

/-- No name and no run of an item comes after a dash below one of its keys. -/
theorem lead_ordered (tells : item.Tells) :
    ((lead item).1.any Line.dashed = true → ∀ entry ∈ (lead item).2, Inert entry) ∧
      (lead item).2.Pairwise fun entry later => entry.nested.any Line.dashed = true → Inert later := by
  have inert : ∀ entry ∈ (lead item).2, entry.key.meaning ≠ js "name" ∧ entry.key.meaning ≠ js "run" →
      Inert entry := fun entry member apart => tells.others (false, entry) (lead_placed member) apart.1 apart.2
  have ordered := tells.ordered
  have later : (lead item).2.Pairwise fun entry later => entry.nested.any Line.dashed = true →
      later.key.meaning ≠ js "name" ∧ later.key.meaning ≠ js "run" := by
    rw [← placed_entries, placed_eq, List.map_append, List.map_map] at ordered
    have kept := (List.pairwise_append.mp ordered).2.1
    rwa [show (Prod.snd ∘ Prod.mk false : Entry → Entry) = id from rfl, List.map_id] at kept
  refine ⟨?_, later.imp_of_mem fun _ inside apart dashes => inert _ inside (apart dashes)⟩
  obtain ⟨alone, inset, entries⟩ := item
  cases alone with
  | some after => exact fun impossible => absurd impossible Bool.false_ne_true
  | none =>
      cases entries with
      | nil => exact fun impossible => absurd impossible Bool.false_ne_true
      | cons first rest =>
          exact fun dashes entry member => inert entry member ((List.pairwise_cons.mp ordered).1 entry member dashes)

theorem lead_settled (laid : item.Laid dash) (readable : item.Readable) :
    Settled job (openedStep dash (unit '-' :: item.opening)) (lead item).1 (lead item).2 := by
  cases listed : item.run with
  | none =>
      exact settled_silent (openedStep_silent laid readable listed)
        fun entry member => readable.silent listed (false, entry) (lead_placed member)
  | some run =>
      have ordered := lead_ordered (readable.told (by simp [listed]))
      exact settled_ordered ordered.1 ordered.2

/-- A readable item adds the step it lists, and more where lines below its keys look like a step. -/
theorem scan_item (progress : Progress) (laid : item.Laid dash) (readable : item.Readable) :
    Grows (closed job progress) (closed job (scan job progress (item.lines dash))) (told job item)
      (item.entries.any fun entry => looksLikeStep entry.nested) := by
  have header : (Line.mk dash (unit '-' :: item.opening)).dashed = true := rfl
  obtain ⟨inner, below⟩ := lead_below laid.mapping.below
  have column : (openedStep dash (unit '-' :: item.opening)).contentIndent =
      dash + 1 + (item.opening.length - (trimStart item.opening).length) := by
    rw [openedStep, assign_contentIndent, List.drop_one, List.tail_cons]
  rw [Item.lines, scan_cons, scanLine_dashed header, below_eq, ← lead_looks]
  by_cases placed : item.opening.length - (trimStart item.opening).length = item.inset
  · rw [placed, ← Item.column] at column
    have added := scan_entries job (closed job progress) (openedStep dash (unit '-' :: item.opening))
      (lead item).1 (by rwa [column]) (by rwa [column]) (lead_dashless readable) (lead_settled laid readable)
    rwa [column, gathered_item laid, output_item laid readable] at added
  · -- A lone dash whose keys are not where they are sought lists nothing, and nothing is read.
    obtain ⟨alone, listed⟩ := not_or.mp (mt readable.column placed)
    have nothing := not_not.mp listed
    obtain ⟨after, lone⟩ := Option.ne_none_iff_exists'.mp alone
    have bare := openedStep_silent laid readable nothing
    have first : (lead item).1 = [] := by simp [lead, lone]
    have lost := scan_lost job (closed job progress, some (openedStep dash (unit '-' :: item.opening)))
      below (lead_dashless readable) fun draft opened => by
        obtain rfl := Option.some.inj opened
        rw [column, Item.column]
        omega
    rw [closed, output_bare bare, List.append_nil] at lost
    rw [first, List.nil_append, looksLikeStep, Bool.false_or, told, nothing]
    exact lost

variable (job) in
theorem scan_items {items : List Item} (progress : Progress) (laid : ∀ item ∈ items, item.Laid dash)
    (readable : ∀ item ∈ items, item.Readable) :
    Grows (closed job progress) (closed job (scan job progress (items.flatMap (Item.lines dash))))
      (items.flatMap (told job))
      (items.any fun item => item.entries.any fun entry => looksLikeStep entry.nested) := by
  induction items generalizing progress with
  | nil => exact .refl _
  | cons item rest ih =>
      obtain ⟨first, others⟩ := List.forall_mem_cons.mp laid
      obtain ⟨reads, read⟩ := List.forall_mem_cons.mp readable
      rw [List.flatMap_cons, scan_append, List.flatMap_cons, List.any_cons]
      exact (scan_item progress first reads).trans (ih _ others read)

theorem below_item {column : Nat} (deep : column ≤ dash) (laid : item.Laid dash) :
    Below column (item.lines dash) := by
  obtain ⟨inner, below⟩ := lead_below laid.mapping.below
  have deeper : column < item.column dash := by
    rw [Item.column]
    omega
  have lowered : ∀ lines, Below (item.column dash) lines → Below column lines := fun lines placed line member =>
    ⟨(Nat.le_of_lt deeper).trans (placed line member).1, fun plain => deeper.trans ((placed line member).2 plain)⟩
  rw [Item.lines, below_eq]
  have header : (Line.mk dash (unit '-' :: item.opening)).dashed = true := rfl
  refine List.forall_mem_cons.mpr ⟨⟨deep, fun plain => absurd (header.symm.trans plain) (by decide)⟩,
    fun line member => ?_⟩
  rcases List.mem_append.mp member with first | later
  · exact lowered _ inner line first
  · obtain ⟨entry, inside, member⟩ := List.mem_flatMap.mp later
    rcases List.mem_cons.mp member with rfl | nested
    · exact ⟨Nat.le_of_lt deeper, fun _ => deeper⟩
    · exact lowered _ (below entry inside) line nested

end Items

section Jobs

variable {jobIndent column : Nat} {draft : JobDraft} {progress : Progress} {steps : List WorkflowStep}

theorem readsNot_dashed {body key : JsString} (dashed : startsWith body (js "-") = true)
    (other : key.head? ≠ some (unit '-')) : ReadsNot key body := by
  obtain ⟨rest, rfl⟩ := (startsWith_iff _ _).mp dashed
  intro read
  have starts : (js "-" ++ rest).takeWhile isKeyUnit = unit '-' :: rest.takeWhile isKeyUnit :=
    List.takeWhile_cons_of_pos (by decide)
  rw [keyOf, starts] at read
  simp only [Option.map_map, Option.map_eq_some_iff] at read
  obtain ⟨value, -, same⟩ := read
  exact other (by rw [← same]; rfl)

theorem renamed_other {body : JsString} (other : ReadsNot (js "name") body) : renamed draft body = draft := by
  rw [renamed]
  cases read : keyOf body with
  | none => rfl
  | some entry =>
      have apart : entry.1 ≠ js "name" := fun same => other (by rw [read, Option.map_some, same])
      exact if_neg apart

theorem renamed_id (body : JsString) : (renamed draft body).id = draft.id := by
  rw [renamed]
  cases keyOf body with
  | none => rfl
  | some entry => dsimp only; split <;> rfl

theorem readAll_headed_nested {lines : List Line} (deeper : jobIndent < column) (below : Below column lines) :
    readAll (headed jobIndent draft (some column) steps) lines = headed jobIndent draft (some column) steps := by
  induction lines with
  | nil => rfl
  | cons line rest ih =>
      obtain ⟨place, others⟩ := List.forall_mem_cons.mp below
      have still : readLine (headed jobIndent draft (some column) steps) line.indent line.body =
          headed jobIndent draft (some column) steps := by
        have deep : jobIndent < line.indent := by omega
        by_cases there : line.indent = column
        · have dashed : line.dashed = true := by
            by_contra plain
            have inner := place.2 (by simpa using plain)
            omega
          rw [there, readLine_headed_key deeper rfl (readsNot_dashed dashed (by decide)),
            renamed_other (readsNot_dashed dashed (by decide))]
        · rw [readLine_headed _ _ _ _ deep]
          exact readJobLine_elsewhere (headed jobIndent draft (some column) steps) rfl rfl deep there
      rw [readAll_cons, still, ih others]

variable (steps) in
theorem readAll_headed (draft : JobDraft) (bodyIndent : Option Nat) {entries : List Entry} (deeper : jobIndent < column)
    (here : bodyIndent.getD column = column) (below : ∀ entry ∈ entries, Below column entry.nested)
    (stepless : ∀ entry ∈ entries, ReadsNot (js "steps") entry.text) :
    ∃ placed : Option Nat, placed.getD column = column ∧
      readAll (headed jobIndent draft bodyIndent steps) (entries.flatMap (Entry.lines column)) =
        headed jobIndent (entries.foldl (fun job entry => renamed job entry.text) draft) placed steps := by
  induction entries generalizing draft bodyIndent with
  | nil => exact ⟨bodyIndent, here, rfl⟩
  | cons entry rest ih =>
      obtain ⟨nested, others⟩ := List.forall_mem_cons.mp below
      obtain ⟨other, further⟩ := List.forall_mem_cons.mp stepless
      obtain ⟨placed, same, read⟩ := ih (renamed draft entry.text) (some column) rfl others further
      refine ⟨placed, same, ?_⟩
      rw [List.flatMap_cons, Entry.lines, List.cons_append, readAll_cons, readLine_headed_key deeper here other,
        readAll_append, readAll_headed_nested deeper nested, read]
      rfl

theorem readAll_after (draft : JobDraft) (progress : Progress) {entries : List Entry} (deeper : jobIndent < column)
    (below : ∀ entry ∈ entries, Below column entry.nested)
    (dashless : ∀ entry ∈ entries, startsWith entry.text (js "-") = false)
    (deep : ∀ step, progress.2 = some step → column < step.contentIndent) :
    ∃ job after, readAll (within jobIndent column draft progress) (entries.flatMap (Entry.lines column)) =
        within jobIndent column job after ∧
      (∀ step, after.2 = some step → column < step.contentIndent) ∧
      Grows (closed draft progress) (closed job after) [] (entries.any fun entry => looksLikeStep entry.nested) := by
  induction entries generalizing draft progress with
  | nil => exact ⟨draft, progress, rfl, deep, .refl _⟩
  | cons entry rest ih =>
      obtain ⟨nested, others⟩ := List.forall_mem_cons.mp below
      obtain ⟨plain, plains⟩ := List.forall_mem_cons.mp dashless
      have strays := scan_strays (renamed draft entry.text) (closed draft progress) nested .nothing
      obtain ⟨job, after, read, kept, grown⟩ := ih (renamed draft entry.text)
        (scan (renamed draft entry.text) (closed draft progress, none) entry.nested) others plains
        (scan_place _ (column < ·) (fun _ deep => deep) nested fun step opened => by cases opened)
      refine ⟨job, after, ?_, kept, ?_⟩
      · rw [List.flatMap_cons, Entry.lines, List.cons_append, readAll_cons, readLine_key deeper plain deep,
          readAll_append, readAll_within deeper nested, read]
      · have opened : closed (renamed draft entry.text) (closed draft progress, none) = closed draft progress :=
          List.append_nil _
        rw [opened] at strays
        simpa using strays.trans grown

/-- The steps of a reading once its open draft is closed. -/
def finish (state : Reading) : List WorkflowStep := (flush state).steps

/-- The reader is at the header of a job: nothing open reaches up to its column. -/
structure Ready (column : Nat) (state : Reading) : Prop where
  inJobs : state.inJobs = true
  placed : state.jobIndent.getD column = column
  steps : ∀ place, state.stepsIndent = some place → column < place
  step : ∀ step, state.step = some step → column < step.contentIndent

theorem readLine_header {state : Reading} {text id value : JsString} (positive : 0 < jobIndent)
    (ready : Ready jobIndent state) (read : keyOf text = some (id, value)) :
    readLine state jobIndent text = headed jobIndent { id := id, name := none } none (finish state) := by
  have opens : opensItem state jobIndent text = false := by
    rw [opensItem]
    cases place : state.stepsIndent with
    | none => rfl
    | some steps => simp [Nat.not_le.mpr (ready.steps steps place)]
  have held : heldStep state jobIndent = none := by
    rw [heldStep, Option.filter_eq_none_iff]
    intro step opened
    simpa using ready.step step opened
  have column : (flush state).jobIndent.getD jobIndent = jobIndent := ready.placed
  rw [readLine, if_neg (by simp [ready.inJobs]), if_neg (Nat.ne_of_gt positive), opens,
    if_neg Bool.false_ne_true, held]
  simp only [readJobLine, column, if_true, read, Option.map_some]
  rw [headed, ← ready.inJobs]
  rfl

theorem Ready.headed {bodyIndent : Option Nat} : Ready jobIndent (headed jobIndent draft bodyIndent steps) :=
  ⟨rfl, rfl, fun _ impossible => absurd impossible (Option.some_ne_none _).symm,
    fun _ impossible => absurd impossible (Option.some_ne_none _).symm⟩

theorem Ready.within (deeper : jobIndent < column)
    (deep : ∀ step, progress.2 = some step → column < step.contentIndent) :
    Ready jobIndent (within jobIndent column draft progress) :=
  ⟨rfl, rfl, fun _ same => Option.some.inj same ▸ deeper, fun step opened => deeper.trans (deep step opened)⟩

theorem finish_headed (bodyIndent : Option Nat) :
    finish (headed jobIndent draft bodyIndent steps) = steps := List.append_nil steps

theorem told_eq_nil_iff {job : JobDraft} {item : Item} : told job item = [] ↔ item.run = none := by
  rw [told]
  cases item.run <;> simp

section Job

variable {job : Job}

theorem listed_eq (job : Job) : job.listed = job.items.flatMap (told { id := job.id, name := job.name }) := rfl

/-- The job as the keys before its steps name it. -/
def titled (job : Job) : JobDraft :=
  job.before.foldl (fun job entry => renamed job entry.text) { id := job.id, name := none }

theorem titled_id (job : Job) : (titled job).id = job.id := by
  have same : ∀ (entries : List Entry) (draft : JobDraft),
      (entries.foldl (fun job entry => renamed job entry.text) draft).id = draft.id := by
    intro entries
    induction entries with
    | nil => exact fun draft => rfl
    | cons entry rest ih => exact fun draft => (ih _).trans (renamed_id _)
  exact same _ _

theorem titled_name (laid : job.Laid jobIndent) (readable : job.Readable) (lists : job.listed ≠ []) :
    (titled job).name = job.name := by
  have distinct := laid.mapping.distinct
  have sole : job.before.Pairwise fun entry later =>
      decide (entry.key.meaning = js "name") = true → decide (later.key.meaning = js "name") = false := by
    rw [List.map_append] at distinct
    refine (List.pairwise_map.mp (List.nodup_append.mp distinct).1).imp fun differ own => ?_
    simp only [decide_eq_true_eq, decide_eq_false_iff_not] at own ⊢
    exact fun also => differ (own.trans also.symm)
  have found := foldl_found (fun job (entry : Entry) => renamed job entry.text) JobDraft.name
    (fun entry => decide (entry.key.meaning = js "name")) (fun entry => entry.value.meaning) sole
    (fun entry member own start => by
      have answers := readable.name lists entry member (of_decide_eq_true own)
      obtain ⟨value, text, held, plain, read, tight⟩ := keyOf_answers answers name_nameable
      rw [Entry.readAs, if_neg Bool.false_ne_true] at read
      simp only [renamed, read, if_true, held, Value.meaning, unquote_bare plain tight, Option.some_or])
    (fun entry member other start => by
      rw [renamed_other (readable.others lists entry member (of_decide_eq_false other))])
    { id := job.id, name := none }
  have absent : lookup (js "name") job.after = none :=
    List.find?_eq_none.mpr fun entry member => by simpa using readable.named lists entry member
  rw [lookup] at absent
  rw [titled, found, Option.or_none, Job.name, lookup, List.find?_append, absent, Option.or_none]

theorem flatMap_told (laid : job.Laid jobIndent) (readable : job.Readable) :
    job.items.flatMap (told (titled job)) = job.listed := by
  by_cases lists : job.listed = []
  · rw [lists, List.flatMap_eq_nil_iff]
    rw [listed_eq, List.flatMap_eq_nil_iff] at lists
    exact fun item member => told_eq_nil_iff.mpr (told_eq_nil_iff.mp (lists item member))
  · rw [listed_eq, ← titled_name laid readable lists, ← titled_id]

/-- The steps of a job and the keys behind them add what is listed and what looks like a step. -/
theorem readAll_steps {list : Steps} (before : List WorkflowStep) (laid : job.Laid jobIndent)
    (readable : job.Readable) (steps : job.steps = some list) :
    Ready jobIndent (readAll (within jobIndent job.column (titled job) (before, none))
        (list.items.flatMap (Item.lines list.dash) ++ job.after.flatMap (Entry.lines job.column))) ∧
      Grows before (finish (readAll (within jobIndent job.column (titled job) (before, none))
        (list.items.flatMap (Item.lines list.dash) ++ job.after.flatMap (Entry.lines job.column))))
        job.listed job.lookAlike := by
  have items : job.items = list.items := by simp [Job.items, steps]
  have reads : ∀ item ∈ list.items, item.Readable := items ▸ readable.items
  have lower : Below job.column (list.items.flatMap (Item.lines list.dash)) := fun line member => by
    obtain ⟨item, inside, member⟩ := List.mem_flatMap.mp member
    exact below_item (laid.dash list steps) (laid.items list steps item inside) line member
  have read := scan_items (titled job) (before, none) (laid.items list steps) reads
  obtain ⟨last, after, ended, deep, grown⟩ := readAll_after (titled job)
    (scan (titled job) (before, none) (list.items.flatMap (Item.lines list.dash))) laid.deeper
    (fun entry member => laid.mapping.below entry (List.mem_append_right _ member)) readable.dashless
    (scan_place _ (job.column < ·) (fun _ deep => deep) lower
      fun _ impossible => absurd impossible (Option.some_ne_none _).symm)
  have looks : job.lookAlike =
      ((job.items.any fun item => item.entries.any fun entry => looksLikeStep entry.nested) ||
        job.after.any fun entry => looksLikeStep entry.nested) := by
    simp [Job.lookAlike, steps, List.any_append, List.any_flatMap]
  have start : closed (titled job) (before, none) = before := List.append_nil before
  rw [← items, flatMap_told laid readable, start, items] at read
  rw [readAll_append, readAll_within laid.deeper lower, ended, looks, items]
  have whole := read.trans grown
  rw [List.append_nil] at whole
  exact ⟨.within laid.deeper deep, whole⟩

/-- A job adds the steps it lists, and more where lines below its keys look like a step. -/
theorem readAll_job {state : Reading} (positive : 0 < jobIndent) (ready : Ready jobIndent state)
    (laid : job.Laid jobIndent) (readable : job.Readable) :
    Ready jobIndent (readAll state (job.lines jobIndent)) ∧
      Grows (finish state) (finish (readAll state (job.lines jobIndent))) job.listed job.lookAlike := by
  obtain ⟨value, read⟩ := keyOf_plain readable.head ⟨readable.id.1, List.all_eq_true.mpr readable.id.2⟩
  obtain ⟨placed, here, headings⟩ := readAll_headed (finish state) { id := job.id, name := none } none laid.deeper
    rfl (fun entry member => laid.mapping.below entry (List.mem_append_left _ member)) readable.stepless
  rw [Job.lines, readAll_cons, readLine_header positive ready read, readAll_append, headings, ← titled]
  cases steps : job.steps with
  | none =>
      have listed : job.listed = [] := by simp [Job.listed, Job.items, steps]
      have quiet : job.lookAlike = false := by simp [Job.lookAlike, steps]
      rw [laid.whole steps, listed, quiet]
      exact ⟨.headed, .of_eq ((finish_headed placed).trans (List.append_nil _).symm)⟩
  | some list =>
      obtain ⟨text, stated⟩ := keyOf_plain (readable.steps list steps) steps_nameable
      have opened : readLine (headed jobIndent (titled job) placed (finish state)) job.column list.head.text =
          within jobIndent job.column (titled job) (finish state, none) :=
        readLine_headed_steps laid.deeper here stated
      have added := readAll_steps (finish state) laid readable steps
      rw [Option.map_some, Option.getD_some, Job.stepLines, List.cons_append, readAll_cons, opened]
      exact added

end Job

theorem readAll_jobs {jobs : List Job} {state : Reading} (positive : 0 < jobIndent)
    (ready : Ready jobIndent state) (laid : ∀ job ∈ jobs, job.Laid jobIndent)
    (readable : ∀ job ∈ jobs, job.Readable) :
    (readAll state (jobs.flatMap (Job.lines jobIndent))).inJobs = true ∧
      Grows (finish state) (finish (readAll state (jobs.flatMap (Job.lines jobIndent))))
        (jobs.flatMap Job.listed) (jobs.any Job.lookAlike) := by
  induction jobs generalizing state with
  | nil => exact ⟨ready.inJobs, .refl _⟩
  | cons job rest ih =>
      obtain ⟨first, others⟩ := List.forall_mem_cons.mp laid
      obtain ⟨reads, read⟩ := List.forall_mem_cons.mp readable
      obtain ⟨next, grown⟩ := readAll_job positive ready first reads
      obtain ⟨inside, later⟩ := ih next others read
      rw [List.flatMap_cons, readAll_append, List.flatMap_cons, List.any_cons]
      exact ⟨inside, grown.trans later⟩

end Jobs

section Documents

variable {document : Document}

theorem readAll_outside {lines : List Line} {state : Reading} (outside : state.inJobs = false)
    (closed : ∀ line ∈ lines, line.indent = 0 → opensJobs line.body = false) :
    readAll state lines = state := by
  induction lines with
  | nil => rfl
  | cons line rest ih =>
      obtain ⟨first, others⟩ := List.forall_mem_cons.mp closed
      have still : readLine state line.indent line.body = state := by
        have passed : (decide (line.indent = 0) && opensJobs line.body) = false := by
          by_cases left : line.indent = 0
          · rw [first left, Bool.and_false]
          · rw [decide_eq_false left, Bool.false_and]
        rw [readLine, if_pos (by simp [outside]), passed, if_neg Bool.false_ne_true]
      rw [readAll_cons, still, ih others]

theorem opensJobs_head {entry : Entry} (plain : entry.key = .plain (js "jobs"))
    (blank : ∀ u ∈ entry.gap, isWhiteSpace u = true) : opensJobs entry.text = true := by
  have after : afterColon (entry.gap ++ unit ':' :: entry.rest) = some entry.rest := by
    rw [afterColon, trimStart_pad blank, trimStart_solid colon_solid]
    simp
  have split : entry.text = js "jobs" ++ (entry.gap ++ unit ':' :: entry.rest) := by
    rw [Entry.text, plain, Scalar.spelled, List.append_assoc]
  rw [opensJobs, split, startsWith_append, Bool.true_and, List.drop_left' (by rfl), after, Option.isSome_some]

theorem finish_after {lines : List Line} {state : Reading} (inside : state.inJobs = true)
    (left : ∀ line, lines.head? = some line → line.indent = 0)
    (closed : ∀ line ∈ lines, line.indent = 0 → opensJobs line.body = false) :
    finish (readAll state lines) = finish state := by
  cases lines with
  | nil => rfl
  | cons line rest =>
      have ended : readLine state line.indent line.body = { flush state with inJobs := false, job := none } := by
        rw [readLine, if_neg (by simp [inside]), if_pos (left line rfl)]
      rw [readAll_cons, ended, readAll_outside rfl fun other member => closed other (List.mem_cons_of_mem _ member)]
      exact List.append_nil _

/-- The lines of a document grow the steps it lists, and more where something looks like a step. -/
theorem readAll_document (laid : document.Laid) (readable : document.Readable) :
    Grows [] (finish (readAll start document.lines)) document.listed document.lookAlike := by
  have opened : readLine start 0 document.head.text = { start with inJobs := true } := by
    rw [readLine, if_pos rfl, opensJobs_head readable.head.1 readable.head.2]
    rfl
  have ready : Ready document.column { start with inJobs := true } :=
    ⟨rfl, rfl, fun _ impossible => absurd impossible (Option.some_ne_none _).symm,
      fun _ impossible => absurd impossible (Option.some_ne_none _).symm⟩
  obtain ⟨inside, grown⟩ := readAll_jobs laid.indented ready laid.jobs readable.jobs
  rw [Document.lines, readAll_append,
    readAll_outside rfl fun line member => readable.sole line (List.mem_append_left _ member), readAll_cons,
    opened, readAll_append,
    finish_after inside laid.after fun line member => readable.sole line (List.mem_append_right _ member)]
  exact grown

theorem mem_of_splitLines {text line : JsString} (member : line ∈ Kratos.Foundation.Lines.splitLines text)
    {u : CodeUnit} (inside : u ∈ line) : u ∈ text := by
  induction text generalizing line with
  | nil =>
      obtain rfl := List.mem_singleton.mp member
      exact inside
  | cons v rest ih =>
      rw [Kratos.Foundation.Lines.splitLines] at member
      split at member
      · rcases List.mem_cons.mp member with rfl | later
        · exact absurd inside List.not_mem_nil
        · exact List.mem_cons_of_mem _ (ih later inside)
      · split at member
        · obtain rfl := List.mem_singleton.mp member
          obtain rfl := List.mem_singleton.mp inside
          exact List.mem_cons_self
        · rename_i first others split
          rcases List.mem_cons.mp member with rfl | later
          · rcases List.mem_cons.mp inside with rfl | within
            · exact List.mem_cons_self
            · exact List.mem_cons_of_mem _ (ih (by rw [split]; exact List.mem_cons_self) within)
          · exact List.mem_cons_of_mem _ (ih (by rw [split]; exact List.mem_cons_of_mem _ later) inside)

theorem readLines_untabbed (state : Reading) {lines : List JsString}
    (untabbed : ∀ line ∈ lines, unit '\t' ∉ line) :
    readLines state lines = some ((lines.filter fun line => !isIgnorable line).foldl
      (fun state line => readLine state (indentOf line) (line.drop (indentOf line))) state) := by
  induction lines generalizing state with
  | nil => rfl
  | cons line rest ih =>
      obtain ⟨first, others⟩ := List.forall_mem_cons.mp untabbed
      have plain : tabbed line = false := by
        rw [tabbed, List.contains_eq_mem, decide_eq_false_iff_not]
        exact fun member => first ((List.takeWhile_sublist _).mem member)
      rw [readLines, plain, ih _ others, ih _ others, List.filter_cons]
      cases isIgnorable line <;> rfl

theorem line_text {line : Line} (aligned : line.body.head? ≠ some (unit ' ')) :
    indentOf line.text = line.indent ∧ line.text.drop line.indent = line.body := by
  have spaces : ∀ u ∈ List.replicate line.indent (unit ' '), (u == unit ' ') = true := fun u member => by
    rw [List.eq_of_mem_replicate member, beq_self_eq_true]
  have stops : line.body.takeWhile (· == unit ' ') = [] := by
    cases body : line.body with
    | nil => rfl
    | cons u rest =>
        rw [body] at aligned
        exact List.takeWhile_cons_of_neg fun same => aligned (congrArg some (eq_of_beq same))
  constructor
  · rw [indentOf, Line.text, List.takeWhile_append_of_pos spaces, stops, List.append_nil, List.length_replicate]
  · exact List.drop_left' List.length_replicate

theorem foldl_lines {lines : List Line} {state : Reading}
    (aligned : ∀ line ∈ lines, line.body.head? ≠ some (unit ' ')) :
    (lines.map Line.text).foldl
      (fun state line => readLine state (indentOf line) (line.drop (indentOf line))) state =
      readAll state lines := by
  induction lines generalizing state with
  | nil => rfl
  | cons line rest ih =>
      obtain ⟨first, others⟩ := List.forall_mem_cons.mp aligned
      have placed := line_text first
      rw [List.map_cons, List.foldl_cons, placed.1, placed.2, ih others, readAll_cons]

/-- A readable workflow is read as the steps it lists exactly where nothing below its keys looks like
a step. -/
theorem readWorkflowSteps_eq_listed_iff {content : JsString} (written : document.WrittenIn content)
    (laid : document.Laid) (readable : document.Readable) :
    readWorkflowSteps content = document.listed ↔ document.lookAlike = false := by
  have lines := readLines_untabbed start
    fun line member tab => written.1 (mem_of_splitLines member tab)
  rw [written.2, foldl_lines laid.aligned] at lines
  rw [readWorkflowSteps, lines]
  exact (readAll_document laid readable).eq_iff

section Matrix

def plainEntry (key : JsString) (value : Value) (nested : List Line) : Entry :=
  { key := .plain key
    gap := []
    space := if value = .nothing then [] else js " "
    value := value
    tail := []
    nested := nested }

/-- A matrix of `run` settings behind the steps. -/
def matrixJob : Job :=
  { head := plainEntry (js "test") .nothing []
    column := 4
    before := []
    steps := some
      { head := plainEntry (js "steps") .nothing []
        dash := 6
        items := [{ alone := none, inset := 1, entries := [plainEntry (js "run") (.scalar (.plain (js "npm test"))) []] }] }
    after := [plainEntry (js "strategy") .nothing
      [⟨6, js "matrix:"⟩, ⟨8, js "include:"⟩, ⟨10, js "- run: npm ci"⟩]] }

def matrixWorkflow : Document :=
  { before := []
    head := plainEntry (js "jobs") .nothing []
    column := 2
    jobs := [matrixJob]
    after := [] }

def matrixText : JsString :=
  js "jobs:\n  test:\n    steps:\n      - run: npm test\n    strategy:\n      matrix:\n        include:\n          - run: npm ci\n"

theorem matrix_written : matrixWorkflow.WrittenIn matrixText := by
  refine ⟨?_, ?_⟩
  · decide +kernel
  · decide +kernel

theorem matrix_laid : matrixWorkflow.Laid where
  aligned := by
    have aligned : (matrixWorkflow.lines.all fun line => line.body.head? != some (unit ' ')) = true := by decide
    exact fun line member => by simpa using List.all_eq_true.mp aligned line member
  indented := by decide
  jobs := by
    intro job member
    obtain rfl := List.mem_singleton.mp member
    refine ⟨by decide, ⟨by decide, ?_⟩, ?_, ?_, fun absent => absurd absent (Option.some_ne_none _)⟩
    · intro entry member
      obtain rfl := List.mem_singleton.mp member
      unfold Below
      decide
    · rintro _ ⟨⟩
      decide
    · rintro _ ⟨⟩ item member
      obtain rfl := List.mem_singleton.mp member
      refine ⟨⟨by decide, fun entry member => ?_⟩, fun _ alone => absurd alone (Option.some_ne_none _).symm⟩
      obtain rfl := List.mem_singleton.mp member
      exact fun _ member => absurd member List.not_mem_nil
  after := fun _ absent => absurd absent (Option.some_ne_none _).symm

theorem plainEntry_plain {key : JsString} {value : Value} (empty : value = .nothing) (nested : List Line) :
    (plainEntry key value nested).Plain key := by
  subst empty
  exact ⟨rfl, fun _ member => absurd member List.not_mem_nil, rfl⟩

theorem matrix_readable : matrixWorkflow.Readable where
  head := ⟨rfl, fun _ member => absurd member List.not_mem_nil⟩
  sole := fun _ member => absurd member List.not_mem_nil
  jobs := by
    intro job member
    obtain rfl := List.mem_singleton.mp member
    have nothing : ∀ {motive : Entry → Prop}, ∀ entry ∈ matrixJob.before, motive entry :=
      fun _ member => absurd member List.not_mem_nil
    refine ⟨plainEntry_plain rfl _, ⟨by decide, List.all_eq_true.mp (by decide)⟩, nothing, ?_, ?_,
      fun _ => nothing, fun _ => nothing, ?_, ?_⟩
    · rintro _ ⟨⟩
      exact plainEntry_plain rfl _
    · intro item member
      obtain rfl := List.mem_singleton.mp member
      refine ⟨fun _ => by decide, ?_, fun _ => ⟨?_, ?_, ?_, List.pairwise_singleton _ _⟩, fun absent => ?_⟩
      · intro place member below
        obtain rfl := List.mem_singleton.mp member
        exact absurd below (by decide)
      · intro place member named
        obtain rfl := List.mem_singleton.mp member
        exact absurd named (by decide)
      · intro place member _
        obtain rfl := List.mem_singleton.mp member
        refine ⟨rfl, List.all_eq_true.mp rfl, ⟨by decide, List.all_eq_true.mp (by decide)⟩, ⟨_, rfl, ?_⟩,
          List.all_eq_true.mp rfl, ?_⟩
        · refine ⟨by decide, ?_⟩
          simp only [List.forall_mem_cons, List.not_mem_nil, false_implies, implies_true, and_true]
          decide
        · have line : ((js "npm test").all fun u => !isLineTerminator u) = true := by decide
          intro u member
          have inside : u ∈ js "npm test" ++ [] := member
          rw [List.append_nil] at inside
          simpa using List.all_eq_true.mp line u inside
      · intro place member _ other
        obtain rfl := List.mem_singleton.mp member
        exact absurd rfl other
      · exact absurd absent (by decide)
    · rintro - entry member
      obtain rfl := List.mem_singleton.mp member
      decide
    · intro entry member
      obtain rfl := List.mem_singleton.mp member
      decide

/-- The matrix becomes a step of the job. -/
theorem matrix_read_as_step :
    matrixWorkflow.WrittenIn matrixText ∧ matrixWorkflow.Laid ∧ matrixWorkflow.Readable ∧
      readWorkflowSteps matrixText ≠ matrixWorkflow.listed := by
  refine ⟨matrix_written, matrix_laid, matrix_readable, ?_⟩
  decide +kernel

theorem matrix_reading :
    readWorkflowSteps matrixText = matrixWorkflow.listed ↔ matrixWorkflow.lookAlike = false :=
  readWorkflowSteps_eq_listed_iff matrix_written matrix_laid matrix_readable

end Matrix

end Documents

end Kratos.Initialization.WorkflowExactness
