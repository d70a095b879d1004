/- source: domain/init/tasks.ts
   digest: What the workflow reader makes of the lines inside a job's steps. -/

import Kratos.Initialization.WorkflowDocument

set_option autoImplicit false

namespace Kratos.Initialization.WorkflowReading

open Foundation.Text Initialization Initialization.WorkflowDocument

section Growth

variable {α : Type}

/-- A list has grown by these elements, and by more exactly where there is a surplus. -/
structure Grows (before after listed : List α) (surplus : Bool) : Prop where
  exact : surplus = false → after = before ++ listed
  more : surplus = true → before.length + listed.length < after.length

theorem Grows.of_eq {before after listed : List α} (same : after = before ++ listed) :
    Grows before after listed false :=
  ⟨fun _ => same, fun impossible => absurd impossible Bool.false_ne_true⟩

theorem Grows.refl (all : List α) : Grows all all [] false :=
  .of_eq (List.append_nil all).symm

theorem Grows.surplus {before after listed : List α} (longer : before.length + listed.length < after.length) :
    Grows before after listed true :=
  ⟨fun impossible => absurd impossible.symm Bool.false_ne_true, fun _ => longer⟩

theorem Grows.length_le {before after listed : List α} {surplus : Bool}
    (grows : Grows before after listed surplus) : before.length + listed.length ≤ after.length := by
  cases surplus with
  | false => rw [grows.exact rfl, List.length_append]
  | true => exact Nat.le_of_lt (grows.more rfl)

theorem Grows.trans {before middle after first second : List α} {one two : Bool}
    (early : Grows before middle first one) (late : Grows middle after second two) :
    Grows before after (first ++ second) (one || two) := by
  have lower := early.length_le
  have upper := late.length_le
  cases one with
  | true =>
      have longer := early.more rfl
      exact .surplus (by rw [List.length_append]; omega)
  | false =>
      cases two with
      | true =>
          have longer := late.more rfl
          exact .surplus (by rw [List.length_append]; omega)
      | false => exact .of_eq (by rw [late.exact rfl, early.exact rfl, List.append_assoc])

/-- A list grown from nothing is what was listed exactly without a surplus. -/
theorem Grows.eq_iff {after listed : List α} {surplus : Bool} (grows : Grows [] after listed surplus) :
    after = listed ↔ surplus = false := by
  refine ⟨fun same => ?_, grows.exact⟩
  by_contra more
  have longer := grows.more (by simpa using more)
  rw [same, List.length_nil, Nat.zero_add] at longer
  exact Nat.lt_irrefl _ longer

end Growth

section Drafts

def output (job : JobDraft) (step : Option StepDraft) : List WorkflowStep := drafted (some job) step

@[simp] theorem output_none (job : JobDraft) : output job none = [] := rfl

theorem output_bare {job : JobDraft} {draft : StepDraft} (bare : draft.run = none) :
    output job (some draft) = [] := by
  simp only [output, drafted, bare]

theorem output_length {job : JobDraft} (draft : StepDraft) :
    (output job (some draft)).length = if draft.run.isSome then 1 else 0 := by
  cases held : draft.run <;> simp [output, drafted, held]

@[simp] theorem assign_contentIndent (draft : StepDraft) (body : JsString) :
    (assign draft body).contentIndent = draft.contentIndent := by
  unfold assign
  split
  · rfl
  · split
    · rfl
    · split
      · split <;> rfl
      · rfl

theorem assign_run_isSome (draft : StepDraft) (body : JsString) :
    (assign draft body).run.isSome = (draft.run.isSome || statesRun body) := by
  unfold assign statesRun
  cases keyOf body with
  | none => simp
  | some entry =>
      obtain ⟨key, value⟩ := entry
      by_cases named : key = js "name"
      · have other : js "name" ≠ js "run" := by decide
        simp [named, other]
      · by_cases run : key = js "run"
        · subst run
          cases command : commandOf value <;> simp [named, command]
        · simp [named, run]

theorem assign_run_none {draft : StepDraft} {body : JsString} (bare : draft.run = none)
    (silent : statesRun body = false) : (assign draft body).run = none := by
  have same := assign_run_isSome draft body
  rw [bare, silent] at same
  simpa using same

theorem openedStep_deeper (indent : Nat) (body : JsString) :
    indent < (openedStep indent body).contentIndent := by
  simp only [openedStep, assign_contentIndent]
  omega

end Drafts

section Scanning

variable (job : JobDraft)

/-- The steps read so far and the open draft. -/
abbrev Progress := List WorkflowStep × Option StepDraft

/-- The steps, with the open draft among them. -/
def closed (progress : Progress) : List WorkflowStep := progress.1 ++ output job progress.2

/-- What a line inside the steps of a job does. -/
def scanLine (progress : Progress) (line : Line) : Progress :=
  if line.dashed then (closed job progress, some (openedStep line.indent line.body))
  else
    match progress.2.filter fun step => decide (step.contentIndent ≤ line.indent) with
    | some step =>
        (progress.1, some (if line.indent = step.contentIndent then assign step line.body else step))
    | none => (closed job progress, none)

def scan (progress : Progress) (lines : List Line) : Progress := lines.foldl (scanLine job) progress

@[simp] theorem scan_nil (progress : Progress) : scan job progress [] = progress := rfl

@[simp] theorem scan_cons (progress : Progress) (line : Line) (rest : List Line) :
    scan job progress (line :: rest) = scan job (scanLine job progress line) rest := rfl

theorem scan_append (progress : Progress) (front back : List Line) :
    scan job progress (front ++ back) = scan job (scan job progress front) back := List.foldl_append

variable {job} {progress : Progress} {line : Line}

theorem scanLine_dashed (dashed : line.dashed = true) :
    scanLine job progress line = (closed job progress, some (openedStep line.indent line.body)) := by
  rw [scanLine, if_pos dashed]

theorem scanLine_idle {steps : List WorkflowStep} (plain : line.dashed = false) :
    scanLine job (steps, none) line = (steps, none) := by
  simp [scanLine, plain, closed]

theorem scanLine_held {steps : List WorkflowStep} {draft : StepDraft} (plain : line.dashed = false)
    (held : draft.contentIndent ≤ line.indent) :
    scanLine job (steps, some draft) line =
      (steps, some (if line.indent = draft.contentIndent then assign draft line.body else draft)) := by
  simp [scanLine, plain, Option.filter, held]

theorem scanLine_deeper {steps : List WorkflowStep} {draft : StepDraft} (plain : line.dashed = false)
    (deeper : draft.contentIndent < line.indent) :
    scanLine job (steps, some draft) line = (steps, some draft) := by
  rw [scanLine_held plain (Nat.le_of_lt deeper), if_neg (Nat.ne_of_gt deeper)]

theorem scanLine_shallower {steps : List WorkflowStep} {draft : StepDraft} (plain : line.dashed = false)
    (shallower : line.indent < draft.contentIndent) :
    scanLine job (steps, some draft) line = (closed job (steps, some draft), none) := by
  simp [scanLine, plain, Option.filter, Nat.not_le.mpr shallower]

theorem closed_scanLine_length (progress : Progress) (line : Line) :
    (closed job progress).length ≤ (closed job (scanLine job progress line)).length := by
  obtain ⟨steps, draft⟩ := progress
  cases dashed : line.dashed with
  | true =>
      rw [scanLine_dashed dashed]
      simp [closed]
  | false =>
      cases draft with
      | none => rw [scanLine_idle dashed]
      | some draft =>
          by_cases held : draft.contentIndent ≤ line.indent
          · rw [scanLine_held dashed held]
            split
            · simp only [closed, List.length_append, output_length, assign_run_isSome]
              cases draft.run.isSome <;> simp
            · exact Nat.le_refl _
          · rw [scanLine_shallower dashed (Nat.not_le.mp held)]
            simp [closed]

variable (job) in
theorem closed_scan_length (progress : Progress) (lines : List Line) :
    (closed job progress).length ≤ (closed job (scan job progress lines)).length := by
  induction lines generalizing progress with
  | nil => exact Nat.le_refl _
  | cons line rest ih => exact (closed_scanLine_length progress line).trans (ih _)

variable (job) in
/-- Where the open draft has its keys after lines: where it had them, if no dash came, or deeper. -/
theorem scan_place {column : Nat} (good : Nat → Prop) (deep : ∀ place, column < place → good place)
    {lines : List Line} (below : Below column lines)
    (before : ∀ draft, progress.2 = some draft → good draft.contentIndent ∨ lines.any Line.dashed = true) :
    ∀ draft, (scan job progress lines).2 = some draft → good draft.contentIndent := by
  induction lines generalizing progress with
  | nil => exact fun draft opened => (before draft opened).resolve_right (by simp)
  | cons line rest ih =>
      obtain ⟨place, others⟩ := List.forall_mem_cons.mp below
      refine ih others fun draft opened => ?_
      cases dashed : line.dashed with
      | true =>
          rw [scanLine_dashed dashed] at opened
          obtain rfl := Option.some.inj opened
          exact .inl (deep _ (Nat.lt_of_le_of_lt place.1 (openedStep_deeper _ _)))
      | false =>
          obtain ⟨steps, held⟩ := progress
          cases held with
          | none => rw [scanLine_idle dashed] at opened; exact absurd opened (Option.some_ne_none _).symm
          | some held =>
              have known : good held.contentIndent ∨ rest.any Line.dashed = true := by
                simpa [dashed] using before held rfl
              by_cases within : held.contentIndent ≤ line.indent
              · rw [scanLine_held dashed within] at opened
                obtain rfl := Option.some.inj opened
                split
                · rwa [assign_contentIndent]
                · exact known
              · rw [scanLine_shallower dashed (Nat.not_le.mp within)] at opened
                exact absurd opened (Option.some_ne_none _).symm

theorem scan_still {steps : List WorkflowStep} {draft : StepDraft} {lines : List Line}
    (below : Below draft.contentIndent lines) (plain : lines.any Line.dashed = false) :
    scan job (steps, some draft) lines = (steps, some draft) := by
  induction lines with
  | nil => rfl
  | cons line rest ih =>
      obtain ⟨place, others⟩ := List.forall_mem_cons.mp below
      obtain ⟨first, later⟩ : line.dashed = false ∧ rest.any Line.dashed = false := by simpa using plain
      rw [scan_cons, scanLine_deeper first (place.2 first), ih others later]

theorem looksLikeStep_plain {lines : List Line} (plain : lines.any Line.dashed = false) :
    looksLikeStep lines = false := by
  induction lines with
  | nil => rfl
  | cons line rest ih =>
      obtain ⟨first, later⟩ : line.dashed = false ∧ rest.any Line.dashed = false := by simpa using plain
      simp [looksLikeStep, first, ih later]

theorem statedAt_ended {column : Nat} {rest : List Line}
    (ends : line.dashed = true ∨ line.indent < column) : statedAt column (line :: rest) = false := by
  rw [statedAt, if_pos (by simpa using ends)]

theorem statedAt_going {column : Nat} {rest : List Line} (plain : line.dashed = false)
    (deep : column ≤ line.indent) :
    statedAt column (line :: rest) =
      ((decide (line.indent = column) && statesRun line.body) || statedAt column rest) := by
  rw [statedAt, if_neg (by simp [plain, deep])]

/-- What lines state at the column of the open draft, where it has no run of its own. -/
inductive Watched (column : Nat) (lines : List Line) : Option StepDraft → Bool → Prop
  | nothing : Watched column lines none false
  | shallow {draft : StepDraft} (above : draft.contentIndent ≤ column) :
      Watched column lines (some draft) false
  | bare {draft : StepDraft} (empty : draft.run = none) :
      Watched column lines (some draft) (statedAt draft.contentIndent lines)

theorem Watched.ended {column : Nat} {rest : List Line} {held : Option StepDraft} {stated : Bool}
    (watched : Watched column (line :: rest) held stated) (dashed : line.dashed = true) : stated = false := by
  cases watched with
  | nothing => rfl
  | shallow => rfl
  | bare => exact statedAt_ended (.inl dashed)

variable (job) in
theorem scan_strays {column : Nat} {lines : List Line} (steps : List WorkflowStep)
    {held : Option StepDraft} {stated : Bool} (below : Below column lines)
    (watched : Watched column lines held stated) :
    Grows (closed job (steps, held)) (closed job (scan job (steps, held) lines)) []
      (stated || looksLikeStep lines) := by
  induction lines generalizing steps held stated with
  | nil =>
      have silent : stated = false := by cases watched <;> rfl
      rw [silent]
      exact .refl _
  | cons line rest ih =>
      obtain ⟨place, others⟩ := List.forall_mem_cons.mp below
      rw [scan_cons]
      cases dashed : line.dashed with
      | true =>
          rw [scanLine_dashed dashed, watched.ended dashed, Bool.false_or, looksLikeStep, dashed, Bool.true_and]
          have opened : (openedStep line.indent line.body).run.isSome = statesRun (trim (line.body.drop 1)) := by
            rw [openedStep, assign_run_isSome, Option.isSome_none, Bool.false_or]
          cases states : statesRun (trim (line.body.drop 1)) with
          | true =>
              have kept := closed_scan_length job
                (closed job (steps, held), some (openedStep line.indent line.body)) rest
              rw [closed, List.length_append, output_length, opened, states] at kept
              exact .surplus kept
          | false =>
              have bare : (openedStep line.indent line.body).run = none := by
                rw [states] at opened
                exact Option.not_isSome_iff_eq_none.mp (by rw [opened]; exact Bool.false_ne_true)
              have later := ih (closed job (steps, held)) others (.bare bare)
              rwa [closed, output_bare bare, List.append_nil] at later
      | false =>
          rw [looksLikeStep, dashed, Bool.false_and, Bool.false_or]
          cases watched with
          | nothing =>
              rw [scanLine_idle dashed]
              exact ih steps others .nothing
          | shallow above =>
              rw [scanLine_deeper dashed (Nat.lt_of_le_of_lt above (place.2 dashed))]
              exact ih steps others (.shallow above)
          | @bare draft empty =>
              rcases Nat.lt_or_ge line.indent draft.contentIndent with shallower | within
              · rw [scanLine_shallower dashed shallower, statedAt_ended (.inr shallower)]
                have later := ih (closed job (steps, some draft)) others .nothing
                rwa [closed, output_none, List.append_nil] at later
              · rw [scanLine_held dashed within, statedAt_going dashed within]
                by_cases there : line.indent = draft.contentIndent
                · rw [if_pos there, decide_eq_true there, Bool.true_and]
                  cases states : statesRun line.body with
                  | true =>
                      have kept := closed_scan_length job (steps, some (assign draft line.body)) rest
                      rw [closed, List.length_append, output_length, assign_run_isSome, states,
                        Bool.or_true, if_pos rfl] at kept
                      rw [closed, output_bare empty, List.append_nil]
                      exact .surplus kept
                  | false =>
                      have still := assign_run_none empty states
                      have later := ih steps others (.bare still)
                      rw [assign_contentIndent, closed, output_bare still] at later
                      rwa [closed, output_bare empty, Bool.false_or]
                · rw [if_neg there, decide_eq_false there]
                  exact ih steps others (.bare empty)

variable (job) in
/-- A key away from the open draft leaves what is read, and the draft away from it. -/
theorem scanLine_away {column : Nat} {text : JsString} (plain : startsWith text (js "-") = false)
    (apart : ∀ draft, progress.2 = some draft → draft.contentIndent ≠ column) :
    closed job (scanLine job progress ⟨column, text⟩) = closed job progress ∧
      ∀ draft, (scanLine job progress ⟨column, text⟩).2 = some draft → draft.contentIndent < column := by
  obtain ⟨steps, held⟩ := progress
  have header : (Line.mk column text).dashed = false := plain
  cases held with
  | none =>
      rw [scanLine_idle header]
      exact ⟨rfl, fun draft opened => absurd opened (Option.some_ne_none _).symm⟩
  | some draft =>
      rcases Nat.lt_or_gt_of_ne (apart draft rfl) with deeper | shallower
      · rw [scanLine_deeper header deeper]
        exact ⟨rfl, fun other opened => Option.some.inj opened ▸ deeper⟩
      · rw [scanLine_shallower header shallower]
        exact ⟨by simp [closed], fun draft opened => absurd opened (Option.some_ne_none _).symm⟩

variable (job) in
theorem scan_lost {column : Nat} {entries : List Entry} (progress : Progress) (below : ∀ entry ∈ entries, Below column entry.nested)
    (dashless : ∀ entry ∈ entries, startsWith entry.text (js "-") = false)
    (apart : ∀ draft, progress.2 = some draft → draft.contentIndent ≠ column) :
    Grows (closed job progress) (closed job (scan job progress (entries.flatMap (Entry.lines column)))) []
      (entries.any fun entry => looksLikeStep entry.nested) := by
  induction entries generalizing progress with
  | nil => exact .refl _
  | cons entry rest ih =>
      obtain ⟨nested, others⟩ := List.forall_mem_cons.mp below
      obtain ⟨plain, plains⟩ := List.forall_mem_cons.mp dashless
      obtain ⟨same, above⟩ := scanLine_away job plain apart
      have watched : Watched column entry.nested (scanLine job progress ⟨column, entry.text⟩).2 false := by
        cases held : (scanLine job progress ⟨column, entry.text⟩).2 with
        | none => exact .nothing
        | some draft => exact .shallow (Nat.le_of_lt (above draft held))
      have inner := scan_strays job (scanLine job progress ⟨column, entry.text⟩).1 nested watched
      have outer := ih (scan job (scanLine job progress ⟨column, entry.text⟩) entry.nested) others plains
        (scan_place job (· ≠ column) (fun _ deeper => Nat.ne_of_gt deeper) nested
          fun draft opened => .inl (Nat.ne_of_lt (above draft opened)))
      rw [List.flatMap_cons, Entry.lines, List.cons_append, scan_cons, scan_append, ← same]
      exact inner.trans outer

def gathered (draft : StepDraft) (entries : List Entry) : StepDraft :=
  entries.foldl (fun draft entry => assign draft entry.text) draft

@[simp] theorem gathered_contentIndent (draft : StepDraft) (entries : List Entry) :
    (gathered draft entries).contentIndent = draft.contentIndent := by
  induction entries generalizing draft with
  | nil => rfl
  | cons entry rest ih => exact (ih _).trans (assign_contentIndent _ _)

/-- Once a dash has come below a key, the keys that follow change nothing of what the draft gives. -/
def Settled (job : JobDraft) : StepDraft → List Line → List Entry → Prop
  | _, _, [] => True
  | draft, nested, entry :: rest =>
      (nested.any Line.dashed = true →
        output job (some (gathered draft (entry :: rest))) = output job (some draft)) ∧
        Settled job (assign draft entry.text) entry.nested rest

variable (job) in
/-- An item at its own column gives what its keys gather, and what looks like a step below them. -/
theorem scan_entries (steps : List WorkflowStep) (draft : StepDraft) (nested : List Line)
    {entries : List Entry} (inner : Below draft.contentIndent nested)
    (below : ∀ entry ∈ entries, Below draft.contentIndent entry.nested)
    (dashless : ∀ entry ∈ entries, startsWith entry.text (js "-") = false)
    (settled : Settled job draft nested entries) :
    Grows steps
      (closed job (scan job (steps, some draft)
        (nested ++ entries.flatMap (Entry.lines draft.contentIndent))))
      (output job (some (gathered draft entries)))
      (looksLikeStep nested || entries.any fun entry => looksLikeStep entry.nested) := by
  induction entries generalizing draft nested with
  | nil =>
      have drafted : Grows steps (closed job (steps, some draft)) (output job (some draft)) false := .of_eq rfl
      have strays := scan_strays job steps inner
        (Watched.shallow (Nat.le_refl draft.contentIndent))
      simpa [gathered] using drafted.trans strays
  | cons entry rest ih =>
      obtain ⟨first, others⟩ := List.forall_mem_cons.mp below
      obtain ⟨plain, plains⟩ := List.forall_mem_cons.mp dashless
      obtain ⟨kept, later⟩ := settled
      rw [scan_append]
      cases dashes : nested.any Line.dashed with
      | false =>
          have header : (Line.mk draft.contentIndent entry.text).dashed = false := plain
          rw [scan_still inner dashes, looksLikeStep_plain dashes, List.flatMap_cons, Entry.lines,
            List.cons_append, scan_cons, scanLine_held header (Nat.le_refl _), if_pos rfl]
          have going := ih (assign draft entry.text) entry.nested
            (by rwa [assign_contentIndent]) (by simpa using others) plains later
          rwa [assign_contentIndent] at going
      | true =>
          have drafted : Grows steps (closed job (steps, some draft)) (output job (some draft)) false := .of_eq rfl
          have strays := scan_strays job steps inner
            (Watched.shallow (Nat.le_refl draft.contentIndent))
          have apart : ∀ other, (scan job (steps, some draft) nested).2 = some other →
              other.contentIndent ≠ draft.contentIndent :=
            scan_place job (· ≠ draft.contentIndent) (fun _ deeper => Nat.ne_of_gt deeper) inner
              fun _ _ => .inr dashes
          have lost := scan_lost job _ below dashless apart
          rw [kept dashes]
          simpa using (drafted.trans strays).trans lost

end Scanning

section States

variable {jobIndent column : Nat} {job : JobDraft} {progress : Progress} {line : Line}

def within (jobIndent column : Nat) (job : JobDraft) (progress : Progress) : Reading :=
  { steps := progress.1
    inJobs := true
    jobIndent := some jobIndent
    job := some job
    jobBodyIndent := some column
    stepsIndent := some column
    step := progress.2 }

/-- The reader inside a job whose steps have not come. -/
def headed (jobIndent : Nat) (job : JobDraft) (bodyIndent : Option Nat) (steps : List WorkflowStep) : Reading :=
  { steps := steps
    inJobs := true
    jobIndent := some jobIndent
    job := some job
    jobBodyIndent := bodyIndent
    stepsIndent := none
    step := none }

def readAll (state : Reading) (lines : List Line) : Reading :=
  lines.foldl (fun state line => readLine state line.indent line.body) state

theorem readAll_append (state : Reading) (front back : List Line) :
    readAll state (front ++ back) = readAll (readAll state front) back := List.foldl_append

theorem readAll_cons (state : Reading) (line : Line) (rest : List Line) :
    readAll state (line :: rest) = readAll (readLine state line.indent line.body) rest := rfl

theorem readJobLine_here {state : Reading} {indent : Nat} {body : JsString}
    (placed : state.jobIndent = some jobIndent) (opened : state.job = some job) (deeper : jobIndent < indent)
    (here : state.jobBodyIndent.getD indent = indent) :
    readJobLine state indent body = readJobKey { state with jobBodyIndent := some indent } job indent body := by
  have apart : indent ≠ jobIndent ∧ ¬ indent < jobIndent := by omega
  obtain ⟨steps, inJobs, _, _, bodyIndent, stepsIndent, step⟩ := state
  subst placed opened
  simp only at here
  simp [readJobLine, apart, here]

theorem readJobLine_elsewhere (state : Reading) {indent : Nat} {body : JsString}
    (placed : state.jobIndent = some jobIndent) (opened : state.job = some job) (deeper : jobIndent < indent)
    {column : Nat} (apart : indent ≠ column) :
    readJobLine { state with jobBodyIndent := some column } indent body =
      { state with jobBodyIndent := some column } := by
  have away : indent ≠ jobIndent ∧ ¬ indent < jobIndent := by omega
  obtain ⟨steps, inJobs, _, _, bodyIndent, stepsIndent, step⟩ := state
  subst placed opened
  simp [readJobLine, away, apart]

theorem readLine_within (deeper : jobIndent < column)
    (place : column ≤ line.indent ∧ (line.dashed = false → column < line.indent)) :
    readLine (within jobIndent column job progress) line.indent line.body =
      within jobIndent column job (scanLine job progress line) := by
  have positive : line.indent ≠ 0 := by omega
  have opens : opensItem (within jobIndent column job progress) line.indent line.body = line.dashed := by
    simp [opensItem, within, place.1, Line.dashed]
  have held : heldStep (within jobIndent column job progress) line.indent =
      progress.2.filter fun step => decide (step.contentIndent ≤ line.indent) := rfl
  rw [readLine, if_neg (by simp [within]), if_neg positive, opens, held, scanLine]
  cases dashed : line.dashed with
  | true => rfl
  | false =>
      simp only [Bool.false_eq_true, if_false]
      cases kept : progress.2.filter fun step => decide (step.contentIndent ≤ line.indent) with
      | some step =>
          obtain ⟨opened, -⟩ := Option.filter_eq_some_iff.mp kept
          by_cases there : line.indent = step.contentIndent
          · simp only [there, if_true]
            rfl
          · simp only [there, if_false, within, opened]
      | none =>
          have inner := place.2 dashed
          have deep : jobIndent < line.indent := by omega
          exact readJobLine_elsewhere (flush (within jobIndent column job progress)) rfl rfl deep (Nat.ne_of_gt inner)

theorem readAll_within {lines : List Line} (deeper : jobIndent < column) (below : Below column lines) :
    readAll (within jobIndent column job progress) lines =
      within jobIndent column job (scan job progress lines) := by
  induction lines generalizing progress with
  | nil => rfl
  | cons line rest ih =>
      obtain ⟨place, others⟩ := List.forall_mem_cons.mp below
      rw [readAll_cons, readLine_within deeper place, ih others, scan_cons]

def renamed (job : JobDraft) (body : JsString) : JobDraft :=
  match keyOf body with
  | some (key, value) => if key = js "name" then { job with name := some (unquote value) } else job
  | none => job

theorem readLine_key {text : JsString} (deeper : jobIndent < column)
    (plain : startsWith text (js "-") = false)
    (deep : ∀ draft, progress.2 = some draft → column < draft.contentIndent) :
    readLine (within jobIndent column job progress) column text =
      within jobIndent column (renamed job text) (closed job progress, none) := by
  have positive : column ≠ 0 := by omega
  have opens : opensItem (within jobIndent column job progress) column text = false := by
    simp [opensItem, within, plain]
  have held : heldStep (within jobIndent column job progress) column = none := by
    simp only [heldStep, within, Option.filter_eq_none_iff]
    intro draft opened
    simpa using deep draft opened
  rw [readLine, if_neg (by simp [within]), if_neg positive, opens, if_neg Bool.false_ne_true, held]
  refine (readJobLine_here rfl rfl deeper rfl).trans ?_
  rw [readJobKey, renamed]
  cases keyOf text with
  | none => rfl
  | some entry =>
      by_cases name : entry.1 = js "name"
      · simp only [name, if_true]
        rfl
      · by_cases steps : entry.1 = js "steps"
        · simp only [name, if_pos steps, if_false]
          rfl
        · simp only [name, steps, if_false]
          rfl

section Headed

variable {bodyIndent : Option Nat} {steps : List WorkflowStep}

variable (job bodyIndent steps) in
theorem readLine_headed (line : Line) (deeper : jobIndent < line.indent) :
    readLine (headed jobIndent job bodyIndent steps) line.indent line.body =
      readJobLine (headed jobIndent job bodyIndent steps) line.indent line.body := by
  have positive : line.indent ≠ 0 := by omega
  have still : flush (headed jobIndent job bodyIndent steps) = headed jobIndent job bodyIndent steps := by
    simp [flush, headed, drafted]
  rw [readLine, if_neg (by simp [headed]), if_neg positive]
  simp only [opensItem, heldStep, headed, Bool.false_eq_true, if_false, Option.filter_none]
  exact congrArg (readJobLine · line.indent line.body) still

theorem readLine_headed_key {text : JsString} (deeper : jobIndent < column)
    (here : bodyIndent.getD column = column) (other : ReadsNot (js "steps") text) :
    readLine (headed jobIndent job bodyIndent steps) column text =
      headed jobIndent (renamed job text) (some column) steps := by
  refine (readLine_headed job bodyIndent steps ⟨column, text⟩ deeper).trans ((readJobLine_here rfl rfl deeper here).trans ?_)
  rw [readJobKey, renamed]
  cases read : keyOf text with
  | none => rfl
  | some entry =>
      have apart : entry.1 ≠ js "steps" := fun same => other (by rw [read, Option.map_some, same])
      by_cases name : entry.1 = js "name"
      · simp only [name, if_true]
        rfl
      · simp only [name, apart, if_false]
        rfl

theorem readLine_headed_steps {text value : JsString} (deeper : jobIndent < column)
    (here : bodyIndent.getD column = column) (read : keyOf text = some (js "steps", value)) :
    readLine (headed jobIndent job bodyIndent steps) column text = within jobIndent column job (steps, none) := by
  refine (readLine_headed job bodyIndent steps ⟨column, text⟩ deeper).trans ((readJobLine_here rfl rfl deeper here).trans ?_)
  have other : js "steps" ≠ js "name" := by decide
  simp only [readJobKey, read, other, if_false, if_true]
  rfl

end Headed

end States

end Kratos.Initialization.WorkflowReading
