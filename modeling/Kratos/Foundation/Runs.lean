/- source: none(general)
   digest: Accepted runs of a fallible step function and the rules for invariants over them. -/

import Mathlib.Data.List.Forall2

set_option autoImplicit false

namespace Kratos.Foundation.Runs

section Checks

variable {α β ε : Type}

theorem guard_ok_iff {refused : Prop} [Decidable refused] {error : ε} {rest : Except ε α} {a : α} :
    (if refused then .error error else rest) = .ok a ↔ ¬ refused ∧ rest = .ok a := by
  by_cases held : refused
  · simp [held]
  · simp [held]

theorem bind_ok_iff {first : Except ε α} {rest : α → Except ε β} {b : β} :
    (first >>= rest) = .ok b ↔ ∃ a, first = .ok a ∧ rest a = .ok b := by
  cases first with
  | error e => simp [bind, Except.bind]
  | ok a => simp [bind, Except.bind]

theorem forM_ok_iff {each : α → Except ε Unit} {entries : List α} :
    entries.forM each = .ok () ↔ ∀ entry ∈ entries, each entry = .ok () := by
  induction entries with
  | nil => simp [pure, Except.pure]
  | cons entry rest ih =>
      have head : (entry :: rest).forM each = (each entry >>= fun _ => rest.forM each) := rfl
      rw [head, bind_ok_iff, List.forall_mem_cons]
      constructor
      · rintro ⟨⟨⟩, first, later⟩
        exact ⟨first, ih.mp later⟩
      · rintro ⟨first, later⟩
        exact ⟨(), first, ih.mpr later⟩

theorem mapM_ok_iff {read : α → Except ε β} {inputs : List α} {outputs : List β} :
    inputs.mapM read = .ok outputs ↔
      List.Forall₂ (fun input output => read input = .ok output) inputs outputs := by
  induction inputs generalizing outputs with
  | nil =>
      rw [List.mapM_nil, List.forall₂_nil_left_iff]
      exact ⟨fun same => (Except.ok.inj same).symm, fun same => congrArg Except.ok same.symm⟩
  | cons input inputs ih =>
      rw [List.mapM_cons, List.forall₂_cons_left_iff]
      constructor
      · intro whole
        cases first : read input with
        | error e =>
            rw [first] at whole
            cases whole
        | ok output =>
            cases later : inputs.mapM read with
            | error e =>
                rw [first, later] at whole
                cases whole
            | ok rest =>
                rw [first, later] at whole
                exact ⟨output, rest, rfl, ih.mp later, (Except.ok.inj whole).symm⟩
      · rintro ⟨output, rest, first, later, rfl⟩
        rw [first, ih.mpr later]
        rfl

theorem mapM_ok_map_iff {read : α → Except ε β} {passes : α → Prop} {value : α → β}
    {inputs : List α} {outputs : List β}
    (each : ∀ input ∈ inputs, ∀ output, read input = .ok output ↔
      passes input ∧ output = value input) :
    inputs.mapM read = .ok outputs ↔
      (∀ input ∈ inputs, passes input) ∧ outputs = inputs.map value := by
  rw [mapM_ok_iff]
  induction inputs generalizing outputs with
  | nil => simp
  | cons input inputs ih =>
      have rest := @ih outputs.tail fun other member => each other (List.mem_cons_of_mem _ member)
      rw [List.forall₂_cons_left_iff, List.forall_mem_cons, List.map_cons]
      constructor
      · rintro ⟨output, later, first, all, rfl⟩
        obtain ⟨passed, rfl⟩ := (each input List.mem_cons_self output).mp first
        obtain ⟨passedLater, same⟩ := rest.mp all
        exact ⟨⟨passed, passedLater⟩, congrArg _ same⟩
      · rintro ⟨⟨passed, passedLater⟩, rfl⟩
        exact ⟨value input, inputs.map value, (each input List.mem_cons_self _).mpr ⟨passed, rfl⟩,
          rest.mpr ⟨passedLater, rfl⟩, rfl⟩

theorem mapM_ok_of {read : α → Except ε β} {value : α → β} {inputs : List α}
    (each : ∀ input ∈ inputs, read input = .ok (value input)) :
    inputs.mapM read = .ok (inputs.map value) := by
  induction inputs with
  | nil => rfl
  | cons input rest ih =>
      rw [List.mapM_cons, each input List.mem_cons_self,
        ih fun other member => each other (List.mem_cons_of_mem _ member)]
      rfl

theorem mapM_ok_exists {read : α → Except ε β} {inputs : List α}
    (each : ∀ input ∈ inputs, ∃ output, read input = .ok output) :
    ∃ outputs, inputs.mapM read = .ok outputs := by
  induction inputs with
  | nil => exact ⟨[], rfl⟩
  | cons input rest ih =>
      obtain ⟨output, first⟩ := each input List.mem_cons_self
      obtain ⟨outputs, later⟩ := ih fun other member => each other (List.mem_cons_of_mem _ member)
      refine ⟨output :: outputs, ?_⟩
      rw [List.mapM_cons, first, later]
      rfl

theorem forall₂_mem {related : α → β → Prop} {inputs : List α} {outputs : List β}
    (all : List.Forall₂ related inputs outputs) :
    (∀ input ∈ inputs, ∃ output ∈ outputs, related input output) ∧
      ∀ output ∈ outputs, ∃ input ∈ inputs, related input output := by
  induction all with
  | nil => simp
  | cons first later ih =>
      obtain ⟨forward, backward⟩ := ih
      constructor
      · intro input member
        rcases List.mem_cons.mp member with rfl | inside
        · exact ⟨_, List.mem_cons_self, first⟩
        · obtain ⟨output, found, passed⟩ := forward input inside
          exact ⟨output, List.mem_cons_of_mem _ found, passed⟩
      · intro output member
        rcases List.mem_cons.mp member with rfl | inside
        · exact ⟨_, List.mem_cons_self, first⟩
        · obtain ⟨input, found, passed⟩ := backward output inside
          exact ⟨input, List.mem_cons_of_mem _ found, passed⟩

theorem forall₂_map_eq {γ : Type} {left : α → γ} {right : β → γ} {inputs : List α}
    {outputs : List β} (all : List.Forall₂ (fun input output => right output = left input) inputs
      outputs) : outputs.map right = inputs.map left := by
  induction all with
  | nil => rfl
  | cons first later ih => rw [List.map_cons, List.map_cons, first, ih]

theorem mapM_ok_mem {read : α → Except ε β} {inputs : List α} {outputs : List β}
    (all : inputs.mapM read = .ok outputs) :
    (∀ input ∈ inputs, ∃ output ∈ outputs, read input = .ok output) ∧
      ∀ output ∈ outputs, ∃ input ∈ inputs, read input = .ok output :=
  forall₂_mem (mapM_ok_iff.mp all)

end Checks

variable {σ α ε : Type} {step : σ → α → Except ε σ}

/-- The step accepts every input in order and ends in `final`. -/
def Reaches (step : σ → α → Except ε σ) (start : σ) (inputs : List α) (final : σ) : Prop :=
  inputs.foldlM step start = .ok final

@[simp] theorem reaches_nil {start final : σ} : Reaches step start [] final ↔ start = final := by
  simp only [Reaches, List.foldlM_nil]
  exact ⟨Except.ok.inj, congrArg Except.ok⟩

theorem reaches_cons {start final : σ} {input : α} {inputs : List α} :
    Reaches step start (input :: inputs) final ↔
      ∃ middle, step start input = .ok middle ∧ Reaches step middle inputs final := by
  simp only [Reaches, List.foldlM_cons]
  cases first : step start input with
  | error e => simp [bind, Except.bind]
  | ok middle => simp [bind, Except.bind]

theorem reaches_append {start final : σ} {front back : List α} :
    Reaches step start (front ++ back) final ↔
      ∃ middle, Reaches step start front middle ∧ Reaches step middle back final := by
  induction front generalizing start with
  | nil => simp
  | cons input front ih =>
      simp only [List.cons_append, reaches_cons, ih]
      constructor
      · rintro ⟨next, first, middle, front, back⟩
        exact ⟨middle, ⟨next, first, front⟩, back⟩
      · rintro ⟨middle, ⟨next, first, front⟩, back⟩
        exact ⟨next, first, middle, front, back⟩

theorem reaches_snoc {start final : σ} {inputs : List α} {input : α} :
    Reaches step start (inputs ++ [input]) final ↔
      ∃ middle, Reaches step start inputs middle ∧ step middle input = .ok final := by
  rw [reaches_append]
  simp only [reaches_cons, reaches_nil, exists_eq_right]

theorem reaches_unique {start left right : σ} {inputs : List α}
    (one : Reaches step start inputs left) (two : Reaches step start inputs right) :
    left = right :=
  Except.ok.inj (one.symm.trans two)

/-- A run evaluated: the state it ends in, when every step is accepted. -/
def evaluate (step : σ → α → Except ε σ) (start : σ) (inputs : List α) : Option σ :=
  (inputs.foldlM step start).toOption

theorem reaches_of_evaluate (step : σ → α → Except ε σ) (start : σ) (inputs : List α)
    (test : σ → Bool)
    (evaluated : (evaluate step start inputs).any test = true) :
    ∃ final, Reaches step start inputs final ∧ test final = true := by
  unfold evaluate at evaluated
  cases outcome : inputs.foldlM step start with
  | error e =>
      rw [outcome] at evaluated
      cases evaluated
  | ok final =>
      rw [outcome] at evaluated
      exact ⟨final, outcome, evaluated⟩

/-- What holds initially and is preserved by each accepted step holds after every run. -/
theorem Reaches.invariant {start final : σ} {inputs : List α} (inv : σ → Prop)
    (run : Reaches step start inputs final) (initial : inv start)
    (preserved : ∀ state input next, inv state → step state input = .ok next → inv next) :
    inv final := by
  induction inputs generalizing start with
  | nil => exact reaches_nil.mp run ▸ initial
  | cons input inputs ih =>
      obtain ⟨middle, first, rest⟩ := reaches_cons.mp run
      exact ih rest (preserved start input middle initial first)

/-- Every step of the run from `start` meets a condition on its state and its input. -/
def Throughout (step : σ → α → Except ε σ) (condition : σ → α → Prop) (start : σ)
    (inputs : List α) : Prop :=
  ∀ front input back, inputs = front ++ input :: back →
    ∀ state, Reaches step start front state → condition state input

theorem Throughout.head {condition : σ → α → Prop} {start : σ} {input : α} {inputs : List α}
    (all : Throughout step condition start (input :: inputs)) : condition start input :=
  all [] input inputs rfl start (reaches_nil.mpr rfl)

theorem Throughout.tail {condition : σ → α → Prop} {start next : σ} {input : α}
    {inputs : List α} (all : Throughout step condition start (input :: inputs))
    (first : step start input = .ok next) : Throughout step condition next inputs := by
  intro front other back shape state run
  exact all (input :: front) other back (by rw [shape, List.cons_append]) state
    (reaches_cons.mpr ⟨next, first, run⟩)

theorem Throughout.front {condition : σ → α → Prop} {start : σ} {front back : List α}
    (all : Throughout step condition start (front ++ back)) :
    Throughout step condition start front := by
  intro before input after shape state reached
  exact all before input (after ++ back) (by rw [shape, List.append_assoc, List.cons_append])
    state reached

theorem Throughout.suffix {condition : σ → α → Prop} {start middle : σ} {front back : List α}
    (all : Throughout step condition start (front ++ back))
    (run : Reaches step start front middle) : Throughout step condition middle back := by
  intro before input after shape state reached
  exact all (front ++ before) input after (by rw [shape, List.append_assoc]) state
    (reaches_append.mpr ⟨middle, run, reached⟩)

theorem Reaches.invariant_of {start final : σ} {inputs : List α} (inv : σ → Prop)
    (condition : σ → α → Prop) (run : Reaches step start inputs final)
    (all : Throughout step condition start inputs) (initial : inv start)
    (preserved : ∀ state input next, inv state → condition state input →
      step state input = .ok next → inv next) : inv final := by
  induction inputs generalizing start with
  | nil => exact reaches_nil.mp run ▸ initial
  | cons input inputs ih =>
      obtain ⟨middle, first, rest⟩ := reaches_cons.mp run
      exact ih rest (all.tail first) (preserved start input middle initial all.head first)

end Kratos.Foundation.Runs
