/- source: none(general)
   digest: Programs of durable calls that may be cut at any call, and the rules to reason about them. -/

import Mathlib.Data.List.Forall2
import Mathlib.Logic.Relation

set_option autoImplicit false

namespace Kratos.Foundation.Crashes

/-- A program of calls; what it does next is chosen on the reply to the last one. -/
inductive Program (Call : Type) (Reply : Call → Type) (Failure α : Type) : Type
  | done (result : α)
  | fail (failure : Failure)
  | call (request : Call) (rest : Reply request → Program Call Reply Failure α)

section Programs

variable {Call : Type} {Reply : Call → Type} {Failure α β : Type}

def Program.bind : Program Call Reply Failure α → (α → Program Call Reply Failure β) →
    Program Call Reply Failure β
  | .done result, next => next result
  | .fail failure, _ => .fail failure
  | .call request rest, next => .call request fun reply => (rest reply).bind next

instance : Monad (Program Call Reply Failure) where
  pure := .done
  bind := .bind

theorem Program.bind_done (program : Program Call Reply Failure α) : program.bind .done = program := by
  induction program with
  | done result => rfl
  | fail failure => rfl
  | call request rest ih => exact congrArg (Program.call request) (funext ih)

theorem Program.bind_assoc {γ : Type} (program : Program Call Reply Failure α)
    (next : α → Program Call Reply Failure β) (last : β → Program Call Reply Failure γ) :
    (program.bind next).bind last = program.bind fun result => (next result).bind last := by
  induction program with
  | done result => rfl
  | fail failure => rfl
  | call request rest ih => exact congrArg (Program.call request) (funext ih)

instance : LawfulMonad (Program Call Reply Failure) :=
  LawfulMonad.mk' _ Program.bind_done (fun _ _ => rfl) Program.bind_assoc

def perform (request : Call) : Program Call Reply Failure (Reply request) :=
  .call request .done

end Programs

/-- What a store does with a call, and what a cut in the middle of the call may leave of it. -/
structure Machine (Call : Type) (Reply : Call → Type) (State Failure : Type) where
  serve : (request : Call) → State → Except Failure (Reply request × State)
  torn : Call → State → State → Prop

variable {Call : Type} {Reply : Call → Type} {State Failure α β γ : Type}
  {machine : Machine Call Reply State Failure}

section Meaning

def run (machine : Machine Call Reply State Failure) :
    Program Call Reply Failure α → State → Except Failure (α × State)
  | .done result, state => .ok (result, state)
  | .fail failure, _ => .error failure
  | .call request rest, state =>
      match machine.serve request state with
      | .error failure => .error failure
      | .ok (reply, later) => run machine (rest reply) later

/-- The states a program leaves behind when it is cut before, within or after one of its calls. -/
inductive Cut (machine : Machine Call Reply State Failure) :
    Program Call Reply Failure α → State → State → Prop
  | here (program : Program Call Reply Failure α) (state : State) : Cut machine program state state
  | within {request : Call} {rest : Reply request → Program Call Reply Failure α}
      {state left : State} (torn : machine.torn request state left) :
      Cut machine (.call request rest) state left
  | later {request : Call} {rest : Reply request → Program Call Reply Failure α} {reply : Reply request}
      {state next left : State} (served : machine.serve request state = .ok (reply, next))
      (cut : Cut machine (rest reply) next left) : Cut machine (.call request rest) state left

/-- What is left when a program is cut after some of its calls. -/
def stopped (machine : Machine Call Reply State Failure) :
    Nat → Program Call Reply Failure α → State → State
  | calls + 1, .call request rest, state =>
      match machine.serve request state with
      | .error _ => state
      | .ok (reply, later) => stopped machine calls (rest reply) later
  | _, _, state => state

/-- Wherever it is cut the program leaves a state of `during`; when it is not cut it ends in `after`,
or it throws in `failed`. -/
def Ensures (machine : Machine Call Reply State Failure) (during : State → Prop)
    (after : α → State → Prop) (failed : Failure → State → Prop) :
    Program Call Reply Failure α → State → Prop
  | .done result, state => during state ∧ after result state
  | .fail failure, state => during state ∧ failed failure state
  | .call request rest, state =>
      during state ∧ (∀ left, machine.torn request state left → during left) ∧
        (∀ failure, machine.serve request state = .error failure → failed failure state) ∧
        ∀ reply later, machine.serve request state = .ok (reply, later) →
          Ensures machine during after failed (rest reply) later

/-- The program reaches its result by calls that leave the state as it is. -/
def Observes (machine : Machine Call Reply State Failure) :
    Program Call Reply Failure α → State → α → Prop
  | .done result, _, expected => result = expected
  | .fail _, _, _ => False
  | .call request rest, state, expected =>
      (∀ left, ¬ machine.torn request state left) ∧
        ∃ reply, machine.serve request state = .ok (reply, state) ∧
          Observes machine (rest reply) state expected

def Program.Calls (region : Call → Prop) : Program Call Reply Failure α → Prop
  | .done _ => True
  | .fail _ => True
  | .call request rest => region request ∧ ∀ reply, (rest reply).Calls region

/-- Every result the program can come to is a good one. -/
def Program.Yields (good : α → Prop) : Program Call Reply Failure α → Prop
  | .done result => good result
  | .fail _ => True
  | .call _ rest => ∀ reply, (rest reply).Yields good

end Meaning

theorem cut_stopped (calls : Nat) (program : Program Call Reply Failure α) (state : State) :
    Cut machine program state (stopped machine calls program state) := by
  induction calls generalizing program state with
  | zero => exact .here program state
  | succ calls ih =>
      cases program with
      | done result => exact .here _ state
      | fail failure => exact .here _ state
      | call request rest =>
          rw [stopped]
          split
          · exact .here _ state
          · rename_i reply later served
            exact .later served (ih (rest reply) later)

section Adequacy

variable {during : State → Prop} {after : α → State → Prop} {failed : Failure → State → Prop}
  {program : Program Call Reply Failure α} {state left : State}

theorem Ensures.holds (ensured : Ensures machine during after failed program state) :
    during state := by
  cases program with
  | done result => exact ensured.1
  | fail failure => exact ensured.1
  | call request rest => exact ensured.1

theorem Ensures.cut (ensured : Ensures machine during after failed program state)
    (cut : Cut machine program state left) : during left := by
  induction cut with
  | here program state => exact ensured.holds
  | within torn => exact ensured.2.1 _ torn
  | later served cut ih => exact ih (ensured.2.2.2 _ _ served)

theorem Ensures.run (ensured : Ensures machine during after failed program state) :
    (∃ result final, run machine program state = .ok (result, final) ∧ after result final) ∨
      ∃ failure final, run machine program state = .error failure ∧ failed failure final := by
  induction program generalizing state with
  | done result => exact .inl ⟨result, state, rfl, ensured.2⟩
  | fail failure => exact .inr ⟨failure, state, rfl, ensured.2⟩
  | call request rest ih =>
      obtain ⟨-, -, threw, rest⟩ := ensured
      rw [Crashes.run]
      cases served : machine.serve request state with
      | error failure => exact .inr ⟨failure, state, rfl, threw failure served⟩
      | ok answer => exact ih answer.1 (rest answer.1 answer.2 served)

theorem Ensures.result (ensured : Ensures machine during after (fun _ _ => False) program state) :
    ∃ result final, Crashes.run machine program state = .ok (result, final) ∧ after result final := by
  rcases ensured.run with ended | ⟨failure, final, threw, impossible⟩
  · exact ended
  · exact impossible.elim

/-- Recovery that meets its description wherever it starts again ends, however often it is cut. -/
theorem recovers {recovery : Program Call Reply Failure α}
    (covered : ∀ state, during state → Ensures machine during after (fun _ _ => False) recovery state)
    (held : during state) (cuts : Relation.ReflTransGen (Cut machine recovery) state left) :
    during left ∧ ∃ result final, Crashes.run machine recovery left = .ok (result, final) ∧
      after result final := by
  have reached : during left := by
    induction cuts with
    | refl => exact held
    | tail _ cut ih => exact (covered _ ih).cut cut
  exact ⟨reached, (covered left reached).result⟩

end Adequacy

section Rules

variable {during : State → Prop} {after : β → State → Prop} {middle : α → State → Prop}
  {failed : Failure → State → Prop} {program : Program Call Reply Failure α} {state : State}
  {next : α → Program Call Reply Failure β}

theorem Ensures.bind (first : Ensures machine during middle failed program state)
    (second : ∀ result final, middle result final →
      Ensures machine during after failed (next result) final) :
    Ensures machine during after failed (program >>= next) state := by
  induction program generalizing state with
  | done result => exact second result state first.2
  | fail failure => exact first
  | call request rest ih =>
      obtain ⟨here, torn, threw, rest⟩ := first
      exact ⟨here, torn, threw, fun reply later served => ih reply (rest reply later served)⟩

theorem Ensures.mono {other : State → Prop} {weaker : α → State → Prop}
    {refused : Failure → State → Prop} (ensured : Ensures machine during middle failed program state)
    (wider : ∀ left, during left → other left)
    (implied : ∀ result final, middle result final → weaker result final)
    (thrown : ∀ failure final, failed failure final → refused failure final) :
    Ensures machine other weaker refused program state := by
  induction program generalizing state with
  | done result => exact ⟨wider _ ensured.1, implied _ _ ensured.2⟩
  | fail failure => exact ⟨wider _ ensured.1, thrown _ _ ensured.2⟩
  | call request rest ih =>
      obtain ⟨here, torn, threw, rest⟩ := ensured
      exact ⟨wider _ here, fun left partway => wider _ (torn left partway),
        fun failure served => thrown _ _ (threw failure served),
        fun reply later served => ih reply (rest reply later served)⟩

theorem Ensures.weaken {weaker : α → State → Prop}
    (ensured : Ensures machine during middle failed program state)
    (implied : ∀ result final, middle result final → weaker result final) :
    Ensures machine during weaker failed program state :=
  ensured.mono (fun _ held => held) implied fun _ _ threw => threw

theorem Ensures.wider {other : State → Prop}
    (ensured : Ensures machine during middle failed program state)
    (wider : ∀ left, during left → other left) : Ensures machine other middle failed program state :=
  ensured.mono wider (fun _ _ ended => ended) fun _ _ threw => threw

theorem Ensures.call {request : Call} {reply : Reply request} {later : State}
    {rest : Reply request → Program Call Reply Failure β} (here : during state)
    (torn : ∀ left, machine.torn request state left → during left)
    (served : machine.serve request state = .ok (reply, later))
    (ensured : Ensures machine during after failed (rest reply) later) :
    Ensures machine during after failed (.call request rest) state := by
  refine ⟨here, torn, fun failure threw => ?_, fun other final answered => ?_⟩
  · rw [served] at threw
    cases threw
  · rw [served] at answered
    cases answered
    exact ensured

theorem Ensures.served {request : Call} {reply : Reply request} {later : State}
    {rest : Reply request → Program Call Reply Failure β} (here : during state)
    (torn : ∀ left, machine.torn request state left → during left)
    (served : machine.serve request state = .ok (reply, later))
    (ensured : Ensures machine during after failed (rest reply) later) :
    Ensures machine during after failed (perform request >>= rest) state :=
  Ensures.call here torn served ensured

theorem Ensures.perform {request : Call} {reply : Reply request} {later : State}
    {after : Reply request → State → Prop} (here : during state)
    (torn : ∀ left, machine.torn request state left → during left)
    (served : machine.serve request state = .ok (reply, later)) (there : during later)
    (ended : after reply later) :
    Ensures machine during after failed (Crashes.perform request) state :=
  Ensures.call here torn served ⟨there, ended⟩

/-- A program that only reads leaves the state as it is, whether it throws or not. -/
theorem Ensures.reads {region : Call → Prop}
    (whole : ∀ request, region request → ∀ left, ¬ machine.torn request state left)
    (still : ∀ request reply later, region request →
      machine.serve request state = .ok (reply, later) → later = state)
    (here : during state) (calls : program.Calls region) :
    Ensures machine during (fun _ final => final = state) (fun _ _ => True) program state := by
  induction program with
  | done result => exact ⟨here, rfl⟩
  | fail failure => exact ⟨here, True.intro⟩
  | call request rest ih =>
      refine ⟨here, fun left partway => absurd partway (whole request calls.1 left),
        fun _ _ => True.intro, fun reply later served => ?_⟩
      obtain rfl := still request reply later calls.1 served
      exact ih reply (calls.2 reply)

theorem Ensures.foldlM (inv : β → List α → State → Prop)
    {body : β → α → Program Call Reply Failure β}
    (here : ∀ acc state, inv acc [] state → during state)
    (step : ∀ acc item rest state, inv acc (item :: rest) state →
      Ensures machine during (fun acc final => inv acc rest final) failed (body acc item) state)
    {items : List α} {acc : β} (start : inv acc items state) :
    Ensures machine during (fun acc final => inv acc [] final) failed (items.foldlM body acc) state := by
  induction items generalizing acc state with
  | nil => exact ⟨here acc state start, start⟩
  | cons item rest ih =>
      rw [List.foldlM_cons]
      exact (step acc item rest state start).bind fun acc final kept => ih kept

theorem Ensures.forM (inv : List α → State → Prop) {body : α → Program Call Reply Failure PUnit}
    (here : ∀ state, inv [] state → during state)
    (step : ∀ item rest state, inv (item :: rest) state →
      Ensures machine during (fun _ final => inv rest final) failed (body item) state)
    {items : List α} (start : inv items state) :
    Ensures machine during (fun _ final => inv [] final) failed (items.forM body) state := by
  induction items generalizing state with
  | nil => exact ⟨here state start, start⟩
  | cons item rest ih =>
      show Ensures machine during _ failed (body item >>= fun _ => rest.forM body) state
      exact (step item rest state start).bind fun _ final kept => ih kept

end Rules

section Observing

variable {program : Program Call Reply Failure α} {state other : State} {result : α}
  {next : α → Program Call Reply Failure β} {answer : β}

theorem Observes.bind (first : Observes machine program state result)
    (second : Observes machine (next result) state answer) :
    Observes machine (program >>= next) state answer := by
  induction program with
  | done found => exact first ▸ second
  | fail failure => exact first.elim
  | call request rest ih =>
      obtain ⟨whole, reply, served, rest⟩ := first
      exact ⟨whole, reply, served, ih reply rest⟩

theorem Observes.call {request : Call} {reply : Reply request}
    (whole : ∀ left, ¬ machine.torn request state left)
    (served : machine.serve request state = .ok (reply, state)) :
    Observes machine (perform request) state reply :=
  ⟨whole, reply, served, rfl⟩

theorem Observes.then {during : State → Prop} {after : β → State → Prop}
    {failed : Failure → State → Prop} (observed : Observes machine program state result)
    (ensured : Ensures machine during after failed (next result) state) :
    Ensures machine during after failed (program >>= next) state := by
  induction program with
  | done found => exact observed ▸ ensured
  | fail failure => exact observed.elim
  | call request rest ih =>
      obtain ⟨whole, reply, served, rest⟩ := observed
      exact Ensures.served ensured.holds (fun left partway => absurd partway (whole left)) served
        (ih reply rest)

theorem Observes.transport {region : Call → Prop}
    (alike : ∀ request reply, region request → (∀ left, ¬ machine.torn request state left) →
      machine.serve request state = .ok (reply, state) →
      (∀ left, ¬ machine.torn request other left) ∧
        machine.serve request other = .ok (reply, other))
    (calls : program.Calls region) (observed : Observes machine program state result) :
    Observes machine program other result := by
  induction program with
  | done found => exact observed
  | fail failure => exact observed
  | call request rest ih =>
      obtain ⟨whole, reply, served, rest⟩ := observed
      obtain ⟨wholeThere, servedThere⟩ := alike request reply calls.1 whole served
      exact ⟨wholeThere, reply, servedThere, ih reply (calls.2 reply) rest⟩

theorem Program.Calls.bind {region : Call → Prop} (first : program.Calls region)
    (second : ∀ result, (next result).Calls region) : (program >>= next).Calls region := by
  induction program with
  | done found => exact second found
  | fail failure => exact True.intro
  | call request rest ih => exact ⟨first.1, fun reply => ih reply (first.2 reply)⟩

theorem Program.Calls.perform {region : Call → Prop} {request : Call} (inside : region request) :
    (Crashes.perform request : Program Call Reply Failure (Reply request)).Calls region :=
  ⟨inside, fun _ => True.intro⟩

theorem Program.Calls.forM {region : Call → Prop} {body : α → Program Call Reply Failure PUnit}
    (each : ∀ item, (body item).Calls region) (items : List α) : (items.forM body).Calls region := by
  induction items with
  | nil => exact True.intro
  | cons item rest ih => exact (each item).bind fun _ => ih

theorem Program.Calls.foldlM {region : Call → Prop} {body : β → α → Program Call Reply Failure β}
    (each : ∀ acc item, (body acc item).Calls region) (items : List α) (acc : β) :
    (items.foldlM body acc).Calls region := by
  induction items generalizing acc with
  | nil => exact True.intro
  | cons item rest ih =>
      rw [List.foldlM_cons]
      exact (each acc item).bind ih

theorem Program.Yields.bind {good : β → Prop} (every : ∀ result, (next result).Yields good) :
    (program >>= next).Yields good := by
  induction program with
  | done found => exact every found
  | fail failure => exact True.intro
  | call request rest ih => exact fun reply => ih reply

theorem Observes.yields {good : α → Prop} (observed : Observes machine program state result)
    (yields : program.Yields good) : good result := by
  induction program with
  | done found => exact observed ▸ yields
  | fail failure => exact observed.elim
  | call request rest ih =>
      obtain ⟨-, reply, -, rest⟩ := observed
      exact ih reply rest (yields reply)

/-- Looks at each of some items, what they come to being good for their item. -/
theorem Observes.mapM_forall₂ {good : α → β → Prop} {body : α → Program Call Reply Failure β}
    {items : List α}
    (each : ∀ item ∈ items, ∃ value, Observes machine (body item) state value ∧ good item value) :
    ∃ values, Observes machine (items.mapM body) state values ∧ List.Forall₂ good items values := by
  induction items with
  | nil => exact ⟨[], rfl, .nil⟩
  | cons item rest ih =>
      obtain ⟨value, looked, fits⟩ := each item List.mem_cons_self
      obtain ⟨values, others, fit⟩ := ih fun other member => each other (List.mem_cons_of_mem _ member)
      refine ⟨value :: values, ?_, .cons fits fit⟩
      rw [List.mapM_cons]
      exact looked.bind (others.bind rfl)

theorem Observes.mapM {body : α → Program Call Reply Failure β} {items : List α} {value : α → β}
    (each : ∀ item ∈ items, Observes machine (body item) state (value item)) :
    Observes machine (items.mapM body) state (items.map value) := by
  induction items with
  | nil => exact rfl
  | cons item rest ih =>
      rw [List.mapM_cons, List.map_cons]
      refine (each item List.mem_cons_self).bind ?_
      refine (ih fun other member => each other (List.mem_cons_of_mem _ member)).bind ?_
      exact rfl

end Observing

end Kratos.Foundation.Crashes
