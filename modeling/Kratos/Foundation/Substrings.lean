/- source: none(language runtime)
   digest: The places where a needle stands in a text, and in texts put together. -/

import Mathlib.Data.List.Infix

set_option autoImplicit false

namespace Kratos.Foundation.Substrings

variable {α : Type}

/-- The needle stands in the text from this place on. -/
def OccursAt (needle text : List α) (place : Nat) : Prop := needle <+: text.drop place

/-- The needle stands in the text at this place and at no other. -/
def OnlyAt (needle text : List α) (place : Nat) : Prop :=
  ∀ other, OccursAt needle text other ↔ other = place

def Free (needle text : List α) : Prop := ∀ place, ¬ OccursAt needle text place

section Search

variable [DecidableEq α]

/-- `text.indexOf(needle)`, none where it is negative. -/
def indexOf (needle : List α) : List α → Option Nat
  | [] => if needle = [] then some 0 else none
  | entry :: rest =>
      if needle.isPrefixOf (entry :: rest) then some 0 else (indexOf needle rest).map (· + 1)

/-- `text.includes(needle, place)`. -/
def includesFrom (needle text : List α) (place : Nat) : Bool := (indexOf needle (text.drop place)).isSome

variable {needle text : List α} {place : Nat}

theorem indexOf_eq_none_iff : indexOf needle text = none ↔ Free needle text := by
  induction text with
  | nil =>
      simp only [indexOf, Free, OccursAt, List.drop_nil, List.prefix_nil]
      by_cases empty : needle = []
      · simp [empty]
      · simp [empty]
  | cons entry rest ih =>
      rw [indexOf]
      by_cases here : needle.isPrefixOf (entry :: rest) = true
      · rw [if_pos here]
        refine iff_of_false nofun fun free => free 0 ?_
        exact List.isPrefixOf_iff_prefix.mp here
      · rw [if_neg here, Option.map_eq_none_iff, ih]
        constructor
        · intro free other
          cases other with
          | zero => exact fun occurs => here (List.isPrefixOf_iff_prefix.mpr occurs)
          | succ other => exact free other
        · exact fun free other => free (other + 1)

theorem indexOf_eq_some (found : indexOf needle text = some place) :
    OccursAt needle text place ∧ ∀ earlier < place, ¬ OccursAt needle text earlier := by
  induction text generalizing place with
  | nil =>
      rw [indexOf] at found
      by_cases empty : needle = []
      · rw [if_pos empty] at found
        obtain rfl := Option.some.inj found
        rw [empty]
        exact ⟨List.nil_prefix, nofun⟩
      · rw [if_neg empty] at found
        cases found
  | cons entry rest ih =>
      rw [indexOf] at found
      by_cases here : needle.isPrefixOf (entry :: rest) = true
      · rw [if_pos here] at found
        obtain rfl := Option.some.inj found
        exact ⟨List.isPrefixOf_iff_prefix.mp here, nofun⟩
      · rw [if_neg here] at found
        obtain ⟨later, inside, rfl⟩ := Option.map_eq_some_iff.mp found
        obtain ⟨occurs, first⟩ := ih inside
        refine ⟨occurs, ?_⟩
        intro earlier before
        cases earlier with
        | zero => exact fun occurs => here (List.isPrefixOf_iff_prefix.mpr occurs)
        | succ earlier => exact first earlier (by omega)

theorem includesFrom_iff : includesFrom needle text place = true ↔
    ∃ other, place ≤ other ∧ OccursAt needle text other := by
  have none : includesFrom needle text place = false ↔ Free needle (text.drop place) := by
    rw [includesFrom, Option.isSome_eq_false_iff, Option.isNone_iff_eq_none, indexOf_eq_none_iff]
  rw [← Bool.not_eq_false, none, Free]
  simp only [OccursAt, List.drop_drop, not_forall, not_not]
  constructor
  · rintro ⟨offset, occurs⟩
    exact ⟨place + offset, by omega, occurs⟩
  · rintro ⟨other, after, occurs⟩
    refine ⟨other - place, ?_⟩
    rw [Nat.add_sub_cancel' after]
    exact occurs

theorem OnlyAt.indexOf (only : OnlyAt needle text place) :
    indexOf needle text = some place ∧ includesFrom needle text (place + 1) = false := by
  constructor
  · cases found : Substrings.indexOf needle text with
    | none => exact absurd ((only place).mpr rfl) (indexOf_eq_none_iff.mp found place)
    | some other => rw [(only other).mp (indexOf_eq_some found).1]
  · rw [← Bool.not_eq_true, includesFrom_iff]
    rintro ⟨other, after, occurs⟩
    have same := (only other).mp occurs
    omega

/-- A place the search finds first and that nothing follows is the only one. -/
theorem onlyAt_of_indexOf (found : Substrings.indexOf needle text = some place)
    (last : includesFrom needle text (place + 1) = false) : OnlyAt needle text place := by
  obtain ⟨occurs, first⟩ := indexOf_eq_some found
  intro other
  constructor
  · intro elsewhere
    have notBefore : ¬ other < place := fun before => first other before elsewhere
    have notAfter : ¬ place + 1 ≤ other := by
      intro after
      rw [includesFrom_iff.mpr ⟨other, after, elsewhere⟩] at last
      cases last
    omega
  · rintro rfl
    exact occurs

end Search

section Joined

variable {needle left right : List α} {place : Nat}

/-- No occurrence of the needle lies across the place where the two texts meet. -/
def Apart (needle left right : List α) : Prop :=
  ∀ front back, front ≠ [] → back ≠ [] → needle = front ++ back → front <:+ left → ¬ back <+: right

theorem Apart.of_head {entry : α} (absent : entry ∉ needle.tail) (left right : List α) :
    Apart needle left (entry :: right) := by
  rintro front back someFront someBack rfl - ⟨rest, meets⟩
  cases front with
  | nil => exact someFront rfl
  | cons first front =>
      cases back with
      | nil => exact someBack rfl
      | cons second back =>
          obtain rfl := (List.cons.inj meets).1
          exact absent (List.mem_append_right _ List.mem_cons_self)

theorem Apart.of_last {entry : α} (absent : entry ∉ needle.dropLast) (left right : List α) :
    Apart needle (left ++ [entry]) right := by
  rintro front back someFront someBack rfl ⟨rest, meets⟩ -
  obtain ⟨front, last, rfl⟩ := List.eq_nil_or_concat front |>.resolve_left someFront
  rw [List.concat_eq_append] at meets absent
  rw [← List.append_assoc] at meets
  obtain rfl := (List.append_inj' meets rfl).2 |> List.cons.inj |>.1
  rw [List.dropLast_append_of_ne_nil someBack] at absent
  simp at absent

theorem OccursAt.lt_length (occurs : OccursAt needle left place) (some : needle ≠ []) :
    place < left.length := by
  by_contra after
  rw [OccursAt, List.drop_of_length_le (Nat.le_of_not_lt after), List.prefix_nil] at occurs
  exact some occurs

/-- In two texts put together a needle stands where it stands in one of them. -/
theorem occursAt_append (some : needle ≠ []) (apart : Apart needle left right) :
    OccursAt needle (left ++ right) place ↔ OccursAt needle left place ∨
      ∃ later, place = left.length + later ∧ OccursAt needle right later := by
  constructor
  · intro occurs
    rcases Nat.lt_or_ge place left.length with inside | after
    · rw [OccursAt, List.drop_append_of_le_length inside.le] at occurs
      rcases Nat.le_total needle.length (left.drop place).length with short | long
      · exact .inl (List.prefix_of_prefix_length_le occurs (List.prefix_append _ _) short)
      · obtain ⟨back, rfl⟩ := List.prefix_of_prefix_length_le (List.prefix_append _ right) occurs long
        by_cases none : back = []
        · subst none
          rw [List.append_nil]
          exact .inl List.prefix_rfl
        · have someFront : left.drop place ≠ [] := by
            rw [Ne, List.drop_eq_nil_iff]
            omega
          exact absurd ((List.prefix_append_right_inj _).mp occurs)
            (apart _ back someFront none rfl (List.drop_suffix _ _))
    · refine .inr ⟨place - left.length, by omega, ?_⟩
      rw [OccursAt, List.drop_append, List.drop_of_length_le after, List.nil_append] at occurs
      exact occurs
  · rintro (occurs | ⟨later, rfl, occurs⟩)
    · rw [OccursAt, List.drop_append_of_le_length (occurs.lt_length some).le]
      exact occurs.trans (List.prefix_append _ _)
    · rw [OccursAt, List.drop_append, List.drop_of_length_le (by omega), List.nil_append,
        Nat.add_sub_cancel_left]
      exact occurs

theorem free_append (some : needle ≠ []) (apart : Apart needle left right) :
    Free needle (left ++ right) ↔ Free needle left ∧ Free needle right := by
  constructor
  · intro free
    constructor
    · exact fun place occurs => free place ((occursAt_append some apart).mpr (.inl occurs))
    · exact fun place occurs => free (left.length + place)
        ((occursAt_append some apart).mpr (.inr ⟨place, rfl, occurs⟩))
  · rintro ⟨leftFree, rightFree⟩ place occurs
    rcases (occursAt_append some apart).mp occurs with inside | ⟨later, -, inside⟩
    · exact leftFree place inside
    · exact rightFree later inside

/-- A needle that stands once in a middle text stands once between texts free of it. -/
theorem onlyAt_between {middle : List α} (place : Nat) (some : needle ≠ [])
    (before : Apart needle left (middle ++ right)) (after : Apart needle middle right)
    (within : place < middle.length) :
    OnlyAt needle (left ++ (middle ++ right)) (left.length + place) ↔
      Free needle left ∧ OnlyAt needle middle place ∧ Free needle right := by
  have split : ∀ other, OccursAt needle (left ++ (middle ++ right)) other ↔
      OccursAt needle left other ∨ (∃ later, other = left.length + later ∧
        (OccursAt needle middle later ∨ ∃ last, later = middle.length + last ∧
          OccursAt needle right last)) := by
    intro other
    rw [occursAt_append some before]
    simp only [occursAt_append some after]
  constructor
  · intro only
    refine ⟨?_, ?_, ?_⟩
    · intro other occurs
      have same := (only other).mp ((split other).mpr (.inl occurs))
      have inside := occurs.lt_length some
      omega
    · intro other
      constructor
      · intro occurs
        have same := (only (left.length + other)).mp
          ((split _).mpr (.inr ⟨other, rfl, .inl occurs⟩))
        omega
      · rintro rfl
        rcases (split _).mp ((only _).mpr rfl) with early | ⟨later, same, here | ⟨last, beyond, -⟩⟩
        · have inside := early.lt_length some
          omega
        · obtain rfl : other = later := by omega
          exact here
        · omega
    · intro other occurs
      have same := (only (left.length + (middle.length + other))).mp
        ((split _).mpr (.inr ⟨_, rfl, .inr ⟨other, rfl, occurs⟩⟩))
      omega
  · rintro ⟨leftFree, only, rightFree⟩ other
    rw [split]
    constructor
    · rintro (early | ⟨later, rfl, here | ⟨last, -, late⟩⟩)
      · exact absurd early (leftFree other)
      · rw [(only later).mp here]
      · exact absurd late (rightFree last)
    · rintro rfl
      exact .inr ⟨place, rfl, .inl ((only place).mpr rfl)⟩

end Joined

section Places

variable {text : List α}

/-- A needle that starts with an entry another needle has in first place only does not start
inside it. -/
theorem OccursAt.after {needle other : List α} {entry : α} {tail : List α} {first second : Nat}
    (occurs : OccursAt needle text first) (starts : other = entry :: tail)
    (absent : entry ∉ needle.tail) (later : OccursAt other text second) (order : first < second) :
    first + needle.length ≤ second := by
  by_contra inside
  apply absent
  obtain ⟨rest, whole⟩ := occurs
  obtain ⟨back, found⟩ := later
  have offset : text.drop second = (needle ++ rest).drop (second - first) := by
    rw [whole, List.drop_drop]
    congr 1
    omega
  rw [List.drop_append_of_le_length (by omega)] at offset
  have head : (needle.drop (second - first)).head? = some entry := by
    have someRest : needle.drop (second - first) ≠ [] := by
      rw [Ne, List.drop_eq_nil_iff]
      omega
    have heads := congrArg List.head? (found.trans offset)
    rw [starts, List.head?_append_of_ne_nil _ someRest] at heads
    exact heads.symm
  have member := List.mem_of_head? head
  have within : needle.drop (second - first) = needle.tail.drop (second - first - 1) := by
    rw [← List.drop_one, List.drop_drop]
    congr 1
    omega
  exact List.mem_of_mem_drop (within ▸ member)

theorem split_two {needle other : List α} {first second : Nat} (occurs : OccursAt needle text first)
    (later : OccursAt other text second) (order : first + needle.length ≤ second)
    (some : other ≠ []) :
    ∃ before middle after, text = before ++ (needle ++ middle ++ other ++ after) ∧
      before.length = first ∧ first + needle.length + middle.length = second := by
  have inside := later.lt_length some
  obtain ⟨rest, whole⟩ := occurs
  obtain ⟨after, found⟩ := later
  have front := List.take_append_drop first text
  have place : rest = text.drop (first + needle.length) := by
    rw [← List.drop_drop, ← whole, List.drop_left]
  have middle : rest = rest.take (second - (first + needle.length)) ++ (other ++ after) := by
    have back : rest.drop (second - (first + needle.length)) = other ++ after := by
      rw [place, List.drop_drop, found]
      congr 1
      omega
    rw [← back, List.take_append_drop]
  refine ⟨text.take first, rest.take (second - (first + needle.length)), after, ?_, ?_, ?_⟩
  · rw [List.append_assoc, List.append_assoc, ← middle, whole, front]
  · rw [List.length_take]
    omega
  · rw [List.length_take, place, List.length_drop]
    omega

end Places

end Kratos.Foundation.Substrings
