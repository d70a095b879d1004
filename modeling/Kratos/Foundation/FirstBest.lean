/- source: none(language runtime)
   digest: The head of a stably sorted list: the first of its entries that none comes before. -/

import Mathlib.Data.List.Basic

set_option autoImplicit false

namespace Kratos.Foundation.FirstBest

variable {α : Type} {le : α → α → Bool}

/-- A consistent comparison: of two entries one may stand first, and so along a chain. -/
structure Consistent (le : α → α → Bool) : Prop where
  trans : ∀ a b c, le a b = true → le b c = true → le a c = true
  total : ∀ a b, (le a b || le b a) = true

theorem Consistent.refl (consistent : Consistent le) (a : α) : le a a = true := by
  simpa using consistent.total a a

theorem Consistent.reverse (consistent : Consistent le) {a b : α} (behind : le a b = false) :
    le b a = true := by
  have either := consistent.total a b
  rw [behind, Bool.false_or] at either
  exact either

/-- The first entry that no entry comes before. -/
def firstBest (le : α → α → Bool) : List α → Option α
  | [] => none
  | a :: rest =>
      match firstBest le rest with
      | none => some a
      | some best => if le a best then some a else some best

theorem firstBest_cons_isSome (a : α) (rest : List α) :
    ∃ best, firstBest le (a :: rest) = some best := by
  rw [firstBest]
  split
  · exact ⟨a, rfl⟩
  · split
    · exact ⟨a, rfl⟩
    · exact ⟨_, rfl⟩

theorem firstBest_cons {a best : α} {rest : List α}
    (found : firstBest le (a :: rest) = some best) :
    (best = a ∧ ∀ other, firstBest le rest = some other → le a other = true) ∨
      (firstBest le rest = some best ∧ le a best = false) := by
  rw [firstBest] at found
  split at found
  · rename_i none
    cases found
    exact .inl ⟨rfl, fun other some => by rw [none] at some; cases some⟩
  · rename_i later some
    split at found
    · rename_i first
      cases found
      refine .inl ⟨rfl, fun other same => ?_⟩
      rw [some] at same
      cases same
      exact first
    · rename_i behind
      cases found
      exact .inr ⟨some, by simpa using behind⟩

theorem firstBest_mem {values : List α} {best : α} (found : firstBest le values = some best) :
    best ∈ values := by
  induction values generalizing best with
  | nil => cases found
  | cons a rest ih =>
      rcases firstBest_cons found with ⟨rfl, -⟩ | ⟨later, -⟩
      · exact List.mem_cons_self
      · exact List.mem_cons_of_mem _ (ih later)

/-- The head of a list sorted by a consistent comparison is its best entry. -/
theorem head?_mergeSort (consistent : Consistent le) (values : List α) :
    (values.mergeSort le).head? = firstBest le values := by
  induction values with
  | nil => rw [List.mergeSort_nil, List.head?_nil, firstBest]
  | cons a rest ih =>
      obtain ⟨front, back, whole, apart, before⟩ :=
        List.mergeSort_cons consistent.trans consistent.total a rest
      rw [firstBest, ← ih, whole, apart]
      cases front with
      | nil =>
          have sorted := List.pairwise_mergeSort consistent.trans consistent.total (a :: rest)
          rw [whole, List.nil_append] at sorted
          cases back with
          | nil => rfl
          | cons b back =>
              have first := (List.pairwise_cons.mp sorted).1 b List.mem_cons_self
              simp only [List.nil_append, List.head?_cons, first, if_true]
      | cons b front =>
          have first : le a b = false := by simpa using before b List.mem_cons_self
          simp only [List.cons_append, List.head?_cons, first, Bool.false_eq_true, if_false]

theorem firstBest_le (consistent : Consistent le) {values : List α} {best : α}
    (found : firstBest le values = some best) : ∀ a ∈ values, le best a = true := by
  induction values generalizing best with
  | nil => cases found
  | cons a rest ih =>
      intro b member
      rcases firstBest_cons found with ⟨rfl, first⟩ | ⟨later, behind⟩
      · rcases List.mem_cons.mp member with rfl | inside
        · exact consistent.refl b
        · cases rest with
          | nil => cases inside
          | cons c rest =>
              obtain ⟨other, some⟩ := @firstBest_cons_isSome _ le c rest
              exact consistent.trans _ _ _ (first other some) (ih some b inside)
      · rcases List.mem_cons.mp member with rfl | inside
        · exact consistent.reverse behind
        · exact ih later b inside

/-- The better of two entries, the first where neither comes before the other. -/
def better (le : α → α → Bool) (first second : α) : α := if le first second then first else second

theorem firstBest_two (first second : α) :
    firstBest le [first, second] = some (better le first second) := by
  simp only [firstBest, better]
  split
  · rfl
  · rfl

/-- With two entries in front, the best is the better of them or comes strictly before it. -/
theorem firstBest_pair (consistent : Consistent le) {first second best : α} {rest : List α}
    (found : firstBest le (first :: second :: rest) = some best) :
    best = better le first second ∨ le (better le first second) best = false := by
  have bounds := firstBest_le consistent found
  have strict : le first best = false → le second best = false →
      le (better le first second) best = false := by
    intro one two
    rw [better]
    split
    · exact one
    · exact two
  rcases firstBest_cons found with ⟨rfl, -⟩ | ⟨later, one⟩
  · have front := bounds second (List.mem_cons_of_mem _ List.mem_cons_self)
    exact .inl (by rw [better, if_pos front])
  · rcases firstBest_cons later with ⟨rfl, -⟩ | ⟨-, two⟩
    · exact .inl (by rw [better, if_neg (by rw [one]; exact Bool.false_ne_true)])
    · exact .inr (strict one two)

/-- An entry that comes strictly before both in front and first among the rest is the best. -/
theorem firstBest_of_strict (consistent : Consistent le) {first second best : α} {rest : List α}
    (later : firstBest le rest = some best)
    (strict : le (better le first second) best = false) :
    firstBest le (first :: second :: rest) = some best := by
  have both : le first best = false ∧ le second best = false := by
    rw [better] at strict
    split at strict
    · rename_i front
      refine ⟨strict, Bool.eq_false_iff.mpr fun behind => ?_⟩
      exact Bool.eq_false_iff.mp strict (consistent.trans _ _ _ front behind)
    · rename_i back
      refine ⟨Bool.eq_false_iff.mpr fun behind => ?_, strict⟩
      have front := consistent.reverse (Bool.eq_false_iff.mpr back)
      exact Bool.eq_false_iff.mp strict (consistent.trans _ _ _ front behind)
  simp only [firstBest, later, both.1, both.2, Bool.false_eq_true, if_false]

end Kratos.Foundation.FirstBest
