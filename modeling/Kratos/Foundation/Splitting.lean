/- source: none(language runtime)
   digest: A list split at a separator: its words, and the words of its parts. -/

import Mathlib.Data.List.Basic

set_option autoImplicit false

namespace Kratos.Foundation.Splitting

variable {α : Type*} [DecidableEq α] {separator : α}

theorem not_mem_of_mem_splitOn {text word : List α} (member : word ∈ text.splitOn separator) :
    separator ∉ word := by
  induction text generalizing word with
  | nil =>
      rw [List.splitOn_nil, List.mem_singleton] at member
      rw [member]
      exact List.not_mem_nil
  | cons first rest ih =>
      rw [List.splitOn_cons_eq_if_modifyHead] at member
      split at member
      · rcases List.mem_cons.mp member with rfl | inside
        · exact List.not_mem_nil
        · exact ih inside
      · rename_i other
        rw [beq_iff_eq] at other
        obtain ⟨head, tail, shape⟩ := List.exists_cons_of_ne_nil
          (List.splitOn_ne_nil separator rest)
        rw [shape, List.modifyHead_cons] at member
        rcases List.mem_cons.mp member with rfl | inside
        · rw [List.mem_cons, not_or]
          exact ⟨Ne.symm other, ih (shape ▸ List.mem_cons_self)⟩
        · exact ih (shape ▸ List.mem_cons_of_mem _ inside)

theorem splitOn_injective {text other : List α}
    (same : text.splitOn separator = other.splitOn separator) : text = other := by
  have joined : [separator].intercalate (text.splitOn separator) = text :=
    List.intercalate_splitOn separator
  rw [← joined, same, List.intercalate_splitOn]

theorem split_words {front back : List (List α)} {text : List α}
    (split : text.splitOn separator = front ++ back) (some : front ≠ []) (more : back ≠ []) :
    ∃ before after, text = before ++ separator :: after ∧ before.splitOn separator = front ∧
      after.splitOn separator = back := by
  have plain : ∀ word ∈ front ++ back, separator ∉ word := by
    intro word member
    rw [← split] at member
    exact not_mem_of_mem_splitOn member
  have first := List.splitOn_intercalate separator
    (fun word member => plain word (List.mem_append_left _ member)) some
  have second := List.splitOn_intercalate separator
    (fun word member => plain word (List.mem_append_right _ member)) more
  refine ⟨_, _, splitOn_injective (?_ : text.splitOn separator = _), first, second⟩
  rw [List.splitOn_append_cons_self, first, second, split]

theorem splitOn_eq_singleton_iff {text word : List α} :
    text.splitOn separator = [word] ↔ text = word ∧ separator ∉ word := by
  constructor
  · intro split
    have apart : separator ∉ word :=
      not_mem_of_mem_splitOn (by rw [split]; exact List.mem_singleton_self word)
    refine ⟨splitOn_injective (?_ : text.splitOn separator = _), apart⟩
    rw [split, List.splitOn_eq_singleton apart]
  · rintro ⟨rfl, apart⟩
    exact List.splitOn_eq_singleton apart

theorem splitOn_cons_iff {text word : List α} {later : List (List α)} (more : later ≠ []) :
    text.splitOn separator = word :: later ↔
      ∃ rest, text = word ++ separator :: rest ∧ separator ∉ word ∧
        rest.splitOn separator = later := by
  constructor
  · intro split
    rw [← List.singleton_append] at split
    obtain ⟨before, rest, rfl, first, second⟩ := split_words split (List.cons_ne_nil _ _) more
    obtain ⟨rfl, apart⟩ := splitOn_eq_singleton_iff.mp first
    exact ⟨rest, rfl, apart, second⟩
  · rintro ⟨rest, rfl, apart, rfl⟩
    rw [List.splitOn_append_cons_self, List.splitOn_eq_singleton apart]
    rfl

omit [DecidableEq α] in
theorem intercalate_ended {words : List (List α)} (filled : words ≠ []) (separator : α) :
    List.intercalate [separator] words ++ [separator] =
      words.flatMap fun word => word ++ [separator] := by
  induction words with
  | nil => exact absurd rfl filled
  | cons word words ih =>
      cases words with
      | nil => simp
      | cons next words =>
          have tail := ih (List.cons_ne_nil next words)
          rw [List.intercalate_cons_cons, List.append_assoc, List.append_assoc, tail]
          simp

omit [DecidableEq α] in
theorem mem_intercalate {sep u : α} {words : List (List α)}
    (member : u ∈ [sep].intercalate words) : u = sep ∨ ∃ word ∈ words, u ∈ word := by
  induction words with
  | nil => cases member
  | cons word words hyp =>
      cases words with
      | nil =>
          rw [List.intercalate_singleton] at member
          exact .inr ⟨word, List.mem_cons_self, member⟩
      | cons next words =>
          rw [List.intercalate_cons_cons, List.append_assoc, List.mem_append] at member
          rcases member with here | later
          · exact .inr ⟨word, List.mem_cons_self, here⟩
          · rcases List.mem_cons.mp later with same | later
            · exact .inl same
            · rcases hyp later with same | ⟨other, listed, inside⟩
              · exact .inl same
              · exact .inr ⟨other, List.mem_cons_of_mem _ listed, inside⟩

omit [DecidableEq α] in
theorem mem_intercalate_of_mem {sep u : α} {words : List (List α)} {word : List α}
    (listed : word ∈ words) (member : u ∈ word) : u ∈ [sep].intercalate words := by
  induction words with
  | nil => cases listed
  | cons first words hyp =>
      cases words with
      | nil =>
          rw [List.intercalate_singleton]
          rwa [List.mem_singleton.mp listed] at member
      | cons next words =>
          rw [List.intercalate_cons_cons, List.append_assoc, List.mem_append]
          rcases List.mem_cons.mp listed with rfl | later
          · exact .inl member
          · exact .inr (List.mem_cons_of_mem _ (hyp later))

end Kratos.Foundation.Splitting
