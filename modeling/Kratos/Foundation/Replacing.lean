/- source: none(language runtime)
   digest: The replacement of every occurrence of a needle that is not empty. -/

import Mathlib.Data.List.Infix

set_option autoImplicit false

namespace Kratos.Foundation.Replacing

variable {α : Type} [DecidableEq α]

/-- The text with some units still to be passed over and every later occurrence replaced. -/
def replaceFrom (needle replacement : List α) : Nat → List α → List α
  | _, [] => []
  | skip + 1, _ :: rest => replaceFrom needle replacement skip rest
  | 0, u :: rest =>
      if needle.isPrefixOf (u :: rest) then
        replacement ++ replaceFrom needle replacement (needle.length - 1) rest
      else u :: replaceFrom needle replacement 0 rest

/-- `text.replaceAll(needle, replacement)`, the needle not empty and the replacement plain. -/
def replaceAll (text needle replacement : List α) : List α := replaceFrom needle replacement 0 text

theorem replaceAll_same_or (text needle replacement : List α) :
    replaceAll text needle replacement = text ∨
      ∀ u ∈ replacement, u ∈ replaceAll text needle replacement := by
  rw [replaceAll]
  induction text with
  | nil => exact .inl rfl
  | cons u rest ih =>
      rw [replaceFrom]
      by_cases here : needle.isPrefixOf (u :: rest) = true
      · rw [if_pos here]
        exact .inr fun v member => List.mem_append_left _ member
      · rw [if_neg here]
        rcases ih with same | replaced
        · exact .inl (congrArg (u :: ·) same)
        · exact .inr fun v member => List.mem_cons_of_mem u (replaced v member)

theorem replaceAll_eq_of_not_mem {text needle replacement : List α} {u : α}
    (listed : u ∈ replacement) (absent : u ∉ replaceAll text needle replacement) :
    replaceAll text needle replacement = text :=
  (replaceAll_same_or text needle replacement).resolve_right fun replaced =>
    absent (replaced u listed)

theorem replaceAll_of_not_mem {text replacement more : List α} {u : α} (absent : u ∉ text) :
    replaceAll text (u :: more) replacement = text := by
  rw [replaceAll]
  induction text with
  | nil => rfl
  | cons v rest ih =>
      obtain ⟨differ, later⟩ := not_or.mp (fun member => absent (List.mem_cons.mpr member))
      have apart : ¬(u :: more).isPrefixOf (v :: rest) = true := by
        simp [List.isPrefixOf, differ]
      rw [replaceFrom, if_neg apart, ih later]

end Kratos.Foundation.Replacing
