/- source: none(formal languages)
   digest: Patterns over separated words, read word by word, and the flat expression with the same meaning. -/

import Kratos.Foundation.Splitting

set_option autoImplicit false

namespace Kratos.Foundation.GlobLanguage

open Foundation.Splitting

variable {α : Type*}

section Meaning

/-- A piece of a word's pattern: one allowed character, or a run of any characters. -/
inductive Piece (α : Type*)
  | one (allowed : α → Prop)
  | run

/-- The pattern of one word, or of any number of whole words. -/
inductive Part (α : Type*)
  | word (pieces : List (Piece α))
  | words

/-- The characters that the pieces of a word's pattern cover. -/
def Spells : List (Piece α) → List α → Prop
  | [], word => word = []
  | .one allowed :: rest, word => ∃ c tail, word = c :: tail ∧ allowed c ∧ Spells rest tail
  | .run :: rest, word => ∃ front back, word = front ++ back ∧ Spells rest back

/-- The words that a pattern covers, where `words` stands for words that are admitted. What comes
last in a pattern covers at least one word. -/
def Covers (admitted : List α → Prop) : List (Part α) → List (List α) → Prop
  | [], words => words = []
  | .word pieces :: rest, words =>
      ∃ word later, words = word :: later ∧ Spells pieces word ∧ Covers admitted rest later
  | .words :: rest, words =>
      ∃ front back, words = front ++ back ∧ (rest = [] → front ≠ []) ∧
        (∀ word ∈ front, admitted word) ∧ Covers admitted rest back

theorem Covers.mono {admitted wider : List α → Prop} {parts : List (Part α)}
    {words : List (List α)} (imp : ∀ word ∈ words, admitted word → wider word)
    (covered : Covers admitted parts words) : Covers wider parts words := by
  induction parts generalizing words with
  | nil => exact covered
  | cons part rest ih =>
      cases part with
      | word pieces =>
          obtain ⟨word, later, rfl, spelled, inner⟩ := covered
          exact ⟨word, later, rfl, spelled,
            ih (fun other member => imp other (List.mem_cons_of_mem _ member)) inner⟩
      | words =>
          obtain ⟨front, back, rfl, last, own, inner⟩ := covered
          refine ⟨front, back, rfl, last, ?_, ?_⟩
          · intro word member
            exact imp word (List.mem_append_left _ member) (own word member)
          · exact ih (fun other member => imp other (List.mem_append_right _ member)) inner

private theorem Covers.words_ne_nil {admitted : List α → Prop} {parts : List (Part α)}
    (some : parts ≠ []) (covered : Covers admitted parts []) : False := by
  induction parts with
  | nil => exact some rfl
  | cons part rest ih =>
      cases part with
      | word pieces =>
          obtain ⟨word, later, none, -⟩ := covered
          cases none
      | words =>
          obtain ⟨front, back, none, last, -, inner⟩ := covered
          obtain ⟨rfl, rfl⟩ := List.append_eq_nil_iff.mp none.symm
          exact ih (fun ends => last ends rfl) inner

end Meaning

section Flat

/-- An atom of a flat expression: one character, a run, or a closed run that may be left out. -/
inductive Atom (α : Type*)
  | one (allowed : α → Prop)
  | run (allowed : α → Prop)
  | optional (allowed : α → Prop) (closing : α)

def Accepts : List (Atom α) → List α → Prop
  | [], text => text = []
  | .one allowed :: rest, text => ∃ c tail, text = c :: tail ∧ allowed c ∧ Accepts rest tail
  | .run allowed :: rest, text =>
      ∃ front back, text = front ++ back ∧ (∀ c ∈ front, allowed c) ∧ Accepts rest back
  | .optional allowed closing :: rest, text =>
      Accepts rest text ∨
        ∃ front back, text = front ++ closing :: back ∧ (∀ c ∈ front, allowed c) ∧ Accepts rest back

variable (separator : α) (bounded : α → Prop)

/-- A piece inside a text: never the separator. -/
def Piece.atom : Piece α → Atom α
  | .one allowed => .one fun c => c ≠ separator ∧ allowed c
  | .run => .run fun c => c ≠ separator

/-- The flat expression of a pattern; its runs of words are runs of bounded characters. -/
def flatten : List (Part α) → List (Atom α)
  | [] => []
  | [.word pieces] => pieces.map (Piece.atom separator)
  | [.words] => [.run bounded]
  | .word pieces :: second :: rest =>
      pieces.map (Piece.atom separator) ++ .one (· = separator) :: flatten (second :: rest)
  | .words :: second :: rest => .optional bounded separator :: flatten (second :: rest)

variable {separator bounded}

theorem accepts_word {pieces : List (Piece α)} {rest : List (Atom α)} {text : List α} :
    Accepts (pieces.map (Piece.atom separator) ++ rest) text ↔
      ∃ word back, text = word ++ back ∧ separator ∉ word ∧ Spells pieces word ∧
        Accepts rest back := by
  induction pieces generalizing text with
  | nil =>
      constructor
      · intro accepted
        exact ⟨[], text, rfl, List.not_mem_nil, rfl, accepted⟩
      · rintro ⟨word, back, rfl, -, rfl, accepted⟩
        exact accepted
  | cons piece pieces ih =>
      cases piece with
      | one allowed =>
          constructor
          · rintro ⟨c, tail, rfl, ⟨plain, own⟩, accepted⟩
            obtain ⟨word, back, rfl, apart, spelled, inner⟩ := ih.mp accepted
            refine ⟨c :: word, back, rfl, ?_, ⟨c, word, rfl, own, spelled⟩, inner⟩
            rw [List.mem_cons, not_or]
            exact ⟨plain.symm, apart⟩
          · rintro ⟨word, back, rfl, apart, ⟨c, tail, rfl, own, spelled⟩, inner⟩
            rw [List.mem_cons, not_or] at apart
            exact ⟨c, tail ++ back, rfl, ⟨apart.1 ∘ Eq.symm, own⟩,
              ih.mpr ⟨tail, back, rfl, apart.2, spelled, inner⟩⟩
      | run =>
          constructor
          · rintro ⟨front, tail, rfl, plain, accepted⟩
            obtain ⟨word, back, rfl, apart, spelled, inner⟩ := ih.mp accepted
            refine ⟨front ++ word, back, (List.append_assoc _ _ _).symm, ?_,
              ⟨front, word, rfl, spelled⟩, inner⟩
            rw [List.mem_append, not_or]
            exact ⟨fun member => plain separator member rfl, apart⟩
          · rintro ⟨word, back, rfl, apart, ⟨front, tail, rfl, spelled⟩, inner⟩
            rw [List.mem_append, not_or] at apart
            refine ⟨front, tail ++ back, List.append_assoc _ _ _, ?_,
              ih.mpr ⟨tail, back, rfl, apart.2, spelled, inner⟩⟩
            rintro c member rfl
            exact apart.1 member

variable [DecidableEq α]

private theorem bounded_words (closed : bounded separator) (text : List α) :
    (∀ word ∈ text.splitOn separator, ∀ c ∈ word, bounded c) ↔ ∀ c ∈ text, bounded c := by
  induction text with
  | nil => simp
  | cons first rest ih =>
      rw [List.splitOn_cons_eq_if_modifyHead]
      by_cases same : first = separator
      · subst same
        simp only [beq_self_eq_true, if_true, List.mem_cons, forall_eq_or_imp, ih]
        simp [closed]
      · obtain ⟨head, tail, shape⟩ := List.exists_cons_of_ne_nil
          (List.splitOn_ne_nil separator rest)
        rw [shape] at ih
        simp only [beq_iff_eq, same, if_false, shape, List.modifyHead_cons, List.mem_cons,
          forall_eq_or_imp] at ih ⊢
        rw [and_assoc, ih]

/-- The flat expression accepts the texts whose words the pattern covers with bounded words. -/
theorem accepts_flatten (closed : bounded separator) {parts : List (Part α)} (some : parts ≠ [])
    {text : List α} :
    Accepts (flatten separator bounded parts) text ↔
      Covers (fun word => ∀ c ∈ word, bounded c) parts (text.splitOn separator) := by
  induction parts generalizing text with
  | nil => exact absurd rfl some
  | cons part rest ih =>
      cases rest with
      | nil =>
          cases part with
          | word pieces =>
              rw [flatten, ← List.append_nil (pieces.map _), accepts_word]
              constructor
              · rintro ⟨word, back, rfl, apart, spelled, rfl⟩
                rw [List.append_nil, List.splitOn_eq_singleton apart]
                exact ⟨word, [], rfl, spelled, rfl⟩
              · rintro ⟨word, later, split, spelled, rfl⟩
                obtain ⟨rfl, apart⟩ := splitOn_eq_singleton_iff.mp split
                exact ⟨text, [], (List.append_nil _).symm, apart, spelled, rfl⟩
          | words =>
              rw [flatten]
              constructor
              · rintro ⟨front, back, rfl, own, rfl⟩
                refine ⟨_, [], (List.append_nil _).symm, fun _ => List.splitOn_ne_nil _ _, ?_, rfl⟩
                rw [bounded_words closed, List.append_nil]
                exact own
              · rintro ⟨front, back, split, -, own, rfl⟩
                rw [List.append_nil] at split
                refine ⟨text, [], (List.append_nil _).symm, ?_, rfl⟩
                rw [← bounded_words closed, split]
                exact own
      | cons second rest =>
          have ih := @ih (List.cons_ne_nil second rest)
          cases part with
          | word pieces =>
              rw [flatten, accepts_word]
              constructor
              · rintro ⟨word, back, rfl, apart, spelled, ⟨c, tail, rfl, rfl, inner⟩⟩
                exact ⟨word, tail.splitOn c, (splitOn_cons_iff (List.splitOn_ne_nil _ _)).mpr
                  ⟨tail, rfl, apart, rfl⟩, spelled, ih.mp inner⟩
              · rintro ⟨word, later, split, spelled, inner⟩
                have more : later ≠ [] := by
                  rintro rfl
                  exact Covers.words_ne_nil (List.cons_ne_nil _ _) inner
                obtain ⟨tail, rfl, apart, rfl⟩ := (splitOn_cons_iff more).mp split
                exact ⟨word, separator :: tail, rfl, apart, spelled, separator, tail, rfl, rfl,
                  ih.mpr inner⟩
          | words =>
              rw [flatten]
              constructor
              · rintro (inner | ⟨front, back, rfl, own, inner⟩)
                · exact ⟨[], text.splitOn separator, rfl, fun none => absurd none (List.cons_ne_nil _ _),
                    fun _ none => absurd none List.not_mem_nil, ih.mp inner⟩
                · refine ⟨front.splitOn separator, back.splitOn separator,
                    List.splitOn_append_cons_self _ _, fun _ => List.splitOn_ne_nil _ _, ?_, ih.mp inner⟩
                  exact (bounded_words closed front).mpr own
              · rintro ⟨front, back, split, -, own, inner⟩
                by_cases none : front = []
                · subst none
                  left
                  rw [List.nil_append] at split
                  exact ih.mpr (split ▸ inner)
                · right
                  have more : back ≠ [] := by
                    rintro rfl
                    exact Covers.words_ne_nil (List.cons_ne_nil _ _) inner
                  obtain ⟨before, after, rfl, rfl, rfl⟩ := split_words split none more
                  exact ⟨before, after, rfl, (bounded_words closed before).mp own, ih.mpr inner⟩

end Flat

end Kratos.Foundation.GlobLanguage
