/- source: none(general)
   digest: Chains of records, each committing to its content and to the digest before it. -/

import Mathlib.Data.List.Induction

set_option autoImplicit false

namespace Kratos.Foundation.HashChain

/-- A record of a chain: what it says, the digest it follows and its own digest. -/
structure Link (ρ δ : Type) where
  content : ρ
  previous : Option δ
  digest : δ

variable {ρ δ : Type} {commit : ρ → Option δ → δ}

/-- Every record follows the digest before it and carries its own commitment. -/
def Linked (commit : ρ → Option δ → δ) : Option δ → List (Link ρ δ) → Option δ → Prop
  | start, [], final => start = final
  | start, link :: rest, final =>
      link.previous = start ∧ link.digest = commit link.content link.previous ∧
        Linked commit (some link.digest) rest final

theorem linked_snoc {start final : Option δ} {links : List (Link ρ δ)} {link : Link ρ δ} :
    Linked commit start (links ++ [link]) final ↔
      Linked commit start links link.previous ∧
        link.digest = commit link.content link.previous ∧ final = some link.digest := by
  induction links generalizing start with
  | nil =>
      constructor
      · rintro ⟨follows, own, last⟩
        exact ⟨follows.symm, own, last.symm⟩
      · rintro ⟨follows, own, last⟩
        exact ⟨follows.symm, own, last.symm⟩
  | cons first links ih =>
      simp only [List.cons_append, Linked, ih]
      constructor
      · rintro ⟨follows, own, later, last⟩
        exact ⟨⟨follows, own, later⟩, last⟩
      · rintro ⟨⟨follows, own, later⟩, last⟩
        exact ⟨follows, own, later, last⟩

theorem linked_head {links : List (Link ρ δ)} {final : Option δ}
    (linked : Linked commit none links final) : links = [] ↔ final = none := by
  induction links using List.reverseRecOn with
  | nil =>
      have head : none = final := linked
      exact ⟨fun _ => head.symm, fun _ => rfl⟩
  | append_singleton links link ih =>
      have last := (linked_snoc.mp linked).2.2
      simp [last]

/-- The commitments of two chains never collide. -/
def CollisionFree (commit : ρ → Option δ → δ) (left right : List (Link ρ δ)) : Prop :=
  ∀ a ∈ left, ∀ b ∈ right, commit a.content a.previous = commit b.content b.previous →
    a.content = b.content ∧ a.previous = b.previous

theorem CollisionFree.init {left right : List (Link ρ δ)} {a b : Link ρ δ}
    (free : CollisionFree commit (left ++ [a]) (right ++ [b])) :
    CollisionFree commit left right := by
  intro x memberX y memberY
  exact free x (List.mem_append_left _ memberX) y (List.mem_append_left _ memberY)

/-- The head of a chain determines every record of it, when no two commitments collide. -/
theorem linked_unique {left right : List (Link ρ δ)} {final : Option δ}
    (one : Linked commit none left final) (two : Linked commit none right final)
    (free : CollisionFree commit left right) : left = right := by
  induction left using List.reverseRecOn generalizing right final with
  | nil =>
      have head : final = none := (linked_head one).mp rfl
      exact ((linked_head two).mpr head).symm
  | append_singleton left a ih =>
      cases right using List.reverseRecOn with
      | nil =>
          have head := (linked_head two).mp rfl
          have last := (linked_snoc.mp one).2.2
          rw [head] at last
          cases last
      | append_singleton rest b _ =>
          obtain ⟨before, ownA, lastA⟩ := linked_snoc.mp one
          obtain ⟨after, ownB, lastB⟩ := linked_snoc.mp two
          have digests : a.digest = b.digest := Option.some.inj (lastA.symm.trans lastB)
          have commitments : commit a.content a.previous = commit b.content b.previous := by
            rw [← ownA, ← ownB, digests]
          obtain ⟨contents, previous⟩ := free a (by simp) b (by simp) commitments
          rw [← previous] at after
          have fronts := ih before after free.init
          have links : a = b := by
            cases a
            cases b
            simp_all only
          rw [fronts, links]

end Kratos.Foundation.HashChain
