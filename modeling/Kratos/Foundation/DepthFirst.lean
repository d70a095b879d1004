/- source: none(algorithm)
   digest: Ordering a graph depth first: what an order says, and what a refusal says. -/

import Kratos.Foundation.Runs
import Mathlib.Data.List.Nodup
import Mathlib.Data.List.Perm.Subperm

set_option autoImplicit false

namespace Kratos.Foundation.DepthFirst

open Relation
open Foundation.Runs

variable {α κ : Type} [DecidableEq κ]

section Search

structure Trail (κ : Type) where
  visiting : List κ
  visited : List κ
  ordered : List κ
  deriving DecidableEq, Repr

inductive Fault (α : Type)
  | exhausted
  | cycle (node : α)
  | missing (node : α)
  deriving DecidableEq, Repr

variable (key : α → κ) (edges : α → List (Option α))

/-- Along one edge of a node, which may lead nowhere. -/
def follow (visitParent : Trail κ → α → Except (Fault α) (Trail κ)) (node : α) (trail : Trail κ) :
    Option α → Except (Fault α) (Trail κ)
  | none => .error (.missing node)
  | some parent => visitParent trail parent

/-- A node after the nodes its edges lead to. -/
def visit : Nat → Trail κ → α → Except (Fault α) (Trail κ)
  | 0, _, _ => .error .exhausted
  | fuel + 1, trail, node =>
      if key node ∈ trail.visited then .ok trail
      else if key node ∈ trail.visiting then .error (.cycle node)
      else do
        let closed ← (edges node).foldlM (follow (visit fuel) node)
          { trail with visiting := trail.visiting ++ [key node] }
        .ok ⟨closed.visiting.erase (key node), closed.visited ++ [key node],
          closed.ordered ++ [key node]⟩

/-- The nodes in turn, each where it was not ordered before. -/
def order (fuel : Nat) (nodes : List α) : Except (Fault α) (Trail κ) :=
  nodes.foldlM (visit key edges fuel) ⟨[], [], []⟩

end Search

section Meaning

variable (nodes : List α) (key : α → κ) (edges : α → List (Option α))

def Edge (node parent : α) : Prop := some parent ∈ edges node

/-- A graph whose nodes have keys of their own and whose edges stay among them. -/
structure Graph : Prop where
  unique : ∀ node ∈ nodes, ∀ other ∈ nodes, key node = key other → node = other
  closed : ∀ node ∈ nodes, ∀ parent, Edge edges node parent → parent ∈ nodes

/-- An order in which each node comes once, after everything its edges lead to. -/
inductive Settled : List κ → Prop
  | nil : Settled []
  | snoc {front : List κ} {node : α} (settled : Settled front) (member : node ∈ nodes)
      (fresh : key node ∉ front)
      (parents : ∀ edge ∈ edges node, ∃ parent, edge = some parent ∧ key parent ∈ front) :
      Settled (front ++ [key node])

def Blames : Fault α → Prop
  | .exhausted => False
  | .cycle node => node ∈ nodes ∧ TransGen (Edge edges) node node
  | .missing node => node ∈ nodes ∧ none ∈ edges node

/-- What every trail of a search keeps. -/
structure Sound (trail : Trail κ) : Prop where
  visited : trail.visited = trail.ordered
  settled : Settled nodes key edges trail.ordered
  single : trail.visiting.Nodup
  among : ∀ k ∈ trail.visiting, ∃ node ∈ nodes, key node = k
  apart : ∀ k ∈ trail.visiting, k ∉ trail.ordered

/-- A trail with the same nodes under visit and more of them ordered. -/
def Extends (trail next : Trail κ) : Prop :=
  next.visiting = trail.visiting ∧ trail.ordered <+: next.ordered

variable {nodes key edges} {front : List κ} {trail middle next : Trail κ} {node : α}

omit [DecidableEq κ] in
theorem Extends.trans (first : Extends trail middle) (second : Extends middle next) :
    Extends trail next :=
  ⟨second.1.trans first.1, first.2.trans second.2⟩

omit [DecidableEq κ] in
theorem Settled.nodup (settled : Settled nodes key edges front) : front.Nodup := by
  induction settled with
  | nil => exact List.nodup_nil
  | snoc _ _ fresh _ ih =>
      exact List.Nodup.append ih (List.nodup_singleton _) (List.disjoint_singleton.mpr fresh)

omit [DecidableEq κ] in
theorem Settled.among (settled : Settled nodes key edges front) :
    ∀ k ∈ front, ∃ node ∈ nodes, key node = k := by
  induction settled with
  | nil => exact fun k member => absurd member List.not_mem_nil
  | snoc _ member _ _ ih =>
      intro k inside
      rcases List.mem_append.mp inside with before | last
      · exact ih k before
      · exact ⟨_, member, (List.mem_singleton.mp last).symm⟩

omit [DecidableEq κ] in
/-- In an order everything that the edges of a node lead to stands before it. -/
theorem Settled.split (graph : Graph nodes key edges) (settled : Settled nodes key edges front)
    (member : node ∈ nodes) (inside : key node ∈ front) :
    ∃ before after, front = before ++ key node :: after ∧
      ∀ edge ∈ edges node, ∃ parent, edge = some parent ∧ key parent ∈ before := by
  induction settled with
  | nil => exact absurd inside List.not_mem_nil
  | @snoc front last settled lastMember fresh parents ih =>
      rcases List.mem_append.mp inside with earlier | here
      · obtain ⟨before, after, rfl, leads⟩ := ih earlier
        exact ⟨before, after ++ [key last], by simp, leads⟩
      · obtain rfl := graph.unique node member last lastMember (List.mem_singleton.mp here)
        exact ⟨front, [], rfl, parents⟩

theorem Settled.before (graph : Graph nodes key edges) (settled : Settled nodes key edges front)
    (member : node ∈ nodes) (inside : key node ∈ front) :
    ∀ edge ∈ edges node, ∃ parent, edge = some parent ∧
      front.idxOf (key parent) < front.idxOf (key node) := by
  obtain ⟨before, after, rfl, leads⟩ := settled.split graph member inside
  intro edge led
  obtain ⟨parent, same, earlier⟩ := leads edge led
  refine ⟨parent, same, ?_⟩
  have fresh : key node ∉ before := fun again =>
    (List.nodup_append.mp settled.nodup).2.2 _ again _ List.mem_cons_self rfl
  have bound := List.idxOf_lt_length_of_mem earlier
  rw [List.idxOf_append_of_mem earlier, List.idxOf_append_of_notMem fresh, List.idxOf_cons_self]
  omega

/-- A graph that is ordered as a whole has no cycle, and its edges lead somewhere. -/
theorem Settled.acyclic (graph : Graph nodes key edges) (settled : Settled nodes key edges front)
    (whole : ∀ node ∈ nodes, key node ∈ front) (member : node ∈ nodes) :
    none ∉ edges node ∧ ¬TransGen (Edge edges) node node := by
  have back : ∀ {other}, TransGen (Edge edges) node other →
      other ∈ nodes ∧ front.idxOf (key other) < front.idxOf (key node) := by
    intro other path
    have step : ∀ {one two}, one ∈ nodes → Edge edges one two →
        two ∈ nodes ∧ front.idxOf (key two) < front.idxOf (key one) := by
      intro one two oneIn edge
      obtain ⟨parent, same, less⟩ := settled.before graph oneIn (whole one oneIn) _ edge
      cases same
      exact ⟨graph.closed one oneIn two edge, less⟩
    induction path with
    | single edge => exact step member edge
    | tail _ edge ih =>
        obtain ⟨later, less⟩ := step ih.1 edge
        exact ⟨later, Nat.lt_trans less ih.2⟩
  constructor
  · intro nowhere
    obtain ⟨parent, same, -⟩ := settled.before graph member (whole node member) none nowhere
    cases same
  · intro cycle
    exact Nat.lt_irrefl _ (back cycle).2

end Meaning

section Correctness

variable {nodes : List α} {key : α → κ} {edges : α → List (Option α)} {fuel : Nat}
  {trail next : Trail κ} {node : α} {fault : Fault α}

omit [DecidableEq κ] in
theorem Sound.opened (sound : Sound nodes key edges trail) (member : node ∈ nodes)
    (unvisited : key node ∉ trail.visited) (fresh : key node ∉ trail.visiting) :
    Sound nodes key edges { trail with visiting := trail.visiting ++ [key node] } where
  visited := sound.visited
  settled := sound.settled
  single := List.Nodup.append sound.single (List.nodup_singleton _) (List.disjoint_singleton.mpr fresh)
  among k inside := by
    rcases List.mem_append.mp inside with before | last
    · exact sound.among k before
    · exact ⟨node, member, (List.mem_singleton.mp last).symm⟩
  apart k inside := by
    rcases List.mem_append.mp inside with before | last
    · exact sound.apart k before
    · rw [List.mem_singleton.mp last, ← sound.visited]
      exact unvisited

omit [DecidableEq κ] in
private theorem follow_ok {visitParent : Trail κ → α → Except (Fault α) (Trail κ)}
    (visited : ∀ {trail next parent}, Sound nodes key edges trail → parent ∈ nodes →
      visitParent trail parent = .ok next →
        Sound nodes key edges next ∧ Extends trail next ∧ key parent ∈ next.ordered)
    {leads : List (Option α)} (among : ∀ parent, some parent ∈ leads → parent ∈ nodes)
    (sound : Sound nodes key edges trail)
    (done : leads.foldlM (follow visitParent node) trail = .ok next) :
    Sound nodes key edges next ∧ Extends trail next ∧
      ∀ edge ∈ leads, ∃ parent, edge = some parent ∧ key parent ∈ next.ordered := by
  induction leads generalizing trail with
  | nil =>
      cases done
      exact ⟨sound, ⟨rfl, List.prefix_refl _⟩, fun edge member => absurd member List.not_mem_nil⟩
  | cons edge leads ih =>
      rw [List.foldlM_cons, bind_ok_iff] at done
      obtain ⟨middle, first, rest⟩ := done
      cases edge with
      | none => cases first
      | some parent =>
          obtain ⟨held, grown, there⟩ := visited sound (among parent List.mem_cons_self) first
          obtain ⟨last, more, each⟩ :=
            ih (fun other member => among other (List.mem_cons_of_mem _ member)) held rest
          refine ⟨last, grown.trans more, ?_⟩
          intro other member
          rcases List.mem_cons.mp member with rfl | later
          · exact ⟨parent, rfl, more.2.subset there⟩
          · exact each other later

theorem visit_ok (graph : Graph nodes key edges) (sound : Sound nodes key edges trail)
    (member : node ∈ nodes) (done : visit key edges fuel trail node = .ok next) :
    Sound nodes key edges next ∧ Extends trail next ∧ key node ∈ next.ordered := by
  induction fuel generalizing trail next node with
  | zero => cases done
  | succ fuel ih =>
      rw [visit] at done
      split at done
      · rename_i seen
        cases done
        rw [sound.visited] at seen
        exact ⟨sound, ⟨rfl, List.prefix_refl _⟩, seen⟩
      · rename_i unvisited
        rw [guard_ok_iff, bind_ok_iff] at done
        obtain ⟨fresh, closed, followed, done⟩ := done
        cases done
        obtain ⟨held, ⟨kept, grown⟩, each⟩ := follow_ok (fun sound member done => ih sound member done)
          (graph.closed node member) (sound.opened member unvisited fresh) followed
        have under : key node ∈ closed.visiting := by
          rw [kept]
          exact List.mem_append_right _ (List.mem_singleton_self _)
        have erased : closed.visiting.erase (key node) = trail.visiting := by
          rw [kept]
          simp only
          rw [List.erase_append_right _ fresh, List.erase_cons_head, List.append_nil]
        have notOrdered := held.apart _ under
        refine ⟨⟨?_, ?_, ?_, ?_, ?_⟩, ⟨erased, ?_⟩, List.mem_append_right _ (List.mem_singleton_self _)⟩
        · rw [held.visited]
        · exact held.settled.snoc member notOrdered each
        · exact held.single.erase _
        · exact fun k inside => held.among k (List.mem_of_mem_erase inside)
        · intro k inside ordered
          rw [erased] at inside
          rcases List.mem_append.mp ordered with before | last
          · refine held.apart k ?_ before
            rw [kept]
            exact List.mem_append_left _ inside
          · rw [List.mem_singleton.mp last] at inside
            exact fresh inside
        · exact grown.trans (List.prefix_append _ _)

omit [DecidableEq κ] in
private theorem Sound.visiting_length (sound : Sound nodes key edges trail) :
    trail.visiting.length ≤ nodes.length := by
  have inside : trail.visiting ⊆ nodes.map key := by
    intro k member
    obtain ⟨node, listed, rfl⟩ := sound.among k member
    exact List.mem_map_of_mem listed
  have length := (List.subperm_of_subset sound.single inside).length_le
  rwa [List.length_map] at length

omit [DecidableEq κ] in
private theorem follow_error {visitParent : Trail κ → α → Except (Fault α) (Trail κ)} {bound : List κ}
    (visited : ∀ {trail next parent}, Sound nodes key edges trail → parent ∈ nodes →
      visitParent trail parent = .ok next →
        Sound nodes key edges next ∧ Extends trail next ∧ key parent ∈ next.ordered)
    (blamed : ∀ {trail parent fault}, Sound nodes key edges trail → trail.visiting = bound →
      Edge edges node parent → visitParent trail parent = .error fault → Blames nodes edges fault)
    (graph : Graph nodes key edges) (member : node ∈ nodes)
    {leads : List (Option α)} (among : ∀ edge ∈ leads, edge ∈ edges node)
    (sound : Sound nodes key edges trail) (under : trail.visiting = bound)
    (stopped : leads.foldlM (follow visitParent node) trail = .error fault) :
    Blames nodes edges fault := by
  induction leads generalizing trail with
  | nil => cases stopped
  | cons edge leads ih =>
      rw [List.foldlM_cons] at stopped
      have leads := among edge List.mem_cons_self
      cases edge with
      | none =>
          cases stopped
          exact ⟨member, leads⟩
      | some parent =>
          rw [follow] at stopped
          cases first : visitParent trail parent with
          | error early =>
              rw [first] at stopped
              cases stopped
              exact blamed sound under leads first
          | ok middle =>
              rw [first] at stopped
              obtain ⟨held, grown, -⟩ := visited sound (graph.closed node member parent leads) first
              exact ih (fun other inside => among other (List.mem_cons_of_mem _ inside)) held
                (grown.1.trans under) stopped

/-- A visit with fuel for every node stops at a cycle or at an edge that leads nowhere. -/
theorem visit_error (graph : Graph nodes key edges) (sound : Sound nodes key edges trail)
    (member : node ∈ nodes)
    (led : ∀ other ∈ nodes, key other ∈ trail.visiting → TransGen (Edge edges) other node)
    (enough : nodes.length < fuel + trail.visiting.length)
    (stopped : visit key edges fuel trail node = .error fault) : Blames nodes edges fault := by
  induction fuel generalizing trail node fault with
  | zero =>
      have length := sound.visiting_length
      omega
  | succ fuel ih =>
      rw [visit] at stopped
      split at stopped
      · cases stopped
      · rename_i unvisited
        split at stopped
        · rename_i under
          cases stopped
          exact ⟨member, led node member under⟩
        · rename_i fresh
          have opened := sound.opened member unvisited fresh
          cases followed : (edges node).foldlM (follow (visit key edges fuel) node)
              { trail with visiting := trail.visiting ++ [key node] } with
          | ok closed =>
              rw [followed] at stopped
              cases stopped
          | error early =>
              rw [followed] at stopped
              cases stopped
              refine follow_error (fun sound member done => visit_ok graph sound member done) ?_ graph
                member (fun edge inside => inside) opened rfl followed
              intro later parent late held under edge stopped
              refine ih held (graph.closed node member parent edge) ?_ ?_ stopped
              · intro other otherIn inside
                rw [under] at inside
                rcases List.mem_append.mp inside with before | last
                · exact (led other otherIn before).tail edge
                · obtain rfl := graph.unique other otherIn node member (List.mem_singleton.mp last)
                  exact .single edge
              · rw [under, List.length_append, List.length_singleton]
                omega

end Correctness

section Whole

variable {nodes starts : List α} {key : α → κ} {edges : α → List (Option α)} {trail next : Trail κ}
  {fault : Fault α}

omit [DecidableEq κ] in
private theorem sound_start : Sound nodes key edges ⟨[], [], []⟩ where
  visited := rfl
  settled := .nil
  single := List.nodup_nil
  among _ inside := absurd inside List.not_mem_nil
  apart _ inside := absurd inside List.not_mem_nil

private theorem foldlM_ok {fuel : Nat} (graph : Graph nodes key edges) (sound : Sound nodes key edges trail)
    (among : ∀ start ∈ starts, start ∈ nodes)
    (done : starts.foldlM (visit key edges fuel) trail = .ok next) :
    Sound nodes key edges next ∧ Extends trail next ∧ ∀ start ∈ starts, key start ∈ next.ordered := by
  induction starts generalizing trail with
  | nil =>
      cases done
      exact ⟨sound, ⟨rfl, List.prefix_refl _⟩, fun start member => absurd member List.not_mem_nil⟩
  | cons start starts ih =>
      rw [List.foldlM_cons, bind_ok_iff] at done
      obtain ⟨middle, first, rest⟩ := done
      obtain ⟨held, grown, there⟩ := visit_ok graph sound (among start List.mem_cons_self) first
      obtain ⟨last, more, each⟩ :=
        ih held (fun other member => among other (List.mem_cons_of_mem _ member)) rest
      exact ⟨last, grown.trans more, List.forall_mem_cons.mpr ⟨more.2.subset there, each⟩⟩

theorem order_ok {fuel : Nat} (graph : Graph nodes key edges) (perm : starts.Perm nodes)
    (done : order key edges fuel starts = .ok next) :
    Settled nodes key edges next.ordered ∧ ∀ node ∈ nodes, key node ∈ next.ordered := by
  obtain ⟨sound, -, each⟩ := foldlM_ok graph sound_start (fun start => perm.mem_iff.mp) done
  exact ⟨sound.settled, fun node member => each node (perm.mem_iff.mpr member)⟩

theorem order_error (graph : Graph nodes key edges) (perm : starts.Perm nodes)
    (stopped : order key edges (nodes.length + 1) starts = .error fault) : Blames nodes edges fault := by
  have from_trail : ∀ {rest : List α} {trail : Trail κ}, (∀ start ∈ rest, start ∈ nodes) →
      Sound nodes key edges trail → trail.visiting = [] →
      rest.foldlM (visit key edges (nodes.length + 1)) trail = .error fault → Blames nodes edges fault := by
    intro rest
    induction rest with
    | nil => exact fun _ _ _ stopped => nomatch stopped
    | cons start rest ih =>
        intro trail among sound none stopped
        rw [List.foldlM_cons] at stopped
        have member := among start List.mem_cons_self
        cases first : visit key edges (nodes.length + 1) trail start with
        | error early =>
            rw [first] at stopped
            cases stopped
            refine visit_error graph sound member ?_ (by omega) first
            intro other _ under
            rw [none] at under
            exact absurd under List.not_mem_nil
        | ok middle =>
            rw [first] at stopped
            obtain ⟨held, grown, -⟩ := visit_ok graph sound member first
            exact ih (fun other inside => among other (List.mem_cons_of_mem _ inside)) held
              (grown.1.trans none) stopped
  exact from_trail (fun start => perm.mem_iff.mp) sound_start rfl stopped

/-- A graph is ordered exactly when it has no cycle and every edge leads somewhere. -/
theorem order_ok_iff (graph : Graph nodes key edges) (perm : starts.Perm nodes) :
    (∃ trail, order key edges (nodes.length + 1) starts = .ok trail) ↔
      ∀ node ∈ nodes, none ∉ edges node ∧ ¬TransGen (Edge edges) node node := by
  constructor
  · rintro ⟨trail, done⟩ node member
    obtain ⟨settled, whole⟩ := order_ok graph perm done
    exact settled.acyclic graph whole member
  · intro acyclic
    cases outcome : order key edges (nodes.length + 1) starts with
    | ok trail => exact ⟨trail, rfl⟩
    | error fault =>
        have blames := order_error graph perm outcome
        cases fault with
        | exhausted => exact blames.elim
        | cycle node => exact absurd blames.2 (acyclic node blames.1).2
        | missing node => exact absurd blames.2 (acyclic node blames.1).1

end Whole

end Kratos.Foundation.DepthFirst
