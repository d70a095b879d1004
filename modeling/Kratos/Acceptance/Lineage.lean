/- source: domain/acceptance/index.ts
   digest: Artifacts in an order in which each comes after what it was made from. -/

import Kratos.Foundation.Collections
import Kratos.Foundation.DepthFirst
import Kratos.Patterns
import Mathlib.Data.List.Lex

set_option autoImplicit false

namespace Kratos.Acceptance

open Relation
open Foundation.Text Foundation.Collections Foundation.DepthFirst Patterns

section Validation

/-- What the order reads of `ArtifactLineage`. -/
structure ArtifactLineage where
  artifactId : JsString
  artifactDigest : JsString
  parentDigests : List JsString
  deriving DecidableEq, Repr

inductive LineageFault
  | cycle | duplicate | invalidDigest | missingParent
  deriving DecidableEq, Repr

inductive LineageValidation
  | valid (orderedArtifactIds : List JsString)
  | invalid (kind : LineageFault) (artifactId : JsString)
  deriving DecidableEq, Repr

/-- The nodes by their digests, or the first one that is no node of its own. -/
def indexNodes (ids : List JsString) (byDigest : List (JsString × ArtifactLineage)) :
    List ArtifactLineage → Except LineageValidation (List (JsString × ArtifactLineage))
  | [] => .ok byDigest
  | node :: rest =>
      if ids.contains node.artifactId || (mapGet byDigest node.artifactDigest).isSome then
        .error (.invalid .duplicate node.artifactId)
      else if !sha256Pattern node.artifactDigest then
        .error (.invalid .invalidDigest node.artifactId)
      else
        indexNodes (ids ++ [node.artifactId]) (byDigest ++ [(node.artifactDigest, node)]) rest

/-- The nodes that a node was made from; what is sealed as a root is not looked up. -/
def parentNodes (byDigest : List (JsString × ArtifactLineage)) (rootDigests : List JsString)
    (node : ArtifactLineage) : List (Option ArtifactLineage) :=
  (node.parentDigests.filter fun parent => !rootDigests.contains parent).map (mapGet byDigest)

/-- None only where the search runs out of fuel. -/
def validateLineageDag (localeCompare : JsString → JsString → Int) (nodes : List ArtifactLineage)
    (rootDigests : List JsString) : Option LineageValidation :=
  match indexNodes [] [] nodes with
  | .error invalid => some invalid
  | .ok byDigest =>
      let sorted := nodes.mergeSort fun left right =>
        decide (localeCompare left.artifactId right.artifactId ≤ 0)
      match order ArtifactLineage.artifactId (parentNodes byDigest rootDigests) (nodes.length + 1) sorted with
      | .ok trail => some (.valid trail.ordered)
      | .error (.cycle node) => some (.invalid .cycle node.artifactId)
      | .error (.missing node) => some (.invalid .missingParent node.artifactId)
      | .error .exhausted => none

end Validation

section Indexing

variable {nodes : List ArtifactLineage} {byDigest : List (JsString × ArtifactLineage)}

def digestEntry (node : ArtifactLineage) : JsString × ArtifactLineage := (node.artifactDigest, node)

private theorem nodup_concat {seen : List JsString} {item : JsString} (unique : seen.Nodup)
    (fresh : item ∉ seen) : (seen ++ [item]).Nodup :=
  List.Nodup.append unique (List.nodup_singleton _) (List.disjoint_singleton.mpr fresh)

private theorem not_mem_of_nodup {seen : List JsString} {item : JsString} {items : List JsString}
    (unique : (seen ++ item :: items).Nodup) : item ∉ seen := fun member =>
  (List.nodup_append.mp unique).2.2 item member item List.mem_cons_self rfl

private theorem indexNodes_iff {ids : List JsString} {seen found : List (JsString × ArtifactLineage)}
    (unique : ids.Nodup) (single : (seen.map Prod.fst).Nodup) :
    indexNodes ids seen nodes = .ok found ↔
      (ids ++ nodes.map ArtifactLineage.artifactId).Nodup ∧
        (seen.map Prod.fst ++ nodes.map ArtifactLineage.artifactDigest).Nodup ∧
        (∀ node ∈ nodes, sha256Pattern node.artifactDigest = true) ∧
        found = seen ++ nodes.map digestEntry := by
  induction nodes generalizing ids seen with
  | nil =>
      rw [indexNodes, Except.ok.injEq, List.map_nil, List.map_nil, List.map_nil, List.append_nil,
        List.append_nil, List.append_nil]
      exact ⟨fun same => ⟨unique, single, fun node member => absurd member List.not_mem_nil, same.symm⟩,
        fun indexed => indexed.2.2.2.symm⟩
  | cons node rest ih =>
      have listed : (mapGet seen node.artifactDigest).isSome = true ↔
          node.artifactDigest ∈ seen.map Prod.fst := by
        rw [Option.isSome_iff_ne_none, Ne, mapGet_eq_none_iff, not_not]
      rw [indexNodes, List.map_cons, List.map_cons]
      split
      · rename_i repeated
        rw [Bool.or_eq_true, List.contains_iff_mem, listed] at repeated
        refine ⟨(nomatch ·), fun ⟨idsKept, digestsKept, _⟩ => ?_⟩
        rcases repeated with again | again
        · exact absurd again (not_mem_of_nodup idsKept)
        · exact absurd again (not_mem_of_nodup digestsKept)
      · rename_i fresh
        rw [Bool.or_eq_true, List.contains_iff_mem, listed, not_or] at fresh
        split
        · rename_i malformed
          refine ⟨(nomatch ·), fun ⟨_, _, formed, _⟩ => ?_⟩
          rw [formed node List.mem_cons_self] at malformed
          cases malformed
        · rename_i formed
          rw [Bool.not_eq_true', Bool.not_eq_false] at formed
          have grown : ((seen ++ [(node.artifactDigest, node)]).map Prod.fst).Nodup := by
            rw [List.map_append]
            exact nodup_concat single fresh.2
          rw [ih (nodup_concat unique fresh.1) grown, List.map_append]
          simp [digestEntry, formed]

private theorem indexNodes_error {ids : List JsString} {seen : List (JsString × ArtifactLineage)}
    {refusal : LineageValidation} (refused : indexNodes ids seen nodes = .error refusal)
    (ordered : List JsString) : refusal ≠ .valid ordered := by
  induction nodes generalizing ids seen with
  | nil => cases refused
  | cons node rest ih =>
      rw [indexNodes] at refused
      split at refused
      · cases refused
        exact fun same => nomatch same
      · split at refused
        · cases refused
          exact fun same => nomatch same
        · exact ih refused

end Indexing

section Order

variable {nodes : List ArtifactLineage} {rootDigests : List JsString}

/-- What a node was made from among the nodes, what is sealed as a root apart. -/
def MadeFrom (nodes : List ArtifactLineage) (rootDigests : List JsString)
    (node parent : ArtifactLineage) : Prop :=
  parent ∈ nodes ∧ parent.artifactDigest ∈ node.parentDigests ∧ parent.artifactDigest ∉ rootDigests

structure LineageDag (nodes : List ArtifactLineage) (rootDigests : List JsString) : Prop where
  ids : (nodes.map ArtifactLineage.artifactId).Nodup
  digests : (nodes.map ArtifactLineage.artifactDigest).Nodup
  formed : ∀ node ∈ nodes, sha256Pattern node.artifactDigest = true
  present : ∀ node ∈ nodes, ∀ digest ∈ node.parentDigests, digest ∉ rootDigests →
    ∃ parent ∈ nodes, parent.artifactDigest = digest
  acyclic : ∀ node ∈ nodes, ¬TransGen (MadeFrom nodes rootDigests) node node

private theorem lookup_iff (digests : (nodes.map ArtifactLineage.artifactDigest).Nodup)
    {digest : JsString} {parent : ArtifactLineage} :
    mapGet (nodes.map digestEntry) digest = some parent ↔
      parent ∈ nodes ∧ parent.artifactDigest = digest := by
  have keys : (nodes.map digestEntry).map Prod.fst = nodes.map ArtifactLineage.artifactDigest := by
    rw [List.map_map]
    rfl
  constructor
  · intro found
    obtain ⟨node, member, same⟩ := List.mem_map.mp (mapGet_mem found)
    injection same with key value
    subst value
    exact ⟨member, key⟩
  · rintro ⟨member, rfl⟩
    refine mapGet_of_mem (by rwa [keys]) ?_
    exact List.mem_map_of_mem (f := digestEntry) member

private theorem edge_iff (digests : (nodes.map ArtifactLineage.artifactDigest).Nodup)
    {node parent : ArtifactLineage} :
    Edge (parentNodes (nodes.map digestEntry) rootDigests) node parent ↔
      MadeFrom nodes rootDigests node parent := by
  rw [Edge, parentNodes, List.mem_map]
  constructor
  · rintro ⟨digest, member, found⟩
    obtain ⟨inside, rfl⟩ := (lookup_iff digests).mp found
    rw [List.mem_filter] at member
    simpa [MadeFrom, inside] using member
  · rintro ⟨inside, named, apart⟩
    refine ⟨parent.artifactDigest, List.mem_filter.mpr ⟨named, by simpa using apart⟩, ?_⟩
    exact (lookup_iff digests).mpr ⟨inside, rfl⟩

private theorem none_iff (digests : (nodes.map ArtifactLineage.artifactDigest).Nodup)
    {node : ArtifactLineage} :
    none ∉ parentNodes (nodes.map digestEntry) rootDigests node ↔
      ∀ digest ∈ node.parentDigests, digest ∉ rootDigests →
        ∃ parent ∈ nodes, parent.artifactDigest = digest := by
  rw [parentNodes, List.mem_map, not_exists]
  refine forall_congr' fun digest => ?_
  rw [List.mem_filter, not_and]
  have found : mapGet (nodes.map digestEntry) digest ≠ none ↔
      ∃ parent ∈ nodes, parent.artifactDigest = digest := by
    rw [Option.ne_none_iff_exists']
    exact exists_congr fun parent => lookup_iff digests
  constructor
  · intro each named apart
    exact found.mp (each ⟨named, by simpa using apart⟩)
  · rintro each ⟨named, apart⟩
    exact found.mpr (each named (by simpa using apart))

private theorem graph_nodes (ids : (nodes.map ArtifactLineage.artifactId).Nodup)
    (digests : (nodes.map ArtifactLineage.artifactDigest).Nodup) :
    Graph nodes ArtifactLineage.artifactId (parentNodes (nodes.map digestEntry) rootDigests) where
  unique _ member _ otherMember same := List.inj_on_of_nodup_map ids member otherMember same
  closed _ _ _ edge := ((edge_iff digests).mp edge).1

/-- The validation is exact: it always ends, it accepts the lineages that are acyclic graphs and no
others, and its order has each artifact once, after what it was made from. -/
theorem validateLineageDag_exact (localeCompare : JsString → JsString → Int)
    (nodes : List ArtifactLineage) (rootDigests : List JsString) :
    (∃ validation, validateLineageDag localeCompare nodes rootDigests = some validation) ∧
      ((∃ ordered, validateLineageDag localeCompare nodes rootDigests = some (.valid ordered)) ↔
        LineageDag nodes rootDigests) ∧
      ∀ ordered, validateLineageDag localeCompare nodes rootDigests = some (.valid ordered) →
        ordered.Perm (nodes.map ArtifactLineage.artifactId) ∧
          ∀ node ∈ nodes, ∀ parent, MadeFrom nodes rootDigests node parent →
            ∃ before after, ordered = before ++ node.artifactId :: after ∧ parent.artifactId ∈ before := by
  have indexed := fun found => @indexNodes_iff nodes [] [] found List.nodup_nil List.nodup_nil
  simp only [List.nil_append, List.map_nil] at indexed
  unfold validateLineageDag
  cases outcome : indexNodes [] [] nodes with
  | error invalid =>
      have kind := indexNodes_error outcome
      refine ⟨⟨invalid, rfl⟩, ⟨?_, ?_⟩, ?_⟩
      · rintro ⟨ordered, same⟩
        exact absurd (Option.some.inj same) (kind ordered)
      · intro dag
        have accepted := (indexed _).mpr ⟨dag.ids, dag.digests, dag.formed, rfl⟩
        rw [outcome] at accepted
        cases accepted
      · intro ordered same
        exact absurd (Option.some.inj same) (kind ordered)
  | ok byDigest =>
      obtain ⟨ids, digests, formed, rfl⟩ := (indexed _).mp outcome
      have graph : Graph nodes ArtifactLineage.artifactId (parentNodes (nodes.map digestEntry) rootDigests) :=
        graph_nodes ids digests
      let sorted := nodes.mergeSort fun left right =>
        decide (localeCompare left.artifactId right.artifactId ≤ 0)
      have perm : sorted.Perm nodes := List.mergeSort_perm _ _
      have accepts := order_ok_iff graph perm
      have dag : LineageDag nodes rootDigests ↔ ∀ node ∈ nodes,
          none ∉ parentNodes (nodes.map digestEntry) rootDigests node ∧
            ¬TransGen (Edge (parentNodes (nodes.map digestEntry) rootDigests)) node node := by
        have edges : Edge (parentNodes (nodes.map digestEntry) rootDigests) = MadeFrom nodes rootDigests := by
          funext node parent
          exact propext (edge_iff digests)
        rw [edges]
        constructor
        · intro dag node member
          exact ⟨(none_iff digests).mpr (dag.present node member), dag.acyclic node member⟩
        · intro each
          exact ⟨ids, digests, formed, fun node member => (none_iff digests).mp (each node member).1,
            fun node member => (each node member).2⟩
      simp only
      cases searched : order ArtifactLineage.artifactId (parentNodes (nodes.map digestEntry) rootDigests)
          (nodes.length + 1) sorted with
      | ok trail =>
          obtain ⟨settled, whole⟩ := order_ok graph perm searched
          refine ⟨⟨_, rfl⟩, ⟨fun _ => dag.mpr (accepts.mp ⟨trail, searched⟩), fun _ => ⟨_, rfl⟩⟩, ?_⟩
          intro ordered same
          injection same with same
          injection same with same
          subst same
          constructor
          · refine (List.perm_ext_iff_of_nodup settled.nodup ids).mpr fun id => ?_
            constructor
            · intro member
              obtain ⟨node, listed, rfl⟩ := settled.among id member
              exact List.mem_map_of_mem listed
            · intro member
              obtain ⟨node, listed, rfl⟩ := List.mem_map.mp member
              exact whole node listed
          · intro node member parent made
            obtain ⟨before, after, shape, leads⟩ := settled.split graph member (whole node member)
            obtain ⟨found, same, earlier⟩ := leads _ ((edge_iff digests).mpr made)
            cases same
            exact ⟨before, after, shape, earlier⟩
      | error fault =>
          have blames := order_error graph perm searched
          have refused : ¬LineageDag nodes rootDigests := by
            rw [dag, ← accepts]
            rintro ⟨trail, done⟩
            rw [searched] at done
            cases done
          cases fault with
          | exhausted => exact blames.elim
          | cycle node =>
              exact ⟨⟨_, rfl⟩, ⟨fun ⟨_, same⟩ => (nomatch same), fun dag => absurd dag refused⟩,
                fun _ same => (nomatch same)⟩
          | missing node =>
              exact ⟨⟨_, rfl⟩, ⟨fun ⟨_, same⟩ => (nomatch same), fun dag => absurd dag refused⟩,
                fun _ same => (nomatch same)⟩

end Order

section Roots

def sampleParent : ArtifactLineage := ⟨js "b", List.replicate 64 (unit 'b'), []⟩

def sampleChild : ArtifactLineage :=
  ⟨js "a", List.replicate 64 (unit 'a'), [sampleParent.artifactDigest]⟩

def compareUnits (left right : JsString) : Int :=
  if left = right then 0 else if left.map UInt16.toNat ≤ right.map UInt16.toNat then -1 else 1

/-- A node that is made from another comes before it where that one is sealed as a root. -/
theorem root_parent_unordered :
    sampleParent ∈ [sampleChild, sampleParent] ∧
      sampleParent.artifactDigest ∈ sampleChild.parentDigests ∧
      validateLineageDag compareUnits [sampleChild, sampleParent] [sampleParent.artifactDigest] =
        some (.valid [sampleChild.artifactId, sampleParent.artifactId]) := by
  have sorted : [sampleChild, sampleParent].mergeSort (fun left right =>
      decide (compareUnits left.artifactId right.artifactId ≤ 0)) = [sampleChild, sampleParent] :=
    List.mergeSort_of_pairwise (by decide)
  refine ⟨by decide, by decide, ?_⟩
  unfold validateLineageDag
  rw [sorted]
  decide +kernel

end Roots

end Kratos.Acceptance
