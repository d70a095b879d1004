/- source: none(language runtime)
   digest: Slash-separated paths, their prefixes, and case mappings that keep the separators. -/

import Kratos.Foundation.Splitting
import Kratos.Foundation.Text

set_option autoImplicit false

namespace Kratos.Foundation.Paths

open Foundation.Text

/-- `path.split("/")`. -/
def segments (path : JsString) : List JsString := path.splitOn (unit '/')

/-- `segments.join("/")`. -/
def joinSegments (parts : List JsString) : JsString := [unit '/'].intercalate parts

/-- The path of every non-empty initial run of segments. -/
def prefixes (path : JsString) : List JsString :=
  (List.range (segments path).length).map fun index =>
    joinSegments ((segments path).take (index + 1))

/-- `child.startsWith(parent + "/")`. -/
def isParent (parent child : JsString) : Bool := startsWith child (parent ++ js "/")

section Segments

variable {path : JsString}

theorem segments_ne_nil (path : JsString) : segments path ≠ [] :=
  List.splitOn_ne_nil _ path

@[simp] theorem joinSegments_segments (path : JsString) : joinSegments (segments path) = path :=
  List.intercalate_splitOn _

theorem segments_injective {other : JsString} (same : segments path = segments other) :
    path = other :=
  Splitting.splitOn_injective same

theorem segments_append (front back : JsString) :
    segments (front ++ js "/" ++ back) = segments front ++ segments back := by
  rw [List.append_assoc]
  exact List.splitOn_append_cons_self front back

theorem segments_plain {path part : JsString} (member : part ∈ segments path) : unit '/' ∉ part :=
  Splitting.not_mem_of_mem_splitOn member

theorem mem_joinSegments {parts : List JsString} {u : CodeUnit} (member : u ∈ joinSegments parts) :
    u = unit '/' ∨ ∃ part ∈ parts, u ∈ part := by
  induction parts with
  | nil => exact absurd member List.not_mem_nil
  | cons part rest ih =>
      cases rest with
      | nil =>
          rw [joinSegments, List.intercalate_singleton] at member
          exact .inr ⟨part, List.mem_cons_self, member⟩
      | cons other rest =>
          rw [joinSegments, List.intercalate_cons_cons, ← joinSegments] at member
          rcases List.mem_append.mp member with front | back
          · rcases List.mem_append.mp front with own | separator
            · exact .inr ⟨part, List.mem_cons_self, own⟩
            · exact .inl (List.mem_singleton.mp separator)
          · rcases ih back with separator | ⟨deeper, inside, own⟩
            · exact .inl separator
            · exact .inr ⟨deeper, List.mem_cons_of_mem _ inside, own⟩

theorem mem_joinSegments_of_mem {parts : List JsString} {part : JsString} {u : CodeUnit}
    (inside : part ∈ parts) (own : u ∈ part) : u ∈ joinSegments parts := by
  induction parts with
  | nil => exact absurd inside List.not_mem_nil
  | cons first rest ih =>
      cases rest with
      | nil =>
          rw [joinSegments, List.intercalate_singleton, ← List.mem_singleton.mp inside]
          exact own
      | cons other rest =>
          rw [joinSegments, List.intercalate_cons_cons, ← joinSegments]
          rcases List.mem_cons.mp inside with rfl | deeper
          · exact List.mem_append_left _ (List.mem_append_left _ own)
          · exact List.mem_append_right _ (ih deeper)

theorem mem_of_mem_segments {part : JsString} {u : CodeUnit} (inside : part ∈ segments path)
    (own : u ∈ part) : u ∈ path := by
  have member := mem_joinSegments_of_mem inside own
  rwa [joinSegments_segments] at member

theorem segments_joinSegments {parts : List JsString} (plain : ∀ part ∈ parts, unit '/' ∉ part)
    (some : parts ≠ []) : segments (joinSegments parts) = parts :=
  List.splitOn_intercalate _ plain some

theorem segments_take {count : Nat} (positive : 0 < count) :
    segments (joinSegments ((segments path).take count)) = (segments path).take count := by
  apply segments_joinSegments
  · intro part member
    exact segments_plain (List.mem_of_mem_take member)
  · rw [Ne, List.take_eq_nil_iff]
    rintro (zero | none)
    · omega
    · exact segments_ne_nil path none

end Segments

section Parents

variable {parent child path : JsString}

theorem isParent_iff :
    isParent parent child = true ↔ ∃ rest, rest ≠ [] ∧ segments child = segments parent ++ rest := by
  rw [isParent, startsWith_iff]
  constructor
  · rintro ⟨name, rfl⟩
    exact ⟨segments name, segments_ne_nil name, segments_append parent name⟩
  · rintro ⟨rest, some, shape⟩
    have plain : ∀ part ∈ rest, unit '/' ∉ part := by
      intro part member
      exact segments_plain (shape ▸ List.mem_append_right _ member)
    refine ⟨joinSegments rest, segments_injective ?_⟩
    rw [segments_append, segments_joinSegments plain some, shape]

theorem isParent_trans (first : isParent parent child = true)
    (second : isParent child path = true) : isParent parent path = true := by
  obtain ⟨middle, some, shape⟩ := isParent_iff.mp first
  obtain ⟨rest, -, below⟩ := isParent_iff.mp second
  refine isParent_iff.mpr ⟨middle ++ rest, by simp [some], ?_⟩
  rw [below, shape, List.append_assoc]

theorem isParent_irrefl (path : JsString) : isParent path path = false := by
  rw [Bool.eq_false_iff]
  intro loop
  obtain ⟨rest, some, shape⟩ := isParent_iff.mp loop
  have length := congrArg List.length shape
  rw [List.length_append] at length
  have positive := List.length_pos_of_ne_nil some
  omega

theorem isParent_line {other : JsString} (first : isParent parent path = true)
    (second : isParent other path = true) :
    parent = other ∨ isParent parent other = true ∨ isParent other parent = true := by
  obtain ⟨rest, -, shape⟩ := isParent_iff.mp first
  obtain ⟨tail, -, split⟩ := isParent_iff.mp second
  rw [shape, List.append_eq_append_iff] at split
  rcases split with ⟨middle, below, -⟩ | ⟨middle, below, -⟩
  · cases middle with
    | nil => exact .inl (segments_injective (by rw [below, List.append_nil]))
    | cons part parts =>
        exact .inr (.inl (isParent_iff.mpr ⟨part :: parts, List.cons_ne_nil _ _, below⟩))
  · cases middle with
    | nil => exact .inl (segments_injective (by rw [below, List.append_nil]))
    | cons part parts =>
        exact .inr (.inr (isParent_iff.mpr ⟨part :: parts, List.cons_ne_nil _ _, below⟩))

theorem mem_prefixes_iff : parent ∈ prefixes path ↔ parent = path ∨ isParent parent path = true := by
  rw [prefixes, List.mem_map]
  constructor
  · rintro ⟨index, inside, rfl⟩
    have within := List.mem_range.mp inside
    by_cases last : index + 1 = (segments path).length
    · left
      rw [last, List.take_length, joinSegments_segments]
    · right
      refine isParent_iff.mpr ⟨(segments path).drop (index + 1), ?_, ?_⟩
      · rw [Ne, List.drop_eq_nil_iff]
        omega
      · rw [segments_take (Nat.succ_pos index), List.take_append_drop]
  · intro related
    have positive := List.length_pos_of_ne_nil (segments_ne_nil parent)
    have bounded : (segments parent).length ≤ (segments path).length ∧
        (segments path).take (segments parent).length = segments parent := by
      rcases related with rfl | below
      · exact ⟨Nat.le_refl _, List.take_length⟩
      · obtain ⟨rest, -, shape⟩ := isParent_iff.mp below
        rw [shape, List.length_append, List.take_left]
        exact ⟨by omega, rfl⟩
    refine ⟨(segments parent).length - 1, List.mem_range.mpr (by omega), ?_⟩
    rw [Nat.sub_add_cancel positive, bounded.2, joinSegments_segments]

theorem self_mem_prefixes (path : JsString) : path ∈ prefixes path :=
  mem_prefixes_iff.mpr (.inl rfl)

theorem prefixes_trans (first : parent ∈ prefixes child) (second : child ∈ prefixes path) :
    parent ∈ prefixes path := by
  rw [mem_prefixes_iff] at *
  rcases first with rfl | above
  · exact second
  · rcases second with rfl | below
    · exact .inr above
    · exact .inr (isParent_trans above below)

theorem prefixes_ne_nil (path : JsString) : prefixes path ≠ [] :=
  List.ne_nil_of_mem (self_mem_prefixes path)

theorem prefixes_pairwise (path : JsString) :
    (prefixes path).Pairwise fun front back => isParent front back = true := by
  rw [prefixes, List.pairwise_map]
  refine List.pairwise_lt_range.imp_of_mem ?_
  intro left right _ rightIn less
  have inside := List.mem_range.mp rightIn
  refine isParent_iff.mpr ⟨((segments path).take (right + 1)).drop (left + 1), ?_, ?_⟩
  · rw [Ne, List.drop_eq_nil_iff, List.length_take]
    omega
  · rw [segments_take (Nat.succ_pos left), segments_take (Nat.succ_pos right)]
    have front : ((segments path).take (right + 1)).take (left + 1) =
        (segments path).take (left + 1) := by
      rw [List.take_take, Nat.min_eq_left (by omega)]
    rw [← front, List.take_append_drop]

theorem prefixes_concat (path : JsString) : (prefixes path).dropLast ++ [path] = prefixes path := by
  obtain ⟨last, shape⟩ : ∃ last, (prefixes path).dropLast ++ [last] = prefixes path :=
    ⟨_, List.dropLast_append_getLast (prefixes_ne_nil path)⟩
  have pairs := prefixes_pairwise path
  have own := self_mem_prefixes path
  rw [← shape] at pairs own
  rcases List.mem_append.mp own with early | late
  · have above := (List.pairwise_append.mp pairs).2.2 path early last (List.mem_singleton_self _)
    have among : last ∈ prefixes path := shape ▸ List.mem_append_right _ (List.mem_singleton_self _)
    rcases mem_prefixes_iff.mp among with rfl | below
    · exact shape
    · have loop := isParent_trans above below
      rw [isParent_irrefl] at loop
      cases loop
  · rwa [← List.mem_singleton.mp late] at shape

theorem mem_dropLast_prefixes_iff :
    parent ∈ (prefixes path).dropLast ↔ isParent parent path = true := by
  have pairs := prefixes_pairwise path
  rw [← prefixes_concat path] at pairs
  constructor
  · intro member
    exact (List.pairwise_append.mp pairs).2.2 parent member path (List.mem_singleton_self _)
  · intro above
    have among : parent ∈ prefixes path := mem_prefixes_iff.mpr (.inr above)
    rw [← prefixes_concat path] at among
    rcases List.mem_append.mp among with early | late
    · exact early
    · rw [List.mem_singleton.mp late, isParent_irrefl] at above
      cases above

end Parents

/-- A mapping of strings that maps a path segment by segment. -/
structure CaseMapping where
  toLowerCase : JsString → JsString
  segmentwise : ∀ path, segments (toLowerCase path) = (segments path).map toLowerCase

section Units

variable {f : CodeUnit → CodeUnit}

private theorem segments_map (slash : ∀ u, f u = unit '/' ↔ u = unit '/') (path : JsString) :
    segments (path.map f) = (segments path).map (List.map f) := by
  induction path with
  | nil => rfl
  | cons first rest ih =>
      simp only [segments, List.map_cons, List.splitOn_cons_eq_if_modifyHead, beq_iff_eq,
        slash first] at ih ⊢
      rw [ih]
      by_cases separator : first = unit '/'
      · rw [if_pos separator, if_pos separator]
        rfl
      · rw [if_neg separator, if_neg separator]
        cases rest.splitOn (unit '/') with
        | nil => rfl
        | cons part parts => rfl

/-- The mapping of the ASCII letters alone. -/
def asciiLowerCase : CaseMapping where
  toLowerCase path := path.map fun u => if isUpperAlpha u then u + 32 else u
  segmentwise path := by
    apply segments_map
    intro u
    split
    · rename_i letter
      constructor
      · rintro moved
        have same : u = unit '/' - 32 := by rw [← moved, UInt16.add_sub_cancel]
        rw [same] at letter
        exact absurd letter (by decide)
      · rintro rfl
        exact absurd letter (by decide)
    · exact Iff.rfl

end Units

section Mapping

variable {lower : CaseMapping} {parent child : JsString}

/-- A mapped path has a mapped parent only where a prefix of it is mapped to that parent. -/
theorem isParent_toLowerCase :
    isParent (lower.toLowerCase parent) (lower.toLowerCase child) = true ↔
      ∃ other, isParent other child = true ∧ lower.toLowerCase other = lower.toLowerCase parent := by
  constructor
  · intro below
    obtain ⟨rest, some, shape⟩ := isParent_iff.mp below
    rw [lower.segmentwise, lower.segmentwise] at shape
    have positive := List.length_pos_of_ne_nil (segments_ne_nil parent)
    have front := congrArg (List.take (segments parent).length) shape
    rw [List.take_left' (List.length_map _), ← List.map_take] at front
    have length := congrArg List.length shape
    rw [List.length_append, List.length_map, List.length_map] at length
    have more := List.length_pos_of_ne_nil some
    refine ⟨joinSegments ((segments child).take (segments parent).length), ?_, ?_⟩
    · refine isParent_iff.mpr ⟨(segments child).drop (segments parent).length, ?_, ?_⟩
      · rw [Ne, List.drop_eq_nil_iff]
        omega
      · rw [segments_take positive, List.take_append_drop]
    · apply segments_injective
      rw [lower.segmentwise, segments_take positive, front, lower.segmentwise]
  · rintro ⟨other, above, same⟩
    obtain ⟨rest, some, shape⟩ := isParent_iff.mp above
    refine isParent_iff.mpr ⟨rest.map lower.toLowerCase, by simpa using some, ?_⟩
    rw [← same, lower.segmentwise, lower.segmentwise, shape, List.map_append]

end Mapping

end Kratos.Foundation.Paths
