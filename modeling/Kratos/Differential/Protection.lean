/- source: packages/differential/src/normalize.ts
   digest: Which targets a pointer that is not protected can have. -/

import Kratos.Differential.Normalize

set_option autoImplicit false

namespace Kratos.Differential

open Foundation.Text Foundation.JsonText Foundation.JsonPlaces Foundation.Splitting
open Foundation.Replacing (replaceAll replaceAll_eq_of_not_mem)

/-- A word that no escape decodes to unless it is written as it is. -/
def PlainWord (word : JsString) : Prop := unit '/' ∉ word ∧ unit '~' ∉ word

instance (word : JsString) : Decidable (PlainWord word) := inferInstanceAs (Decidable (_ ∧ _))

def artifactPlace (index : Nat) (inner : Place) : Place :=
  js "structured" :: decimal index :: js "value" :: inner

section Decoding

theorem plainWord_decimal (n : Nat) : PlainWord (decimal n) := by
  have digits := decimal_digits n
  constructor
  · exact fun member => absurd (digits _ member) (by decide)
  · exact fun member => absurd (digits _ member) (by decide)

theorem plainWord_decision : ∀ field ∈ decisionFields, PlainWord field := by decide

theorem decodeSegment_plain {segment word : JsString} (plain : PlainWord word)
    (decoded : decodeSegment segment = word) : segment = word := by
  obtain ⟨noSlash, noTilde⟩ := plain
  rw [decodeSegment] at decoded
  have outer : replaceAll (replaceAll segment (js "~1") (js "/")) (js "~0") (js "~") =
      replaceAll segment (js "~1") (js "/") :=
    replaceAll_eq_of_not_mem (u := unit '~') (by decide) (by rwa [decoded])
  rw [outer] at decoded
  have inner : replaceAll segment (js "~1") (js "/") = segment :=
    replaceAll_eq_of_not_mem (u := unit '/') (by decide) (by rwa [decoded])
  rw [← inner, decoded]

theorem decodePointer_ok {pointer : JsString} {target : Place}
    (decoded : decodePointer pointer = .ok target) :
    ∃ tail, pointer = unit '/' :: tail ∧
      target = (tail.splitOn (unit '/')).map decodeSegment := by
  rw [decodePointer] at decoded
  split at decoded
  · cases decoded
  · rename_i valid
    simp only [Bool.or_eq_true, not_or, Bool.not_eq_true, Bool.not_eq_false'] at valid
    obtain ⟨tail, rfl⟩ := (startsWith_iff pointer (js "/")).mp valid.1
    exact ⟨tail, rfl, (Except.ok.inj decoded).symm⟩

theorem split_of_target {tail : JsString} {word : JsString} {rest : Place} (plain : PlainWord word)
    (target : (tail.splitOn (unit '/')).map decodeSegment = word :: rest) :
    ∃ later, tail.splitOn (unit '/') = word :: later ∧ later.map decodeSegment = rest := by
  obtain ⟨segment, later, split, first, others⟩ := List.map_eq_cons_iff.mp target
  exact ⟨later, by rw [split, decodeSegment_plain plain first], others⟩

end Decoding

section Guard

variable {tail : JsString} {later : List JsString}

/-- Below the roots only the disclosed contents of the streams are not protected. -/
theorem unprotected_root {root : String} (listed : root ∈ ["/process", "/filesystem", "/git"])
    (split : tail.splitOn (unit '/') = (js root).tail :: later)
    (free : isProtected (unit '/' :: tail) = false) :
    unit '/' :: tail = js "/process/stdout/content" ∨
      unit '/' :: tail = js "/process/stderr/content" := by
  have opened : unit '/' :: (js root).tail = js root := by
    have all : ["/process", "/filesystem", "/git"].all
        (fun root => unit '/' :: (js root).tail == js root) = true := by decide
    exact eq_of_beq (List.all_eq_true.mp all root listed)
  by_contra other
  rw [not_or] at other
  have named : (unit '/' :: tail == js root ||
      startsWith (unit '/' :: tail) (js root ++ js "/")) = true := by
    rw [Bool.or_eq_true]
    cases later with
    | nil =>
        obtain ⟨rfl, -⟩ := splitOn_eq_singleton_iff.mp split
        exact .inl (beq_iff_eq.mpr opened)
    | cons next later =>
        obtain ⟨rest, rfl, -, -⟩ := (splitOn_cons_iff (List.cons_ne_nil next later)).mp split
        refine .inr ?_
        have shape : unit '/' :: ((js root).tail ++ unit '/' :: rest) =
            (js root ++ js "/") ++ rest := by
          rw [← List.cons_append, opened, List.append_assoc]
          rfl
        rw [shape]
        exact startsWith_append _ _
  have guarded : isProtected (unit '/' :: tail) = true := by
    rw [isProtected, if_neg (by simp [other.1, other.2]), if_pos]
    refine List.any_eq_true.mpr ⟨root, listed, ?_⟩
    rw [named, Bool.true_or]
  rw [guarded] at free
  cases free

theorem structuredRest_index {index : Nat}
    (split : tail.splitOn (unit '/') = js "structured" :: decimal index :: later) :
    structuredRest (unit '/' :: tail) =
      if later = [] then some none
      else if ([unit '/'].intercalate later).any isLineTerminator then none
      else some (some ([unit '/'].intercalate later)) := by
  obtain ⟨rest, rfl, -, inner⟩ := (splitOn_cons_iff (List.cons_ne_nil _ _)).mp split
  have shape : unit '/' :: (js "structured" ++ unit '/' :: rest) = js "/structured/" ++ rest := rfl
  have filled : decimal index ≠ [] := by
    intro empty
    have value := digitsValue_decimal index
    have digits := validInteger_decimal index
    rw [empty] at digits
    cases digits
  have notBare : (js "/structured/" ++ rest == js "/structured") = false := by
    rw [beq_eq_false_iff_ne]
    intro equal
    have lengths := congrArg List.length equal
    have long : (js "/structured/").length = 12 := by decide
    have short : (js "/structured").length = 11 := by decide
    rw [List.length_append] at lengths
    omega
  have dropped : (js "/structured/" ++ rest).drop 12 = rest := List.drop_left' (by decide)
  rw [shape, structuredRest, notBare, if_neg (by decide), if_pos (startsWith_append _ _), dropped]
  have digits := decimal_digits index
  cases later with
  | nil =>
      obtain ⟨rfl, -⟩ := splitOn_eq_singleton_iff.mp inner
      have taken : (decimal index).takeWhile isDigit = decimal index :=
        List.takeWhile_eq_self_iff.mpr digits
      have left : (decimal index).dropWhile isDigit = [] := List.dropWhile_eq_nil_iff.mpr digits
      simp only [taken, left, List.isEmpty_iff, filled, if_false, if_true]
  | cons next later =>
      obtain ⟨more, rfl, -, words⟩ := (splitOn_cons_iff (List.cons_ne_nil next later)).mp inner
      have joined : [unit '/'].intercalate (next :: later) = more := by
        rw [← words]
        exact List.intercalate_splitOn (unit '/')
      have stop : isDigit (unit '/') = false := by decide
      have taken : (decimal index ++ unit '/' :: more).takeWhile isDigit = decimal index := by
        rw [List.takeWhile_append_of_pos digits, List.takeWhile_cons_of_neg (by simp [stop]),
          List.append_nil]
      have left : (decimal index ++ unit '/' :: more).dropWhile isDigit = unit '/' :: more := by
        rw [List.dropWhile_append_of_pos digits, List.dropWhile_cons_of_neg (by simp [stop])]
      simp only [taken, left, joined, List.isEmpty_iff, filled, if_false, List.cons_ne_nil,
        beq_self_eq_true, Bool.true_and]
      cases more.any isLineTerminator <;> rfl

theorem isProtected_structured {rest : JsString} :
    isProtected (js "/structured" ++ rest) =
      match structuredRest (js "/structured" ++ rest) with
      | none => false
      | some none => true
      | some (some rest) =>
          let segments := rest.splitOn (unit '/')
          if segments.head? != some (js "value") then true
          else segments.length == 1 ||
            segments.tail.any fun segment => decisionFields.contains segment := by
  have second : (js "/structured" ++ rest).take 2 = js "/s" := rfl
  have apart : ∀ text : JsString, text.take 2 ≠ js "/s" →
      (js "/structured" ++ rest == text) = false := fun text differ =>
    beq_eq_false_iff_ne.mpr fun equal => differ (by rw [← equal, second])
  have roots : (["/process", "/filesystem", "/git"].any fun root =>
      js "/structured" ++ rest == js root ||
        startsWith (js "/structured" ++ rest) (js root ++ js "/") ||
          startsWith (js root) (js "/structured" ++ rest ++ js "/")) = false := by
    have names : ∀ root ∈ ["/process", "/filesystem", "/git"],
        startsWith (js "/structured") (js root ++ js "/") = false ∧
          startsWith (js root ++ js "/") (js "/structured") = false ∧
            (js root).take 2 ≠ js "/s" ∧ 2 ≤ (js root).length := by
      simp only [List.forall_mem_cons, List.not_mem_nil, false_implies, implies_true, and_true]
      decide
    rw [List.any_eq_false]
    intro root listed
    obtain ⟨forward, backward, differ, -⟩ := names root listed
    have within : startsWith (js root) (js "/structured" ++ rest ++ js "/") = false := by
      by_contra begins
      obtain ⟨more, whole⟩ := (startsWith_iff _ _).mp (by simpa using begins)
      exact differ (by rw [whole]; rfl)
    rw [apart _ differ, startsWith_append_of_disjoint forward backward, within]
    simp
  rw [isProtected, apart _ (by decide), apart _ (by decide), if_neg (by simp), roots]
  exact (if_neg (by simp)).trans rfl

/-- A pointer into an artifact that is neither protected nor broken over lines goes below the
artifact's value and through no decision field. -/
theorem unprotected_index {index : Nat}
    (split : tail.splitOn (unit '/') = js "structured" :: decimal index :: later)
    (free : isProtected (unit '/' :: tail) = false) :
    ([unit '/'].intercalate later).any isLineTerminator = true ∨
      ∃ next inner, later = js "value" :: next :: inner ∧
        ∀ segment ∈ next :: inner, segment ∉ decisionFields := by
  have found := structuredRest_index split
  obtain ⟨rest, rfl, -, inner⟩ := (splitOn_cons_iff (List.cons_ne_nil _ _)).mp split
  have shape : unit '/' :: (js "structured" ++ unit '/' :: rest) =
      js "/structured" ++ unit '/' :: rest := rfl
  rw [shape] at found free
  rw [isProtected_structured, found] at free
  cases later with
  | nil => cases free
  | cons next later =>
      have plain : ∀ word ∈ next :: later, unit '/' ∉ word := by
        intro word member
        have listed : word ∈ rest.splitOn (unit '/') := by
          rw [inner]
          exact List.mem_cons_of_mem _ member
        exact not_mem_of_mem_splitOn listed
      have words : ([unit '/'].intercalate (next :: later)).splitOn (unit '/') = next :: later :=
        List.splitOn_intercalate (unit '/') plain (List.cons_ne_nil next later)
      rw [if_neg (List.cons_ne_nil next later)] at free
      by_cases broken : ([unit '/'].intercalate (next :: later)).any isLineTerminator = true
      · exact .inl broken
      · rw [if_neg broken] at free
        refine .inr ?_
        simp only [words, List.head?_cons, List.tail_cons, List.length_cons] at free
        split at free
        · cases free
        · rename_i named
          obtain rfl : next = js "value" := by simpa using named
          simp only [Bool.or_eq_false_iff, List.any_eq_false, List.contains_iff_mem] at free
          cases later with
          | nil => simp at free
          | cons following deeper => exact ⟨following, deeper, rfl, free.2⟩

theorem broken_pointer {first second : JsString}
    (split : tail.splitOn (unit '/') = first :: second :: later)
    (broken : ([unit '/'].intercalate later).any isLineTerminator = true) :
    (unit '/' :: tail).any isLineTerminator = true := by
  obtain ⟨rest, rfl, -, inner⟩ := (splitOn_cons_iff (List.cons_ne_nil _ _)).mp split
  cases later with
  | nil => cases broken
  | cons next later =>
      obtain ⟨more, rfl, -, words⟩ := (splitOn_cons_iff (List.cons_ne_nil next later)).mp inner
      have joined : [unit '/'].intercalate (next :: later) = more := by
        rw [← words]
        exact List.intercalate_splitOn (unit '/')
      rw [joined] at broken
      simp only [List.any_append, List.any_cons, broken, Bool.or_true]

end Guard

section Targets

variable {pointer field : JsString} {target inner : Place} {index : Nat}

theorem split_artifact {tail : JsString}
    (target : (tail.splitOn (unit '/')).map decodeSegment = artifactPlace index inner) :
    ∃ later, tail.splitOn (unit '/') = js "structured" :: decimal index :: js "value" :: later ∧
      later.map decodeSegment = inner := by
  obtain ⟨second, split, more⟩ := split_of_target (by decide) target
  obtain ⟨_, third, rfl, index', others⟩ := List.map_eq_cons_iff.mp more
  obtain ⟨_, later, rfl, value', rest⟩ := List.map_eq_cons_iff.mp others
  rw [decodeSegment_plain (plainWord_decimal index) index',
    decodeSegment_plain (by decide) value'] at split
  exact ⟨later, split, rest⟩

theorem target_root {root : String} {rest : Place}
    (listed : root ∈ ["/process", "/filesystem", "/git"])
    (decoded : decodePointer pointer = .ok ((js root).tail :: rest))
    (free : isProtected pointer = false) :
    (pointer = js "/process/stdout/content" ∧
      (js root).tail :: rest = [js "process", js "stdout", js "content"]) ∨
    (pointer = js "/process/stderr/content" ∧
      (js root).tail :: rest = [js "process", js "stderr", js "content"]) := by
  have plain : ["/process", "/filesystem", "/git"].all
      (fun root => decide (PlainWord (js root).tail)) = true := by decide
  obtain ⟨tail, rfl, target⟩ := decodePointer_ok decoded
  obtain ⟨later, split, -⟩ :=
    split_of_target (of_decide_eq_true (List.all_eq_true.mp plain root listed)) target.symm
  rcases unprotected_root listed split free with out | err
  · rw [out] at decoded
    exact .inl ⟨out, (Except.ok.inj decoded).symm⟩
  · rw [err] at decoded
    exact .inr ⟨err, (Except.ok.inj decoded).symm⟩

/-- A target that holds a decision field is a member of an artifact's value or deeper. -/
theorem target_above (decoded : decodePointer pointer = .ok target)
    (free : isProtected pointer = false)
    (above : target <+: artifactPlace index inner) : 3 < target.length := by
  obtain ⟨tail, rfl, rfl⟩ := decodePointer_ok decoded
  rcases split : tail.splitOn (unit '/') with _ | ⟨first, _ | ⟨second, _ | ⟨third, later⟩⟩⟩
  · exact absurd split (List.splitOn_ne_nil _ _)
  · rw [split] at above
    have named := (List.cons_prefix_cons.mp above).1
    rw [decodeSegment_plain (by decide) named] at split
    obtain ⟨rfl, -⟩ := splitOn_eq_singleton_iff.mp split
    rw [show isProtected (unit '/' :: js "structured") = true by decide] at free
    cases free
  · rw [split] at above
    obtain ⟨named, above⟩ := List.cons_prefix_cons.mp above
    have numbered := (List.cons_prefix_cons.mp above).1
    rw [decodeSegment_plain (by decide) named,
      decodeSegment_plain (plainWord_decimal index) numbered] at split
    rcases unprotected_index split free with broken | ⟨_, _, shape, -⟩
    · cases broken
    · cases shape
  · rw [split] at above
    obtain ⟨named, above⟩ := List.cons_prefix_cons.mp above
    obtain ⟨numbered, above⟩ := List.cons_prefix_cons.mp above
    have valued := (List.cons_prefix_cons.mp above).1
    rw [decodeSegment_plain (by decide) named,
      decodeSegment_plain (plainWord_decimal index) numbered,
      decodeSegment_plain (by decide) valued] at split
    cases later with
    | nil =>
        rcases unprotected_index split free with broken | ⟨_, _, shape, -⟩
        · rw [show ([unit '/'].intercalate [js "value"]).any isLineTerminator = false by decide]
            at broken
          cases broken
        · cases shape
    | cons next later =>
        simp only [List.map_cons, List.length_cons]
        omega

theorem target_not_below (decoded : decodePointer pointer = .ok target)
    (free : isProtected pointer = false) (listed : field ∈ decisionFields)
    (oneLine : pointer.any isLineTerminator = true → ∀ segment ∈ target, segment ∉ decisionFields) :
    ¬artifactPlace index (inner ++ [field]) <+: target := by
  rintro ⟨rest, whole⟩
  obtain ⟨tail, rfl, shape⟩ := decodePointer_ok decoded
  have through : target = artifactPlace index (inner ++ field :: rest) := by
    rw [← whole]
    simp [artifactPlace]
  obtain ⟨later, split, deeper⟩ := split_artifact (shape.symm.trans through)
  rcases unprotected_index split free with broken | ⟨next, within, opened, apart⟩
  · refine oneLine (broken_pointer split broken) field ?_ listed
    rw [through]
    simp [artifactPlace]
  · obtain rfl : later = next :: within := (List.cons.inj opened).2
    have member : field ∈ (next :: within).map decodeSegment := by
      rw [deeper]
      simp
    obtain ⟨segment, inside, named⟩ := List.mem_map.mp member
    have written := decodeSegment_plain (plainWord_decision field listed) named
    exact apart segment inside (written ▸ listed)

end Targets

end Kratos.Differential
