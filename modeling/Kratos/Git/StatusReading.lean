/- source: domain/git/status.ts, domain/git/paths.ts
   digest: When a status listing is read in full, and when malformed input is refused. -/

import Kratos.Git.StatusShape
import Mathlib.Algebra.BigOperators.Group.List.Basic

set_option autoImplicit false

namespace Kratos.Git

open Foundation.Text Foundation.JsonText Foundation.Doubles Foundation.Utf8 Foundation.Splitting

section Names

/-- The text the decoder reads of a name: without the mark at its front. -/
def Name.parsed (name : Name) : JsString := (dropMark name.points).flatMap unitsOfCodePoint

theorem Name.decoded (sha256Bytes : Bytes → JsString) (name : Name) :
    decodeGitPath sha256Bytes name.bytes = .text name.parsed := by
  rw [decodeGitPath, Name.bytes, decodeFatal_scalars name.scalars]
  rfl

theorem dropMark_cons (p : Nat) (points : List Nat) :
    dropMark (p :: points) = if p = 0xFEFF then points else p :: points := by
  split_ifs with mark
  · rw [mark]
    rfl
  · unfold dropMark
    split
    · rename_i same
      exact absurd (List.cons.inj same).1 mark
    · rfl

theorem Name.bytes_ne_nil (name : Name) : name.bytes ≠ [] := by
  obtain ⟨p, points, shape⟩ := List.exists_cons_of_ne_nil name.filled
  rw [Name.bytes, shape, List.flatMap_cons]
  have own : bytesOfCodePoint p ≠ [] := by
    unfold bytesOfCodePoint
    split_ifs <;> exact List.cons_ne_nil _ _
  exact List.append_ne_nil_of_left_ne_nil own _

theorem Name.parsed_eq {name : Name} (plain : ¬name.Marked) : name.parsed = name.text := by
  obtain ⟨p, points, shape⟩ := List.exists_cons_of_ne_nil name.filled
  rw [Name.Marked, shape, List.head?_cons, Option.some.injEq] at plain
  rw [Name.parsed, Name.text, shape, dropMark_cons, if_neg plain]

theorem Name.length_parsed {name : Name} (marked : name.Marked) :
    name.text.length = name.parsed.length + 1 := by
  obtain ⟨p, points, shape⟩ := List.exists_cons_of_ne_nil name.filled
  rw [Name.Marked, shape, List.head?_cons, Option.some.injEq] at marked
  rw [Name.parsed, Name.text, shape, dropMark_cons, if_pos marked, marked]
  have single : unitsOfCodePoint 0xFEFF = [0xFEFF] := by decide
  rw [List.flatMap_cons, single, List.singleton_append, List.length_cons]

theorem Name.text_injective : Function.Injective Name.text := by
  intro left right same
  have points : left.points = right.points := by
    rw [← codePoints_units left.scalars, ← codePoints_units right.scalars]
    exact congrArg codePoints same
  cases left
  cases right
  cases points
  rfl

theorem Name.unended_bytes (name : Name) : 0 ∉ name.bytes := by
  rw [Name.bytes, List.mem_flatMap]
  rintro ⟨p, member, null⟩
  obtain rfl := (zero_mem_bytesOfCodePoint p).mp null
  exact name.unended member

end Names

section Lines

variable {words later : List JsString} {points : List Nat} {bytes : Bytes}

def Visible (text : JsString) : Prop := ∀ u ∈ text, isVisible u = true

instance (text : JsString) : Decidable (Visible text) :=
  inferInstanceAs (Decidable (∀ u ∈ text, isVisible u = true))

theorem Visible.solid {text : JsString} (visible : Visible text) : unit ' ' ∉ text :=
  fun blank => absurd (visible _ blank) (by decide)

theorem lead_units (visible : ∀ word ∈ words, Visible word) :
    ∀ u ∈ lead words, 0 < u.toNat ∧ u.toNat < 0x80 := by
  intro u member
  obtain ⟨word, listed, inside⟩ := List.mem_flatMap.mp member
  rcases List.mem_append.mp inside with own | blank
  · have bounds := visible word listed u own
    simp only [isVisible, Bool.and_eq_true, decide_eq_true_eq] at bounds
    omega
  · rw [List.mem_singleton] at blank
    subst blank
    decide

theorem asciiBytes_units (text : JsString) :
    (asciiBytes text).flatMap unitsOfCodePoint = text := by
  induction text with
  | nil => rfl
  | cons u text ih =>
      have bound := u.toNat_lt
      rw [asciiBytes, List.map_cons, List.flatMap_cons, ← asciiBytes, ih, unitsOfCodePoint,
        if_pos (by omega), UInt16.ofNat_toNat]
      rfl

theorem asciiBytes_bytes {text : JsString} (ascii : ∀ u ∈ text, u.toNat < 0x80) :
    (asciiBytes text).flatMap bytesOfCodePoint = asciiBytes text := by
  refine flatMap_ascii fun p member => ?_
  obtain ⟨u, inside, rfl⟩ := List.mem_map.mp member
  exact ascii u inside

theorem decode_line (filled : words ≠ []) (visible : ∀ word ∈ words, Visible word)
    (scalars : ∀ p ∈ points, Scalar p) :
    decode (line words (points.flatMap bytesOfCodePoint)) =
      lead words ++ points.flatMap unitsOfCodePoint := by
  have units := lead_units visible
  have whole : line words (points.flatMap bytesOfCodePoint) =
      (asciiBytes (lead words) ++ points).flatMap bytesOfCodePoint := by
    rw [List.flatMap_append, asciiBytes_bytes fun u member => (units u member).2]
    rfl
  have all : ∀ p ∈ asciiBytes (lead words) ++ points, Scalar p := by
    intro p member
    rcases List.mem_append.mp member with front | back
    · obtain ⟨u, inside, rfl⟩ := List.mem_map.mp front
      have bound := (units u inside).2
      exact ⟨by omega, by omega⟩
    · exact scalars p back
  have unmarked : dropMark (asciiBytes (lead words) ++ points) = asciiBytes (lead words) ++ points := by
    cases shape : lead words with
    | nil =>
        obtain ⟨word, rest, rfl⟩ := List.exists_cons_of_ne_nil filled
        simp [lead] at shape
    | cons u rest =>
        have bound := (units u (shape ▸ List.mem_cons_self)).2
        rw [asciiBytes, List.map_cons, List.cons_append, dropMark_cons, if_neg (by omega)]
  rw [whole, decode_scalars all, unmarked, List.flatMap_append, asciiBytes_units]

theorem spaceParts_lead (visible : ∀ word ∈ words, Visible word) (text : JsString) :
    spaceParts (lead words ++ text) = words ++ spaceParts text := by
  induction words with
  | nil => rfl
  | cons word words ih =>
      obtain ⟨own, others⟩ := List.forall_mem_cons.mp visible
      have split : lead (word :: words) ++ text = word ++ unit ' ' :: (lead words ++ text) := by
        simp [lead]
      rw [split, spaceParts, List.splitOn_append_cons_self, List.splitOn_eq_singleton own.solid,
        ← spaceParts, ih others]
      rfl

theorem wordsOf_line (filled : words ≠ []) (visible : ∀ word ∈ words, Visible word)
    (scalars : ∀ p ∈ points, Scalar p) :
    wordsOf (line words (points.flatMap bytesOfCodePoint)) =
      words ++ spaceParts (points.flatMap unitsOfCodePoint) := by
  rw [wordsOf, decode_line filled visible scalars, spaceParts_lead visible]

theorem spaceJoined_lead (filled : words ≠ []) : spaceJoined words ++ [unit ' '] = lead words :=
  intercalate_ended filled (unit ' ')

theorem pathBytes_line (filled : words ≠ []) :
    pathBytes (line words bytes) (words ++ later) words.length = bytes := by
  have size : (spaceJoined words).length + 1 = (asciiBytes (lead words)).length := by
    rw [← spaceJoined_lead filled, asciiBytes, List.length_map, List.length_append]
    rfl
  rw [pathBytes, List.take_left, size, line, List.drop_left]

theorem unended_line (visible : ∀ word ∈ words, Visible word) (unended : 0 ∉ bytes) :
    0 ∉ line words bytes := by
  rw [line, List.mem_append, not_or]
  refine ⟨fun member => ?_, unended⟩
  obtain ⟨u, inside, null⟩ := List.mem_map.mp member
  have positive := (lead_units visible u inside).1
  omega

end Lines

section Words

variable {Path : Type}

theorem kindOf_letterOf (kind : GitChangeKind) : kindOf (letterOf kind) = some kind := by
  cases kind <;> decide

theorem letterOf_visible (kind : GitChangeKind) : isVisible (letterOf kind) = true := by
  cases kind <;> decide

theorem Mode.visible (mode : Mode) : Visible mode.text := by
  cases mode <;> decide

theorem entryKindFromMode_text (mode : Mode) : entryKindFromMode mode.text = mode.entry := by
  cases mode <;> decide

theorem Mode.text_eq_absent (mode : Mode) : mode.text = ABSENT_MODE ↔ mode = .absent := by
  cases mode <;> decide

theorem conflictLetters_visible : ∀ conflict, Visible (conflictLetters conflict)
  | ⟨false, false, false⟩ => by decide
  | ⟨false, false, true⟩ => by decide
  | ⟨true, false, false⟩ => by decide
  | ⟨true, false, true⟩ => by decide
  | ⟨false, true, false⟩ => by decide
  | ⟨false, true, true⟩ => by decide
  | ⟨true, true, false⟩ => by decide
  | ⟨true, true, true⟩ => by decide

theorem ObjectId.visible (id : ObjectId) : Visible id.digits := by
  intro u member
  have digit := id.hex u member
  simp only [isHexDigit, isDigit, between, Bool.or_eq_true, Bool.and_eq_true, decide_eq_true_eq]
    at digit
  simp only [isVisible, Bool.and_eq_true, decide_eq_true_eq]
  have bounds : ('0'.toNat = 0x30 ∧ '9'.toNat = 0x39) ∧ 'a'.toNat = 0x61 ∧ 'f'.toNat = 0x66 := by
    decide
  omega

theorem firstNonZeroMode_mode (tracked : Tracked Path) :
    firstNonZeroMode [tracked.worktreeMode.text, tracked.indexMode.text, tracked.headMode.text] =
      tracked.mode.text := by
  unfold firstNonZeroMode Tracked.mode
  simp only [List.find?_cons, List.find?_nil, ne_eq, Mode.text_eq_absent]
  by_cases worktree : tracked.worktreeMode = .absent
  · by_cases index : tracked.indexMode = .absent
    · by_cases head : tracked.headMode = .absent
      · simp only [worktree, index, head]
        rfl
      · simp [worktree, index, head]
    · simp [worktree, index]
  · simp [worktree]

theorem Tracked.visible (tracked : Tracked Path) : ∀ word ∈ tracked.words, Visible word := by
  simp only [Tracked.words, List.forall_mem_cons]
  refine ⟨?_, tracked.submodule.visible, tracked.headMode.visible, tracked.indexMode.visible,
    tracked.worktreeMode.visible, tracked.headId.visible, tracked.indexId.visible, ?_⟩
  · exact List.forall_mem_cons.mpr ⟨letterOf_visible _, List.forall_mem_singleton.mpr (letterOf_visible _)⟩
  · exact fun word member => absurd member List.not_mem_nil

theorem Unmerged.visible (stages : Unmerged Path) : ∀ word ∈ stages.words, Visible word := by
  simp only [Unmerged.words, List.forall_mem_cons]
  exact ⟨conflictLetters_visible _, stages.submodule.visible, stages.baseMode.visible,
    stages.oursMode.visible, stages.theirsMode.visible, stages.worktreeMode.visible,
    stages.baseId.visible, stages.oursId.visible, stages.theirsId.visible,
    fun word member => absurd member List.not_mem_nil⟩

theorem Entry.words_ne_nil (entry : Entry Path) : entry.words ≠ [] := by
  cases entry <;> exact List.cons_ne_nil _ _

theorem Entry.visible (entry : Entry Path) : ∀ word ∈ entry.words, Visible word := by
  cases entry with
  | ordinary tracked => exact List.forall_mem_cons.mpr ⟨by decide, tracked.visible⟩
  | renamed tracked score origin =>
      refine List.forall_mem_cons.mpr ⟨by decide, ?_⟩
      rw [List.forall_mem_append]
      exact ⟨tracked.visible, List.forall_mem_singleton.mpr score.visible⟩
  | unmerged stages => exact List.forall_mem_cons.mpr ⟨by decide, stages.visible⟩
  | untracked path => exact List.forall_mem_singleton.mpr (by decide)
  | ignored path => exact List.forall_mem_singleton.mpr (by decide)

end Words

section Entries

variable (sha256Bytes : Bytes → JsString) {type : JsString} {extra : List JsString}

/-- What the reader makes of an entry: its change, but for the marks of its names. -/
def Entry.reading (entry : Entry Name) : GitChange :=
  { entry.change with
    path := .text entry.path.parsed
    renamedFrom := entry.origin.map fun name => .text name.parsed }

/-- A tracked entry is read behind any first word, with more words before its path. -/
theorem Tracked.read (tracked : Tracked Name) (type_visible : Visible type)
    (extra_visible : ∀ word ∈ extra, Visible word) :
    readTracked sha256Bytes (line (type :: (tracked.words ++ extra)) tracked.path.bytes)
        (decode (line (type :: (tracked.words ++ extra)) tracked.path.bytes)) (8 + extra.length) =
      some { tracked.change none with path := .text tracked.path.parsed } := by
  have filled : type :: (tracked.words ++ extra) ≠ [] := List.cons_ne_nil _ _
  have visible : ∀ word ∈ type :: (tracked.words ++ extra), Visible word :=
    List.forall_mem_cons.mpr ⟨type_visible, List.forall_mem_append.mpr
      ⟨tracked.visible, extra_visible⟩⟩
  have parts : spaceParts (decode (line (type :: (tracked.words ++ extra)) tracked.path.bytes)) =
      type :: (tracked.words ++ extra) ++ spaceParts tracked.path.text :=
    wordsOf_line filled visible tracked.path.scalars
  have some_path : 0 < (spaceParts tracked.path.text).length :=
    List.length_pos_iff.mpr (List.splitOn_ne_nil (unit ' ') tracked.path.text)
  have count : (type :: (tracked.words ++ extra)).length = 8 + extra.length := by
    simp [Tracked.words]
    omega
  have long : ¬(type :: (tracked.words ++ extra) ++ spaceParts tracked.path.text).length <
      8 + extra.length + 1 := by
    rw [List.length_append, count]
    omega
  have path := @pathBytes_line _ (spaceParts tracked.path.text) tracked.path.bytes filled
  rw [count] at path
  rw [readTracked]
  simp only [parts, if_neg long, path, Name.decoded]
  simp only [Tracked.words, List.cons_append, List.getD_cons_succ, List.getD_cons_zero,
    List.getElem?_cons_zero, List.getElem?_cons_succ, Option.bind_some, kindOf_letterOf,
    firstNonZeroMode_mode, entryKindFromMode_text]
  rfl

theorem Unmerged.read (stages : Unmerged Name) :
    readUnmerged sha256Bytes (line (js "u" :: stages.words) stages.path.bytes)
        (decode (line (js "u" :: stages.words) stages.path.bytes)) =
      some { stages.change with path := .text stages.path.parsed } := by
  have filled : js "u" :: stages.words ≠ [] := List.cons_ne_nil _ _
  have visible : ∀ word ∈ js "u" :: stages.words, Visible word :=
    List.forall_mem_cons.mpr ⟨by decide, stages.visible⟩
  have parts : spaceParts (decode (line (js "u" :: stages.words) stages.path.bytes)) =
      js "u" :: stages.words ++ spaceParts stages.path.text :=
    wordsOf_line filled visible stages.path.scalars
  have some_path : 0 < (spaceParts stages.path.text).length :=
    List.length_pos_iff.mpr (List.splitOn_ne_nil (unit ' ') stages.path.text)
  have count : (js "u" :: stages.words).length = 10 := rfl
  have long : ¬(js "u" :: stages.words ++ spaceParts stages.path.text).length < 11 := by
    rw [List.length_append, count]
    omega
  have path := @pathBytes_line _ (spaceParts stages.path.text) stages.path.bytes filled
  rw [count] at path
  have present : ∀ id : ObjectId, hasObjectId id.digits = decide ¬id.Absent := by
    intro id
    rw [hasObjectId, Bool.eq_iff_iff, List.any_eq_true, decide_eq_true_eq]
    simp [ObjectId.Absent]
  rw [readUnmerged]
  simp only [parts, if_neg long, path, Name.decoded]
  simp only [Unmerged.words, List.cons_append, List.getD_cons_succ, List.getD_cons_zero,
    entryKindFromMode_text, present]
  rfl

theorem Entry.readRecord (entry : Entry Name) :
    readRecord sha256Bytes (line entry.words entry.path.bytes) =
      match entry.origin with
      | none => some (.change entry.reading)
      | some _ => some (.renaming { entry.reading with renamedFrom := none }) := by
  have words := wordsOf_line entry.words_ne_nil entry.visible entry.path.scalars
  have some_path : 0 < (spaceParts entry.path.text).length :=
    List.length_pos_iff.mpr (List.splitOn_ne_nil (unit ' ') entry.path.text)
  have more : 2 ≤ (wordsOf (line entry.words entry.path.bytes)).length := by
    have own := List.length_pos_iff.mpr entry.words_ne_nil
    rw [Name.bytes, words, List.length_append]
    exact Nat.add_le_add own some_path
  have first : (wordsOf (line entry.words entry.path.bytes)).head? = entry.words.head? := by
    rw [Name.bytes, words, List.head?_append_of_ne_nil _ entry.words_ne_nil]
  have shown := decode_line entry.words_ne_nil entry.visible entry.path.scalars
  rw [← Name.bytes, ← Name.text] at shown
  cases entry with
  | ordinary tracked =>
      have read := @Tracked.read sha256Bytes (js "1") [] tracked (by decide)
        (fun word member => absurd member List.not_mem_nil)
      rw [List.append_nil] at read
      rw [readRecord_ordinary more first]
      exact congrArg (Option.map Reading.change) read
  | renamed tracked score origin =>
      have read := @Tracked.read sha256Bytes (js "2") [score.text] tracked (by decide)
        (List.forall_mem_singleton.mpr score.visible)
      rw [readRecord_renamed more first]
      exact congrArg (Option.map Reading.renaming) read
  | unmerged stages =>
      rw [readRecord_unmerged more first]
      exact congrArg (Option.map Reading.change) (stages.read sha256Bytes)
  | untracked path =>
      have bytes : (line (js "?" :: []) path.bytes).drop 2 = path.bytes := rfl
      rw [readRecord_untracked more first, shown, Entry.words, Entry.path, bytes, Name.decoded]
      rfl
  | ignored path =>
      have bytes : (line (js "!" :: []) path.bytes).drop 2 = path.bytes := rfl
      rw [readRecord_ignored more first, shown, Entry.words, Entry.path, bytes, Name.decoded]
      rfl

theorem Entry.step (entry : Entry Name) (fields : HeaderFields) (changes : List GitChange)
    (rest : List Bytes) :
    readRecords sha256Bytes fields changes (entry.records Name.bytes ++ rest) =
      readRecords sha256Bytes fields (changes ++ [entry.reading]) rest := by
  have own := entry.readRecord sha256Bytes
  cases origin : entry.origin with
  | none =>
      rw [origin] at own
      rw [Entry.records, origin, Option.toList_none, List.map_nil, List.singleton_append,
        readRecords, own]
  | some name =>
      rw [origin] at own
      have whole : { entry.reading with renamedFrom := some (.text name.parsed) } =
          entry.reading := by
        rw [Entry.reading, origin]
        rfl
      rw [Entry.records, origin, Option.toList_some, List.map_singleton, List.cons_append,
        List.singleton_append, readRecords, own]
      simp only [if_neg name.bytes_ne_nil, Name.decoded, whole]

theorem entries_read (entries : List (Entry Name)) (fields : HeaderFields)
    (changes : List GitChange) :
    readRecords sha256Bytes fields changes (entries.flatMap (Entry.records Name.bytes)) =
      some (fields, changes ++ entries.map Entry.reading) := by
  induction entries generalizing changes with
  | nil => rw [List.flatMap_nil, readRecords, List.map_nil, List.append_nil]
  | cons entry entries ih =>
      rw [List.flatMap_cons, entry.step, ih, List.append_assoc, List.singleton_append, List.map_cons]

end Entries

section Headers

variable (sha256Bytes : Bytes → JsString) {fields : HeaderFields} {key value : JsString}

theorem spaceParts_keyed (visible : Visible key) :
    spaceParts (lead [js "#", key] ++ value) = js "#" :: key :: spaceParts value :=
  spaceParts_lead (List.forall_mem_cons.mpr ⟨by decide, List.forall_mem_singleton.mpr visible⟩) value

theorem spaceJoined_spaceParts : spaceJoined (spaceParts value) = value :=
  List.intercalate_splitOn (unit ' ')

theorem readHeader_oid : readHeader (lead [js "#", js "branch.oid"] ++ value) fields =
    some { fields with oid := some value } := by
  rw [readHeader, spaceParts_keyed (by decide)]
  simp only [List.getD_cons_succ, List.getD_cons_zero, if_true, List.drop_succ_cons, List.drop_zero,
    spaceJoined_spaceParts]

theorem readHeader_head : readHeader (lead [js "#", js "branch.head"] ++ value) fields =
    some { fields with head := some value } := by
  rw [readHeader, spaceParts_keyed (by decide)]
  simp only [List.getD_cons_succ, List.getD_cons_zero, if_true, List.drop_succ_cons, List.drop_zero,
    spaceJoined_spaceParts]
  rw [if_neg (by decide)]

theorem readHeader_upstream : readHeader (lead [js "#", js "branch.upstream"] ++ value) fields =
    some { fields with upstream := some value } := by
  rw [readHeader, spaceParts_keyed (by decide)]
  simp only [List.getD_cons_succ, List.getD_cons_zero, if_true, List.drop_succ_cons, List.drop_zero,
    spaceJoined_spaceParts]
  rw [if_neg (by decide), if_neg (by decide)]

theorem digit_solid {u : CodeUnit} (digit : isDigit u = true) :
    isWhiteSpace u = false ∧ u ≠ unit '-' ∧ u ≠ unit '+' := by
  have values : ∀ n < 0x3A, 0x30 ≤ n → isWhiteSpace (UInt16.ofNat n) = false ∧
      UInt16.ofNat n ≠ unit '-' ∧ UInt16.ofNat n ≠ unit '+' := by decide
  have bounds : '0'.toNat = 0x30 ∧ '9'.toNat = 0x39 := by decide
  simp only [isDigit, between, Bool.and_eq_true, decide_eq_true_eq] at digit
  have found := values u.toNat (by omega) (by omega)
  rwa [UInt16.ofNat_toNat] at found

theorem parseInteger_decimal {n : Nat} (small : n ≤ exactLimit) :
    parseInteger (decimal n) = some (n : Int) := by
  have digits := decimal_digits n
  have value := digitsValue_decimal n
  obtain ⟨u, rest, shape⟩ : ∃ u rest, decimal n = u :: rest := by
    refine List.exists_cons_of_ne_nil fun none => ?_
    have valid := validInteger_decimal n
    rw [none] at valid
    cases valid
  obtain ⟨visible, minus, plus⟩ := digit_solid (digits u (shape ▸ List.mem_cons_self))
  have bound : ¬infiniteFrom ≤ n :=
    Nat.not_le.mpr (Nat.lt_of_le_of_lt small exactLimit_lt_infiniteFrom)
  have kept : (decimal n).dropWhile isWhiteSpace = decimal n := by
    rw [shape, List.dropWhile_cons_of_neg (by simp [visible])]
  have head : (decimal n).head? = some u := by rw [shape]; rfl
  have all : (decimal n).takeWhile isDigit = decimal n := List.takeWhile_eq_self_iff.mpr digits
  rw [parseInteger]
  simp only [kept, head, Option.some.injEq, minus, plus, or_self, if_false, all, value, bound]
  rw [if_neg (by simp [shape]), nearestInteger_exact (by rwa [Int.natAbs_natCast])]

theorem readHeader_counts {ahead behind : Nat} (small : ahead ≤ exactLimit ∧ behind ≤ exactLimit) :
    readHeader (lead [js "#", js "branch.ab"] ++
        (js "+" ++ decimal ahead ++ js " -" ++ decimal behind)) fields =
      some { fields with ahead := some (ahead : Int), behind := some (behind : Int) } := by
  have split : spaceParts (js "+" ++ decimal ahead ++ js " -" ++ decimal behind) =
      [js "+" ++ decimal ahead, js "-" ++ decimal behind] := by
    have blank : ∀ n, unit ' ' ∉ decimal n := fun n member =>
      absurd (decimal_digits n _ member) (by decide)
    have front : unit ' ' ∉ js "+" ++ decimal ahead := by
      rw [List.mem_append, not_or]
      exact ⟨by decide, blank ahead⟩
    have back : unit ' ' ∉ js "-" ++ decimal behind := by
      rw [List.mem_append, not_or]
      exact ⟨by decide, blank behind⟩
    have whole : js "+" ++ decimal ahead ++ js " -" ++ decimal behind =
        (js "+" ++ decimal ahead) ++ unit ' ' :: (js "-" ++ decimal behind) := by
      rw [List.append_assoc]
      rfl
    rw [whole, spaceParts, List.splitOn_append_cons_self, List.splitOn_eq_singleton front,
      List.splitOn_eq_singleton back]
    rfl
  rw [readHeader, spaceParts_keyed (by decide)]
  simp only [List.getD_cons_succ, List.getD_cons_zero, if_true, List.drop_succ_cons, List.drop_zero,
    spaceJoined_spaceParts]
  rw [if_neg (by decide), if_neg (by decide), if_neg (by decide), split]
  have ahead_eq : (js "+" ++ decimal ahead).drop 1 = decimal ahead := rfl
  have behind_eq : (js "-" ++ decimal behind).drop 1 = decimal behind := rfl
  simp only [startsWith_append, Bool.not_true, Bool.or_self, Bool.false_eq_true, if_false, ahead_eq,
    behind_eq, parseInteger_decimal small.1, parseInteger_decimal small.2]

theorem readRecord_line (visible : Visible key) {points : List Nat}
    (scalars : ∀ p ∈ points, Scalar p) :
    readRecord sha256Bytes (header key (points.flatMap bytesOfCodePoint)) =
      some (.header (lead [js "#", key] ++ points.flatMap unitsOfCodePoint)) := by
  have filled : [js "#", key] ≠ [] := List.cons_ne_nil _ _
  have all : ∀ word ∈ [js "#", key], Visible word :=
    List.forall_mem_cons.mpr ⟨by decide, List.forall_mem_singleton.mpr visible⟩
  have words := wordsOf_line filled all scalars
  rw [header, readRecord_header (by rw [words, List.length_append]; exact Nat.le_add_right 2 _)
    (by rw [words]; rfl), decode_line filled all scalars]

theorem readRecords_name (visible : Visible key) (name : Name) {next : HeaderFields}
    (own : readHeader (lead [js "#", key] ++ name.text) fields = some next)
    (changes : List GitChange) (rest : List Bytes) :
    readRecords sha256Bytes fields changes (header key name.bytes :: rest) =
      readRecords sha256Bytes next changes rest := by
  rw [readRecords, Name.bytes, readRecord_line sha256Bytes visible name.scalars]
  dsimp only
  rw [← Name.text, own]

theorem readRecords_ascii (visible : Visible key) (ascii : ∀ u ∈ value, u.toNat < 0x80)
    {next : HeaderFields} (own : readHeader (lead [js "#", key] ++ value) fields = some next)
    (changes : List GitChange) (rest : List Bytes) :
    readRecords sha256Bytes fields changes (header key (asciiBytes value) :: rest) =
      readRecords sha256Bytes next changes rest := by
  have scalars : ∀ p ∈ asciiBytes value, Scalar p := by
    intro p member
    obtain ⟨u, inside, rfl⟩ := List.mem_map.mp member
    have bound := ascii u inside
    exact ⟨by omega, by omega⟩
  have read := readRecord_line sha256Bytes visible scalars
  rw [asciiBytes_bytes ascii, asciiBytes_units] at read
  rw [readRecords, read]
  simp only [own]

theorem ObjectId.units (id : ObjectId) : ∀ u ∈ id.digits, 0 < u.toNat ∧ u.toNat < 0x80 := by
  intro u member
  have visible := id.visible u member
  simp only [isVisible, Bool.and_eq_true, decide_eq_true_eq] at visible
  omega

theorem counts_units (ahead behind : Nat) :
    ∀ u ∈ js "+" ++ decimal ahead ++ js " -" ++ decimal behind, 0 < u.toNat ∧ u.toNat < 0x80 := by
  have signs : ∀ u ∈ js "+" ++ js " -", 0 < u.toNat ∧ u.toNat < 0x80 := by decide
  have digits : ∀ n, ∀ u ∈ decimal n, 0 < u.toNat ∧ u.toNat < 0x80 := by
    intro n u member
    have digit := decimal_digits n u member
    have bounds : '0'.toNat = 0x30 ∧ '9'.toNat = 0x39 := by decide
    simp only [isDigit, between, Bool.and_eq_true, decide_eq_true_eq] at digit
    omega
  intro u member
  simp only [List.mem_append] at member
  rcases member with ((plus | first) | minus) | second
  · exact signs u (List.mem_append_left _ plus)
  · exact digits ahead u first
  · exact signs u (List.mem_append_right _ minus)
  · exact digits behind u second

end Headers

section Heads

variable (sha256Bytes : Bytes → JsString)

def Head.fields : Head → HeaderFields
  | .unborn name _ => ⟨some (js "(initial)"), some name.text, none, none, none⟩
  | .detached commit => ⟨some commit.digits, some (js "(detached)"), none, none, none⟩
  | .branch name _ commit upstream =>
      ⟨some commit.digits, some name.text, upstream.map fun known => known.ref.text,
        (upstream.bind Upstream.divergence).map fun counts => (counts.1 : Int),
        (upstream.bind Upstream.divergence).map fun counts => (counts.2 : Int)⟩

theorem Head.read (head : Head) (rest : List Bytes) :
    readRecords sha256Bytes ⟨none, none, none, none, none⟩ [] (head.records ++ rest) =
      readRecords sha256Bytes head.fields [] rest := by
  cases head with
  | unborn name named =>
      rw [Head.records, List.cons_append, List.singleton_append,
        readRecords_ascii sha256Bytes (by decide) (by decide) readHeader_oid,
        readRecords_name sha256Bytes (by decide) name readHeader_head]
      rfl
  | detached commit =>
      rw [Head.records, List.cons_append, List.singleton_append,
        readRecords_ascii sha256Bytes (by decide) (fun u inside => (commit.units u inside).2)
          readHeader_oid,
        readRecords_ascii sha256Bytes (by decide) (by decide) readHeader_head]
      rfl
  | branch name named commit upstream =>
      rw [Head.records, List.cons_append, List.cons_append,
        readRecords_ascii sha256Bytes (by decide) (fun u inside => (commit.units u inside).2)
          readHeader_oid,
        readRecords_name sha256Bytes (by decide) name readHeader_head]
      cases upstream with
      | none => rfl
      | some known =>
          rw [Option.toList_some, List.flatMap_singleton, Upstream.records, List.cons_append,
            readRecords_name sha256Bytes (by decide) known.ref readHeader_upstream]
          cases counts : known.divergence with
          | none =>
              simp only [Head.fields, Option.map_some, Option.bind_some, counts, Option.map_none]
              rfl
          | some counts' =>
              have small := known.counted counts' (by rw [counts]; rfl)
              rw [Option.toList_some, List.map_singleton, List.singleton_append,
                readRecords_ascii sha256Bytes (by decide)
                  (fun u inside => (counts_units _ _ u inside).2) (readHeader_counts small)]
              simp only [Head.fields, Option.map_some, Option.bind_some, counts]

theorem Head.built (head : Head) : buildHead head.fields = some head.value := by
  have hex : ∀ id : ObjectId, id.digits ≠ js "(initial)" := by
    intro id same
    have digit := id.hex (unit '(') (by rw [same]; decide)
    exact absurd digit (by decide)
  cases head with
  | unborn name named => simp [buildHead, Head.fields, Head.value, named]
  | detached commit => simp [buildHead, Head.fields, Head.value, hex]
  | branch name named commit upstream =>
      simp only [buildHead, Head.fields, Head.value, hex, named, if_false]
      cases upstream with
      | none => rfl
      | some known =>
          cases counts : known.divergence <;> simp [Upstream.value, counts]

end Heads

section Marks

instance (name : Name) : Decidable name.Marked :=
  inferInstanceAs (Decidable (name.points.head? = some 0xFEFF))

def GitPath.size : GitPath → Nat
  | .text value => value.length
  | .undecodable _ _ => 0

def GitChange.size (change : GitChange) : Nat :=
  change.path.size + (change.renamedFrom.map GitPath.size).getD 0

def Name.marks (name : Name) : Nat := if name.Marked then 1 else 0

def Entry.marks (entry : Entry Name) : Nat := (entry.names.map Name.marks).sum

theorem Name.length_text (name : Name) : name.text.length = name.parsed.length + name.marks := by
  unfold Name.marks
  split_ifs with marked
  · exact Name.length_parsed marked
  · rw [Name.parsed_eq marked, Nat.add_zero]

theorem Entry.size_change (entry : Entry Name) :
    entry.change.size = entry.reading.size + entry.marks := by
  have whole : entry.change.size = (entry.names.map fun name => name.text.length).sum := by
    cases entry <;> rfl
  have read : entry.reading.size = (entry.names.map fun name => name.parsed.length).sum := by
    cases entry <;> rfl
  rw [whole, read, Entry.marks, ← List.sum_map_add]
  exact congrArg List.sum (List.map_congr_left fun name _ => name.length_text)

theorem unmarked_of_perm {entries : List (Entry Name)}
    (same : (entries.map Entry.reading).Perm (entries.map Entry.change)) :
    ∀ entry ∈ entries, ∀ name ∈ entry.names, ¬name.Marked := by
  have sizes := (same.map GitChange.size).sum_eq
  have total : (entries.map Entry.marks).sum = 0 := by
    have split : (entries.map fun entry => entry.change.size).sum =
        (entries.map fun entry => entry.reading.size).sum + (entries.map Entry.marks).sum := by
      rw [← List.sum_map_add]
      exact congrArg List.sum (List.map_congr_left fun entry _ => entry.size_change)
    rw [List.map_map, List.map_map] at sizes
    have equal : (entries.map fun entry => entry.reading.size).sum =
        (entries.map fun entry => entry.change.size).sum := sizes
    omega
  intro entry member name named marked
  have none : entry.marks = 0 := List.sum_eq_zero_iff_forall_eq_nat.mp total _ (List.mem_map_of_mem member)
  have own : name.marks = 0 := List.sum_eq_zero_iff_forall_eq_nat.mp none _ (List.mem_map_of_mem named)
  rw [Name.marks, if_pos marked] at own
  cases own

theorem Entry.reading_eq {entry : Entry Name} (plain : ∀ name ∈ entry.names, ¬name.Marked) :
    entry.reading = entry.change := by
  have path := Name.parsed_eq (plain entry.path List.mem_cons_self)
  cases entry with
  | renamed tracked score origin =>
      have before := Name.parsed_eq (plain origin (List.mem_cons_of_mem _ List.mem_cons_self))
      simp only [Entry.reading, path, Entry.origin, Option.map_some, before]
      rfl
  | ordinary tracked => simp only [Entry.reading, path]; rfl
  | unmerged stages => simp only [Entry.reading, path]; rfl
  | untracked name => simp only [Entry.reading, path]; rfl
  | ignored name => simp only [Entry.reading, path]; rfl

end Marks

section Listings

variable (sha256Bytes : Bytes → JsString)

theorem Entry.unended (entry : Entry Name) : ∀ record ∈ entry.records Name.bytes, 0 ∉ record := by
  refine List.forall_mem_cons.mpr ⟨unended_line entry.visible entry.path.unended_bytes, ?_⟩
  intro record member
  obtain ⟨name, -, rfl⟩ := List.mem_map.mp member
  exact name.unended_bytes

theorem unended_header {key : JsString} (visible : Visible key) {bytes : Bytes}
    (unended : 0 ∉ bytes) : 0 ∉ header key bytes :=
  unended_line (List.forall_mem_cons.mpr ⟨by decide, List.forall_mem_singleton.mpr visible⟩) unended

theorem unended_ascii {text : JsString} (solid : ∀ u ∈ text, 0 < u.toNat) : 0 ∉ asciiBytes text := by
  intro member
  obtain ⟨u, inside, null⟩ := List.mem_map.mp member
  exact absurd (solid u inside) (by omega)

theorem ObjectId.unended (id : ObjectId) : 0 ∉ asciiBytes id.digits :=
  unended_ascii fun u member => (id.units u member).1

theorem Head.unended (head : Head) : ∀ record ∈ head.records, 0 ∉ record := by
  cases head with
  | unborn name named =>
      exact List.forall_mem_cons.mpr ⟨by decide, List.forall_mem_singleton.mpr
        (unended_header (by decide) name.unended_bytes)⟩
  | detached commit =>
      exact List.forall_mem_cons.mpr ⟨unended_header (by decide) commit.unended,
        List.forall_mem_singleton.mpr (by decide)⟩
  | branch name named commit upstream =>
      refine List.forall_mem_cons.mpr ⟨unended_header (by decide) commit.unended,
        List.forall_mem_cons.mpr ⟨unended_header (by decide) name.unended_bytes, ?_⟩⟩
      intro record member
      obtain ⟨known, -, listed⟩ := List.mem_flatMap.mp member
      rcases List.mem_cons.mp listed with rfl | counted
      · exact unended_header (by decide) known.ref.unended_bytes
      · obtain ⟨counts, -, rfl⟩ := List.mem_map.mp counted
        exact unended_header (by decide)
          (unended_ascii fun u inside => (counts_units _ _ u inside).1)

theorem Listing.unended (listing : Listing) : ∀ record ∈ listing.records, 0 ∉ record := by
  refine List.forall_mem_append.mpr ⟨listing.head.unended, fun record member => ?_⟩
  obtain ⟨entry, -, inside⟩ := List.mem_flatMap.mp member
  exact entry.unended record inside

theorem Listing.parsed (listing : Listing) :
    parseStatusPorcelainV2 sha256Bytes listing.render =
      some ⟨listing.head.value, (listing.entries.map Entry.reading).insertionSort ByPath⟩ := by
  rw [parseStatusPorcelainV2, Listing.render, splitRecords_ended listing.unended, Listing.records,
    Head.read, entries_read, List.nil_append]
  simp only [Option.bind_eq_bind, Option.bind_some, Head.built]
  rfl

def Listing.names (listing : Listing) : List Name := listing.entries.flatMap Entry.names

theorem Listing.faithful_iff (listing : Listing) :
    (∃ status, parseStatusPorcelainV2 sha256Bytes listing.render = some status ∧
      Faithful listing status) ↔ ∀ name ∈ listing.names, ¬name.Marked := by
  rw [listing.parsed]
  constructor
  · rintro ⟨status, parsed, faithful⟩ name member
    obtain rfl := Option.some.inj parsed
    obtain ⟨entry, listed, named⟩ := List.mem_flatMap.mp member
    have same := (List.perm_insertionSort ByPath _).symm.trans faithful.changes
    exact unmarked_of_perm same entry listed name named
  · intro plain
    have kept : listing.entries.map Entry.reading = listing.entries.map Entry.change :=
      List.map_congr_left fun entry listed => Entry.reading_eq fun name named =>
        plain name (List.mem_flatMap.mpr ⟨entry, listed, named⟩)
    have same : ((listing.entries.map Entry.reading).insertionSort ByPath).Perm
        (listing.entries.map Entry.change) := kept ▸ List.perm_insertionSort ByPath _
    refine ⟨_, rfl, rfl, same, fun apart => ?_⟩
    have paths : (listing.entries.map Entry.change).map GitChange.path =
        (listing.entries.map Entry.path).map fun name => GitPath.text name.text := by
      rw [List.map_map, List.map_map]
      exact List.map_congr_left fun entry _ => by cases entry <;> rfl
    rw [(same.map GitChange.path).nodup_iff, paths]
    exact apart.map fun left right equal => Name.text_injective (GitPath.text.inj equal)

/-- What the reader keeps of a listing, and what else it does not refuse. -/
theorem status_read_in_full_iff (input : Bytes) :
    ReadsInFull sha256Bytes input ↔
      (∀ listing : Listing, input = listing.render → ∀ name ∈ listing.names, ¬name.Marked) ∧
      (ResemblesStream input → WellFormed input) := by
  refine and_congr ?_ ?_
  · refine forall_congr' fun listing => imp_congr_right fun same => ?_
    rw [same]
    exact listing.faithful_iff sha256Bytes
  · rw [← @parse_iff sha256Bytes]
    constructor
    · rintro refused ⟨status, parsed⟩
      by_contra malformed
      rw [refused malformed] at parsed
      cases parsed
    · intro formed malformed
      rw [Option.eq_none_iff_forall_ne_some]
      exact fun status parsed => malformed (formed ⟨status, parsed⟩)

end Listings

section Losses

/-- A name of ASCII characters, behind a byte order mark or not. -/
def asciiName (marked : Bool) (points : List Nat) (filled : points ≠ [])
    (ascii : ∀ p ∈ points, 0 < p ∧ p < 0x80) : Name where
  points := if marked then 0xFEFF :: points else points
  filled := by
    split
    · exact List.cons_ne_nil _ _
    · exact filled
  scalars := by
    have own : ∀ p ∈ points, Scalar p := fun p member =>
      ⟨by have := (ascii p member).2; omega, by have := (ascii p member).2; omega⟩
    split
    · exact List.forall_mem_cons.mpr ⟨⟨by decide, by decide⟩, own⟩
    · exact own
  unended := by
    have own : 0 ∉ points := fun null => absurd (ascii 0 null).1 (by decide)
    split
    · rw [List.mem_cons, not_or]
      exact ⟨by decide, own⟩
    · exact own

/-- Two untracked files whose names differ in a byte order mark. -/
def markedListing : Listing where
  head := .unborn (asciiName false [0x6D] (by decide) (by decide)) (by decide)
  entries := [.untracked (asciiName true [0x61] (by decide) (by decide)),
    .untracked (asciiName false [0x61] (by decide) (by decide))]

/-- A stream cut within the path of its last record. -/
def cutStream : Bytes :=
  asciiBytes (js "# branch.oid (initial)") ++ 0 :: asciiBytes (js "# branch.head m") ++
    0 :: asciiBytes (js "? ab")

/-- A mark makes two files one, and a cut record passes for a whole one. -/
theorem marked_and_cut_misread :
    ¬ReadsInFull (fun _ => []) markedListing.render ∧ ¬ReadsInFull (fun _ => []) cutStream := by
  constructor
  · rintro ⟨full, -⟩
    obtain ⟨status, parsed, faithful⟩ := full markedListing rfl
    have read : (parseStatusPorcelainV2 (fun _ => []) markedListing.render).map
        (fun status => status.changes.map GitChange.path) =
          some [.text (js "a"), .text (js "a")] := by decide +kernel
    rw [parsed, Option.map_some, Option.some.injEq] at read
    have apart : (markedListing.entries.map Entry.path).Nodup := by
      refine List.nodup_cons.mpr ⟨fun same => ?_, List.nodup_singleton _⟩
      have points := congrArg Name.points (List.mem_singleton.mp same)
      revert points
      decide
    have distinct := faithful.distinct apart
    rw [read] at distinct
    revert distinct
    decide
  · rintro ⟨-, refused⟩
    have malformed : ¬WellFormed cutStream := by
      rintro ⟨items, same, -⟩
      have last : cutStream.getLast? = some 0x62 := by decide
      rw [same] at last
      cases records : (items.flatMap Item.records).reverse with
      | nil =>
          rw [List.reverse_eq_nil_iff] at records
          rw [records] at last
          cases last
      | cons record rest =>
          rw [List.reverse_eq_cons_iff] at records
          rw [records, ended, List.flatMap_append, List.flatMap_singleton, ← List.append_assoc,
            List.getLast?_concat] at last
          cases last
    have accepted : parseStatusPorcelainV2 (fun _ => []) cutStream ≠ none := by decide +kernel
    exact accepted (refused malformed)

end Losses

end Kratos.Git
