/- source: domain/git/status.ts
   digest: The inputs the status reader accepts are those that resemble a stream. -/

import Kratos.Git.Listing

set_option autoImplicit false

namespace Kratos.Git

open Foundation.Text Foundation.Utf8 Foundation.Splitting

section Records

variable {record rest before bytes : Bytes} {records : List Bytes}

theorem ended_cons : ended (record :: records) = record ++ 0 :: ended records := by
  simp [ended]

theorem splitFrom_record (unended : 0 ∉ record) :
    splitFrom before (record ++ 0 :: rest) = (before ++ record) :: splitFrom [] rest := by
  induction record generalizing before with
  | nil => rw [List.nil_append, splitFrom, if_pos rfl, List.append_nil]
  | cons byte record ih =>
      rw [List.mem_cons, not_or] at unended
      rw [List.cons_append, splitFrom, if_neg (Ne.symm unended.1), ih unended.2, List.append_assoc,
        List.singleton_append]

theorem splitRecords_ended (unended : ∀ record ∈ records, 0 ∉ record) :
    splitRecords (ended records) = records := by
  unfold splitRecords
  induction records with
  | nil => rfl
  | cons record records ih =>
      obtain ⟨first, others⟩ := List.forall_mem_cons.mp unended
      rw [ended_cons, splitFrom_record first, ih others, List.nil_append]

theorem ended_splitFrom : ended (splitFrom before (bytes ++ [0])) = before ++ bytes ++ [0] := by
  induction bytes generalizing before with
  | nil => simp [splitFrom, ended]
  | cons byte bytes ih =>
      rw [List.cons_append, splitFrom]
      split_ifs with terminator
      · rw [ended_cons, ih, terminator, List.nil_append, List.append_assoc, List.cons_append]
      · rw [ih, List.append_assoc before, List.singleton_append]

theorem unended_splitFrom (clear : 0 ∉ before) : ∀ record ∈ splitFrom before bytes, 0 ∉ record := by
  induction bytes generalizing before with
  | nil =>
      unfold splitFrom
      split_ifs
      · exact fun record member => absurd member List.not_mem_nil
      · exact List.forall_mem_singleton.mpr clear
  | cons byte bytes ih =>
      rw [splitFrom]
      split_ifs with terminator
      · exact List.forall_mem_cons.mpr ⟨clear, ih List.not_mem_nil⟩
      · refine ih ?_
        rw [List.mem_append, List.mem_singleton, not_or]
        exact ⟨clear, Ne.symm terminator⟩

/-- One more terminator ends the last record, or it follows the end of one. -/
theorem splitFrom_terminated :
    splitFrom before (bytes ++ [0]) = splitFrom before bytes ∨
      splitFrom before (bytes ++ [0]) = splitFrom before bytes ++ [[]] := by
  induction bytes generalizing before with
  | nil =>
      by_cases fresh : before = []
      · subst fresh
        exact .inr rfl
      · exact .inl (by simp [splitFrom, fresh])
  | cons byte bytes ih =>
      rw [List.cons_append, splitFrom, splitFrom]
      split_ifs with terminator
      · rw [List.cons_append, List.cons_inj_right, List.cons_inj_right]
        exact ih
      · exact ih

variable (sha256Bytes : Bytes → JsString)

theorem readRecords_blank (fields : HeaderFields) (changes : List GitChange) (records : List Bytes) :
    readRecords sha256Bytes fields changes (records ++ [[]]) =
      readRecords sha256Bytes fields changes records := by
  fun_induction readRecords sha256Bytes fields changes records <;>
    simp_all [readRecords, readRecord]

theorem parse_terminated (input : Bytes) :
    parseStatusPorcelainV2 sha256Bytes (input ++ [0]) = parseStatusPorcelainV2 sha256Bytes input := by
  have same : ∀ fields changes, readRecords sha256Bytes fields changes (splitRecords (input ++ [0])) =
      readRecords sha256Bytes fields changes (splitRecords input) := by
    intro fields changes
    unfold splitRecords
    rcases @splitFrom_terminated [] input with same | same
    · rw [same]
    · rw [same, readRecords_blank]
  unfold parseStatusPorcelainV2
  rw [same]

end Records

section Words

/-- A text begins with a letter and a blank where the letter is the first of its words. -/
theorem take_two_iff {c : CodeUnit} (solid : c ≠ unit ' ') (text : JsString) :
    text.take 2 = [c, unit ' '] ↔
      2 ≤ (spaceParts text).length ∧ (spaceParts text).head? = some [c] := by
  have apart : unit ' ' ∉ [c] := by
    rw [List.mem_singleton]
    exact Ne.symm solid
  unfold spaceParts
  constructor
  · intro begins
    have text_eq : text = [c] ++ unit ' ' :: text.drop 2 := by
      rw [← List.take_append_drop 2 text, begins]
      rfl
    rw [text_eq, List.splitOn_append_cons_self, List.splitOn_eq_singleton apart,
      List.singleton_append, List.length_cons, List.head?_cons]
    have some := List.length_pos_iff.mpr (List.splitOn_ne_nil (unit ' ') (text.drop 2))
    exact ⟨by omega, rfl⟩
  · rintro ⟨more, first⟩
    obtain ⟨later, split⟩ := List.head?_eq_some_iff.mp first
    have filled : later ≠ [] := by
      rintro rfl
      rw [split] at more
      simp at more
    obtain ⟨rest, rfl, -⟩ := (splitOn_cons_iff filled).mp split
    rfl

theorem second_word {words : List JsString} (more : 2 ≤ words.length) :
    words[1]? = some (words.getD 1 []) := by
  rw [List.getD_eq_getElem?_getD, List.getElem?_eq_getElem more, Option.getD_some]

theorem filled_of_words {record : Bytes} (more : 2 ≤ (wordsOf record).length) : record ≠ [] := by
  rintro rfl
  have single : (wordsOf []).length = 1 := by decide
  omega

/-- A record whose first word is a letter is no blank and begins with the letter. -/
theorem type_of_words {c : CodeUnit} (solid : c ≠ unit ' ') {record : Bytes}
    (more : 2 ≤ (wordsOf record).length) (first : (wordsOf record).head? = some [c]) :
    record ≠ [] ∧ (decode record).take 2 = [c, unit ' '] :=
  ⟨filled_of_words more, (take_two_iff solid _).mpr ⟨more, first⟩⟩

theorem startsWith_take {s pre : JsString} : startsWith s pre = decide (s.take pre.length = pre) := by
  rw [Bool.eq_iff_iff, decide_eq_true_eq, startsWith, List.isPrefixOf_iff_prefix,
    List.prefix_iff_eq_take]
  exact eq_comm

end Words

section Reading

variable {sha256Bytes : Bytes → JsString} {record : Bytes}

theorem readRecord_header (more : 2 ≤ (wordsOf record).length)
    (first : (wordsOf record).head? = some (js "#")) :
    readRecord sha256Bytes record = some (.header (decode record)) := by
  obtain ⟨filled, type⟩ := type_of_words (by decide : unit '#' ≠ unit ' ') more first
  have mark : startsWith (decode record) (js "# ") = true := by
    rw [startsWith_take, decide_eq_true_eq]
    exact type
  simp only [readRecord, if_neg filled, mark, if_true]

theorem readRecord_type {c : CodeUnit} (solid : c ≠ unit ' ') (other : c ≠ unit '#')
    (more : 2 ≤ (wordsOf record).length) (first : (wordsOf record).head? = some [c]) :
    readRecord sha256Bytes record =
      if [c, unit ' '] = js "? " ∨ [c, unit ' '] = js "! " then
        some (.change (untrackedChange (decodeGitPath sha256Bytes (record.drop 2))
          (if [c, unit ' '] = js "? " then .untracked else .ignored) ((decode record).drop 2)))
      else if [c, unit ' '] = js "1 " then
        (readTracked sha256Bytes record (decode record) 8).map .change
      else if [c, unit ' '] = js "2 " then
        (readTracked sha256Bytes record (decode record) 9).map .renaming
      else if [c, unit ' '] = js "u " then
        (readUnmerged sha256Bytes record (decode record)).map .change
      else none := by
  obtain ⟨filled, type⟩ := type_of_words solid more first
  have mark : startsWith (decode record) (js "# ") = false := by
    rw [startsWith_take, decide_eq_false_iff_not]
    intro same
    have letters : [c, unit ' '] = js "# " := type.symm.trans same
    exact other (List.cons.inj letters).1
  simp only [readRecord, if_neg filled, mark, Bool.false_eq_true, if_false, type]

theorem readRecord_untracked (more : 2 ≤ (wordsOf record).length)
    (first : (wordsOf record).head? = some (js "?")) :
    readRecord sha256Bytes record =
      some (.change (untrackedChange (decodeGitPath sha256Bytes (record.drop 2)) .untracked
        ((decode record).drop 2))) := by
  rw [readRecord_type (c := unit '?') (by decide) (by decide) more first, if_pos (by decide),
    if_pos (by decide)]

theorem readRecord_ignored (more : 2 ≤ (wordsOf record).length)
    (first : (wordsOf record).head? = some (js "!")) :
    readRecord sha256Bytes record =
      some (.change (untrackedChange (decodeGitPath sha256Bytes (record.drop 2)) .ignored
        ((decode record).drop 2))) := by
  rw [readRecord_type (c := unit '!') (by decide) (by decide) more first, if_pos (by decide),
    if_neg (by decide)]

theorem readRecord_ordinary (more : 2 ≤ (wordsOf record).length)
    (first : (wordsOf record).head? = some (js "1")) :
    readRecord sha256Bytes record =
      (readTracked sha256Bytes record (decode record) 8).map .change := by
  rw [readRecord_type (c := unit '1') (by decide) (by decide) more first, if_neg (by decide),
    if_pos (by decide)]

theorem readRecord_renamed (more : 2 ≤ (wordsOf record).length)
    (first : (wordsOf record).head? = some (js "2")) :
    readRecord sha256Bytes record =
      (readTracked sha256Bytes record (decode record) 9).map .renaming := by
  rw [readRecord_type (c := unit '2') (by decide) (by decide) more first, if_neg (by decide),
    if_neg (by decide), if_pos (by decide)]

theorem readRecord_unmerged (more : 2 ≤ (wordsOf record).length)
    (first : (wordsOf record).head? = some (js "u")) :
    readRecord sha256Bytes record =
      (readUnmerged sha256Bytes record (decode record)).map .change := by
  rw [readRecord_type (c := unit 'u') (by decide) (by decide) more first, if_neg (by decide),
    if_neg (by decide), if_neg (by decide), if_pos (by decide)]

/-- A tracked record is read where it has words enough and its letters are known. -/
theorem readTracked_iff (sha256Bytes : Bytes → JsString) (record : Bytes) {text : JsString}
    {leading : Nat} (some : 1 ≤ leading) :
    (∃ change, readTracked sha256Bytes record text leading = Option.some change) ↔
      leading < (spaceParts text).length ∧
        ∃ index worktree later, (spaceParts text)[1]? = Option.some (index :: worktree :: later) ∧
          kindOf index ≠ none ∧ kindOf worktree ≠ none := by
  unfold readTracked
  by_cases short : (spaceParts text).length < leading + 1
  · simp [short]
    omega
  have status : (spaceParts text)[1]? = Option.some ((spaceParts text).getD 1 []) :=
    second_word (by omega)
  have long : leading < (spaceParts text).length := by omega
  simp only [if_neg short, status, long, true_and]
  rcases (spaceParts text).getD 1 [] with _ | ⟨index, _ | ⟨worktree, later⟩⟩
  · simp
  · cases kindOf index <;> simp
  · cases first : kindOf index <;> cases second : kindOf worktree <;> simp [first, second]

theorem readUnmerged_iff (sha256Bytes : Bytes → JsString) (record : Bytes) {text : JsString} :
    (∃ change, readUnmerged sha256Bytes record text = some change) ↔
      10 < (spaceParts text).length := by
  unfold readUnmerged
  by_cases short : (spaceParts text).length < 11
  · simp [short]
    omega
  · simp [short]
    omega

theorem readRecord_cases {reading : Reading} (read : readRecord sha256Bytes record = some reading) :
    (record = [] ∧ reading = .blank) ∨
    (2 ≤ (wordsOf record).length ∧ (wordsOf record).head? = some (js "#") ∧
      reading = .header (decode record)) ∨
    (∃ change, reading = .change change ∧ (LooksLoose (wordsOf record) ∨
      LooksTracked (js "1") 8 (wordsOf record) ∨ LooksUnmerged (wordsOf record))) ∨
    ∃ change, reading = .renaming change ∧ LooksTracked (js "2") 9 (wordsOf record) := by
  simp only [readRecord] at read
  split_ifs at read with blank mark loose untracked ordinary renamed unmerged
  · exact .inl ⟨blank, (Option.some.inj read).symm⟩
  · refine .inr (.inl ?_)
    rw [startsWith_take, decide_eq_true_eq] at mark
    obtain ⟨more, first⟩ := (take_two_iff (by decide : unit '#' ≠ unit ' ') _).mp mark
    exact ⟨more, first, (Option.some.inj read).symm⟩
  · obtain ⟨more, first⟩ := (take_two_iff (by decide : unit '?' ≠ unit ' ') _).mp untracked
    exact .inr (.inr (.inl ⟨_, (Option.some.inj read).symm, .inl ⟨more, .inl first⟩⟩))
  · have ignored := loose.resolve_left untracked
    obtain ⟨more, first⟩ := (take_two_iff (by decide : unit '!' ≠ unit ' ') _).mp ignored
    exact .inr (.inr (.inl ⟨_, (Option.some.inj read).symm, .inl ⟨more, .inr first⟩⟩))
  · obtain ⟨change, tracked, rfl⟩ := Option.map_eq_some_iff.mp read
    obtain ⟨long, status⟩ := (readTracked_iff _ _ (by omega)).mp ⟨change, tracked⟩
    obtain ⟨more, first⟩ := (take_two_iff (by decide : unit '1' ≠ unit ' ') _).mp ordinary
    exact .inr (.inr (.inl ⟨change, rfl, .inr (.inl ⟨long, first, status⟩)⟩))
  · obtain ⟨change, tracked, rfl⟩ := Option.map_eq_some_iff.mp read
    obtain ⟨long, status⟩ := (readTracked_iff _ _ (by omega)).mp ⟨change, tracked⟩
    obtain ⟨more, first⟩ := (take_two_iff (by decide : unit '2' ≠ unit ' ') _).mp renamed
    exact .inr (.inr (.inr ⟨change, rfl, long, first, status⟩))
  · obtain ⟨change, tracked, rfl⟩ := Option.map_eq_some_iff.mp read
    have long := (readUnmerged_iff _ _).mp ⟨change, tracked⟩
    obtain ⟨more, first⟩ := (take_two_iff (by decide : unit 'u' ≠ unit ' ') _).mp unmerged
    exact .inr (.inr (.inl ⟨change, rfl, .inr (.inr ⟨long, first⟩)⟩))

theorem LooksLoose.read (loose : LooksLoose (wordsOf record)) :
    ∃ change, readRecord sha256Bytes record = some (.change change) := by
  obtain ⟨more, untracked | ignored⟩ := loose
  · exact ⟨_, readRecord_untracked more untracked⟩
  · exact ⟨_, readRecord_ignored more ignored⟩

theorem LooksTracked.read (ordinary : LooksTracked (js "1") 8 (wordsOf record)) :
    ∃ change, readRecord sha256Bytes record = some (.change change) := by
  obtain ⟨long, first, status⟩ := ordinary
  obtain ⟨change, tracked⟩ := (readTracked_iff sha256Bytes record (by omega)).mpr
    ⟨long, status⟩
  exact ⟨change, by rw [readRecord_ordinary (by omega) first, tracked]; rfl⟩

theorem LooksTracked.moved (renamed : LooksTracked (js "2") 9 (wordsOf record)) :
    ∃ change, readRecord sha256Bytes record = some (.renaming change) := by
  obtain ⟨long, first, status⟩ := renamed
  obtain ⟨change, tracked⟩ := (readTracked_iff sha256Bytes record (by omega)).mpr
    ⟨long, status⟩
  exact ⟨change, by rw [readRecord_renamed (by omega) first, tracked]; rfl⟩

theorem LooksUnmerged.read (unmerged : LooksUnmerged (wordsOf record)) :
    ∃ change, readRecord sha256Bytes record = some (.change change) := by
  obtain ⟨long, first⟩ := unmerged
  obtain ⟨change, tracked⟩ := (readUnmerged_iff sha256Bytes record).mpr long
  exact ⟨change, by rw [readRecord_unmerged (by omega) first, tracked]; rfl⟩

end Reading

section Headers

variable {text : JsString} {fields after : HeaderFields} {headers : List JsString}

theorem spaceParts_later {words : List JsString} (split : spaceParts text = words) (count : Nat) :
    words.drop count = [] ∨ spaceParts (spaceJoined (words.drop count)) = words.drop count := by
  by_cases none : words.drop count = []
  · exact .inl none
  · refine .inr (List.splitOn_intercalate (unit ' ') (fun word member => ?_) none)
    exact not_mem_of_mem_splitOn (by rw [← spaceParts, split]; exact List.mem_of_mem_drop member)

theorem readHeader_iff (more : 2 ≤ (spaceParts text).length)
    (first : (spaceParts text).head? = some (js "#")) :
    (∃ after, readHeader text fields = some after) ↔ IsHeader (spaceParts text) := by
  have key := second_word more
  unfold readHeader IsHeader
  simp only [more, first, key, true_and, Option.some.injEq]
  by_cases counts : (spaceParts text).getD 1 [] = js "branch.ab"
  · rw [counts, if_neg (by decide), if_neg (by decide), if_neg (by decide), if_pos rfl]
    simp only [true_implies]
    rcases spaceParts_later rfl 2 with none | again
    · rw [none]
      constructor
      · rintro ⟨after, read⟩
        cases read
      · rintro ⟨ahead, behind, later, split, -⟩
        cases split
    · rw [again]
      rcases (spaceParts text).drop 2 with _ | ⟨ahead, _ | ⟨behind, later⟩⟩
      · simp
      · simp
      · by_cases signed : startsWith ahead (js "+") = true ∧ startsWith behind (js "-") = true
        · obtain ⟨⟨plus, rfl⟩, minus, rfl⟩ := And.imp (startsWith_iff _ _).mp (startsWith_iff _ _).mp signed
          have ahead_eq : (js "+" ++ plus).drop 1 = plus := rfl
          have behind_eq : (js "-" ++ minus).drop 1 = minus := rfl
          simp only [startsWith_append, Bool.not_true, Bool.or_self, Bool.false_eq_true, if_false,
            ahead_eq, behind_eq]
          constructor
          · intro read
            refine ⟨plus, minus, later, rfl, ?_, ?_⟩
            · intro none
              simp [none] at read
            · intro none
              simp [none] at read
          · rintro ⟨ahead, behind, rest, split, front, back⟩
            obtain ⟨plus_eq, minus_eq, -⟩ := List.cons_eq_cons.mp split |>.imp id List.cons_eq_cons.mp
            obtain rfl := List.append_cancel_left plus_eq
            obtain rfl := List.append_cancel_left minus_eq
            obtain ⟨first, read⟩ := Option.ne_none_iff_exists'.mp front
            obtain ⟨second, again⟩ := Option.ne_none_iff_exists'.mp back
            exact ⟨_, by rw [read, again]⟩
        · have refused : (!startsWith ahead (js "+") || !startsWith behind (js "-")) = true := by
            simpa [Bool.or_eq_true, ← Bool.not_eq_true, imp_iff_not_or] using signed
          simp only [refused, if_true]
          constructor
          · rintro ⟨after, read⟩
            cases read
          · rintro ⟨plus, minus, rest, split, -⟩
            obtain ⟨rfl, rfl, -⟩ := List.cons_eq_cons.mp split |>.imp id List.cons_eq_cons.mp
            exact absurd ⟨startsWith_append _ _, startsWith_append _ _⟩ signed
  · simp only [counts, if_false, false_implies, iff_true]
    split_ifs
    all_goals exact ⟨_, rfl⟩

theorem readHeader_fields (read : readHeader text fields = some after) :
    after.oid = (if (spaceParts text).getD 1 [] = js "branch.oid"
      then some (spaceJoined ((spaceParts text).drop 2)) else fields.oid) ∧
    after.head = (if (spaceParts text).getD 1 [] = js "branch.head"
      then some (spaceJoined ((spaceParts text).drop 2)) else fields.head) := by
  simp only [readHeader] at read
  generalize key_eq : (spaceParts text).getD 1 [] = key at read ⊢
  generalize spaceJoined ((spaceParts text).drop 2) = value at read ⊢
  by_cases oid : key = js "branch.oid"
  · subst oid
    rw [if_pos rfl] at read
    obtain rfl := Option.some.inj read
    exact ⟨by rw [if_pos rfl], by rw [if_neg (by decide)]⟩
  by_cases head : key = js "branch.head"
  · subst head
    rw [if_neg oid, if_pos rfl] at read
    obtain rfl := Option.some.inj read
    exact ⟨by rw [if_neg oid], by rw [if_pos rfl]⟩
  rw [if_neg oid, if_neg head] at read ⊢
  split_ifs at read with upstream counts
  · obtain rfl := Option.some.inj read
    exact ⟨rfl, rfl⟩
  · split at read
    · split_ifs at read
      split at read
      · obtain rfl := Option.some.inj read
        exact ⟨rfl, rfl⟩
      · cases read
    · cases read
  · obtain rfl := Option.some.inj read
    exact ⟨rfl, rfl⟩

theorem lastValue_cons (key : JsString) (headers : List JsString) :
    lastValue key (text :: headers) = (lastValue key headers).or
      (if (spaceParts text)[1]? = some key
        then some (spaceJoined ((spaceParts text).drop 2)) else none) := by
  unfold lastValue
  rw [List.reverse_cons, List.find?_append, Option.map_or]
  congr 1
  rw [List.find?_singleton]
  split_ifs with named <;> simp_all

def readHeaders (fields : HeaderFields) (headers : List JsString) : Option HeaderFields :=
  headers.foldlM (fun fields text => readHeader text fields) fields

/-- The last header that names a commit or a branch is the one that counts. -/
theorem readHeaders_fields (marked : ∀ text ∈ headers, 2 ≤ (spaceParts text).length)
    (read : readHeaders fields headers = some after) :
    after.oid = (lastValue (js "branch.oid") headers).or fields.oid ∧
      after.head = (lastValue (js "branch.head") headers).or fields.head := by
  unfold readHeaders at read
  induction headers generalizing fields with
  | nil =>
      obtain rfl := Option.some.inj read
      exact ⟨rfl, rfl⟩
  | cons text headers ih =>
      obtain ⟨more, others⟩ := List.forall_mem_cons.mp marked
      rw [List.foldlM_cons, Option.bind_eq_bind, Option.bind_eq_some_iff] at read
      obtain ⟨next, first, later⟩ := read
      obtain ⟨oid, head⟩ := ih others later
      obtain ⟨first_oid, first_head⟩ := readHeader_fields first
      rw [oid, head, lastValue_cons, lastValue_cons, Option.or_assoc, Option.or_assoc, first_oid,
        first_head, second_word more]
      simp only [Option.some.injEq]
      constructor
      · split_ifs <;> simp
      · split_ifs <;> simp

theorem buildHead_iff :
    (∃ head, buildHead fields = some head) ↔
      ∃ oid head, fields.oid = some oid ∧ fields.head = some head ∧
        ¬(oid = js "(initial)" ∧ head = js "(detached)") := by
  unfold buildHead
  cases fields.oid with
  | none => simp
  | some oid =>
      cases fields.head with
      | none => simp
      | some head =>
          simp only [Option.some.injEq, exists_eq_left', exists_and_left]
          split_ifs <;> simp_all

end Headers

section Streams

variable {sha256Bytes : Bytes → JsString} {records : List Bytes} {headers : List JsString}

theorem Resembles.marked (shape : Resembles records headers) :
    ∀ text ∈ headers, 2 ≤ (spaceParts text).length := by
  induction shape with
  | nil => exact fun text member => absurd member List.not_mem_nil
  | blank later ih => exact ih
  | header shape later ih => exact List.forall_mem_cons.mpr ⟨shape.1, ih⟩
  | change shape later ih => exact ih
  | moved shape filled later ih => exact ih

theorem Resembles.read (shape : Resembles records headers) (fields : HeaderFields)
    (changes : List GitChange) :
    ∃ last all, readHeaders fields headers = some last ∧
      readRecords sha256Bytes fields changes records = some (last, all) := by
  induction shape generalizing fields changes with
  | nil => exact ⟨fields, changes, rfl, rfl⟩
  | blank later ih =>
      obtain ⟨last, all, header, read⟩ := ih fields changes
      exact ⟨last, all, header, by simpa [readRecords, readRecord] using read⟩
  | header shape later ih =>
      obtain ⟨next, first⟩ : ∃ next, readHeader (decode _) fields = some next :=
        (readHeader_iff shape.1 shape.2.1).mpr shape
      obtain ⟨last, all, header, read⟩ := ih next changes
      refine ⟨last, all, ?_, ?_⟩
      · rw [readHeaders, List.foldlM_cons, first]
        exact header
      · rw [readRecords, readRecord_header shape.1 shape.2.1]
        simp only [first]
        exact read
  | @change record records headers shape later ih =>
      obtain ⟨change, first⟩ : ∃ change,
          readRecord sha256Bytes record = some (.change change) := by
        rcases shape with loose | ordinary | unmerged
        · exact loose.read
        · exact ordinary.read
        · exact unmerged.read
      obtain ⟨last, all, header, read⟩ := ih fields (changes ++ [change])
      exact ⟨last, all, header, by simpa only [readRecords, first] using read⟩
  | @moved record origin records headers shape filled later ih =>
      obtain ⟨change, first⟩ : ∃ change,
          readRecord sha256Bytes record = some (.renaming change) := shape.moved
      obtain ⟨last, all, header, read⟩ := ih fields (changes ++
        [{ change with renamedFrom := some (decodeGitPath sha256Bytes origin) }])
      exact ⟨last, all, header, by simpa only [readRecords, first, if_neg filled] using read⟩

theorem resembles_of_read {fields last : HeaderFields} {changes all : List GitChange}
    (read : readRecords sha256Bytes fields changes records = some (last, all)) :
    ∃ headers, Resembles records headers ∧ readHeaders fields headers = some last := by
  fun_induction readRecords sha256Bytes fields changes records with
  | case1 fields changes =>
      cases read
      exact ⟨[], .nil, rfl⟩
  | case2 => cases read
  | case3 fields changes record records blank ih =>
      obtain ⟨headers, shape, header⟩ := ih read
      obtain rfl : record = [] := by simpa using readRecord_cases blank
      exact ⟨headers, .blank shape, header⟩
  | case4 => cases read
  | case5 fields changes record records text marked next first ih =>
      obtain ⟨headers, shape, header⟩ := ih read
      obtain ⟨more, mark, rfl⟩ : 2 ≤ (wordsOf record).length ∧
          (wordsOf record).head? = some (js "#") ∧ text = decode record := by
        simpa using readRecord_cases marked
      have own := (readHeader_iff more mark).mp ⟨next, first⟩
      refine ⟨decode record :: headers, .header own shape, ?_⟩
      rw [readHeaders, List.foldlM_cons, first]
      exact header
  | case6 fields changes record records change changed ih =>
      obtain ⟨headers, shape, header⟩ := ih read
      exact ⟨headers, .change (by simpa using readRecord_cases changed) shape, header⟩
  | case7 => cases read
  | case8 => cases read
  | case9 fields changes record change renamed origin records filled ih =>
      obtain ⟨headers, shape, header⟩ := ih read
      exact ⟨headers, .moved (by simpa using readRecord_cases renamed) filled shape, header⟩

theorem namesHead_iff {fields : HeaderFields}
    (marked : ∀ text ∈ headers, 2 ≤ (spaceParts text).length)
    (read : readHeaders ⟨none, none, none, none, none⟩ headers = some fields) :
    (∃ head, buildHead fields = some head) ↔ NamesHead headers := by
  obtain ⟨oid, head⟩ := readHeaders_fields marked read
  rw [buildHead_iff, oid, head, Option.or_none, Option.or_none]
  rfl

theorem parse_iff (input : Bytes) :
    (∃ status, parseStatusPorcelainV2 sha256Bytes input = some status) ↔ ResemblesStream input := by
  rw [← parse_terminated]
  constructor
  · rintro ⟨status, parsed⟩
    unfold parseStatusPorcelainV2 at parsed
    rw [Option.bind_eq_bind, Option.bind_eq_some_iff] at parsed
    obtain ⟨⟨fields, changes⟩, read, parsed⟩ := parsed
    obtain ⟨head, built, -⟩ := Option.bind_eq_some_iff.mp parsed
    obtain ⟨headers, shape, header⟩ := resembles_of_read read
    have whole : ended (splitRecords (input ++ [0])) = input ++ [0] := ended_splitFrom
    exact ⟨_, headers, whole.symm, unended_splitFrom List.not_mem_nil, shape,
      (namesHead_iff shape.marked header).mp ⟨head, built⟩⟩
  · rintro ⟨records, headers, same, unended, shape, named⟩
    obtain ⟨fields, changes, header, read⟩ := @Resembles.read sha256Bytes _ _ shape
      ⟨none, none, none, none, none⟩ []
    obtain ⟨head, built⟩ := (namesHead_iff shape.marked header).mpr named
    refine ⟨⟨head, changes.insertionSort ByPath⟩, ?_⟩
    rw [same, parseStatusPorcelainV2, splitRecords_ended unended, read]
    simp only [Option.bind_eq_bind, Option.bind_some, built]
    rfl

end Streams

end Kratos.Git
