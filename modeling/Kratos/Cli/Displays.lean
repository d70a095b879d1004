/- source: domain/cli/shell-argument.ts
   digest: Which argv can be displayed, and when the apply instructions are publishable and exact. -/

import Kratos.Cli.ApplyInstructions
import Kratos.Schema.CanonicalJson
import Mathlib.Algebra.Order.BigOperators.Group.List
import Mathlib.Algebra.Order.Group.Nat

set_option autoImplicit false

namespace Kratos.Cli

open Foundation.Text Foundation.JsonText Foundation.ShellWords Foundation.Splitting
open Schema

/-- A point every display shows as it is: no control, no quote mark of JSON or a shell, no
backslash, and no half of a surrogate pair. -/
def shownPoint (point : Nat) : Bool :=
  !controlPoint point && point != 0x22 && point != 0x27 && point != 0x5C &&
    !(0xD800 ≤ point && point ≤ 0xDFFF)

/-- What it takes of an argv for all of its displays to be published. -/
structure Displayable (argv : List JsString) : Prop where
  shown : ∀ value ∈ argv, ∀ point ∈ codePoints value, shownPoint point = true
  short : 29 + (argv.map fun value => codePointLength value + 3).sum ≤ 4096
  harmless : ∀ line ∈ instructionLines argv, ∀ pattern ∈ wordPatterns, pattern.test line = false

section Quoting

def jsonPoint (point : Nat) : Prop :=
  0x20 ≤ point ∧ point ≠ 0x22 ∧ point ≠ 0x5C ∧ ¬(0xD800 ≤ point ∧ point ≤ 0xDFFF)

theorem unicodeEscape_backslash (u : CodeUnit) : unit '\\' ∈ unicodeEscape u := by
  rw [unicodeEscape]
  exact List.mem_append_left _ (by decide)

theorem surrogate_iff (u : CodeUnit) :
    isSurrogate u = true ↔ 0xD800 ≤ u.toNat ∧ u.toNat ≤ 0xDFFF := by
  simp only [isSurrogate, isHighSurrogate, isLowSurrogate, Bool.or_eq_true, Bool.and_eq_true,
    decide_eq_true_eq]
  omega

theorem quoteLone_shown {u : CodeUnit} (shown : jsonPoint u.toNat) : quoteLone u = [u] := by
  obtain ⟨printable, quote, slash, paired⟩ := shown
  have single : ¬isSurrogate u = true := (surrogate_iff u).not.mpr paired
  have unescaped : (letterEscapes.find? fun entry => entry.2 == u) = none := by
    rw [List.find?_eq_none]
    intro entry listed same
    rw [beq_iff_eq] at same
    have codes : (letterEscapes.all fun entry => decide (entry.2.toNat < 0x20 ∨
        entry.2.toNat = 0x22 ∨ entry.2.toNat = 0x5C)) = true := by decide
    have code := of_decide_eq_true (List.all_eq_true.mp codes entry listed)
    rw [same] at code
    omega
  rw [quoteLone, if_neg single, quoteUnit, unescaped]
  simp only [if_neg (Nat.not_lt.mpr printable)]

theorem quoteLone_escaped {u : CodeUnit} (hidden : ¬jsonPoint u.toNat) :
    unit '\\' ∈ quoteLone u := by
  unfold quoteLone quoteUnit
  by_cases paired : isSurrogate u = true
  · rw [if_pos paired]
    exact unicodeEscape_backslash u
  rw [if_neg paired]
  cases escape : letterEscapes.find? fun entry => entry.2 == u with
  | some entry => exact List.mem_cons_self
  | none =>
      by_cases control : u.toNat < 0x20
      · simp only [if_pos control]
        exact unicodeEscape_backslash u
      · refine absurd ⟨Nat.not_lt.mp control, ?_, ?_, (surrogate_iff u).not.mp paired⟩ hidden
        · intro same
          have quote : u = 0x22 := UInt16.toNat_inj.mp same
          rw [quote] at escape
          exact absurd escape (by decide)
        · intro same
          have slash : u = 0x5C := UInt16.toNat_inj.mp same
          rw [slash] at escape
          exact absurd escape (by decide)

theorem quoteLone_straight (u : CodeUnit) : unit '\\' ∉ quoteLone u ↔ jsonPoint u.toNat := by
  constructor
  · exact fun straight => of_not_not fun hidden => straight (quoteLone_escaped hidden)
  · intro shown
    rw [quoteLone_shown shown, List.mem_singleton]
    rintro rfl
    exact shown.2.2.1 rfl

theorem pair_shown {u v : CodeUnit} (paired : (isHighSurrogate u && isLowSurrogate v) = true) :
    jsonPoint (0x10000 + (u.toNat - 0xD800) * 0x400 + (v.toNat - 0xDC00)) ∧
      unit '\\' ≠ u ∧ unit '\\' ≠ v := by
  simp only [isHighSurrogate, isLowSurrogate, Bool.and_eq_true, decide_eq_true_eq] at paired
  refine ⟨⟨by omega, by omega, by omega, by omega⟩, ?_, ?_⟩
  · rintro rfl
    exact absurd paired.1.1 (by decide)
  · rintro rfl
    exact absurd paired.2.1 (by decide)

theorem quoteUnits_straight (text : JsString) :
    unit '\\' ∉ quoteUnits text ↔ ∀ point ∈ codePoints text, jsonPoint point := by
  induction text using quoteUnits.induct with
  | case1 => simp [quoteUnits, codePoints]
  | case2 u =>
      rw [quoteUnits, codePoints, List.forall_mem_singleton]
      exact quoteLone_straight u
  | case3 u v rest paired hyp =>
      obtain ⟨shown, first, second⟩ := pair_shown paired
      rw [quoteUnits, if_pos paired, codePoints, if_pos paired, List.forall_mem_cons, ← hyp]
      simp [shown, first, second]
  | case4 u v rest single hyp =>
      rw [quoteUnits, if_neg single, codePoints, if_neg single, List.forall_mem_cons, ← hyp,
        List.mem_append, not_or, quoteLone_straight]

theorem quoteUnits_shown {text : JsString} (shown : ∀ point ∈ codePoints text, jsonPoint point) :
    quoteUnits text = text := by
  induction text using quoteUnits.induct with
  | case1 => rfl
  | case2 u => exact quoteLone_shown (shown u.toNat (by simp [codePoints]))
  | case3 u v rest paired hyp =>
      rw [codePoints, if_pos paired, List.forall_mem_cons] at shown
      rw [quoteUnits, if_pos paired, hyp shown.2]
  | case4 u v rest single hyp =>
      rw [codePoints, if_neg single, List.forall_mem_cons] at shown
      rw [quoteUnits, if_neg single, quoteLone_shown shown.1, hyp shown.2]
      rfl

end Quoting

section Units

theorem hasControlCharacter_iff (text : JsString) :
    hasControlCharacter text = false ↔ ∀ u ∈ text, controlPoint u.toNat = false := by
  have small : ∀ {point}, controlPoint point = true → point ≤ 159 := by
    intro point control
    simp only [controlPoint, Bool.or_eq_true, Bool.and_eq_true, decide_eq_true_eq, beq_iff_eq]
      at control
    omega
  constructor
  · intro quiet u member
    by_contra control
    rw [Bool.not_eq_false] at control
    have point := (mem_codePoints (by have := small control; omega) text).mpr member
    rw [hasControlCharacter, List.any_eq_false] at quiet
    exact quiet _ point control
  · intro quiet
    rw [hasControlCharacter, List.any_eq_false]
    intro point member control
    have bound := small control
    have same : (UInt16.ofNat point).toNat = point := by
      rw [UInt16.toNat_ofNat']
      omega
    rw [← same] at member control
    have inside := (mem_codePoints (by omega) text).mp member
    rw [quiet _ inside] at control
    cases control

/-- A unit that any published line may hold. -/
def Clean (u : CodeUnit) : Prop := u ≠ unit '\\' ∧ controlPoint u.toNat = false

instance (u : CodeUnit) : Decidable (Clean u) := inferInstanceAs (Decidable (_ ∧ _))

theorem clean_not_feed {text : JsString} (clean : ∀ u ∈ text, Clean u) : unit '\n' ∉ text := by
  intro member
  exact absurd (clean _ member).2 (by decide)

/-- A line of clean units is published exactly when it is short and matches no word pattern. -/
theorem publishable_clean {line : JsString} (some : line ≠ []) (clean : ∀ u ∈ line, Clean u) :
    isPublishable line = true ↔ codePointLength line ≤ 4096 ∧
      ∀ pattern ∈ wordPatterns, pattern.test line = false := by
  rw [publishable_line some (clean_not_feed clean)]
  constructor
  · exact fun safe => ⟨safe.short, safe.harmless⟩
  · rintro ⟨short, harmless⟩
    refine ⟨short, (hasControlCharacter_iff line).mpr fun u member => (clean u member).2, ?_,
      harmless⟩
    exact fun member => (clean _ member).1 rfl

end Units

section Lengths

/-- A text whose points are read apart from whatever follows it. -/
def Closed (word : JsString) : Prop :=
  ∀ rest, codePoints (word ++ rest) = codePoints word ++ codePoints rest

theorem closed_plain {word : JsString} (plain : ∀ u ∈ word, isHighSurrogate u = false) :
    Closed word := by
  intro rest
  induction word with
  | nil => rfl
  | cons u word hyp =>
      have first := plain u List.mem_cons_self
      rw [List.cons_append, codePoints_cons first, codePoints_cons first,
        hyp fun other member => plain other (List.mem_cons_of_mem _ member), List.cons_append]

theorem codePointLength_append {word : JsString} (closed : Closed word) (rest : JsString) :
    codePointLength (word ++ rest) = codePointLength word + codePointLength rest := by
  rw [codePointLength, closed rest, List.length_append, codePointLength, codePointLength]

def delimited (mark : CodeUnit) (value : JsString) : JsString := mark :: value ++ [mark]

variable {mark : CodeUnit}

theorem delimited_points (high : isHighSurrogate mark = false) (low : isLowSurrogate mark = false)
    (value rest : JsString) :
    codePoints (delimited mark value ++ rest) =
      mark.toNat :: codePoints value ++ mark.toNat :: codePoints rest := by
  have regrouped : delimited mark value ++ rest = (mark :: value) ++ mark :: rest := by
    simp [delimited]
  rw [regrouped, codePoints_append low, codePoints_cons high, codePoints_cons high]

theorem delimited_closed (high : isHighSurrogate mark = false)
    (low : isLowSurrogate mark = false) (value : JsString) : Closed (delimited mark value) := by
  intro rest
  have alone := delimited_points high low value []
  rw [List.append_nil] at alone
  rw [delimited_points high low, alone]
  simp [codePoints]

theorem delimited_length (high : isHighSurrogate mark = false)
    (low : isLowSurrogate mark = false) (value : JsString) :
    codePointLength (delimited mark value) = codePointLength value + 2 := by
  have alone := delimited_points high low value []
  rw [List.append_nil] at alone
  rw [codePointLength, alone]
  simp [codePoints, codePointLength]

theorem codePointLength_intercalate {sep : CodeUnit} (high : isHighSurrogate sep = false)
    {words : List JsString} (some : words ≠ []) (closed : ∀ word ∈ words, Closed word) :
    codePointLength ([sep].intercalate words) + 1 =
      (words.map fun word => codePointLength word + 1).sum := by
  have separator : ∀ rest, codePointLength (sep :: rest) = codePointLength rest + 1 := by
    intro rest
    rw [codePointLength, codePoints_cons high, List.length_cons, codePointLength]
  induction words with
  | nil => exact absurd rfl some
  | cons word words hyp =>
      have here := closed word List.mem_cons_self
      cases words with
      | nil => simp [List.intercalate_singleton]
      | cons next words =>
          have later := hyp (List.cons_ne_nil _ _) fun other member =>
            closed other (List.mem_cons_of_mem _ member)
          rw [List.intercalate_cons_cons, List.append_assoc, codePointLength_append here,
            List.singleton_append, separator, List.map_cons, List.sum_cons, ← later]
          omega

end Lengths

section Displays

theorem joinEntries_intercalate (entries : List JsString) :
    joinEntries [] entries = [unit ','].intercalate entries := by
  induction entries using joinEntries.induct with
  | case1 => rfl
  | case2 entry => rw [joinEntries, List.intercalate_singleton]
  | case3 entry next rest hyp =>
      rw [joinEntries, List.intercalate_cons_cons, ← hyp, List.append_assoc,
        List.singleton_append]

theorem argvText_eq (argv : List JsString) :
    argvText argv = unit '[' :: ([unit ','].intercalate (argv.map quote) ++ [unit ']']) := by
  have items : ∀ depth, stringifyItems compact depth (argv.map Json.string) = argv.map quote := by
    intro depth
    induction argv with
    | nil => rfl
    | cons value argv hyp =>
        rw [List.map_cons, stringifyItems, hyp, List.map_cons, stringify]
  rw [argvText, stringify, items, enclose, ← joinEntries_intercalate]
  cases argv with
  | nil => rfl
  | cons value argv => simp [compact]

/-- Every display shows the values of the argv as they are. -/
def Shown (argv : List JsString) : Prop :=
  ∀ value ∈ argv, ∀ point ∈ codePoints value, shownPoint point = true

theorem shownPoint_json {point : Nat} (shown : shownPoint point = true) : jsonPoint point := by
  simp only [shownPoint, controlPoint, Bool.and_eq_true, Bool.not_eq_true', Bool.or_eq_false_iff,
    decide_eq_false_iff_not, bne_iff_ne, Bool.and_eq_false_iff] at shown
  refine ⟨?_, ?_, ?_, ?_⟩ <;> omega

variable {value : JsString}

theorem shown_unit (shown : ∀ point ∈ codePoints value, shownPoint point = true) {u : CodeUnit}
    (member : u ∈ value) : Clean u ∧ u ≠ unit '\'' := by
  by_cases small : u.toNat < 0xD800
  · have point := shown _ ((mem_codePoints small value).mpr member)
    simp only [shownPoint, Bool.and_eq_true, Bool.not_eq_true', bne_iff_ne] at point
    refine ⟨⟨?_, point.1.1.1.1⟩, ?_⟩
    · rintro rfl
      exact point.1.2 rfl
    · rintro rfl
      exact point.1.1.2 rfl
  · refine ⟨⟨?_, ?_⟩, ?_⟩
    · rintro rfl
      exact small (by decide)
    · simp only [controlPoint, Bool.or_eq_false_iff, decide_eq_false_iff_not, beq_eq_false_iff_ne,
        Bool.and_eq_false_iff]
      omega
    · rintro rfl
      exact small (by decide)

theorem flatMap_shown (shown : ∀ point ∈ codePoints value, shownPoint point = true)
    (escape : JsString) :
    (value.flatMap fun u => if u = unit '\'' then escape else [u]) = value := by
  have kept : ∀ u ∈ value, (if u = unit '\'' then escape else [u]) = [u] :=
    fun u member => if_neg (shown_unit shown member).2
  rw [List.flatMap_congr kept]
  exact List.flatMap_singleton' value

theorem quote_shown (shown : ∀ point ∈ codePoints value, shownPoint point = true) :
    quote value = delimited (unit '"') value := by
  rw [quote, quoteUnits_shown fun point member => shownPoint_json (shown point member)]
  rfl

theorem powershellQuote_shown (shown : ∀ point ∈ codePoints value, shownPoint point = true) :
    powershellQuote value = delimited (unit '\'') value := by
  rw [powershellQuote, powershellEscape, flatMap_shown shown]
  rfl

theorem shellArgument_shown (shown : ∀ point ∈ codePoints value, shownPoint point = true) :
    shellArgument value = value ∧ value.all safeUnit = true ∨
      shellArgument value = delimited (unit '\'') value := by
  unfold shellArgument
  by_cases safe : (!value.isEmpty && value.all safeUnit) = true
  · rw [if_pos safe]
    rw [Bool.and_eq_true] at safe
    exact .inl ⟨rfl, safe.2⟩
  · rw [if_neg safe, posixEscape, flatMap_shown shown]
    exact .inr rfl

theorem safeUnit_small {u : CodeUnit} (safe : safeUnit u = true) : isHighSurrogate u = false := by
  have bound : u.toNat < 0x80 := by
    rw [safeUnit, Bool.or_eq_true] at safe
    rcases safe with alnum | mark
    · simp only [isAlnum, isLowerAlpha, isUpperAlpha, isDigit, between, Bool.or_eq_true,
        Bool.and_eq_true, decide_eq_true_eq] at alnum
      have letters : 'z'.toNat < 0x80 ∧ 'Z'.toNat < 0x80 ∧ '9'.toNat < 0x80 := by decide
      omega
    · have marks : ∀ w ∈ js "_./:@=-", w.toNat < 0x80 := by decide
      exact marks u (List.contains_iff_mem.mp mark)
  rw [isHighSurrogate, Bool.and_eq_false_iff, decide_eq_false_iff_not]
  exact .inl (by omega)

/-- What a shown value takes in a display: itself, between two marks or bare. -/
theorem shellArgument_measured (shown : ∀ point ∈ codePoints value, shownPoint point = true) :
    Closed (shellArgument value) ∧ codePointLength (shellArgument value) ≤ codePointLength value + 2 := by
  rcases shellArgument_shown shown with ⟨bare, safe⟩ | marked
  · rw [bare]
    refine ⟨closed_plain fun u member => ?_, Nat.le_add_right _ _⟩
    exact safeUnit_small (List.all_eq_true.mp safe u member)
  · rw [marked, delimited_length (by decide) (by decide)]
    exact ⟨delimited_closed (by decide) (by decide) value, Nat.le_refl _⟩

theorem mem_delimited {mark u : CodeUnit} (member : u ∈ delimited mark value) :
    u = mark ∨ u ∈ value := by
  simp only [delimited, List.cons_append, List.mem_cons, List.mem_append, List.not_mem_nil,
    or_false] at member
  tauto

variable {argv : List JsString}

theorem delimited_clean (shown : ∀ point ∈ codePoints value, shownPoint point = true)
    {mark : CodeUnit} (clean : Clean mark) : ∀ u ∈ delimited mark value, Clean u := by
  intro u member
  rcases mem_delimited member with rfl | inside
  · exact clean
  · exact (shown_unit shown inside).1

theorem joined_clean {spell : JsString → JsString} {sep : CodeUnit} (clean : Clean sep)
    (spelled : ∀ value ∈ argv, ∀ u ∈ spell value, Clean u) :
    ∀ u ∈ [sep].intercalate (argv.map spell), Clean u := by
  intro u member
  rcases mem_intercalate member with rfl | ⟨word, listed, inside⟩
  · exact clean
  · obtain ⟨value, source, rfl⟩ := List.mem_map.mp listed
    exact spelled value source u inside

theorem append_clean {front back : JsString} (first : ∀ u ∈ front, Clean u)
    (second : ∀ u ∈ back, Clean u) : ∀ u ∈ front ++ back, Clean u := by
  intro u member
  exact (List.mem_append.mp member).elim (first u) (second u)

theorem instructionLines_clean (shown : Shown argv) :
    ∀ line ∈ instructionLines argv, line ≠ [] ∧ ∀ u ∈ line, Clean u := by
  have posix : ∀ u ∈ renderPosixCommand argv, Clean u := by
    refine joined_clean (by decide) fun value source u member => ?_
    rcases shellArgument_shown (shown value source) with ⟨bare, -⟩ | marked
    · rw [bare] at member
      exact (shown_unit (shown value source) member).1
    · rw [marked] at member
      exact delimited_clean (shown value source) (by decide) u member
  have powershell : ∀ u ∈ renderPowerShellCommand argv, Clean u := by
    refine append_clean (by decide) (joined_clean (by decide) fun value source => ?_)
    rw [powershellQuote_shown (shown value source)]
    exact delimited_clean (shown value source) (by decide)
  have json : ∀ u ∈ argvText argv, Clean u := by
    rw [argvText_eq, ← List.singleton_append]
    refine append_clean (by decide) (append_clean (joined_clean (by decide) fun value source => ?_)
      (by decide))
    rw [quote_shown (shown value source)]
    exact delimited_clean (shown value source) (by decide)
  intro line listed
  simp only [instructionLines, List.mem_cons, List.not_mem_nil, or_false] at listed
  rcases listed with rfl | rfl | rfl | rfl
  · exact ⟨by simp [js, unitsOfChar], append_clean (by decide) json⟩
  · exact ⟨by simp [js, unitsOfChar], append_clean (by decide) posix⟩
  · exact ⟨by simp [js, unitsOfChar], append_clean (by decide) powershell⟩
  · exact ⟨by simp [js, unitsOfChar], append_clean (by decide) posix⟩

/-- The points the values of an argv take with two marks and a separator each. -/
def markedLength (argv : List JsString) : Nat :=
  (argv.map fun value => codePointLength value + 3).sum

theorem joined_length {spell : JsString → JsString} {sep : CodeUnit}
    (high : isHighSurrogate sep = false)
    (measured : ∀ value ∈ argv, Closed (spell value) ∧
      codePointLength (spell value) ≤ codePointLength value + 2) :
    codePointLength ([sep].intercalate (argv.map spell)) ≤ markedLength argv := by
  by_cases empty : argv = []
  · subst empty
    exact Nat.zero_le _
  have total := @codePointLength_intercalate sep high (argv.map spell) (by simpa using empty)
    (by
      intro word listed
      obtain ⟨value, source, rfl⟩ := List.mem_map.mp listed
      exact (measured value source).1)
  have bounded : ((argv.map spell).map fun word => codePointLength word + 1).sum ≤
      markedLength argv := by
    rw [List.map_map, markedLength]
    refine List.sum_le_sum fun value source => ?_
    have bound := (measured value source).2
    simp only [Function.comp_apply]
    omega
  omega

theorem marked_exact {mark sep : CodeUnit} (high : isHighSurrogate sep = false)
    (markHigh : isHighSurrogate mark = false) (markLow : isLowSurrogate mark = false)
    (some : argv ≠ []) :
    codePointLength ([sep].intercalate (argv.map (delimited mark))) + 1 = markedLength argv := by
  have total := @codePointLength_intercalate sep high (argv.map (delimited mark))
    (by simpa using some)
    (by
      intro word listed
      obtain ⟨value, -, rfl⟩ := List.mem_map.mp listed
      exact delimited_closed markHigh markLow value)
  rw [total, List.map_map, markedLength]
  congr 1
  refine List.map_congr_left fun value _ => ?_
  simp only [Function.comp_apply]
  rw [delimited_length markHigh markLow]

theorem labelled_length {label : JsString} (plain : ∀ u ∈ label, isHighSurrogate u = false)
    (text : JsString) :
    codePointLength (label ++ text) = codePointLength label + codePointLength text :=
  codePointLength_append (closed_plain plain) text

theorem map_congr_shown {spell other : JsString → JsString} (shown : Shown argv)
    (same : ∀ {value}, (∀ point ∈ codePoints value, shownPoint point = true) →
      spell value = other value) : argv.map spell = argv.map other :=
  List.map_congr_left fun value member => same (shown value member)

/-- The PowerShell line is the longest: it tells whether an argv is short enough to show. -/
theorem powershell_length (shown : Shown argv) :
    codePointLength (js "Apply command (PowerShell): " ++ renderPowerShellCommand argv) ≤ 4096 ↔
      29 + markedLength argv ≤ 4096 := by
  have label : codePointLength (js "Apply command (PowerShell): ") = 28 := by decide +kernel
  have operator : codePointLength (js "& ") = 2 := by decide +kernel
  rw [labelled_length (by decide), renderPowerShellCommand, labelled_length (by decide), label,
    operator, map_congr_shown shown powershellQuote_shown]
  by_cases empty : argv = []
  · subst empty
    decide
  · have exact' := @marked_exact argv (unit '\'') (unit ' ') (by decide) (by decide) (by decide)
      empty
    omega

theorem other_lengths (shown : Shown argv) (short : 29 + markedLength argv ≤ 4096) :
    ∀ line ∈ instructionLines argv, codePointLength line ≤ 4096 := by
  have posix : codePointLength (renderPosixCommand argv) ≤ markedLength argv :=
    joined_length (by decide) fun value source => shellArgument_measured (shown value source)
  have json : codePointLength (argvText argv) ≤ markedLength argv + 2 := by
    have inner : codePointLength ([unit ','].intercalate (argv.map quote)) ≤ markedLength argv := by
      refine joined_length (by decide) fun value source => ?_
      rw [quote_shown (shown value source), delimited_length (by decide) (by decide)]
      exact ⟨delimited_closed (by decide) (by decide) value, Nat.le_refl _⟩
    rw [argvText_eq, codePointLength, codePoints_cons (by decide), codePoints_append (by decide),
      List.length_cons, List.length_append]
    exact Nat.succ_le_succ (Nat.succ_le_succ inner)
  intro line listed
  simp only [instructionLines, List.mem_cons, List.not_mem_nil, or_false] at listed
  have argvLabel : codePointLength (js "Apply argv: ") = 12 := by decide +kernel
  have posixLabel : codePointLength (js "Apply command (POSIX): ") = 23 := by decide +kernel
  have plainLabel : codePointLength (js "Apply command: ") = 15 := by decide +kernel
  rcases listed with rfl | rfl | rfl | rfl
  · rw [labelled_length (by decide), argvLabel]
    omega
  · rw [labelled_length (by decide), posixLabel]
    omega
  · exact (powershell_length shown).mpr short
  · rw [labelled_length (by decide), plainLabel]
    omega

theorem argvText_printable (argv : List JsString) : Printable (argvText argv) := by
  rw [argvText_eq]
  refine .cons (by decide) (Printable.append ?_ (by decide))
  intro u member
  rcases mem_intercalate member with rfl | ⟨word, listed, inside⟩
  · decide
  · obtain ⟨value, -, rfl⟩ := List.mem_map.mp listed
    exact quote_printable value u inside

theorem printable_single {line : JsString} (printable : Printable line) : unit '\n' ∉ line :=
  printable.not_mem (by decide)

/-- A published JSON line shows every value as it stands, and without controls. -/
theorem json_published
    (published : isPublishable (js "Apply argv: " ++ argvText argv) = true) :
    ∀ value ∈ argv, ∀ point ∈ codePoints value,
      jsonPoint point ∧ controlPoint point = false := by
  intro value source
  have printable : Printable (js "Apply argv: " ++ argvText argv) :=
    Printable.append (by decide) (argvText_printable argv)
  have safe := (publishable_line (by simp [js, unitsOfChar]) (printable_single printable)).mp
    published
  have inside : ∀ {u}, u ∈ quote value → u ∈ js "Apply argv: " ++ argvText argv := by
    intro u member
    rw [argvText_eq]
    refine List.mem_append_right _ (List.mem_cons_of_mem _ (List.mem_append_left _ ?_))
    exact mem_intercalate_of_mem (List.mem_map_of_mem source) member
  have quoted : ∀ {u}, u ∈ quoteUnits value → u ∈ quote value := by
    intro u member
    exact List.mem_cons_of_mem _ (List.mem_append_left _ member)
  have straight := (quoteUnits_straight value).mp fun member => safe.straight (inside (quoted member))
  have quiet : hasControlCharacter value = false := by
    rw [hasControlCharacter_iff]
    intro u member
    refine (hasControlCharacter_iff _).mp safe.quiet u (inside (quoted ?_))
    rwa [quoteUnits_shown straight]
  rw [hasControlCharacter, List.any_eq_false] at quiet
  exact fun point member => ⟨straight point member, by simpa using quiet point member⟩

theorem posixEscape_printable (printable : Printable value) : Printable (posixEscape value) := by
  intro u member
  obtain ⟨v, source, escaped⟩ := List.mem_flatMap.mp member
  split_ifs at escaped
  · have marks : Printable (js "'\\''") := by decide
    exact marks u escaped
  · rw [List.mem_singleton.mp escaped]
    exact printable v source

theorem shellArgument_printable (printable : Printable value) :
    Printable (shellArgument value) := by
  unfold shellArgument
  split_ifs
  · exact printable
  · exact (Printable.cons (by decide) (posixEscape_printable printable)).append (by decide)

theorem shellArgument_apostrophe (member : unit '\'' ∈ value) :
    unit '\\' ∈ shellArgument value := by
  have refused : ¬(!value.isEmpty && value.all safeUnit) = true := by
    rw [Bool.and_eq_true, List.all_eq_true]
    exact fun safe => absurd (safe.2 _ member) (by decide)
  rw [shellArgument, if_neg refused, List.cons_append]
  refine List.mem_cons_of_mem _ (List.mem_append_left _ ?_)
  exact List.mem_flatMap.mpr ⟨_, member, by decide⟩

theorem posix_published (printable : ∀ value ∈ argv, Printable value)
    (published : isPublishable (js "Apply command (POSIX): " ++ renderPosixCommand argv) = true) :
    ∀ value ∈ argv, unit '\'' ∉ value := by
  intro value source apostrophe
  have line : Printable (js "Apply command (POSIX): " ++ renderPosixCommand argv) := by
    refine Printable.append (by decide) fun u member => ?_
    rcases mem_intercalate member with rfl | ⟨word, listed, inside⟩
    · decide
    · obtain ⟨other, held, rfl⟩ := List.mem_map.mp listed
      exact shellArgument_printable (printable other held) u inside
  have safe := (publishable_line (by simp [js, unitsOfChar]) (printable_single line)).mp published
  refine safe.straight (List.mem_append_right _ ?_)
  exact mem_intercalate_of_mem (List.mem_map_of_mem source) (shellArgument_apostrophe apostrophe)

/-- The lines of an argv are published only if its values are shown as they are. -/
theorem shown_of_published (published : ∀ line ∈ instructionLines argv, isPublishable line = true) :
    Shown argv := by
  have first : isPublishable (js "Apply argv: " ++ argvText argv) = true :=
    published _ (by simp [instructionLines])
  have second : isPublishable (js "Apply command (POSIX): " ++ renderPosixCommand argv) = true :=
    published _ (by simp [instructionLines])
  have json := json_published first
  have printable : ∀ value ∈ argv, Printable value := by
    intro value source u member
    by_cases small : u.toNat < 0xD800
    · exact (json value source _ ((mem_codePoints small value).mpr member)).1.1
    · omega
  have posix := posix_published printable second
  intro value source point member
  obtain ⟨⟨least, quote, slash, paired⟩, quiet⟩ := json value source point member
  have apostrophe : point ≠ 0x27 := by
    rintro rfl
    exact posix value source
      ((@mem_codePoints (unit '\'') (by decide) value).mp (by simpa [unit] using member))
  simp only [shownPoint, quiet, Bool.not_false, Bool.true_and, Bool.and_eq_true, bne_iff_ne,
    Bool.not_eq_true', Bool.and_eq_false_iff, decide_eq_false_iff_not]
  omega

/-- The instructions for an argv are all published exactly when it can be displayed. -/
theorem instructions_published (argv : List JsString) :
    (∀ line ∈ instructionLines argv, isPublishable line = true) ↔ Displayable argv := by
  constructor
  · intro published
    have shown := shown_of_published published
    have clean := instructionLines_clean shown
    refine ⟨shown, ?_, fun line listed => ?_⟩
    · have long : js "Apply command (PowerShell): " ++ renderPowerShellCommand argv ∈
          instructionLines argv := by simp [instructionLines]
      exact (powershell_length shown).mp
        ((publishable_clean (clean _ long).1 (clean _ long).2).mp (published _ long)).1
    · exact ((publishable_clean (clean line listed).1 (clean line listed).2).mp
        (published line listed)).2
  · rintro ⟨shown, short, harmless⟩ line listed
    obtain ⟨some, clean⟩ := instructionLines_clean shown line listed
    exact (publishable_clean some clean).mpr
      ⟨other_lengths shown short line listed, harmless line listed⟩

end Displays

end Kratos.Cli
