/- source: none(shell languages)
   digest: How POSIX shells and PowerShell cut literal command text into words. -/

import Kratos.Foundation.Text

set_option autoImplicit false

namespace Kratos.Foundation.ShellWords

open Foundation.Text

/-- What may follow a complete word: nothing, or a blank before the next one. -/
def Separated (tail : JsString) : Prop := ∀ u ∈ tail.head?, u = unit ' '

theorem separated_nil : Separated [] := by simp [Separated]

theorem separated_blank (rest : JsString) : Separated (unit ' ' :: rest) := by simp [Separated]

section Posix

/-- Where a POSIX shell stands: outside quotes with the word begun so far, after a backslash
there, or inside single quotes. -/
inductive Lexing
  | outside (word : Option JsString)
  | escaping (word : Option JsString)
  | quoted (word : JsString)

/-- The words of POSIX command text written in plain units, single quotes and backslashes;
text that relies on any other rule of the shell has none. -/
def posixWords (plain : CodeUnit → Bool) : Lexing → JsString → Option (List JsString)
  | .outside word, [] => some word.toList
  | .escaping _, [] => none
  | .quoted _, [] => none
  | .quoted word, u :: rest =>
      if u = unit '\'' then posixWords plain (.outside (some word)) rest
      else posixWords plain (.quoted (word ++ [u])) rest
  | .escaping word, u :: rest =>
      -- A backslash before a line feed joins two lines and leaves nothing.
      if u = unit '\n' then posixWords plain (.outside word) rest
      else posixWords plain (.outside (some (word.getD [] ++ [u]))) rest
  | .outside word, u :: rest =>
      if u = unit ' ' then (posixWords plain (.outside none) rest).map (word.toList ++ ·)
      else if u = unit '\'' then posixWords plain (.quoted (word.getD [])) rest
      else if u = unit '\\' then posixWords plain (.escaping word) rest
      else if plain u then posixWords plain (.outside (some (word.getD [] ++ [u]))) rest
      else none

variable {plain : CodeUnit → Bool}

/-- No unit the shell gives a meaning is among the plain ones. -/
def Literal (plain : CodeUnit → Bool) : Prop :=
  plain (unit ' ') = false ∧ plain (unit '\'') = false ∧ plain (unit '\\') = false

theorem posix_plain (literal : Literal plain) {run : JsString} (all : run.all plain = true)
    (word tail : JsString) :
    posixWords plain (.outside (some word)) (run ++ tail) =
      posixWords plain (.outside (some (word ++ run))) tail := by
  obtain ⟨blank, quote, slash⟩ := literal
  induction run generalizing word with
  | nil => simp
  | cons u run hyp =>
      rw [List.all_cons, Bool.and_eq_true] at all
      have notBlank : u ≠ unit ' ' := fun same => by simp [same, blank] at all
      have notQuote : u ≠ unit '\'' := fun same => by simp [same, quote] at all
      have notSlash : u ≠ unit '\\' := fun same => by simp [same, slash] at all
      rw [List.cons_append, posixWords, if_neg notBlank, if_neg notQuote, if_neg notSlash,
        if_pos all.1, Option.getD_some, hyp all.2, List.append_assoc, List.singleton_append]

theorem posix_word (literal : Literal plain) {word : JsString} (some : word ≠ [])
    (all : word.all plain = true) (tail : JsString) :
    posixWords plain (.outside none) (word ++ tail) =
      posixWords plain (.outside (.some word)) tail := by
  obtain ⟨u, run, rfl⟩ := List.exists_cons_of_ne_nil some
  rw [List.all_cons, Bool.and_eq_true] at all
  obtain ⟨blank, quote, slash⟩ := literal
  have notBlank : u ≠ unit ' ' := fun same => by simp [same, blank] at all
  have notQuote : u ≠ unit '\'' := fun same => by simp [same, quote] at all
  have notSlash : u ≠ unit '\\' := fun same => by simp [same, slash] at all
  rw [List.cons_append, posixWords, if_neg notBlank, if_neg notQuote, if_neg notSlash,
    if_pos all.1, Option.getD_none, List.nil_append, posix_plain ⟨blank, quote, slash⟩ all.2]
  rfl

/-- Inside quotes a single quote is written by closing, escaping it, and opening again. -/
def posixEscape (value : JsString) : JsString :=
  value.flatMap fun u => if u = unit '\'' then js "'\\''" else [u]

theorem posix_escaped (value word tail : JsString) :
    posixWords plain (.quoted word) (posixEscape value ++ unit '\'' :: tail) =
      posixWords plain (.outside (some (word ++ value))) tail := by
  induction value generalizing word with
  | nil =>
      change posixWords plain (.quoted word) (unit '\'' :: tail) = _
      rw [posixWords, if_pos rfl, List.append_nil]
  | cons u value hyp =>
      by_cases quote : u = unit '\''
      · have spelled : posixEscape (u :: value) ++ unit '\'' :: tail =
            unit '\'' :: unit '\\' :: unit '\'' :: unit '\'' ::
              (posixEscape value ++ unit '\'' :: tail) := by
          simp [posixEscape, quote, js, unitsOfChar, unit]
        rw [spelled, posixWords, if_pos rfl, posixWords, if_neg (by decide), if_neg (by decide),
          if_pos rfl, posixWords, if_neg (by decide), Option.getD_some, posixWords,
          if_neg (by decide), if_pos rfl, Option.getD_some, hyp, quote, List.append_assoc,
          List.singleton_append]
      · have spelled : posixEscape (u :: value) ++ unit '\'' :: tail =
            u :: (posixEscape value ++ unit '\'' :: tail) := by
          simp [posixEscape, quote]
        rw [spelled, posixWords, if_neg quote, hyp, List.append_assoc, List.singleton_append]

theorem posix_quoted (value tail : JsString) :
    posixWords plain (.outside none)
        (unit '\'' :: posixEscape value ++ unit '\'' :: tail) =
      posixWords plain (.outside (some value)) tail := by
  rw [List.cons_append, posixWords, if_neg (by decide), if_pos rfl, posix_escaped]
  simp

/-- Words spelled one by one and joined by blanks are read back as they are. -/
theorem posix_joined {spell : JsString → JsString}
    (spelled : ∀ value tail, Separated tail →
      posixWords plain (.outside none) (spell value ++ tail) =
        posixWords plain (.outside (some value)) tail)
    (words : List JsString) :
    posixWords plain (.outside none) ([unit ' '].intercalate (words.map spell)) = some words := by
  induction words with
  | nil => rfl
  | cons word words hyp =>
      cases words with
      | nil =>
          have read := spelled word [] separated_nil
          rw [List.append_nil] at read
          rw [List.map_singleton, List.intercalate_singleton, read]
          rfl
      | cons second words =>
          rw [List.map_cons, List.map_cons, List.intercalate_cons_cons, List.append_assoc,
            List.singleton_append, spelled word _ (separated_blank _), posixWords, if_pos rfl,
            ← List.map_cons, hyp]
          rfl

end Posix

section PowerShell

/-- The units PowerShell closes a single-quoted literal at: the apostrophe and its
typographic forms. -/
def typographic (u : CodeUnit) : Bool := 0x2018 ≤ u.toNat && u.toNat ≤ 0x201B

def isSingleQuote (u : CodeUnit) : Bool := u == unit '\'' || typographic u

/-- The literals of PowerShell argument text; of two quotes in a row inside a literal the
second is kept, and text outside literals has no reading. -/
def powershellLiterals : Option JsString → JsString → Option (List JsString)
  | none, [] => some []
  | none, u :: rest =>
      if u = unit ' ' then powershellLiterals none rest
      else if isSingleQuote u then powershellLiterals (some []) rest
      else none
  | some _, [] => none
  | some word, [u] => if isSingleQuote u then some [word] else none
  | some word, u :: v :: rest =>
      if isSingleQuote u then
        if isSingleQuote v then powershellLiterals (some (word ++ [v])) rest
        else (powershellLiterals none (v :: rest)).map (word :: ·)
      else powershellLiterals (some (word ++ [u])) (v :: rest)

/-- Inside a literal an apostrophe is written twice. -/
def powershellEscape (value : JsString) : JsString :=
  value.flatMap fun u => if u = unit '\'' then js "''" else [u]

theorem powershell_step {u : CodeUnit} (plain : isSingleQuote u = false) (word rest : JsString) :
    powershellLiterals (some word) (u :: rest) =
      powershellLiterals (some (word ++ [u])) rest := by
  cases rest with
  | nil => simp [powershellLiterals, plain]
  | cons v rest => rw [powershellLiterals, if_neg (by simp [plain])]

theorem powershell_pair {u v : CodeUnit} (first : isSingleQuote u = true)
    (second : isSingleQuote v = true) (word rest : JsString) :
    powershellLiterals (some word) (u :: v :: rest) =
      powershellLiterals (some (word ++ [v])) rest := by
  rw [powershellLiterals, if_pos first, if_pos second]

theorem powershell_close {u : CodeUnit} (quote : isSingleQuote u = true) (word : JsString)
    {rest : JsString} (apart : ∀ v ∈ rest.head?, isSingleQuote v = false) :
    powershellLiterals (some word) (u :: rest) =
      (powershellLiterals none rest).map (word :: ·) := by
  cases rest with
  | nil => simp [powershellLiterals, quote]
  | cons v rest =>
      have open' : isSingleQuote v = false := apart v (by simp)
      rw [powershellLiterals.eq_5, if_pos quote, if_neg (by simp [open'])]

theorem apostrophe_quotes : isSingleQuote (unit '\'') = true := by decide

theorem separated_apart {tail : JsString} (separated : Separated tail) :
    ∀ v ∈ tail.head?, isSingleQuote v = false := by
  intro v member
  rw [separated v member]
  decide

theorem powershellEscape_quote (value : JsString) :
    powershellEscape (unit '\'' :: value) =
      unit '\'' :: unit '\'' :: powershellEscape value := by
  simp [powershellEscape, js, unitsOfChar, unit]

theorem powershellEscape_other {u : CodeUnit} (other : u ≠ unit '\'') (value : JsString) :
    powershellEscape (u :: value) = u :: powershellEscape value := by
  simp [powershellEscape, other]

theorem powershell_escaped {value : JsString} (plain : value.any typographic = false)
    (word : JsString) {tail : JsString} (separated : Separated tail) :
    powershellLiterals (some word) (powershellEscape value ++ unit '\'' :: tail) =
      (powershellLiterals none tail).map ((word ++ value) :: ·) := by
  induction value generalizing word with
  | nil =>
      change powershellLiterals (some word) (unit '\'' :: tail) = _
      rw [powershell_close apostrophe_quotes word (separated_apart separated), List.append_nil]
  | cons u value hyp =>
      rw [List.any_cons, Bool.or_eq_false_iff] at plain
      by_cases quote : u = unit '\''
      · subst quote
        rw [powershellEscape_quote, List.cons_append, List.cons_append,
          powershell_pair apostrophe_quotes apostrophe_quotes, hyp plain.2, List.append_assoc,
          List.singleton_append]
      · have notQuote : isSingleQuote u = false := by simp [isSingleQuote, quote, plain.1]
        rw [powershellEscape_other quote, List.cons_append, powershell_step notQuote,
          hyp plain.2, List.append_assoc, List.singleton_append]

theorem literal_extends {text word : JsString} {words : List JsString}
    (read : powershellLiterals (some word) text = some words) :
    ∃ more rest, words = (word ++ more) :: rest := by
  induction size : text.length using Nat.strong_induction_on generalizing text word with
  | _ size hyp =>
      match text with
      | [] => simp [powershellLiterals] at read
      | u :: rest =>
          by_cases quote : isSingleQuote u = true
          · match rest with
            | [] =>
                simp only [powershellLiterals, quote, if_pos, Option.some.injEq] at read
                exact ⟨[], [], by rw [← read, List.append_nil]⟩
            | v :: rest =>
                by_cases second : isSingleQuote v = true
                · rw [powershell_pair quote second] at read
                  obtain ⟨more, later, same⟩ := hyp rest.length
                    (by rw [← size, List.length_cons, List.length_cons]; omega) read rfl
                  exact ⟨v :: more, later, by rw [same, List.append_assoc, List.singleton_append]⟩
                · rw [powershell_close quote word (by simpa using second)] at read
                  obtain ⟨later, -, same⟩ := Option.map_eq_some_iff.mp read
                  exact ⟨[], later, by rw [← same, List.append_nil]⟩
          · rw [powershell_step (by simpa using quote)] at read
            obtain ⟨more, later, same⟩ := hyp _ (by simp [← size]) read rfl
            exact ⟨u :: more, later, by rw [same, List.append_assoc, List.singleton_append]⟩

theorem literal_next {word rest expected : JsString} {u t : CodeUnit} {words : List JsString}
    (other : u ≠ t) :
    powershellLiterals (some (word ++ [u])) rest ≠ some ((word ++ t :: expected) :: words) := by
  intro read
  obtain ⟨more, later, same⟩ := literal_extends read
  rw [List.append_assoc, List.cons.injEq, List.append_cancel_left_eq] at same
  exact other (List.cons.inj same.1).1.symm

theorem literal_closed {word expected : JsString} {t : CodeUnit}
    {later : Option (List JsString)} {words : List JsString} :
    later.map (word :: ·) ≠ some ((word ++ t :: expected) :: words) := by
  intro read
  obtain ⟨rest, -, same⟩ := Option.map_eq_some_iff.mp read
  simp at same

theorem typographic_quotes {u : CodeUnit} (quote : typographic u = true) :
    isSingleQuote u = true := by
  rw [isSingleQuote, quote, Bool.or_true]

theorem typographic_of_quote {u : CodeUnit} (quote : isSingleQuote u = true)
    (other : u ≠ unit '\'') : typographic u = true := by
  simpa [isSingleQuote, other] using quote

theorem typographic_ne_apostrophe {u : CodeUnit} (quote : typographic u = true) :
    unit '\'' ≠ u := by
  rintro rfl
  exact absurd quote (by decide)

/-- A literal that still owes typographic quotes it dropped never reads its value back. -/
theorem powershell_behind {value owed : JsString} {t : CodeUnit} (quote : typographic t = true)
    (quotes : owed.all typographic = true) (word : JsString) {tail : JsString}
    (separated : Separated tail) (words : List JsString) :
    powershellLiterals (some word) (powershellEscape value ++ unit '\'' :: tail) ≠
      some ((word ++ t :: (owed ++ value)) :: words) := by
  induction size : value.length using Nat.strong_induction_on
    generalizing value owed t word with
  | _ size hyp =>
      have plainNext := typographic_ne_apostrophe quote
      match value with
      | [] =>
          change powershellLiterals (some word) (unit '\'' :: tail) ≠ _
          rw [powershell_close apostrophe_quotes word (separated_apart separated)]
          exact literal_closed
      | u :: value =>
          by_cases apostrophe : u = unit '\''
          · subst apostrophe
            rw [powershellEscape_quote, List.cons_append, List.cons_append,
              powershell_pair apostrophe_quotes apostrophe_quotes]
            exact literal_next plainNext
          rw [powershellEscape_other apostrophe, List.cons_append]
          by_cases delimiter : isSingleQuote u = true
          · match value with
            | [] =>
                change powershellLiterals (some word) (u :: unit '\'' :: tail) ≠ _
                rw [powershell_pair delimiter apostrophe_quotes]
                exact literal_next plainNext
            | v :: value =>
                by_cases second : v = unit '\''
                · subst second
                  rw [powershellEscape_quote, List.cons_append,
                    powershell_pair delimiter apostrophe_quotes]
                  exact literal_next plainNext
                rw [powershellEscape_other second, List.cons_append]
                by_cases closing : isSingleQuote v = true
                · rw [powershell_pair delimiter closing]
                  by_cases due : v = t
                  · subst due
                    -- One quote is read for the two written, so one more is owed.
                    have first := typographic_of_quote delimiter apostrophe
                    have later : (owed ++ [u, v]).all typographic = true := by
                      simp [quotes, first, quote]
                    obtain ⟨o, more, split⟩ : ∃ o more, owed ++ [u, v] = o :: more :=
                      List.exists_cons_of_ne_nil (by simp)
                    rw [split, List.all_cons, Bool.and_eq_true] at later
                    have behind := hyp value.length
                      (by rw [← size, List.length_cons, List.length_cons]; omega) later.1 later.2
                      (word ++ [v]) rfl
                    have regrouped : word ++ v :: (owed ++ u :: v :: value) =
                        word ++ [v] ++ o :: (more ++ value) := by
                      calc word ++ v :: (owed ++ u :: v :: value)
                          = word ++ [v] ++ ((owed ++ [u, v]) ++ value) := by simp
                        _ = word ++ [v] ++ o :: (more ++ value) := by rw [split, List.cons_append]
                    rw [regrouped]
                    exact behind
                  · exact literal_next due
                · rw [powershell_close delimiter word (by simpa using closing)]
                  exact literal_closed
          · rw [powershell_step (by simpa using delimiter)]
            exact literal_next fun same => delimiter (same ▸ typographic_quotes quote)

theorem powershell_lost {value : JsString} (quoted : value.any typographic = true)
    (word : JsString) {tail : JsString} (separated : Separated tail) (words : List JsString) :
    powershellLiterals (some word) (powershellEscape value ++ unit '\'' :: tail) ≠
      some ((word ++ value) :: words) := by
  induction value generalizing word with
  | nil => simp at quoted
  | cons u value hyp =>
      rw [List.any_cons] at quoted
      by_cases apostrophe : u = unit '\''
      · subst apostrophe
        have later : value.any typographic = true := by simpa [typographic, unit] using quoted
        rw [powershellEscape_quote, List.cons_append, List.cons_append,
          powershell_pair apostrophe_quotes apostrophe_quotes]
        have lost := hyp later (word ++ [unit '\''])
        rwa [List.append_assoc] at lost
      rw [powershellEscape_other apostrophe, List.cons_append]
      by_cases delimiter : isSingleQuote u = true
      · have first := typographic_of_quote delimiter apostrophe
        match value with
        | [] =>
            change powershellLiterals (some word) (u :: unit '\'' :: tail) ≠ _
            rw [powershell_pair delimiter apostrophe_quotes]
            exact literal_next (typographic_ne_apostrophe first)
        | v :: value =>
            by_cases second : v = unit '\''
            · subst second
              rw [powershellEscape_quote, List.cons_append,
                powershell_pair delimiter apostrophe_quotes]
              exact literal_next (typographic_ne_apostrophe first)
            rw [powershellEscape_other second, List.cons_append]
            by_cases closing : isSingleQuote v = true
            · rw [powershell_pair delimiter closing]
              by_cases same : v = u
              · subst same
                have behind := @powershell_behind value [] v first rfl (word ++ [v]) tail separated words
                rw [List.append_assoc] at behind
                exact behind
              · exact literal_next same
            · rw [powershell_close delimiter word (by simpa using closing)]
              exact literal_closed
      · have notQuote : typographic u = false := by
          by_contra bad
          exact delimiter (typographic_quotes (by simpa using bad))
        rw [notQuote, Bool.false_or] at quoted
        rw [powershell_step (by simpa using delimiter)]
        have later := hyp quoted (word ++ [u])
        rwa [List.append_assoc] at later

def powershellQuote (value : JsString) : JsString :=
  unit '\'' :: powershellEscape value ++ [unit '\'']

theorem powershell_open (value tail : JsString) :
    powershellLiterals none (powershellQuote value ++ tail) =
      powershellLiterals (some []) (powershellEscape value ++ unit '\'' :: tail) := by
  have spelled : powershellQuote value ++ tail =
      unit '\'' :: (powershellEscape value ++ unit '\'' :: tail) := by
    simp [powershellQuote]
  rw [spelled, powershellLiterals, if_neg (by decide), if_pos apostrophe_quotes]

/-- Quoted values joined by blanks are read back as they are exactly when none of them holds
a typographic quote. -/
theorem powershell_joined (values : List JsString) :
    powershellLiterals none ([unit ' '].intercalate (values.map powershellQuote)) =
      some values ↔ ∀ value ∈ values, value.any typographic = false := by
  induction values with
  | nil => simp [powershellLiterals]
  | cons value values hyp =>
      obtain ⟨tail, joined, separated, read⟩ : ∃ tail,
          [unit ' '].intercalate ((value :: values).map powershellQuote) =
            powershellQuote value ++ tail ∧ Separated tail ∧
          powershellLiterals none tail =
            powershellLiterals none ([unit ' '].intercalate (values.map powershellQuote)) := by
        cases values with
        | nil => exact ⟨[], by simp, separated_nil, rfl⟩
        | cons second values =>
            refine ⟨_, List.intercalate_cons_cons.trans (List.append_assoc ..),
              separated_blank _, ?_⟩
            rw [List.singleton_append, powershellLiterals, if_pos rfl, List.map_cons]
      rw [joined, powershell_open, List.forall_mem_cons]
      by_cases plain : value.any typographic = false
      · rw [powershell_escaped plain [] separated, read, List.nil_append]
        simp [plain, hyp]
      · have lost := powershell_lost (by simpa using plain) [] separated values
        exact iff_of_false lost fun all => plain all.1

end PowerShell

end Kratos.Foundation.ShellWords
