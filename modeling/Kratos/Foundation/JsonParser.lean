/- source: none(language runtime)
   digest: `JSON.parse` and its round trip with every layout of `JSON.stringify`. -/

import Kratos.Foundation.JsonText

set_option autoImplicit false

namespace Kratos.Foundation.JsonText

open Foundation.Text

def skipSpace (text : JsString) : JsString := text.dropWhile isJsonSpace

def hexValue (u : CodeUnit) : Option Nat :=
  if isDigit u then some (u.toNat - 0x30)
  else if between 'a' 'f' u then some (u.toNat - 0x57)
  else if between 'A' 'F' u then some (u.toNat - 0x37)
  else none

def hexUnit (a b c d : CodeUnit) : Option CodeUnit := do
  let a ← hexValue a
  let b ← hexValue b
  let c ← hexValue c
  let d ← hexValue d
  pure (UInt16.ofNat (a * 4096 + b * 256 + c * 16 + d))

def letterUnit (letter : CodeUnit) : Option CodeUnit :=
  if letter == unit '/' then some letter
  else (letterEscapes.find? fun entry => entry.1 == letter).map Prod.snd

/-- The rest of a quoted string, its quote included. -/
def readString : JsString → Option (JsString × JsString)
  | [] => none
  | u :: rest =>
      if u == unit '"' then some ([], rest)
      else if u == unit '\\' then
        match rest with
        | [] => none
        | letter :: rest =>
            if letter == unit 'u' then
              match rest with
              | a :: b :: c :: d :: rest => do
                  let escaped ← hexUnit a b c d
                  let (value, rest) ← readString rest
                  pure (escaped :: value, rest)
              | _ => none
            else do
              let escaped ← letterUnit letter
              let (value, rest) ← readString rest
              pure (escaped :: value, rest)
      else if u.toNat < 0x20 then none
      else do
        let (value, rest) ← readString rest
        pure (u :: value, rest)

def digitsValue (digits : JsString) : Nat :=
  digits.foldl (fun value u => 10 * value + (u.toNat - 0x30)) 0

/-- A fraction, if there is one: its text and the rest. -/
def readFraction (text : JsString) : Option (JsString × JsString) :=
  match text with
  | [] => some ([], [])
  | u :: rest =>
      if u == unit '.' then
        if (rest.takeWhile isDigit).isEmpty then none
        else some (u :: rest.takeWhile isDigit, rest.dropWhile isDigit)
      else some ([], u :: rest)

def readSign (text : JsString) : JsString × JsString :=
  match text with
  | [] => ([], [])
  | u :: rest => if u == unit '+' || u == unit '-' then ([u], rest) else ([], u :: rest)

/-- An exponent, if there is one: its text and the rest. -/
def readExponent (text : JsString) : Option (JsString × JsString) :=
  match text with
  | [] => some ([], [])
  | u :: rest =>
      if u == unit 'e' || u == unit 'E' then
        if ((readSign rest).2.takeWhile isDigit).isEmpty then none
        else
          some (u :: (readSign rest).1 ++ (readSign rest).2.takeWhile isDigit,
            (readSign rest).2.dropWhile isDigit)
      else some ([], u :: rest)

/-- The sign of a number and what follows it. -/
def readMinus (text : JsString) : Bool × JsString :=
  match text with
  | [] => (false, [])
  | u :: rest => if u == unit '-' then (true, rest) else (false, u :: rest)

/-- `0` or a run of digits that does not begin with it. -/
def validInteger (digits : JsString) : Bool :=
  !digits.isEmpty && (digits.length == 1 || digits.head? != some (unit '0'))

def signed (negative : Bool) (value : Nat) : Int := if negative then -(value : Int) else value

/-- A number. A literal with a fraction or an exponent, or beyond the safe integers, is kept. -/
def readNumber (text : JsString) : Option (Json × JsString) := do
  let (negative, text) := readMinus text
  let digits := text.takeWhile isDigit
  if validInteger digits then
    let (fraction, text) ← readFraction (text.dropWhile isDigit)
    let (exponent, text) ← readExponent text
    let literal := (if negative then js "-" else []) ++ digits ++ fraction ++ exponent
    if fraction.isEmpty && exponent.isEmpty && isSafeInteger (digitsValue digits) then
      pure (.integer (signed negative (digitsValue digits)), text)
    else pure (.double literal, text)
  else none

def readScalar (text : JsString) : Option (Json × JsString) :=
  if startsWith text (js "null") then some (.null, text.drop 4)
  else if startsWith text (js "true") then some (.bool true, text.drop 4)
  else if startsWith text (js "false") then some (.bool false, text.drop 5)
  else readNumber text

/-- `object[key] = value`: a member keeps its place and takes the new value. -/
def setMember (members : List (JsString × Json)) (key : JsString) (value : Json) :
    List (JsString × Json) :=
  if (members.map Prod.fst).contains key then
    members.map fun member => if member.1 == key then (key, value) else member
  else members ++ [(key, value)]

def assignMembers (members : List (JsString × Json)) : List (JsString × Json) :=
  members.foldl (fun object member => setMember object member.1 member.2) []

mutual

def readValue : Nat → JsString → Option (Json × JsString)
  | 0, _ => none
  | fuel + 1, text =>
      match skipSpace text with
      | [] => none
      | u :: rest =>
          if u == unit '"' then do
            let (value, rest) ← readString rest
            pure (.string value, rest)
          else if u == unit '[' then
            match skipSpace rest with
            | [] => none
            | v :: after =>
                if v == unit ']' then some (.array [], after)
                else do
                  let (items, rest) ← readItems fuel rest
                  pure (.array items, rest)
          else if u == unit '{' then
            match skipSpace rest with
            | [] => none
            | v :: after =>
                if v == unit '}' then some (.object [], after)
                else do
                  let (members, rest) ← readMembers fuel rest
                  pure (.object (assignMembers members), rest)
          else readScalar (u :: rest)

/-- The items of an array, its closing bracket included. -/
def readItems : Nat → JsString → Option (List Json × JsString)
  | 0, _ => none
  | fuel + 1, text => do
      let (item, rest) ← readValue fuel text
      match skipSpace rest with
      | [] => none
      | u :: rest =>
          if u == unit ',' then do
            let (items, rest) ← readItems fuel rest
            pure (item :: items, rest)
          else if u == unit ']' then some ([item], rest)
          else none

/-- The members of an object, its closing brace included. -/
def readMembers : Nat → JsString → Option (List (JsString × Json) × JsString)
  | 0, _ => none
  | fuel + 1, text =>
      match skipSpace text with
      | [] => none
      | u :: rest =>
          if u == unit '"' then do
            let (key, rest) ← readString rest
            match skipSpace rest with
            | [] => none
            | v :: rest =>
                if v == unit ':' then do
                  let (value, rest) ← readValue fuel rest
                  match skipSpace rest with
                  | [] => none
                  | w :: rest =>
                      if w == unit ',' then do
                        let (members, rest) ← readMembers fuel rest
                        pure ((key, value) :: members, rest)
                      else if w == unit '}' then some ([(key, value)], rest)
                      else none
                else none
          else none

end

/-- `JSON.parse(text)`; every nested value consumes a unit, so the length is fuel enough. -/
def parse (text : JsString) : Option Json := do
  let (value, rest) ← readValue (text.length + 1) text
  if (skipSpace rest).isEmpty then pure value else none

mutual

/-- The values of the language: an integer is safe, any other number is held as its literal, and
the members of an object are distinct. -/
def WellFormed : Json → Prop
  | .integer value => isSafeInteger value = true
  | .double literal => readNumber literal = some (.double literal, [])
  | .array items => WellFormedItems items
  | .object members => (members.map Prod.fst).Nodup ∧ WellFormedMembers members
  | _ => True

def WellFormedItems : List Json → Prop
  | [] => True
  | item :: rest => WellFormed item ∧ WellFormedItems rest

def WellFormedMembers : List (JsString × Json) → Prop
  | [] => True
  | (_, value) :: rest => WellFormed value ∧ WellFormedMembers rest

end

theorem wellFormedMembers_iff (members : List (JsString × Json)) :
    WellFormedMembers members ↔ ∀ member ∈ members, WellFormed member.2 := by
  induction members with
  | nil => simp [WellFormedMembers]
  | cons member members ih => simp [WellFormedMembers, ih]

def Blank (text : JsString) : Prop := ∀ u ∈ text, isJsonSpace u = true

theorem skipSpace_blank {blank : JsString} (spaces : Blank blank) (text : JsString) :
    skipSpace (blank ++ text) = skipSpace text := by
  induction blank with
  | nil => rfl
  | cons u blank ih =>
      have space : isJsonSpace u = true := spaces u List.mem_cons_self
      rw [List.cons_append, skipSpace, List.dropWhile_cons_of_pos space]
      exact ih fun v member => spaces v (List.mem_cons_of_mem _ member)

theorem skipSpace_cons {u : CodeUnit} (solid : isJsonSpace u = false) (text : JsString) :
    skipSpace (u :: text) = u :: text := by
  rw [skipSpace, List.dropWhile_cons_of_neg (by simp [solid])]

section Strings

theorem hexDigit_mod (n : Nat) : hexDigit (n % 16) = hexDigit n := by
  simp only [hexDigit, Nat.mod_mod]

theorem hexValue_hexDigit (n : Nat) : hexValue (hexDigit n) = some (n % 16) := by
  have small : ∀ d < 16, hexValue (hexDigit d) = some d := by decide
  rw [← hexDigit_mod, small (n % 16) (Nat.mod_lt n (by decide))]

theorem hexUnit_hexDigit (u : CodeUnit) :
    hexUnit (hexDigit (u.toNat / 4096)) (hexDigit (u.toNat / 256)) (hexDigit (u.toNat / 16))
      (hexDigit u.toNat) = some u := by
  have bound : u.toNat < 65536 := u.toNat_lt
  have recomposed : u.toNat / 4096 % 16 * 4096 + u.toNat / 256 % 16 * 256 +
      u.toNat / 16 % 16 * 16 + u.toNat % 16 = u.toNat := by omega
  simp only [hexUnit, hexValue_hexDigit, Option.bind_eq_bind, Option.bind_some, recomposed,
    UInt16.ofNat_toNat]
  rfl

theorem readString_unicodeEscape {u : CodeUnit} {text value rest : JsString}
    (later : readString text = some (value, rest)) :
    readString (unicodeEscape u ++ text) = some (u :: value, rest) := by
  have shape : unicodeEscape u ++ text = unit '\\' :: unit 'u' :: hexDigit (u.toNat / 4096) ::
      hexDigit (u.toNat / 256) :: hexDigit (u.toNat / 16) :: hexDigit u.toNat :: text := rfl
  have opened : (unit '\\' == unit '"') = false := by decide
  rw [shape, readString]
  simp only [opened, Bool.false_eq_true, if_false, beq_self_eq_true, if_true, hexUnit_hexDigit,
    later, Option.bind_eq_bind, Option.bind_some]
  rfl

theorem readString_raw {u : CodeUnit} {text value rest : JsString} (noQuote : u ≠ unit '"')
    (noEscape : u ≠ unit '\\') (printable : ¬ u.toNat < 0x20)
    (later : readString text = some (value, rest)) :
    readString (u :: text) = some (u :: value, rest) := by
  unfold readString
  simp only [beq_eq_false_iff_ne.mpr noQuote, beq_eq_false_iff_ne.mpr noEscape, printable,
    Bool.false_eq_true, if_false, later, Option.bind_eq_bind, Option.bind_some]
  rfl

theorem readString_letter {letter u : CodeUnit} (listed : (letter, u) ∈ letterEscapes)
    {text value rest : JsString} (later : readString text = some (value, rest)) :
    readString (unit '\\' :: letter :: text) = some (u :: value, rest) := by
  have opened : (unit '\\' == unit '"') = false := by decide
  have letters : ∀ entry ∈ letterEscapes,
      (entry.1 == unit 'u') = false ∧ letterUnit entry.1 = some entry.2 :=
    List.all_iff_forall_prop.mp (by decide)
  obtain ⟨plain, stands⟩ := letters _ listed
  unfold readString
  simp only [opened, plain, stands, Bool.false_eq_true, if_false, beq_self_eq_true, if_true,
    later, Option.bind_eq_bind, Option.bind_some]
  rfl

theorem readString_quoteUnit {u : CodeUnit} {text value rest : JsString}
    (later : readString text = some (value, rest)) :
    readString (quoteUnit u ++ text) = some (u :: value, rest) := by
  unfold quoteUnit
  split
  · rename_i letter code found
    have listed := List.mem_of_find?_eq_some found
    have same : code = u := by simpa using List.find?_some found
    subst same
    exact readString_letter listed later
  · rename_i unlisted
    have absent : ∀ entry ∈ letterEscapes, ¬ (entry.2 == u) = true :=
      List.find?_eq_none.mp unlisted
    by_cases control : u.toNat < 0x20
    · rw [if_pos control]
      exact readString_unicodeEscape later
    · rw [if_neg control]
      have noQuote : u ≠ unit '"' := by
        rintro rfl
        exact absent (unit '"', 0x22) (by decide) (by decide)
      have noEscape : u ≠ unit '\\' := by
        rintro rfl
        exact absent (unit '\\', 0x5C) (by decide) (by decide)
      exact readString_raw noQuote noEscape control later

theorem readString_quoteLone {u : CodeUnit} {text value rest : JsString}
    (later : readString text = some (value, rest)) :
    readString (quoteLone u ++ text) = some (u :: value, rest) := by
  unfold quoteLone
  split
  · exact readString_unicodeEscape later
  · exact readString_quoteUnit later

theorem readString_surrogate {u : CodeUnit} (high : 0xD800 ≤ u.toNat)
    {text value rest : JsString} (later : readString text = some (value, rest)) :
    readString (u :: text) = some (u :: value, rest) := by
  have noQuote : u ≠ unit '"' := by
    rintro rfl
    exact absurd high (by decide)
  have noEscape : u ≠ unit '\\' := by
    rintro rfl
    exact absurd high (by decide)
  exact readString_raw noQuote noEscape (by omega) later

theorem readString_quoteUnits (s rest : JsString) :
    readString (quoteUnits s ++ unit '"' :: rest) = some (s, rest) := by
  have closing : readString (unit '"' :: rest) = some ([], rest) := by
    unfold readString
    simp only [beq_self_eq_true, if_true]
  induction s using quoteUnits.induct with
  | case1 => exact closing
  | case2 u =>
      rw [quoteUnits]
      exact readString_quoteLone closing
  | case3 u v tail paired ih =>
      rw [quoteUnits, if_pos paired, List.cons_append, List.cons_append]
      simp only [Bool.and_eq_true, isHighSurrogate, isLowSurrogate, decide_eq_true_eq] at paired
      exact readString_surrogate (by omega) (readString_surrogate (by omega) ih)
  | case4 u v tail single ih =>
      rw [quoteUnits, if_neg single, List.append_assoc]
      exact readString_quoteLone ih

end Strings

section Numbers

def digitUnit (d : Nat) : CodeUnit := unit d.digitChar

theorem decimal_of_lt {n : Nat} (small : n < 10) : decimal n = [digitUnit n] := by
  have units : ∀ d < 10, unitsOfChar d.digitChar = [digitUnit d] := by decide
  rw [decimal, Nat.toDigits_of_lt_base small, List.flatMap_singleton, units n small]

theorem decimal_of_le {n : Nat} (large : 10 ≤ n) :
    decimal n = decimal (n / 10) ++ [digitUnit (n % 10)] := by
  have last : n % 10 < 10 := Nat.mod_lt n (by decide)
  have units : ∀ d < 10, unitsOfChar d.digitChar = [digitUnit d] := by decide
  rw [decimal, Nat.toDigits_of_base_le (by decide) large, List.flatMap_append,
    List.flatMap_singleton, units _ last]
  rfl

theorem decimal_length (digits : Nat) {n : Nat} (small : n < 10 ^ (digits + 1)) :
    (decimal n).length ≤ digits + 1 := by
  induction digits generalizing n with
  | zero =>
      rw [decimal_of_lt (by simpa using small)]
      simp
  | succ digits ih =>
      by_cases single : n < 10
      · rw [decimal_of_lt single]
        simp
      · have front : n / 10 < 10 ^ (digits + 1) := by
          rw [Nat.pow_succ] at small
          omega
        rw [decimal_of_le (by omega), List.length_append, List.length_singleton]
        have bound := ih front
        omega

theorem digitUnit_digit : ∀ d < 10, isDigit (digitUnit d) = true := by decide

theorem digitUnit_value : ∀ d < 10, (digitUnit d).toNat - 0x30 = d := by decide

theorem decimal_digits (n : Nat) : ∀ u ∈ decimal n, isDigit u = true := by
  induction n using Nat.strong_induction_on with
  | _ n ih =>
      by_cases small : n < 10
      · intro u member
        rw [decimal_of_lt small] at member
        obtain rfl := List.mem_singleton.mp member
        exact digitUnit_digit n small
      · intro u member
        rw [decimal_of_le (by omega)] at member
        rcases List.mem_append.mp member with earlier | last
        · exact ih (n / 10) (by omega) u earlier
        · obtain rfl := List.mem_singleton.mp last
          exact digitUnit_digit (n % 10) (Nat.mod_lt n (by decide))

theorem digitsValue_decimal (n : Nat) : digitsValue (decimal n) = n := by
  induction n using Nat.strong_induction_on with
  | _ n ih =>
      by_cases small : n < 10
      · rw [decimal_of_lt small, digitsValue, List.foldl_cons, List.foldl_nil,
          digitUnit_value n small]
        omega
      · have earlier := ih (n / 10) (by omega)
        have last := digitUnit_value (n % 10) (Nat.mod_lt n (by decide))
        rw [digitsValue] at earlier
        rw [decimal_of_le (by omega), digitsValue, List.foldl_append, earlier, List.foldl_cons,
          List.foldl_nil, last]
        omega

theorem decimal_head {n : Nat} (positive : 0 < n) :
    ∃ u rest, decimal n = u :: rest ∧ u ≠ unit '0' := by
  induction n using Nat.strong_induction_on with
  | _ n ih =>
      by_cases small : n < 10
      · have nonzero : ∀ d < 10, 0 < d → digitUnit d ≠ unit '0' := by decide
        exact ⟨_, [], decimal_of_lt small, nonzero n small positive⟩
      · obtain ⟨u, rest, shape, nonzero⟩ := ih (n / 10) (by omega) (by omega)
        refine ⟨u, rest ++ [digitUnit (n % 10)], ?_, nonzero⟩
        rw [decimal_of_le (by omega), shape, List.cons_append]

theorem validInteger_decimal (n : Nat) : validInteger (decimal n) = true := by
  by_cases zero : n = 0
  · subst zero
    decide
  · obtain ⟨u, rest, shape, nonzero⟩ := decimal_head (Nat.pos_of_ne_zero zero)
    simp [validInteger, shape, nonzero]

def continuesNumber (u : CodeUnit) : Bool :=
  isDigit u || u == unit '.' || u == unit 'e' || u == unit 'E'

/-- What may follow a number without being read as a part of it. -/
def Stops (text : JsString) : Prop := ∀ u rest, text = u :: rest → continuesNumber u = false

theorem stops_cons {u : CodeUnit} {text : JsString} (other : continuesNumber u = false) :
    Stops (u :: text) := by
  rintro v rest shape
  obtain ⟨rfl, rfl⟩ := List.cons.inj shape
  exact other

theorem Stops.blank {blank text : JsString} (spaces : Blank blank) (stops : Stops text) :
    Stops (blank ++ text) := by
  cases blank with
  | nil => exact stops
  | cons u blank =>
      have space := spaces u List.mem_cons_self
      refine stops_cons ?_
      simp only [isJsonSpace, Bool.or_eq_true, beq_iff_eq] at space
      have bound : u.toNat < 0x2E := by omega
      simp only [continuesNumber, isDigit, between, Bool.or_eq_false_iff, beq_eq_false_iff_ne,
        Bool.and_eq_false_iff, decide_eq_false_iff_not]
      refine ⟨⟨⟨.inl ?_, ?_⟩, ?_⟩, ?_⟩
      · have zero : '0'.toNat = 0x30 := rfl
        omega
      all_goals
        rintro rfl
        exact absurd bound (by decide)

theorem Stops.not_digit {u : CodeUnit} {text : JsString} (stops : Stops (u :: text)) :
    isDigit u = false := by
  have other := stops u text rfl
  simp only [continuesNumber, Bool.or_eq_false_iff] at other
  exact other.1.1.1

theorem takeWhile_decimal {n : Nat} {rest : JsString} (stops : Stops rest) :
    (decimal n ++ rest).takeWhile isDigit = decimal n ∧
      (decimal n ++ rest).dropWhile isDigit = rest := by
  have digits := decimal_digits n
  rw [List.takeWhile_append_of_pos digits, List.dropWhile_append_of_pos digits]
  cases rest with
  | nil => simp
  | cons u rest => simp [stops.not_digit]

theorem readFraction_stops {rest : JsString} (stops : Stops rest) :
    readFraction rest = some ([], rest) := by
  cases rest with
  | nil => rfl
  | cons u rest =>
      have other := stops u rest rfl
      simp only [continuesNumber, Bool.or_eq_false_iff] at other
      simp only [readFraction, other.1.1.2, Bool.false_eq_true, if_false]

theorem readExponent_stops {rest : JsString} (stops : Stops rest) :
    readExponent rest = some ([], rest) := by
  cases rest with
  | nil => rfl
  | cons u rest =>
      have other := stops u rest rfl
      simp only [continuesNumber, Bool.or_eq_false_iff] at other
      simp only [readExponent, other.1.2, other.2, Bool.or_self, Bool.false_eq_true, if_false]

theorem integerText_head (value : Int) :
    ∃ u rest, integerText value = u :: rest ∧ (isDigit u = true ∨ u = unit '-') := by
  unfold integerText
  split
  · exact ⟨_, _, rfl, .inr rfl⟩
  · cases shape : decimal value.natAbs with
    | nil =>
        have valid := validInteger_decimal value.natAbs
        rw [shape] at valid
        cases valid
    | cons u rest =>
        exact ⟨u, rest, rfl, .inl (decimal_digits _ u (shape ▸ List.mem_cons_self))⟩

theorem readMinus_integerText (value : Int) (rest : JsString) :
    readMinus (integerText value ++ rest) =
      (decide (value < 0), decimal value.natAbs ++ rest) := by
  by_cases negative : value < 0
  · simp only [integerText, List.cons_append, readMinus, beq_self_eq_true,
      if_true, negative, decide_true]
  · obtain ⟨u, tail, shape, head⟩ := integerText_head value
    rw [integerText, if_neg negative] at shape
    have plain : (u == unit '-') = false := by
      have digit := decimal_digits value.natAbs u (shape ▸ List.mem_cons_self)
      refine beq_eq_false_iff_ne.mpr ?_
      rintro rfl
      exact absurd digit (by decide)
    simp only [integerText, shape, List.cons_append, readMinus, plain,
      Bool.false_eq_true, if_false, negative, decide_false]

theorem readNumber_integerText {value : Int} (safe : isSafeInteger value = true)
    {rest : JsString} (stops : Stops rest) :
    readNumber (integerText value ++ rest) = some (.integer value, rest) := by
  obtain ⟨digits, after⟩ := takeWhile_decimal (n := value.natAbs) stops
  have within : isSafeInteger (value.natAbs : Int) = true := by
    simpa only [isSafeInteger, Int.natAbs_natCast] using safe
  have restored : signed (decide (value < 0)) value.natAbs = value := by
    unfold signed
    split
    · rename_i negative
      have negative := of_decide_eq_true negative
      omega
    · rename_i positive
      have positive : ¬ value < 0 := by simpa using positive
      omega
  simp only [readNumber, readMinus_integerText, digits, after, validInteger_decimal, if_true,
    readFraction_stops stops, readExponent_stops stops, Option.bind_eq_bind, Option.bind_some,
    List.isEmpty_nil, Bool.and_self, digitsValue_decimal, within, restored]
  rfl

theorem takeWhile_stops (text : JsString) {rest : JsString} (stops : Stops rest) :
    (text ++ rest).takeWhile isDigit = text.takeWhile isDigit ∧
      (text ++ rest).dropWhile isDigit = text.dropWhile isDigit ++ rest := by
  induction text with
  | nil =>
      cases rest with
      | nil => simp
      | cons u rest => simp [stops.not_digit]
  | cons u text ih =>
      by_cases digit : isDigit u = true
      · simp [digit, ih.1, ih.2]
      · simp [digit]

theorem readFraction_append {text fraction tail rest : JsString} (stops : Stops rest)
    (read : readFraction text = some (fraction, tail)) :
    readFraction (text ++ rest) = some (fraction, tail ++ rest) := by
  cases text with
  | nil =>
      obtain ⟨rfl, rfl⟩ := Prod.mk.inj (Option.some.inj read)
      exact readFraction_stops stops
  | cons u text =>
      obtain ⟨digits, after⟩ := takeWhile_stops text stops
      by_cases point : (u == unit '.') = true
      · rw [readFraction, if_pos point] at read
        rw [List.cons_append, readFraction, if_pos point, digits, after]
        by_cases empty : (text.takeWhile isDigit).isEmpty = true
        · rw [if_pos empty] at read
          cases read
        · rw [if_neg empty] at read ⊢
          obtain ⟨rfl, rfl⟩ := Prod.mk.inj (Option.some.inj read)
          rfl
      · rw [readFraction, if_neg point] at read
        obtain ⟨rfl, rfl⟩ := Prod.mk.inj (Option.some.inj read)
        rw [List.cons_append, readFraction, if_neg point]

theorem readSign_append {text : JsString} (filled : text ≠ []) (rest : JsString) :
    readSign (text ++ rest) = ((readSign text).1, (readSign text).2 ++ rest) := by
  cases text with
  | nil => exact absurd rfl filled
  | cons u text =>
      by_cases sign : (u == unit '+' || u == unit '-') = true
      · simp only [List.cons_append, readSign, if_pos sign]
      · simp only [List.cons_append, readSign, if_neg sign]

theorem readExponent_append {text exponent tail rest : JsString} (stops : Stops rest)
    (read : readExponent text = some (exponent, tail)) :
    readExponent (text ++ rest) = some (exponent, tail ++ rest) := by
  cases text with
  | nil =>
      obtain ⟨rfl, rfl⟩ := Prod.mk.inj (Option.some.inj read)
      exact readExponent_stops stops
  | cons u text =>
      by_cases marked : (u == unit 'e' || u == unit 'E') = true
      · rw [readExponent, if_pos marked] at read
        have filled : text ≠ [] := by
          rintro rfl
          cases read
        obtain ⟨digits, after⟩ := takeWhile_stops (readSign text).2 stops
        rw [List.cons_append, readExponent, if_pos marked, readSign_append filled rest, digits,
          after]
        by_cases empty : ((readSign text).2.takeWhile isDigit).isEmpty = true
        · rw [if_pos empty] at read
          cases read
        · rw [if_neg empty] at read ⊢
          obtain ⟨rfl, rfl⟩ := Prod.mk.inj (Option.some.inj read)
          rfl
      · rw [readExponent, if_neg marked] at read
        obtain ⟨rfl, rfl⟩ := Prod.mk.inj (Option.some.inj read)
        rw [List.cons_append, readExponent, if_neg marked]

theorem readNumber_double {text literal tail : JsString}
    (read : readNumber text = some (.double literal, tail)) :
    ∃ fraction after exponent,
      validInteger ((readMinus text).2.takeWhile isDigit) = true ∧
      readFraction ((readMinus text).2.dropWhile isDigit) = some (fraction, after) ∧
      readExponent after = some (exponent, tail) ∧
      (fraction.isEmpty && exponent.isEmpty &&
        isSafeInteger (digitsValue ((readMinus text).2.takeWhile isDigit))) = false ∧
      literal = (if (readMinus text).1 then js "-" else []) ++
        (readMinus text).2.takeWhile isDigit ++ fraction ++ exponent := by
  unfold readNumber at read
  by_cases valid : validInteger ((readMinus text).2.takeWhile isDigit) = true
  · simp only [valid, if_true] at read
    cases first : readFraction ((readMinus text).2.dropWhile isDigit) with
    | none =>
        rw [first] at read
        cases read
    | some pair =>
        obtain ⟨fraction, after⟩ := pair
        simp only [first, Option.bind_eq_bind, Option.bind_some] at read
        cases second : readExponent after with
        | none =>
            rw [second] at read
            cases read
        | some pair =>
            obtain ⟨exponent, last⟩ := pair
            simp only [second, Option.bind_some] at read
            by_cases whole : (fraction.isEmpty && exponent.isEmpty &&
                isSafeInteger (digitsValue ((readMinus text).2.takeWhile isDigit))) = true
            · rw [if_pos whole] at read
              obtain ⟨same, -⟩ := Prod.mk.inj (Option.some.inj read)
              cases same
            · rw [if_neg whole] at read
              obtain ⟨same, rfl⟩ := Prod.mk.inj (Option.some.inj read)
              exact ⟨fraction, after, exponent, valid, rfl, second,
                Bool.eq_false_iff.mpr whole, (Json.double.inj same).symm⟩
  · simp only [valid] at read
    cases read

theorem readMinus_append {text : JsString} (filled : text ≠ []) (rest : JsString) :
    readMinus (text ++ rest) = ((readMinus text).1, (readMinus text).2 ++ rest) := by
  cases text with
  | nil => exact absurd rfl filled
  | cons u text =>
      by_cases minus : (u == unit '-') = true
      · simp only [List.cons_append, readMinus, if_pos minus]
      · simp only [List.cons_append, readMinus, if_neg minus]

theorem readNumber_filled {text : JsString} {value : Json} {tail : JsString}
    (read : readNumber text = some (value, tail)) : text ≠ [] := by
  rintro rfl
  cases read

theorem readNumber_literal {literal rest : JsString} (stops : Stops rest)
    (read : readNumber literal = some (.double literal, [])) :
    readNumber (literal ++ rest) = some (.double literal, rest) := by
  obtain ⟨fraction, after, exponent, valid, first, second, whole, shape⟩ := readNumber_double read
  obtain ⟨digits, behind⟩ := takeWhile_stops (readMinus literal).2 stops
  have fractionRead := readFraction_append stops first
  have exponentRead := readExponent_append stops second
  rw [List.nil_append] at exponentRead
  simp only [readNumber, readMinus_append (readNumber_filled read) rest, digits, behind, valid,
    if_true, fractionRead, exponentRead, Option.bind_eq_bind, Option.bind_some, whole,
    Bool.false_eq_true, if_false, ← shape]
  rfl

theorem readNumber_head {text : JsString} {literal tail : JsString}
    (read : readNumber text = some (.double literal, tail)) :
    ∃ u rest, text = u :: rest ∧ (isDigit u = true ∨ u = unit '-') := by
  obtain ⟨-, -, -, valid, -⟩ := readNumber_double read
  cases text with
  | nil => exact absurd rfl (readNumber_filled read)
  | cons u rest =>
      refine ⟨u, rest, rfl, ?_⟩
      by_cases minus : u = unit '-'
      · exact .inr minus
      · left
        by_contra other
        have plain : (u == unit '-') = false := beq_eq_false_iff_ne.mpr minus
        simp [readMinus, plain, other, validInteger] at valid

end Numbers

section Objects

theorem setMember_fresh {members : List (JsString × Json)} {key : JsString} {value : Json}
    (fresh : key ∉ members.map Prod.fst) :
    setMember members key value = members ++ [(key, value)] := by
  rw [setMember, if_neg]
  simpa using fresh

theorem assignMembers_distinct {members : List (JsString × Json)}
    (distinct : (members.map Prod.fst).Nodup) : assignMembers members = members := by
  have run : ∀ (rest front : List (JsString × Json)), ((front ++ rest).map Prod.fst).Nodup →
      rest.foldl (fun object member => setMember object member.1 member.2) front =
        front ++ rest := by
    intro rest
    induction rest with
    | nil =>
        intro front _
        rw [List.foldl_nil, List.append_nil]
    | cons member rest ih =>
        intro front unique
        have fresh : member.1 ∉ front.map Prod.fst := by
          intro earlier
          rw [List.map_append, List.nodup_append] at unique
          exact unique.2.2 _ earlier _ (List.mem_map_of_mem List.mem_cons_self) rfl
        rw [List.foldl_cons, setMember_fresh fresh, ih]
        · rw [List.append_assoc, List.singleton_append]
        · rwa [List.append_assoc, List.singleton_append]
  exact run members [] distinct

end Objects

section Values

variable {layout : Layout} {blank rest : JsString}

theorem readValue_scalar {u : CodeUnit} {text : JsString} {value : Json} {fuel : Nat}
    (spaces : Blank blank) (solid : isJsonSpace u = false)
    (opening : u ≠ unit '"' ∧ u ≠ unit '[' ∧ u ≠ unit '{')
    (scalar : readScalar (u :: text) = some (value, rest)) :
    readValue (fuel + 1) (blank ++ u :: text) = some (value, rest) := by
  obtain ⟨noQuote, noBracket, noBrace⟩ := opening
  simp only [readValue, skipSpace_blank spaces, skipSpace_cons solid,
    beq_eq_false_iff_ne.mpr noQuote, beq_eq_false_iff_ne.mpr noBracket,
    beq_eq_false_iff_ne.mpr noBrace, Bool.false_eq_true, if_false, scalar]

theorem readValue_number {u : CodeUnit} {tail : JsString} {value : Json} {fuel : Nat}
    (spaces : Blank blank) (head : isDigit u = true ∨ u = unit '-')
    (read : readNumber (u :: (tail ++ rest)) = some (value, rest)) :
    readValue (fuel + 1) (blank ++ u :: (tail ++ rest)) = some (value, rest) := by
  -- A digit and a minus sign open nothing else.
  have low : u.toNat < 0x3A ∧ 0x2D ≤ u.toNat := by
    rcases head with digit | rfl
    · simp only [isDigit, between, Bool.and_eq_true, decide_eq_true_eq] at digit
      have zero : '0'.toNat = 0x30 := rfl
      have nine : '9'.toNat = 0x39 := rfl
      omega
    · decide
  have solid : isJsonSpace u = false := by
    simp only [isJsonSpace, Bool.or_eq_false_iff, beq_eq_false_iff_ne]
    omega
  have differs : ∀ v : CodeUnit, (v.toNat < 0x2D ∨ 0x3A ≤ v.toNat) → u ≠ v := by
    rintro v outside rfl
    omega
  have named : ∀ v : CodeUnit, ∀ name, 0x3A ≤ v.toNat →
      startsWith (u :: (tail ++ rest)) (v :: name) = false := by
    intro v name high
    have other : (v == u) = false := beq_eq_false_iff_ne.mpr (differs v (.inr high)).symm
    simp [startsWith, List.isPrefixOf, other]
  refine readValue_scalar spaces solid
    ⟨differs _ (by decide), differs _ (by decide), differs _ (by decide)⟩ ?_
  rw [readScalar, if_neg, if_neg, if_neg]
  · exact read
  · rw [show js "false" = unit 'f' :: js "alse" from rfl, named _ _ (by decide)]
    decide
  · rw [show js "true" = unit 't' :: js "rue" from rfl, named _ _ (by decide)]
    decide
  · rw [show js "null" = unit 'n' :: js "ull" from rfl, named _ _ (by decide)]
    decide

theorem readValue_integer {value : Int} {fuel : Nat} (spaces : Blank blank)
    (safe : isSafeInteger value = true) (stops : Stops rest) :
    readValue (fuel + 1) (blank ++ (integerText value ++ rest)) = some (.integer value, rest) := by
  obtain ⟨u, tail, shape, head⟩ := integerText_head value
  have read := readNumber_integerText safe stops
  rw [shape, List.cons_append] at read ⊢
  exact readValue_number spaces head read

theorem readValue_double {literal : JsString} {fuel : Nat} (spaces : Blank blank)
    (formed : readNumber literal = some (.double literal, [])) (stops : Stops rest) :
    readValue (fuel + 1) (blank ++ (literal ++ rest)) = some (.double literal, rest) := by
  obtain ⟨u, tail, shape, head⟩ := readNumber_head formed
  have read := readNumber_literal stops formed
  subst shape
  rw [List.cons_append] at read ⊢
  exact readValue_number spaces head read

theorem readValue_string {value : JsString} {fuel : Nat} (spaces : Blank blank) :
    readValue (fuel + 1) (blank ++ (quote value ++ rest)) = some (.string value, rest) := by
  have solid : isJsonSpace (unit '"') = false := by decide
  have shape : quote value ++ rest = unit '"' :: (quoteUnits value ++ unit '"' :: rest) := by
    rw [quote, List.cons_append, List.append_assoc, List.singleton_append]
  simp only [shape, readValue, skipSpace_blank spaces, skipSpace_cons solid, beq_self_eq_true,
    if_true, readString_quoteUnits, Option.bind_eq_bind, Option.bind_some]
  rfl

/-- An opening bracket behind white space, with something between it and its closing one. -/
theorem readValue_array {u : CodeUnit} {text after : JsString} {items : List Json} {fuel : Nat}
    (spaces : Blank blank) (opened : skipSpace text = u :: after) (filled : u ≠ unit ']')
    (read : readItems fuel text = some (items, rest)) :
    readValue (fuel + 1) (blank ++ unit '[' :: text) = some (.array items, rest) := by
  have solid : isJsonSpace (unit '[') = false := by decide
  have noQuote : (unit '[' == unit '"') = false := by decide
  simp only [readValue, skipSpace_blank spaces, skipSpace_cons solid, noQuote, beq_self_eq_true,
    if_true, Bool.false_eq_true, if_false, opened, beq_eq_false_iff_ne.mpr filled, read,
    Option.bind_eq_bind, Option.bind_some]
  rfl

theorem readValue_object {u : CodeUnit} {text after : JsString}
    {members : List (JsString × Json)} {fuel : Nat} (spaces : Blank blank)
    (distinct : (members.map Prod.fst).Nodup) (opened : skipSpace text = u :: after)
    (filled : u ≠ unit '}') (read : readMembers fuel text = some (members, rest)) :
    readValue (fuel + 1) (blank ++ unit '{' :: text) = some (.object members, rest) := by
  have solid : isJsonSpace (unit '{') = false := by decide
  have noQuote : (unit '{' == unit '"') = false := by decide
  have noBracket : (unit '{' == unit '[') = false := by decide
  simp only [readValue, skipSpace_blank spaces, skipSpace_cons solid, noQuote, noBracket,
    beq_self_eq_true, if_true, Bool.false_eq_true, if_false, opened,
    beq_eq_false_iff_ne.mpr filled, read, Option.bind_eq_bind, Option.bind_some,
    assignMembers_distinct distinct]
  rfl

theorem readValue_emptyArray {fuel : Nat} (spaces : Blank blank) :
    readValue (fuel + 1) (blank ++ unit '[' :: unit ']' :: rest) = some (.array [], rest) := by
  have solid : isJsonSpace (unit '[') = false := by decide
  have closing : isJsonSpace (unit ']') = false := by decide
  have noQuote : (unit '[' == unit '"') = false := by decide
  simp only [readValue, skipSpace_blank spaces, skipSpace_cons solid, skipSpace_cons closing,
    noQuote, beq_self_eq_true, if_true, Bool.false_eq_true, if_false]

theorem readValue_emptyObject {fuel : Nat} (spaces : Blank blank) :
    readValue (fuel + 1) (blank ++ unit '{' :: unit '}' :: rest) = some (.object [], rest) := by
  have solid : isJsonSpace (unit '{') = false := by decide
  have closing : isJsonSpace (unit '}') = false := by decide
  have noQuote : (unit '{' == unit '"') = false := by decide
  have noBracket : (unit '{' == unit '[') = false := by decide
  simp only [readValue, skipSpace_blank spaces, skipSpace_cons solid, skipSpace_cons closing,
    noQuote, noBracket, beq_self_eq_true, if_true, Bool.false_eq_true, if_false]

theorem readItems_last {text : JsString} {item : Json} {trailing : JsString} {fuel : Nat}
    (spaces : Blank trailing)
    (read : readValue fuel text = some (item, trailing ++ unit ']' :: rest)) :
    readItems (fuel + 1) text = some ([item], rest) := by
  have closing : isJsonSpace (unit ']') = false := by decide
  have noComma : (unit ']' == unit ',') = false := by decide
  simp only [readItems, read, Option.bind_eq_bind, Option.bind_some, skipSpace_blank spaces,
    skipSpace_cons closing, noComma, Bool.false_eq_true, if_false, beq_self_eq_true, if_true]

theorem readItems_more {text later : JsString} {item : Json} {items : List Json} {fuel : Nat}
    (read : readValue fuel text = some (item, unit ',' :: later))
    (more : readItems fuel later = some (items, rest)) :
    readItems (fuel + 1) text = some (item :: items, rest) := by
  have comma : isJsonSpace (unit ',') = false := by decide
  simp only [readItems, read, Option.bind_eq_bind, Option.bind_some, skipSpace_cons comma,
    beq_self_eq_true, if_true, more]
  rfl

theorem readMembers_key {key text : JsString} {fuel : Nat} (spaces : Blank blank) :
    readMembers (fuel + 1) (blank ++ (quote key ++ unit ':' :: text)) =
      (do
        let (value, rest) ← readValue fuel text
        match skipSpace rest with
        | [] => none
        | w :: rest =>
            if w == unit ',' then do
              let (members, rest) ← readMembers fuel rest
              pure ((key, value) :: members, rest)
            else if w == unit '}' then some ([(key, value)], rest)
            else none) := by
  have solid : isJsonSpace (unit '"') = false := by decide
  have colon : isJsonSpace (unit ':') = false := by decide
  have shape : quote key ++ unit ':' :: text =
      unit '"' :: (quoteUnits key ++ unit '"' :: unit ':' :: text) := by
    rw [quote, List.cons_append, List.append_assoc, List.singleton_append]
  simp only [shape, readMembers, skipSpace_blank spaces, skipSpace_cons solid, beq_self_eq_true,
    if_true, readString_quoteUnits, Option.bind_eq_bind, Option.bind_some, skipSpace_cons colon]

theorem readMembers_last {key text trailing : JsString} {value : Json} {fuel : Nat}
    (leading : Blank blank) (spaces : Blank trailing)
    (read : readValue fuel text = some (value, trailing ++ unit '}' :: rest)) :
    readMembers (fuel + 1) (blank ++ (quote key ++ unit ':' :: text)) =
      some ([(key, value)], rest) := by
  have closing : isJsonSpace (unit '}') = false := by decide
  have noComma : (unit '}' == unit ',') = false := by decide
  rw [readMembers_key leading]
  simp only [read, Option.bind_eq_bind, Option.bind_some, skipSpace_blank spaces,
    skipSpace_cons closing, noComma, Bool.false_eq_true, if_false, beq_self_eq_true, if_true]

theorem readMembers_more {key text later : JsString} {value : Json}
    {members : List (JsString × Json)} {fuel : Nat} (leading : Blank blank)
    (read : readValue fuel text = some (value, unit ',' :: later))
    (more : readMembers fuel later = some (members, rest)) :
    readMembers (fuel + 1) (blank ++ (quote key ++ unit ':' :: text)) =
      some ((key, value) :: members, rest) := by
  have comma : isJsonSpace (unit ',') = false := by decide
  rw [readMembers_key leading]
  simp only [read, Option.bind_eq_bind, Option.bind_some, skipSpace_cons comma, beq_self_eq_true,
    if_true, more]
  rfl

theorem enclose_nonempty {depth : Nat} {opening closing : Char} {entries : List JsString}
    (filled : entries ≠ []) :
    enclose layout depth opening closing entries =
      unit opening :: (layout.newline (depth + 1) ++
        (joinEntries (layout.newline (depth + 1)) entries ++
          (layout.newline depth ++ [unit closing]))) := by
  rw [enclose, if_neg (by simpa using filled)]
  simp only [List.cons_append, List.append_assoc]

theorem joinEntries_head (separator entry : JsString) (entries : List JsString) :
    ∃ tail, joinEntries separator (entry :: entries) = entry ++ tail := by
  cases entries with
  | nil => exact ⟨[], by rw [joinEntries, List.append_nil]⟩
  | cons next entries =>
      exact ⟨_, by rw [joinEntries, List.append_assoc]⟩

def Opens (u : CodeUnit) : Prop := isJsonSpace u = false ∧ u ≠ unit ']'

theorem opens_number {u : CodeUnit} (head : isDigit u = true ∨ u = unit '-') : Opens u := by
  rcases head with digit | rfl
  · simp only [isDigit, between, Bool.and_eq_true, decide_eq_true_eq] at digit
    have zero : '0'.toNat = 0x30 := rfl
    have nine : '9'.toNat = 0x39 := rfl
    refine ⟨?_, ?_⟩
    · simp only [isJsonSpace, Bool.or_eq_false_iff, beq_eq_false_iff_ne]
      omega
    · rintro rfl
      have bracket : (unit ']').toNat = 0x5D := rfl
      omega
  · exact ⟨by decide, by decide⟩

theorem stringify_head (layout : Layout) (depth : Nat) {value : Json} (formed : WellFormed value) :
    ∃ u tail, stringify layout depth value = u :: tail ∧ Opens u := by
  cases value with
  | null => exact ⟨unit 'n', js "ull", rfl, by decide, by decide⟩
  | bool value =>
      cases value with
      | false => exact ⟨unit 'f', js "alse", rfl, by decide, by decide⟩
      | true => exact ⟨unit 't', js "rue", rfl, by decide, by decide⟩
  | integer value =>
      obtain ⟨u, tail, shape, head⟩ := integerText_head value
      exact ⟨u, tail, by rw [stringify, shape], opens_number head⟩
  | double literal =>
      rw [WellFormed] at formed
      obtain ⟨u, tail, shape, head⟩ := readNumber_head formed
      exact ⟨u, tail, by rw [stringify, shape], opens_number head⟩
  | string value => exact ⟨unit '"', _, by rw [stringify, quote], by decide, by decide⟩
  | array items =>
      by_cases filled : stringifyItems layout (depth + 1) items = []
      · exact ⟨unit '[', [unit ']'], by rw [stringify, filled]; rfl, by decide, by decide⟩
      · exact ⟨unit '[', _, by rw [stringify, enclose_nonempty filled], by decide, by decide⟩
  | object members =>
      by_cases filled : stringifyMembers layout (depth + 1) members = []
      · exact ⟨unit '{', [unit '}'], by rw [stringify, filled]; rfl, by decide, by decide⟩
      · exact ⟨unit '{', _, by rw [stringify, enclose_nonempty filled], by decide, by decide⟩

theorem newline_blank (layout : Layout) (depth : Nat) : Blank (layout.newline depth) :=
  layout.newline_blank depth

theorem gap_blank (layout : Layout) : Blank layout.gap := layout.gap_blank

theorem stops_closing {trailing : JsString} {closing : CodeUnit} (spaces : Blank trailing)
    (other : continuesNumber closing = false) : Stops (trailing ++ closing :: rest) :=
  Stops.blank spaces (stops_cons other)

mutual

theorem readValue_stringify (layout : Layout) (depth : Nat) :
    ∀ (value : Json), WellFormed value → ∀ (blank rest : JsString) (fuel : Nat), Blank blank →
      Stops rest → (stringify layout depth value).length ≤ fuel →
      readValue fuel (blank ++ (stringify layout depth value ++ rest)) = some (value, rest)
  | value, formed, blank, rest, 0, _, _, enough => by
      obtain ⟨u, tail, shape, -⟩ := stringify_head layout depth formed
      rw [shape] at enough
      cases enough
  | .null, _, blank, rest, fuel + 1, spaces, _, _ =>
      readValue_scalar spaces (by decide) ⟨by decide, by decide, by decide⟩ rfl
  | .bool false, _, blank, rest, fuel + 1, spaces, _, _ =>
      readValue_scalar spaces (by decide) ⟨by decide, by decide, by decide⟩ rfl
  | .bool true, _, blank, rest, fuel + 1, spaces, _, _ =>
      readValue_scalar spaces (by decide) ⟨by decide, by decide, by decide⟩ rfl
  | .integer value, formed, blank, rest, fuel + 1, spaces, stops, _ => by
      rw [WellFormed] at formed
      rw [stringify]
      exact readValue_integer spaces formed stops
  | .double literal, formed, blank, rest, fuel + 1, spaces, stops, _ => by
      rw [WellFormed] at formed
      rw [stringify]
      exact readValue_double spaces formed stops
  | .string value, _, blank, rest, fuel + 1, spaces, _, _ => by
      rw [stringify]
      exact readValue_string spaces
  | .array [], _, blank, rest, fuel + 1, spaces, _, _ => by
      exact readValue_emptyArray spaces
  | .array (item :: items), formed, blank, rest, fuel + 1, spaces, _, enough => by
      rw [WellFormed] at formed
      have filled : stringifyItems layout (depth + 1) (item :: items) ≠ [] := by
        rw [stringifyItems]
        exact List.cons_ne_nil _ _
      rw [stringify, enclose_nonempty filled] at enough ⊢
      simp only [List.length_cons, List.length_append, List.length_nil] at enough
      rw [List.cons_append, List.append_assoc, List.append_assoc, List.append_assoc,
        List.singleton_append]
      have read := readItems_stringify layout (depth + 1) item items formed
        (layout.newline (depth + 1)) (layout.newline depth) rest fuel
        (newline_blank layout _) (newline_blank layout _) (by omega)
      obtain ⟨u, tail, shape, solid, other⟩ :=
        stringify_head layout (depth + 1) formed.1
      have opened : ∃ after, skipSpace (layout.newline (depth + 1) ++
          (joinEntries (layout.newline (depth + 1))
            (stringifyItems layout (depth + 1) (item :: items)) ++
            (layout.newline depth ++ unit ']' :: rest))) = u :: after := by
        obtain ⟨more, joined⟩ := joinEntries_head (layout.newline (depth + 1))
          (stringify layout (depth + 1) item) (stringifyItems layout (depth + 1) items)
        rw [skipSpace_blank (newline_blank layout _), stringifyItems, joined, shape,
          List.cons_append, List.cons_append, skipSpace_cons solid]
        exact ⟨_, rfl⟩
      obtain ⟨after, opened⟩ := opened
      exact readValue_array spaces opened other read
  | .object [], _, blank, rest, fuel + 1, spaces, _, _ => by
      exact readValue_emptyObject spaces
  | .object ((key, value) :: members), formed, blank, rest, fuel + 1, spaces, _, enough => by
      rw [WellFormed] at formed
      have filled : stringifyMembers layout (depth + 1) ((key, value) :: members) ≠ [] := by
        rw [stringifyMembers]
        exact List.cons_ne_nil _ _
      rw [stringify, enclose_nonempty filled] at enough ⊢
      simp only [List.length_cons, List.length_append, List.length_nil] at enough
      rw [List.cons_append, List.append_assoc, List.append_assoc, List.append_assoc,
        List.singleton_append]
      have read := readMembers_stringify layout (depth + 1) key value members formed.2
        (layout.newline (depth + 1)) (layout.newline depth) rest fuel
        (newline_blank layout _) (newline_blank layout _) (by omega)
      have opened : ∃ after, skipSpace (layout.newline (depth + 1) ++
          (joinEntries (layout.newline (depth + 1))
            (stringifyMembers layout (depth + 1) ((key, value) :: members)) ++
            (layout.newline depth ++ unit '}' :: rest))) = unit '"' :: after := by
        obtain ⟨more, joined⟩ := joinEntries_head (layout.newline (depth + 1))
          (quote key ++ unit ':' :: layout.gap ++ stringify layout (depth + 1) value)
          (stringifyMembers layout (depth + 1) members)
        have solid : isJsonSpace (unit '"') = false := by decide
        rw [skipSpace_blank (newline_blank layout _), stringifyMembers, joined, quote]
        simp only [List.cons_append, skipSpace_cons solid]
        exact ⟨_, rfl⟩
      obtain ⟨after, opened⟩ := opened
      exact readValue_object spaces formed.1 opened (by decide) read

theorem readItems_stringify (layout : Layout) (depth : Nat) :
    ∀ (item : Json) (items : List Json), WellFormedItems (item :: items) →
      ∀ (blank trailing rest : JsString) (fuel : Nat), Blank blank → Blank trailing →
      (joinEntries (layout.newline depth) (stringifyItems layout depth (item :: items))).length <
        fuel →
      readItems fuel (blank ++ (joinEntries (layout.newline depth)
        (stringifyItems layout depth (item :: items)) ++ (trailing ++ unit ']' :: rest))) =
          some (item :: items, rest)
  | _, _, _, _, _, _, 0, _, _, enough => absurd enough (Nat.not_lt_zero _)
  | item, [], formed, blank, trailing, rest, fuel + 1, leading, spaces, enough => by
      rw [stringifyItems, stringifyItems, joinEntries] at enough ⊢
      exact readItems_last spaces (readValue_stringify layout depth item formed.1 blank _ fuel
        leading (stops_closing spaces (by decide)) (by omega))
  | item, next :: items, formed, blank, trailing, rest, fuel + 1, leading, spaces, enough => by
      rw [stringifyItems, stringifyItems, joinEntries, ← stringifyItems] at enough ⊢
      simp only [List.length_append, List.length_cons] at enough
      rw [List.append_assoc, List.append_assoc, List.cons_append]
      have first := readValue_stringify layout depth item formed.1 blank
        (unit ',' :: (layout.newline depth ++ (joinEntries (layout.newline depth)
          (stringifyItems layout depth (next :: items)) ++ (trailing ++ unit ']' :: rest)))) fuel
        leading (stops_cons (by decide)) (by omega)
      have later := readItems_stringify layout depth next items formed.2 (layout.newline depth)
        trailing rest fuel (newline_blank layout _) spaces (by omega)
      exact readItems_more first later

theorem readMembers_stringify (layout : Layout) (depth : Nat) :
    ∀ (key : JsString) (value : Json) (members : List (JsString × Json)),
      WellFormedMembers ((key, value) :: members) →
      ∀ (blank trailing rest : JsString) (fuel : Nat), Blank blank → Blank trailing →
      (joinEntries (layout.newline depth)
        (stringifyMembers layout depth ((key, value) :: members))).length < fuel →
      readMembers fuel (blank ++ (joinEntries (layout.newline depth)
        (stringifyMembers layout depth ((key, value) :: members)) ++
          (trailing ++ unit '}' :: rest))) = some ((key, value) :: members, rest)
  | _, _, _, _, _, _, _, 0, _, _, enough => absurd enough (Nat.not_lt_zero _)
  | key, value, [], formed, blank, trailing, rest, fuel + 1, leading, spaces, enough => by
      rw [stringifyMembers, stringifyMembers, joinEntries] at enough ⊢
      simp only [List.length_append, List.length_cons] at enough
      rw [List.append_assoc, List.append_assoc, List.cons_append]
      exact readMembers_last leading spaces (readValue_stringify layout depth value formed.1
        layout.gap _ fuel (gap_blank layout) (stops_closing spaces (by decide)) (by omega))
  | key, value, (nextKey, next) :: members, formed, blank, trailing, rest, fuel + 1, leading,
      spaces, enough => by
      rw [stringifyMembers, stringifyMembers, joinEntries, ← stringifyMembers] at enough ⊢
      simp only [List.length_append, List.length_cons] at enough
      simp only [List.append_assoc, List.cons_append]
      have first := readValue_stringify layout depth value formed.1 layout.gap
        (unit ',' :: (layout.newline depth ++ (joinEntries (layout.newline depth)
          (stringifyMembers layout depth ((nextKey, next) :: members)) ++
            (trailing ++ unit '}' :: rest)))) fuel
        (gap_blank layout) (stops_cons (by decide)) (by omega)
      have later := readMembers_stringify layout depth nextKey next members formed.2
        (layout.newline depth) trailing rest fuel (newline_blank layout _) spaces (by omega)
      exact readMembers_more leading first later

end

/-- `JSON.parse` inverts `JSON.stringify` in every layout, white space behind it included. -/
theorem parse_stringify (layout : Layout) {value : Json} (formed : WellFormed value)
    {trailing : JsString} (spaces : Blank trailing) :
    parse (stringify layout 0 value ++ trailing) = some value := by
  have stops : Stops trailing := by
    have ends : Stops ([] : JsString) := by
      rintro u rest shape
      cases shape
    have behind := Stops.blank spaces ends
    rwa [List.append_nil] at behind
  have nothing : Blank ([] : JsString) := by
    intro u member
    cases member
  have read := readValue_stringify layout 0 value formed [] trailing
    ((stringify layout 0 value ++ trailing).length + 1) nothing stops (by
      rw [List.length_append]
      omega)
  have exhausted : skipSpace trailing = [] := by
    have skipped := skipSpace_blank spaces []
    rwa [List.append_nil] at skipped
  rw [List.nil_append] at read
  simp only [parse, read, Option.bind_eq_bind, Option.bind_some, exhausted, List.isEmpty_nil,
    if_true]
  rfl

end Values

end Kratos.Foundation.JsonText
