/- source: none(language runtime)
   digest: What a parsed text holds is a value of the language. -/

import Kratos.Foundation.JsonParser

set_option autoImplicit false

namespace Kratos.Foundation.JsonText

open Foundation.Text

section Literals

/-- A text that does not go on with a digit. -/
private def EndsDigits (text : JsString) : Prop := ∀ u rest, text = u :: rest → isDigit u = false

private theorem takeWhile_digits {digits rest : JsString} (all : ∀ u ∈ digits, isDigit u = true)
    (ends : EndsDigits rest) :
    (digits ++ rest).takeWhile isDigit = digits ∧ (digits ++ rest).dropWhile isDigit = rest := by
  rw [List.takeWhile_append_of_pos all, List.dropWhile_append_of_pos all]
  cases rest with
  | nil => simp
  | cons u rest => simp [ends u rest rfl]

private theorem takeWhile_all (text : JsString) : ∀ u ∈ text.takeWhile isDigit, isDigit u = true :=
  fun _ member => List.mem_takeWhile_imp member

private theorem mark_plain {u : CodeUnit} (marked : (u == unit 'e' || u == unit 'E') = true) :
    isDigit u = false ∧ (u == unit '.') = false ∧ (u == unit '-') = false := by
  simp only [Bool.or_eq_true, beq_iff_eq] at marked
  rcases marked with rfl | rfl
  · decide
  · decide

private theorem readExponent_again {text exponent tail : JsString}
    (read : readExponent text = some (exponent, tail)) :
    readExponent exponent = some (exponent, []) ∧
      (exponent = [] ∨ ∃ u rest, exponent = u :: rest ∧ (u == unit 'e' || u == unit 'E') = true) := by
  cases text with
  | nil =>
      obtain ⟨rfl, -⟩ := Prod.mk.inj (Option.some.inj read)
      exact ⟨rfl, .inl rfl⟩
  | cons u text =>
      by_cases marked : (u == unit 'e' || u == unit 'E') = true
      · rw [readExponent, if_pos marked] at read
        by_cases empty : ((readSign text).2.takeWhile isDigit).isEmpty = true
        · rw [if_pos empty] at read
          cases read
        · rw [if_neg empty] at read
          obtain ⟨rfl, -⟩ := Prod.mk.inj (Option.some.inj read)
          refine ⟨?_, .inr ⟨u, _, rfl, marked⟩⟩
          have none : EndsDigits [] := by rintro _ _ ⟨⟩
          have whole := takeWhile_digits (takeWhile_all (readSign text).2) none
          rw [List.append_nil] at whole
          have sign : readSign ((readSign text).1 ++ (readSign text).2.takeWhile isDigit) =
              ((readSign text).1, (readSign text).2.takeWhile isDigit) := by
            cases text with
            | nil => rfl
            | cons v text =>
                by_cases signed : (v == unit '+' || v == unit '-') = true
                · simp only [readSign, if_pos signed, List.singleton_append]
                · simp only [readSign, if_neg signed, List.nil_append]
                  simp only [readSign, if_neg signed] at empty
                  by_cases digit : isDigit v = true
                  · rw [List.takeWhile_cons_of_pos digit]
                    simp only [if_neg signed]
                  · rw [List.takeWhile_cons_of_neg digit] at empty
                    exact absurd rfl empty
          rw [List.cons_append, readExponent, if_pos marked, sign]
          simp only [whole.1, whole.2, if_neg empty]
          rfl
      · rw [readExponent, if_neg marked] at read
        obtain ⟨rfl, -⟩ := Prod.mk.inj (Option.some.inj read)
        exact ⟨rfl, .inl rfl⟩

private theorem readFraction_again {text fraction after exponent : JsString}
    (read : readFraction text = some (fraction, after))
    (marked : exponent = [] ∨
      ∃ u rest, exponent = u :: rest ∧ (u == unit 'e' || u == unit 'E') = true) :
    readFraction (fraction ++ exponent) = some (fraction, exponent) ∧
      EndsDigits (fraction ++ exponent) := by
  have ends : EndsDigits exponent := by
    rintro v rest shape
    rcases marked with rfl | ⟨u, more, rfl, mark⟩
    · cases shape
    · obtain ⟨rfl, -⟩ := List.cons.inj shape
      exact (mark_plain mark).1
  have absent : readFraction ([] ++ exponent) = some ([], exponent) := by
    rcases marked with rfl | ⟨u, more, rfl, mark⟩
    · rfl
    · rw [List.nil_append, readFraction, (mark_plain mark).2.1, if_neg (by decide)]
  cases text with
  | nil =>
      obtain ⟨rfl, -⟩ := Prod.mk.inj (Option.some.inj read)
      exact ⟨absent, ends⟩
  | cons u text =>
      by_cases point : (u == unit '.') = true
      · rw [readFraction, if_pos point] at read
        by_cases empty : (text.takeWhile isDigit).isEmpty = true
        · rw [if_pos empty] at read
          cases read
        · rw [if_neg empty] at read
          obtain ⟨rfl, -⟩ := Prod.mk.inj (Option.some.inj read)
          obtain ⟨digits, behind⟩ := takeWhile_digits (takeWhile_all text) ends
          constructor
          · rw [List.cons_append, readFraction, if_pos point, digits, behind, if_neg empty]
          · rintro v rest shape
            obtain ⟨rfl, -⟩ := List.cons.inj shape
            obtain rfl := beq_iff_eq.mp point
            decide
      · rw [readFraction, if_neg point] at read
        obtain ⟨rfl, -⟩ := Prod.mk.inj (Option.some.inj read)
        exact ⟨absent, ends⟩

theorem readNumber_again {text literal tail : JsString}
    (read : readNumber text = some (.double literal, tail)) :
    readNumber literal = some (.double literal, []) := by
  obtain ⟨fraction, after, exponent, valid, first, second, whole, rfl⟩ := readNumber_double read
  obtain ⟨exponentAgain, marked⟩ := readExponent_again second
  obtain ⟨fractionAgain, ends⟩ := readFraction_again first marked
  generalize (readMinus text).1 = negative at *
  generalize split : (readMinus text).2.takeWhile isDigit = digits at *
  have all : ∀ u ∈ digits, isDigit u = true := split ▸ takeWhile_all _
  obtain ⟨digitsAgain, behind⟩ := takeWhile_digits all ends
  have minus : readMinus ((if negative then js "-" else []) ++ digits ++ fraction ++ exponent) =
      (negative, digits ++ (fraction ++ exponent)) := by
    cases negative with
    | true => simp [readMinus, js, unitsOfChar, unit]
    | false =>
        cases digits with
        | nil => cases valid
        | cons u rest =>
            have digit := all u List.mem_cons_self
            have plain : (u == unit '-') = false := by
              apply beq_eq_false_iff_ne.mpr
              rintro rfl
              exact absurd digit (by decide)
            simp [readMinus, plain]
  simp only [readNumber, minus, digitsAgain, behind, valid, if_true, fractionAgain, exponentAgain,
    Option.bind_eq_bind, Option.bind_some, whole, Bool.false_eq_true, if_false]
  rfl

end Literals

section Values

private theorem setMember_wellFormed {members : List (JsString × Json)} {key : JsString} {value : Json}
    (distinct : (members.map Prod.fst).Nodup) (formed : WellFormedMembers members)
    (valued : WellFormed value) :
    ((setMember members key value).map Prod.fst).Nodup ∧
      WellFormedMembers (setMember members key value) := by
  rw [wellFormedMembers_iff] at formed ⊢
  by_cases fresh : key ∈ members.map Prod.fst
  · rw [setMember, if_pos (by simpa using fresh)]
    constructor
    · have keys : (members.map fun member => if member.1 == key then (key, value) else member).map
          Prod.fst = members.map Prod.fst := by
        rw [List.map_map]
        apply List.map_congr_left
        intro member _
        by_cases same : member.1 = key
        · simp [same]
        · simp [same]
      rwa [keys]
    · intro member listed
      obtain ⟨other, present, rfl⟩ := List.mem_map.mp listed
      split
      · exact valued
      · exact formed other present
  · rw [setMember_fresh fresh]
    constructor
    · rw [List.map_append, List.map_singleton]
      rw [← List.concat_eq_append]
      exact (List.nodup_concat _ _).mpr ⟨fresh, distinct⟩
    · intro member listed
      rcases List.mem_append.mp listed with old | new
      · exact formed member old
      · rw [List.mem_singleton.mp new]
        exact valued

private theorem assignMembers_wellFormed {members : List (JsString × Json)}
    (formed : WellFormedMembers members) : WellFormed (.object (assignMembers members)) := by
  have run : ∀ (rest front : List (JsString × Json)), (front.map Prod.fst).Nodup →
      WellFormedMembers front → WellFormedMembers rest →
        WellFormed (.object (rest.foldl (fun object member => setMember object member.1 member.2)
          front)) := by
    intro rest
    induction rest with
    | nil =>
        intro front distinct formed _
        rw [List.foldl_nil, WellFormed]
        exact ⟨distinct, formed⟩
    | cons member rest ih =>
        intro front distinct formed later
        rw [WellFormedMembers] at later
        obtain ⟨next, valued⟩ := setMember_wellFormed distinct formed later.1
        exact ih _ next valued later.2
  exact run members [] List.nodup_nil (by rw [WellFormedMembers]; trivial) formed

private theorem readNumber_wellFormed {text tail : JsString} {value : Json}
    (read : readNumber text = some (value, tail)) : WellFormed value := by
  have kept := read
  unfold readNumber at read
  by_cases valid : validInteger ((readMinus text).2.takeWhile isDigit) = true
  · simp only [valid, if_true] at read
    obtain ⟨⟨fraction, after⟩, -, read⟩ := Option.bind_eq_some_iff.mp read
    obtain ⟨⟨exponent, last⟩, -, read⟩ := Option.bind_eq_some_iff.mp read
    simp only at read
    split at read
    · rename_i whole
      obtain ⟨rfl, -⟩ := Prod.mk.inj (Option.some.inj read)
      rw [Bool.and_eq_true] at whole
      have safe := whole.2
      rw [WellFormed]
      cases (readMinus text).1 with
      | true => simpa [signed, isSafeInteger] using safe
      | false => simpa [signed, isSafeInteger] using safe
    · obtain ⟨rfl, -⟩ := Prod.mk.inj (Option.some.inj read)
      rw [WellFormed]
      exact readNumber_again kept
  · simp only [valid] at read
    cases read

private theorem readScalar_wellFormed {text tail : JsString} {value : Json}
    (read : readScalar text = some (value, tail)) : WellFormed value := by
  rw [readScalar] at read
  split at read
  · obtain ⟨rfl, -⟩ := Prod.mk.inj (Option.some.inj read)
    simp [WellFormed]
  split at read
  · obtain ⟨rfl, -⟩ := Prod.mk.inj (Option.some.inj read)
    simp [WellFormed]
  split at read
  · obtain ⟨rfl, -⟩ := Prod.mk.inj (Option.some.inj read)
    simp [WellFormed]
  exact readNumber_wellFormed read

private theorem read_wellFormed (fuel : Nat) :
    (∀ text value rest, readValue fuel text = some (value, rest) → WellFormed value) ∧
      (∀ text items rest, readItems fuel text = some (items, rest) → WellFormedItems items) ∧
      ∀ text members rest, readMembers fuel text = some (members, rest) →
        WellFormedMembers members := by
  induction fuel with
  | zero =>
      refine ⟨fun text value rest read => ?_, fun text items rest read => ?_,
        fun text members rest read => ?_⟩
      · rw [readValue] at read
        cases read
      · rw [readItems] at read
        cases read
      · rw [readMembers] at read
        cases read
  | succ fuel ih =>
      obtain ⟨values, itemLists, memberLists⟩ := ih
      refine ⟨fun text value rest read => ?_, fun text items rest read => ?_,
        fun text members rest read => ?_⟩
      · rw [readValue] at read
        split at read
        · cases read
        split at read
        · obtain ⟨⟨content, after⟩, -, read⟩ := Option.bind_eq_some_iff.mp read
          obtain ⟨rfl, -⟩ := Prod.mk.inj (Option.some.inj read)
          simp [WellFormed]
        split at read
        · split at read
          · cases read
          split at read
          · obtain ⟨rfl, -⟩ := Prod.mk.inj (Option.some.inj read)
            simp [WellFormed, WellFormedItems]
          · obtain ⟨⟨items, after⟩, inner, read⟩ := Option.bind_eq_some_iff.mp read
            obtain ⟨rfl, -⟩ := Prod.mk.inj (Option.some.inj read)
            rw [WellFormed]
            exact itemLists _ _ _ inner
        split at read
        · split at read
          · cases read
          split at read
          · obtain ⟨rfl, -⟩ := Prod.mk.inj (Option.some.inj read)
            simp [WellFormed, WellFormedMembers]
          · obtain ⟨⟨members, after⟩, inner, read⟩ := Option.bind_eq_some_iff.mp read
            obtain ⟨rfl, -⟩ := Prod.mk.inj (Option.some.inj read)
            exact assignMembers_wellFormed (memberLists _ _ _ inner)
        · exact readScalar_wellFormed read
      · rw [readItems] at read
        obtain ⟨⟨item, after⟩, inner, read⟩ := Option.bind_eq_some_iff.mp read
        simp only at read
        split at read
        · cases read
        split at read
        · obtain ⟨⟨items, last⟩, later, read⟩ := Option.bind_eq_some_iff.mp read
          obtain ⟨rfl, -⟩ := Prod.mk.inj (Option.some.inj read)
          rw [WellFormedItems]
          exact ⟨values _ _ _ inner, itemLists _ _ _ later⟩
        split at read
        · obtain ⟨rfl, -⟩ := Prod.mk.inj (Option.some.inj read)
          rw [WellFormedItems, WellFormedItems]
          exact ⟨values _ _ _ inner, trivial⟩
        · cases read
      · rw [readMembers] at read
        split at read
        · cases read
        split at read
        · obtain ⟨⟨key, after⟩, -, read⟩ := Option.bind_eq_some_iff.mp read
          simp only at read
          split at read
          · cases read
          split at read
          · obtain ⟨⟨value, behind⟩, inner, read⟩ := Option.bind_eq_some_iff.mp read
            simp only at read
            split at read
            · cases read
            split at read
            · obtain ⟨⟨members, last⟩, later, read⟩ := Option.bind_eq_some_iff.mp read
              obtain ⟨rfl, -⟩ := Prod.mk.inj (Option.some.inj read)
              rw [WellFormedMembers]
              exact ⟨values _ _ _ inner, memberLists _ _ _ later⟩
            split at read
            · obtain ⟨rfl, -⟩ := Prod.mk.inj (Option.some.inj read)
              rw [WellFormedMembers, WellFormedMembers]
              exact ⟨values _ _ _ inner, trivial⟩
            · cases read
          · cases read
        · cases read

theorem wellFormed_parse {text : JsString} {value : Json} (parsed : parse text = some value) :
    WellFormed value := by
  obtain ⟨⟨found, rest⟩, read, done⟩ := Option.bind_eq_some_iff.mp parsed
  simp only at done
  split at done
  · obtain rfl := Option.some.inj done
    exact (read_wellFormed _).1 _ _ _ read
  · cases done

end Values

end Kratos.Foundation.JsonText
