/- source: schemas/state
   digest: The timestamps of the contracts are instants the language runtime reads. -/

import Kratos.Patterns
import Kratos.Foundation.Dates

set_option autoImplicit false

namespace Kratos.Patterns

open Foundation.Text Foundation.Calendar
open Foundation.JsonText (digitsValue)

section Written

theorem twoDigits_fixedDigits {low high n : Nat} (least : low ≤ n) (most : n ≤ high)
    (small : n < 100) (rest : JsString) : twoDigits low high (fixedDigits 2 n ++ rest) = some rest := by
  have digit : ∀ d < 10, isDigit (UInt16.ofNat (0x30 + d)) = true := by decide
  have value : ∀ d < 10, (UInt16.ofNat (0x30 + d)).toNat - 0x30 = d := by decide
  have tens : n / 10 ^ 1 % 10 < 10 := Nat.mod_lt _ (by decide)
  have ones : n / 10 ^ 0 % 10 < 10 := Nat.mod_lt _ (by decide)
  have whole : n / 10 ^ 1 % 10 * 10 + n / 10 ^ 0 % 10 = n := by omega
  simp only [fixedDigits, List.cons_append, List.nil_append, twoDigits, digit _ tens, digit _ ones,
    value _ tens, value _ ones, whole, decide_eq_true least, decide_eq_true most, Bool.and_self, if_true]

theorem literal_cons (c : Char) (rest : JsString) : literal [unit c] (unit c :: rest) = some rest := by
  have begins : startsWith (unit c :: rest) [unit c] = true := startsWith_append [unit c] rest
  rw [literal, if_pos begins]
  rfl

theorem fixedDigits_century (year : Nat) (rest : JsString) : fixedDigits 4 year ++ rest =
    fixedDigits 2 (year / 100 % 100) ++ (fixedDigits 2 (year % 100) ++ rest) := by
  have thousands : year / 10 ^ 3 % 10 = year / 100 % 100 / 10 ^ 1 % 10 := by omega
  have hundreds : year / 10 ^ 2 % 10 = year / 100 % 100 / 10 ^ 0 % 10 := by omega
  have tens : year / 10 ^ 1 % 10 = year % 100 / 10 ^ 1 % 10 := by omega
  have ones : year / 10 ^ 0 % 10 = year % 100 / 10 ^ 0 % 10 := by omega
  simp only [fixedDigits, List.cons_append, List.nil_append, thousands, hundreds, tens, ones]

end Written

section Read

variable {low high : Nat} {s rest : JsString}

theorem twoDigits_some (read : twoDigits low high s = some rest) :
    ∃ tens ones, s = tens :: ones :: rest ∧ isDigit tens = true ∧ isDigit ones = true ∧
      low ≤ digitsValue [tens, ones] ∧ digitsValue [tens, ones] ≤ high := by
  cases s with
  | nil => cases read
  | cons tens s =>
      cases s with
      | nil => cases read
      | cons ones s =>
          simp only [twoDigits, Option.ite_none_right_eq_some, Bool.and_eq_true, decide_eq_true_eq,
            Option.some.injEq] at read
          obtain ⟨⟨⟨⟨first, second⟩, least⟩, most⟩, rfl⟩ := read
          have value : digitsValue [tens, ones] =
              (tens.toNat - 0x30) * 10 + (ones.toNat - 0x30) := by
            simp only [digitsValue, List.foldl_cons, List.foldl_nil]
            omega
          rw [← value] at least most
          exact ⟨tens, ones, rfl, first, second, least, most⟩

theorem readFixed_of_twoDigits (read : twoDigits low high s = some rest) :
    ∃ n, n ≤ high ∧ readFixed 2 low high s = some (n, rest) := by
  obtain ⟨tens, ones, rfl, first, second, least, most⟩ := twoDigits_some read
  refine ⟨_, most, if_pos ⟨rfl, ?_, least, most⟩⟩
  simp [first, second]

theorem expect_of_literal {c : Char} (read : literal [unit c] s = some rest) :
    expect c s = some rest := by
  simp only [literal, Option.ite_none_right_eq_some, Option.some.injEq] at read
  obtain ⟨begins, rfl⟩ := read
  obtain ⟨tail, rfl⟩ := (startsWith_iff s [unit c]).mp begins
  exact expect_cons c tail

theorem readYear_of_twoDigits {middle : JsString} (century : twoDigits 0 99 s = some middle)
    (within : twoDigits 0 99 middle = some rest) :
    ∃ year : Nat, year ≤ 9999 ∧ readYear s = some ((year : Int), rest) := by
  obtain ⟨a, b, rfl, aDigit, bDigit, -, -⟩ := twoDigits_some century
  obtain ⟨c, d, rfl, cDigit, dDigit, -, -⟩ := twoDigits_some within
  have plus : a ≠ unit '+' := fun same => absurd aDigit (by rw [same]; decide)
  have minus : a ≠ unit '-' := fun same => absurd aDigit (by rw [same]; decide)
  have digitBound : ∀ u, isDigit u = true → u.toNat - 0x30 ≤ 9 := by
    intro u digit
    simp only [isDigit, between, Bool.and_eq_true, decide_eq_true_eq] at digit
    have most : u.toNat ≤ 0x39 := digit.2
    omega
  have most : digitsValue [a, b, c, d] ≤ 9999 := by
    have first := digitBound a aDigit
    have second := digitBound b bDigit
    have third := digitBound c cDigit
    have fourth := digitBound d dDigit
    simp only [digitsValue, List.foldl_cons, List.foldl_nil]
    omega
  refine ⟨digitsValue [a, b, c, d], most, ?_⟩
  have read : readFixed 4 0 9999 (a :: b :: c :: d :: rest) =
      some (digitsValue [a, b, c, d], rest) := by
    refine if_pos ⟨rfl, ?_, Nat.zero_le _, most⟩
    simp [aDigit, bDigit, cDigit, dDigit]
  rw [readYear, if_neg plus, if_neg minus, read]
  rfl

theorem readFraction_of_secondFraction (valid : secondFraction s = true) :
    ∃ ms, ms ≤ 999 ∧ readFraction s = some ms := by
  by_cases whole : s = js "Z"
  · exact ⟨0, by omega, if_pos whole⟩
  · simp only [secondFraction, beq_eq_false_iff_ne.mpr whole, Bool.false_or, Bool.and_eq_true,
      decide_eq_true_eq, beq_iff_eq] at valid
    obtain ⟨⟨⟨dot, least⟩, -⟩, zone⟩ := valid
    obtain ⟨tail, rfl⟩ := (startsWith_iff s (js ".")).mp dot
    have filled : tail.takeWhile isDigit ≠ [] := List.ne_nil_of_length_pos least
    refine ⟨fractionMs (tail.takeWhile isDigit), ?_, ?_⟩
    · have digits : ∀ u ∈ (tail.takeWhile isDigit ++ js "00").take 3, u.toNat - 0x30 ≤ 9 := by
        intro u member
        have digit : isDigit u = true := by
          rcases List.mem_append.mp (List.mem_of_mem_take member) with front | back
          · exact List.all_eq_true.mp List.all_takeWhile u front
          · have zeros : ∀ v ∈ js "00", isDigit v = true := by decide
            exact zeros u back
        simp only [isDigit, between, Bool.and_eq_true, decide_eq_true_eq] at digit
        have most : u.toNat ≤ 0x39 := digit.2
        omega
      have short : ((tail.takeWhile isDigit ++ js "00").take 3).length ≤ 3 := List.length_take_le ..
      rw [fractionMs]
      generalize (tail.takeWhile isDigit ++ js "00").take 3 = three at digits short
      rcases three with _ | ⟨a, _ | ⟨b, _ | ⟨c, _ | ⟨d, more⟩⟩⟩⟩
      · decide
      · have first := digits a (by simp)
        simp only [digitsValue, List.foldl_cons, List.foldl_nil]
        omega
      · have first := digits a (by simp)
        have second := digits b (by simp)
        simp only [digitsValue, List.foldl_cons, List.foldl_nil]
        omega
      · have first := digits a (by simp)
        have second := digits b (by simp)
        have third := digits c (by simp)
        simp only [digitsValue, List.foldl_cons, List.foldl_nil]
        omega
      · simp only [List.length_cons] at short
        omega
    · rw [readFraction, if_neg whole]
      have after : expect '.' (js "." ++ tail) = some tail := expect_cons '.' tail
      simp only [after, Option.bind_eq_bind, Option.bind_some]
      exact if_pos ⟨filled, zone⟩

end Read

theorem dateParse_of_timestamp {s : JsString} (valid : timestampPattern s = true) :
    ∃ time, dateParse s = some time := by
  simp only [timestampPattern, beq_iff_eq, Option.bind_eq_bind, Option.bind_eq_some_iff,
    Option.pure_def, Option.some.injEq] at valid
  obtain ⟨s1, century, s2, within, s3, dash, s4, inMonth, s5, dash', s6, inDate, s7, clock, s8,
    hour, s9, colon, s10, minute, s11, colon', s12, second, last⟩ := valid
  obtain ⟨year, yearMost, yearRead⟩ := readYear_of_twoDigits century within
  obtain ⟨month, monthMost, monthRead⟩ := readFixed_of_twoDigits inMonth
  obtain ⟨date, dateMost, dateRead⟩ := readFixed_of_twoDigits inDate
  obtain ⟨hours, hoursMost, hoursRead⟩ := readFixed_of_twoDigits hour
  obtain ⟨minutes, minutesMost, minutesRead⟩ := readFixed_of_twoDigits minute
  obtain ⟨seconds, secondsMost, secondsRead⟩ := readFixed_of_twoDigits second
  obtain ⟨ms, msMost, msRead⟩ := readFraction_of_secondFraction last
  have starts : ∀ leap : Bool, ∀ index < 12, 0 ≤ (monthStarts leap).getD index 0 ∧
      (monthStarts leap).getD index 0 ≤ 335 := by decide
  have start := starts (isLeapYear year) (month - 1) (by omega)
  have dashRead : expect '-' s2 = some s3 := expect_of_literal dash
  have dashRead' : expect '-' s4 = some s5 := expect_of_literal dash'
  have clockRead : expect 'T' s6 = some s7 := expect_of_literal clock
  have colonRead : expect ':' s8 = some s9 := expect_of_literal colon
  have colonRead' : expect ':' s10 = some s11 := expect_of_literal colon'
  simp only [dateParse, Option.bind_eq_bind, yearRead, Option.bind_some, dashRead, monthRead,
    dashRead', dateRead, clockRead, hoursRead, colonRead, minutesRead, colonRead', secondsRead,
    msRead]
  refine ⟨_, if_pos ?_⟩
  have perDay : msPerDay = 86400000 := rfl
  simp only [dayFromCivil, dayFromYear, perDay]
  omega

end Kratos.Patterns
