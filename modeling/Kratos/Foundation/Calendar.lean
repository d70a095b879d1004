/- source: none(language runtime)
   digest: Time values in milliseconds, the civil calendar and the ISO form of a date. -/

import Kratos.Foundation.JsonParser
import Mathlib.Tactic.Ring

set_option autoImplicit false

namespace Kratos.Foundation.Calendar

open Foundation.Text
open Foundation.JsonText (digitsValue)

/-- The time value of a date; an invalid date has none. -/
abbrev JsDate := Option Int

def msPerDay : Int := 86400000

/-- `TimeClip`: time values reach one hundred million days to either side of the epoch. -/
def timeClip (time : Int) : JsDate :=
  if time.natAbs ≤ 8640000000000000 then some time else none

/-- The day number of the first of January. -/
def dayFromYear (year : Int) : Int :=
  365 * (year - 1970) + (year - 1969) / 4 - (year - 1901) / 100 + (year - 1601) / 400

def yearFromDay (day : Int) : Int :=
  let year := 1970 + day * 400 / 146097
  if dayFromYear (year + 1) ≤ day then year + 1
  else if day < dayFromYear year then year - 1
  else year

def isLeapYear (year : Int) : Bool :=
  year % 4 == 0 && (year % 100 != 0 || year % 400 == 0)

/-- The days of a year before each of its months. -/
def monthStarts (leap : Bool) : List Int :=
  if leap then [0, 31, 60, 91, 121, 152, 182, 213, 244, 274, 305, 335]
  else [0, 31, 59, 90, 120, 151, 181, 212, 243, 273, 304, 334]

/-- The day number of a civil date; a day past the end of its month runs into the next. -/
def dayFromCivil (year : Int) (month date : Nat) : Int :=
  dayFromYear year + (monthStarts (isLeapYear year)).getD (month - 1) 0 + date - 1

def monthFromDay (leap : Bool) (dayWithinYear : Int) : Nat :=
  ((monthStarts leap).filter fun start => decide (start ≤ dayWithinYear)).length

def fixedDigits : Nat → Nat → JsString
  | 0, _ => []
  | width + 1, n => UInt16.ofNat (0x30 + n / 10 ^ width % 10) :: fixedDigits width n

/-- Four digits for the years they can write, a sign and six for the others. -/
def yearText (year : Int) : JsString :=
  if 0 ≤ year ∧ year ≤ 9999 then fixedDigits 4 year.toNat
  else (if year < 0 then unit '-' else unit '+') :: fixedDigits 6 year.natAbs

/-- `date.toISOString()`. -/
def toISOString (time : Int) : JsString :=
  let day := time / msPerDay
  let ms := (time % msPerDay).toNat
  let year := yearFromDay day
  let within := day - dayFromYear year
  let leap := isLeapYear year
  let month := monthFromDay leap within
  let date := (within - (monthStarts leap).getD (month - 1) 0 + 1).toNat
  yearText year ++ unit '-' :: fixedDigits 2 month ++ unit '-' :: fixedDigits 2 date ++
    unit 'T' :: fixedDigits 2 (ms / 3600000) ++ unit ':' :: fixedDigits 2 (ms / 60000 % 60) ++
    unit ':' :: fixedDigits 2 (ms / 1000 % 60) ++ unit '.' :: fixedDigits 3 (ms % 1000) ++
    [unit 'Z']

/-- A number of the given width within bounds, and the rest. -/
def readFixed (width low high : Nat) (s : JsString) : Option (Nat × JsString) :=
  let digits := s.take width
  if digits.length = width ∧ digits.all isDigit ∧ low ≤ digitsValue digits ∧
      digitsValue digits ≤ high then
    some (digitsValue digits, s.drop width)
  else none

def expect (c : Char) : JsString → Option JsString
  | [] => none
  | u :: rest => if u = unit c then some rest else none

/-- Four digits, or a sign and six; the year zero has no negative form. -/
def readYear : JsString → Option (Int × JsString)
  | [] => none
  | u :: rest =>
      if u = unit '+' then (readFixed 6 0 999999 rest).map fun (year, s) => (year, s)
      else if u = unit '-' then (readFixed 6 1 999999 rest).map fun (year, s) => (-year, s)
      else (readFixed 4 0 9999 (u :: rest)).map fun (year, s) => (year, s)

/-- The milliseconds of a fraction: its first three digits, the missing ones zero. -/
def fractionMs (digits : JsString) : Nat := digitsValue ((digits ++ js "00").take 3)

/-- What follows the seconds: an optional fraction, then the zone. -/
def readFraction (s : JsString) : Option Nat :=
  if s = js "Z" then some 0
  else do
    let s ← expect '.' s
    if s.takeWhile isDigit ≠ [] ∧ s.dropWhile isDigit = js "Z" then
      some (fractionMs (s.takeWhile isDigit))
    else none

/-- `new Date(text).getTime()` of a date and time in the coordinated zone. -/
def dateParse (s : JsString) : JsDate := do
  let (year, s) ← readYear s
  let s ← expect '-' s
  let (month, s) ← readFixed 2 1 12 s
  let s ← expect '-' s
  let (date, s) ← readFixed 2 1 31 s
  let s ← expect 'T' s
  let (hours, s) ← readFixed 2 0 23 s
  let s ← expect ':' s
  let (minutes, s) ← readFixed 2 0 59 s
  let s ← expect ':' s
  let (seconds, s) ← readFixed 2 0 59 s
  let ms ← readFraction s
  timeClip (dayFromCivil year month date * msPerDay +
    (hours * 3600000 + minutes * 60000 + seconds * 1000 + ms : Nat))

example : toISOString 951782400001 = js "2000-02-29T00:00:00.001Z" := by decide +kernel
example : dateParse (js "2000-02-29T00:00:00.001Z") = some 951782400001 := by decide +kernel

section Years

theorem dayFromYear_succ (year : Int) :
    dayFromYear (year + 1) = dayFromYear year + if isLeapYear year then 366 else 365 := by
  have leap : isLeapYear year = true ↔ year % 4 = 0 ∧ (year % 100 ≠ 0 ∨ year % 400 = 0) := by
    simp [isLeapYear]
  simp only [dayFromYear]
  split
  · rename_i held
    have cases := leap.mp held
    omega
  · rename_i held
    have cases := mt leap.mpr held
    omega

theorem yearFromDay_spec (day : Int) :
    dayFromYear (yearFromDay day) ≤ day ∧ day < dayFromYear (yearFromDay day + 1) := by
  have below : dayFromYear (1970 + day * 400 / 146097 - 1) ≤ day := by
    simp only [dayFromYear]
    omega
  have above : day < dayFromYear (1970 + day * 400 / 146097 + 1 + 1) := by
    simp only [dayFromYear]
    omega
  unfold yearFromDay
  dsimp only
  split
  · rename_i late
    exact ⟨late, above⟩
  · rename_i within
    split
    · rename_i early
      refine ⟨below, ?_⟩
      rw [Int.sub_add_cancel]
      exact early
    · rename_i started
      exact ⟨by omega, by omega⟩

/-- The place of a day in its year, as a month and the start of that month. -/
def inMonth (leap : Bool) (day : Nat) : Bool :=
  let month := monthFromDay leap day
  let start := (monthStarts leap).getD (month - 1) 0
  decide (1 ≤ month) && decide (month ≤ 12) && decide (start ≤ day) && decide (day < start + 31)

theorem inMonth_common : ∀ day < 365, inMonth false day = true := by decide +kernel

theorem inMonth_leap : ∀ day < 366, inMonth true day = true := by decide +kernel

end Years

section RoundTrip

theorem fixedDigits_length (width n : Nat) : (fixedDigits width n).length = width := by
  induction width with
  | zero => rfl
  | succ width ih => rw [fixedDigits, List.length_cons, ih]

theorem fixedDigits_digit (width n : Nat) : ∀ u ∈ fixedDigits width n, isDigit u = true := by
  have digit : ∀ d < 10, isDigit (UInt16.ofNat (0x30 + d)) = true := by decide
  induction width with
  | zero =>
      intro u member
      cases member
  | succ width ih =>
      rw [fixedDigits]
      exact List.forall_mem_cons.mpr ⟨digit _ (Nat.mod_lt _ (by decide)), ih⟩

private theorem digitsValue_foldl (digits : JsString) (start : Nat) :
    digits.foldl (fun value u => 10 * value + (u.toNat - 0x30)) start =
      start * 10 ^ digits.length + digitsValue digits := by
  induction digits generalizing start with
  | nil => simp [digitsValue]
  | cons u digits ih =>
      have tail := ih (10 * 0 + (u.toNat - 0x30))
      rw [digitsValue, List.foldl_cons, List.foldl_cons, ih, tail, List.length_cons, Nat.pow_succ]
      ring

theorem digitsValue_fixedDigits (width n : Nat) :
    digitsValue (fixedDigits width n) = n % 10 ^ width := by
  have value : ∀ d < 10, (UInt16.ofNat (0x30 + d)).toNat - 0x30 = d := by decide
  induction width with
  | zero => simp [fixedDigits, digitsValue, Nat.mod_one]
  | succ width ih =>
      rw [fixedDigits, digitsValue, List.foldl_cons, digitsValue_foldl, ih, fixedDigits_length,
        value _ (Nat.mod_lt _ (by decide)), Nat.mod_pow_succ]
      ring

theorem readFixed_fixedDigits {width low high n : Nat} (rest : JsString) (least : low ≤ n)
    (most : n ≤ high) (fits : n < 10 ^ width) :
    readFixed width low high (fixedDigits width n ++ rest) = some (n, rest) := by
  have front : (fixedDigits width n ++ rest).take width = fixedDigits width n := by
    rw [List.take_append_of_le_length (fixedDigits_length width n).ge,
      List.take_of_length_le (fixedDigits_length width n).le]
  have back : (fixedDigits width n ++ rest).drop width = rest := by
    rw [List.drop_append_of_le_length (fixedDigits_length width n).ge,
      List.drop_of_length_le (fixedDigits_length width n).le, List.nil_append]
  have value := digitsValue_fixedDigits width n
  rw [Nat.mod_eq_of_lt fits] at value
  have digits : (fixedDigits width n).all isDigit = true :=
    List.all_eq_true.mpr (fixedDigits_digit width n)
  rw [readFixed, front, back, value, if_pos ⟨fixedDigits_length width n, digits, least, most⟩]

theorem expect_cons (c : Char) (rest : JsString) : expect c (unit c :: rest) = some rest := by
  rw [expect, if_pos rfl]

theorem digits_zone (width n : Nat) :
    (fixedDigits width n ++ [unit 'Z']).takeWhile isDigit = fixedDigits width n ∧
      (fixedDigits width n ++ [unit 'Z']).dropWhile isDigit = js "Z" := by
  have zone : isDigit (unit 'Z') = false := by decide
  constructor
  · rw [List.takeWhile_append_of_pos (fixedDigits_digit width n)]
    simp [zone]
  · rw [List.dropWhile_append_of_pos (fixedDigits_digit width n)]
    simp [zone]
    rfl

theorem readFraction_fixedDigits {n : Nat} (small : n < 1000) :
    readFraction (unit '.' :: (fixedDigits 3 n ++ [unit 'Z'])) = some n := by
  have different : unit '.' :: (fixedDigits 3 n ++ [unit 'Z']) ≠ js "Z" := by
    intro same
    cases (List.cons.inj same).1
  obtain ⟨digits, after⟩ := digits_zone 3 n
  have filled : fixedDigits 3 n ≠ [] := List.cons_ne_nil _ _
  have value : fractionMs (fixedDigits 3 n) = n := by
    rw [fractionMs, List.take_append_of_le_length (fixedDigits_length 3 n).ge,
      List.take_of_length_le (fixedDigits_length 3 n).le, digitsValue_fixedDigits]
    omega
  rw [readFraction, if_neg different]
  simp only [expect_cons, Option.bind_eq_bind, Option.bind_some, digits, after, value]
  rw [if_pos ⟨filled, trivial⟩]

def yearOf (time : Int) : Int := yearFromDay (time / msPerDay)

theorem within_year (time : Int) :
    ∃ day : Nat, time / msPerDay - dayFromYear (yearOf time) = day ∧
      inMonth (isLeapYear (yearOf time)) day = true := by
  obtain ⟨started, ends⟩ := yearFromDay_spec (time / msPerDay)
  rw [dayFromYear_succ] at ends
  have lower : dayFromYear (yearOf time) ≤ time / msPerDay := started
  have upper : time / msPerDay < dayFromYear (yearOf time) +
      if isLeapYear (yearOf time) then 366 else 365 := ends
  obtain ⟨day, place⟩ := Int.eq_ofNat_of_zero_le (Int.sub_nonneg_of_le lower)
  refine ⟨day, place, ?_⟩
  cases leap : isLeapYear (yearOf time) with
  | true =>
      rw [leap, if_pos rfl] at upper
      exact inMonth_leap day (by omega)
  | false =>
      rw [leap, if_neg Bool.false_ne_true] at upper
      exact inMonth_common day (by omega)

private theorem yearOf_bounds {time : Int} (clipped : time.natAbs ≤ 8640000000000000) :
    -999999 ≤ yearOf time ∧ yearOf time ≤ 999999 := by
  obtain ⟨started, ends⟩ := yearFromDay_spec (time / msPerDay)
  have perDay : msPerDay = 86400000 := rfl
  simp only [yearOf, dayFromYear, perDay] at started ends ⊢
  omega

theorem readYear_yearText {year : Int} (least : -999999 ≤ year) (most : year ≤ 999999)
    (rest : JsString) : readYear (yearText year ++ rest) = some (year, rest) := by
  unfold yearText
  by_cases short : 0 ≤ year ∧ year ≤ 9999
  · rw [if_pos short]
    have digit := fixedDigits_digit 4 year.toNat
    have read : readFixed 4 0 9999 (fixedDigits 4 year.toNat ++ rest) = some (year.toNat, rest) :=
      readFixed_fixedDigits rest (by omega) (by omega) (by omega)
    have value : (year.toNat : Int) = year := Int.toNat_of_nonneg short.1
    rw [fixedDigits, List.forall_mem_cons] at digit
    rw [fixedDigits, List.cons_append] at read ⊢
    rw [readYear, if_neg, if_neg, read]
    · simp only [Option.map_some, value]
    · intro minus
      rw [minus] at digit
      exact absurd digit.1 (by decide)
    · intro plus
      rw [plus] at digit
      exact absurd digit.1 (by decide)
  · rw [if_neg short, List.cons_append]
    by_cases negative : year < 0
    · have read : readFixed 6 1 999999 (fixedDigits 6 year.natAbs ++ rest) =
          some (year.natAbs, rest) :=
        readFixed_fixedDigits rest (by omega) (by omega) (by omega)
      have value : -(year.natAbs : Int) = year := by omega
      rw [if_pos negative, readYear, if_neg (by decide), if_pos rfl, read]
      simp only [Option.map_some, value]
    · have read : readFixed 6 0 999999 (fixedDigits 6 year.natAbs ++ rest) =
          some (year.natAbs, rest) :=
        readFixed_fixedDigits rest (by omega) (by omega) (by omega)
      have value : (year.natAbs : Int) = year := by omega
      rw [if_neg negative, readYear, if_pos rfl, read]
      simp only [Option.map_some, value]

theorem toISOString_fields {time : Int} (least : 0 ≤ yearOf time) (most : yearOf time ≤ 9999) :
    ∃ year month date hours minutes seconds ms : Nat,
      (1 ≤ month ∧ month ≤ 12) ∧ (1 ≤ date ∧ date ≤ 31) ∧ hours ≤ 23 ∧ minutes ≤ 59 ∧
        seconds ≤ 59 ∧ toISOString time =
          fixedDigits 4 year ++ unit '-' :: (fixedDigits 2 month ++ unit '-' ::
            (fixedDigits 2 date ++ unit 'T' :: (fixedDigits 2 hours ++ unit ':' ::
              (fixedDigits 2 minutes ++ unit ':' :: (fixedDigits 2 seconds ++ unit '.' ::
                (fixedDigits 3 ms ++ [unit 'Z'])))))) := by
  obtain ⟨day, place, inside⟩ := within_year time
  simp only [inMonth, Bool.and_eq_true, decide_eq_true_eq] at inside
  obtain ⟨⟨⟨firstMonth, lastMonth⟩, started⟩, ends⟩ := inside
  have msMost : time % msPerDay < msPerDay := Int.emod_lt_of_pos _ (by decide)
  have perDay : msPerDay = 86400000 := rfl
  obtain ⟨ms, msValue⟩ := Int.eq_ofNat_of_zero_le (Int.emod_nonneg time (by decide : msPerDay ≠ 0))
  unfold toISOString
  simp only
  rw [show yearFromDay (time / msPerDay) = yearOf time from rfl, place, yearText,
    if_pos ⟨least, most⟩, msValue]
  simp only [List.append_assoc, List.cons_append]
  refine ⟨_, _, _, _, _, _, _, ⟨firstMonth, lastMonth⟩, ⟨?_, ?_⟩, ?_, ?_, ?_, rfl⟩
  all_goals omega

theorem dateParse_toISOString {time : Int} (clipped : time.natAbs ≤ 8640000000000000) :
    dateParse (toISOString time) = some time := by
  obtain ⟨day, place, inside⟩ := within_year time
  simp only [inMonth, Bool.and_eq_true, decide_eq_true_eq] at inside
  obtain ⟨⟨⟨firstMonth, lastMonth⟩, started⟩, ends⟩ := inside
  obtain ⟨least, most⟩ := yearOf_bounds clipped
  have perDay : msPerDay = 86400000 := rfl
  have split := Int.mul_ediv_add_emod time msPerDay
  have msMost : time % msPerDay < msPerDay := Int.emod_lt_of_pos _ (by decide)
  obtain ⟨ms, msValue⟩ := Int.eq_ofNat_of_zero_le (Int.emod_nonneg time (by decide : msPerDay ≠ 0))
  have msBound : ms < 86400000 := by omega
  unfold toISOString
  simp only
  rw [show yearFromDay (time / msPerDay) = yearOf time from rfl, place]
  simp only [msValue, Int.toNat_natCast, List.append_assoc, List.cons_append]
  generalize monthAt : monthFromDay (isLeapYear (yearOf time)) day = month at *
  generalize startAt : (monthStarts (isLeapYear (yearOf time))).getD (month - 1) 0 = start at *
  simp only [dateParse, Option.bind_eq_bind]
  rw [readYear_yearText least most]
  simp only [Option.bind_some, expect_cons]
  rw [readFixed_fixedDigits _ firstMonth lastMonth (by omega)]
  simp only [Option.bind_some, expect_cons]
  rw [readFixed_fixedDigits _ (by omega) (by omega) (by omega)]
  simp only [Option.bind_some, expect_cons]
  rw [readFixed_fixedDigits _ (by omega) (by omega) (by omega)]
  simp only [Option.bind_some, expect_cons]
  rw [readFixed_fixedDigits _ (by omega) (by omega) (by omega)]
  simp only [Option.bind_some, expect_cons]
  rw [readFixed_fixedDigits _ (by omega) (by omega) (by omega)]
  simp only [Option.bind_some, readFraction_fixedDigits (Nat.mod_lt ms (by decide)), dayFromCivil]
  have dayAt : dayFromYear (yearOf time) + start + ((day : Int) - start + 1) - 1 =
      time / msPerDay := by omega
  rw [startAt, Int.toNat_of_nonneg (by omega), dayAt, perDay]
  rw [msValue, perDay] at split
  have whole : time / 86400000 * 86400000 + ((ms / 3600000 * 3600000 + ms / 60000 % 60 * 60000 +
      ms / 1000 % 60 * 1000 + ms % 1000 : Nat) : Int) = time := by omega
  rw [whole, timeClip, if_pos clipped]

end RoundTrip

end Kratos.Foundation.Calendar
