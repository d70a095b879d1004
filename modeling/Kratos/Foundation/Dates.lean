/- source: none(language runtime)
   digest: The days of the civil calendar, their ISO dates and their midnights. -/

import Kratos.Foundation.Calendar

set_option autoImplicit false

namespace Kratos.Foundation.Dates

open Foundation.Text Foundation.Calendar

/-- A day in a year of four digits. -/
structure CalendarDay where
  number : Int
  least : 0 ≤ yearFromDay number
  most : yearFromDay number ≤ 9999

def CalendarDay.midnight (day : CalendarDay) : Int := day.number * msPerDay

/-- `YYYY-MM-DD`. -/
def dateText (year month date : Nat) : JsString :=
  fixedDigits 4 year ++ unit '-' :: (fixedDigits 2 month ++ unit '-' :: fixedDigits 2 date)

/-- The date a day has: the front of its ISO form. -/
def CalendarDay.text (day : CalendarDay) : JsString := (toISOString day.midnight).take 10

theorem dateText_length (year month date : Nat) : (dateText year month date).length = 10 := by
  simp only [dateText, List.length_append, List.length_cons, fixedDigits_length]

/-- The fields of a day. -/
structure Fields (day : CalendarDay) (year month date : Nat) : Prop where
  yearFits : year ≤ 9999
  monthFits : 1 ≤ month ∧ month ≤ 12
  dateFits : 1 ≤ date ∧ date ≤ 31
  civil : dayFromCivil year month date = day.number
  iso : toISOString day.midnight = dateText year month date ++ js "T00:00:00.000Z"

theorem CalendarDay.fields (day : CalendarDay) : ∃ year month date, Fields day year month date := by
  have perDay : msPerDay = 86400000 := rfl
  have whole : day.midnight / msPerDay = day.number := by
    rw [CalendarDay.midnight, perDay]
    omega
  have rest : day.midnight % msPerDay = 0 := by
    rw [CalendarDay.midnight, perDay]
    omega
  have sameYear : yearOf day.midnight = yearFromDay day.number := by rw [yearOf, whole]
  obtain ⟨within, place, inside⟩ := within_year day.midnight
  rw [sameYear, whole] at place
  rw [sameYear] at inside
  simp only [inMonth, Bool.and_eq_true, decide_eq_true_eq] at inside
  obtain ⟨⟨⟨firstMonth, lastMonth⟩, started⟩, ends⟩ := inside
  have least := day.least
  have most := day.most
  have yearAt : ((yearFromDay day.number).toNat : Int) = yearFromDay day.number :=
    Int.toNat_of_nonneg least
  refine ⟨(yearFromDay day.number).toNat,
    monthFromDay (isLeapYear (yearFromDay day.number)) within,
    ((within : Int) - (monthStarts (isLeapYear (yearFromDay day.number))).getD
      (monthFromDay (isLeapYear (yearFromDay day.number)) within - 1) 0 + 1).toNat,
    by omega, ⟨firstMonth, lastMonth⟩, by omega, ?_, ?_⟩
  · rw [dayFromCivil, yearAt, Int.toNat_of_nonneg (by omega)]
    omega
  · unfold toISOString
    simp only [whole, rest, place, yearText, if_pos (And.intro least most), dateText,
      List.append_assoc, List.cons_append]
    rfl

theorem Fields.text {day : CalendarDay} {year month date : Nat}
    (fields : Fields day year month date) : day.text = dateText year month date := by
  rw [CalendarDay.text, fields.iso,
    List.take_append_of_le_length (dateText_length year month date).ge,
    List.take_of_length_le (dateText_length year month date).le]

theorem dateParse_midnight (day : CalendarDay) :
    dateParse (day.text ++ js "T00:00:00Z") = some day.midnight := by
  obtain ⟨year, month, date, fields⟩ := day.fields
  have readYear : readYear (fixedDigits 4 year ++ unit '-' :: (fixedDigits 2 month ++ unit '-' ::
      (fixedDigits 2 date ++ js "T00:00:00Z"))) = some ((year : Int), unit '-' ::
        (fixedDigits 2 month ++ unit '-' :: (fixedDigits 2 date ++ js "T00:00:00Z"))) := by
    have whole : yearText year = fixedDigits 4 year := by
      have bounds : 0 ≤ (year : Int) ∧ (year : Int) ≤ 9999 := by
        have := fields.yearFits
        omega
      rw [yearText, if_pos bounds, Int.toNat_natCast]
    rw [← whole]
    exact readYear_yearText (by omega) (by have := fields.yearFits; omega) _
  have clipped : day.midnight.natAbs ≤ 8640000000000000 := by
    have least := day.least
    have most := day.most
    obtain ⟨started, ends⟩ := yearFromDay_spec day.number
    have perDay : msPerDay = 86400000 := rfl
    simp only [dayFromYear] at started ends
    rw [CalendarDay.midnight, perDay]
    omega
  have clock : js "T00:00:00Z" = unit 'T' :: (fixedDigits 2 0 ++ unit ':' :: (fixedDigits 2 0 ++
      unit ':' :: (fixedDigits 2 0 ++ js "Z"))) := by decide
  rw [fields.text, dateText]
  simp only [List.append_assoc, List.cons_append, dateParse, Option.bind_eq_bind, readYear,
    Option.bind_some, expect_cons]
  rw [readFixed_fixedDigits _ fields.monthFits.1 fields.monthFits.2 (by have := fields.monthFits; omega)]
  simp only [Option.bind_some, expect_cons]
  rw [readFixed_fixedDigits _ fields.dateFits.1 fields.dateFits.2 (by have := fields.dateFits; omega), clock]
  simp only [Option.bind_some, expect_cons]
  rw [readFixed_fixedDigits _ (by decide) (by decide) (by decide)]
  simp only [Option.bind_some, expect_cons]
  rw [readFixed_fixedDigits _ (by decide) (by decide) (by decide)]
  simp only [Option.bind_some, expect_cons]
  rw [readFixed_fixedDigits _ (by decide) (by decide) (by decide)]
  have zone : readFraction (js "Z") = some 0 := by decide
  have midnight : ((0 * 3600000 + 0 * 60000 + 0 * 1000 + 0 : Nat) : Int) = 0 := rfl
  simp only [Option.bind_some, zone, fields.civil]
  rw [midnight, Int.add_zero]
  exact if_pos clipped

end Kratos.Foundation.Dates
