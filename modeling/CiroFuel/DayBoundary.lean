import CiroFuel.Encoding.Dates
import Mathlib.Algebra.Order.Ring.Rat
import Mathlib.Algebra.Order.Ring.Cast
import Mathlib.Order.Bounds.Basic

/-!
# The start of a day

The offset of a time zone is recovered from what the zone's clock shows, which is whole seconds,
and is taken to be the offset that the day began with.
-/
namespace CiroFuel.DayBoundary
open Encoding.Dates

/-- The offset from universal time at every instant, in seconds. -/
structure TimeZone where
  offset : ℤ → ℤ

/-- What the zone's clock reads, as milliseconds. -/
def TimeZone.clock (zone : TimeZone) (t : ℤ) : ℤ := t + 1000 * zone.offset t

def InRange (t : ℤ) : Prop := |t| ≤ 8640000000000000

instance (t : ℤ) : Decidable (InRange t) := inferInstanceAs (Decidable (_ ≤ _))

/-- `new Date(x)`: none if it is invalid. -/
def newDate (x : ℚ) : Option ℤ :=
  if |x| ≤ 8640000000000000 then some (x.num.tdiv x.den) else none

/-- `Date.UTC`, before the range is checked. The years below 100 are those of the twentieth
century. -/
def utcTime (d : Date) : ℤ :=
  { d with year := if 0 ≤ d.year ∧ d.year ≤ 99 then 1900 + d.year else d.year }.time

def dateUTC (d : Date) : Option ℤ := newDate (utcTime d)

section code
variable (midnightAs24 : Bool)

/-- The fields that the clock shows: years before the first count backwards, and midnight may be
hour 24. -/
def formatToParts (zone : TimeZone) (t : ℤ) : Date :=
  let d := ofTime (zone.clock t)
  { d with
    year := if d.year ≤ 0 then 1 - d.year else d.year
    hour := if d.hour = 0 && midnightAs24 then 24 else d.hour }

/-- The fields with the hour made that of a day, and without milliseconds. -/
def shown (zone : TimeZone) (t : ℤ) : Date :=
  let parts := formatToParts midnightAs24 zone t
  { parts with
    hour := parts.hour % 24
    millisecond := 0 }

def offsetMinutesAt (instant : ℤ) (zone : TimeZone) : Option ℚ := do
  let asUtcMillis ← dateUTC (shown midnightAs24 zone instant)
  return (asUtcMillis - instant) / 60000

def startOfDayInTimezone (instant : ℤ) (zone : TimeZone) : Option ℤ := do
  let offsetMinutes ← offsetMinutesAt midnightAs24 instant zone
  let zonedNow ← newDate (instant + offsetMinutes * 60000)
  let d := ofTime zonedNow
  let startOfZonedDayAsUtc ← dateUTC ⟨d.year, d.month, d.date, 0, 0, 0, 0⟩
  newDate (startOfZonedDayAsUtc - offsetMinutes * 60000)

end code

section spec
variable {midnightAs24 : Bool} {zone : TimeZone} {t : ℤ}

theorem newDate_int (n : ℤ) : newDate n = if InRange n then some n else none := by
  have hiff : |(n : ℚ)| ≤ 8640000000000000 ↔ InRange n := by
    rw [InRange, ← Int.cast_abs]
    norm_cast
  rw [newDate, if_congr hiff rfl rfl]
  simp

/-- The time of the fields without those of the clock. -/
theorem time_date (d : Date) : d.time = Date.time ⟨d.year, d.month, d.date, 0, 0, 0, 0⟩ +
    (((d.hour * 60 + d.minute) * 60 + d.second) * 1000 + d.millisecond : ℕ) := by
  simp only [Date.time]
  omega

theorem time_day (x : ℤ) :
    Date.time ⟨(ofTime x).year, (ofTime x).month, (ofTime x).date, 0, 0, 0, 0⟩ =
      x / 86400000 * 86400000 := by
  have htime := time_ofTime x
  rw [time_date] at htime
  simp only [ofTime] at htime ⊢
  omega

theorem year_ofTime {x : ℤ} (h : dayFromYear 100 ≤ x / 86400000) : 100 ≤ (ofTime x).year := by
  have hlast := (yearFromDay_spec (x / 86400000)).2
  by_contra hyear
  have hle : yearFromDay (x / 86400000) + 1 ≤ 100 := by
    change ¬ 100 ≤ yearFromDay (x / 86400000) at hyear
    omega
  unfold dayFromYear at h hlast
  omega

variable (midnightAs24 zone t) in
/-- The fields are those of some day after the year 100, at the clock's hour, minute and second. -/
theorem utcTime_shown : ∃ day, dayFromYear 100 ≤ day ∧
    utcTime (shown midnightAs24 zone t) =
      day * 86400000 + zone.clock t % 86400000 / 1000 * 1000 := by
  obtain ⟨year, hyear, htime⟩ : ∃ year, 100 ≤ year ∧ utcTime (shown midnightAs24 zone t) =
      Date.time { shown midnightAs24 zone t with year := year } := by
    refine ⟨_, ?_, rfl⟩
    simp only [shown, formatToParts]
    split_ifs <;> omega
  refine ⟨dayFromYear year + dayBeforeMonth (isLeap year) (ofTime (zone.clock t)).month +
    (ofTime (zone.clock t)).date - 1, ?_, ?_⟩
  · simp only [ofTime]
    unfold dayFromYear
    omega
  · have hhour : (if ((ofTime (zone.clock t)).hour = 0 && midnightAs24) = true then 24
        else (ofTime (zone.clock t)).hour) % 24 = (ofTime (zone.clock t)).hour := by
      split_ifs with hmidnight
      · exact (of_decide_eq_true (Bool.and_eq_true_iff.mp hmidnight).1).symm
      · simp only [ofTime]
        omega
    rw [htime]
    simp only [shown, formatToParts, hhour, Date.time]
    simp only [ofTime]
    omega

theorem dateUTC_eq (d : Date) :
    dateUTC d = if InRange (utcTime d) then some (utcTime d) else none :=
  newDate_int _

/-- A date that is shown begins at its own midnight. -/
theorem dateUTC_day {u : ℤ} (hday : dayFromYear 100 ≤ u / 86400000) (hu : InRange u) :
    dateUTC ⟨(ofTime u).year, (ofTime u).month, (ofTime u).date, 0, 0, 0, 0⟩ =
      some (u / 86400000 * 86400000) := by
  have hyear := year_ofTime hday
  have htime : utcTime ⟨(ofTime u).year, (ofTime u).month, (ofTime u).date, 0, 0, 0, 0⟩ =
      u / 86400000 * 86400000 := by
    have hmodern : ¬ (0 ≤ (ofTime u).year ∧ (ofTime u).year ≤ 99) := by omega
    rw [utcTime, if_neg hmodern]
    exact time_day u
  have hrange : InRange (u / 86400000 * 86400000) := by
    unfold InRange at hu ⊢
    rw [abs_le] at hu ⊢
    unfold dayFromYear at hday
    omega
  rw [dateUTC_eq, htime, if_pos hrange]

/-- The local time of the day is taken off, without its milliseconds. -/
theorem startOfDay_eq : startOfDayInTimezone midnightAs24 t zone =
    if InRange (utcTime (shown midnightAs24 zone t)) then
      newDate (t - zone.clock t % 86400000 / 1000 * 1000 : ℤ) else none := by
  obtain ⟨day, hday, htime⟩ := utcTime_shown midnightAs24 zone t
  rw [startOfDayInTimezone, offsetMinutesAt, dateUTC_eq]
  generalize utcTime (shown midnightAs24 zone t) = u at htime
  split_ifs with hu
  · have hnow : (t : ℚ) + ((u : ℚ) - t) / 60000 * 60000 = u := by
      rw [div_mul_cancel₀ _ (by norm_num)]
      exact add_sub_cancel _ _
    have hstart : ((u / 86400000 * 86400000 : ℤ) : ℚ) - ((u : ℚ) - t) / 60000 * 60000 =
        (t - zone.clock t % 86400000 / 1000 * 1000 : ℤ) := by
      have hwhole : u / 86400000 * 86400000 - (u - t) =
          t - zone.clock t % 86400000 / 1000 * 1000 := by
        omega
      rw [div_mul_cancel₀ _ (by norm_num), ← hwhole]
      push_cast
      rfl
    simp only [Option.bind_eq_bind, Option.bind_some, Option.pure_def, hnow]
    rw [newDate_int, if_pos hu]
    simp only [Option.bind_some]
    rw [dateUTC_day (by omega) hu, Option.bind_some, hstart]
  · rfl

end spec

/-! ### Instants -/

/-- The instants up to the given one at which the clock reads midnight. -/
def midnights (zone : TimeZone) (t : ℤ) : Set ℤ :=
  {m | InRange m ∧ m ≤ t ∧ zone.clock m % 86400000 = 0}

namespace Sample

def riyadh : TimeZone where
  offset _ := 10800

/-- The clocks go back from 03:00 to 02:00 on 2026-10-25. -/
def autumn : TimeZone where
  offset t := if t < 1792890000000 then 7200 else 3600

/-- 2026-01-01 in Riyadh. -/
def midnight : ℤ := 1767214800000

theorem midnight_greatest {t : ℤ} (h : midnight ≤ t) (hday : t < midnight + 86400000) :
    IsGreatest (midnights riyadh t) midnight := by
  refine ⟨⟨by decide, h, by decide⟩, ?_⟩
  rintro m ⟨-, hle, hm⟩
  unfold TimeZone.clock riyadh at hm
  unfold midnight at hday ⊢
  dsimp only at hm
  omega

/-- At noon of that day it seems to have begun at one o'clock. -/
example : startOfDayInTimezone false 1792926000000 autumn = some 1792882800000 ∧
    autumn.clock 1792882800000 % 86400000 = 3600000 := by
  decide +kernel

end Sample

end CiroFuel.DayBoundary
