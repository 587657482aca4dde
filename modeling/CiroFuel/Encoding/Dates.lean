import CiroFuel.Numerals
import Mathlib.Algebra.Order.Group.Abs
import Mathlib.Algebra.Order.Ring.Int
import Mathlib.Tactic.SplitIfs

/-!
# Dates

An instant is a number of milliseconds from the start of 1970, and at most a hundred
million days from it. Its date is written with the year, of four digits or of six and a
sign, down to the millisecond, and the text is read as the instant again.
-/
namespace CiroFuel.Encoding.Dates
open Numerals

/-! ### The calendar -/

/-- The first day of a year. -/
def dayFromYear (y : ℤ) : ℤ :=
  365 * (y - 1970) + (y - 1969) / 4 - (y - 1901) / 100 + (y - 1601) / 400

/-- The year of a day: the mean length of a year is wrong by one year at most. -/
def yearFromDay (day : ℤ) : ℤ :=
  let y := day * 400 / 146097 + 1970
  if dayFromYear (y + 1) ≤ day then y + 1 else if day < dayFromYear y then y - 1 else y

def isLeap (y : ℤ) : Bool := y % 4 = 0 && (y % 100 ≠ 0 || y % 400 = 0)

/-- The days of a year before each month after January. -/
def monthStarts (leap : Bool) : List ℕ :=
  let l := if leap then 1 else 0
  [31, 59 + l, 90 + l, 120 + l, 151 + l, 181 + l, 212 + l, 243 + l, 273 + l, 304 + l, 334 + l]

/-- The days of a year before a month. -/
def dayBeforeMonth (leap : Bool) (month : ℕ) : ℕ := (0 :: monthStarts leap).getD (month - 1) 0

/-- The months that have started, and the last of them. -/
def monthFromDay (leap : Bool) (day : ℕ) : ℕ :=
  ((monthStarts leap).takeWhile (· ≤ day)).length + 1

section calendar
variable {day : ℤ}

theorem yearFromDay_spec (day : ℤ) :
    dayFromYear (yearFromDay day) ≤ day ∧ day < dayFromYear (yearFromDay day + 1) := by
  rw [yearFromDay]
  generalize hy : day * 400 / 146097 + 1970 = y
  by_cases hnext : dayFromYear (y + 1) ≤ day
  · rw [if_pos hnext]
    refine ⟨hnext, ?_⟩
    unfold dayFromYear at hnext ⊢
    omega
  · by_cases hprevious : day < dayFromYear y
    · rw [if_neg hnext, if_pos hprevious]
      refine ⟨?_, by rwa [Int.sub_add_cancel]⟩
      unfold dayFromYear at hprevious ⊢
      omega
    · rw [if_neg hnext, if_neg hprevious]
      exact ⟨Int.not_lt.mp hprevious, Int.not_le.mp hnext⟩

theorem dayFromYear_succ (y : ℤ) : dayFromYear (y + 1) ≤ dayFromYear y + 366 := by
  unfold dayFromYear
  omega

theorem getD_takeWhile_le {starts : List ℕ} {first n : ℕ} (h : first ≤ n) :
    (first :: starts).getD (starts.takeWhile (· ≤ n)).length 0 ≤ n := by
  induction starts generalizing first with
  | nil => exact h
  | cons start starts ih =>
      by_cases hstart : start ≤ n
      · rw [List.takeWhile_cons_of_pos (by simpa using hstart)]
        exact ih hstart
      · rw [List.takeWhile_cons_of_neg (by simpa using hstart)]
        exact h

/-- No start is further from the one before it than the longest stretch. -/
theorem lt_getD_takeWhile {starts : List ℕ} {first n longest : ℕ}
    (hstarts : (first :: starts).IsChain fun a b => b ≤ a + longest)
    (hlast : n < (first :: starts).getLast (List.cons_ne_nil _ _) + longest) :
    n < (first :: starts).getD (starts.takeWhile (· ≤ n)).length 0 + longest := by
  induction starts generalizing first with
  | nil => exact hlast
  | cons start starts ih =>
      obtain ⟨hfirst, hstarts⟩ := List.isChain_cons_cons.mp hstarts
      by_cases hstart : start ≤ n
      · rw [List.takeWhile_cons_of_pos (by simpa using hstart)]
        exact ih hstarts hlast
      · rw [List.takeWhile_cons_of_neg (by simpa using hstart)]
        exact (Nat.not_le.mp hstart).trans_le hfirst

theorem dayBeforeMonth_le (leap : Bool) (n : ℕ) : dayBeforeMonth leap (monthFromDay leap n) ≤ n :=
  getD_takeWhile_le (Nat.zero_le n)

theorem lt_dayBeforeMonth (leap : Bool) {n : ℕ} (hn : n < 366) :
    n < dayBeforeMonth leap (monthFromDay leap n) + 32 := by
  apply lt_getD_takeWhile
  · cases leap <;> decide
  · exact hn.trans_le (by cases leap <;> decide)

theorem monthFromDay_le (leap : Bool) (n : ℕ) : monthFromDay leap n ≤ 12 :=
  Nat.succ_le_succ ((List.takeWhile_sublist _).length_le)

end calendar

structure Date where
  year : ℤ
  month : ℕ
  date : ℕ
  hour : ℕ
  minute : ℕ
  second : ℕ
  millisecond : ℕ
deriving DecidableEq

/-- The date of an instant. -/
def ofTime (t : ℤ) : Date :=
  let day := t / 86400000
  let ms := (t % 86400000).toNat
  let year := yearFromDay day
  let yearDay := (day - dayFromYear year).toNat
  let month := monthFromDay (isLeap year) yearDay
  { year := year
    month := month
    date := yearDay - dayBeforeMonth (isLeap year) month + 1
    hour := ms / 3600000
    minute := ms / 60000 % 60
    second := ms / 1000 % 60
    millisecond := ms % 1000 }

/-- The instant of a date. -/
def Date.time (d : Date) : ℤ :=
  (dayFromYear d.year + dayBeforeMonth (isLeap d.year) d.month + d.date - 1) * 86400000 +
    (((d.hour * 60 + d.minute) * 60 + d.second) * 1000 + d.millisecond : ℕ)

theorem time_ofTime (t : ℤ) : (ofTime t).time = t := by
  obtain ⟨hfirst, hlast⟩ := yearFromDay_spec (t / 86400000)
  have hlength := dayFromYear_succ (yearFromDay (t / 86400000))
  have hmonth := dayBeforeMonth_le (isLeap (yearFromDay (t / 86400000)))
    (t / 86400000 - dayFromYear (yearFromDay (t / 86400000))).toNat
  simp only [ofTime, Date.time]
  omega

/-! ### Text -/

/-- Digits of a fixed width. -/
def pad (k n : ℕ) : List Char := digitsText (digits 10 k n)

def yearText (y : ℤ) : List Char :=
  if 0 ≤ y ∧ y ≤ 9999 then pad 4 y.toNat
  else (if y < 0 then '-' else '+') :: pad 6 y.natAbs

/-- What follows the year. -/
def Date.dayText (d : Date) : List Char :=
  '-' :: (pad 2 d.month ++ '-' :: (pad 2 d.date ++ 'T' :: (pad 2 d.hour ++ ':' ::
    (pad 2 d.minute ++ ':' :: (pad 2 d.second ++ '.' :: (pad 3 d.millisecond ++ ['Z']))))))

def Date.text (d : Date) : List Char := yearText d.year ++ d.dayText

/-- The text of an instant, if it is in the range of dates. -/
def toISOString (t : ℤ) : Option (List Char) :=
  if |t| ≤ 8640000000000000 then some (ofTime t).text else none

/-- The number at a place of a text. -/
def readAt (cs : List Char) (start width : ℕ) : ℕ :=
  value 10 (((cs.drop start).take width).map digitValue)

def readYear : List Char → ℤ
  | '-' :: cs => -(value 10 (cs.map digitValue) : ℤ)
  | '+' :: cs => value 10 (cs.map digitValue)
  | cs => value 10 (cs.map digitValue)

def readDate (cs : List Char) : Date :=
  let rest := cs.drop (cs.length - 20)
  { year := readYear (cs.take (cs.length - 20))
    month := readAt rest 1 2
    date := readAt rest 4 2
    hour := readAt rest 7 2
    minute := readAt rest 10 2
    second := readAt rest 13 2
    millisecond := readAt rest 16 3 }

/-- The instant that a text is the text of. -/
def ofISOString (cs : List Char) : Option ℤ :=
  let t := (readDate cs).time
  if toISOString t = some cs then some t else none

section text
variable {d : Date} {k n : ℕ} {y : ℤ}

@[simp] theorem length_pad (k n : ℕ) : (pad k n).length = k := by
  rw [pad, digitsText, List.length_map, length_digits]

theorem value_pad (h : n < 10 ^ k) : value 10 ((pad k n).map digitValue) = n := by
  rw [pad, map_digitValue fun d hd => digits_lt (by decide) hd, value_digits, Nat.mod_eq_of_lt h]

/-- Every part of the date has as many digits as are written. -/
structure Date.Fits (d : Date) : Prop where
  year : d.year.natAbs < 10 ^ 6
  month : d.month < 10 ^ 2
  date : d.date < 10 ^ 2
  hour : d.hour < 10 ^ 2
  minute : d.minute < 10 ^ 2
  second : d.second < 10 ^ 2
  millisecond : d.millisecond < 10 ^ 3

theorem readYear_unsigned {c : Char} {cs : List Char} (hminus : c ≠ '-') (hplus : c ≠ '+') :
    readYear (c :: cs) = value 10 ((c :: cs).map digitValue) := by
  rw [readYear]
  · rintro _ heq
    exact hminus (List.cons.inj heq).1
  · rintro _ heq
    exact hplus (List.cons.inj heq).1

theorem readYear_text (h : y.natAbs < 10 ^ 6) : readYear (yearText y) = y := by
  by_cases hshort : 0 ≤ y ∧ y ≤ 9999
  · have hunsigned : readYear (pad 4 y.toNat) = value 10 ((pad 4 y.toNat).map digitValue) := by
      have hsign : ∀ d < 10, Nat.digitChar d ≠ '-' ∧ Nat.digitChar d ≠ '+' := by decide
      rw [pad, digits_succ, digitsText, List.map_cons]
      obtain ⟨hminus, hplus⟩ := hsign (y.toNat / 10 ^ 3 % 10) (Nat.mod_lt _ (by decide))
      exact readYear_unsigned hminus hplus
    rw [yearText, if_pos hshort, hunsigned, value_pad (by omega)]
    omega
  · rw [yearText, if_neg hshort]
    by_cases hneg : y < 0
    · rw [if_pos hneg, readYear, value_pad h]
      omega
    · rw [if_neg hneg, readYear, value_pad h]
      omega


section readAt
variable {cs : List Char} {start width : ℕ}

/-- A number that is read where it was written. -/
theorem readAt_pad (h : n < 10 ^ k) : readAt (pad k n ++ cs) 0 k = n := by
  rw [readAt, List.drop_zero, List.take_left' (length_pad k n), value_pad h]

theorem readAt_pad_append :
    readAt (pad k n ++ cs) (start + k) width = readAt cs start width := by
  rw [readAt, readAt, Nat.add_comm, ← List.drop_drop, List.drop_left' (length_pad k n)]

theorem readAt_cons {c : Char} : readAt (c :: cs) (start + 1) width = readAt cs start width := rfl

end readAt

theorem length_dayText (d : Date) : d.dayText.length = 20 := by
  simp [Date.dayText]

theorem readDate_text (h : d.Fits) : readDate d.text = d := by
  have hlength : d.text.length - 20 = (yearText d.year).length := by
    rw [Date.text, List.length_append, length_dayText, Nat.add_sub_cancel]
  have hyear : d.text.take (d.text.length - 20) = yearText d.year := by
    rw [hlength]
    exact List.take_left
  have hrest : d.text.drop (d.text.length - 20) = d.dayText := by
    rw [hlength]
    exact List.drop_left
  have hmonth : readAt d.dayText 1 2 = d.month := by
    rw [Date.dayText, readAt_cons, readAt_pad h.month]
  have hdate : readAt d.dayText 4 2 = d.date := by
    rw [Date.dayText, readAt_cons, readAt_pad_append, readAt_cons, readAt_pad h.date]
  have hhour : readAt d.dayText 7 2 = d.hour := by
    rw [Date.dayText, readAt_cons, readAt_pad_append, readAt_cons, readAt_pad_append, readAt_cons,
      readAt_pad h.hour]
  have hminute : readAt d.dayText 10 2 = d.minute := by
    rw [Date.dayText, readAt_cons, readAt_pad_append, readAt_cons, readAt_pad_append, readAt_cons,
      readAt_pad_append, readAt_cons, readAt_pad h.minute]
  have hsecond : readAt d.dayText 13 2 = d.second := by
    rw [Date.dayText, readAt_cons, readAt_pad_append, readAt_cons, readAt_pad_append, readAt_cons,
      readAt_pad_append, readAt_cons, readAt_pad_append, readAt_cons, readAt_pad h.second]
  have hms : readAt d.dayText 16 3 = d.millisecond := by
    rw [Date.dayText, readAt_cons, readAt_pad_append, readAt_cons, readAt_pad_append, readAt_cons,
      readAt_pad_append, readAt_cons, readAt_pad_append, readAt_cons, readAt_pad_append,
      readAt_cons, readAt_pad h.millisecond]
  rw [readDate, hyear, hrest, readYear_text h.year, hmonth, hdate, hhour, hminute, hsecond, hms]

theorem natAbs_yearFromDay {day : ℤ} (hlow : -100000000 ≤ day) (hhigh : day ≤ 100000000) :
    (yearFromDay day).natAbs < 10 ^ 6 := by
  obtain ⟨hfirst, hlast⟩ := yearFromDay_spec day
  generalize yearFromDay day = y at hfirst hlast
  unfold dayFromYear at hfirst hlast
  omega

theorem fits_ofTime {t : ℤ} (h : |t| ≤ 8640000000000000) : (ofTime t).Fits := by
  obtain ⟨hlow, hhigh⟩ := abs_le.mp h
  obtain ⟨hfirst, hlast⟩ := yearFromDay_spec (t / 86400000)
  have hlength := dayFromYear_succ (yearFromDay (t / 86400000))
  have hmonth := monthFromDay_le (isLeap (yearFromDay (t / 86400000)))
    (t / 86400000 - dayFromYear (yearFromDay (t / 86400000))).toNat
  have hdate := lt_dayBeforeMonth (isLeap (yearFromDay (t / 86400000)))
    (n := (t / 86400000 - dayFromYear (yearFromDay (t / 86400000))).toNat) (by omega)
  have hyear : (yearFromDay (t / 86400000)).natAbs < 10 ^ 6 :=
    natAbs_yearFromDay (by omega) (by omega)
  constructor <;> simp only [ofTime] <;> omega

theorem toISOString_eq {t : ℤ} {cs : List Char} (h : toISOString t = some cs) :
    |t| ≤ 8640000000000000 ∧ cs = (ofTime t).text := by
  by_cases hrange : |t| ≤ 8640000000000000
  · rw [toISOString, if_pos hrange] at h
    exact ⟨hrange, (Option.some.inj h).symm⟩
  · rw [toISOString, if_neg hrange] at h
    cases h

/-- The text of an instant is read as the instant. -/
theorem ofISOString_eq {t : ℤ} {cs : List Char} (h : toISOString t = some cs) :
    ofISOString cs = some t := by
  obtain ⟨hrange, hcs⟩ := toISOString_eq h
  have htime : (readDate cs).time = t := by
    rw [hcs, readDate_text (fits_ofTime hrange), time_ofTime]
  rw [ofISOString, htime]
  exact if_pos h

theorem pad_ascii (k n : ℕ) : ∀ c ∈ pad k n, c.toNat < 128 := by
  intro c hc
  have hall : ∀ d < 10, (Nat.digitChar d).toNat < 128 := by decide
  obtain ⟨d, hd, rfl⟩ := List.mem_map.mp hc
  exact hall d (digits_lt (by decide) hd)

theorem yearText_ascii (y : ℤ) : ∀ c ∈ yearText y, c.toNat < 128 := by
  rw [yearText]
  split_ifs
  · exact pad_ascii _ _
  · exact List.forall_mem_cons.mpr ⟨by decide, pad_ascii _ _⟩
  · exact List.forall_mem_cons.mpr ⟨by decide, pad_ascii _ _⟩

theorem dayText_ascii (d : Date) : ∀ c ∈ d.dayText, c.toNat < 128 := by
  simp only [Date.dayText, List.forall_mem_cons, List.forall_mem_append]
  exact ⟨by decide, pad_ascii _ _, by decide, pad_ascii _ _, by decide, pad_ascii _ _, by decide,
    pad_ascii _ _, by decide, pad_ascii _ _, by decide, pad_ascii _ _, by decide, by simp⟩

theorem toISOString_ascii {t : ℤ} {cs : List Char} (h : toISOString t = some cs) :
    ∀ c ∈ cs, c.toNat < 128 := by
  obtain ⟨-, rfl⟩ := toISOString_eq h
  exact List.forall_mem_append.mpr ⟨yearText_ascii _, dayText_ascii _⟩

end text
end CiroFuel.Encoding.Dates
