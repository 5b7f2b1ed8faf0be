import Mathlib.Algebra.Order.BigOperators.Group.Finset
import Mathlib.Algebra.BigOperators.Intervals
import Mathlib.Tactic.IntervalCases
import Oxiroute.Lib.Panic

/-!
# The calendar fields of a recording

Model of `RecordingDateTime` of `crates/oxiroute-rtmp/src/recording_path.rs`. The calendar itself is
counted: a date has the days of the years and months before it (`dayNumber`). The closed form of the
source, with its years that start in March, finds the date of every day (`civilFromUnixDays_eq`),
and so the one of every second (`fromUnixSeconds_eq`).
-/

namespace Oxiroute.Rtmp

open Lib Finset

/-- `RecordingPathError::InvalidDateTime`, the only variant the modelled functions return. -/
inductive RecordingPathError where
  | invalidDateTime (field : String) (value : ℕ)
  deriving DecidableEq

structure RecordingDateTime where
  year : ℕ
  month : ℕ
  day : ℕ
  hour : ℕ
  minute : ℕ
  second : ℕ
  deriving DecidableEq

namespace RecordingDateTime

/-- `days_in_month`; it is not called for another month. -/
def daysInMonth (year : ℕ) : ℕ → Panics ℕ
  | 1 | 3 | 5 | 7 | 8 | 10 | 12 => .ok 31
  | 4 | 6 | 9 | 11 => .ok 30
  | 2 => .ok (if year % 4 = 0 ∧ (year % 100 ≠ 0 ∨ year % 400 = 0) then 29 else 28)
  | _ => .error .expect

def new (year month day hour minute second : ℕ) :
    Panics (Except RecordingPathError RecordingDateTime) :=
  if 9999 < year then .ok (.error (.invalidDateTime "year" year))
  else if month < 1 ∨ 12 < month then .ok (.error (.invalidDateTime "month" month))
  else do
    let days ← daysInMonth year month
    if day = 0 ∨ days < day then .ok (.error (.invalidDateTime "day" day))
    else if 23 < hour then .ok (.error (.invalidDateTime "hour" hour))
    else if 59 < minute then .ok (.error (.invalidDateTime "minute" minute))
    else if 59 < second then .ok (.error (.invalidDateTime "second" second))
    else .ok (.ok ⟨year, month, day, hour, minute, second⟩)

/-- `u8::try_from`. -/
def toU8 (value : ℤ) : Option ℕ :=
  if 0 ≤ value ∧ value < 2 ^ 8 then some value.toNat else none

/-- `civil_from_unix_days`. No dividend but `shifted` can be negative. -/
def civilFromUnixDays (days : ℤ) : Panics (ℤ × ℕ × ℕ) := do
  let shifted := days + 719468
  let era := shifted / 146097
  let dayOfEra := shifted - era * 146097
  let yearOfEra := (dayOfEra - dayOfEra / 1460 + dayOfEra / 36524 - dayOfEra / 146096) / 365
  let year := yearOfEra + era * 400
  let dayOfYear := dayOfEra - (365 * yearOfEra + yearOfEra / 4 - yearOfEra / 100)
  let monthPrime := (5 * dayOfYear + 2) / 153
  let day := dayOfYear - (153 * monthPrime + 2) / 5 + 1
  let month := monthPrime + if monthPrime < 10 then 3 else -9
  let year := year + if month ≤ 2 then 1 else 0
  let month ← expect (toU8 month)
  let day ← expect (toU8 day)
  return (year, month, day)

/-- The days of a `u64` of seconds are an `i64`. -/
def fromUnixSeconds (seconds : ℕ) : Panics (Except RecordingPathError RecordingDateTime) :=
  if 253402300799 < seconds then .ok (.error (.invalidDateTime "year" 10000))
  else do
    let secondsInDay := seconds % 86400
    let (year, month, day) ← civilFromUnixDays (seconds / 86400 : ℕ)
    if 0 ≤ year ∧ year < 2 ^ 16 then
      new year.toNat month day (secondsInDay / 3600) (secondsInDay % 3600 / 60) (secondsInDay % 60)
    else .ok (.error (.invalidDateTime "year" 10000))

/-! ## The calendar -/

/-- The days of a month, by its place in the year. -/
def monthLength (year i : ℕ) : ℕ :=
  [31, if year % 4 = 0 ∧ (year % 100 ≠ 0 ∨ year % 400 = 0) then 29 else 28, 31, 30, 31, 30, 31,
    31, 30, 31, 30, 31].getD i 0

def yearLength (year : ℕ) : ℕ := ∑ i ∈ range 12, monthLength year i

/-- The days from the first one of year 0 to a date. -/
def dayNumber (year month day : ℕ) : ℕ :=
  ∑ y ∈ range year, yearLength y + (∑ i ∈ range (month - 1), monthLength year i + (day - 1))

/-- The date exists, and the time of the day. -/
structure Valid (t : RecordingDateTime) : Prop where
  month : 1 ≤ t.month ∧ t.month ≤ 12
  day : 1 ≤ t.day ∧ t.day ≤ monthLength t.year (t.month - 1)
  hour : t.hour < 24
  minute : t.minute < 60
  second : t.second < 60

/-- The seconds from the beginning of year 0. -/
def seconds (t : RecordingDateTime) : ℕ :=
  86400 * dayNumber t.year t.month t.day + (3600 * t.hour + 60 * t.minute + t.second)

/-- `1970-01-01T00:00:00Z`. -/
def epoch : RecordingDateTime := ⟨1970, 1, 1, 0, 0, 0⟩

/-- `9999-12-31T23:59:59Z`. -/
def last : RecordingDateTime := ⟨9999, 12, 31, 23, 59, 59⟩

theorem daysInMonth_eq {year month : ℕ} (h : 1 ≤ month ∧ month ≤ 12) :
    daysInMonth year month = .ok (monthLength year (month - 1)) := by
  obtain ⟨h₁, h₂⟩ := h
  interval_cases month <;> rfl

theorem yearLength_eq {year : ℕ} : yearLength year =
    if year % 4 = 0 ∧ (year % 100 ≠ 0 ∨ year % 400 = 0) then 366 else 365 := by
  simp only [yearLength, monthLength, sum_range_succ, sum_range_zero, List.getD_cons_zero,
    List.getD_cons_succ]
  split_ifs <;> rfl

theorem sum_yearLength (year : ℕ) : ∑ y ∈ range year, yearLength y + (year + 99) / 100 =
    365 * year + (year + 3) / 4 + (year + 399) / 400 := by
  induction year with
  | zero => rfl
  | succ year ih =>
    have h4 : (year + 1 + 3) / 4 = (year + 3) / 4 + if year % 4 = 0 then 1 else 0 := by
      split_ifs <;> omega
    have h100 : (year + 1 + 99) / 100 = (year + 99) / 100 + if year % 100 = 0 then 1 else 0 := by
      split_ifs <;> omega
    have h400 : (year + 1 + 399) / 400 = (year + 399) / 400 + if year % 400 = 0 then 1 else 0 := by
      split_ifs <;> omega
    rw [sum_range_succ, yearLength_eq, h4, h100, h400]
    split_ifs <;> omega

/-- The months from March on, of `153` days for every five. -/
theorem sum_monthLength {year i : ℕ} (h : i ≤ 9) :
    ∑ j ∈ range (i + 2), monthLength year j + 306 = (153 * i + 2) / 5 + yearLength year ∧
      monthLength year (i + 2) = (153 * (i + 1) + 2) / 5 - (153 * i + 2) / 5 := by
  rw [yearLength_eq]
  interval_cases i <;> simp [sum_range_succ, monthLength] <;> split_ifs <;> rfl

theorem seconds_newYear {t : RecordingDateTime} {year : ℕ} (h : t = ⟨year, 1, 1, 0, 0, 0⟩) :
    t.seconds + 86400 * ((year + 99) / 100) =
      86400 * (365 * year + (year + 3) / 4 + (year + 399) / 400) := by
  rw [h, ← sum_yearLength, mul_add]
  simp [seconds, dayNumber]

theorem seconds_endOfYear {t : RecordingDateTime} {year : ℕ} (h : t = ⟨year, 12, 31, 23, 59, 59⟩) :
    t.seconds + 1 = seconds ⟨year + 1, 1, 1, 0, 0, 0⟩ := by
  have hmonths : yearLength year = ∑ i ∈ range (12 - 1), monthLength year i + 31 :=
    sum_range_succ ..
  simp only [h, seconds, dayNumber, sum_range_succ, hmonths, Nat.sub_self, range_zero, sum_empty]
  omega

theorem epoch_seconds : epoch.seconds = 86400 * 719528 := by
  have h := seconds_newYear (t := epoch) rfl
  generalize epoch.seconds = n at *
  omega

theorem last_seconds : last.seconds + 1 = 86400 * 3652425 := by
  have h := seconds_endOfYear (t := last) rfl
  have h' := seconds_newYear (t := ⟨9999 + 1, 1, 1, 0, 0, 0⟩) rfl
  rw [← h] at h'
  generalize last.seconds = n at *
  omega

/-! ## Every date once -/

theorem eq_of_sum_range {f : ℕ → ℕ} {a b i j : ℕ}
    (h : ∑ k ∈ range a, f k + i = ∑ k ∈ range b, f k + j) (hi : i < f a) (hj : j < f b) :
    a = b ∧ i = j := by
  have hlt : ∀ {a b i j}, i < f a → a < b → ∑ k ∈ range a, f k + i < ∑ k ∈ range b, f k + j := by
    intro a b i j hi hab
    have hle := sum_le_sum_of_subset (f := f) (range_subset_range.mpr (Nat.succ_le_of_lt hab))
    rw [sum_range_succ] at hle
    omega
  rcases lt_trichotomy a b with hab | rfl | hab
  · exact absurd h (hlt hi hab).ne
  · exact ⟨rfl, Nat.add_left_cancel h⟩
  · exact absurd h (hlt hj hab).ne'

theorem Valid.dayOfYear_lt {t : RecordingDateTime} (h : t.Valid) :
    ∑ i ∈ range (t.month - 1), monthLength t.year i + (t.day - 1) < yearLength t.year := by
  obtain ⟨hmonth, hday, -⟩ := h
  have hle := sum_le_sum_of_subset (f := monthLength t.year)
    (range_subset_range.mpr (show t.month - 1 + 1 ≤ 12 by omega))
  rw [sum_range_succ] at hle
  rw [yearLength]
  omega

theorem Valid.eq_of_seconds {t t' : RecordingDateTime} (h : t.Valid) (h' : t'.Valid)
    (heq : t.seconds = t'.seconds) : t = t' := by
  obtain ⟨hm, hd, hhour, hminute, hsecond⟩ := id h
  obtain ⟨hm', hd', hhour', hminute', hsecond'⟩ := id h'
  obtain ⟨hdays, htime⟩ : dayNumber t.year t.month t.day = dayNumber t'.year t'.month t'.day ∧
      t.hour = t'.hour ∧ t.minute = t'.minute ∧ t.second = t'.second := by
    unfold seconds at heq
    omega
  obtain ⟨hyear, hday⟩ := eq_of_sum_range hdays h.dayOfYear_lt h'.dayOfYear_lt
  rw [hyear] at hday hd
  obtain ⟨hmonth, hday⟩ := eq_of_sum_range hday (by omega) (by omega)
  cases t
  cases t'
  simp only [mk.injEq] at *
  omega

/-! ## The closed form -/

/-- A day of an era by its century, its place in it by four years, its year and its day. -/
theorem exists_parts {dayOfEra : ℤ} (h₀ : 0 ≤ dayOfEra) (h₁ : dayOfEra ≤ 146096) :
    ∃ q p y d : ℤ, dayOfEra = 36524 * q + 1461 * p + 365 * y + d ∧ 0 ≤ q ∧ q ≤ 3 ∧ 0 ≤ p ∧ p ≤ 24 ∧
      0 ≤ y ∧ y ≤ 3 ∧ 0 ≤ d ∧ d ≤ 365 ∧ (d = 365 → y = 3 ∧ (p = 24 → q = 3)) := by
  obtain ⟨q, hq⟩ : ∃ q, q = min (dayOfEra / 36524) 3 := ⟨_, rfl⟩
  obtain ⟨p, hp⟩ : ∃ p, p = (dayOfEra - 36524 * q) / 1461 := ⟨_, rfl⟩
  obtain ⟨y, hy⟩ : ∃ y, y = min ((dayOfEra - 36524 * q - 1461 * p) / 365) 3 := ⟨_, rfl⟩
  exact ⟨q, p, y, dayOfEra - 36524 * q - 1461 * p - 365 * y, by omega⟩

/-- The year of an era from its day. Only a year that ends with the February of a leap year has a
day 365. -/
theorem exists_yearOfEra {dayOfEra : ℤ} (h₀ : 0 ≤ dayOfEra) (h₁ : dayOfEra ≤ 146096) :
    ∃ y d : ℤ, 0 ≤ y ∧ 0 ≤ d ∧ y ≤ 399 ∧ d ≤ 365 ∧ dayOfEra = 365 * y + y / 4 - y / 100 + d ∧
      (dayOfEra - dayOfEra / 1460 + dayOfEra / 36524 - dayOfEra / 146096) / 365 = y ∧
      (d = 365 → (y + 1) % 4 = 0 ∧ ((y + 1) % 100 ≠ 0 ∨ y = 399)) := by
  obtain ⟨q, p, y, d, hparts, hq, hq', hp, hp', hy, hy', hd, hd', hleap⟩ := exists_parts h₀ h₁
  have hcentury : dayOfEra / 36524 - dayOfEra / 146096 = q := by
    by_cases h : dayOfEra = 146096
    · subst h
      omega
    · have h400 : dayOfEra / 146096 = 0 := by omega
      have h100 : dayOfEra / 36524 = q := by omega
      omega
  have hfour : 25 * q + p ≤ dayOfEra / 1460 ∧ dayOfEra / 1460 ≤ 25 * q + p + 1 ∧
      (d = 0 → dayOfEra / 1460 = 25 * q + p) ∧ (d = 365 → dayOfEra / 1460 = 25 * q + p + 1) := by
    omega
  have h4 : (100 * q + 4 * p + y) / 4 = 25 * q + p := by omega
  have h100 : (100 * q + 4 * p + y) / 100 = q := by omega
  exact ⟨100 * q + 4 * p + y, d, by omega⟩

theorem toU8_eq {n : ℕ} (h : n < 256) : toU8 n = some n := by
  rw [toU8, if_pos (by omega), Int.toNat_natCast]

/-- **The date of a day**: the closed form finds a date that exists and has its number. -/
theorem civilFromUnixDays_eq (days : ℕ) : ∃ year month day : ℕ,
    civilFromUnixDays days = .ok (year, month, day) ∧ (1 ≤ month ∧ month ≤ 12) ∧
      (1 ≤ day ∧ day ≤ monthLength year (month - 1)) ∧
      dayNumber year month day = days + 719528 := by
  obtain ⟨era, hera⟩ : ∃ era : ℕ, ((days : ℤ) + 719468) / 146097 = era :=
    Int.eq_ofNat_of_zero_le (by omega)
  have hera₀ : 0 ≤ (days : ℤ) + 719468 - era * 146097 := by omega
  obtain ⟨y, d, hy₀, hd₀, hy, hd, hday, hyear, hleap⟩ := exists_yearOfEra hera₀ (by omega)
  lift y to ℕ using hy₀
  lift d to ℕ using hd₀
  obtain ⟨i, hi⟩ : ∃ i, i = (5 * d + 2) / 153 := ⟨_, rfl⟩
  have hcivil : civilFromUnixDays days = .ok
      ((y + 400 * era + (if i < 10 then 0 else 1) : ℕ), (if i < 10 then i + 3 else i - 9),
        d - (153 * i + 2) / 5 + 1) := by
    have hdoy : (days : ℤ) + 719468 - era * 146097 - (365 * y + y / 4 - y / 100) = d := by omega
    have hmonth : (5 * (d : ℤ) + 2) / 153 = i := by omega
    have hnum : (i : ℤ) + (if (i : ℤ) < 10 then 3 else -9) =
        ((if i < 10 then i + 3 else i - 9 : ℕ) : ℤ) := by split_ifs <;> omega
    have hnew : (d : ℤ) - (153 * i + 2) / 5 + 1 = (d - (153 * i + 2) / 5 + 1 : ℕ) := by omega
    simp only [civilFromUnixDays, hera, hyear, hdoy, hmonth, hnum, hnew]
    rw [toU8_eq (by split_ifs <;> omega), toU8_eq (by omega)]
    simp only [Lib.expect, bind_ok]
    congr 2
    split_ifs <;> omega
  refine ⟨_, _, _, hcivil, ?_⟩
  have hlow : (153 * i + 2) / 5 ≤ d ∧ d < (153 * (i + 1) + 2) / 5 := by omega
  have hyears : ∑ y ∈ range (y + 400 * era + 1), yearLength y + d = days + 719528 + 306 := by
    have hsum := sum_yearLength (y + 400 * era + 1)
    have h4 : (y + 400 * era + 1 + 3) / 4 = y / 4 + 100 * era + 1 := by omega
    have h100 : (y + 400 * era + 1 + 99) / 100 = y / 100 + 4 * era + 1 := by omega
    have h400 : (y + 400 * era + 1 + 399) / 400 = era + 1 := by omega
    omega
  clear hcivil hday hyear hera hera₀
  by_cases hi10 : i < 10
  · obtain ⟨hbefore, hlength⟩ := @sum_monthLength (y + 400 * era) i (by omega)
    rw [sum_range_succ] at hyears
    simp only [if_pos hi10, dayNumber, Nat.add_zero, Nat.add_sub_cancel,
      show i + 3 - 1 = i + 2 from rfl]
    omega
  · simp only [if_neg hi10, dayNumber]
    have hmonth : i = 10 ∨ i = 11 := by omega
    rcases hmonth with rfl | rfl
    · simp [monthLength]
      omega
    · simp [monthLength]
      split_ifs <;> omega

theorem Valid.new_eq {t : RecordingDateTime} (h : t.Valid) (hyear : t.year ≤ 9999) :
    new t.year t.month t.day t.hour t.minute t.second = .ok (.ok t) := by
  obtain ⟨hmonth, hday, hhour, hminute, hsecond⟩ := h
  rw [new, if_neg (by omega), if_neg (by omega), daysInMonth_eq hmonth]
  simp only [bind_ok]
  rw [if_neg (by omega), if_neg (by omega), if_neg (by omega), if_neg (by omega)]

theorem fromUnixSeconds_of_le {n : ℕ} (h : n ≤ 253402300799) : ∃ t : RecordingDateTime,
    fromUnixSeconds n = .ok (.ok t) ∧ t.Valid ∧ t.seconds = 86400 * 719528 + n := by
  obtain ⟨year, month, day, hcivil, hmonth, hday, hnumber⟩ := civilFromUnixDays_eq (n / 86400)
  have hyear : year ≤ 9999 := by
    have := sum_yearLength year
    unfold dayNumber at hnumber
    omega
  have hhour : n % 86400 / 3600 < 24 := by omega
  have hminute : n % 86400 % 3600 / 60 < 60 := by omega
  have hsecond : n % 86400 % 60 < 60 := by omega
  have hvalid : Valid ⟨year, month, day, _, _, _⟩ := ⟨hmonth, hday, hhour, hminute, hsecond⟩
  refine ⟨_, ?_, hvalid, ?_⟩
  · rw [fromUnixSeconds, if_neg (by omega), hcivil, bind_ok]
    dsimp only
    rw [if_pos (by omega), Int.toNat_natCast]
    exact hvalid.new_eq hyear
  · simp only [seconds, hnumber]
    omega

/-- **Civil time**: every second up to the end of the year 9999 has the one date and time of day
that is as far from the epoch, and every later second is refused. -/
theorem fromUnixSeconds_eq (n : ℕ) :
    (epoch.seconds + n ≤ last.seconds → ∃ t, fromUnixSeconds n = .ok (.ok t) ∧ t.Valid ∧
        t.seconds = epoch.seconds + n ∧
        ∀ t' : RecordingDateTime, t'.Valid → t'.seconds = epoch.seconds + n → t' = t) ∧
      (last.seconds < epoch.seconds + n →
        fromUnixSeconds n = .ok (.error (.invalidDateTime "year" 10000))) := by
  have hlast := last_seconds
  rw [epoch_seconds]
  generalize last.seconds = final at *
  constructor
  · intro hle
    obtain ⟨t, hresult, hvalid, hseconds⟩ := @fromUnixSeconds_of_le n (by omega)
    exact ⟨t, hresult, hvalid, hseconds, fun t' h' heq =>
      h'.eq_of_seconds hvalid (heq.trans hseconds.symm)⟩
  · intro hlt
    exact if_pos (by omega)

end RecordingDateTime

end Oxiroute.Rtmp
