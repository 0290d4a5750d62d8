import Mathlib

/-!
The day a traffic bucket is filed under. `utc_day` of web_parity.rs finds the
date of a unix time by dividing into eras of 400 years that start in March; here
it is compared with the calendar counted out year by year and month by month.
-/

namespace TlsVpn.Calendar

section Source

def padded (width : Nat) (value : Int) : List Char :=
  let digits := Nat.toDigits 10 value.natAbs
  if value < 0 then '-' :: (List.replicate (width - 1 - digits.length) '0' ++ digits)
  else List.replicate (width - digits.length) '0' ++ digits

def fromMarch (year doy : Int) : Int × Int × Int :=
  let mp := (5 * doy + 2) / 153
  let day := doy - (153 * mp + 2) / 5 + 1
  let month := mp + if mp < 10 then 3 else -9
  (year + (if month ≤ 2 then 1 else 0), month, day)

/-- Year, month and day; `/` is `div_euclid`. -/
def civil (unix : Int) : Int × Int × Int :=
  let z := unix / 86400 + 719468
  let era := (if z ≥ 0 then z else z - 146096) / 146097
  let doe := z - era * 146097
  let yoe := (doe - doe.tdiv 1460 + doe.tdiv 36524 - doe.tdiv 146096) / 365
  fromMarch (yoe + era * 400) (doe - (365 * yoe + yoe.tdiv 4 - yoe.tdiv 100))

def dateText (date : Int × Int × Int) : List Char :=
  padded 4 date.1 ++ ('-' :: padded 2 date.2.1 ++ ('-' :: padded 2 date.2.2))

def utcDay (unix : Int) : List Char := dateText (civil unix)

end Source

section Gregorian

def isLeap (year : Nat) : Bool := year % 4 = 0 ∧ (year % 100 ≠ 0 ∨ year % 400 = 0)

def monthLength (year : Nat) : Nat → Nat
  | 2 => if isLeap year then 29 else 28
  | 4 | 6 | 9 | 11 => 30
  | 1 | 3 | 5 | 7 | 8 | 10 | 12 => 31
  | _ => 0

def yearLength (year : Nat) : Nat := if isLeap year then 366 else 365

structure Date where
  year : Nat
  month : Nat
  day : Nat

structure Date.Valid (date : Date) : Prop where
  epoch : 1970 ≤ date.year
  month : 1 ≤ date.month ∧ date.month ≤ 12
  day : 1 ≤ date.day ∧ date.day ≤ monthLength date.year date.month

/-- The days of the first `years` years from 1970 on. -/
def daysOfYears : Nat → Nat
  | 0 => 0
  | years + 1 => daysOfYears years + yearLength (1970 + years)

/-- The days of the first `months` months of a year. -/
def daysOfMonths (year : Nat) : Nat → Nat
  | 0 => 0
  | months + 1 => daysOfMonths year months + monthLength year (months + 1)

def Date.number (date : Date) : Nat :=
  daysOfYears (date.year - 1970) + daysOfMonths date.year (date.month - 1) + (date.day - 1)

def leaps (year : Nat) : Nat := year / 4 - year / 100 + year / 400

theorem leaps_succ (year : Nat) :
    leaps (year + 1) = leaps year + if isLeap (year + 1) then 1 else 0 := by
  unfold leaps isLeap
  split <;> rename_i leap <;> simp only [decide_eq_true_eq] at leap <;> omega

theorem daysOfYears_eq (years : Nat) :
    daysOfYears years + 477 = 365 * years + leaps (1969 + years) := by
  induction years with
  | zero => rfl
  | succ years ih =>
    have next := leaps_succ (1969 + years)
    rw [show 1969 + years + 1 = 1970 + years by omega] at next
    rw [daysOfYears, yearLength, show 1969 + (years + 1) = 1970 + years by omega, next]
    split <;> split at next <;> omega

end Gregorian

section Days

/-- A day of an era by its century, its four years, its year and its day there;
the last day of a leap year is its 366th. -/
theorem era_split (doe : Nat) (inside : doe ≤ 146096) : ∃ c q t doy, c ≤ 3 ∧ q ≤ 24 ∧ t ≤ 3 ∧
    doe = 36524 * c + 1461 * q + 365 * t + doy ∧
      (doy ≤ 364 ∨ doy = 365 ∧ t = 3 ∧ (q = 24 → c = 3)) := by
  let c := min (doe / 36524) 3
  let q := (doe - 36524 * c) / 1461
  let t := min ((doe - 36524 * c - 1461 * q) / 365) 3
  exact ⟨c, q, t, doe - 36524 * c - 1461 * q - 365 * t, by omega, by omega, by omega, by omega,
    by omega⟩

theorem yearOfEra_eq {doe c q t doy : Nat} (century : c ≤ 3) (four : q ≤ 24) (year : t ≤ 3)
    (split : doe = 36524 * c + 1461 * q + 365 * t + doy)
    (day : doy ≤ 364 ∨ doy = 365 ∧ t = 3 ∧ (q = 24 → c = 3)) :
    (doe - doe / 1460 + doe / 36524 - doe / 146096) / 365 = 100 * c + 4 * q + t := by
  have inside : 1461 * q + 365 * t + doy ≤ 36523 ∨ c = 3 ∧ 1461 * q + 365 * t + doy = 36524 := by
    omega
  have centuries : doe / 36524 = c + doe / 146096 := by
    rcases inside with within | ⟨last, whole⟩
    · have none : doe / 146096 = 0 := by omega
      omega
    · omega
  have fours : doe / 1460 = 25 * c + q + (24 * c + q + 365 * t + doy) / 1460 := by omega
  omega

theorem civil_march (unix : Nat) : ∃ year doy : Nat,
    unix / 86400 + 719468 = 365 * year + leaps year + doy ∧
      (doy ≤ 364 ∨ doy = 365 ∧ isLeap (year + 1) = true) ∧
      civil unix = fromMarch year doy := by
  let z := unix / 86400 + 719468
  obtain ⟨c, q, t, doy, century, four, year, split, day⟩ := era_split (z % 146097) (by omega)
  have years := yearOfEra_eq century four year split day
  refine ⟨100 * c + 4 * q + t + z / 146097 * 400, doy, ?_, ?_, ?_⟩
  · unfold leaps
    omega
  · refine day.imp_right ?_
    rintro ⟨last, third, end_⟩
    refine ⟨last, ?_⟩
    unfold isLeap
    rw [decide_eq_true_eq]
    omega
  · have front : ((unix : Int) / 86400 + 719468) = (z : Int) := by omega
    unfold civil
    simp only [front]
    rw [if_pos (by omega)]
    have doe : (z : Int) - (z : Int) / 146097 * 146097 = ((z % 146097 : Nat) : Int) := by omega
    rw [doe]
    generalize z % 146097 = rest at split years ⊢
    simp only [Int.tdiv_eq_ediv_of_nonneg (Int.natCast_nonneg _)]
    have yoe : ((rest : Int) - (rest : Int) / 1460 + (rest : Int) / 36524 - (rest : Int) / 146096) /
        365 = ((100 * c + 4 * q + t : Nat) : Int) := by omega
    rw [yoe]
    simp only [Int.tdiv_eq_ediv_of_nonneg (Int.natCast_nonneg _)]
    have quarters : (100 * c + 4 * q + t) / 4 = 25 * c + q := by omega
    have hundreds : (100 * c + 4 * q + t) / 100 = c := by omega
    clear years yoe
    congr 1
    omega

theorem daysOfMonths_eq (year month : Nat) (inside : month < 12) :
    daysOfMonths year month = (if month < 2 then 31 * month
      else (153 * (month - 2) + 2) / 5 + 59 + if isLeap year then 1 else 0) := by
  interval_cases month <;> simp [daysOfMonths, monthLength] <;> split <;> rfl

theorem fromMarch_early {year doy mp : Nat} (known : 1970 ≤ year) (place : mp = (5 * doy + 2) / 153)
    (early : mp < 10) : ∃ date : Date, date.Valid ∧
      date.number + 719468 = 365 * year + leaps year + doy ∧
      fromMarch year doy = ((date.year : Int), (date.month : Int), (date.day : Int)) := by
  have front : (5 * (doy : Int) + 2) / 153 = (mp : Int) := by omega
  refine ⟨⟨year, mp + 3, doy - (153 * mp + 2) / 5 + 1⟩, ⟨known, by simp; omega, ?_⟩, ?_, ?_⟩
  · interval_cases mp <;> simp [monthLength] <;> omega
  · have days := daysOfYears_eq (year - 1970)
    have passed := leaps_succ (year - 1)
    rw [show 1969 + (year - 1970) = year - 1 by omega] at days
    rw [show year - 1 + 1 = year by omega] at passed
    have months := daysOfMonths_eq year (mp + 2) (by omega)
    rw [if_neg (by omega), Nat.add_sub_cancel] at months
    simp only [Date.number, Nat.add_sub_cancel, show mp + 3 - 1 = mp + 2 by omega, months]
    omega
  · unfold fromMarch
    simp only [front]
    have low : (mp : Int) < 10 := by omega
    rw [if_pos low, if_neg (show ¬(mp : Int) + 3 ≤ 2 by omega)]
    simp
    omega

theorem fromMarch_late {year doy mp : Nat} (known : 1969 ≤ year) (place : mp = (5 * doy + 2) / 153)
    (inside : doy ≤ 364 ∨ doy = 365 ∧ isLeap (year + 1) = true) (late : 10 ≤ mp) :
    ∃ date : Date, date.Valid ∧ date.number + 719468 = 365 * year + leaps year + doy ∧
      fromMarch year doy = ((date.year : Int), (date.month : Int), (date.day : Int)) := by
  have front : (5 * (doy : Int) + 2) / 153 = (mp : Int) := by omega
  have bound : mp < 12 := by omega
  refine ⟨⟨year + 1, mp - 9, doy - (153 * mp + 2) / 5 + 1⟩,
    ⟨by simp; omega, by simp; omega, ?_⟩, ?_, ?_⟩
  · interval_cases mp
    · simp [monthLength]
      omega
    · rcases inside with within | ⟨last, leap⟩
      · simp only [monthLength]
        split <;> omega
      · simp [monthLength, leap, last]
  · have days := daysOfYears_eq (year + 1 - 1970)
    rw [show 1969 + (year + 1 - 1970) = year by omega] at days
    have months := daysOfMonths_eq (year + 1) (mp - 9 - 1) (by omega)
    rw [if_pos (by omega)] at months
    simp only [Date.number, months]
    omega
  · unfold fromMarch
    simp only [front]
    have high : ¬(mp : Int) < 10 := by omega
    rw [if_neg high, if_pos (show (mp : Int) + -9 ≤ 2 by omega)]
    simp
    omega

theorem civil_date (unix : Nat) : ∃ date : Date, date.Valid ∧ date.number = unix / 86400 ∧
    civil unix = ((date.year : Int), (date.month : Int), (date.day : Int)) := by
  obtain ⟨year, doy, day, inside, from_⟩ := civil_march unix
  have known : 1970 ≤ year ∨ year = 1969 ∧ 306 ≤ doy := by
    by_contra before
    have most : leaps year ≤ 477 := by
      have : year ≤ 1969 := by omega
      unfold leaps
      omega
    omega
  obtain ⟨date, valid, number, is⟩ : ∃ date : Date, date.Valid ∧
      date.number + 719468 = 365 * year + leaps year + doy ∧
      fromMarch year doy = ((date.year : Int), (date.month : Int), (date.day : Int)) := by
    by_cases early : (5 * doy + 2) / 153 < 10
    · exact fromMarch_early (by omega) rfl early
    · exact fromMarch_late (by omega) rfl inside (by omega)
  exact ⟨date, valid, by omega, from_.trans is⟩

end Days

section Text

theorem padded_read (width value : Nat) : Nat.ofDigitChars 10 (padded width value) 0 = value := by
  have zeros (count : Nat) (rest : List Char) :
      Nat.ofDigitChars 10 (List.replicate count '0' ++ rest) 0 = Nat.ofDigitChars 10 rest 0 := by
    induction count with
    | zero => rfl
    | succ count ih => exact ih
  unfold padded
  rw [if_neg (by omega), zeros]
  exact Nat.ofDigitChars_ten_toDigits

theorem padded_two {value : Nat} (small : value < 100) : (padded 2 value).length = 2 := by
  have digits : (Nat.toDigits 10 value).length ≤ 2 := by
    rw [Nat.length_toDigits_le_iff (by decide) (by decide)]
    exact small
  have some : 0 < (Nat.toDigits 10 value).length := Nat.length_toDigits_pos
  unfold padded
  rw [if_neg (by omega)]
  simp
  omega

def Date.text (date : Date) : List Char := dateText (date.year, date.month, date.day)

theorem Date.Valid.small {date : Date} (valid : date.Valid) : date.month < 100 ∧ date.day < 100 := by
  obtain ⟨_, month, day⟩ := valid
  have most : monthLength date.year date.month ≤ 31 := by
    unfold monthLength
    split
    · split <;> omega
    all_goals omega
  omega

theorem Date.text_inj {one other : Date} (first : one.Valid) (second : other.Valid)
    (same : one.text = other.text) : one = other := by
  obtain ⟨oneMonth, oneDay⟩ := first.small
  obtain ⟨otherMonth, otherDay⟩ := second.small
  obtain ⟨years, rest⟩ := List.append_inj' same
    (by simp [padded_two oneMonth, padded_two oneDay, padded_two otherMonth, padded_two otherDay])
  obtain ⟨months, rest⟩ := List.append_inj' (List.cons.inj rest).2
    (by simp [padded_two oneDay, padded_two otherDay])
  have days := (List.cons.inj rest).2
  have read {width value value' : Nat} (equal : padded width value = padded width value') :
      value = value' := by
    rw [← padded_read width value, equal, padded_read]
  cases one
  cases other
  exact congr (congrArg₂ Date.mk (read years) (read months)) (read days)

/-- A unix time is filed under the Gregorian date of its day, so two times share
a key exactly when they share the day. -/
theorem utc_day_calendar (unix : Nat) :
    (∃ date : Date, date.Valid ∧ date.number = unix / 86400 ∧ utcDay unix = date.text) ∧
      ∀ other : Nat, utcDay unix = utcDay other ↔ unix / 86400 = other / 86400 := by
  have filed (unix : Nat) :
      ∃ date : Date, date.Valid ∧ date.number = unix / 86400 ∧ utcDay unix = date.text := by
    obtain ⟨date, valid, number, is⟩ := civil_date unix
    exact ⟨date, valid, number, congrArg dateText is⟩
  refine ⟨filed unix, fun other => ⟨fun same => ?_, fun days => ?_⟩⟩
  · obtain ⟨date, valid, number, text⟩ := filed unix
    obtain ⟨date', valid', number', text'⟩ := filed other
    rw [← number, ← number', Date.text_inj valid valid' (text.symm.trans (same.trans text'))]
  · have whole : (unix : Int) / 86400 = (other : Int) / 86400 := by omega
    unfold utcDay civil
    rw [whole]

end Text

end TlsVpn.Calendar
