import Mathlib.Algebra.Order.Group.Int
import Mathlib.Data.Int.ConditionallyCompleteOrder
import Mathlib.Order.Interval.Set.Basic
import Mathlib.Order.Monotone.Basic
import Mathlib.Tactic.IntervalCases
import Mathlib.Tactic.Ring

-- The proleptic Gregorian calendar and its days, counted from the first of January 1970. All dates
-- and times are those of one and the same time scale.
namespace Calendar

@[ext]
structure Date where
  year  : Int
  month : Int
  day   : Int
  deriving DecidableEq

def msPerDay : Int := 86400000

def isLeapYear (y : Int) : Bool :=
  4 ∣ y ∧ (¬100 ∣ y ∨ 400 ∣ y)

-- The first day of a year.
def dayFromYear (y : Int) : Int :=
  365 * (y - 1970) + (y - 1969) / 4 - (y - 1901) / 100 + (y - 1601) / 400

-- The year of a day, which an average over the 400 years of a cycle determines up to one year.
def yearFromDay (n : Int) : Int :=
  let y := 1970 + n * 400 / 146097
  if n < dayFromYear y then y - 1 else if dayFromYear (y + 1) ≤ n then y + 1 else y

-- The number of days of a year that precede its months.
def daysBeforeMonth (leap : Bool) (month : Int) : Int :=
  let feb := if leap then 29 else 28
  match month with
  | 1  => 0
  | 2  => 31
  | 3  => 31 + feb
  | 4  => 62 + feb
  | 5  => 92 + feb
  | 6  => 123 + feb
  | 7  => 153 + feb
  | 8  => 184 + feb
  | 9  => 215 + feb
  | 10 => 245 + feb
  | 11 => 276 + feb
  | _  => 306 + feb

-- The month of the day `n` of a year, counted from zero.
def monthFromDayInYear (leap : Bool) (n : Int) : Int :=
  let feb := if leap then 29 else 28
  if n < 31 then 1
  else if n < 31 + feb then 2
  else if n < 62 + feb then 3
  else if n < 92 + feb then 4
  else if n < 123 + feb then 5
  else if n < 153 + feb then 6
  else if n < 184 + feb then 7
  else if n < 215 + feb then 8
  else if n < 245 + feb then 9
  else if n < 276 + feb then 10
  else if n < 306 + feb then 11
  else 12

-- The date of a day.
def dateOfDay (n : Int) : Date :=
  let year  := yearFromDay n
  let month := monthFromDayInYear (isLeapYear year) (n - dayFromYear year)
  { year, month, day := n - dayFromYear year - daysBeforeMonth (isLeapYear year) month + 1 }

-- The day of a date. The month and the day may lie outside of their range, in which case they carry
-- over into the year and the month.
def makeDay (year month day : Int) : Int :=
  let y := year + (month - 1) / 12
  let m := (month - 1) % 12 + 1
  dayFromYear y + daysBeforeMonth (isLeapYear y) m + (day - 1)

-- The days of the week start with Sunday.
def weekday (n : Int) : Int :=
  (n + 4) % 7

-- Months are counted through all years, where the first month of the year zero has the number zero.
def monthStart (m : Int) : Int :=
  makeDay 0 (m + 1) 1

def monthOfDay (n : Int) : Int :=
  12 * (dateOfDay n).year + ((dateOfDay n).month - 1)

def daysInMonth (leap : Bool) (month : Int) : Int :=
  match month with
  | 2          => if leap then 29 else 28
  | 4 | 6 | 9 | 11 => 30
  | _          => 31

variable {leap : Bool} {n m k : Int}

theorem monthFromDayInYear_mem : monthFromDayInYear leap n ∈ Set.Icc 1 12 := by
  have step {p : Prop} [Decidable p] {a b : Int} (ha : a ∈ Set.Icc (1 : Int) 12)
      (hb : b ∈ Set.Icc (1 : Int) 12) : (if p then a else b) ∈ Set.Icc (1 : Int) 12 := by
    split
    case isTrue  => exact ha
    case isFalse => exact hb
  iterate 11 refine step (by decide) ?_
  decide

-- The date of a day is one of that day, also if one counts on from it.
theorem makeDay_dateOfDay :
    makeDay (dateOfDay n).year (dateOfDay n).month ((dateOfDay n).day + k) = n + k := by
  simp only [makeDay, dateOfDay]
  generalize hmonth : monthFromDayInYear _ _ = month
  have ⟨h₁, h₂⟩ : month ∈ Set.Icc 1 12 := hmonth ▸ monthFromDayInYear_mem
  have hy : (month - 1) / 12 = 0 := by omega
  have hm : (month - 1) % 12 + 1 = month := by omega
  rw [hy, hm, add_zero]
  ring

theorem makeDay_date : makeDay (dateOfDay n).year (dateOfDay n).month (dateOfDay n).day = n := by
  simpa using @makeDay_dateOfDay n 0

theorem dayFromYear_mono {y y' : Int} (h : y ≤ y') : dayFromYear y ≤ dayFromYear y' := by
  simp only [dayFromYear]
  omega

-- The average is at most one year off.
theorem dayFromYear_estimate :
    dayFromYear (1969 + n * 400 / 146097) ≤ n ∧ n < dayFromYear (1972 + n * 400 / 146097) := by
  simp only [dayFromYear]
  constructor
  · omega
  · omega

theorem yearFromDay_spec :
    dayFromYear (yearFromDay n) ≤ n ∧ n < dayFromYear (yearFromDay n + 1) := by
  have ⟨h₁, h₂⟩ := @dayFromYear_estimate n
  have before : 1970 + n * 400 / 146097 - 1 = 1969 + n * 400 / 146097 := by omega
  have after : 1970 + n * 400 / 146097 + 1 + 1 = 1972 + n * 400 / 146097 := by omega
  simp only [yearFromDay]
  split
  case isTrue h => exact ⟨before ▸ h₁, (sub_add_cancel (1970 + n * 400 / 146097) 1).symm ▸ h⟩
  case isFalse h =>
    split
    case isTrue h'  => exact ⟨h', after ▸ h₂⟩
    case isFalse h' => exact ⟨not_lt.mp h, not_le.mp h'⟩

theorem yearFromDay_mono (h : n ≤ m) : yearFromDay n ≤ yearFromDay m := by
  by_contra hlt
  have : dayFromYear (yearFromDay m + 1) ≤ dayFromYear (yearFromDay n) :=
    dayFromYear_mono <| by omega
  have := (@yearFromDay_spec n).left
  have := (@yearFromDay_spec m).right
  omega

-- Days that are at most a year apart belong to years that follow each other.
theorem yearFromDay_le (h : n ≤ m + 365) : yearFromDay n ≤ yearFromDay m + 1 := by
  by_contra hlt
  have : dayFromYear (yearFromDay m + 1) + 365 ≤ dayFromYear (yearFromDay m + 2) := by
    simp only [dayFromYear]
    omega
  have : dayFromYear (yearFromDay m + 2) ≤ dayFromYear (yearFromDay n) :=
    dayFromYear_mono <| by omega
  have := (@yearFromDay_spec n).left
  have := (@yearFromDay_spec m).right
  omega

theorem dayFromYear_succ {y : Int} :
    dayFromYear (y + 1) = dayFromYear y + if isLeapYear y then 366 else 365 := by
  by_cases h : isLeapYear y
  case pos =>
    rw [if_pos h]
    simp only [isLeapYear, decide_eq_true_eq] at h
    simp only [dayFromYear]
    omega
  case neg =>
    rw [if_neg h]
    simp only [isLeapYear, decide_eq_true_eq] at h
    simp only [dayFromYear]
    omega

theorem monthStart_eq :
    monthStart m = dayFromYear (m / 12) + daysBeforeMonth (isLeapYear (m / 12)) (m % 12 + 1) := by
  simp [monthStart, makeDay]

theorem daysInMonth_mem : daysInMonth leap m ∈ Set.Icc 28 31 := by
  unfold daysInMonth
  split
  case h_1 => cases leap <;> decide
  all_goals decide

-- The months of a year follow each other, and the last one is followed by the next year.
theorem daysBeforeMonth_succ {month : Int} (h : month ∈ Set.Icc 1 12) :
    (if month = 12 then if leap then 366 else 365 else daysBeforeMonth leap (month + 1)) =
      daysBeforeMonth leap month + daysInMonth leap month := by
  have ⟨h₁, h₂⟩ := h
  cases leap <;> interval_cases month <;> rfl

theorem monthStart_succ :
    monthStart (m + 1) = monthStart m + daysInMonth (isLeapYear (m / 12)) (m % 12 + 1) := by
  have step := @daysBeforeMonth_succ (isLeapYear (m / 12)) (m % 12 + 1)
    ⟨by omega, by omega⟩
  rw [monthStart_eq, monthStart_eq, add_assoc, ← step]
  split
  case isTrue h =>
    have hy : (m + 1) / 12 = m / 12 + 1 := by omega
    have hm : (m + 1) % 12 + 1 = 1 := by omega
    rw [hy, hm, dayFromYear_succ]
    exact add_zero _
  case isFalse h =>
    have hy : (m + 1) / 12 = m / 12 := by omega
    have hm : (m + 1) % 12 + 1 = m % 12 + 1 + 1 := by omega
    rw [hy, hm]

theorem monthStart_strictMono : StrictMono monthStart :=
  strictMono_int_of_lt_succ fun m => by
    have ⟨h, _⟩ := @daysInMonth_mem (isLeapYear (m / 12)) (m % 12 + 1)
    rw [monthStart_succ]
    omega

-- The day `n` of a year belongs to a month.
def DayOfMonth (leap : Bool) (n month : Int) : Prop :=
  daysBeforeMonth leap month ≤ n ∧ n < daysBeforeMonth leap month + daysInMonth leap month

theorem monthFromDayInYear_spec (h₀ : 0 ≤ n) (h : n < if leap then 366 else 365) :
    DayOfMonth leap n (monthFromDayInYear leap n) := by
  have within {month : Int} (lo len : Int) (hb : daysBeforeMonth leap month = lo)
      (hl : daysInMonth leap month = len) (h₁ : lo ≤ n) (h₂ : n < lo + len) :
      DayOfMonth leap n month :=
    ⟨hb.symm ▸ h₁, hb.symm ▸ hl.symm ▸ h₂⟩
  have choose {p : Prop} [Decidable p] {a b : Int} (ha : p → DayOfMonth leap n a)
      (hb : ¬p → DayOfMonth leap n b) : DayOfMonth leap n (if p then a else b) := by
    split
    case isTrue h  => exact ha h
    case isFalse h => exact hb h
  let feb : Int := if leap then 29 else 28
  have year : n < 337 + feb := by
    cases leap
    case false => exact h
    case true  => exact h
  refine choose (fun _ => within 0 31 rfl rfl (by omega) (by omega)) fun _ => ?_
  refine choose (fun _ => within 31 feb rfl rfl (by omega) (by omega)) fun _ => ?_
  refine choose (fun _ => within (31 + feb) 31 rfl rfl (by omega) (by omega)) fun _ => ?_
  refine choose (fun _ => within (62 + feb) 30 rfl rfl (by omega) (by omega)) fun _ => ?_
  refine choose (fun _ => within (92 + feb) 31 rfl rfl (by omega) (by omega)) fun _ => ?_
  refine choose (fun _ => within (123 + feb) 30 rfl rfl (by omega) (by omega)) fun _ => ?_
  refine choose (fun _ => within (153 + feb) 31 rfl rfl (by omega) (by omega)) fun _ => ?_
  refine choose (fun _ => within (184 + feb) 31 rfl rfl (by omega) (by omega)) fun _ => ?_
  refine choose (fun _ => within (215 + feb) 30 rfl rfl (by omega) (by omega)) fun _ => ?_
  refine choose (fun _ => within (245 + feb) 31 rfl rfl (by omega) (by omega)) fun _ => ?_
  refine choose (fun _ => within (276 + feb) 30 rfl rfl (by omega) (by omega)) fun _ => ?_
  exact within (306 + feb) 31 rfl rfl (by omega) (by omega)

theorem month_mem : (dateOfDay n).month ∈ Set.Icc 1 12 :=
  monthFromDayInYear_mem

theorem monthOfDay_div : monthOfDay n / 12 = (dateOfDay n).year := by
  have ⟨h₁, h₂⟩ := @month_mem n
  simp only [monthOfDay]
  omega

theorem monthOfDay_mod : monthOfDay n % 12 + 1 = (dateOfDay n).month := by
  have ⟨h₁, h₂⟩ := @month_mem n
  simp only [monthOfDay]
  omega

theorem monthStart_monthOfDay : monthStart (monthOfDay n) = n - (dateOfDay n).day + 1 := by
  rw [monthStart_eq, monthOfDay_div, monthOfDay_mod]
  simp only [dateOfDay]
  ring

theorem monthOfDay_spec : monthStart (monthOfDay n) ≤ n ∧ n < monthStart (monthOfDay n + 1) := by
  have ⟨h₁, h₂⟩ := @yearFromDay_spec n
  have hy := @dayFromYear_succ (yearFromDay n)
  have ⟨h₃, h₄⟩ := @monthFromDayInYear_spec (isLeapYear (yearFromDay n))
    (n - dayFromYear (yearFromDay n)) (by omega) (by omega)
  rw [monthStart_succ, monthStart_eq, monthOfDay_div, monthOfDay_mod]
  simp only [dateOfDay]
  omega

-- A day belongs to the month in which it lies.
theorem monthOfDay_eq_iff : monthOfDay n = m ↔ monthStart m ≤ n ∧ n < monthStart (m + 1) := by
  have ⟨h₁, h₂⟩ := @monthOfDay_spec n
  constructor
  case mp  => exact fun h => h ▸ ⟨h₁, h₂⟩
  case mpr =>
    intro ⟨h₃, h₄⟩
    have := monthStart_strictMono.lt_iff_lt.mp <| h₁.trans_lt h₄
    have := monthStart_strictMono.lt_iff_lt.mp <| h₃.trans_lt h₂
    omega

theorem makeDay_eq {y mo d : Int} : makeDay y mo d = monthStart (12 * y + (mo - 1)) + (d - 1) := by
  have hy : (12 * y + (mo - 1)) / 12 = y + (mo - 1) / 12 := by omega
  have hm : (12 * y + (mo - 1)) % 12 = (mo - 1) % 12 := by omega
  rw [monthStart_eq, hy, hm, makeDay]

namespace Date

-- The date exists.
structure Valid (date : Date) : Prop where
  month : date.month ∈ Set.Icc 1 12
  day   : date.day ∈ Set.Icc 1 (daysInMonth (isLeapYear date.year) date.month)

-- The dates that exist are those that do not carry over.
theorem valid_iff {date : Date} :
    date.Valid ↔ dateOfDay (makeDay date.year date.month date.day) = date := by
  generalize hn : makeDay date.year date.month date.day = n
  rw [makeDay_eq] at hn
  constructor
  case mp =>
    intro ⟨⟨h₁, h₂⟩, h₃, h₄⟩
    have hm : monthOfDay n = 12 * date.year + (date.month - 1) := by
      have hy : (12 * date.year + (date.month - 1)) / 12 = date.year := by omega
      have hm : (12 * date.year + (date.month - 1)) % 12 + 1 = date.month := by omega
      rw [monthOfDay_eq_iff, monthStart_succ, hy, hm]
      omega
    have hy := hm ▸ @monthOfDay_div n
    have hmo := hm ▸ @monthOfDay_mod n
    have hd := hm ▸ @monthStart_monthOfDay n
    apply Date.ext
    all_goals omega
  case mpr =>
    intro he
    have ⟨h₁, h₂⟩ := @monthOfDay_spec n
    rw [monthStart_succ, monthOfDay_div, monthOfDay_mod, monthStart_monthOfDay, he] at h₂
    rw [monthStart_monthOfDay, he] at h₁
    exact ⟨he ▸ month_mem, by omega, by omega⟩

theorem valid_dateOfDay : (dateOfDay n).Valid :=
  valid_iff.mpr <| congrArg dateOfDay makeDay_date

end Date

end Calendar
