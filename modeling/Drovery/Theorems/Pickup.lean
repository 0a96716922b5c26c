import Drovery.Objects.Pickup
import Drovery.Objects.Theorems.Recurrence
import Drovery.Services.Recurring

-- The representation of a date in the form `YYYY-MM-DD`.
def Calendar.Date.iso (date : Calendar.Date) : String :=
  .ofList <| Decimal.pad 4 date.year.toNat ++ '-' :: Decimal.pad 2 date.month.toNat ++
    '-' :: Decimal.pad 2 date.day.toNat

namespace Drovery

open Calendar
open Decimal (pad value IsNumeral)
open Recurring (RecurringDelivery toCreateDto serviceDate twoDigits)

-- The representation of a time in the form `HH:MM`.
def clock (hh mm : Nat) : String :=
  .ofList <| pad 2 hh ++ ':' :: pad 2 mm

-- The clock shows the given time at an instant.
def FixedOffset.Shows (z : FixedOffset) (t : Instant) (date : Date) (hh mm : Nat) : Prop :=
  dateOfDay (z.localDay t) = date ∧
    (t + z.ms) % msPerDay = (hh : Int) * 3600000 + (mm : Int) * 60000

section

variable {z : FixedOffset} {t : Instant} {date : Date} {hh mm n : Nat} {cs : List Char}

theorem isoDate?_eq_some : isoDate? cs = some date ↔
    ∃ year month day, cs = year ++ '-' :: month ++ '-' :: day ∧ year.length = 4 ∧
      month.length = 2 ∧ day.length = 2 ∧ IsNumeral year ∧ IsNumeral month ∧ IsNumeral day ∧
        date = ⟨value year, value month, value day⟩ := by
  dsimp only [isoDate?]
  constructor
  case mp =>
    intro h
    split at h
    case isFalse => contradiction
    case isTrue hc =>
      have ⟨he, hy, hm, hd, ny, nm, nd⟩ := hc
      exact ⟨_, _, _, he, hy, hm, hd, ny, nm, nd, (Option.some.inj h).symm⟩
  case mpr =>
    intro ⟨[_, _, _, _], [_, _], [_, _], he, hy, hm, hd, ny, nm, nd, hdate⟩
    subst he
    exact (if_pos ⟨rfl, hy, hm, hd, ny, nm, nd⟩).trans <| congrArg some hdate.symm

-- The strings that have the form of a date are the representations of their dates.
theorem isoDate?_iff {v : String} : isoDate? v.toList = some date ↔
    date.year ∈ Set.Icc 0 9999 ∧ date.month ∈ Set.Icc 0 99 ∧ date.day ∈ Set.Icc 0 99 ∧
      v = date.iso := by
  rw [isoDate?_eq_some]
  constructor
  case mp =>
    intro ⟨year, month, day, he, hy, hm, hd, ny, nm, nd, hdate⟩
    have bound {cs : List Char} (h : IsNumeral cs) {w : Nat} (hw : cs.length = w) :
        value cs < 10 ^ w := hw ▸ Decimal.value_lt h
    have := bound ny hy
    have := bound nm hm
    have := bound nd hd
    subst hdate
    refine ⟨⟨by simp, by simp; omega⟩, ⟨by simp, by simp; omega⟩, ⟨by simp, by simp; omega⟩, ?_⟩
    rw [Date.iso, Int.toNat_natCast, Int.toNat_natCast, Int.toNat_natCast,
      Decimal.pad_value ny hy (by decide), Decimal.pad_value nm hm (by decide),
      Decimal.pad_value nd hd (by decide), ← he, String.ofList_toList]
  case mpr =>
    intro ⟨⟨hy, hy'⟩, ⟨hm, hm'⟩, ⟨hd, hd'⟩, hv⟩
    subst hv
    refine ⟨_, _, _, String.toList_ofList, ?_⟩
    have length {w n : Nat} (hw : 0 < w) (h : n < 10 ^ w) : (pad w n).length = w :=
      Decimal.length_pad_iff hw |>.mpr h
    refine ⟨length (by decide) (by omega), length (by decide) (by omega),
      length (by decide) (by omega), Decimal.isNumeral_pad, Decimal.isNumeral_pad,
      Decimal.isNumeral_pad, ?_⟩
    simp only [Decimal.value_pad]
    apply Date.ext
    all_goals simp only; omega

theorem isoDate?_iso (hv : date.Valid) (hy : date.year ∈ Set.Icc 0 9999) :
    isoDate? date.iso.toList = some date := by
  obtain ⟨⟨h₁, h₂⟩, h₃, h₄⟩ := hv
  obtain ⟨_, h₅⟩ := @daysInMonth_mem (isLeapYear date.year) date.month
  exact isoDate?_iff.mpr ⟨hy, ⟨by omega, by omega⟩, ⟨by omega, by omega⟩, rfl⟩

theorem fullYear_eq_iff {y : Int} (h : 0 ≤ y) : fullYear y = y ↔ 100 ≤ y := by
  unfold fullYear
  split <;> omega

theorem dateUtc_div {y mo d : Int} :
    dateUtc y mo d 0 0 0 / msPerDay = makeDay (fullYear y) mo d := by
  simp only [dateUtc, msPerDay, Instant]
  omega

-- An accepted date exists, and its year is not taken for one of the last century.
theorem isValidPickupDate_iff {v : String} : isValidPickupDate v ↔
    ∃ date : Date, date.Valid ∧ 100 ≤ date.year ∧ date.year ≤ 9999 ∧ v = date.iso := by
  simp only [isValidPickupDate, Option.any_eq_true, decide_eq_true_eq, dateUtc_div]
  refine exists_congr fun date => ?_
  constructor
  case mp =>
    intro ⟨hd, he⟩
    obtain ⟨⟨hy, hy'⟩, _, _, hv⟩ := isoDate?_iff.mp hd
    have same := @makeDay_date (makeDay (fullYear date.year) date.month date.day)
    rw [he, makeDay_eq, makeDay_eq] at same
    have := monthStart_strictMono.injective <| add_right_cancel same
    have hf : fullYear date.year = date.year := by omega
    rw [hf] at he
    exact ⟨Date.valid_iff.mpr he, fullYear_eq_iff hy |>.mp hf, hy', hv⟩
  case mpr =>
    intro ⟨valid, hy, hy', hv⟩
    refine ⟨hv ▸ isoDate?_iso valid ⟨by omega, hy'⟩, ?_⟩
    rw [fullYear_eq_iff (by omega) |>.mpr hy]
    exact Date.valid_iff.mp valid

theorem pad_two (h : n < 100) : pad 2 n = [(n / 10).digitChar, (n % 10).digitChar] := by
  have all : ∀ n < 100, pad 2 n = [(n / 10).digitChar, (n % 10).digitChar] := by decide
  exact all n h

theorem digit?_digitChar (h : n < 10) : digit? n.digitChar = some n := by
  have all : ∀ n < 10, digit? n.digitChar = some n := by decide
  exact all n h

theorem parseTimeOfDay_clock (hh' : hh < 24) (hm : mm < 60) :
    parseTimeOfDay (clock hh mm) = some (hh, mm) := by
  have h : 10 * (hh / 10) + hh % 10 = hh := by omega
  have m : 10 * (mm / 10) + mm % 10 = mm := by omega
  rw [parseTimeOfDay, clock, String.toList_ofList, pad_two <| by omega, pad_two <| by omega]
  simp only [List.cons_append, List.nil_append]
  rw [digit?_digitChar (by omega), digit?_digitChar (by omega), digit?_digitChar (by omega),
    digit?_digitChar (by omega)]
  simp [h, m, hh', hm]

theorem isoDate?_take {v : String} (h : isoDate? v.toList = some date) :
    isoDate? (v.toList.take 10) = some date := by
  have ⟨year, month, day, he, hy, hm, hd, _⟩ := isoDate?_eq_some.mp h
  rw [List.take_of_length_le, h]
  rw [he]
  simp [hy, hm, hd]

theorem FixedOffset.shows_iff (hv : date.Valid) (hh' : hh < 24) (hm : mm < 60) :
    z.Shows t date hh mm ↔ t = z.instant (makeDay date.year date.month date.day) hh mm := by
  constructor
  case mp =>
    intro ⟨hd, ht⟩
    have := @makeDay_date (z.localDay t)
    rw [hd] at this
    rw [this]
    simp only [localDay, instant, msPerDay, Instant] at *
    omega
  case mpr =>
    intro ht
    subst ht
    refine ⟨?_, ?_⟩
    · rw [localDay_instant hh' hm]
      exact Date.valid_iff.mp hv
    · simp only [instant, msPerDay, Instant]
      omega

theorem zonedWallClockToUtc_valid (hv : date.Valid) (hy : 1000 ≤ date.year) :
    zonedWallClockToUtc date.year date.month date.day hh mm z.zone =
      z.instant (makeDay date.year date.month date.day) hh mm := by
  have hd := Date.valid_iff.mp hv
  have hy : 103 ≤ yearFromDay (makeDay date.year date.month date.day) := by
    have : yearFromDay (makeDay date.year date.month date.day) = date.year := congrArg Date.year hd
    omega
  have := @zonedWallClockToUtc_zone z _ 0 hh mm hy le_rfl
  rwa [hd, add_zero, add_zero] at this

theorem computeScheduledFor_iso (hv : date.Valid) (hy : date.year ∈ Set.Icc 1000 9999)
    {pickupTime : String} (hp : parseTimeOfDay pickupTime = some (hh, mm)) :
    computeScheduledFor date.iso pickupTime z.zone =
      some (z.instant (makeDay date.year date.month date.day) hh mm) := by
  obtain ⟨h₁, h₂⟩ := hy
  have hd := isoDate?_take <| isoDate?_iso hv ⟨by omega, h₂⟩
  rw [computeScheduledFor, hd, hp, ← zonedWallClockToUtc_valid hv h₁]
  rfl

-- The date that a zone displays in an early year is taken for a later one.
theorem tzOffsetMs_early (h : yearFromDay (z.localDay t) < 100) (hs : 1000 ∣ t) :
    z.ms ≤ tzOffsetMs t z.zone := by
  let date := dateOfDay (z.localDay t)
  have hy : date.year < 100 := h
  have later : z.localDay t ≤ makeDay (fullYear (displayYear date.year)) date.month date.day := by
    have same : makeDay date.year date.month date.day = z.localDay t := makeDay_date
    rw [makeDay_eq] at same
    have : date.year ≤ fullYear (displayYear date.year) := by
      unfold fullYear displayYear
      split_ifs <;> omega
    have := monthStart_strictMono.le_iff_le.mpr <|
      show 12 * date.year + (date.month - 1) ≤
        12 * fullYear (displayYear date.year) + (date.month - 1) by omega
    rw [makeDay_eq]
    omega
  have ht : tzOffsetMs t z.zone = dateUtc (displayYear date.year) date.month date.day 0 0
      ((t + z.ms) % msPerDay / 1000) - t := rfl
  have : 1000 ∣ z.ms := dvd_mul_left ..
  rw [ht, dateUtc]
  simp only [FixedOffset.localDay, msPerDay, Instant] at *
  omega

-- Unless its year is small, a date and time that the zone shows at an instant are those from which
-- the instant has been computed.
theorem zonedWallClockToUtc_eq {y mo d : Int} (hh' : hh < 24) (hm : mm < 60)
    (ht : t = zonedWallClockToUtc y mo d hh mm z.zone) (hy : 1000 ≤ yearFromDay (z.localDay t)) :
    t = z.instant (z.localDay t) hh mm := by
  subst ht
  let a := dateUtc y mo d hh mm 0
  have ha : 1000 ∣ a := by
    simp only [a, dateUtc, msPerDay, Instant]
    omega
  have ht : zonedWallClockToUtc y mo d hh mm z.zone = a - tzOffsetMs a z.zone := rfl
  rw [ht] at hy ⊢
  by_cases hs : 100 ≤ yearFromDay (z.localDay a)
  case pos =>
    rw [tzOffsetMs_zone hs ha]
    simp only [a, dateUtc, FixedOffset.instant, FixedOffset.localDay, msPerDay, Instant]
    omega
  case neg =>
    -- The instant would lie in an even earlier year.
    have := @tzOffsetMs_early z a (not_le.mp hs) ha
    obtain ⟨_, _⟩ := @FixedOffset.ms_bounds z
    have := @yearFromDay_le (z.localDay (a - tzOffsetMs a z.zone)) (z.localDay a) (by
      simp only [FixedOffset.localDay, msPerDay, Instant] at *
      omega)
    omega

theorem RecurrenceRule.probe_eq {rule : RecurrenceRule} {tz : TimeZone} {floor : Instant}
    {base : Date} {m offset : Nat} (h : rule.probe hh mm floor tz base m offset = some t) :
    ∃ date : Date, t = zonedWallClockToUtc date.year date.month date.day hh mm tz := by
  induction m generalizing offset
  case zero => contradiction
  case succ m ih =>
    simp only [probe] at h
    split at h
    case isTrue => exact ih h
    case isFalse =>
      split at h
      case isTrue => exact ih h
      case isFalse =>
        split at h
        case isTrue  => contradiction
        case isFalse => exact ⟨_, (Option.some.inj h).symm⟩

-- An occurrence is the instant at which the clock shows the time of the rule on some day.
theorem computeNextOccurrence_eq {rule : RecurrenceRule} {after : Instant}
    (h : computeNextOccurrence rule after z.zone = some t)
    (hy : 1000 ≤ yearFromDay (z.localDay t)) :
    ∃ hh mm, parseTimeOfDay rule.timeOfDay = some (hh, mm) ∧
      t = z.instant (z.localDay t) hh mm := by
  unfold computeNextOccurrence at h
  split at h
  case h_1 => contradiction
  case h_2 hh mm hp =>
    split at h
    case isTrue  => contradiction
    case isFalse =>
      have ⟨hh', hm⟩ := parseTimeOfDay_bounds hp
      have ⟨_, ht⟩ := RecurrenceRule.probe_eq h
      exact ⟨hh, mm, hp, zonedWallClockToUtc_eq hh' hm ht hy⟩

theorem toList_twoDigits (h : n < 100) : (twoDigits n).toList = pad 2 n := by
  have all : ∀ n : Nat, n < 100 → (twoDigits n).toList = pad 2 n := by decide +kernel
  exact all n h

theorem serviceDate_eq (hy : yearFromDay (z.localDay t) ∈ Set.Icc 1000 9999) :
    serviceDate t z.zone = (dateOfDay (z.localDay t)).iso := by
  obtain ⟨h₁, h₂⟩ := hy
  obtain ⟨⟨h₃, h₄⟩, h₅, h₆⟩ := @Date.valid_dateOfDay (z.localDay t)
  obtain ⟨_, h₇⟩ := @daysInMonth_mem (isLeapYear (dateOfDay (z.localDay t)).year)
    (dateOfDay (z.localDay t)).month
  have hdate := @tzCalendarDate_zone z t (by omega)
  have hyear : (dateOfDay (z.localDay t)).year = yearFromDay (z.localDay t) := rfl
  rw [serviceDate, hdate]
  generalize dateOfDay (z.localDay t) = date at *
  have two {n : Int} (h₀ : 0 ≤ n) (h : n < 100) : (twoDigits n).toList = pad 2 n.toNat := by
    rw [← toList_twoDigits (by omega), Int.toNat_of_nonneg h₀]
  have four : (toString date.year).toList = pad 4 date.year.toNat := by
    obtain ⟨n, hn⟩ := Int.eq_ofNat_of_zero_le (show 0 ≤ date.year by omega)
    rw [hn, Int.toNat_natCast, Decimal.pad_of_le (by decide) (by omega)]
    exact Nat.toList_repr
  have dash : "-".toList = ['-'] := by decide
  apply String.toList_injective
  simp only [Date.iso, String.toList_append, String.toList_ofList, four, dash]
  rw [two (by omega) (by omega), two (by omega) (by omega)]
  simp

end

-- The pickup date and time of a delivery and its instant determine each other, and those that are
-- ordered for an occurrence stand for this occurrence.
theorem pickup_round_trip (z : FixedOffset) :
    (∀ v, isValidPickupDate v ↔
      ∃ date : Date, date.Valid ∧ 100 ≤ date.year ∧ date.year ≤ 9999 ∧ v = date.iso) ∧
    (∀ date : Date, date.Valid → date.year ∈ Set.Icc 1000 9999 → ∀ hh < 24, ∀ mm < 60,
      ∃ t, computeScheduledFor date.iso (clock hh mm) z.zone = some t ∧
        ∀ t', z.Shows t' date hh mm ↔ t' = t) ∧
    (∀ (s : RecurringDelivery) after occurrence,
      computeNextOccurrence s.toRecurrenceRule after z.zone = some occurrence →
      yearFromDay (z.localDay occurrence) ∈ Set.Icc 1000 9999 →
      let dto := toCreateDto s occurrence z.zone
      isValidPickupDate dto.pickupDate ∧ (parseTimeOfDay dto.pickupTime).isSome ∧
        computeScheduledFor dto.pickupDate dto.pickupTime z.zone = some occurrence) := by
  refine ⟨fun v => isValidPickupDate_iff, ?_, ?_⟩
  case refine_1 =>
    intro date hv hy hh hh' mm hm
    exact ⟨_, computeScheduledFor_iso hv hy (parseTimeOfDay_clock hh' hm),
      fun _ => FixedOffset.shows_iff hv hh' hm⟩
  case refine_2 =>
    intro s after t ht hy dto
    have ⟨hh, mm, hp, he⟩ := computeNextOccurrence_eq ht hy.left
    have date : dto.pickupDate = _ := serviceDate_eq hy
    have hv := @Date.valid_dateOfDay (z.localDay t)
    refine ⟨?_, Option.isSome_of_eq_some hp, ?_⟩
    case refine_1 =>
      exact isValidPickupDate_iff.mpr ⟨_, hv, (by decide : (100 : Int) ≤ 1000).trans hy.left,
        hy.right, date⟩
    case refine_2 =>
      have hs := @computeScheduledFor_iso z _ hh mm hv hy _ hp
      rw [makeDay_date, ← he] at hs
      exact date.symm ▸ hs

-- The morning of a leap day in Jakarta, which is still the day before in UTC.
theorem pickup_round_trip_leap_day :
    let z    : FixedOffset := ⟨7 * 3600, by decide⟩
    let date : Date        := ⟨2024, 2, 29⟩
    isValidPickupDate "2024-02-29" ∧ ∀ t, z.Shows t date 5 30 ↔ t = 1709159400000 := by
  intro z date
  obtain ⟨accepted, scheduled, _⟩ := pickup_round_trip z
  have valid : date.Valid := ⟨by decide, by decide⟩
  obtain ⟨t, ht, shows⟩ := scheduled date valid (by decide) 5 (by decide) 30 (by decide)
  have hs : computeScheduledFor date.iso (clock 5 30) z.zone = some 1709159400000 := by
    decide +kernel
  refine ⟨accepted _ |>.mpr ⟨date, valid, by decide, by decide, by decide⟩, fun t' => ?_⟩
  rw [shows t', Option.some.inj <| ht.symm.trans hs]

end Drovery
