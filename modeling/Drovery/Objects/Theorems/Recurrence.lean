import Mathlib.Order.Bounds.Basic
import Drovery.Objects.Recurrence

namespace Drovery

open Calendar

-- The zones that are always the same number of seconds ahead of UTC. It is less than a day.
structure FixedOffset where
  seconds : Int
  lt_day  : |seconds| < 86400

namespace FixedOffset

variable (z : FixedOffset)

def ms : Int :=
  z.seconds * 1000

def zone : TimeZone :=
  .fixed z.ms

-- The calendar day of an instant.
def localDay (t : Instant) : Int :=
  (t + z.ms) / msPerDay

-- The instant at which the clock shows the given time on a calendar day.
def instant (day : Int) (hh mm : Nat) : Instant :=
  day * msPerDay + ((hh : Int) * 3600000 + (mm : Int) * 60000) - z.ms

end FixedOffset

-- The instants at which the clock shows the time of the rule on one of its days.
def RecurrenceRule.schedule (rule : RecurrenceRule) (z : FixedOffset) : Set Instant :=
  { t | ∃ hh mm day, parseTimeOfDay rule.timeOfDay = some (hh, mm) ∧ t = z.instant day hh mm ∧
      z.localDay rule.startDate ≤ day ∧ (∀ e ∈ rule.endDate, day ≤ z.localDay e) ∧
      weekday day ∈ rule.days }

section

variable {z : FixedOffset} {rule : RecurrenceRule} {t after floor : Instant} {n k day : Int}
variable {hh mm : Nat}

theorem parseTimeOfDay_bounds {s : String} (h : parseTimeOfDay s = some (hh, mm)) :
    hh < 24 ∧ mm < 60 := by
  unfold parseTimeOfDay at h
  split at h
  case h_2 => contradiction
  case h_1 =>
    simp only [Option.bind_eq_bind, Option.bind_eq_some_iff] at h
    have ⟨_, _, _, _, _, _, _, _, h⟩ := h
    split at h
    case isFalse => contradiction
    case isTrue hb =>
      have ⟨h₁, h₂⟩ := Prod.mk.inj <| Option.some.inj h
      exact h₁ ▸ h₂ ▸ hb

theorem FixedOffset.ms_bounds : -msPerDay < z.ms ∧ z.ms < msPerDay := by
  have ⟨h₁, h₂⟩ := abs_lt.mp z.lt_day
  simp only [ms, msPerDay]
  omega

theorem tzCalendarDate_zone (h : 100 ≤ yearFromDay (z.localDay t)) :
    tzCalendarDate t z.zone = dateOfDay (z.localDay t) := by
  have : displayYear (yearFromDay (z.localDay t)) = yearFromDay (z.localDay t) :=
    if_pos <| by omega
  simp only [tzCalendarDate, FixedOffset.zone, TimeZone.fixed]
  exact congrArg (fun y => { dateOfDay (z.localDay t) with year := y }) this

theorem dateUtc_dateOfDay {hh mm ss : Int} (h : 100 ≤ yearFromDay n) :
    dateUtc (dateOfDay n).year (dateOfDay n).month ((dateOfDay n).day + k) hh mm ss =
      (n + k) * msPerDay + (hh * 3600000 + mm * 60000 + ss * 1000) := by
  have : fullYear (dateOfDay n).year = (dateOfDay n).year :=
    if_neg fun hy => by have : (dateOfDay n).year = yearFromDay n := rfl; omega
  rw [dateUtc, this, makeDay_dateOfDay]

theorem tzOffsetMs_zone (h : 100 ≤ yearFromDay (z.localDay t)) (hs : 1000 ∣ t) :
    tzOffsetMs t z.zone = z.ms := by
  have hd := @dateUtc_dateOfDay (z.localDay t) 0 0 0 ((t + z.ms) % msPerDay / 1000) h
  rw [add_zero, add_zero] at hd
  simp only [tzOffsetMs, tzCalendarDate_zone h]
  refine (congrArg (· - t) hd).trans ?_
  have : 1000 ∣ z.ms := dvd_mul_left ..
  simp only [FixedOffset.localDay, msPerDay, Instant] at *
  omega

-- A date stands for the same day, however many days one counts on from it.
theorem zonedWallClockToUtc_zone (h : 103 ≤ yearFromDay n) (hk : 0 ≤ k) :
    zonedWallClockToUtc (dateOfDay n).year (dateOfDay n).month ((dateOfDay n).day + k) hh mm
      z.zone = z.instant (n + k) hh mm := by
  have hd := @dateUtc_dateOfDay n k hh mm 0 (by omega)
  rw [zonedWallClockToUtc, hd, tzOffsetMs_zone]
  · simp only [FixedOffset.instant]
    ring
  · have ⟨hz, _⟩ := @FixedOffset.ms_bounds z
    have := @yearFromDay_le n
      (z.localDay ((n + k) * msPerDay + ((hh : Int) * 3600000 + (mm : Int) * 60000 + 0 * 1000)))
      (by simp only [FixedOffset.localDay, msPerDay] at hz ⊢; omega)
    omega
  · simp only [msPerDay, Instant]
    omega

theorem dayStartUtc_zone (h : 103 ≤ yearFromDay (z.localDay t)) :
    dayStartUtc t z.zone = z.instant (z.localDay t) 0 0 := by
  rw [dayStartUtc, tzCalendarDate_zone <| by omega]
  simpa using @zonedWallClockToUtc_zone z (z.localDay t) 0 0 0 h le_rfl

theorem nextDayStartUtc_zone (h : 103 ≤ yearFromDay (z.localDay t)) :
    nextDayStartUtc t z.zone = z.instant (z.localDay t + 1) 0 0 := by
  rw [nextDayStartUtc, tzCalendarDate_zone <| by omega]
  exact @zonedWallClockToUtc_zone z (z.localDay t) 1 0 0 h zero_le_one

namespace FixedOffset

theorem localDay_mono {t₁ t₂ : Instant} (h : t₁ ≤ t₂) : z.localDay t₁ ≤ z.localDay t₂ :=
  Int.ediv_le_ediv (by decide) <| Int.add_le_add_right h _

theorem instant_add_one : z.instant (day + 1) hh mm = z.instant day hh mm + msPerDay := by
  simp only [instant]
  ring

theorem instant_le_iff {day' : Int} :
    z.instant day hh mm ≤ z.instant day' hh mm ↔ day ≤ day' := by
  simp only [instant, msPerDay, Instant]
  omega

-- A day starts no later than any of its times.
theorem instant_zero_le_iff (hh' : hh < 24) (hm : mm < 60) {day' : Int} :
    z.instant day' 0 0 ≤ z.instant day hh mm ↔ day' ≤ day := by
  simp only [instant, msPerDay, Instant]
  omega

theorem localDay_instant (hh' : hh < 24) (hm : mm < 60) :
    z.localDay (z.instant day hh mm) = day := by
  simp only [localDay, instant, msPerDay, Instant]
  omega

theorem lt_instant (h : z.localDay t < day) : t < z.instant day hh mm := by
  simp only [localDay, instant, msPerDay, Instant] at *
  omega

end FixedOffset

namespace RecurrenceRule

open FixedOffset

-- The probe stops at the first such day.
def Hit (rule : RecurrenceRule) (z : FixedOffset) (floor : Instant) (hh mm : Nat) (day : Int) :
    Prop :=
  weekday day ∈ rule.days ∧ floor < z.instant day hh mm

theorem exhausted_zone (he : ∀ e ∈ rule.endDate, 103 ≤ yearFromDay (z.localDay e))
    (hh' : hh < 24) (hm : mm < 60) :
    rule.exhausted z.zone (z.instant day hh mm) ↔ ∃ e ∈ rule.endDate, z.localDay e < day := by
  simp only [exhausted, Option.any_eq_true, decide_eq_true_eq]
  refine exists_congr fun e => and_congr_right fun h => ?_
  rw [nextDayStartUtc_zone <| he e h, instant_zero_le_iff hh' hm]
  exact Int.add_one_le_iff

theorem probe_cases {offset m : Nat} (hn : 106 ≤ yearFromDay n) :
    (∃ k : Nat, offset ≤ k ∧ rule.Hit z floor hh mm (n + k) ∧
      (∀ j : Nat, offset ≤ j → j < k → ¬rule.Hit z floor hh mm (n + j)) ∧
      rule.probe hh mm floor z.zone (dateOfDay n) m offset =
        if rule.exhausted z.zone (z.instant (n + k) hh mm) then none
        else some (z.instant (n + k) hh mm)) ∨
    (∀ j : Nat, offset ≤ j → j < offset + m → ¬rule.Hit z floor hh mm (n + j)) ∧
      rule.probe hh mm floor z.zone (dateOfDay n) m offset = none := by
  induction m generalizing offset
  case zero => exact .inr ⟨fun j h₁ h₂ => by omega, rfl⟩
  case succ m ih =>
    have noon : dateUtc (dateOfDay n).year (dateOfDay n).month ((dateOfDay n).day + offset) 12 0 0 /
        msPerDay = n + offset := by
      rw [dateUtc_dateOfDay <| by omega]
      simp only [msPerDay, Instant]
      omega
    have candidate : zonedWallClockToUtc (dateOfDay (n + offset)).year
        (dateOfDay (n + offset)).month (dateOfDay (n + offset)).day hh mm z.zone =
          z.instant (n + offset) hh mm := by
      have := @yearFromDay_le n (n + offset) (by omega)
      simpa using @zonedWallClockToUtc_zone z (n + offset) 0 hh mm (by omega) le_rfl
    by_cases hit : rule.Hit z floor hh mm (n + offset)
    case pos =>
      refine .inl ⟨offset, le_rfl, hit, fun j h₁ h₂ => by omega, ?_⟩
      simp only [probe, noon, candidate]
      rw [if_neg <| not_not.mpr hit.left, if_neg <| not_le.mpr hit.right]
    case neg =>
      have next : rule.probe hh mm floor z.zone (dateOfDay n) (m + 1) offset =
          rule.probe hh mm floor z.zone (dateOfDay n) m (offset + 1) := by
        simp only [probe, noon, candidate]
        split
        case isTrue => rfl
        case isFalse hd =>
          split
          case isTrue     => rfl
          case isFalse hf => exact absurd ⟨not_not.mp hd, not_le.mp hf⟩ hit
      have miss {j : Nat} (h : offset ≤ j) : j = offset ∨ offset + 1 ≤ j := by omega
      rw [next]
      cases @ih (offset + 1)
      case inl h =>
        obtain ⟨k, hk, hit', hmin, he⟩ := h
        refine .inl ⟨k, by omega, hit', fun j h₁ h₂ => ?_, he⟩
        cases miss h₁
        case inl h => exact h ▸ hit
        case inr h => exact hmin j h h₂
      case inr h =>
        refine .inr ⟨fun j h₁ h₂ => ?_, h.right⟩
        cases miss h₁
        case inl h'  => exact h' ▸ hit
        case inr h' => exact h.left j h' (by omega)

-- The years of the dates of a rule.
structure Dated (rule : RecurrenceRule) (z : FixedOffset) : Prop where
  start : 1000 ≤ yearFromDay (z.localDay rule.startDate)
  stop  : ∀ e ∈ rule.endDate, 1000 ≤ yearFromDay (z.localDay e)

theorem lt_floor_iff (hd : rule.Dated z) (hh' : hh < 24) (hm : mm < 60) :
    rule.floor after z.zone < z.instant day hh mm ↔
      after < z.instant day hh mm ∧ z.localDay rule.startDate ≤ day := by
  have := hd.start
  rw [floor, dayStartUtc_zone <| by omega, max_lt_iff, ← instant_zero_le_iff hh' hm]
  exact and_congr_right fun _ => Int.sub_one_lt_iff

-- The days of the schedule that come after an instant are those at which the probe stops, up to the
-- last day of the rule.
theorem mem_schedule_iff (hd : rule.Dated z) (hp : parseTimeOfDay rule.timeOfDay = some (hh, mm)) :
    t ∈ rule.schedule z ∩ Set.Ioi after ↔
      ∃ day, t = z.instant day hh mm ∧ rule.Hit z (rule.floor after z.zone) hh mm day ∧
        ¬∃ e ∈ rule.endDate, z.localDay e < day := by
  obtain ⟨hh', hm⟩ := parseTimeOfDay_bounds hp
  simp only [not_exists, not_and, not_lt]
  constructor
  case mp =>
    intro ⟨⟨_, _, day, hp', ht, hs, he, hw⟩, ha⟩
    obtain ⟨h₁, h₂⟩ := Prod.mk.inj <| Option.some.inj <| hp.symm.trans hp'
    subst h₁ h₂ ht
    exact ⟨day, rfl, ⟨hw, lt_floor_iff hd hh' hm |>.mpr ⟨ha, hs⟩⟩, he⟩
  case mpr =>
    intro ⟨day, ht, hit, he⟩
    obtain ⟨ha, hs⟩ := lt_floor_iff hd hh' hm |>.mp hit.right
    exact ⟨⟨hh, mm, day, hp, ht, hs, he, hit.left⟩, ht ▸ ha⟩

theorem floor_year (hd : rule.Dated z) (ha : 1000 ≤ yearFromDay (z.localDay after)) :
    997 ≤ yearFromDay (z.localDay (rule.floor after z.zone)) := by
  have hs := hd.start
  rw [floor, dayStartUtc_zone <| by omega]
  cases max_choice after (z.instant (z.localDay rule.startDate) 0 0 - 1)
  case inl h => rw [h]; omega
  case inr h =>
    have := @yearFromDay_le (z.localDay rule.startDate)
      (z.localDay (z.instant (z.localDay rule.startDate) 0 0 - 1))
      (by simp only [FixedOffset.localDay, instant, msPerDay, Instant]; omega)
    rw [h]
    omega

-- A day after the given one on which the probe stops comes within a week.
theorem exists_hit (hw : weekday day ∈ rule.days) :
    ∃ k : Nat, k < 14 ∧ rule.Hit z floor hh mm (z.localDay floor + k) := by
  let k := ((day - z.localDay floor - 1) % 7 + 1).toNat
  refine ⟨k, by omega, ?_, lt_instant <| by omega⟩
  have : weekday (z.localDay floor + k) = weekday day := by
    simp only [weekday]
    omega
  exact this ▸ hw

theorem probe_spec (hd : rule.Dated z) (ha : 1000 ≤ yearFromDay (z.localDay after))
    (hp : parseTimeOfDay rule.timeOfDay = some (hh, mm)) :
    let floor := rule.floor after z.zone
    match rule.probe hh mm floor z.zone (tzCalendarDate floor z.zone) maxDayProbe 0 with
    | some t => IsLeast (rule.schedule z ∩ Set.Ioi after) t
    | none   => rule.schedule z ∩ Set.Ioi after = ∅ := by
  intro floor
  have ⟨hh', hm⟩ := parseTimeOfDay_bounds hp
  have hy : 997 ≤ yearFromDay (z.localDay floor) := floor_year hd ha
  have late {day : Int} := @exhausted_zone z rule day hh mm
    (fun e he => by have := hd.stop e he; omega) hh' hm
  rw [tzCalendarDate_zone <| by omega]
  cases @probe_cases z rule floor (z.localDay floor) hh mm 0 maxDayProbe (by omega)
  case inr h =>
    rw [h.right]
    refine Set.eq_empty_of_forall_notMem fun t ht => ?_
    have ⟨day, _, hit, _⟩ := mem_schedule_iff hd hp |>.mp ht
    have ⟨k, hk, hit⟩ := @exists_hit z rule floor day hh mm hit.left
    exact h.left k (Nat.zero_le k) (by simpa [maxDayProbe] using hk) hit
  case inl h =>
    have ⟨k, _, hit, hmin, h⟩ := h
    -- No day of the schedule comes before the one at which the probe stops.
    have least {day : Int} (hit' : rule.Hit z floor hh mm day) : z.localDay floor + k ≤ day := by
      have hle := @FixedOffset.localDay_mono z _ _ hit'.right.le
      rw [localDay_instant hh' hm] at hle
      by_contra hlt
      refine hmin (day - z.localDay floor).toNat (Nat.zero_le _) (by omega) ?_
      rwa [Int.toNat_of_nonneg <| by omega, add_sub_cancel]
    rw [h]
    split
    case h_1 t ht =>
      split at ht
      case isTrue => contradiction
      case isFalse hl =>
        have ht := Option.some.inj ht
        refine ⟨mem_schedule_iff hd hp |>.mpr ⟨_, ht.symm, hit, mt late.mpr hl⟩, fun t' ht' => ?_⟩
        have ⟨day, he, hit', _⟩ := mem_schedule_iff hd hp |>.mp ht'
        rw [← ht, he]
        exact instant_le_iff.mpr <| least hit'
    case h_2 hn =>
      split at hn
      case isFalse => contradiction
      case isTrue hl =>
        have ⟨e, he, hlt⟩ := late.mp hl
        refine Set.eq_empty_of_forall_notMem fun t ht => ?_
        have ⟨day, _, hit', hl'⟩ := mem_schedule_iff hd hp |>.mp ht
        exact hl' ⟨e, he, hlt.trans_le <| least hit'⟩

end RecurrenceRule

-- The next occurrence is the least element of the schedule that comes after the given instant. If
-- there is none then there is no next occurrence.
theorem computeNextOccurrence_isLeast (hd : rule.Dated z)
    (ha : 1000 ≤ yearFromDay (z.localDay after)) :
    (∀ t, computeNextOccurrence rule after z.zone = some t ↔
      IsLeast (rule.schedule z ∩ Set.Ioi after) t) ∧
    (computeNextOccurrence rule after z.zone = none ↔ rule.schedule z ∩ Set.Ioi after = ∅) := by
  have spec : match computeNextOccurrence rule after z.zone with
      | some t => IsLeast (rule.schedule z ∩ Set.Ioi after) t
      | none   => rule.schedule z ∩ Set.Ioi after = ∅ := by
    cases hp : parseTimeOfDay rule.timeOfDay
    case none =>
      simp only [computeNextOccurrence, hp]
      refine Set.eq_empty_of_forall_notMem fun t ht => ?_
      obtain ⟨⟨_, _, _, hp', _⟩, _⟩ := ht
      exact nomatch hp.symm.trans hp'
    case some time =>
      by_cases hn : rule.days = []
      case pos =>
        simp only [computeNextOccurrence, hp, hn, if_true]
        refine Set.eq_empty_of_forall_notMem fun t ht => ?_
        obtain ⟨⟨_, _, _, _, _, _, _, hw⟩, _⟩ := ht
        exact List.not_mem_nil <| hn ▸ hw
      case neg =>
        simp only [computeNextOccurrence, hp, hn, if_false]
        exact RecurrenceRule.probe_spec hd ha hp
  generalize computeNextOccurrence rule after z.zone = next at spec
  cases next
  case none =>
    refine ⟨fun t => ⟨nofun, fun ht => ?_⟩, fun _ => spec, fun _ => rfl⟩
    exact absurd ht.left <| spec ▸ Set.notMem_empty t
  case some t =>
    refine ⟨fun t' => ⟨fun h => Option.some.inj h ▸ spec, fun h => ?_⟩, nofun, fun h => ?_⟩
    · exact congrArg some <| spec.unique h
    · exact absurd spec.left <| h ▸ Set.notMem_empty t

-- On a Wednesday, the next occurrence of a rule for Mondays and Fridays is that of the next Friday.
theorem computeNextOccurrence_isLeast_friday :
    let z    : FixedOffset    := ⟨7 * 3600, by decide⟩
    let rule : RecurrenceRule := ⟨.weekly, [1, 5], "08:30", 1782777600000, none⟩
    IsLeast (rule.schedule z ∩ Set.Ioi 1782864000000) 1783042200000 := by
  refine computeNextOccurrence_isLeast ⟨by decide, by simp⟩ (by decide) |>.left _ |>.mp ?_
  decide +kernel

end

end Drovery
