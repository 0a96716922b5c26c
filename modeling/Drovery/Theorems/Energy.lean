import Drovery.Objects.Flight
import Mathlib.Analysis.Real.Pi.Bounds

namespace Drovery

open Real

namespace FlightFeasibility

section Haversine

variable {fromLat fromLng toLat toLng : ℝ}

theorem haversineKm_eq : haversineKm fromLat fromLng toLat toLng =
    earthRadiusKm * Sphere.centralAngle (toRad fromLat) (toRad fromLng) (toRad toLat) (toRad toLng) := by
  have sub {d d' : ℝ} : toRad (d' - d) = toRad d' - toRad d := by
    simp only [toRad]
    ring
  rw [haversineKm, Sphere.centralAngle, Sphere.hav, sub, sub, mul_assoc]

theorem earthRadiusKm_pos : 0 < earthRadiusKm := by
  norm_num [earthRadiusKm]

theorem haversineKm_nonneg : 0 ≤ haversineKm fromLat fromLng toLat toLng := by
  rw [haversineKm_eq]
  exact mul_nonneg earthRadiusKm_pos.le Sphere.centralAngle_nonneg

@[simp]
theorem haversineKm_self : haversineKm fromLat fromLng fromLat fromLng = 0 := by
  rw [haversineKm_eq, Sphere.centralAngle_self, mul_zero]

theorem haversineKm_comm (fromLat fromLng toLat toLng : ℝ) :
    haversineKm fromLat fromLng toLat toLng = haversineKm toLat toLng fromLat fromLng := by
  rw [haversineKm_eq, haversineKm_eq, Sphere.centralAngle_comm]

theorem haversineKm_triangle (fromLat fromLng midLat midLng toLat toLng : ℝ) :
    haversineKm fromLat fromLng toLat toLng ≤
      haversineKm fromLat fromLng midLat midLng + haversineKm midLat midLng toLat toLng := by
  simp only [haversineKm_eq]
  rw [← mul_add]
  exact mul_le_mul_of_nonneg_left Sphere.centralAngle_triangle earthRadiusKm_pos.le

theorem haversineKm_equator (h₀ : 0 ≤ toLng - fromLng) (h₁ : toLng - fromLng ≤ 180) :
    haversineKm 0 fromLng 0 toLng = earthRadiusKm * toRad (toLng - fromLng) := by
  have hs : toRad toLng - toRad fromLng = toRad (toLng - fromLng) := by
    simp only [toRad]
    ring
  have hz : toRad 0 = 0 := by simp [toRad]
  rw [haversineKm_eq, hz, Sphere.centralAngle_equator] <;> rw [hs]
  case h₀ =>
    rw [toRad]
    positivity
  case h₁ =>
    rw [toRad, div_le_iff₀ (by norm_num), mul_comm]
    exact mul_le_mul_of_nonneg_left h₁ pi_pos.le

end Haversine

-- The point lies between the two others, on the shortest way from one to the other.
def Between (fromLat fromLng lat lng toLat toLng : ℝ) : Prop :=
  haversineKm fromLat fromLng lat lng + haversineKm lat lng toLat toLng =
    haversineKm fromLat fromLng toLat toLng

-- The aircraft stands at its base.
def FeasibilityAircraft.AtHome (drone : FeasibilityAircraft) : Prop :=
  drone.currentLat.getD drone.homeBaseLat = drone.homeBaseLat ∧
    drone.currentLng.getD drone.homeBaseLng = drone.homeBaseLng

-- Where an aircraft that has started from its base may be after `x` kilometers of the mission.
inductive Flown (drone : FeasibilityAircraft) (route : MissionRoute) (lat lng : ℝ) : ℝ → Prop
  | positioning :
    Between drone.homeBaseLat drone.homeBaseLng lat lng route.fromLat route.fromLng →
    Flown drone route lat lng (haversineKm drone.homeBaseLat drone.homeBaseLng lat lng)
  | delivery :
    Between route.fromLat route.fromLng lat lng route.toLat route.toLng →
    Flown drone route lat lng (haversineKm drone.homeBaseLat drone.homeBaseLng route.fromLat route.fromLng +
      haversineKm route.fromLat route.fromLng lat lng)
  | recovery :
    Between route.toLat route.toLng lat lng drone.homeBaseLat drone.homeBaseLng →
    Flown drone route lat lng (haversineKm drone.homeBaseLat drone.homeBaseLng route.fromLat route.fromLng +
      haversineKm route.fromLat route.fromLng route.toLat route.toLng +
      haversineKm route.toLat route.toLng lat lng)

local instance percent : Nat.AtLeastTwo 100 :=
  hundred

-- How full the battery is, and what the load leaves of the range.
noncomputable def charge (batteryPercent : ℝ) : ℝ :=
  max 0 (min 100 batteryPercent) / 100

noncomputable def payloadDerate (maxPayloadKg payloadKg : ℝ) : ℝ :=
  1 - payloadRangePenalty * min 1 (max 0 payloadKg / maxPayloadKg)

section Range

variable {rangeKm maxPayloadKg batteryPercent batteryPercent' payloadKg payloadKg' : ℝ}

theorem usableRangeKm_of_pos (hr : 0 < rangeKm) (hm : 0 < maxPayloadKg) :
    usableRangeKm rangeKm maxPayloadKg batteryPercent payloadKg = rangeKm * charge batteryPercent *
      payloadDerate maxPayloadKg payloadKg * (1 - rangeReserveFraction) :=
  if_neg <| not_or.mpr ⟨not_not.mpr hr, not_not.mpr hm⟩

theorem usableRangeKm_of_nonpos (h : rangeKm ≤ 0 ∨ maxPayloadKg ≤ 0) :
    usableRangeKm rangeKm maxPayloadKg batteryPercent payloadKg = 0 :=
  if_pos <| h.imp not_lt.mpr not_lt.mpr

theorem charge_nonneg : 0 ≤ charge batteryPercent :=
  div_nonneg (le_max_left _ _) (by norm_num)

theorem charge_le_one : charge batteryPercent ≤ 1 := by
  have h : max 0 (min 100 batteryPercent) ≤ 100 := max_le (by norm_num) (min_le_left _ _)
  rw [charge, div_le_one (by norm_num)]
  exact h

theorem charge_mono : Monotone charge := by
  intro _ _ h
  unfold charge
  gcongr

theorem payloadRangePenalty_pos : 0 < payloadRangePenalty := by
  norm_num [payloadRangePenalty]

theorem payloadDerate_nonneg : 0 ≤ payloadDerate maxPayloadKg payloadKg := by
  have h : payloadRangePenalty * min 1 (max 0 payloadKg / maxPayloadKg) ≤ payloadRangePenalty * 1 :=
    mul_le_mul_of_nonneg_left (min_le_left _ _) payloadRangePenalty_pos.le
  have hp : payloadRangePenalty ≤ 1 := by norm_num [payloadRangePenalty]
  rw [payloadDerate]
  linarith

theorem payloadDerate_le_one (hm : 0 < maxPayloadKg) : payloadDerate maxPayloadKg payloadKg ≤ 1 := by
  have h : 0 ≤ min 1 (max 0 payloadKg / maxPayloadKg) :=
    le_min zero_le_one <| div_nonneg (le_max_left _ _) hm.le
  exact sub_le_self _ <| mul_nonneg payloadRangePenalty_pos.le h

theorem payloadDerate_antitone (hm : 0 < maxPayloadKg) : Antitone (payloadDerate maxPayloadKg) := by
  intro _ _ h
  have := payloadRangePenalty_pos
  unfold payloadDerate
  gcongr

theorem reserve_pos : 0 < 1 - rangeReserveFraction := by
  norm_num [rangeReserveFraction]

theorem usableRangeKm_nonneg : 0 ≤ usableRangeKm rangeKm maxPayloadKg batteryPercent payloadKg := by
  by_cases h : rangeKm ≤ 0 ∨ maxPayloadKg ≤ 0
  case pos => exact (usableRangeKm_of_nonpos h).ge
  case neg =>
    have ⟨hr, hm⟩ := not_or.mp h
    rw [usableRangeKm_of_pos (not_le.mp hr) (not_le.mp hm)]
    exact mul_nonneg (mul_nonneg (mul_nonneg (not_le.mp hr).le charge_nonneg) payloadDerate_nonneg)
      reserve_pos.le

theorem usableRangeKm_le (h : 0 ≤ rangeKm) :
    usableRangeKm rangeKm maxPayloadKg batteryPercent payloadKg ≤ (1 - rangeReserveFraction) * rangeKm := by
  by_cases hn : rangeKm ≤ 0 ∨ maxPayloadKg ≤ 0
  case pos =>
    rw [usableRangeKm_of_nonpos hn]
    exact mul_nonneg reserve_pos.le h
  case neg =>
    have ⟨hr, hm⟩ := not_or.mp hn
    rw [usableRangeKm_of_pos (not_le.mp hr) (not_le.mp hm), mul_comm]
    refine mul_le_mul_of_nonneg_left ?_ reserve_pos.le
    calc
      _ ≤ rangeKm * charge batteryPercent :=
        mul_le_of_le_one_right (mul_nonneg h charge_nonneg) (payloadDerate_le_one <| not_le.mp hm)
      _ ≤ rangeKm := mul_le_of_le_one_right h charge_le_one

-- More charge and less load never take range away.
theorem usableRangeKm_mono (hb : batteryPercent ≤ batteryPercent') (hp : payloadKg' ≤ payloadKg) :
    usableRangeKm rangeKm maxPayloadKg batteryPercent payloadKg ≤
      usableRangeKm rangeKm maxPayloadKg batteryPercent' payloadKg' := by
  by_cases h : rangeKm ≤ 0 ∨ maxPayloadKg ≤ 0
  case pos => rw [usableRangeKm_of_nonpos h, usableRangeKm_of_nonpos h]
  case neg =>
    have ⟨hr, hm⟩ := not_or.mp h
    rw [usableRangeKm_of_pos (not_le.mp hr) (not_le.mp hm),
      usableRangeKm_of_pos (not_le.mp hr) (not_le.mp hm)]
    have hc := charge_mono hb
    have hd := payloadDerate_antitone (not_le.mp hm) hp
    have hd₀ : 0 ≤ payloadDerate maxPayloadKg payloadKg := payloadDerate_nonneg
    have hc₀ : 0 ≤ charge batteryPercent' := charge_nonneg
    have hr₀ := (not_le.mp hr).le
    have hs := reserve_pos.le
    gcongr

end Range

section Mission

variable {drone : FeasibilityAircraft} {route : MissionRoute} {payloadKg lat lng x : ℝ}

theorem assessFeasibility_feasible : (assessFeasibility drone route payloadKg).feasible ↔
    payloadKg ≤ drone.maxPayloadKg ∧ minDispatchBatteryPercent ≤ drone.batteryPercent ∧
      missionDistanceKm drone route ≤
        usableRangeKm drone.rangeKm drone.maxPayloadKg drone.batteryPercent payloadKg := by
  unfold assessFeasibility
  dsimp only
  split
  case isTrue hp => simp [hp]
  case isFalse hp =>
    split
    case isTrue hb => simp [not_le.mpr hb]
    case isFalse hb =>
      split
      case isTrue hr  => simp [not_le.mpr hr]
      case isFalse hr => simp [not_not.mp hp, not_lt.mp hb, not_lt.mp hr]

@[simp]
theorem assessFeasibility_missionKm :
    (assessFeasibility drone route payloadKg).missionKm = missionDistanceKm drone route := by
  unfold assessFeasibility
  dsimp only
  split_ifs <;> rfl

theorem assessFeasibility_mono {battery payloadKg' : ℝ} (hb : drone.batteryPercent ≤ battery)
    (hp : payloadKg' ≤ payloadKg) (h : (assessFeasibility drone route payloadKg).feasible) :
    (assessFeasibility { drone with batteryPercent := battery } route payloadKg').feasible := by
  have ⟨hc, hm, hr⟩ := assessFeasibility_feasible.mp h
  exact assessFeasibility_feasible.mpr ⟨hp.trans hc, hm.trans hb, hr.trans <| usableRangeKm_mono hb hp⟩

-- An aircraft is never farther from its base than it has flown, nor than it still has to fly.
theorem Flown.home_le (h : Flown drone route lat lng x) (hh : drone.AtHome) :
    haversineKm lat lng drone.homeBaseLat drone.homeBaseLng ≤ x ∧
      haversineKm lat lng drone.homeBaseLat drone.homeBaseLng ≤ missionDistanceKm drone route - x := by
  have ⟨hlat, hlng⟩ := hh
  rw [missionDistanceKm, hlat, hlng, haversineKm_comm lat]
  cases h
  case positioning hb =>
    have hd := haversineKm_triangle lat lng route.fromLat route.fromLng drone.homeBaseLat drone.homeBaseLng
    have hr := haversineKm_triangle route.fromLat route.fromLng route.toLat route.toLng drone.homeBaseLat
      drone.homeBaseLng
    rw [Between] at hb
    rw [haversineKm_comm lat _ drone.homeBaseLat] at hd
    exact ⟨le_rfl, by linarith⟩
  case delivery hb =>
    have hd := haversineKm_triangle drone.homeBaseLat drone.homeBaseLng route.fromLat route.fromLng lat lng
    have hr := haversineKm_triangle lat lng route.toLat route.toLng drone.homeBaseLat drone.homeBaseLng
    rw [Between] at hb
    rw [haversineKm_comm lat _ drone.homeBaseLat] at hr
    exact ⟨hd, by linarith⟩
  case recovery hb =>
    have hd := haversineKm_triangle drone.homeBaseLat drone.homeBaseLng route.fromLat route.fromLng lat lng
    have hr := haversineKm_triangle route.fromLat route.fromLng route.toLat route.toLng lat lng
    rw [Between, haversineKm_comm lat _ drone.homeBaseLat] at hb
    exact ⟨by linarith, by linarith⟩

end Mission

-- A mission of one degree along the equator, from the base.
theorem missionDistanceKm_equator {drone : FeasibilityAircraft} (hlat : drone.homeBaseLat = 0)
    (hlng : drone.homeBaseLng = 0) (hh : drone.AtHome) :
    missionDistanceKm drone ⟨0, 0, 0, 1⟩ = 2 * (6371 * π / 180) := by
  rw [missionDistanceKm, hh.left, hh.right, hlat, hlng, haversineKm_self, haversineKm_comm 0 1,
    haversineKm_equator (by norm_num) (by norm_num), earthRadiusKm, toRad]
  ring

end FlightFeasibility

namespace Energy

open FlightFeasibility

section Recall

variable {drone : EnergyAircraft} {reading reading' : EnergyReading} {payloadKg payloadKg' : ℝ}

theorem assessRecall_recall : (assessRecall drone reading payloadKg).recall ↔
    reading.batteryPercent ≤ criticalBatteryPercent ∨
      usableRangeKm drone.rangeKm drone.maxPayloadKg reading.batteryPercent payloadKg <
        haversineKm reading.lat reading.lng drone.homeBaseLat drone.homeBaseLng * returnTriggerMargin := by
  unfold assessRecall
  dsimp only
  split
  case isTrue hb => simp [hb]
  case isFalse hb =>
    split
    case isTrue hr  => simp [hr]
    case isFalse hr => simp [hb, hr]

@[simp]
theorem assessRecall_distanceHomeKm : (assessRecall drone reading payloadKg).distanceHomeKm =
    haversineKm reading.lat reading.lng drone.homeBaseLat drone.homeBaseLng := by
  unfold assessRecall
  dsimp only
  split_ifs <;> rfl

theorem assessRecall_mono (hb : reading'.batteryPercent ≤ reading.batteryPercent)
    (hd : haversineKm reading.lat reading.lng drone.homeBaseLat drone.homeBaseLng ≤
      haversineKm reading'.lat reading'.lng drone.homeBaseLat drone.homeBaseLng)
    (hp : payloadKg ≤ payloadKg') (h : (assessRecall drone reading payloadKg).recall) :
    (assessRecall drone reading' payloadKg').recall := by
  refine assessRecall_recall.mpr <| (assessRecall_recall.mp h).imp hb.trans fun hr => ?_
  have hm : 0 ≤ returnTriggerMargin := by norm_num [returnTriggerMargin]
  calc
    _ ≤ usableRangeKm drone.rangeKm drone.maxPayloadKg reading.batteryPercent payloadKg :=
      usableRangeKm_mono hb hp
    _ < haversineKm reading.lat reading.lng drone.homeBaseLat drone.homeBaseLng * returnTriggerMargin := hr
    _ ≤ _ := mul_le_mul_of_nonneg_right hd hm

end Recall

-- The range is bounded, and it grows with the battery and shrinks with the payload. So do the
-- decisions that depend on it.
theorem energy_monotone :
    (∀ rangeKm maxPayloadKg batteryPercent payloadKg : ℝ,
      let range := usableRangeKm rangeKm maxPayloadKg batteryPercent payloadKg
      0 ≤ range ∧ (0 ≤ rangeKm → range ≤ (1 - rangeReserveFraction) * rangeKm) ∧
        (rangeKm ≤ 0 ∨ maxPayloadKg ≤ 0 → range = 0)) ∧
    (∀ rangeKm maxPayloadKg payloadKg : ℝ,
      Monotone fun battery => usableRangeKm rangeKm maxPayloadKg battery payloadKg) ∧
    (∀ rangeKm maxPayloadKg batteryPercent : ℝ,
      Antitone fun payload => usableRangeKm rangeKm maxPayloadKg batteryPercent payload) ∧
    (∀ (drone : FeasibilityAircraft) (route : FlightFeasibility.MissionRoute)
        (payloadKg payloadKg' battery : ℝ),
      drone.batteryPercent ≤ battery → payloadKg' ≤ payloadKg →
        (assessFeasibility drone route payloadKg).feasible →
          (assessFeasibility { drone with batteryPercent := battery } route payloadKg').feasible) ∧
    (∀ (drone : EnergyAircraft) (reading reading' : EnergyReading) (payloadKg payloadKg' : ℝ),
      reading'.batteryPercent ≤ reading.batteryPercent → payloadKg ≤ payloadKg' →
        (assessRecall drone reading payloadKg).distanceHomeKm ≤
          (assessRecall drone reading' payloadKg').distanceHomeKm →
        (assessRecall drone reading payloadKg).recall →
          (assessRecall drone reading' payloadKg').recall) := by
  refine ⟨?range, ?battery, ?payload, ?feasible, ?recalled⟩
  case range    => exact fun _ _ _ _ => ⟨usableRangeKm_nonneg, usableRangeKm_le, usableRangeKm_of_nonpos⟩
  case battery  => exact fun _ _ _ _ _ hb => usableRangeKm_mono hb le_rfl
  case payload  => exact fun _ _ _ _ _ hp => usableRangeKm_mono le_rfl hp
  case feasible => exact fun _ _ _ _ _ => assessFeasibility_mono
  case recalled =>
    intro drone reading reading' payloadKg payloadKg' hb hp hd
    simp only [assessRecall_distanceHomeKm] at hd
    exact assessRecall_mono hb hd hp

theorem recall_eq_false {drone : EnergyAircraft} {reading : EnergyReading} {payloadKg : ℝ}
    (hb : criticalBatteryPercent < reading.batteryPercent)
    (hr : haversineKm reading.lat reading.lng drone.homeBaseLat drone.homeBaseLng * returnTriggerMargin ≤
      usableRangeKm drone.rangeKm drone.maxPayloadKg reading.batteryPercent payloadKg) :
    (assessRecall drone reading payloadKg).recall = false := by
  rw [assessRecall, if_neg (not_le.mpr hb), if_neg (not_lt.mpr hr)]

-- An aircraft that was sent out on a mission for which it had the range is not recalled from any point of
-- the mission, as long as its range has not dropped faster than the reserve allows for.
theorem assessRecall_of_feasible {drone : FeasibilityAircraft} {route : FlightFeasibility.MissionRoute}
    {payloadKg x : ℝ} {reading : EnergyReading} (hh : drone.AtHome)
    (hf : (assessFeasibility drone route payloadKg).feasible)
    (hx : Flown drone route reading.lat reading.lng x)
    (hb : criticalBatteryPercent < reading.batteryPercent)
    (hd : usableRangeKm drone.rangeKm drone.maxPayloadKg drone.batteryPercent payloadKg -
      usableRangeKm drone.rangeKm drone.maxPayloadKg reading.batteryPercent payloadKg ≤
        (1 - rangeReserveFraction) * x) :
    (assessRecall (.of drone) reading payloadKg).recall = false := by
  have ⟨_, _, hm⟩ := assessFeasibility_feasible.mp hf
  have ⟨h₁, h₂⟩ := hx.home_le hh
  have h₀ : 0 ≤ haversineKm reading.lat reading.lng drone.homeBaseLat drone.homeBaseLng := haversineKm_nonneg
  have hr : haversineKm reading.lat reading.lng drone.homeBaseLat drone.homeBaseLng * returnTriggerMargin ≤
      usableRangeKm drone.rangeKm drone.maxPayloadKg reading.batteryPercent payloadKg := by
    norm_num [returnTriggerMargin, rangeReserveFraction] at hd ⊢
    -- What is left of the mission counts fully, and what has been flown counts for the rest of the margin.
    linarith
  exact recall_eq_false hb hr

-- An aircraft with a range of 1000 km at its base, and a mission along the equator.
noncomputable def equatorial : FeasibilityAircraft where
  id             := 1
  maxPayloadKg   := 5
  rangeKm        := 1000
  batteryPercent := 100
  homeBaseLat    := 0
  homeBaseLng    := 0
  currentLat     := none
  currentLng     := none

-- At the dropoff the battery is down to 95 percent.
theorem assessRecall_of_feasible_equatorial :
    (assessRecall (.of equatorial) ⟨95, 0, 1⟩ 0).recall = false := by
  have hl : haversineKm 0 0 0 1 = 6371 * π / 180 := by
    rw [haversineKm_equator (by norm_num) (by norm_num), earthRadiusKm, toRad]
    ring
  have hu {battery : ℝ} (h₀ : 0 ≤ battery) (h₁ : battery ≤ 100) :
      usableRangeKm equatorial.rangeKm equatorial.maxPayloadKg battery 0 = 7.5 * battery := by
    simp only [usableRangeKm, equatorial, min_eq_right h₁, max_eq_right h₀]
    norm_num [rangeReserveFraction]
    ring
  have hp := pi_gt_d2
  have hp' := pi_lt_d2
  have hm : missionDistanceKm equatorial ⟨0, 0, 0, 1⟩ = 2 * (6371 * π / 180) :=
    missionDistanceKm_equator rfl rfl ⟨rfl, rfl⟩
  refine @assessRecall_of_feasible _ ⟨0, 0, 0, 1⟩ _ (haversineKm 0 0 0 0 + haversineKm 0 0 0 1) _ ⟨rfl, rfl⟩
    (assessFeasibility_feasible.mpr ⟨?_, ?_, ?_⟩) (.delivery <| by simp [Between])
    (by norm_num [criticalBatteryPercent]) ?_
  case refine_1 => norm_num [equatorial]
  case refine_2 => norm_num [equatorial, minDispatchBatteryPercent]
  case refine_3 =>
    rw [hm, show equatorial.batteryPercent = 100 from rfl, hu (by norm_num) le_rfl]
    linarith
  case refine_4 =>
    rw [show equatorial.batteryPercent = 100 from rfl, hu (by norm_num) le_rfl,
      hu (by norm_num) (by norm_num), hl, haversineKm_self, rangeReserveFraction]
    linarith

end Energy

end Drovery
