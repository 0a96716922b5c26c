import Drovery.Data.Segment
import Drovery.Services.Serviceability
import Drovery.Theorems.Energy

namespace Drovery.ServiceabilityService

open FlightFeasibility

section Geometry

variable {a b p q : Pt} {r t : ℝ}

noncomputable def Pt.distance (p q : Pt) : ℝ :=
  √((p.x - q.x) ^ 2 + (p.y - q.y) ^ 2)

-- The point at `t` of the straight way from `a` to `b`.
noncomputable def Pt.between (a b : Pt) (t : ℝ) : Pt where
  x := a.x + t * (b.x - a.x)
  y := a.y + t * (b.y - a.y)

theorem Pt.distance_between : p.distance (a.between b t) =
    √(Segment.sqDist (b.x - a.x) (b.y - a.y) (p.x - a.x) (p.y - a.y) t) := by
  rw [distance, between, Segment.sqDist, sub_add_eq_sub_sub, sub_add_eq_sub_sub]

theorem pointToSegmentKm_eq : pointToSegmentKm a b p = p.distance (a.between b <| Segment.clamp <|
    Segment.foot (b.x - a.x) (b.y - a.y) (p.x - a.x) (p.y - a.y)) := by
  simp only [pointToSegmentKm, Pt.distance, Pt.between, pow_two]
  rfl

-- The distance of a point from a segment is the one from its nearest point.
theorem pointToSegmentKm_le_iff :
    pointToSegmentKm a b p ≤ r ↔ ∃ t, 0 ≤ t ∧ t ≤ 1 ∧ p.distance (a.between b t) ≤ r := by
  constructor
  case mp =>
    intro h
    exact ⟨_, Segment.clamp_mem.left, Segment.clamp_mem.right, pointToSegmentKm_eq ▸ h⟩
  case mpr =>
    intro ⟨t, h₀, h₁, h⟩
    refine le_trans ?_ h
    rw [pointToSegmentKm_eq, Pt.distance_between, Pt.distance_between]
    exact Real.sqrt_le_sqrt <| Segment.sqDist_clamp_le h₀ h₁

end Geometry

variable {env : ServiceabilityEnv} {route : RouteSegment} {rows : Except AppError (List ZoneRow)}
variable {zones : List GeoCircle} {now : Time} {c : GeoCircle} {code : ServiceabilityCode}

-- Neither the ends of the route nor any point between them are in the circle.
structure RouteSegment.Avoids (route : RouteSegment) (c : GeoCircle) : Prop where
  start : ¬inCircle route.fromLat route.fromLng c
  stop  : ¬inCircle route.toLat route.toLng c
  way   : ∀ t, 0 ≤ t → t ≤ 1 →
    c.radiusKm < (route.project c.lat c.lng).distance
      ((route.project route.fromLat route.fromLng).between (route.project route.toLat route.toLng) t)

-- The conditions under which a delivery can be flown, apart from the weather.
structure Permitted (env : ServiceabilityEnv) (route : RouteSegment)
    (rows : Except AppError (List ZoneRow)) (now : Time) : Prop where
  start  : isInAnyArea env route.fromLat route.fromLng
  stop   : isInAnyArea env route.toLat route.toLng
  length : haversineKm route.fromLat route.fromLng route.toLat route.toLng ≤ env.maxRoute
  zones  : ∃ zones, rows = .ok zones ∧
    ∀ z ∈ zones, isZoneInForce z now → route.Avoids z.toGeoCircle

theorem not_routeNearCircle_iff (h : ¬route.Degenerate) : ¬routeNearCircle route c ↔
    ∀ t, 0 ≤ t → t ≤ 1 → c.radiusKm < (route.project c.lat c.lng).distance
      ((route.project route.fromLat route.fromLng).between
        (route.project route.toLat route.toLng) t) := by
  rw [routeNearCircle, if_neg h, pointToSegmentKm_le_iff]
  push Not
  rfl

-- None of the searches finds a zone.
theorem zone_eq_none_iff (h : ¬route.Degenerate) :
    (zoneContaining route.fromLat route.fromLng zones <|> zoneContaining route.toLat route.toLng zones <|>
      zoneOnRoute route zones) = none ↔ ∀ c ∈ zones, route.Avoids c := by
  simp only [Option.orElse_eq_orElse, Option.orElse_eq_or, Option.or_eq_none_iff, zoneContaining,
    zoneOnRoute, List.find?_eq_none, decide_eq_true_eq, not_routeNearCircle_iff h]
  constructor
  case mp =>
    intro ⟨h₁, h₂, h₃⟩ c hc
    exact ⟨h₁ c hc, h₂ c hc, h₃ c hc⟩
  case mpr =>
    intro ha
    exact ⟨fun c hc => (ha c hc).start, fun c hc => (ha c hc).stop, fun c hc => (ha c hc).way⟩

theorem forall_inForce {rows : List ZoneRow} {p : GeoCircle → Prop} :
    (∀ c ∈ inForce rows now, p c) ↔ ∀ z ∈ rows, isZoneInForce z now → p z.toGeoCircle := by
  rw [inForce, List.forall_mem_map]
  simp only [List.mem_filter, and_imp]

-- The answer is given on account of the weather.
def OnWeather (answer : ServiceabilityAnswer) : Prop :=
  ∃ code ∈ answer.codes, isWeatherCode code

theorem onWeather_blocked {params : Option ServiceabilityParams} {messageKey : Option String} :
    OnWeather (blocked code params messageKey) ↔ (blocked code params messageKey).weatherHold := by
  simp [OnWeather, blocked]

-- The weather either grounds the delivery or lets it pass.
theorem checkWeather_cases (a b : Except AppError WeatherConditions) :
    checkWeather a b = { serviceable := true, codes := [], weatherHold := false } ∨
      ∃ code params, checkWeather a b = blocked code params none ∧ isWeatherCode code.text := by
  unfold checkWeather
  split
  case h_2 => exact .inl rfl
  case h_1 a b =>
    dsimp only
    split
    case h_1 => exact .inl rfl
    case h_2 =>
      split
      case isTrue  => exact .inr ⟨.weatherStorm, _, rfl, by decide⟩
      case isFalse => exact .inr ⟨.weatherHold, _, rfl, by decide⟩

-- The weather decides on those deliveries that are permitted otherwise.
theorem checkServiceability_cases (env : ServiceabilityEnv) (rows : Except AppError (List ZoneRow))
    (now : Time) (h : ¬route.Degenerate) (weatherFrom weatherTo : Except AppError WeatherConditions) :
    Permitted env route rows now ∧
        checkServiceability env route rows now weatherFrom weatherTo =
          checkWeather weatherFrom weatherTo ∨
      ¬Permitted env route rows now ∧ ∃ code params messageKey,
        checkServiceability env route rows now weatherFrom weatherTo =
          blocked code params messageKey ∧ ¬isWeatherCode code.text := by
  unfold checkServiceability
  split
  case isTrue ha =>
    refine .inr ⟨fun hp => ?_, .outOfArea, _, _, rfl, by decide⟩
    exact ha.elim (absurd hp.start) (absurd hp.stop)
  case isFalse ha =>
    rw [not_or, not_not, not_not] at ha
    dsimp only
    split
    case isTrue hl =>
      exact .inr ⟨fun hp => absurd hp.length hl.not_ge, .routeTooLong, _, _, rfl, by decide⟩
    case isFalse hl =>
      cases rows
      case error =>
        exact .inr ⟨fun hp => (nomatch hp.zones), .noFlyZone, _, _, rfl, by decide⟩
      case ok zones =>
        dsimp only
        split
        case h_1 zone hz =>
          refine .inr ⟨fun hp => ?_, .noFlyZone, _, _, rfl, by decide⟩
          have ⟨_, he, hc⟩ := hp.zones
          obtain rfl := Except.ok.inj he
          exact nomatch hz.symm.trans <| (zone_eq_none_iff h).mpr <| forall_inForce.mpr hc
        case h_2 hz =>
          refine .inl ⟨⟨ha.left, ha.right, not_lt.mp hl, zones, rfl, ?_⟩, rfl⟩
          exact forall_inForce.mp <| (zone_eq_none_iff h).mp hz

-- A delivery is serviceable only if its route is permitted, and nothing but the weather keeps it from being
-- so. Whatever is put down to the weather is a matter of the weather alone.
theorem checkServiceability_permitted (h : ¬route.Degenerate)
    (weatherFrom weatherTo : Except AppError WeatherConditions) :
    let answer := checkServiceability env route rows now weatherFrom weatherTo
    (answer.serviceable → Permitted env route rows now) ∧
      (Permitted env route rows now → answer.serviceable ∨ OnWeather answer) ∧
      (answer.weatherHold ↔ OnWeather answer) ∧
      (¬Permitted env route rows now → answer.weatherHold = false) := by
  intro answer
  obtain ⟨hp, he⟩ | ⟨hn, code, params, messageKey, he, hc⟩ :=
    checkServiceability_cases env rows now h weatherFrom weatherTo
  case inl =>
    obtain hw | ⟨code, params, hw, hc⟩ := checkWeather_cases weatherFrom weatherTo
    case inl =>
      have he : answer = { serviceable := true, codes := [], weatherHold := false } := he.trans hw
      simp [he, hp, OnWeather]
    case inr =>
      have he : answer = blocked code params none := he.trans hw
      rw [he, onWeather_blocked]
      exact ⟨fun _ => hp, fun _ => .inr hc, Iff.rfl, fun hn => absurd hp hn⟩
  case inr =>
    have he : answer = blocked code params messageKey := he
    rw [he, onWeather_blocked]
    exact ⟨nofun, fun hp => absurd hp hn, Iff.rfl, fun _ => Bool.eq_false_iff.mpr hc⟩

-- A zone around a point of the equator.
def ZoneRow.equatorial (lng : ℚ) (activeUntil : Option Time) : ZoneRow where
  name        := "Equator"
  lat         := 0
  lng         := lng
  radiusKm    := 10
  active      := true
  activeFrom  := none
  activeUntil := activeUntil

-- A route of a tenth of a degree along the equator ends in a zone that is not in force any more, and
-- avoids the one that is in force. The weather is not known.
theorem checkServiceability_permitted_equator :
    let rows := [ZoneRow.equatorial 0 (some 0), ZoneRow.equatorial 1 none]
    let answer := checkServiceability ⟨true, none⟩ ⟨0, 0, 0, 0.1⟩ (.ok rows) 1 (.error .recordNotFound)
      (.error .recordNotFound)
    answer.serviceable ∨ OnWeather answer := by
  have hd : ¬RouteSegment.Degenerate ⟨0, 0, 0, 0.1⟩ := by
    norm_num [RouteSegment.Degenerate, abs_of_neg]
  have hp := Real.pi_gt_d2
  have hp' := Real.pi_lt_d2
  have ha : RouteSegment.Avoids ⟨0, 0, 0, 0.1⟩ (ZoneRow.equatorial 1 none).toGeoCircle := by
    refine ⟨?_, ?_, fun t h₀ h₁ => ?_⟩
    case refine_1 | refine_2 =>
      simp only [inCircle, ZoneRow.equatorial, Rat.cast_zero, Rat.cast_one, not_le]
      rw [haversineKm_equator (by norm_num) (by norm_num)]
      norm_num [earthRadiusKm, toRad]
      linarith
    case refine_3 =>
      simp only [Pt.distance, Pt.between, RouteSegment.project, project, ZoneRow.equatorial]
      have ht := mul_le_of_le_one_right Real.pi_pos.le h₁
      rw [Real.lt_sqrt (by norm_num)]
      norm_num [toRad, earthRadiusKm]
      nlinarith
  refine (checkServiceability_permitted hd _ _).right.left
    ⟨.inl rfl, .inl rfl, ?_, _, rfl, fun z hz hi => ?_⟩
  case refine_1 =>
    rw [haversineKm_equator (by norm_num) (by norm_num)]
    norm_num [ServiceabilityEnv.maxRoute, defaultMaxRouteKm, earthRadiusKm, toRad]
    linarith
  case refine_2 =>
    obtain rfl | hz := List.mem_cons.mp hz
    case inl => exact absurd hi <| by decide
    case inr => exact List.mem_singleton.mp hz ▸ ha

end Drovery.ServiceabilityService
