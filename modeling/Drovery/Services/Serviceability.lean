import Mathlib.Algebra.Order.Floor.Ring
import Drovery.Objects.Airspace
import Drovery.Objects.Flight
import Drovery.Services.Simulation

namespace Drovery

open FlightFeasibility

inductive WeatherCondition
  | clear
  | cloudy
  | rain
  | storm
  | unknown
  deriving DecidableEq

structure WeatherConditions where
  windKph   : ℚ
  condition : WeatherCondition
  flyable   : Bool

inductive ServiceabilityCode
  | outOfArea
  | routeTooLong
  | noFlyZone
  | weatherHold
  | weatherStorm
  deriving DecidableEq

def ServiceabilityCode.text : ServiceabilityCode → String
  | outOfArea    => "OUT_OF_AREA"
  | routeTooLong => "ROUTE_TOO_LONG"
  | noFlyZone    => "NO_FLY_ZONE"
  | weatherHold  => "WEATHER_HOLD"
  | weatherStorm => "WEATHER_STORM"

-- The values that the localized message mentions.
inductive ServiceabilityParams
  | route (routeKm : Int) (maxKm : ℚ)
  | zone (zoneName : String)
  | wind (windKph : ℚ)

structure ServiceabilityAnswer extends ServiceabilityResult where
  params     : Option ServiceabilityParams := none
  -- Another message than the one of the code.
  messageKey : Option String               := none

def serviceAreas : List GeoCircle := [
  { name := "Greater Jakarta", lat := -6.2088, lng := 106.8456, radiusKm := 30 },
  { name := "Greater Bandung", lat := -6.9125, lng := 107.611, radiusKm := 20 }
]

-- The environment variables, where the limit is missing if it is not a finite number.
structure ServiceabilityEnv where
  serviceAreaGlobal : Bool
  maxRouteKm        : Option ℚ

def defaultMaxRouteKm : ℚ := 50

def ServiceabilityEnv.maxRoute (env : ServiceabilityEnv) : ℚ :=
  match env.maxRouteKm with
  | none     => defaultMaxRouteKm
  | some raw => if 0 < raw then raw else defaultMaxRouteKm

-- The decision whether a delivery can be flown, in exact arithmetic.
namespace ServiceabilityService

noncomputable section

open Classical

structure Pt where
  x : ℝ
  y : ℝ

structure RouteSegment where
  fromLat : ℝ
  fromLng : ℝ
  toLat   : ℝ
  toLng   : ℝ

def inCircle (lat lng : ℝ) (c : GeoCircle) : Prop :=
  haversineKm lat lng c.lat c.lng ≤ c.radiusKm

def isInAnyArea (env : ServiceabilityEnv) (lat lng : ℝ) : Prop :=
  env.serviceAreaGlobal ∨ ∃ a ∈ serviceAreas, inCircle lat lng a

def zoneContaining (lat lng : ℝ) (zones : List GeoCircle) : Option GeoCircle :=
  zones.find? (inCircle lat lng ·)

-- The equirectangular projection around a point.
def project (lat lng centerLat centerLng : ℝ) : Pt where
  x := toRad (lng - centerLng) * earthRadiusKm * Real.cos (toRad centerLat)
  y := toRad (lat - centerLat) * earthRadiusKm

def pointToSegmentKm (a b p : Pt) : ℝ :=
  let abx := b.x - a.x
  let aby := b.y - a.y
  let len2 := abx * abx + aby * aby
  let t := if len2 = 0 then 0 else ((p.x - a.x) * abx + (p.y - a.y) * aby) / len2
  let t := max 0 (min 1 t)
  let dx := p.x - (a.x + t * abx)
  let dy := p.y - (a.y + t * aby)
  √(dx * dx + dy * dy)

-- Both ends of the route are the same point, as far as can be told.
def RouteSegment.Degenerate (route : RouteSegment) : Prop :=
  |route.fromLat - route.toLat| < 1e-9 ∧ |route.fromLng - route.toLng| < 1e-9

local instance two : Nat.AtLeastTwo 2 :=
  FlightFeasibility.two

-- The projection around the middle of the route.
def RouteSegment.project (route : RouteSegment) (lat lng : ℝ) : Pt :=
  let midLat := (route.fromLat + route.toLat) / 2
  let midLng := (route.fromLng + route.toLng) / 2
  ServiceabilityService.project lat lng midLat midLng

def routeNearCircle (route : RouteSegment) (c : GeoCircle) : Prop :=
  if route.Degenerate then
    haversineKm route.fromLat route.fromLng c.lat c.lng ≤ c.radiusKm
  else
    let a := route.project route.fromLat route.fromLng
    let b := route.project route.toLat route.toLng
    let p := route.project c.lat c.lng
    pointToSegmentKm a b p ≤ c.radiusKm

def zoneOnRoute (route : RouteSegment) (zones : List GeoCircle) : Option GeoCircle :=
  zones.find? (routeNearCircle route ·)

def blocked (code : ServiceabilityCode) (params : Option ServiceabilityParams)
    (messageKey : Option String) : ServiceabilityAnswer where
  serviceable := false
  codes       := [code.text]
  weatherHold := isWeatherCode code.text
  params      := params
  messageKey  := messageKey

-- The weather at both ends of the route, which never blocks a delivery if it is not known.
def checkWeather (a b : Except AppError WeatherConditions) : ServiceabilityAnswer :=
  let serviceable := { serviceable := true, codes := [], weatherHold := false }
  match a, b with
  | .ok a, .ok b =>
    let grounded := if !a.flyable then some a else if !b.flyable then some b else none
    match grounded with
    | none          => serviceable
    | some grounded =>
      if grounded.condition = .storm then
        blocked .weatherStorm none none
      else
        blocked .weatherHold (some <| .wind grounded.windKph) none
  | _, _ => serviceable

-- The rows of the zones are those that the airspace service serves, whether from memory or from the
-- database, unless it fails to read them. What is decisive is which of them are in force.
def checkServiceability (env : ServiceabilityEnv) (route : RouteSegment)
    (rows : Except AppError (List ZoneRow)) (now : Time)
    (weatherFrom weatherTo : Except AppError WeatherConditions) : ServiceabilityAnswer :=
  if ¬isInAnyArea env route.fromLat route.fromLng ∨ ¬isInAnyArea env route.toLat route.toLng then
    blocked .outOfArea none none
  else
    let routeKm := haversineKm route.fromLat route.fromLng route.toLat route.toLng
    let limitKm := env.maxRoute
    if limitKm < routeKm then
      blocked .routeTooLong (some <| .route ⌊routeKm + 1 / 2⌋ limitKm) none
    else
      match rows with
      | .error _ => blocked .noFlyZone none (some "error.serviceability.AIRSPACE_UNVERIFIED")
      | .ok rows =>
        let zones := inForce rows now
        let zone := zoneContaining route.fromLat route.fromLng zones
          <|> zoneContaining route.toLat route.toLng zones
          <|> zoneOnRoute route zones
        match zone with
        | some zone => blocked .noFlyZone (some <| .zone zone.name) none
        | none      => checkWeather weatherFrom weatherTo

end

end ServiceabilityService

end Drovery
