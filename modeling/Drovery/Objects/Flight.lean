import Drovery.Data.Sphere
import Drovery.Objects.Fleet

namespace Drovery

-- The distances and the energy of a mission, in exact arithmetic.
namespace FlightFeasibility

open Real

noncomputable section

def earthRadiusKm : ℝ := 6371

def toRad (d : ℝ) : ℝ :=
  d * π / 180

-- The literals below refer to these instances.
local instance two : Nat.AtLeastTwo 2 :=
  ⟨le_rfl⟩

local instance hundred : Nat.AtLeastTwo 100 :=
  ⟨Nat.le_add_left 2 98⟩

def haversineKm (fromLat fromLng toLat toLng : ℝ) : ℝ :=
  let dLat := toRad (toLat - fromLat)
  let dLng := toRad (toLng - fromLng)
  let a := sin (dLat / 2) ^ 2 + cos (toRad fromLat) * cos (toRad toLat) * sin (dLng / 2) ^ 2
  earthRadiusKm * 2 * Sphere.atan2 (√a) (√(1 - a))

def rangeReserveFraction : ℝ := 0.25
def payloadRangePenalty : ℝ := 0.35

structure FeasibilityAircraft where
  id             : DroneId
  maxPayloadKg   : ℝ
  rangeKm        : ℝ
  batteryPercent : ℝ
  homeBaseLat    : ℝ
  homeBaseLng    : ℝ
  currentLat     : Option ℝ
  currentLng     : Option ℝ

structure MissionRoute where
  fromLat : ℝ
  fromLng : ℝ
  toLat   : ℝ
  toLng   : ℝ

-- The way to the pickup, from there to the dropoff and back to the base. An aircraft without a position
-- is at its base.
def missionDistanceKm (drone : FeasibilityAircraft) (route : MissionRoute) : ℝ :=
  let startLat := drone.currentLat.getD drone.homeBaseLat
  let startLng := drone.currentLng.getD drone.homeBaseLng
  let positioning := haversineKm startLat startLng route.fromLat route.fromLng
  let delivery := haversineKm route.fromLat route.fromLng route.toLat route.toLng
  let recovery := haversineKm route.toLat route.toLng drone.homeBaseLat drone.homeBaseLng
  positioning + delivery + recovery

-- How far an aircraft can be trusted to fly. This is nothing for a nonsensical aircraft.
def usableRangeKm (rangeKm maxPayloadKg batteryPercent payloadKg : ℝ) : ℝ :=
  if ¬0 < rangeKm ∨ ¬0 < maxPayloadKg then
    0
  else
    let charge := max 0 (min 100 batteryPercent) / 100
    let loadFraction := min 1 (max 0 payloadKg / maxPayloadKg)
    let payloadDerate := 1 - payloadRangePenalty * loadFraction
    rangeKm * charge * payloadDerate * (1 - rangeReserveFraction)

inductive InfeasibleReason
  | capacity
  | battery
  | range

structure FeasibilityVerdict where
  feasible  : Bool
  reason    : Option InfeasibleReason
  missionKm : ℝ

def assessFeasibility (drone : FeasibilityAircraft) (route : MissionRoute) (payloadKg : ℝ) :
    FeasibilityVerdict :=
  let missionKm := missionDistanceKm drone route
  if ¬payloadKg ≤ drone.maxPayloadKg then
    ⟨false, some .capacity, missionKm⟩
  else if drone.batteryPercent < minDispatchBatteryPercent then
    ⟨false, some .battery, missionKm⟩
  else if usableRangeKm drone.rangeKm drone.maxPayloadKg drone.batteryPercent payloadKg < missionKm then
    ⟨false, some .range, missionKm⟩
  else
    ⟨true, none, missionKm⟩

structure RankedCandidate where
  drone     : FeasibilityAircraft
  missionKm : ℝ

-- The smallest sufficient capacity first, then the shortest mission, and then the id.
def rankLE (a b : RankedCandidate) : Prop :=
  a.drone.maxPayloadKg < b.drone.maxPayloadKg ∨ a.drone.maxPayloadKg = b.drone.maxPayloadKg ∧
    (a.missionKm < b.missionKm ∨ a.missionKm = b.missionKm ∧ a.drone.id ≤ b.drone.id)

instance : DecidableRel rankLE :=
  fun _ _ => Classical.propDecidable _

def rankCandidate (route : MissionRoute) (payloadKg : ℝ) (drone : FeasibilityAircraft) :
    Option RankedCandidate :=
  let verdict := assessFeasibility drone route payloadKg
  if verdict.feasible then some ⟨drone, verdict.missionKm⟩ else none

def rankCandidates (drones : List FeasibilityAircraft) (route : MissionRoute) (payloadKg : ℝ) :
    List RankedCandidate :=
  (drones.filterMap <| rankCandidate route payloadKg).insertionSort rankLE

end

end FlightFeasibility

-- Whether an aircraft has to come home.
namespace Energy

open FlightFeasibility

noncomputable section

def criticalBatteryPercent : ℝ := 15
def returnTriggerMargin : ℝ := 1.15

structure EnergyAircraft where
  maxPayloadKg : ℝ
  rangeKm      : ℝ
  homeBaseLat  : ℝ
  homeBaseLng  : ℝ

def EnergyAircraft.of (drone : FeasibilityAircraft) : EnergyAircraft where
  maxPayloadKg := drone.maxPayloadKg
  rangeKm      := drone.rangeKm
  homeBaseLat  := drone.homeBaseLat
  homeBaseLng  := drone.homeBaseLng

structure EnergyReading where
  batteryPercent : ℝ
  lat            : ℝ
  lng            : ℝ

inductive RecallReason
  | criticalBattery
  | insufficientRangeHome
  deriving DecidableEq

structure RecallVerdict where
  «recall»         : Bool
  reason           : Option RecallReason
  distanceHomeKm   : ℝ
  remainingRangeKm : ℝ

def assessRecall (drone : EnergyAircraft) (reading : EnergyReading) (payloadKg : ℝ) : RecallVerdict :=
  let distanceHomeKm := haversineKm reading.lat reading.lng drone.homeBaseLat drone.homeBaseLng
  let remainingRangeKm := usableRangeKm drone.rangeKm drone.maxPayloadKg reading.batteryPercent payloadKg
  if reading.batteryPercent ≤ criticalBatteryPercent then
    ⟨true, some .criticalBattery, distanceHomeKm, remainingRangeKm⟩
  else if remainingRangeKm < distanceHomeKm * returnTriggerMargin then
    ⟨true, some .insufficientRangeHome, distanceHomeKm, remainingRangeKm⟩
  else
    ⟨false, none, distanceHomeKm, remainingRangeKm⟩

end

end Energy

end Drovery
