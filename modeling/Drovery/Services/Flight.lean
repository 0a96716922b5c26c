import Drovery.Objects.Flight
import Drovery.Services.Dispatch

namespace Drovery

open FlightFeasibility

noncomputable section

def Drone.toFeasibility (X : DroneId) (d : Drone) : FeasibilityAircraft where
  id             := X
  maxPayloadKg   := d.maxPayloadKg
  rangeKm        := d.rangeKm
  batteryPercent := d.batteryPercent
  homeBaseLat    := d.homeBaseLat
  homeBaseLng    := d.homeBaseLng
  currentLat     := d.currentPosition.map fun p => p.fst
  currentLng     := d.currentPosition.map fun p => p.snd

def Drone.toEnergy (d : Drone) : Energy.EnergyAircraft where
  maxPayloadKg := d.maxPayloadKg
  rangeKm      := d.rangeKm
  homeBaseLat  := d.homeBaseLat
  homeBaseLng  := d.homeBaseLng

def MissionRoute.toFeasibility (route : MissionRoute) : FlightFeasibility.MissionRoute where
  fromLat := route.fromLat
  fromLng := route.fromLng
  toLat   := route.toLat
  toLng   := route.toLng

-- The deployment with the ranking of the candidates and the decision on recalls that the platform uses.
def Params.flying (P : Params) : Params :=
  { P with
    rankCandidates := fun ds route payloadKg =>
      (FlightFeasibility.rankCandidates (ds.map fun (X, d) => d.toFeasibility X) route.toFeasibility
        payloadKg).map (·.drone.id)
    assessRecall   := fun d battery (lat, lng) payloadKg =>
      (Energy.assessRecall d.toEnergy ⟨battery, lat, lng⟩ payloadKg).recall }

end

end Drovery
