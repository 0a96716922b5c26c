import Drovery.Concurrency.Method
import Drovery.Execution.Store

namespace Drovery

open Concurrency

-- The configuration of a deployment and the functions that its services call.
structure Params where
  debitFirst     : Bool
  outboxReferral : Bool
  -- The fresh id that the call of a given thread generates.
  uuid           : Nat → Nat
  uuid_injective : Function.Injective uuid
  hash           : String → String
  -- The airframes that can fly a mission, in order of preference.
  rankCandidates : List (DroneId × Drone) → MissionRoute → ℚ → List DroneId
  -- Whether an airframe with this charge at this position has to return to its base.
  assessRecall   : Drone → Int → ℚ × ℚ → ℚ → Bool

-- The methods of the services.
abbrev App := Method Stmt.sig AppError

abbrev Fault := Outcome AppError

namespace App

abbrev stmt (x : Stmt) : App x.Res :=
  @Method.stmt Stmt.sig AppError x

abbrev tx {α : Type} (x : Stmt) (f : x.Res → Except AppError α) : App α :=
  @Method.tx Stmt.sig AppError α x f

end App

def dispatchNoCapacityKey : String := "error.delivery.dispatch.no_capacity"
def dispatchUnavailableKey : String := "error.delivery.dispatch.unavailable"

def isPermanentDispatchRefusal : AppError → Bool
  | .http _ key => key = dispatchNoCapacityKey
  | _           => false

structure DispatchDecision where
  trackingSource : TrackingSource
  droneId        : Option DroneId

namespace DispatchService

open App (stmt tx)

def requireRoute : Option MissionRoute → App MissionRoute
  | some route => pure route
  | none       => throw <| .badRequest "error.delivery.serviceability.unresolved_location"

-- Claims the first airframe that has not been taken by another delivery in the meantime.
def claimFirst (D : DeliveryId) (payloadKg : ℚ) : List DroneId → App (Option DroneId)
  | []      => pure none
  | X :: Xs => do
    let count ← tx (.fleet <| .claim X D payloadKg) id
    if 0 < count then pure <| some X else claimFirst D payloadKg Xs

def saturationError (payloadKg : ℚ) (feasibleCount : Nat) : App AppError :=
  if feasibleCount = 0 then do
    let capable ← stmt <| .fleet <| .countCapable payloadKg
    if capable = 0 then
      pure <| .conflict dispatchNoCapacityKey
    else
      pure <| .conflict dispatchUnavailableKey
  else
    pure <| .conflict dispatchUnavailableKey

-- The claim is re-entrant: a delivery that already holds an airframe keeps it.
def selectAndClaim (P : Params) (D : DeliveryId) (route : MissionRoute) (payloadKg : ℚ) :
    App DroneId := do
  match ← stmt <| .fleet <| .findHeld D with
  | some X => pure X
  | none   =>
    let available ← stmt <| .fleet <| .findAvailable payloadKg
    let ranked := P.rankCandidates available route payloadKg
    match ← claimFirst D payloadKg (ranked.take maxClaimAttempts) with
    | some X => pure X
    | none   => throw (← saturationError payloadKg ranked.length)

-- The switch for live dispatch is read anew by every call.
def dispatch (P : Params) (liveDispatch : Bool) (D : DeliveryId) (payloadKg : ℚ)
    (route : Option MissionRoute) (isScheduled : Bool) : App DispatchDecision :=
  if !liveDispatch || isScheduled then
    pure { trackingSource := .simulated, droneId := none }
  else do
    let route ← requireRoute route
    let X ← selectAndClaim P D route payloadKg
    pure { trackingSource := .live, droneId := some X }

def release (D : DeliveryId) (outcome : ReleaseOutcome) (fault : Fault) : App Unit :=
  (stmt <| .fleet <| .release D outcome).attempt fault |>.safe

end DispatchService

end Drovery
