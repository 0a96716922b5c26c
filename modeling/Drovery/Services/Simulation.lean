import Drovery.Services.Termination

namespace Drovery

open Concurrency
open App (stmt tx)

def preflightMaxAttempts : Nat := 4

structure ServiceabilityResult where
  serviceable : Bool
  weatherHold : Bool
  codes       : List String

inductive PreflightAction
  | launch
  | hold
  | abort
  deriving DecidableEq

structure PreflightVerdict where
  action : PreflightAction
  reason : Option DeliveryFailureReason

def isWeatherCode (code : String) : Bool :=
  code.toList.take 7 = "WEATHER".toList

-- Only the weather is worth waiting for.
def classifyPreflight (result : ServiceabilityResult) : PreflightVerdict :=
  if result.serviceable then
    { action := .launch, reason := none }
  else if result.weatherHold then
    { action := .hold, reason := some .weatherAbort }
  else
    let code := result.codes.find? (!isWeatherCode ·)
    { action := .abort
      reason := some <| if code = some "NO_FLY_ZONE" then .unsafeDropZone else .other }

def holdExhausted (attempt maxAttempts : Nat) : Bool :=
  maxAttempts ≤ attempt + 1

structure KickoffFaults where
  -- The outcome of the write that launches the delivery.
  launch          : Fault         := .committed
  -- The outcome of the read that follows a failed write.
  reread          : Fault         := .committed
  releaseAirframe : Fault         := .committed
  cleanup         : CleanupFaults := {}

structure KickoffJob where
  deliveryId       : DeliveryId
  liveDispatch     : Bool
  preflightAttempt : Nat
  -- The answer of the serviceability check at the time of the kickoff.
  serviceability   : ServiceabilityResult
  faults           : KickoffFaults

namespace SimulationProcessor

open DispatchService DeliveriesService

def abortScheduled (job : KickoffJob) (reason : DeliveryFailureReason) : App Unit := do
  let _ ← failExceptional none job.deliveryId reason [.scheduled] job.faults.cleanup
  pure ()

-- Whether the delivery is cleared for its launch. It is held on the ground or given up otherwise.
def preflight (job : KickoffJob) (route : Option MissionRoute) : App Bool :=
  match route with
  | none   => pure true
  | some _ =>
    let verdict := classifyPreflight job.serviceability
    if verdict.action = .launch then
      pure true
    else if verdict.action = .hold ∧ !holdExhausted job.preflightAttempt preflightMaxAttempts then do
      stmt <| .effect <| .deferKickoff job.deliveryId (job.preflightAttempt + 1)
      pure false
    else do
      abortScheduled job (verdict.reason.getD .other)
      pure false

def handleDispatchRefusal (job : KickoffJob) (e : AppError) : App Unit :=
  if !isPermanentDispatchRefusal e ∧ !holdExhausted job.preflightAttempt preflightMaxAttempts then
    stmt <| .effect <| .deferKickoff job.deliveryId (job.preflightAttempt + 1)
  else
    abortScheduled job .other

-- Hands back the airframe that was claimed for the launch (if any).
def giveBack (job : KickoffJob) (droneId : Option DroneId) : App Unit :=
  match droneId with
  | none   => pure ()
  | some _ => release job.deliveryId .returnToFleet job.faults.releaseAirframe

-- A failed write may still have been committed, so the airframe is only handed back if the delivery
-- is found not to have been launched.
def recoverLaunch (job : KickoffJob) (droneId : Option DroneId) : App Unit :=
  match droneId with
  | none   => pure ()
  | some _ => do
    let current ← (stmt <| .delivery <| .find job.deliveryId).attempt job.faults.reread |>.handle
      fun _ => pure none
    if current.any (·.status = .scheduled) then giveBack job droneId else pure ()

-- A live delivery is driven by its drone, and therefore not simulated.
def simulate (job : KickoffJob) (droneId : Option DroneId) : App Unit :=
  match droneId with
  | none   => stmt <| .effect <| .startSimulation job.deliveryId
  | some _ => pure ()

def launch (job : KickoffJob) (droneId : Option DroneId) : App Unit := do
  simulate job droneId
  let count ← (stmt <| .delivery <| .transition none job.deliveryId (.launch droneId)).attempt
    job.faults.launch |>.handle fun e => do
      recoverLaunch job droneId
      throw e
  if count = 0 then giveBack job droneId else pure ()

-- The decision of the dispatch, or none if the launch has been refused.
def dispatchKickoff (P : Params) (job : KickoffJob) (delivery : Delivery) :
    App (Option DispatchDecision) :=
  (do let dispatched ← dispatch P job.liveDispatch job.deliveryId delivery.packageWeight delivery.route false
      pure <| some dispatched : App (Option DispatchDecision)) |>.handle fun e => do
    handleDispatchRefusal job e
    pure none

-- The kickoff of a delivery that has been found.
def kickoff (P : Params) (job : KickoffJob) (delivery : Delivery) : App Unit := do
  if delivery.status ≠ .scheduled then
    pure ()
  else
    let cleared ← preflight job delivery.route
    if cleared then
      match ← dispatchKickoff P job delivery with
      | none            => pure ()
      | some dispatched => launch job dispatched.droneId
    else
      pure ()

def handleKickoff (P : Params) (job : KickoffJob) : App Unit := do
  match ← stmt <| .delivery <| .find job.deliveryId with
  | none          => pure ()
  | some delivery => kickoff P job delivery

def stages : List DeliveryStatus :=
  [.confirmed, .droneAssigned, .pickupInProgress, .inTransit, .awaitingHandoff]

def handleStage (D : DeliveryId) (stageIndex : Nat) : App Unit := do
  match stages[stageIndex]? with
  | none       => pure ()
  | some stage =>
    match ← stmt <| .delivery <| .find D with
    | none   => pure ()
    | some _ =>
      let count ← stmt <| .delivery <| .transition none D (.advance stage)
      if count = 0 then
        pure ()
      else
        (stmt <| .effect <| .updateTracking D none).safe
        (stmt <| .effect <| .notify D stage none).safe
        stmt <| .effect <| .publishUpdate D (some stage)

-- A position job writes the next position of the simulated flight.
def handlePosition (D : DeliveryId) (lat lng : ℚ) : App Unit := do
  match ← stmt <| .delivery <| .find D with
  | none          => pure ()
  | some delivery =>
    if delivery.status ∈ DeliveryStatus.positionFrozenStatuses then
      pure ()
    else
      stmt <| .effect <| .updateTracking D (some (lat, lng))
      stmt <| .effect <| .publishUpdate D none

end SimulationProcessor

end Drovery
