import Drovery.Services.Commands

namespace Drovery

open Concurrency
open App (stmt tx)

inductive HappyPhase
  | confirmed
  | assigned
  | pickup
  | inTransit
  | arrived
  deriving DecidableEq

inductive ExceptionPhase
  | failed
  | returning
  | returned
  deriving DecidableEq

-- Null is no phase, but it is not undefined either. The same goes for a value without an entry in
-- `phaseToStatus`, which only arrives over MQTT.
inductive DronePhase
  | happy (phase : HappyPhase)
  | exception (phase : ExceptionPhase)
  | other
  deriving DecidableEq

-- No phase stands for a completed delivery.
def phaseToStatus : HappyPhase → DeliveryStatus
  | .confirmed => .confirmed
  | .assigned  => .droneAssigned
  | .pickup    => .pickupInProgress
  | .inTransit => .inTransit
  | .arrived   => .awaitingHandoff

-- A frame, whose battery is one that its column can hold.
structure TelemetryMessage where
  deliveryId     : DeliveryId
  droneId        : DroneId
  phase          : Option DronePhase
  lat            : Option ℚ
  lng            : Option ℚ
  batteryPercent : Option Int32
  failureReason  : Option DeliveryFailureReason

namespace TelemetryMessage

def position (msg : TelemetryMessage) : Option (ℚ × ℚ) :=
  match msg.lat, msg.lng with
  | some lat, some lng => some (lat, lng)
  | _,        _        => none

def inBounds (pos : ℚ × ℚ) : Bool :=
  -90 ≤ pos.fst ∧ pos.fst ≤ 90 ∧ -180 ≤ pos.snd ∧ pos.snd ≤ 180

def battery (msg : TelemetryMessage) : Option Int :=
  msg.batteryPercent.map (·.toInt)

def isException (msg : TelemetryMessage) : Bool :=
  match msg.phase with
  | some (.exception _) => true
  | _                   => false

end TelemetryMessage

namespace FlightRecorder

open DroneCommandService

def updateDroneState (msg : TelemetryMessage) : App Unit :=
  if msg.position.isNone ∧ msg.batteryPercent.isNone then
    pure ()
  else
    (stmt <| .fleet <| .updateState msg.deliveryId msg.position msg.battery).safe

-- Recalls the airframe if it can no longer reach its base. Recalls of the same delivery are spaced
-- out, which `cooling` decides.
def maybeRecall (P : Params) (C : CommandId) (delivery : Delivery) (msg : TelemetryMessage)
    (cooling : Bool) : App Unit :=
  match msg.battery, msg.position with
  | some battery, some pos =>
    if msg.isException ∨ delivery.status ∉ DeliveryStatus.returnableStatuses ∨ cooling then
      pure ()
    else do
      match ← stmt <| .fleet <| .findActive msg.deliveryId with
      | none            => pure ()
      | some (_, drone) =>
        if P.assessRecall drone battery pos delivery.packageWeight then
          (issue C none msg.deliveryId .returnToBase none).safe
        else
          pure ()
  | _, _ => pure ()

def record (P : Params) (C : CommandId) (delivery : Delivery) (msg : TelemetryMessage)
    (cooling : Bool) : App Unit := do
  (stmt <| .effect <| .appendFrame msg.deliveryId msg.droneId).safe
  updateDroneState msg
  maybeRecall P C delivery msg cooling

end FlightRecorder

namespace TelemetryService

open DeliveriesService

def ingestException (phase : ExceptionPhase) (msg : TelemetryMessage) (positionValid : Bool)
    (faults : CleanupFaults) : App Unit := do
  let D := msg.deliveryId
  let applied ← match phase with
    | .failed    =>
      failExceptional none D (msg.failureReason.getD .mechanical) DeliveryStatus.failableStatuses
        faults
    | .returning => beginReturnToBase none D (msg.failureReason.getD .weatherAbort) faults
    | .returned  => completeReturnToBase D faults
  if applied && positionValid then
    (stmt <| .effect <| .updateTracking D msg.position).safe
  else
    pure ()

-- Advances the status to that of the phase, and returns the status if this made a difference.
def advance (D : DeliveryId) : Option HappyPhase → App (Option DeliveryStatus)
  | none       => pure none
  | some phase => do
    let count ← stmt <| .delivery <| .transition none D (.advance (phaseToStatus phase))
    pure <| if 0 < count then some (phaseToStatus phase) else none

-- Writes the position unless it is stale, and returns whether it did. An unusable position is still
-- a sign of life.
def writePosition (delivery : Delivery) (msg : TelemetryMessage) (positionValid : Bool)
    (appliedStatus : Option DeliveryStatus) : App Bool :=
  let frozen : Bool := delivery.status ∈ DeliveryStatus.positionFrozenStatuses
  let phaseWasStale := msg.phase.isSome && appliedStatus.isNone
  if positionValid then
    if appliedStatus.isSome || (!phaseWasStale && !frozen) then do
      (stmt <| .effect <| .updateTracking msg.deliveryId msg.position).safe
      pure true
    else
      pure false
  else if msg.position.isSome ∧ !frozen then do
    (stmt <| .effect <| .updateTracking msg.deliveryId none).safe
    pure false
  else
    pure false

def ingestHappy (delivery : Delivery) (msg : TelemetryMessage) (positionValid : Bool)
    (phase : Option HappyPhase) : App Unit := do
  let appliedStatus ← advance msg.deliveryId phase
  let positioned ← writePosition delivery msg positionValid appliedStatus
  if appliedStatus.isNone ∧ !positioned then
    pure ()
  else
    stmt <| .effect <| .publishUpdate msg.deliveryId appliedStatus

def ingest (P : Params) (C : CommandId) (msg : TelemetryMessage) (cooling : Bool)
    (faults : CleanupFaults) : App Unit := do
  if msg.lat.isSome ≠ msg.lng.isSome then
    throw <| .badRequest "error.telemetry.latlng_pair_required"
  else
    let positionValid := msg.position.any TelemetryMessage.inBounds
    match ← stmt <| .delivery <| .find msg.deliveryId with
    | none          => pure ()
    | some delivery =>
      if delivery.trackingSource ≠ .live then
        throw <| .forbidden "error.telemetry.not_live"
      else if delivery.assignedDroneId ≠ some msg.droneId then
        throw <| .forbidden "error.telemetry.drone_not_assigned"
      else
        FlightRecorder.record P C delivery msg cooling
        match msg.phase with
        | some (.exception phase) => ingestException phase msg positionValid faults
        | some (.happy phase)     => ingestHappy delivery msg positionValid (some phase)
        | _                       => ingestHappy delivery msg positionValid none

end TelemetryService

end Drovery
