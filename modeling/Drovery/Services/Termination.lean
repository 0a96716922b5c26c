import Drovery.Services.Money

namespace Drovery

open Concurrency
open App (stmt tx)

-- What happens to the claimed airframe when a delivery terminates.
inductive AircraftDisposition
  | released (outcome : ReleaseOutcome)
  | stillAirborne
  deriving DecidableEq

-- The outcomes of the steps of a cleanup. Each step is best effort.
structure CleanupFaults where
  airframe : Fault := .committed
  stop     : Fault := .committed
  promo    : Fault := .committed
  credits  : Fault := .committed
  charge   : Fault := .committed
  notify   : Fault := .committed
  publish  : Fault := .committed

namespace DeliveriesService

open DispatchService WalletService PromoService

def refundLegs (D : DeliveryId) (faults : CleanupFaults) : App Unit := do
  (releaseForDelivery D faults.promo).safe
  (refundForDelivery D faults.credits).safe
  (refundChargeToWallet D faults.charge).safe

def handBack (D : DeliveryId) (aircraft : AircraftDisposition) (faults : CleanupFaults) : App Unit :=
  match aircraft with
  | .released outcome => release D outcome faults.airframe
  | .stillAirborne    => pure ()

-- The cleanup that every termination runs: it hands back the airframe unless it is still flying,
-- stops the simulation, and returns all parts of the charge if the outcome warrants a refund.
def cleanupAfterTermination (D : DeliveryId) (refundCredits : Bool)
    (aircraft : AircraftDisposition) (faults : CleanupFaults) : App Unit := do
  handBack D aircraft faults
  (stmt <| .effect <| .stopSimulation D).attempt faults.stop |>.safe
  if refundCredits then refundLegs D faults else pure ()

def announceException (D : DeliveryId) (status : DeliveryStatus)
    (reason : Option DeliveryFailureReason) (faults : CleanupFaults) : App Unit := do
  match ← stmt <| .delivery <| .find D with
  | none   => pure ()
  | some _ =>
    (stmt <| .effect <| .notify D status reason).attempt faults.notify |>.safe
    (stmt <| .effect <| .publishUpdate D (some status)).attempt faults.publish |>.safe

def cancel (U : UserId) (D : DeliveryId) (faults : CleanupFaults) : App Unit := do
  match ← stmt <| .delivery <| .find D with
  | none          => throw <| .notFound "error.delivery.not_found"
  | some delivery =>
    if delivery.userId ≠ U then
      throw <| .notFound "error.delivery.not_found"
    else if delivery.status ∉ DeliveryStatus.cancelableStatuses then
      throw <| .badRequest "error.delivery.cancel.bad_status"
    else
      let count ← stmt <| .delivery <| .transition none D .cancel
      if count = 0 then
        throw <| .conflict "error.delivery.cancel.race_bad_status"
      else
        cleanupAfterTermination D true (.released .returnToFleet) faults

-- The airframe is only returned to the fleet if nothing was in flight.
def adminForceCancel (D : DeliveryId) (faults : CleanupFaults) : App Unit := do
  let count ← stmt <| .delivery <| .transition none D .forceCancelOnGround
  if 0 < count then
    cleanupAfterTermination D true (.released .returnToFleet) faults
  else
    let count ← stmt <| .delivery <| .transition none D .forceCancelAirborne
    if 0 < count then
      cleanupAfterTermination D true (.released .groundForInspection) faults
    else
      match ← stmt <| .delivery <| .find D with
      | none   => throw <| .notFound "error.delivery.not_found"
      | some _ => throw <| .conflict "error.delivery.cancel.race_bad_status"

-- One half of the write that fails a delivery. There is nothing to write for an empty set.
def failFrom (onBehalfOf : Option CommandId) (D : DeliveryId) (allowed : List DeliveryStatus)
    (reason : DeliveryFailureReason) : App Nat :=
  if allowed = [] then pure 0 else stmt <| .delivery <| .transition onBehalfOf D (.fail allowed reason)

def finishFailure (D : DeliveryId) (reason : DeliveryFailureReason) (airborne : Bool)
    (faults : CleanupFaults) : App Unit := do
  let outcome : ReleaseOutcome :=
    if reason.isDroneFaultReason || airborne then .groundForInspection else .returnToFleet
  cleanupAfterTermination D reason.isDroneFaultReason (.released outcome) faults
  announceException D .deliveryFailed (some reason) faults

-- Fails a delivery from one of the allowed statuses, and reports whether this call did so. The
-- statuses on the ground and those in the air are written separately.
def failExceptional (onBehalfOf : Option CommandId) (D : DeliveryId)
    (reason : DeliveryFailureReason) (allowed : List DeliveryStatus) (faults : CleanupFaults) :
    App Bool := do
  let grounded := allowed.filter (· ∉ DeliveryStatus.failableStatuses)
  let airborne := allowed.filter (· ∈ DeliveryStatus.failableStatuses)
  let matched ← failFrom onBehalfOf D grounded reason
  if 0 < matched then
    finishFailure D reason false faults
    pure true
  else
    let matched ← failFrom onBehalfOf D airborne reason
    if 0 < matched then
      finishFailure D reason true faults
      pure true
    else
      pure false

-- The airframe keeps its claim, as it is still in the air.
def beginReturnToBase (onBehalfOf : Option CommandId) (D : DeliveryId)
    (reason : DeliveryFailureReason) (faults : CleanupFaults) : App Bool := do
  let count ← stmt <| .delivery <| .transition onBehalfOf D (.beginReturn reason)
  if count = 0 then
    pure false
  else
    cleanupAfterTermination D reason.isDroneFaultReason .stillAirborne faults
    announceException D .returning (some reason) faults
    pure true

def completeReturnToBase (D : DeliveryId) (faults : CleanupFaults) : App Bool := do
  let count ← stmt <| .delivery <| .transition none D .completeReturn
  if count = 0 then
    pure false
  else
    release D .groundForInspection faults.airframe
    announceException D .returnedToBase none faults
    pure true

def adminFail (D : DeliveryId) (reason : DeliveryFailureReason) (faults : CleanupFaults) :
    App Unit := do
  let applied ← failExceptional none D reason DeliveryStatus.failableStatuses faults
  if applied then
    pure ()
  else
    match ← stmt <| .delivery <| .find D with
    | none   => throw <| .notFound "error.delivery.not_found"
    | some _ => throw <| .conflict "error.delivery.fail.bad_status"

def handoffLockedError : AppError :=
  .locked "error.delivery.handoff.locked"

def handoffCodeMatches (P : Params) (code : String) (storedHash : Option String) : Bool :=
  match storedHash with
  | none      => false
  | some hash => hash ≠ "" ∧ P.hash code = hash

-- A handoff that is locked fails the delivery, through no fault of the drone.
def failHandoff (D : DeliveryId) (faults : CleanupFaults) : App Unit := do
  let _ ← failExceptional none D .recipientUnavailable DeliveryStatus.failableStatuses faults
  throw handoffLockedError

-- Counts a wrong guess and locks the handoff once there are too many of them.
def rejectGuess (D : DeliveryId) (faults : CleanupFaults) : App Unit := do
  let count ← stmt <| .delivery <| .countWrongGuess D
  let after ← stmt <| .delivery <| .find D
  if count = 0 ∨ maxHandoffAttempts ≤ (after.map (·.handoffAttempts)).getD maxHandoffAttempts then
    failHandoff D faults
  else
    throw <| .unauthorized "error.delivery.handoff.invalid_code"

def completeHandoff (D : DeliveryId) (code : String) (faults : CleanupFaults) : App Unit := do
  let count ← stmt <| .delivery <| .transition none D (.deliver code)
  if count = 0 then
    throw <| .conflict "error.delivery.handoff.already_completed"
  else
    release D .returnToFleet faults.airframe
    (stmt <| .effect <| .createAutoProof D).safe

def confirmHandoff (P : Params) (U : UserId) (D : DeliveryId) (code : String)
    (faults : CleanupFaults) : App Unit := do
  match ← stmt <| .delivery <| .find D with
  | none          => throw <| .notFound "error.delivery.not_found"
  | some delivery =>
    if delivery.userId ≠ U then
      throw <| .notFound "error.delivery.not_found"
    else if delivery.status = .delivered then
      throw <| .conflict "error.delivery.handoff.already_completed"
    else if delivery.status ≠ .awaitingHandoff then
      throw <| .conflict "error.delivery.handoff.not_awaiting"
    else if maxHandoffAttempts ≤ delivery.handoffAttempts then
      failHandoff D faults
    else if handoffCodeMatches P code delivery.handoffCodeHash then
      completeHandoff D code faults
    else
      rejectGuess D faults

end DeliveriesService

end Drovery
