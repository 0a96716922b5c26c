import Drovery.Data.JsString
import Drovery.Services.Termination

namespace Drovery

open Concurrency
open App (stmt tx)

namespace DroneCommandService

open DeliveriesService

-- Issues a command under the id `C`. This does not touch the delivery.
def issue (C : CommandId) (adminId : Option UserId) (D : DeliveryId) (type : DroneCommandType)
    (reason : Option DeliveryFailureReason) : App Unit := do
  match ← stmt <| .delivery <| .find D with
  | none          => throw <| .notFound "error.delivery.not_found"
  | some delivery =>
    if delivery.trackingSource ≠ .live then
      throw <| .unprocessable "error.command.live_only"
    else
      match delivery.assignedDroneId with
      | none   => throw <| .conflict "error.command.no_drone"
      | some X =>
        if delivery.status ∉ type.legalStatuses then
          throw <| .conflict "error.command.illegal_for_status"
        else
          let total ← stmt <| .command <| .countForDelivery D
          if maxCommandsPerDelivery ≤ total then
            throw <| .conflict "error.command.limit_reached"
          else
            let now ← stmt <| .effect .dateNow
            let row : DroneCommand := {
              deliveryId        := D
              droneId           := X
              type              := type
              reason            := reason.getD type.defaultReason
              status            := .pending
              issuedByUserId    := adminId
              appliedTransition := false
              resultNote        := none
              expiresAt         := now + commandTtlMs
              fetchedAt         := none
              ackedAt           := none
              createdAt         := now
            }
            (tx (.command <| .create C row) id).handle fun e =>
              if e.isUniqueViolation then
                throw <| .conflict "error.command.already_pending"
              else
                throw e
            (stmt <| .effect <| .pushCommand C).safe

-- The drone polls its oldest open command.
def fetchPending (X : DroneId) : App (Option CommandId) := do
  let now ← stmt <| .effect .dateNow
  match ← stmt <| .command <| .findOpen X now with
  | none                         => pure none
  | some (C, command, source, Y) =>
    if source ≠ .live ∨ Y ≠ some X then
      pure none
    else if command.status = .pending then
      let count ← stmt <| .command <| .markFetched C now
      if 0 < count then
        pure <| some C
      else
        -- The command was lost to another poll or to its expiry.
        match ← stmt <| .command <| .find C with
        | some (fresh, _) => pure <| if fresh.status = .fetched then some C else none
        | none            => pure none
    else
      pure <| some C

-- Drives the delivery on behalf of a command, and reports whether this changed the delivery.
def drive (C : CommandId) (command : DroneCommand) (faults : CleanupFaults) : App Bool :=
  match command.type with
  | .returnToBase => beginReturnToBase (some C) command.deliveryId command.reason faults
  | .abort        =>
    failExceptional (some C) command.deliveryId command.reason DeliveryStatus.failableStatuses faults

-- Records whether a command has changed its delivery.
def patch (C : CommandId) (applied : Bool) (note : String) : App Unit :=
  if applied then stmt <| .command <| .patchApplied C else stmt <| .command <| .patchRejected C note

def ack (C : CommandId) (X : DroneId) (accepted : Bool) (note : Option String)
    (faults : CleanupFaults) : App Unit := do
  match ← stmt <| .command <| .find C with
  | none                      => throw <| .notFound "error.command.not_found"
  | some (command, source, Y) =>
    if command.droneId ≠ X ∨ source ≠ .live ∨ Y ≠ some X then
      throw <| .forbidden "error.command.drone_not_assigned"
    else
      let now ← stmt <| .effect .dateNow
      if command.expiresAt ≤ now then
        let _ ← stmt <| .command <| .expire C
        throw <| .conflict "error.command.expired"
      else
        let claimStatus : DroneCommandStatus := if accepted then .acked else .rejected
        let now ← stmt <| .effect .dateNow
        let count ← stmt <| .command <| .claim C claimStatus now note
        if count = 0 then
          throw <| .conflict "error.command.not_awaiting_ack"
        else if accepted then
          let applied ← drive C command faults
          patch C applied (note.getD "delivery no longer in a commandable state")
        else
          pure ()

end DroneCommandService

-- The acknowledgement of a command over HTTP.
structure AckCommandDto where
  droneId  : DroneId
  accepted : Option Bool
  note     : Option String

-- The acknowledgement of a command over MQTT.
structure AckFrame where
  commandId : Option CommandId
  droneId   : Option DroneId
  accepted  : Option Bool
  note      : Option String

def CommandController.ack (C : CommandId) (dto : AckCommandDto) (faults : CleanupFaults) : App Unit :=
  DroneCommandService.ack C dto.droneId (dto.accepted.getD true) dto.note faults

-- A frame that cannot be parsed (i.e. none) or is incomplete is dropped, and failures stay with the
-- subscriber.
def MqttCommandAckSubscriber.handleAck (frame : Option AckFrame) (faults : CleanupFaults) : App Unit :=
  match frame with
  | none       => pure ()
  | some frame =>
    match frame.commandId, frame.droneId with
    | some C, some X =>
      let note := frame.note.map <| JsString.slice 200
      (DroneCommandService.ack C X (frame.accepted.getD true) note faults).safe
    | _, _ => pure ()

namespace DeliveryWatchdog

open DeliveriesService DroneCommandService

-- Fails a delivery whose drone has been silent for too long.
def reapStuck (now : Time) (faults : DeliveryId → CleanupFaults) (d : StuckDelivery) : App Unit :=
  if now ≤ d.lastTelemetry + watchdogSilenceMs then
    pure ()
  else
    (failExceptional none d.id (d.failureReason.getD .mechanical)
      DeliveryStatus.watchdogStuckStatuses (faults d.id)).safe

def reap (now : Time) (faults : DeliveryId → CleanupFaults) : List StuckDelivery → App Unit
  | []      => pure ()
  | d :: ds => do
    reapStuck now faults d
    reap now faults ds

def expireStaleCommands : App Unit := do
  let now ← stmt <| .effect .dateNow
  let total ← stmt <| .command <| .countStale now
  if total = 0 then pure () else stmt <| .command <| .expireStale now

-- Finishes a command that has been accepted but not carried out.
def redrive (C : CommandId) (command : DroneCommand) (faults : CleanupFaults) : App Unit := do
  let applied ← drive C command faults
  patch C applied "reconciled: delivery already settled"

def reconcile (faults : CommandId → CleanupFaults) : List (CommandId × DroneCommand) → App Unit
  | []                   => pure ()
  | (C, command) :: rest => do
    (redrive C command (faults C)).safe
    reconcile faults rest

def reconcileStrandedAcks (faults : CommandId → CleanupFaults) : App Unit := do
  let now ← stmt <| .effect .dateNow
  let stranded ← stmt <| .command <| .findStranded (now - commandReconcileGraceMs)
  reconcile faults stranded

structure ScanFaults where
  reap  : DeliveryId → CleanupFaults := fun _ => {}
  drive : CommandId → CleanupFaults  := fun _ => {}

def scanAndReap (faults : ScanFaults) : App Unit := do
  let now ← stmt <| .effect .dateNow
  let candidates ← stmt <| .delivery <| .findStuck (now - watchdogSilenceMs) (now - watchdogMinAgeMs)
  reap now faults.reap candidates
  expireStaleCommands
  reconcileStrandedAcks faults.drive

end DeliveryWatchdog

end Drovery
