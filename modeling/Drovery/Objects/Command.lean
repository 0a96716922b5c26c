import Mathlib.Data.List.Sort
import Drovery.Objects.Delivery

namespace Drovery

inductive DroneCommandType
  | returnToBase
  | abort
  deriving DecidableEq

inductive DroneCommandStatus
  | pending
  | fetched
  | acked
  | rejected
  | expired
  deriving DecidableEq

-- The statuses that occupy the slot for the one open command of a delivery.
def DroneCommandStatus.Open (s : DroneCommandStatus) : Prop :=
  s = pending ∨ s = fetched

instance : DecidablePred DroneCommandStatus.Open :=
  fun _ => inferInstanceAs (Decidable (_ ∨ _))

structure DroneCommand where
  deliveryId        : DeliveryId
  droneId           : DroneId
  type              : DroneCommandType
  reason            : DeliveryFailureReason
  status            : DroneCommandStatus
  issuedByUserId    : Option UserId
  appliedTransition : Bool
  resultNote        : Option String
  expiresAt         : Time
  fetchedAt         : Option Time
  ackedAt           : Option Time
  createdAt         : Time

abbrev Commands := Table CommandId DroneCommand

def commandTtlMs : Nat := 5 * 60000
def commandReconcileGraceMs : Nat := 2 * 60000
def maxCommandsPerDelivery : Nat := 50
def watchdogBatch : Nat := 200

namespace DroneCommandType

-- The statuses of a delivery in which a command may be issued.
def legalStatuses : DroneCommandType → List DeliveryStatus
  | returnToBase => DeliveryStatus.returnableStatuses
  | abort        => DeliveryStatus.failableStatuses

def defaultReason : DroneCommandType → DeliveryFailureReason
  | returnToBase => .weatherAbort
  | abort        => .adminAbort

-- The write to the delivery that a command of this type stands for.
def transition : DroneCommandType → DeliveryFailureReason → Transition
  | returnToBase, reason => .beginReturn reason
  | abort,        reason => .fail DeliveryStatus.failableStatuses reason

end DroneCommandType

-- The statements that the platform issues against the command outbox.
inductive CommandStmt
  | find (C : CommandId)
  | countForDelivery (D : DeliveryId)
  | create (C : CommandId) (row : DroneCommand)
  -- The oldest open command of a drone that has not expired.
  | findOpen (X : DroneId) (now : Time)
  | markFetched (C : CommandId) (now : Time)
  | expire (C : CommandId)
  | claim (C : CommandId) (status : DroneCommandStatus) (now : Time) (note : Option String)
  | patchApplied (C : CommandId)
  | patchRejected (C : CommandId) (note : String)
  | countStale (now : Time)
  | expireStale (now : Time)
  | findStranded (cutoff : Time)

namespace CommandStmt

-- A command together with the columns of its delivery that the drone endpoints check.
abbrev WithDelivery := DroneCommand × TrackingSource × Option DroneId

@[reducible]
def Res : CommandStmt → Type
  | find _             => Option WithDelivery
  | countForDelivery _ => Nat
  | create _ _         => Except AppError Unit
  | findOpen _ _       => Option (CommandId × WithDelivery)
  | markFetched _ _    => Nat
  | expire _           => Nat
  | claim _ _ _ _      => Nat
  | patchApplied _     => Unit
  | patchRejected _ _  => Unit
  | countStale _       => Nat
  | expireStale _      => Unit
  | findStranded _     => List (CommandId × DroneCommand)

-- Insertion is subject to the partial unique index on the open commands of a delivery.
def execCreate (commands : Commands) (C : CommandId) (row : DroneCommand) :
    Except AppError Unit × Commands :=
  if row.status.Open ∧ 0 < commands.count fun _ c => c.deliveryId = row.deliveryId ∧ c.status.Open then
    (.error <| .p2002 .oneOpenCommandPerDelivery, commands)
  else
    match commands.insert C row with
    | none    => (.error <| .p2002 .commandId, commands)
    | some cs => (.ok (), cs)

def createdLE (a b : CommandId × DroneCommand) : Prop :=
  a.snd.createdAt ≤ b.snd.createdAt

instance : DecidableRel createdLE :=
  fun _ _ => inferInstanceAs (Decidable (_ ≤ _))

def include? (deliveries : Table DeliveryId Delivery) (c : DroneCommand) : Option WithDelivery :=
  deliveries.find? c.deliveryId |>.map fun d => (c, d.trackingSource, d.assignedDroneId)

def stale (now : Time) (c : DroneCommand) : Bool :=
  c.status.Open ∧ c.expiresAt < now

def stranded (cutoff : Time) (c : DroneCommand) : Bool :=
  c.status = .acked ∧ c.appliedTransition = false ∧ c.ackedAt.any (· < cutoff)

def exec (deliveries : Table DeliveryId Delivery) :
    (x : CommandStmt) → Commands → x.Res × Commands
  | find C, commands =>
    (commands.find? C >>= include? deliveries, commands)
  | countForDelivery D, commands =>
    (commands.count fun _ c => c.deliveryId = D, commands)
  | create C row, commands =>
    execCreate commands C row
  | findOpen X now, commands =>
    (commands.findMany (fun _ c => c.droneId = X ∧ c.status.Open ∧ now < c.expiresAt)
      |>.insertionSort createdLE |>.head?
      |>.bind fun (C, c) => include? deliveries c |>.map (C, ·), commands)
  | markFetched C now, commands =>
    commands.cas C (·.status = .pending) ({ · with status := .fetched, fetchedAt := some now })
  | expire C, commands =>
    commands.cas C (·.status.Open) ({ · with status := .expired })
  | claim C status now note, commands =>
    commands.cas C (·.status = .fetched)
      ({ · with status := status, ackedAt := some now, resultNote := note })
  | patchApplied C, commands =>
    ((), commands.modify C ({ · with appliedTransition := true }))
  | patchRejected C note, commands =>
    ((), commands.modify C ({ · with status := .rejected, resultNote := some note }))
  | countStale now, commands =>
    (commands.count fun _ c => stale now c, commands)
  | expireStale now, commands =>
    ((), commands.updateMany (fun _ c => stale now c) ({ · with status := .expired }))
  | findStranded cutoff, commands =>
    (commands.findMany (fun _ c => stranded cutoff c) |>.take watchdogBatch, commands)

end CommandStmt

end Drovery
