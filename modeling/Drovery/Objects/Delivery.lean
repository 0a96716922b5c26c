import Mathlib.Data.Rat.Defs
import Drovery.Data.Table

namespace Drovery

abbrev UserId     := Nat
abbrev DeliveryId := Nat
abbrev DroneId    := Nat
abbrev CommandId  := Nat
abbrev PromoId    := Nat
abbrev ReferralId := Nat

-- Milliseconds since the epoch.
abbrev Time := Nat

-- All amounts of money are exact.
abbrev Cents := Int

inductive Constraint
  | deliveryId
  | trackingIdRegistry
  | droneActiveDeliveryId
  | commandId
  | oneOpenCommandPerDelivery
  | walletIdempotencyKey
  | outboxIdempotencyKey
  | promoRedemptionDeliveryId
  | promoRedemptionActivePerUser
  | paymentDeliveryId
  | webhookEventId
  | airspaceZoneId
  | recurringDeliveryId
  | refreshTokenHash
  | resetTokenHash
  | droneSerial
  | promoCode
  deriving DecidableEq

-- The ways in which a statement or a service method can fail: an HTTP exception with its message
-- key, a violated uniqueness constraint, a reference to a missing user, a missing record, a
-- connection that broke down, or any other exception with its message.
inductive AppError
  | http (status : Nat) (messageKey : String)
  | p2002 (c : Constraint)
  | p2003
  | recordNotFound
  | connectionLost
  | internal (message : String)
  deriving DecidableEq

namespace AppError

abbrev badRequest (key : String)    : AppError := http 400 key
abbrev unauthorized (key : String)  : AppError := http 401 key
abbrev forbidden (key : String)     : AppError := http 403 key
abbrev notFound (key : String)      : AppError := http 404 key
abbrev conflict (key : String)      : AppError := http 409 key
abbrev unprocessable (key : String) : AppError := http 422 key
abbrev locked (key : String)        : AppError := http 423 key

def isUniqueViolation : AppError → Bool
  | p2002 _ => true
  | _       => false

end AppError

inductive DeliveryStatus
  | scheduled
  | pending
  | confirmed
  | droneAssigned
  | pickupInProgress
  | inTransit
  | awaitingHandoff
  | delivered
  | canceled
  | returning
  | deliveryFailed
  | returnedToBase
  deriving DecidableEq

inductive DeliveryFailureReason
  | recipientUnavailable
  | weatherAbort
  | unsafeDropZone
  | mechanical
  | adminAbort
  | other
  deriving DecidableEq

inductive TrackingSource
  | simulated
  | live
  deriving DecidableEq

namespace DeliveryStatus

def statusOrder : List DeliveryStatus :=
  [pending, confirmed, droneAssigned, pickupInProgress, inTransit, awaitingHandoff, delivered]

-- The statuses strictly before `target`, which are the only ones from which it may advance.
def statusesBefore (target : DeliveryStatus) : List DeliveryStatus :=
  if target ∈ statusOrder then statusOrder.take (statusOrder.idxOf target) else []

def cancelableStatuses : List DeliveryStatus :=
  [scheduled, pending, confirmed]

-- The statuses in which a drone is dispatched.
def failableStatuses : List DeliveryStatus :=
  [droneAssigned, pickupInProgress, inTransit, awaitingHandoff, returning]

def terminalStatuses : List DeliveryStatus :=
  [delivered, canceled, deliveryFailed, returnedToBase]

def returnableStatuses : List DeliveryStatus :=
  [pickupInProgress, inTransit, awaitingHandoff]

def positionFrozenStatuses : List DeliveryStatus :=
  [canceled, awaitingHandoff, delivered, returnedToBase, deliveryFailed]

def watchdogStuckStatuses : List DeliveryStatus :=
  [droneAssigned, pickupInProgress, inTransit, returning]

abbrev Terminal (s : DeliveryStatus) : Prop :=
  s ∈ terminalStatuses

end DeliveryStatus

def DeliveryFailureReason.isDroneFaultReason (r : DeliveryFailureReason) : Bool :=
  r ≠ recipientUnavailable

structure MissionRoute where
  fromLat : ℚ
  fromLng : ℚ
  toLat   : ℚ
  toLng   : ℚ
  deriving DecidableEq

-- The columns of a delivery that are read after its creation.
structure Delivery where
  userId             : UserId
  trackingId         : String
  status             : DeliveryStatus
  trackingSource     : TrackingSource
  assignedDroneId    : Option DroneId
  failureReason      : Option DeliveryFailureReason
  -- This is `none` if one of the addresses could not be geocoded.
  route              : Option MissionRoute
  packageWeight      : ℚ
  estimatedPrice     : Cents
  handoffCodeHash    : Option String
  handoffAttempts    : Nat
  handoffConfirmedAt : Option Time
  createdAt          : Time
  updatedAt          : Time

-- The guarded writes to the status of a delivery. There are no others: each of them is a single
-- `updateMany` whose `where` clause names the statuses from which it may fire.
inductive Transition
  -- The kickoff of a scheduled delivery, which also binds the claimed airframe (if any).
  | launch (drone : Option DroneId)
  -- A stage of the simulation or a happy phase of the telemetry.
  | advance (target : DeliveryStatus)
  | cancel
  -- The two writes of a forced cancellation.
  | forceCancelOnGround
  | forceCancelAirborne
  | fail (allowed : List DeliveryStatus) (reason : DeliveryFailureReason)
  | beginReturn (reason : DeliveryFailureReason)
  | completeReturn
  -- The handoff to the recipient who presented `code`. The code is not part of the write.
  | deliver (code : String)
  deriving DecidableEq

namespace Transition

open DeliveryStatus

-- Whether a transition may fire from a given status.
def source : Transition → DeliveryStatus → Bool
  | launch _,            s => s = scheduled
  | advance target,      s => s ∈ statusesBefore target
  | cancel,              s => s ∈ cancelableStatuses
  | forceCancelOnGround, s => s ∉ terminalStatuses ++ failableStatuses
  | forceCancelAirborne, s => s ∈ failableStatuses
  | fail allowed _,      s => s ∈ allowed
  | beginReturn _,       s => s ∈ returnableStatuses
  | completeReturn,      s => s = returning
  | deliver _,           s => s = awaitingHandoff

def target : Transition → DeliveryStatus
  | launch _            => pending
  | advance target      => target
  | cancel              => canceled
  | forceCancelOnGround => canceled
  | forceCancelAirborne => canceled
  | fail _ _            => deliveryFailed
  | beginReturn _       => returning
  | completeReturn      => returnedToBase
  | deliver _           => delivered

-- The written row. Apart from the status a transition sets the airframe, the failure reason or the
-- time of the handoff.
def apply (tr : Transition) (now : Time) (d : Delivery) : Delivery :=
  match tr with
  | launch (some drone) =>
    { d with
      status          := pending
      trackingSource  := .live
      assignedDroneId := some drone
      updatedAt       := now }
  | fail _ reason | beginReturn reason =>
    { d with status := tr.target, failureReason := some reason, updatedAt := now }
  | deliver _ =>
    { d with status := tr.target, handoffConfirmedAt := some now, updatedAt := now }
  | _ =>
    { d with status := tr.target, updatedAt := now }

variable {tr : Transition} {now : Time} {d : Delivery}

@[simp]
theorem apply_status : (tr.apply now d).status = tr.target := by
  unfold apply; split <;> rfl

@[simp]
theorem apply_userId : (tr.apply now d).userId = d.userId := by
  unfold apply; split <;> rfl

@[simp]
theorem apply_estimatedPrice : (tr.apply now d).estimatedPrice = d.estimatedPrice := by
  unfold apply; split <;> rfl

@[simp]
theorem apply_handoffCodeHash : (tr.apply now d).handoffCodeHash = d.handoffCodeHash := by
  unfold apply; split <;> rfl

@[simp]
theorem apply_handoffAttempts : (tr.apply now d).handoffAttempts = d.handoffAttempts := by
  unfold apply; split <;> rfl

end Transition

end Drovery
