import Drovery.Services.Termination

namespace Drovery

open Concurrency
open App (stmt tx)

def maxTrackingIdTries : Nat := 5
def scheduleThresholdMs : Int := 60000
def maxScheduleMs : Int := 60 * 24 * 60 * 60 * 1000

-- What is known about a request once it has passed the checks that precede any statement: the route
-- between the geocoded addresses, the price and the requested pickup time.
structure Quote where
  route        : Option MissionRoute
  total        : Cents
  scheduledFor : Option Time

-- The outcomes of the transactions and of the best-effort steps of a creation.
structure CreateFaults where
  promo           : Fault       := .committed
  debit           : Fault       := .committed
  -- The outcome of the creation for each tracking id that is tried.
  delivery        : Nat → Fault := fun _ => .committed
  payment         : Fault       := .committed
  queue           : Fault       := .committed
  releasePromo    : Fault       := .committed
  refundCredits   : Fault       := .committed
  releaseAirframe : Fault       := .committed

structure CreateInput where
  userId        : UserId
  liveDispatch  : Bool
  packageWeight : ℚ
  promoCode     : Option String
  useCredits    : Bool
  -- The result of the checks of the request, the geocoding, the serviceability and the pricing.
  quote         : Except AppError Quote
  -- The tracking ids that are generated for the first and for all further tries.
  trackingId    : Nat → String
  handoffCode   : String
  intent        : Except AppError (IntentId × IntentStatus)
  faults        : CreateFaults

-- A request with everything that is charged for it.
structure Order where
  route           : Option MissionRoute
  scheduledFor    : Option Time
  isScheduled     : Bool
  promo           : Option (PromoId × PromoCode)
  originalTotal   : Cents
  discount        : DiscountResult
  creditsToApply  : Cents
  finalTotal      : Cents
  pendingReferral : Bool

def isTrackingIdCollision : AppError → Bool
  | .p2002 c => c = .trackingIdRegistry
  | _        => false

namespace DeliveriesService

open DispatchService WalletService PromoService PaymentsService

def compensateReservations (D : DeliveryId) (faults : CreateFaults) : App Unit := do
  (releaseForDelivery D faults.releasePromo).safe
  (refundForDelivery D faults.refundCredits).safe

def releaseClaimedAircraft (droneId : Option DroneId) (D : DeliveryId) (faults : CreateFaults) :
    App Unit :=
  match droneId with
  | none   => pure ()
  | some _ => release D .returnToFleet faults.releaseAirframe

def applyPromo (inp : CreateInput) (total : Cents) : App (Option (PromoId × PromoCode)) :=
  match inp.promoCode.filter (· ≠ "") with
  | none      => pure none
  | some code => do
    let promo ← validateForRedeem code inp.userId total
    pure <| some promo

-- The credits never exceed the balance or the remaining charge.
def applyCredits (inp : CreateInput) (afterPromo : Cents) : App Cents :=
  if inp.useCredits then do
    let balance ← stmt <| .wallet <| .findBalance inp.userId
    pure <| max 0 (min (balance.getD 0) afterPromo)
  else
    pure 0

-- The part of a creation that only reads.
def prepare (inp : CreateInput) : App Order := do
  match inp.quote with
  | .error e  => throw e
  | .ok quote =>
    let now ← stmt <| .effect .dateNow
    let leadMs : Int := (quote.scheduledFor.map fun t => (t : Int) - now).getD 0
    let isScheduled : Bool := scheduleThresholdMs < leadMs
    if isScheduled ∧ maxScheduleMs < leadMs then
      throw <| .badRequest "error.delivery.schedule.too_far"
    else
      let promo ← applyPromo inp quote.total
      let discount : DiscountResult := match promo with
        | some (_, code) => code.computeDiscount quote.total
        | none           => { discountAmount := 0, finalTotal := quote.total }
      let creditsToApply ← applyCredits inp discount.finalTotal
      let referral ← stmt <| .wallet <| .findPendingReferral inp.userId
      pure {
        route           := quote.route
        scheduledFor    := quote.scheduledFor
        isScheduled     := isScheduled
        promo           := promo
        originalTotal   := quote.total
        discount        := discount
        creditsToApply  := creditsToApply
        finalTotal      := discount.finalTotal - creditsToApply
        pendingReferral := referral.isSome
      }

-- The row of the new delivery. The database sets its creation time.
def deliveryData (P : Params) (inp : CreateInput) (order : Order) (dispatched : DispatchDecision)
    (attempt : Nat) : Delivery where
  userId             := inp.userId
  trackingId         := inp.trackingId attempt
  status             := if order.isScheduled then .scheduled else .pending
  trackingSource     := dispatched.trackingSource
  assignedDroneId    := dispatched.droneId
  failureReason      := none
  route              := order.route
  packageWeight      := inp.packageWeight
  estimatedPrice     := order.finalTotal
  handoffCodeHash    := some <| P.hash inp.handoffCode
  handoffAttempts    := 0
  handoffConfirmedAt := none
  createdAt          := 0
  updatedAt          := 0

-- Whatever has been reserved ahead of the delivery is not booked again together with it.
def booking (P : Params) (order : Order) : Booking where
  redeem   :=
    if P.debitFirst then none
    else order.promo.map fun (code, _) => (code, order.originalTotal, order.discount)
  debit    := if !P.debitFirst && 0 < order.creditsToApply then some order.creditsToApply else none
  referral :=
    if order.pendingReferral then some <| if P.outboxReferral then .outbox else .inline else none

def redeemPromo (D : DeliveryId) (inp : CreateInput) (order : Order) : App Unit :=
  match order.promo with
  | none           => pure ()
  | some (code, _) =>
    (tx (.promo <| .redeem code inp.userId D order.originalTotal order.discount) id).attempt
      inp.faults.promo

def debitCredits (D : DeliveryId) (inp : CreateInput) (order : Order) : App Unit :=
  if 0 < order.creditsToApply then
    (tx (.wallet <| .debit inp.userId order.creditsToApply D (some <| .debit D)) id).attempt
      inp.faults.debit
  else
    pure ()

def undoReservations (P : Params) (D : DeliveryId) (inp : CreateInput) : App Unit :=
  if P.debitFirst then compensateReservations D inp.faults else pure ()

-- Undoes everything that has been reserved for a delivery which will never exist.
def abandon (P : Params) (D : DeliveryId) (inp : CreateInput) (dispatched : DispatchDecision) :
    App Unit := do
  undoReservations P D inp
  releaseClaimedAircraft dispatched.droneId D inp.faults

-- In debit-first mode the promo code and the credits are taken before the delivery is created.
def reserve (P : Params) (D : DeliveryId) (inp : CreateInput) (order : Order)
    (dispatched : DispatchDecision) : App Unit :=
  if P.debitFirst then
    (do redeemPromo D inp order
        debitCredits D inp order : App Unit) |>.handle fun e => do
      abandon P D inp dispatched
      throw e
  else
    pure ()

-- Creates the delivery, and reports whether its tracking id was still free.
def place (P : Params) (D : DeliveryId) (inp : CreateInput) (order : Order)
    (dispatched : DispatchDecision) (attempt : Nat) : App Bool :=
  (do let row := deliveryData P inp order dispatched attempt
      (tx (.createDelivery D row (booking P order)) id).attempt (inp.faults.delivery attempt)
      pure true : App Bool) |>.handle fun e =>
    if isTrackingIdCollision e then
      pure false
    else do
      abandon P D inp dispatched
      throw e

-- Tries the tracking ids from the given one on.
def placeWithRetries (P : Params) (D : DeliveryId) (inp : CreateInput) (order : Order)
    (dispatched : DispatchDecision) : (tries attempt : Nat) → App Unit
  | 0, _ => do
    abandon P D inp dispatched
    throw <| .conflict "error.delivery.tracking_id_alloc_failed"
  | tries + 1, attempt => do
    let placed ← place P D inp order dispatched attempt
    if placed then
      pure ()
    else
      placeWithRetries P D inp order dispatched tries (attempt + 1)

-- There is no payment for a delivery that is free of charge.
def charge (D : DeliveryId) (inp : CreateInput) (order : Order) : App Unit :=
  if 0 < order.finalTotal then
    (createDeliveryPayment D order.finalTotal inp.intent inp.faults.payment).safe
  else
    pure ()

-- A live delivery is driven by its drone, and therefore not simulated.
def enqueue (D : DeliveryId) (inp : CreateInput) (order : Order) (source : TrackingSource) :
    App Unit :=
  match source, order.isScheduled, order.scheduledFor with
  | .live,      _,    _      => pure ()
  | .simulated, true, some t =>
    (stmt <| .effect <| .scheduleKickoff D t).attempt inp.faults.queue |>.safe
  | .simulated, _,    _      =>
    (stmt <| .effect <| .startSimulation D).attempt inp.faults.queue |>.safe

def create (P : Params) (D : DeliveryId) (inp : CreateInput) : App Unit := do
  let order ← prepare inp
  let dispatched ← dispatch P inp.liveDispatch D inp.packageWeight order.route order.isScheduled
  reserve P D inp order dispatched
  placeWithRetries P D inp order dispatched maxTrackingIdTries 0
  charge D inp order
  enqueue D inp order dispatched.trackingSource

end DeliveriesService

end Drovery
