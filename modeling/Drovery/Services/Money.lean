import Drovery.Data.JsString
import Drovery.Services.Dispatch

namespace Drovery

open Concurrency
open App (stmt tx)

namespace WalletService

-- Refunds the credits that were spent on a delivery.
def refundForDelivery (D : DeliveryId) (fault : Fault) : App Unit := do
  match ← stmt <| .wallet <| .findSpend D with
  | none       => pure ()
  | some spend =>
    (tx (.wallet <| .refund D spend.userId spend.amount) id).attempt fault |>.handle fun e =>
      if e.isUniqueViolation then pure () else throw e

-- Refunds the charged amount to the wallet.
def refundChargeToWallet (D : DeliveryId) (fault : Fault) : App Unit := do
  match ← stmt <| .delivery <| .find D with
  | none          => pure ()
  | some delivery =>
    if delivery.estimatedPrice ≤ 0 then
      pure ()
    else
      (tx (.refundCharge .automatic D delivery.userId delivery.estimatedPrice) id).attempt fault
        |>.handle fun e => if e.isUniqueViolation then pure () else throw e

end WalletService

namespace PromoService

def normalizeCode (rawCode : String) : String :=
  JsString.toUpperCase <| .ofList <| JsString.trim rawCode.toList

-- The first reason for which a code is refused, leaving aside the redemptions of the user. The cap is
-- only checked in advance here.
def checkCode (code : PromoCode) (now : Time) (originalTotal : Cents) : Option PromoRejectReason :=
  if !code.active then some .inactive
  else if code.startsAt.any (now < ·) then some .notStarted
  else if code.endsAt.any (· ≤ now) then some .expired
  else if 0 < code.minOrderTotal ∧ originalTotal < code.minOrderTotal then some .minNotMet
  else if code.maxRedemptions.any (· ≤ code.timesRedeemed) then some .globallyMaxed
  else none

def checkRedeemable (rawCode : String) (U : UserId) (originalTotal : Cents) :
    App (Except PromoRejectReason (PromoId × PromoCode)) := do
  match ← stmt <| .promo <| .findByCode (normalizeCode rawCode) with
  | none           => pure <| .error .invalid
  | some (P, code) =>
    let now ← stmt <| .effect .dateNow
    match checkCode code now originalTotal with
    | some reason => pure <| .error reason
    | none        =>
      let used ← stmt <| .promo <| .countRedeemed P U
      if code.perUserLimit ≤ used then pure <| .error .perUserExceeded else pure <| .ok (P, code)

def validateForRedeem (rawCode : String) (U : UserId) (originalTotal : Cents) :
    App (PromoId × PromoCode) := do
  match ← checkRedeemable rawCode U originalTotal with
  | .error reason => throw <| promoError reason
  | .ok code      => pure code

-- Gives back the redemption that a delivery holds.
def releaseForDelivery (D : DeliveryId) (fault : Fault) : App Unit := do
  match ← stmt <| .promo <| .findRedeemed D with
  | none            => pure ()
  | some redemption => (stmt <| .promo <| .release D redemption.promoCodeId).attempt fault

end PromoService

namespace PaymentsService

-- Records a payment for the intent that the payment provider has created.
def createDeliveryPayment (D : DeliveryId) (amount : Cents)
    (intent : Except AppError (IntentId × IntentStatus)) (fault : Fault) : App Unit := do
  match ← stmt <| .payment <| .find D with
  | some _ => pure ()
  | none   =>
    match intent with
    | .error e        => throw e
    | .ok (I, status) =>
      (tx (.payment <| .create D { intentId := I, amount, status := mapIntentStatus status }) id)
        |>.attempt fault

def handleWebhookEvent (event : StripeEvent) (fault : Fault) : App Unit :=
  match event.intentId with
  | none   => pure ()
  | some I => do
    (do let _ ← (tx (.payment <| .webhook event.id event.type I) id).attempt fault
        pure () : App Unit) |>.handle fun e =>
      if event.id.isSome ∧ e.isUniqueViolation then pure () else throw e

end PaymentsService

namespace AdminService

def refund (D : DeliveryId) (amount : Option Cents) (fault : Fault) : App Unit := do
  match ← stmt <| .delivery <| .find D with
  | none          => throw <| .notFound "error.delivery.not_found"
  | some delivery =>
    let refundAmount := amount.getD delivery.estimatedPrice
    if refundAmount ≤ 0 ∨ delivery.estimatedPrice < refundAmount then
      throw <| .badRequest "error.admin.refund.invalid_amount"
    else
      (tx (.refundCharge .admin D delivery.userId refundAmount) id).attempt fault |>.handle fun e =>
        if e.isUniqueViolation then
          throw <| .conflict "error.admin.refund.already_refunded"
        else
          throw e

def assertDiscountValue : PromoDiscountType → Option ℚ → App Unit
  | .percent, some value =>
    if value ≤ 0 ∨ 100 < value then throw <| .badRequest "error.admin.promo.percent_range"
    else pure ()
  | _, _ => pure ()

def updatePromo (P : PromoId) (dto : UpdatePromoDto) (fault : Fault) : App Unit := do
  match ← stmt <| .promo <| .find P with
  | none        => throw <| .notFound "error.admin.promo.not_found"
  | some before =>
    assertDiscountValue before.discountType dto.discountValue
    let count ← (stmt <| .promo <| .update P dto).attempt fault
    if count = 0 then throw <| .notFound "error.admin.promo.not_found" else pure ()

-- Grounding an airframe does not recall it: it only keeps it from being dispatched again.
def updateDrone (X : DroneId) (dto : UpdateDroneDto) (fault : Fault) : App Unit := do
  match ← stmt <| .fleet <| .find X with
  | none   => throw <| .notFound "error.admin.drone.not_found"
  | some _ => (tx (.fleet <| .update X dto) id).attempt fault

end AdminService

end Drovery
