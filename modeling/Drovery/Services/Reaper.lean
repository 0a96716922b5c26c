import Drovery.Concurrency.Method
import Drovery.Objects.Promo

namespace Drovery.Reaper

open Concurrency

-- The limits of the reaper. A configured value of zero stands for the default.
structure Limits where
  graceMs    : Nat
  lookbackMs : Nat
  batch      : Nat

def Limits.default : Limits where
  graceMs    := 600000
  lookbackMs := 86400000
  batch      := 500

-- Everything that the reservations of a delivery consist of. The transaction that spends credits on
-- a delivery is unique by its key, and so is the redemption of a delivery, so that the times of both
-- are kept by delivery.
structure Store where
  clock      : Time
  wallet     : Wallet
  spentAt    : Table DeliveryId Time
  promos     : Promos
  redeemedAt : Table DeliveryId Time
  -- The deliveries and the tracking ids, each with the delivery it belongs to.
  deliveries : Table DeliveryId UserId
  registry   : Table String DeliveryId

namespace Store

-- The row was written for the refund of the delivery `D`.
def refunds (D : DeliveryId) (r : WalletTransaction) : Bool :=
  r.deliveryId = some D ∧ r.reason = .checkoutRefund

def refunded (db : Store) (D : DeliveryId) : Bool :=
  db.wallet.ledger.rows.any (refunds D)

def redeem (db : Store) (P : PromoId) (U : UserId) (D : DeliveryId) (originalTotal : Cents)
    (discount : DiscountResult) : Except AppError Store := do
  let promos ← db.promos.redeemWithinTx db.clock P U D originalTotal discount
  return { db with
    promos     := promos
    redeemedAt := (db.redeemedAt.insert D db.clock).getD db.redeemedAt }

def debit (db : Store) (U : UserId) (amount : Cents) (D : DeliveryId) : Except AppError Store := do
  let wallet ← db.wallet.debitWithinTx U amount D (some <| .debit D)
  return { db with
    wallet  := wallet
    spentAt := (db.spentAt.insert D db.clock).getD db.spentAt }

def refund (db : Store) (D : DeliveryId) (U : UserId) (amount : Cents) : Except AppError Store := do
  let wallet ← db.wallet.refund D U amount
  return { db with wallet }

-- The delivery and its tracking id are created together.
def createDelivery (db : Store) (D : DeliveryId) (U : UserId) (trackingId : String) :
    Except AppError Store :=
  match db.deliveries.insert D U, db.registry.insert trackingId D with
  | some deliveries, some registry => .ok { db with deliveries, registry }
  | none,            _             => .error <| .p2002 .deliveryId
  | some _,          none          => .error <| .p2002 .trackingIdRegistry

-- The time lies in the half-open interval from `lower` to `upper`.
def within (lower upper : Int) (time : Time) : Bool :=
  lower ≤ time ∧ (time : Int) < upper

-- The delivery that the row has spent credits on.
def spentOn (r : WalletTransaction) : Option DeliveryId :=
  if r.type = .debit ∧ r.reason = .checkoutSpend then r.deliveryId else none

-- The ledger and the table of the redemptions are kept in the order of their creation, so that the
-- oldest candidates come first.
def debitCandidates (db : Store) (lower upper : Int) (batch : Nat) : List DeliveryId :=
  db.wallet.ledger.rows.reverse.filterMap spentOn |>.filter (fun D =>
    (db.spentAt.find? D).any (within lower upper) ∧ db.deliveries.find? D = none ∧ !db.refunded D)
    |>.take batch

def redemptionCandidates (db : Store) (lower upper : Int) (batch : Nat) : List DeliveryId :=
  db.promos.redemptions.table.rows.filter (fun (D, r) =>
    r.status = .redeemed ∧ (db.redeemedAt.find? D).any (within lower upper) ∧
      db.deliveries.find? D = none) |>.map Prod.fst |>.take batch

end Store

inductive Stmt
  | passTime (ms : Nat)
  | dateNow
  | redeem (P : PromoId) (U : UserId) (D : DeliveryId) (originalTotal : Cents)
    (discount : DiscountResult)
  | debit (U : UserId) (amount : Cents) (D : DeliveryId)
  | createDelivery (D : DeliveryId) (U : UserId) (trackingId : String)
  | findDelivery (D : DeliveryId)
  | findSpend (D : DeliveryId)
  | findRefund (D : DeliveryId)
  | findRedeemed (D : DeliveryId)
  | refund (D : DeliveryId) (U : UserId) (amount : Cents)
  | release (D : DeliveryId) (P : PromoId)
  | debitCandidates (lower upper : Int) (batch : Nat)
  | redemptionCandidates (lower upper : Int) (batch : Nat)

namespace Stmt

@[reducible]
def Res : Stmt → Type
  | passTime _              => Unit
  | dateNow                 => Time
  | redeem ..               => Except AppError Unit
  | debit ..                => Except AppError Unit
  | createDelivery ..       => Except AppError Unit
  | findDelivery _          => Option UserId
  | findSpend _             => Option WalletTransaction
  | findRefund _            => Option WalletTransaction
  | findRedeemed _          => Option PromoRedemption
  | refund ..               => Except AppError Unit
  | release ..              => Unit
  | debitCandidates ..      => List DeliveryId
  | redemptionCandidates .. => List DeliveryId

def exec : (x : Stmt) → Store → x.Res × Store
  | passTime ms,                             db => ((), { db with clock := db.clock + ms })
  | dateNow,                                 db => (db.clock, db)
  | redeem P U D originalTotal discount,     db =>
    commit db <| db.redeem P U D originalTotal discount
  | debit U amount D,                        db => commit db <| db.debit U amount D
  | createDelivery D U trackingId,           db => commit db <| db.createDelivery D U trackingId
  | findDelivery D,                          db => (db.deliveries.find? D, db)
  | findSpend D,                             db =>
    (db.wallet.ledger.rows.reverse.find? (WalletStmt.spends D), db)
  | findRefund D,                            db =>
    (db.wallet.ledger.rows.reverse.find? (Store.refunds D), db)
  | findRedeemed D,                          db =>
    (db.promos.redemptions.table.find? D |>.filter (·.status = .redeemed), db)
  | refund D U amount,                       db => commit db <| db.refund D U amount
  | release D P,                             db =>
    ((), { db with promos := db.promos.release db.clock D P })
  | debitCandidates lower upper batch,       db => (db.debitCandidates lower upper batch, db)
  | redemptionCandidates lower upper batch,  db => (db.redemptionCandidates lower upper batch, db)

@[reducible]
def sig : Signature where
  Stmt := Stmt
  Res  := Res

end Stmt

abbrev App := Method Stmt.sig AppError

abbrev App.stmt (x : Stmt) : App x.Res :=
  @Method.stmt Stmt.sig AppError x

abbrev App.tx {α : Type} (x : Stmt) (f : x.Res → Except AppError α) : App α :=
  @Method.tx Stmt.sig AppError α x f

open Reaper.App (stmt tx)

namespace WalletService

def refundForDelivery (D : DeliveryId) (fault : Outcome AppError) : App Unit := do
  match ← stmt <| .findSpend D with
  | none       => pure ()
  | some spend =>
    (tx (.refund D spend.userId spend.amount) id).attempt fault |>.handle fun e =>
      if e.isUniqueViolation then pure () else throw e

end WalletService

namespace PromoService

def releaseForDelivery (D : DeliveryId) (fault : Outcome AppError) : App Unit := do
  match ← stmt <| .findRedeemed D with
  | none            => pure ()
  | some redemption => (stmt <| .release D redemption.promoCodeId).attempt fault

end PromoService

open Reaper.WalletService Reaper.PromoService

-- The outcomes of the transactions that reverse a reservation.
structure ReverseFaults where
  refund  : Outcome AppError := .committed
  release : Outcome AppError := .committed

namespace OrphanReaperService

-- The delivery is looked up again, since it may have been created in the meantime.
def reapIfOrphan (D : DeliveryId) (faults : ReverseFaults) : App Bool := do
  let delivery ← stmt <| .findDelivery D
  if delivery.isSome then
    return false
  else
    let debit ← stmt <| .findSpend D
    let refund ← stmt <| .findRefund D
    let promo ← stmt <| .findRedeemed D
    let needsRefund := debit.isSome && refund.isNone
    let needsRelease := promo.isSome
    if !needsRefund && !needsRelease then
      return false
    else
      if needsRefund then refundForDelivery D faults.refund
      if needsRelease then releaseForDelivery D faults.release
      return true

-- One stuck candidate does not abort the whole sweep.
def reapAll (faults : DeliveryId → ReverseFaults) : List DeliveryId → App Unit
  | []        => pure ()
  | D :: rest => do
    (reapIfOrphan D (faults D)).safe
    reapAll faults rest

def sweep (limits : Limits) (faults : DeliveryId → ReverseFaults) : App Unit := do
  let now ← stmt .dateNow
  let upper : Int := now - limits.graceMs
  let lower : Int := now - limits.graceMs - limits.lookbackMs
  let debits ← stmt <| .debitCandidates lower upper limits.batch
  let redemptions ← stmt <| .redemptionCandidates lower upper limits.batch
  reapAll faults (debits ++ redemptions).eraseDups

end OrphanReaperService

def maxTrackingIdTries : Nat := 5

-- What a creation in debit-first mode reserves, the tracking ids that are generated for its tries,
-- and the outcomes of its transactions.
structure CreateInput where
  userId         : UserId
  promo          : Option (PromoId × Cents × DiscountResult)
  creditsToApply : Cents
  trackingId     : Nat → String
  promoFault     : Outcome AppError       := .committed
  debitFault     : Outcome AppError       := .committed
  deliveryFault  : Nat → Outcome AppError := fun _ => .committed
  reverseFaults  : ReverseFaults          := {}

namespace DeliveriesService

def compensateReservations (D : DeliveryId) (faults : ReverseFaults) : App Unit := do
  (releaseForDelivery D faults.release).safe
  (refundForDelivery D faults.refund).safe

def redeemPromo (D : DeliveryId) (inp : CreateInput) : App Unit :=
  match inp.promo with
  | none                            => pure ()
  | some (P, originalTotal, discount) =>
    (tx (.redeem P inp.userId D originalTotal discount) id).attempt inp.promoFault

def debitCredits (D : DeliveryId) (inp : CreateInput) : App Unit :=
  if 0 < inp.creditsToApply then
    (tx (.debit inp.userId inp.creditsToApply D) id).attempt inp.debitFault
  else
    pure ()

def reserve (D : DeliveryId) (inp : CreateInput) : App Unit :=
  (do redeemPromo D inp
      debitCredits D inp : App Unit) |>.handle fun e => do
    compensateReservations D inp.reverseFaults
    throw e

def isTrackingIdCollision : AppError → Bool
  | .p2002 c => c = .trackingIdRegistry
  | _        => false

-- Creates the delivery, and reports whether its tracking id was still free.
def place (D : DeliveryId) (inp : CreateInput) (attempt : Nat) : App Bool :=
  (do (tx (.createDelivery D inp.userId (inp.trackingId attempt)) id).attempt
        (inp.deliveryFault attempt)
      pure true : App Bool) |>.handle fun e =>
    if isTrackingIdCollision e then
      pure false
    else do
      compensateReservations D inp.reverseFaults
      throw e

def placeWithRetries (D : DeliveryId) (inp : CreateInput) : (tries attempt : Nat) → App Unit
  | 0, _ => do
    compensateReservations D inp.reverseFaults
    throw <| .conflict "error.delivery.tracking_id_alloc_failed"
  | tries + 1, attempt => do
    if ← place D inp attempt then
      pure ()
    else
      placeWithRetries D inp tries (attempt + 1)

def create (D : DeliveryId) (inp : CreateInput) : App Unit := do
  reserve D inp
  placeWithRetries D inp maxTrackingIdTries 0

end DeliveriesService

inductive Call
  | create (inp : CreateInput)
  | sweep (faults : DeliveryId → ReverseFaults)
  | passTime (ms : Nat)

-- The id of a new delivery is generated by its creation.
def Call.prog (limits : Limits) (t : Nat) : Call → Prog Stmt.sig Unit
  | create inp   => (DeliveriesService.create t inp).toCall
  | sweep faults => (OrphanReaperService.sweep limits faults).toCall
  | passTime ms  => (stmt <| .passTime ms).toCall

def system (limits : Limits) : System Stmt.sig Store Call where
  exec := Stmt.exec
  prog := Call.prog limits

end Drovery.Reaper
