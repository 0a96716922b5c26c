import Drovery.Concurrency.Pool
import Drovery.Objects.Command
import Drovery.Objects.Fleet
import Drovery.Objects.Payment
import Drovery.Objects.Promo

namespace Drovery

structure Store where
  clock       : Time
  deliveries  : Table DeliveryId Delivery
  trackingIds : Table String DeliveryId
  -- The times of the latest tracking updates.
  tracking    : Table DeliveryId Time
  fleet       : Fleet
  commands    : Commands
  wallet      : Wallet
  promos      : Promos
  payments    : Payments
  -- The referral rewards that are still to be granted, by delivery.
  outbox      : Table DeliveryId UserId

def maxHandoffAttempts : Nat := 5
def watchdogSilenceMs : Nat := 10 * 60000
def watchdogMinAgeMs : Nat := 10 * 60000

-- The statements on single deliveries.
inductive DeliveryStmt
  | find (D : DeliveryId)
  -- A guarded write to the status. The write itself does not depend on `onBehalfOf`, which is the
  -- command that the write carries out (if any).
  | transition (onBehalfOf : Option CommandId) (D : DeliveryId) (tr : Transition)
  | countWrongGuess (D : DeliveryId)
  | findStuck (staleBefore minAgeBefore : Time)

-- A delivery that the watchdog has selected: its status and failure reason and the time of its
-- latest sign of life.
structure StuckDelivery where
  id            : DeliveryId
  status        : DeliveryStatus
  failureReason : Option DeliveryFailureReason
  lastTelemetry : Time

namespace DeliveryStmt

@[reducible]
def Res : DeliveryStmt → Type
  | find _            => Option Delivery
  | transition ..     => Nat
  | countWrongGuess _ => Nat
  | findStuck ..      => List StuckDelivery

def guessable (d : Delivery) : Bool :=
  d.handoffAttempts < maxHandoffAttempts

def countGuess (now : Time) (d : Delivery) : Delivery :=
  { d with handoffAttempts := d.handoffAttempts + 1, updatedAt := now }

def stuck (tracking : Table DeliveryId Time) (staleBefore minAgeBefore : Time) (D : DeliveryId)
    (d : Delivery) : Bool :=
  d.status ∈ DeliveryStatus.watchdogStuckStatuses ∧ d.trackingSource = .live ∧
    d.createdAt < minAgeBefore ∧ (tracking.find? D).getD d.updatedAt < staleBefore

def toStuck (tracking : Table DeliveryId Time) (D : DeliveryId) (d : Delivery) : StuckDelivery where
  id            := D
  status        := d.status
  failureReason := d.failureReason
  lastTelemetry := (tracking.find? D).getD d.updatedAt

-- The longest silence first, where a delivery without any tracking update comes last.
def silentLE (tracking : Table DeliveryId Time) (a b : DeliveryId × Delivery) : Prop :=
  match tracking.find? a.fst, tracking.find? b.fst with
  | some t₁, some t₂ => t₁ < t₂ ∨ (t₁ = t₂ ∧ a.snd.updatedAt ≤ b.snd.updatedAt)
  | some _,  none    => True
  | none,    some _  => False
  | none,    none    => a.snd.updatedAt ≤ b.snd.updatedAt

instance {tracking : Table DeliveryId Time} : DecidableRel (silentLE tracking) := fun a b =>
  match h₁ : tracking.find? a.fst, h₂ : tracking.find? b.fst with
  | some _, some _ => by unfold silentLE; rw [h₁, h₂]; exact inferInstance
  | some _, none   => by unfold silentLE; rw [h₁, h₂]; exact inferInstance
  | none,   some _ => by unfold silentLE; rw [h₁, h₂]; exact inferInstance
  | none,   none   => by unfold silentLE; rw [h₁, h₂]; exact inferInstance

def exec (now : Time) (tracking : Table DeliveryId Time) :
    (x : DeliveryStmt) → Table DeliveryId Delivery → x.Res × Table DeliveryId Delivery
  | find D, ds =>
    (ds.find? D, ds)
  | transition _ D tr, ds =>
    ds.cas D (tr.source ·.status) (tr.apply now)
  | countWrongGuess D, ds =>
    ds.cas D guessable (countGuess now)
  | findStuck staleBefore minAgeBefore, ds =>
    (ds.findMany (stuck tracking staleBefore minAgeBefore)
      |>.insertionSort (silentLE tracking) |>.take watchdogBatch
      |>.map fun (D, d) => toStuck tracking D d, ds)

end DeliveryStmt

-- How the reward for a referral is granted when a delivery is created.
inductive ReferralGrant
  | inline
  | outbox
  deriving DecidableEq

-- What is booked together with a new delivery.
structure Booking where
  redeem   : Option (PromoId × Cents × DiscountResult)
  debit    : Option Cents
  referral : Option ReferralGrant

-- The clock and the effects on the world outside of the database.
inductive EffectStmt
  | dateNow
  | passTime (ms : Nat)
  | startSimulation (D : DeliveryId)
  | scheduleKickoff (D : DeliveryId) (scheduledFor : Time)
  | deferKickoff (D : DeliveryId) (attempt : Nat)
  | stopSimulation (D : DeliveryId)
  | updateTracking (D : DeliveryId) (position : Option (ℚ × ℚ))
  | notify (D : DeliveryId) (status : DeliveryStatus) (reason : Option DeliveryFailureReason)
  | publishUpdate (D : DeliveryId) (status : Option DeliveryStatus)
  | appendFrame (D : DeliveryId) (X : DroneId)
  | createAutoProof (D : DeliveryId)
  | pushCommand (C : CommandId)

namespace EffectStmt

@[reducible]
def Res : EffectStmt → Type
  | dateNow => Time
  | _       => Unit

end EffectStmt

inductive Stmt
  | delivery (x : DeliveryStmt)
  | fleet (x : FleetStmt)
  | command (x : CommandStmt)
  | wallet (x : WalletStmt)
  | promo (x : PromoStmt)
  | payment (x : PaymentStmt)
  -- The transactions that span several tables.
  | createDelivery (D : DeliveryId) (row : Delivery) (booking : Booking)
  | refundCharge (ch : RefundChannel) (D : DeliveryId) (U : UserId) (amount : Cents)
  | effect (x : EffectStmt)

namespace Store

-- The rows of a new delivery itself. The creation time is set by the database.
def insertDelivery (db : Store) (D : DeliveryId) (row : Delivery) : Except AppError Store :=
  if (db.wallet.balances.find? row.userId).isNone then
    .error .p2003
  else
    match db.deliveries.insert D { row with createdAt := db.clock, updatedAt := db.clock } with
    | none            => .error <| .p2002 .deliveryId
    | some deliveries =>
      match db.trackingIds.insert row.trackingId D with
      | none             => .error <| .p2002 .trackingIdRegistry
      | some trackingIds => .ok { db with deliveries, trackingIds }

def bookRedemption (db : Store) (D : DeliveryId) (U : UserId) :
    Option (PromoId × Cents × DiscountResult) → Except AppError Store
  | none                              => .ok db
  | some (P, originalTotal, discount) => do
    let promos ← db.promos.redeemWithinTx db.clock P U D originalTotal discount
    return { db with promos }

def bookDebit (db : Store) (D : DeliveryId) (U : UserId) : Option Cents → Except AppError Store
  | none        => .ok db
  | some amount => do
    let wallet ← db.wallet.debitWithinTx U amount D (some <| .debit D)
    return { db with wallet }

def bookReferral (db : Store) (D : DeliveryId) (U : UserId) :
    Option ReferralGrant → Except AppError Store
  | none         => .ok db
  | some .inline => do
    let wallet ← db.wallet.maybeGrantReferralRewardWithinTx U
    return { db with wallet }
  | some .outbox =>
    match db.outbox.insert D U with
    | none        => .error <| .p2002 .outboxIdempotencyKey
    | some outbox => .ok { db with outbox }

-- The transaction that creates a delivery.
def createDelivery (db : Store) (D : DeliveryId) (row : Delivery) (booking : Booking) :
    Except AppError Store := do
  let db ← db.insertDelivery D row
  let db ← db.bookRedemption D row.userId booking.redeem
  let db ← db.bookDebit D row.userId booking.debit
  db.bookReferral D row.userId booking.referral

def refundCharge (db : Store) (ch : RefundChannel) (D : DeliveryId) (U : UserId) (amount : Cents) :
    Except AppError Store := do
  let (payments, wallet) ← ch.refundWithinTx db.payments db.wallet D U amount
  return { db with payments, wallet }

-- Only the clock and the tracking updates are part of the store.
def execEffect (db : Store) : (x : EffectStmt) → x.Res × Store
  | .dateNow                    => (db.clock, db)
  | .passTime ms                => ((), { db with clock := db.clock + ms })
  | .updateTracking D _         =>
    let tracking := (db.tracking.insert D db.clock).getD <| db.tracking.modify D fun _ => db.clock
    ((), { db with tracking })
  | .startSimulation _          => ((), db)
  | .scheduleKickoff _ _        => ((), db)
  | .deferKickoff _ _           => ((), db)
  | .stopSimulation _           => ((), db)
  | .notify _ _ _               => ((), db)
  | .publishUpdate _ _          => ((), db)
  | .appendFrame _ _            => ((), db)
  | .createAutoProof _          => ((), db)
  | .pushCommand _              => ((), db)

end Store

namespace Stmt

@[reducible]
def Res : Stmt → Type
  | delivery x       => x.Res
  | fleet x          => x.Res
  | command x        => x.Res
  | wallet x         => x.Res
  | promo x          => x.Res
  | payment x        => x.Res
  | createDelivery .. => Except AppError Unit
  | refundCharge ..  => Except AppError Unit
  | effect x         => x.Res

def exec : (x : Stmt) → Store → x.Res × Store
  | delivery x, db =>
    ((x.exec db.clock db.tracking db.deliveries).fst,
      { db with deliveries := (x.exec db.clock db.tracking db.deliveries).snd })
  | fleet x, db =>
    ((x.exec db.clock db.fleet).fst, { db with fleet := (x.exec db.clock db.fleet).snd })
  | command x, db =>
    ((x.exec db.deliveries db.commands).fst,
      { db with commands := (x.exec db.deliveries db.commands).snd })
  | wallet x, db =>
    ((x.exec db.wallet).fst, { db with wallet := (x.exec db.wallet).snd })
  | promo x, db =>
    ((x.exec db.clock db.promos).fst, { db with promos := (x.exec db.clock db.promos).snd })
  | payment x, db =>
    ((x.exec db.payments).fst, { db with payments := (x.exec db.payments).snd })
  | createDelivery D row booking, db =>
    commit db <| db.createDelivery D row booking
  | refundCharge ch D U amount, db =>
    commit db <| db.refundCharge ch D U amount
  | effect x, db =>
    db.execEffect x

-- The signature of the platform's programs.
@[reducible]
def sig : Concurrency.Signature where
  Stmt := Stmt
  Res  := Res

end Stmt

end Drovery
