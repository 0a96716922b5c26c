import Drovery.Objects.Wallet

namespace Drovery

abbrev IntentId := Nat
abbrev EventId  := Nat

inductive PaymentStatus
  | pending
  | processing
  | completed
  | failed
  | refunded
  deriving DecidableEq

structure Payment where
  intentId : IntentId
  amount   : Cents
  status   : PaymentStatus
  deriving DecidableEq

-- The status of a payment intent, as the payment provider reports it.
inductive IntentStatus
  | succeeded
  | processing
  | canceled
  | other
  deriving DecidableEq

def mapIntentStatus : IntentStatus → PaymentStatus
  | .succeeded  => .completed
  | .processing => .processing
  | .canceled   => .failed
  | .other      => .pending

inductive WebhookType
  | succeeded
  | paymentFailed
  | processing
  | canceled
  | other
  deriving DecidableEq

-- The status that an event stands for.
def webhookStatus : WebhookType → Option PaymentStatus
  | .succeeded     => some .completed
  | .paymentFailed => some .failed
  | .processing    => some .processing
  | .canceled      => some .failed
  | .other         => none

-- The statuses from which an event may move a payment to a given status.
def advanceFrom : PaymentStatus → List PaymentStatus
  | .pending    => []
  | .processing => [.pending]
  | .completed  => [.pending, .processing, .failed]
  | .failed     => [.pending, .processing]
  | .refunded   => []

structure StripeEvent where
  id       : Option EventId
  type     : WebhookType
  intentId : Option IntentId
  deriving DecidableEq

structure Payments where
  -- The payments by delivery.
  table         : Table DeliveryId Payment
  webhookEvents : Table EventId WebhookType

namespace Payments

def applies (intentId : IntentId) (target : PaymentStatus) (p : Payment) : Bool :=
  p.intentId = intentId ∧ p.status ∈ advanceFrom target

def applyStatus (ps : Payments) (type : WebhookType) (intentId : IntentId) : Nat × Payments :=
  match webhookStatus type with
  | none        => (0, ps)
  | some target =>
    let table := ps.table.updateMany (fun _ p => applies intentId target p)
      ({ · with status := target })
    (ps.table.count fun _ p => applies intentId target p, { ps with table })

-- An event with an id is processed at most once.
def handleWebhook (ps : Payments) (id : Option EventId) (type : WebhookType)
    (intentId : IntentId) : Except AppError Nat × Payments :=
  match id with
  | none    => (.ok (ps.applyStatus type intentId).fst, (ps.applyStatus type intentId).snd)
  | some id =>
    match ps.webhookEvents.insert id type with
    | none    => (.error <| .p2002 .webhookEventId, ps)
    | some es =>
      let ps := { ps with webhookEvents := es }
      (.ok (ps.applyStatus type intentId).fst, (ps.applyStatus type intentId).snd)

-- Marks a payment as refunded, provided that its status satisfies the guard.
def refund (ps : Payments) (D : DeliveryId) (guard : PaymentStatus → Bool) : Nat × Payments :=
  let (count, table) := ps.table.cas D (guard ·.status) ({ · with status := .refunded })
  (count, { ps with table })

end Payments

inductive PaymentStmt
  | find (D : DeliveryId)
  | create (D : DeliveryId) (payment : Payment)
  | webhook (id : Option EventId) (type : WebhookType) (intentId : IntentId)

namespace PaymentStmt

@[reducible]
def Res : PaymentStmt → Type
  | find _     => Option Payment
  | create ..  => Except AppError Unit
  | webhook .. => Except AppError Nat

def exec : (x : PaymentStmt) → Payments → x.Res × Payments
  | find D, ps =>
    (ps.table.find? D, ps)
  | create D payment, ps =>
    match ps.table.insert D payment with
    | none       => (.error <| .p2002 .paymentDeliveryId, ps)
    | some table => (.ok (), { ps with table })
  | webhook id type intentId, ps =>
    ps.handleWebhook id type intentId

end PaymentStmt

-- The two channels through which the charged amount of a delivery flows back.
inductive RefundChannel
  -- The refund that goes along with a termination. It requires that the charge has been captured.
  | automatic
  -- The goodwill refund of an administrator.
  | admin
  deriving DecidableEq

namespace RefundChannel

def refundable : RefundChannel → PaymentStatus → Bool
  | automatic, s => s = .completed
  | admin,     s => s ≠ .refunded

def key : RefundChannel → DeliveryId → IdempotencyKey
  | automatic, D => .exceptionRefund D
  | admin,     D => .adminRefund D

-- The transaction of `refundChargeToWallet` and of the refund by an administrator: the credit is
-- only made if the payment has been marked as refunded by the same transaction. When it has not
-- been, the automatic channel does nothing and the administrator is told so.
def refundWithinTx (ch : RefundChannel) (ps : Payments) (w : Wallet) (D : DeliveryId) (U : UserId)
    (amount : Cents) : Except AppError (Payments × Wallet) :=
  let (count, ps') := ps.refund D ch.refundable
  if count = 0 then
    match ch with
    | automatic => .ok (ps, w)
    | admin     => .error <| .conflict "error.admin.refund.already_refunded"
  else do
    let w ← w.creditWithinTx U amount .checkoutRefund
      { deliveryId := some D, idempotencyKey := some <| ch.key D }
    return (ps', w)

end RefundChannel

end Drovery
