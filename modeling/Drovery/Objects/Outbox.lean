import Drovery.Objects.Wallet

namespace Drovery

abbrev OutboxEventId := Nat

inductive OutboxStatus
  | pending
  | processing
  | processed
  | failed
  deriving DecidableEq

-- An event type, which is known if there is a handler for it.
inductive OutboxEventType
  | referralReward
  | unknown (name : String)
  deriving DecidableEq

structure OutboxPayload where
  refereeUserId : Option UserId
  deriving DecidableEq

structure OutboxEvent where
  eventType      : OutboxEventType
  payload        : OutboxPayload
  idempotencyKey : String
  status         : OutboxStatus    := .pending
  attempts       : Nat             := 0
  lastError      : Option AppError := none
  -- The time of the latest claim.
  claimedAt      : Option Time     := none
  createdAt      : Time
  processedAt    : Option Time     := none
  deriving DecidableEq

-- What a producer enqueues.
structure OutboxEnqueue where
  eventType      : OutboxEventType
  payload        : OutboxPayload
  idempotencyKey : String
  deriving DecidableEq

def OutboxEnqueue.toEvent (event : OutboxEnqueue) (now : Time) : OutboxEvent where
  eventType      := event.eventType
  payload        := event.payload
  idempotencyKey := event.idempotencyKey
  createdAt      := now

-- The limits of the outbox. A configured value of zero stands for the default.
structure OutboxLimits where
  batch               : Nat
  claimLeaseMs        : Nat
  recoveryBackoffMs   : Nat
  maxAttempts         : Nat
  maxRecoveryAttempts : Nat
  maxAttempts_pos     : 0 < maxAttempts

def OutboxLimits.default : OutboxLimits where
  batch               := 100
  claimLeaseMs        := 60000
  recoveryBackoffMs   := 30 * 60000
  maxAttempts         := 5
  maxRecoveryAttempts := 50
  maxAttempts_pos     := by decide

namespace OutboxEvent

-- Whether the latest claim is older than the given time. An event without a claim never matches.
def claimedBefore (e : OutboxEvent) (cutoff : Time) : Bool :=
  e.claimedAt.any (· < cutoff)

def claim (now : Time) (e : OutboxEvent) : OutboxEvent :=
  { e with status := .processing, attempts := e.attempts + 1, claimedAt := some now }

def markProcessed (now : Time) (e : OutboxEvent) : OutboxEvent :=
  { e with status := .processed, processedAt := some now, lastError := none }

def fail (e : OutboxEvent) : OutboxEvent :=
  { e with status := .failed }

def requeue (e : OutboxEvent) : OutboxEvent :=
  { e with status := .pending, claimedAt := none }

end OutboxEvent

-- Routes an event to its handler, which runs within the transaction that marks the event.
def applyHandler (w : Wallet) (type : OutboxEventType) (payload : OutboxPayload) :
    Except AppError Wallet :=
  match type with
  | .referralReward =>
    match payload.refereeUserId with
    | none   => .error <| .internal "REFERRAL_REWARD outbox event missing refereeUserId"
    | some U => w.maybeGrantReferralRewardWithinTx U
  | .unknown name   => .error <| .internal <| "No outbox handler for eventType: " ++ name

end Drovery
