import Mathlib.Data.List.Sort
import Drovery.Concurrency.Sequential
import Drovery.Objects.Outbox

namespace Drovery.Outbox

open Concurrency

structure Store where
  clock  : Time
  events : Table OutboxEventId OutboxEvent
  wallet : Wallet

inductive Stmt
  | dateNow
  | passTime (ms : Nat)
  | enqueue (E : OutboxEventId) (event : OutboxEnqueue)
  -- The conditional update of a single event, by which a dispatcher becomes its owner.
  | claim (E : OutboxEventId) (now : Time)
  | find (E : OutboxEventId)
  -- The transaction that applies the handler and marks the event, with its outcome.
  | applyAndMark (E : OutboxEventId) (type : OutboxEventType) (payload : OutboxPayload) (now : Time)
    (outcome : Outcome AppError)
  | markProcessed (E : OutboxEventId) (now : Time)
  | noteError (E : OutboxEventId) (e : AppError)
  -- The updates of all events that match.
  | failExhausted (cutoff : Time) (maxAttempts : Nat)
  | requeueStale (cutoff : Time) (maxAttempts : Nat)
  | requeueFailed (retryBefore : Time) (maxRecoveryAttempts : Nat)
  | findPending (batch : Nat)

namespace Store

-- The key of an event is unique.
def enqueue (db : Store) (E : OutboxEventId) (event : OutboxEnqueue) : Except AppError Store :=
  if db.events.count (fun _ e => e.idempotencyKey = event.idempotencyKey) ≠ 0 then
    .error <| .p2002 .outboxIdempotencyKey
  else
    match db.events.insert E (event.toEvent db.clock) with
    | none        => .error <| .p2002 .outboxIdempotencyKey
    | some events => .ok { db with events }

-- An update by id fails if there is no such event.
def update (db : Store) (E : OutboxEventId) (f : OutboxEvent → OutboxEvent) :
    Except AppError Store :=
  match db.events.find? E with
  | none   => .error .recordNotFound
  | some _ => .ok { db with events := db.events.modify E f }

def applyAndMark (db : Store) (E : OutboxEventId) (type : OutboxEventType) (payload : OutboxPayload)
    (now : Time) : Except AppError Store := do
  let wallet ← applyHandler db.wallet type payload
  { db with wallet }.update E (·.markProcessed now)

def pending (db : Store) (batch : Nat) : List OutboxEventId :=
  db.events.findMany (fun _ e => e.status = .pending)
    |>.insertionSort (fun a b => a.snd.createdAt ≤ b.snd.createdAt) |>.take batch |>.map Prod.fst

end Store

namespace Stmt

@[reducible]
def Res : Stmt → Type
  | dateNow          => Time
  | passTime _       => Unit
  | enqueue ..       => Except AppError Unit
  | claim ..         => Nat
  | find _           => Option OutboxEvent
  | applyAndMark ..  => Except AppError Unit
  | markProcessed .. => Except AppError Unit
  | noteError ..     => Except AppError Unit
  | failExhausted .. => Unit
  | requeueStale ..  => Unit
  | requeueFailed .. => Unit
  | findPending _    => List OutboxEventId

def commit (db : Store) : Except AppError Store → Except AppError Unit × Store
  | .ok db'  => (.ok (), db')
  | .error e => (.error e, db)

def exhausted (cutoff : Time) (maxAttempts : Nat) (_ : OutboxEventId) (e : OutboxEvent) : Bool :=
  e.status = .processing ∧ e.claimedBefore cutoff ∧ maxAttempts ≤ e.attempts

def stale (cutoff : Time) (maxAttempts : Nat) (_ : OutboxEventId) (e : OutboxEvent) : Bool :=
  e.status = .processing ∧ e.claimedBefore cutoff ∧ e.attempts < maxAttempts

def recoverable (retryBefore : Time) (maxRecoveryAttempts : Nat) (_ : OutboxEventId)
    (e : OutboxEvent) : Bool :=
  e.status = .failed ∧ e.attempts < maxRecoveryAttempts ∧ e.claimedBefore retryBefore

def exec : (x : Stmt) → Store → x.Res × Store
  | dateNow, db =>
    (db.clock, db)
  | passTime ms, db =>
    ((), { db with clock := db.clock + ms })
  | enqueue E event, db =>
    commit db <| db.enqueue E event
  | claim E now, db =>
    let r := db.events.cas E (·.status = .pending) (·.claim now)
    (r.fst, { db with events := r.snd })
  | find E, db =>
    (db.events.find? E, db)
  | applyAndMark E type payload now outcome, db =>
    match outcome with
    | .committed    => commit db <| db.applyAndMark E type payload now
    | .rolledBack e => (.error e, db)
    | .lost e       => (.error e, (commit db <| db.applyAndMark E type payload now).snd)
  | markProcessed E now, db =>
    commit db <| db.update E (·.markProcessed now)
  | noteError E e, db =>
    commit db <| db.update E ({ · with lastError := some e })
  | failExhausted cutoff maxAttempts, db =>
    ((), { db with events := db.events.updateMany (exhausted cutoff maxAttempts) (·.fail) })
  | requeueStale cutoff maxAttempts, db =>
    ((), { db with events := db.events.updateMany (stale cutoff maxAttempts) (·.requeue) })
  | requeueFailed retryBefore maxRecoveryAttempts, db =>
    ((), { db with
      events := db.events.updateMany (recoverable retryBefore maxRecoveryAttempts) (·.requeue) })
  | findPending batch, db =>
    (db.pending batch, db)

@[reducible]
def sig : Signature where
  Stmt := Stmt
  Res  := Res

end Stmt

abbrev App := Method Stmt.sig AppError

abbrev App.stmt (x : Stmt) : App x.Res :=
  @Method.stmt Stmt.sig AppError x

abbrev App.tx {α : Type} (x : Stmt) (f : x.Res → Except AppError α) : App α :=
  @Method.tx Stmt.sig AppError α x f

open Outbox.App (stmt tx)

-- The outcomes of the statements of `processOne` whose failure it handles.
structure ProcessFaults where
  apply : Outcome AppError := .committed
  mark  : Outcome AppError := .committed
  note  : Outcome AppError := .committed

namespace OutboxService

def enqueue (E : OutboxEventId) (event : OutboxEnqueue) (fault : Outcome AppError) : App Unit :=
  (tx (.enqueue E event) id).attempt fault

def markProcessed (E : OutboxEventId) (fault : Outcome AppError) : App Unit := do
  let now ← stmt .dateNow
  ((tx (.markProcessed E now) id).attempt fault).safe

-- A violated uniqueness constraint means that the effect of the event has already been applied. Any
-- other failure leaves the event to the reaper.
def processFailed (E : OutboxEventId) (faults : ProcessFaults) (e : AppError) : App Unit :=
  if e.isUniqueViolation then
    markProcessed E faults.mark
  else
    ((tx (.noteError E e) id).attempt faults.note).safe

def processOne (E : OutboxEventId) (faults : ProcessFaults) : App Unit := do
  let now ← stmt .dateNow
  let count ← stmt <| .claim E now
  if count = 0 then
    pure ()
  else
    match ← stmt <| .find E with
    | none       => pure ()
    | some event =>
      let now ← stmt .dateNow
      (tx (.applyAndMark E event.eventType event.payload now faults.apply) id).handle
        (processFailed E faults)

def reapStaleClaims (L : OutboxLimits) : App Unit := do
  let now ← stmt .dateNow
  stmt <| .failExhausted (now - L.claimLeaseMs) L.maxAttempts
  stmt <| .requeueStale (now - L.claimLeaseMs) L.maxAttempts

def requeueRecoverableFailed (L : OutboxLimits) : App Unit := do
  let now ← stmt .dateNow
  stmt <| .requeueFailed (now - L.recoveryBackoffMs) L.maxRecoveryAttempts

def processAll (faults : OutboxEventId → ProcessFaults) : List OutboxEventId → App Unit
  | []      => pure ()
  | E :: Es => do
    processOne E (faults E)
    processAll faults Es

def dispatchDue (L : OutboxLimits) (faults : OutboxEventId → ProcessFaults) : App Unit := do
  reapStaleClaims L
  requeueRecoverableFailed L
  let Es ← stmt <| .findPending L.batch
  processAll faults Es

end OutboxService

inductive Call
  | enqueue (event : OutboxEnqueue) (fault : Outcome AppError)
  | dispatchDue (faults : OutboxEventId → ProcessFaults)
  | passTime (ms : Nat)

def Call.prog (L : OutboxLimits) (t : Nat) : Call → Prog Stmt.sig Unit
  | enqueue event fault => (OutboxService.enqueue t event fault).toCall
  | dispatchDue faults  => (OutboxService.dispatchDue L faults).toCall
  | passTime ms         => (stmt <| .passTime ms).toCall

-- Any number of producers and dispatchers over one outbox.
def system (L : OutboxLimits) : System Stmt.sig Store Call where
  exec := Stmt.exec
  prog := Call.prog L

end Drovery.Outbox
