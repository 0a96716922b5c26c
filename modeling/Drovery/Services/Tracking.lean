import Drovery.Concurrency.Sequential
import Drovery.Objects.Tracking

namespace Drovery.Tracking

open Concurrency

variable {L : Lang}

inductive Stmt (L : Lang)
  -- The transaction of a write: it sets the fields of the hash, renews its life time and marks the
  -- delivery.
  | multi (D : DeliveryId) (fields : HotHash)
  | hgetall (D : DeliveryId)
  | spop (order : List DeliveryId) (count : Nat)
  | sadd (D : DeliveryId)
  | findTracking (D : DeliveryId)
  | upsert (D : DeliveryId) (deliveryCreatedAt : L.Date) (pos : TrackingPosition L)
  -- Not issued by the program: the hash of the delivery expires.
  | expire (D : DeliveryId)

namespace Stmt

@[reducible]
def Res : Stmt L → Type
  | multi ..       => Unit
  | hgetall _      => HotHash
  | spop ..        => List DeliveryId
  | sadd _         => Unit
  | findTracking _ => Option (DeliveryTracking L)
  | upsert ..      => Unit
  | expire _       => Unit

def exec : (x : Stmt L) → Store L → x.Res × Store L
  | multi D fields,                 db => ((), (db.hset D fields).sadd D)
  | hgetall D,                      db => (db.hgetall D, db)
  | spop order count,               db => (db.drawn order count, db.spop order count)
  | sadd D,                         db => ((), db.sadd D)
  | findTracking D,                 db => (db.rows.find? D, db)
  | upsert D deliveryCreatedAt pos, db => ((), db.upsert D deliveryCreatedAt pos)
  | expire D,                       db => ((), db.expire D)

@[reducible]
def sig (L : Lang) : Signature where
  Stmt := Stmt L
  Res  := Res

end Stmt

abbrev App (L : Lang) := Method (Stmt.sig L) AppError

abbrev App.stmt (x : Stmt L) : App L x.Res :=
  @Method.stmt (Stmt.sig L) AppError x

open Tracking.App (stmt)

-- The outcomes of the commands of a checkpoint run, which only depend on the delivery.
structure Faults where
  spop    : Outcome AppError              := .committed
  hgetall : DeliveryId → Outcome AppError := fun _ => .committed
  upsert  : DeliveryId → Outcome AppError := fun _ => .committed
  sadd    : DeliveryId → Outcome AppError := fun _ => .committed

-- All methods depend on whether the hot store is enabled. There is no connection if it is not.
namespace TrackingHotStore

-- A write that fails falls back to the database, and ignores its failure.
def writePosition (enabled : Bool) (D : DeliveryId) (deliveryCreatedAt : L.Date)
    (pos : TrackingPosition L) (redis postgres : Outcome AppError) : App L Unit :=
  if enabled then
    ((stmt <| .multi D <| pos.toFields deliveryCreatedAt).attempt redis).handle fun _ =>
      ((stmt <| .upsert D deliveryCreatedAt pos).attempt postgres).safe
  else
    pure ()

def readPosition (enabled : Bool) (D : DeliveryId) (redis : Outcome AppError) :
    App L (Option (TrackingPosition L)) :=
  if enabled then
    Method.handle (do
      let h ← (stmt <| .hgetall D).attempt redis
      return if h = {} then none else some h.parsePosition) fun _ => pure none
  else
    pure none

-- Whether the checkpoint was written. There is nothing to write if the hash is gone.
def checkpoint (D : DeliveryId) (faults : Faults) : App L Bool := do
  let h ← (stmt <| .hgetall D).attempt <| faults.hgetall D
  match h.deliveryCreatedAt with
  | none    => return false
  | some "" => return false
  | some v  =>
    match L.newDate v with
    | none                   => throw <| .internal "Invalid Date"
    | some deliveryCreatedAt =>
      (stmt <| .upsert D deliveryCreatedAt h.parsePosition).attempt <| faults.upsert D
      return true

-- A delivery whose checkpoint failed is marked again.
def drain (faults : Faults) : List DeliveryId → Nat → App L Nat
  | [],        written => pure written
  | D :: rest, written => do
    let done ← (checkpoint D faults).handle fun _ => do
      ((stmt <| .sadd D).attempt <| faults.sadd D).safe
      return false
    drain faults rest <| if done then written + 1 else written

def drainCheckpoints (enabled : Bool) (CHECKPOINT_BATCH : Nat) (order : List DeliveryId)
    (faults : Faults) : App L Nat :=
  if enabled then do
    let ids ← (stmt <| .spop order CHECKPOINT_BATCH).attempt faults.spop
    drain faults ids 0
  else
    pure 0

end TrackingHotStore

namespace TrackingService

open TrackingHotStore

def ofRow (D : DeliveryId) (row : DeliveryTracking L) : TrackingView L where
  toTrackingPosition := row.toTrackingPosition
  deliveryId         := D
  deliveryCreatedAt  := row.deliveryCreatedAt

def synthesizeRow (D : DeliveryId) (hot : TrackingPosition L) : TrackingView L where
  toTrackingPosition := hot
  deliveryId         := D
  deliveryCreatedAt  := none

def getTracking (enabled : Bool) (D : DeliveryId) (redis : Outcome AppError) :
    App L (TrackingView L) := do
  let tracking ← stmt <| .findTracking D
  match ← readPosition enabled D redis, tracking with
  | some hot, some row => return { ofRow D row with toTrackingPosition := row.overlay hot }
  | some hot, none     => return synthesizeRow D hot
  | none,     some row => return ofRow D row
  | none,     none     => throw <| .notFound "error.delivery.tracking.not_found"

def updateTracking (enabled : Bool) (D : DeliveryId) (deliveryCreatedAt : L.Date)
    (data : TrackingPosition L) (redis postgres : Outcome AppError) : App L Unit :=
  if enabled then
    writePosition enabled D deliveryCreatedAt data redis postgres
  else
    (stmt <| .upsert D deliveryCreatedAt data).attempt postgres

end TrackingService

open TrackingHotStore TrackingService

-- The calls that may run at the same time. That a hash expires counts as a call, too.
inductive Call (L : Lang)
  | writePosition (D : DeliveryId) (deliveryCreatedAt : L.Date) (pos : TrackingPosition L)
    (redis postgres : Outcome AppError)
  | drainCheckpoints (order : List DeliveryId) (faults : Faults)
  | expire (D : DeliveryId)

def Call.method (CHECKPOINT_BATCH : Nat) : Call L → App L Unit
  | writePosition D deliveryCreatedAt pos redis postgres =>
    TrackingHotStore.writePosition true D deliveryCreatedAt pos redis postgres
  | drainCheckpoints order faults                        => do
    let _ ← TrackingHotStore.drainCheckpoints true CHECKPOINT_BATCH order faults
    return
  | expire D                                             => stmt <| .expire D

def system (L : Lang) (CHECKPOINT_BATCH : Nat) : System (Stmt.sig L) (Store L) (Call L) where
  exec     := Stmt.exec
  prog _ c := (c.method CHECKPOINT_BATCH).toCall

-- The operations that run one at a time. The commands of the hot store may fail.
inductive Op (L : Lang)
  | updateTracking (D : DeliveryId) (deliveryCreatedAt : L.Date) (data : TrackingPosition L)
    (redis : Outcome AppError)
  | drainCheckpoints (order : List DeliveryId) (faults : Faults)
  | getTracking (D : DeliveryId)

namespace Op

-- The answer to an operation, if it is a read, and the store after it.
def run (enabled : Bool) (CHECKPOINT_BATCH : Nat) (op : Op L) (db : Store L) :
    Option (Except AppError (TrackingView L)) × Store L :=
  match op with
  | updateTracking D deliveryCreatedAt data redis =>
    let p := TrackingService.updateTracking enabled D deliveryCreatedAt data redis .committed
    (none, (p.eval Stmt.exec db).snd)
  | drainCheckpoints order faults =>
    let p : App L Nat := TrackingHotStore.drainCheckpoints enabled CHECKPOINT_BATCH order faults
    (none, (p.eval Stmt.exec db).snd)
  | getTracking D =>
    let p := TrackingService.getTracking enabled D .committed
    (some (p.eval Stmt.exec db).fst, (p.eval Stmt.exec db).snd)

-- The store after a sequence of operations.
def runAll (enabled : Bool) (CHECKPOINT_BATCH : Nat) (ops : List (Op L)) (db : Store L) : Store L :=
  ops.foldl (fun db op => (op.run enabled CHECKPOINT_BATCH db).snd) db

-- The answers to the reads of a sequence of operations.
def answers (enabled : Bool) (CHECKPOINT_BATCH : Nat) :
    List (Op L) → Store L → List (Except AppError (TrackingView L))
  | [],        _  => []
  | op :: ops, db =>
    (op.run enabled CHECKPOINT_BATCH db).fst.toList ++
      answers enabled CHECKPOINT_BATCH ops (op.run enabled CHECKPOINT_BATCH db).snd

end Op

end Drovery.Tracking
