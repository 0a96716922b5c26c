import Drovery.Concurrency.Method
import Drovery.Objects.Delivery

namespace Drovery.Gateway

open Concurrency

abbrev SocketId := Nat

inductive ReadyState
  | open'
  | closing
  | closed
  deriving DecidableEq

structure Socket where
  readyState : ReadyState    := .open'
  userId     : Option UserId := none
  deriving DecidableEq

-- The channel on which the updates of a delivery are published.
structure Channel where
  deliveryId : DeliveryId
  deriving DecidableEq

def trackingChannel (D : DeliveryId) : Channel :=
  ⟨D⟩

-- The state of one replica, together with the owners of the deliveries in the database. Sockets that
-- have been closed are never forgotten.
structure Store where
  sockets       : Table SocketId Socket
  subscriptions : Table DeliveryId (List SocketId)
  desired       : List Channel
  owners        : Table DeliveryId UserId

namespace Store

def init (owners : Table DeliveryId UserId) : Store where
  sockets       := .empty
  subscriptions := .empty
  desired       := []
  owners        := owners

def subscribeToDelivery (db : Store) (D : DeliveryId) : Store :=
  { db with desired := db.desired.insert <| trackingChannel D }

def unsubscribeFromDelivery (db : Store) (D : DeliveryId) : Store :=
  { db with desired := db.desired.filter (· ≠ trackingChannel D) }

-- The sockets that have not been closed so far.
def connected? (db : Store) (S : SocketId) : Option Socket :=
  (db.sockets.find? S).filter (·.readyState ≠ .closed)

def accept (db : Store) (S : SocketId) : Store :=
  { db with sockets := (db.sockets.insert S {}).getD db.sockets }

def close (db : Store) (S : SocketId) : Store :=
  { db with sockets := db.sockets.modify S fun client =>
      if client.readyState = .open' then { client with readyState := .closing } else client }

-- A client that has disconnected in the meantime does not get its user.
def authenticate (db : Store) (S : SocketId) (sub : UserId) : Store :=
  { db with sockets := db.sockets.modify S fun client =>
      if client.readyState = .open' then { client with userId := some sub } else client }

-- Removes a client from the subscribers of a delivery. The last one takes the delivery with it.
def leave (db : Store) (S : SocketId) (D : DeliveryId) : Store :=
  match db.subscriptions.find? D with
  | none         => db
  | some clients =>
    if S ∈ clients then
      let rest := clients.filter (· ≠ S)
      if rest = [] then
        { db with subscriptions := db.subscriptions.erase D }.unsubscribeFromDelivery D
      else
        { db with subscriptions := db.subscriptions.modify D fun _ => rest }
    else
      db

def handleDisconnect (db : Store) (S : SocketId) : Store :=
  let db := { db with sockets := db.sockets.modify S ({ · with readyState := .closed }) }
  (db.subscriptions.rows.map Prod.fst).foldl (·.leave S ·) db

-- What remains to be done for a subscription after the lookup.
def register (db : Store) (S : SocketId) (D : DeliveryId) : Store :=
  match db.subscriptions.find? D with
  | some clients =>
    { db with subscriptions := db.subscriptions.modify D fun _ => clients.insert S }
  | none         =>
    { db with subscriptions := (db.subscriptions.insert D [S]).getD db.subscriptions
      }.subscribeToDelivery D

end Store

-- The synchronous parts of the handlers, and the lookup in the database.
inductive Stmt
  | accept (S : SocketId)
  | close (S : SocketId)
  | authenticate (S : SocketId) (sub : UserId)
  | disconnect (S : SocketId)
  | message (S : SocketId)
  | findOne (U : UserId) (D : DeliveryId)
  | register (S : SocketId) (D : DeliveryId)
  | unsubscribe (S : SocketId) (D : DeliveryId)
  | createDelivery (D : DeliveryId) (U : UserId)

namespace Stmt

@[reducible]
def Res : Stmt → Type
  | message _   => Option Socket
  | findOne ..  => Except AppError Unit
  | _           => Unit

-- A socket that has been closed neither sends messages nor is it closed again.
def exec : (x : Stmt) → Store → x.Res × Store
  | accept S,           db => ((), db.accept S)
  | close S,            db => ((), db.close S)
  | authenticate S sub, db => ((), db.authenticate S sub)
  | disconnect S,       db => ((), if (db.connected? S).isSome then db.handleDisconnect S else db)
  | message S,          db => (db.connected? S, db)
  | findOne U D,        db =>
    if db.owners.find? D = some U then (.ok (), db)
    else (.error <| .notFound "error.delivery.not_found", db)
  | register S D,       db => ((), db.register S D)
  | unsubscribe S D,    db => ((), if (db.connected? S).isSome then db.leave S D else db)
  | createDelivery D U, db => ((), { db with owners := (db.owners.insert D U).getD db.owners })

@[reducible]
def sig : Signature where
  Stmt := Stmt
  Res  := Res

end Stmt

abbrev App := Method Stmt.sig AppError

abbrev App.stmt (x : Stmt) : App x.Res :=
  @Method.stmt Stmt.sig AppError x

abbrev App.tx {α : Type} (x : Stmt) (f : x.Res → Except AppError α) : App α :=
  @Method.tx Stmt.sig AppError α x f

open Gateway.App (stmt tx)

-- The answer to a message.
inductive Reply
  | error (message : String)
  | subscribed (D : DeliveryId)
  | unsubscribed (D : DeliveryId)
  deriving DecidableEq

namespace TrackingGateway

-- A connection comes with a token, or without one, and with the result of its verification.
def handleConnection (S : SocketId) (token : Option (Except AppError UserId)) : App Unit := do
  stmt <| .accept S
  match token with
  | none            => stmt <| .close S
  | some (.error _) => stmt <| .close S
  | some (.ok sub)  => stmt <| .authenticate S sub

-- There is no answer if the message cannot arrive anymore.
def handleSubscribe (S : SocketId) (deliveryId : Option DeliveryId) (lookup : Outcome AppError) :
    App (Option Reply) := do
  match ← stmt <| .message S with
  | none        => return none
  | some client =>
    match client.userId, deliveryId with
    | some U, some D =>
      let owns ← (do (tx (.findOne U D) id).attempt lookup; return true).handle fun _ => return false
      if owns then
        stmt <| .register S D
        return some <| .subscribed D
      else
        return some <| .error "not found or no access"
    | _,      _      => return some <| .error "unauthorized"

def handleUnsubscribe (S : SocketId) (deliveryId : Option DeliveryId) : App Reply := do
  match deliveryId with
  | none   => return .error "bad request"
  | some D =>
    stmt <| .unsubscribe S D
    return .unsubscribed D

end TrackingGateway

-- The events. That a socket begins to close and that a delivery is created are events, too.
inductive Call
  | connect (token : Option (Except AppError UserId))
  | disconnect (S : SocketId)
  | close (S : SocketId)
  | subscribe (S : SocketId) (deliveryId : Option DeliveryId) (lookup : Outcome AppError)
  | unsubscribe (S : SocketId) (deliveryId : Option DeliveryId)
  | createDelivery (D : DeliveryId) (U : UserId)

open TrackingGateway

-- A connection is known by the thread that has accepted it.
def Call.prog (t : Nat) : Call → Prog Stmt.sig Unit
  | connect token                  => (handleConnection t token).toCall
  | disconnect S                   => (stmt <| .disconnect S).toCall
  | close S                        => (stmt <| .close S).toCall
  | subscribe S deliveryId lookup  => (handleSubscribe S deliveryId lookup).toCall
  | unsubscribe S deliveryId       => (handleUnsubscribe S deliveryId).toCall
  | createDelivery D U             => (stmt <| .createDelivery D U).toCall

def system : System Stmt.sig Store Call where
  exec := Stmt.exec
  prog := Call.prog

end Drovery.Gateway
