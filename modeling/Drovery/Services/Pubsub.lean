import Drovery.Data.JsValue
import Drovery.Data.JsonText
import Drovery.Services.Coalescer
import Drovery.Services.Gateway

namespace Drovery

inductive PubSubMode
  | standard
  | sharded
  deriving DecidableEq

-- The events by which a client reports messages.
inductive PubSubEvent
  | message
  | smessage
  deriving DecidableEq

-- Anything that is not exactly the name of the sharded mode is the standard mode.
def resolvePubSubMode (config : Option String) : PubSubMode :=
  if config = some "sharded" then .sharded else .standard

def pubSubMessageEvent : PubSubMode → PubSubEvent
  | .sharded  => .smessage
  | .standard => .message

namespace Gateway.Pubsub

open Concurrency

inductive Command
  | subscribe (channel : String)
  | ssubscribe (channel : String)
  | unsubscribe (channel : String)
  | sunsubscribe (channel : String)
  deriving DecidableEq

-- A message together with the event by which it is reported to those who listen to it.
structure Message where
  event   : PubSubEvent
  channel : String
  message : String
  deriving DecidableEq

def pubSubSubscribe (channel : String) : PubSubMode → Command
  | .sharded  => .ssubscribe channel
  | .standard => .subscribe channel

def pubSubUnsubscribe (channel : String) : PubSubMode → Command
  | .sharded  => .sunsubscribe channel
  | .standard => .unsubscribe channel

-- What Redis makes of `PUBLISH` and `SPUBLISH`.
def pubSubPublish (channel message : String) : PubSubMode → Message
  | .sharded  => { event := .smessage, channel, message }
  | .standard => { event := .message, channel, message }

-- The connection of a client in subscribe mode. The commands that have not been processed by Redis
-- and the messages that have not been reported by the client are listed from the earliest to the
-- latest. When the client connects, it may first repeat commands of its previous connections.
structure Connection where
  writable : Bool         := false
  replayed : List Command := []
  pipeline : List Command := []
  channels : List String  := []
  shards   : List String  := []
  inbox    : List Message := []

namespace Connection

-- The channels that Redis has registered for the connection.
def subscribed (c : Connection) : PubSubMode → List String
  | .sharded  => c.shards
  | .standard => c.channels

-- Without an offline queue, a command is rejected unless the connection is up.
def send (c : Connection) (cmd : Command) : Connection :=
  if c.writable then { c with pipeline := c.pipeline ++ [cmd] } else c

def process (c : Connection) : Command → Connection
  | .subscribe channel    => { c with channels := c.channels.insert channel }
  | .ssubscribe channel   => { c with shards := c.shards.insert channel }
  | .unsubscribe channel  => { c with channels := c.channels.filter (· ≠ channel) }
  | .sunsubscribe channel => { c with shards := c.shards.filter (· ≠ channel) }

-- Redis processes the earliest command.
def serve (c : Connection) : Connection :=
  match c.pipeline with
  | []          => c
  | cmd :: cmds => { c with pipeline := cmds }.process cmd

-- The connection once all commands have been processed.
def settled (c : Connection) : Connection :=
  c.pipeline.foldl process { c with pipeline := [] }

def connect (c : Connection) (replayed : List Command) : Connection :=
  if c.writable then c else { writable := true, replayed, pipeline := replayed }

-- What is under way is lost.
def drop (_ : Connection) : Connection :=
  {}

def listening (c : Connection) : PubSubEvent → List String
  | .smessage => c.shards
  | .message  => c.channels

-- Redis hands a publication over to those who listen.
def route (c : Connection) (m : Message) : Connection :=
  if m.channel ∈ c.listening m.event then { c with inbox := c.inbox ++ [m] } else c

end Connection

-- The part of a text between its first `start` and its last `stop` characters.
def slice (start stop : Nat) (s : String) : String :=
  .ofList <| (s.toList.drop start).take (s.length - stop - start)

-- A channel is named by an id between a prefix and a suffix.
structure Naming where
  pre : String
  suf : String

namespace Naming

def channel (N : Naming) (id : String) : String :=
  N.pre ++ id ++ N.suf

def id (N : Naming) (channel : String) : String :=
  slice N.pre.length N.suf.length channel

def tracking : Naming where
  pre := "delivery:"
  suf := ":update"

-- What a subscriber hands to its handler.
def dispatch (N : Naming) (m : Message) : Option (String × Json) :=
  (Json.parse m.message).map fun payload => (N.id m.channel, payload)

end Naming

-- What a position update tells about the drone.
structure DroneFields where
  droneStatus : Option String   := none
  droneLat    : Option JsNumber := none
  droneLng    : Option JsNumber := none
  deriving DecidableEq

abbrev Payload := TrackingUpdatePayload DroneFields

-- The ids of the deliveries as texts, and the settings. A socket is backed up if it buffers more
-- than `wsMaxBufferedBytes`.
structure Params where
  text               : DeliveryId → String
  injective          : Function.Injective text
  config             : Option String
  wsMaxBufferedBytes : Nat

namespace Params

variable (P : Params)

-- The publisher and the subscriber read the same setting.
def mode : PubSubMode :=
  resolvePubSubMode P.config

def channel (D : DeliveryId) : String :=
  Naming.tracking.channel <| P.text D

-- Fields that are undefined are left out.
def payload (p : Payload) : Json :=
  .object <|
    ("deliveryId", .string <| P.text p.deliveryId) ::
    (p.status.map fun s => ("status", Json.string s)).toList ++
    (p.drone.droneStatus.map fun s => ("droneStatus", Json.string s)).toList ++
    (p.drone.droneLat.map fun x => ("droneLat", Json.number x)).toList ++
    (p.drone.droneLng.map fun x => ("droneLng", Json.number x)).toList

def doPublish (p : Payload) : Message :=
  pubSubPublish (P.channel p.deliveryId) (Json.stringify <| P.payload p) P.mode

def subscribeToDelivery (D : DeliveryId) : Command :=
  pubSubSubscribe (P.channel D) P.mode

def unsubscribeFromDelivery (D : DeliveryId) : Command :=
  pubSubUnsubscribe (P.channel D) P.mode

-- The commands that are issued when a client leaves a delivery.
def leave (db : Store) (S : SocketId) (D : DeliveryId) : List Command :=
  match db.subscriptions.find? D with
  | none         => []
  | some clients =>
    if S ∈ clients ∧ clients.filter (· ≠ S) = [] then [P.unsubscribeFromDelivery D] else []

def leaveAll (S : SocketId) : List DeliveryId → Store → List Command
  | [],      _  => []
  | D :: Ds, db => P.leave db S D ++ leaveAll S Ds (db.leave S D)

-- The commands that the subscriber issues on behalf of a statement of the gateway.
def commands (x : Stmt) (db : Store) : List Command :=
  match x with
  | .register _ D    => if db.subscriptions.find? D = none then [P.subscribeToDelivery D] else []
  | .unsubscribe S D => if (db.connected? S).isSome then P.leave db S D else []
  | .disconnect S    =>
    if (db.connected? S).isSome then
      let db := { db with sockets := db.sockets.modify S ({ · with readyState := .closed }) }
      P.leaveAll S (db.subscriptions.rows.map Prod.fst) db
    else
      []
  | _                => []

end Params

-- A frame that has been sent to a socket on behalf of a delivery.
structure Sent where
  socket     : SocketId
  deliveryId : String
  data       : Json
  deriving DecidableEq

def isStatusFrame (data : Json) : Bool :=
  (data.get "status").isSome

-- Reading the status of `null` throws.
def Params.deliverToLocalClients (P : Params) (db : Store) (bufferedAmount : SocketId → Nat)
    (deliveryId : String) (data : Json) : List Sent :=
  match db.subscriptions.findFirst fun D _ => P.text D = deliveryId with
  | none              => []
  | some (_, clients) =>
    if data = .null then
      []
    else
      (clients.filter fun client =>
        (db.sockets.find? client).any (·.readyState = .open') ∧
          (isStatusFrame data ∨ bufferedAmount client ≤ P.wsMaxBufferedBytes)).map
        ({ socket := ·, deliveryId, data })

-- A replica: the calls of its gateway, the connection of its subscriber, whether the subscriber has
-- been told that this connection is ready, and the frames that have been sent so far.
structure Replica where
  pool    : Pool Stmt.sig Store Call
  conn    : Connection := {}
  rearmed : Bool       := false
  sent    : List Sent  := []

inductive Event
  | cmd (c : Cmd Call)
  | connect (replayed : List Command)
  | ready
  | serve
  | drop
  | publish (p : Payload)
  | receive (bufferedAmount : SocketId → Nat)

namespace Replica

variable (P : Params)

def init (owners : Table DeliveryId UserId) : Replica where
  pool := .init <| .init owners

def db (r : Replica) : Store :=
  r.pool.db

def rearmAll (r : Replica) : Replica :=
  { r with
    conn := r.db.desired.foldl (fun c ch => c.send <| P.subscribeToDelivery ch.deliveryId) r.conn }

-- The commands that are issued by a scheduling decision of the gateway.
def issued (r : Replica) : Cmd Call → List Command
  | .exec t => ((r.pool.next? t).map fun (_, x) => P.commands x r.db).getD []
  | _       => []

-- Messages are only listened to by the event of the mode.
def reported (r : Replica) (bufferedAmount : SocketId → Nat) (m : Message) : List Sent :=
  if m.event = pubSubMessageEvent P.mode then
    match Naming.tracking.dispatch m with
    | none                    => []
    | some (deliveryId, data) => P.deliverToLocalClients r.db bufferedAmount deliveryId data
  else
    []

def receive (r : Replica) (bufferedAmount : SocketId → Nat) : Replica :=
  match r.conn.inbox with
  | []      => r
  | m :: ms =>
    { r with
      conn := { r.conn with inbox := ms }
      sent := r.sent ++ r.reported P bufferedAmount m }

def exec (r : Replica) : Event → Replica
  | .cmd c                  =>
    { r with
      pool := r.pool.apply system c
      conn := (r.issued P c).foldl Connection.send r.conn }
  | .connect replayed       => { r with conn := r.conn.connect replayed }
  | .ready                  => if r.conn.writable then { r.rearmAll P with rearmed := true } else r
  | .serve                  => { r with conn := r.conn.serve }
  | .drop                   => { r with conn := r.conn.drop, rearmed := false }
  | .publish p              => { r with conn := r.conn.route <| P.doPublish p }
  | .receive bufferedAmount => r.receive P bufferedAmount

def run (r : Replica) (events : List Event) : Replica :=
  events.foldl (exec P) r

end Replica

end Gateway.Pubsub

end Drovery
