import Drovery.Objects.Delivery

namespace Drovery.Tracking

-- How the language writes finite numbers and valid dates as texts, and how it reads them back: with
-- `String` and `Number`, and with `toISOString` and `new Date`. A text that does not stand for a
-- finite number or for a valid date is read as nothing. The two zeros are the same number.
structure Lang where
  Number              : Type
  Date                : Type
  string              : Number → String
  number              : String → Option Number
  toISOString         : Date → String
  newDate             : String → Option Date
  number_string       : ∀ n, number (string n) = some n
  newDate_toISOString : ∀ d, newDate (toISOString d) = some d
  newDate_empty       : newDate "" = none

variable {L : Lang}

-- The position that is written over and over again. A field that is not present stands for the
-- `undefined` of a call as well as for the `null` of a row.
structure TrackingPosition (L : Lang) where
  droneLat    : Option L.Number := none
  droneLng    : Option L.Number := none
  droneStatus : Option String   := none
  eta         : Option L.Date   := none

inductive Field
  | droneLat
  | droneLng
  | droneStatus
  | eta
  deriving DecidableEq

@[reducible]
def Field.Value (L : Lang) : Field → Type
  | droneLat    => L.Number
  | droneLng    => L.Number
  | droneStatus => String
  | eta         => L.Date

namespace TrackingPosition

def get (pos : TrackingPosition L) : (f : Field) → Option (f.Value L)
  | .droneLat    => pos.droneLat
  | .droneLng    => pos.droneLng
  | .droneStatus => pos.droneStatus
  | .eta         => pos.eta

-- The fields that are present in `data` replace those of `pos`, and the others are left alone.
def overlay (pos data : TrackingPosition L) : TrackingPosition L where
  droneLat    := data.droneLat    <|> pos.droneLat
  droneLng    := data.droneLng    <|> pos.droneLng
  droneStatus := data.droneStatus <|> pos.droneStatus
  eta         := data.eta         <|> pos.eta

end TrackingPosition

structure DeliveryTracking (L : Lang) extends TrackingPosition L where
  deliveryCreatedAt : L.Date

-- What a client gets to see. The time of creation is missing if there is no row yet.
structure TrackingView (L : Lang) extends TrackingPosition L where
  deliveryId        : DeliveryId
  deliveryCreatedAt : Option L.Date

-- A hash of the hot store. The fields of a hash are texts, and a hash without fields does not exist.
structure HotHash where
  deliveryCreatedAt : Option String := none
  droneLat          : Option String := none
  droneLng          : Option String := none
  droneStatus       : Option String := none
  eta               : Option String := none
  deriving DecidableEq

def HotHash.hset (h fields : HotHash) : HotHash where
  deliveryCreatedAt := fields.deliveryCreatedAt <|> h.deliveryCreatedAt
  droneLat          := fields.droneLat          <|> h.droneLat
  droneLng          := fields.droneLng          <|> h.droneLng
  droneStatus       := fields.droneStatus       <|> h.droneStatus
  eta               := fields.eta               <|> h.eta

-- The fields that a write of a position sets.
def TrackingPosition.toFields (pos : TrackingPosition L) (deliveryCreatedAt : L.Date) : HotHash where
  deliveryCreatedAt := some <| L.toISOString deliveryCreatedAt
  droneLat          := pos.droneLat.map L.string
  droneLng          := pos.droneLng.map L.string
  droneStatus       := pos.droneStatus
  eta               := pos.eta.map L.toISOString

-- An empty text is not a date in the first place.
def HotHash.parsePosition (h : HotHash) : TrackingPosition L where
  droneLat    := h.droneLat.bind L.number
  droneLng    := h.droneLng.bind L.number
  droneStatus := h.droneStatus
  eta         := h.eta.bind fun v => if v = "" then none else L.newDate v

structure Store (L : Lang) where
  hot   : Table DeliveryId HotHash
  dirty : List DeliveryId
  rows  : Table DeliveryId (DeliveryTracking L)

namespace Store

-- The hot store has not been used so far.
def cold (rows : Table DeliveryId (DeliveryTracking L)) : Store L where
  hot   := .empty
  dirty := []
  rows  := rows

def hgetall (db : Store L) (D : DeliveryId) : HotHash :=
  (db.hot.find? D).getD {}

def sadd (db : Store L) (D : DeliveryId) : Store L :=
  { db with dirty := db.dirty.insert D }

def hset (db : Store L) (D : DeliveryId) (fields : HotHash) : Store L :=
  { db with hot := db.hot.upsert D fields (·.hset fields) }

-- The members that are drawn from the dirty set. It is arbitrary in which order they are drawn, but
-- there are as many of them as possible.
def drawn (db : Store L) (order : List DeliveryId) (count : Nat) : List DeliveryId :=
  (order.filter (· ∈ db.dirty) ++ db.dirty).dedup.take count

def spop (db : Store L) (order : List DeliveryId) (count : Nat) : Store L :=
  { db with dirty := db.dirty.filter (· ∉ db.drawn order count) }

-- The hash of a delivery reaches the end of its life time.
def expire (db : Store L) (D : DeliveryId) : Store L :=
  { db with hot := db.hot.erase D }

def upsert (db : Store L) (D : DeliveryId) (deliveryCreatedAt : L.Date) (pos : TrackingPosition L) :
    Store L :=
  { db with rows := db.rows.upsert D ⟨pos, deliveryCreatedAt⟩ fun row =>
      { row with toTrackingPosition := row.overlay pos } }

end Store

end Drovery.Tracking
