import Drovery.Data.JsValue
import Drovery.Objects.Command

-- The rows that a frame of the broker can touch, and how its untyped fields are taken for columns.
namespace Drovery.Broker

-- Only the columns that are read here. The ids are texts, since a frame may contain any text.
structure Delivery where
  id              : String
  createdAt       : Time
  status          : DeliveryStatus
  trackingSource  : TrackingSource
  assignedDroneId : Option String

structure Drone where
  id               : String
  activeDeliveryId : Option String

structure Command where
  id         : String
  deliveryId : String
  droneId    : String
  status     : DroneCommandStatus
  expiresAt  : Time

-- The rows of the tables in the order in which they are found.
structure Tables where
  deliveries : List Delivery
  drones     : List Drone
  commands   : List Command

inductive Row
  | delivery (id : String)
  | drone (id : String)
  | command (id : String)
  | tracking (deliveryId : String)
  deriving DecidableEq

structure FlightFrame where
  deliveryId        : String
  deliveryCreatedAt : Time
  droneId           : String
  lat               : Option JsNumber
  lng               : Option JsNumber
  altitudeM         : Option JsNumber
  batteryPercent    : Option Int
  airspeedKph       : Option JsNumber
  phase             : Option String
  droneStatus       : Option String
  deriving DecidableEq

-- The frames that are appended to the flight log, and the rows of the other tables that are written.
structure Effects where
  frames  : List FlightFrame := []
  written : List Row         := []

-- How a promise settles. A rejection has a message, unless its reason is null or undefined.
inductive Settled
  | resolved
  | rejected (message : Option String)
  deriving DecidableEq

-- What the code runs on, the database client in particular.
structure Platform where
  -- How many arrays can be nested in a value that is converted.
  depth           : Nat
  -- Objects are taken as filters of an id. There is no filter if the object is not accepted as one.
  filter          : List (String × Json) → Option (String → Bool)
  filterNullable  : List (String × Json) → Option (Option String → Bool)
  -- What is stored in a nullable column of numbers, unless the value is not accepted.
  float           : Json → Option (Option JsNumber)
  int             : Json → Option (Option Int)
  -- Objects are taken as operations on a number or a reason.
  floatOperation  : List (String × Json) → Bool
  intOperation    : List (String × Json) → Bool
  reasonOperation : List (String × Json) → Bool
  float_number    : ∀ x, float (.number x) = some (some x)
  int_number      : ∀ (x : JsNumber) (i : Int), x.toRat = i → -2 ^ 31 ≤ i → i < 2 ^ 31 →
    int (.number x) = some (some i)

-- A condition on an id. It selects all rows if the value is undefined.
def Platform.whereId (P : Platform) : Option Json → Option (String → Bool)
  | none              => some fun _ => true
  | some (.string s)  => some fun id => id = s
  | some (.object ps) => P.filter ps
  | some _            => none

def Platform.whereNullable (P : Platform) : Option Json → Option (Option String → Bool)
  | none              => some fun _ => true
  | some .null        => some fun id => id = none
  | some (.string s)  => some fun id => id = some s
  | some (.object ps) => P.filterNullable ps
  | some _            => none

-- Neither undefined nor null.
def present : Option Json → Bool
  | none       => false
  | some .null => false
  | some _     => true

-- The values of nullable columns. There is none if the value is rejected.
def Platform.floatColumn (P : Platform) : Option Json → Option (Option JsNumber)
  | none       => some none
  | some .null => some none
  | some v     => P.float v

def Platform.intColumn (P : Platform) : Option Json → Option (Option Int)
  | none       => some none
  | some .null => some none
  | some v     => P.int v

def textColumn (max : Nat) : Option Json → Option (Option String)
  | none             => some none
  | some .null       => some none
  | some (.string s) => if s.length ≤ max then some (some s) else none
  | some _           => none

def failureReasons : List String :=
  ["RECIPIENT_UNAVAILABLE", "WEATHER_ABORT", "UNSAFE_DROP_ZONE", "MECHANICAL", "ADMIN_ABORT", "OTHER"]

namespace Platform

variable (P : Platform)

-- Whether a column can be updated with the value.
def updatesFloat : Option Json → Bool
  | some (.object ps) => P.floatOperation ps
  | v                 => (P.floatColumn v).isSome

def updatesInt : Option Json → Bool
  | some (.object ps) => P.intOperation ps
  | v                 => (P.intColumn v).isSome

-- A missing reason is replaced by a default.
def updatesReason : Option Json → Bool
  | none              => true
  | some .null        => true
  | some (.string s)  => s ∈ failureReasons
  | some (.object ps) => P.reasonOperation ps
  | some _            => false

-- Whether a value can be written to the log.
def printable : Option Json → Bool
  | none   => true
  | some v => (v.text P.depth).isSome

end Platform

end Drovery.Broker
