import Drovery.Data.JsonText
import Drovery.Objects.Broker
import Drovery.Services.Mqtt
import Drovery.Services.Telemetry

-- The frames that arrive from the broker are parsed, but their fields have any type.
namespace Drovery.Broker

-- What the handlers depend on besides the frame and the rows.
structure Rest where
  -- Whether a recall of the delivery has been attempted recently.
  cooling  : Bool
  -- Whether the aircraft cannot reach its base any more.
  recalls  : Bool
  -- The rows that are written by a command, after a transition, and for a position.
  issued   : List Row
  followed : List Row
  tracked  : List Row

def happyPhases : List (String × HappyPhase) := [
  ("CONFIRMED", .confirmed), ("ASSIGNED", .assigned), ("PICKUP", .pickup), ("IN_TRANSIT", .inTransit),
  ("ARRIVED", .arrived)
]

def exceptionPhases : List (String × ExceptionPhase) := [
  ("FAILED", .failed), ("RETURNING", .returning), ("RETURNED", .returned)
]

def dronePhases : List String :=
  happyPhases.map Prod.fst ++ exceptionPhases.map Prod.fst

def exceptionPhase : Option Json → Option ExceptionPhase
  | some (.string s) => exceptionPhases.lookup s
  | _                => none

-- Whether a field is missing or null, or has a value that passes the check.
def optional (check : Json → Bool) : Option Json → Bool
  | none       => true
  | some .null => true
  | some v     => check v

def isText (check : String → Bool) : Json → Bool
  | .string s => check s
  | _         => false

def isNumber (lo hi : ℚ) : Json → Bool
  | .number x => lo ≤ x.toRat ∧ x.toRat ≤ hi
  | _         => false

def isInt : Json → Bool
  | .number x => x.toRat.den = 1
  | _         => false

def isId (s : String) : Bool :=
  s ≠ "" ∧ s.length ≤ 64

-- The checks that a frame has passed if it does not arrive from the broker but over HTTP. The library
-- knows what a date is.
structure TelemetryDto (isISO8601 : String → Bool) (msg : Json) : Prop where
  deliveryId     : (msg.get "deliveryId").any (isText isId)
  droneId        : (msg.get "droneId").any (isText isId)
  phase          : optional (isText (· ∈ dronePhases)) (msg.get "phase")
  lat            : optional (isNumber (-90) 90) (msg.get "lat")
  lng            : optional (isNumber (-180) 180) (msg.get "lng")
  altitudeM      : optional (isNumber (-500) 10000) (msg.get "altitudeM")
  batteryPercent : optional (fun v => isInt v && isNumber 0 100 v) (msg.get "batteryPercent")
  airspeedKph    : optional (isNumber 0 400) (msg.get "airspeedKph")
  droneStatus    : optional (isText fun s => s.length ≤ 120) (msg.get "droneStatus")
  eta            : optional (isText isISO8601) (msg.get "eta")
  failureReason  : optional (isText (· ∈ failureReasons)) (msg.get "failureReason")

-- The deliveries that a transition hits.
def transition (db : Tables) (selects : String → Bool) (allowed : List DeliveryStatus) : List Row :=
  (db.deliveries.filter fun d => selects d.id ∧ d.status ∈ allowed).map fun d => .delivery d.id

-- A transition that hits no delivery is not followed by anything.
def Rest.follow (R : Rest) (hits : List Row) : List Row :=
  if hits = [] then [] else hits ++ R.followed

def frame (P : Platform) (delivery : Delivery) (msg : Json) : Option FlightFrame := do
  let .string deliveryId ← msg.get "deliveryId" | none
  let .string droneId ← msg.get "droneId" | none
  let lat ← P.floatColumn <| msg.get "lat"
  let lng ← P.floatColumn <| msg.get "lng"
  let altitudeM ← P.floatColumn <| msg.get "altitudeM"
  let batteryPercent ← P.intColumn <| msg.get "batteryPercent"
  let airspeedKph ← P.floatColumn <| msg.get "airspeedKph"
  let phase ← textColumn 32 <| msg.get "phase"
  let droneStatus ← textColumn 120 <| msg.get "droneStatus"
  some {
    deliveryId, deliveryCreatedAt := delivery.createdAt, droneId, lat, lng, altitudeM, batteryPercent,
    airspeedKph, phase, droneStatus
  }

-- A frame that does not fit is only reported. There is no result if this throws.
def append (P : Platform) (delivery : Delivery) (msg : Json) : Option (List FlightFrame) :=
  match frame P delivery msg with
  | some frame => some [frame]
  | none       => if P.printable (msg.get "deliveryId") then some [] else none

def hasPosition (msg : Json) : Bool :=
  present (msg.get "lat") ∧ present (msg.get "lng")

def updatesDrone (P : Platform) (msg : Json) : Bool :=
  (hasPosition msg → P.updatesFloat (msg.get "lat") ∧ P.updatesFloat (msg.get "lng")) ∧
    (present (msg.get "batteryPercent") → P.updatesInt (msg.get "batteryPercent"))

def updateDroneState (P : Platform) (db : Tables) (msg : Json) : Option (List Row) :=
  if ¬hasPosition msg ∧ ¬present (msg.get "batteryPercent") then
    some []
  else
    match P.whereNullable (msg.get "deliveryId"), updatesDrone P msg with
    | some selects, true =>
      some <| (db.drones.filter (selects ·.activeDeliveryId)).map fun d => .drone d.id
    | _, _ => if P.printable (msg.get "deliveryId") then some [] else none

-- Whether the values can be converted to numbers.
def isReading (P : Platform) (msg : Json) : Bool :=
  ["lat", "lng", "batteryPercent"].all fun key => ((msg.get key).bind <| Json.toNumber P.depth).isSome

-- A command can only be issued for the id of a delivery.
def maybeRecall (P : Platform) (R : Rest) (db : Tables) (delivery : Delivery) (msg : Json) :
    Option (List Row) :=
  if ¬present (msg.get "batteryPercent") ∨ ¬hasPosition msg then
    some []
  else if (exceptionPhase <| msg.get "phase").isSome then
    some []
  else if delivery.status ∉ DeliveryStatus.returnableStatuses ∨ R.cooling then
    some []
  else
    match (P.whereNullable <| msg.get "deliveryId").bind fun selects =>
      db.drones.find? (selects ·.activeDeliveryId) with
    | none   => some []
    | some _ =>
      if ¬isReading P msg then
        none
      else if ¬R.recalls then
        some []
      else
        match msg.get "deliveryId" with
        | some (.string _) => some R.issued
        | id               => if P.printable id then some [] else none

-- What comes after it does not happen if one of the steps throws.
def record (P : Platform) (R : Rest) (db : Tables) (delivery : Delivery) (msg : Json) (rest : List Row) :
    Effects :=
  match append P delivery msg with
  | none        => {}
  | some frames =>
    match updateDroneState P db msg with
    | none        => { frames }
    | some drones =>
      match maybeRecall P R db delivery msg with
      | none          => { frames, written := drones }
      | some commands => { frames, written := drones ++ commands ++ rest }

-- The comparison with numbers, which no other value passes than a number between them.
def between (P : Platform) (lo hi : ℚ) (v : Json) : Option Bool :=
  (v.toNumber P.depth).map fun
    | .finite x => lo ≤ x.toRat ∧ x.toRat ≤ hi
    | _         => false

def inBounds (P : Platform) (lat lng : Json) : Option Bool := do
  if ← between P (-90) 90 lat then between P (-180) 180 lng else some false

-- A position out of bounds is reported.
def positionValid (P : Platform) (msg : Json) : Option Bool :=
  match msg.get "lat", msg.get "lng" with
  | some lat, some lng =>
    if present lat ∧ present lng then do
      if ← inBounds P lat lng then
        some true
      else if P.printable (some lat) ∧ P.printable (some lng) ∧
          P.printable (msg.get "deliveryId") then
        some false
      else
        none
    else
      some false
  | _, _ => some false

def ingestException (P : Platform) (R : Rest) (db : Tables) (selects : String → Bool) (msg : Json) :
    ExceptionPhase → List Row
  | .failed    =>
    if P.updatesReason (msg.get "failureReason")
    then R.follow <| transition db selects DeliveryStatus.failableStatuses
    else []
  | .returning =>
    if P.updatesReason (msg.get "failureReason")
    then R.follow <| transition db selects DeliveryStatus.returnableStatuses
    else []
  | .returned  => R.follow <| transition db selects [.returning]

-- The deliveries that the phase of the frame advances. There is no result if this throws.
def advance (P : Platform) (db : Tables) (selects : String → Bool) (msg : Json) : Option (List Row) :=
  match msg.get "phase" with
  | none       => some []
  | some phase =>
    if ¬Json.truthy phase then
      some []
    else do
      let key ← phase.text P.depth
      match happyPhases.lookup key with
      | none       => some []
      | some phase => some <| transition db selects <| DeliveryStatus.statusesBefore <| phaseToStatus phase

-- A position is only stored for the id of a delivery.
def writePosition (R : Rest) (delivery : Delivery) (msg : Json) (positionValid applied : Bool) : List Row :=
  let frozen := delivery.status ∈ DeliveryStatus.positionFrozenStatuses
  let phaseWasStale := msg.get "phase" ≠ none ∧ ¬applied
  let stored :=
    if positionValid then applied ∨ ¬phaseWasStale ∧ ¬frozen
    else hasPosition msg ∧ ¬frozen
  match msg.get "deliveryId" with
  | some (.string _) => if stored then R.tracked else []
  | _                => []

def ingestHappy (P : Platform) (R : Rest) (db : Tables) (selects : String → Bool) (delivery : Delivery) (msg : Json)
    (positionValid : Bool) : List Row :=
  match advance P db selects msg with
  | none      => []
  | some hits => hits ++ writePosition R delivery msg positionValid (hits ≠ [])

-- The branch on the phase of an accepted frame.
def applyPhase (P : Platform) (R : Rest) (db : Tables) (selects : String → Bool) (delivery : Delivery)
    (msg : Json) (positionValid : Bool) : List Row :=
  match exceptionPhase <| msg.get "phase" with
  | some phase => ingestException P R db selects msg phase
  | none       => ingestHappy P R db selects delivery msg positionValid

def ingest (P : Platform) (R : Rest) (db : Tables) (msg : Json) : Effects :=
  if msg = .null then
    {}
  else if present (msg.get "lat") ≠ present (msg.get "lng") then
    {}
  else
    match positionValid P msg, P.whereId (msg.get "deliveryId") with
    | some positionValid, some selects =>
      match db.deliveries.find? (selects ·.id) with
      | none          => {}
      | some delivery =>
        if delivery.trackingSource ≠ .live then
          {}
        else if delivery.assignedDroneId.getD "" = "" ∨
            msg.get "droneId" ≠ delivery.assignedDroneId.map .string then
          {}
        else
          record P R db delivery msg <| applyPhase P R db selects delivery msg positionValid
    | _, _ => {}

-- The commands that an update hits.
def updateCommands (db : Tables) (selects : String → Bool) (allowed : List DroneCommandStatus) : List Row :=
  (db.commands.filter fun c => selects c.id ∧ c.status ∈ allowed).map fun c => .command c.id

def ack (P : Platform) (R : Rest) (db : Tables) (now : Time) (commandId droneId accepted : Json)
    (note : Option Json) : Effects :=
  match P.whereId <| some commandId with
  | none         => {}
  | some selects =>
    match db.commands.find? (selects ·.id) with
    | none         => {}
    | some command =>
      match db.deliveries.find? (·.id = command.deliveryId) with
      | none          => {}
      | some delivery =>
        if droneId ≠ .string command.droneId ∨ delivery.trackingSource ≠ .live ∨
            some droneId ≠ delivery.assignedDroneId.map .string then
          {}
        else if command.expiresAt ≤ now then
          { written := updateCommands db selects [.pending, .fetched] }
        else
          match textColumn 200 note with
          | none   => {}
          | some _ =>
            let claimed := updateCommands db selects [.fetched]
            { written := if accepted = .bool false then claimed else R.follow claimed }

-- An error is caught, but writing it to the log may throw again.
def caught (logged : Bool) : Settled → Settled
  | .resolved         => .resolved
  | .rejected message => if logged ∧ message.isSome then .resolved else .rejected <| some "TypeError"

def handleMessage (ingest : Json → Settled × Effects) (raw : String) : Settled × Effects :=
  match Json.parse raw with
  | none     => (.resolved, {})
  | some msg => (caught true (ingest msg).fst, (ingest msg).snd)

-- Only strings and arrays can be sliced.
def slice : Option Json → Option (Option Json)
  | none             => some none
  | some .null       => some none
  | some (.string s) => some <| some <| .string <| JsString.slice 200 s
  | some (.array xs) => some <| some <| .array <| xs.take 200
  | some _           => none

def ids (frame : Json) : Option (Json × Json) :=
  match frame.get "commandId", frame.get "droneId" with
  | some commandId, some droneId =>
    if Json.truthy commandId ∧ Json.truthy droneId then some (commandId, droneId) else none
  | _, _ => none

-- A command is accepted unless the frame says otherwise.
def accepted (frame : Json) : Json :=
  match frame.get "accepted" with
  | none       => .bool true
  | some .null => .bool true
  | some v     => v

def handleAck (P : Platform) (ack : Json → Json → Json → Option Json → Settled × Effects)
    (raw : String) : Settled × Effects :=
  match Json.parse raw with
  | none       => (.resolved, {})
  | some .null => (.rejected <| some "TypeError", {})
  | some frame =>
    match ids frame with
    | none                      => (.resolved, {})
    | some (commandId, droneId) =>
      let logged := P.printable commandId
      match slice <| frame.get "note" with
      | none      => (caught logged <| .rejected <| some "TypeError", {})
      | some note =>
        let acked := ack commandId droneId (accepted frame) note
        (caught logged acked.fst, acked.snd)

end Drovery.Broker
