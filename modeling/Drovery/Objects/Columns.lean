import Drovery.Objects.Airspace
import Drovery.Objects.Audit
import Drovery.Objects.Command
import Drovery.Objects.Fleet
import Drovery.Objects.Promo

namespace Drovery

def DeliveryStatus.name : DeliveryStatus → String
  | scheduled        => "SCHEDULED"
  | pending          => "PENDING"
  | confirmed        => "CONFIRMED"
  | droneAssigned    => "DRONE_ASSIGNED"
  | pickupInProgress => "PICKUP_IN_PROGRESS"
  | inTransit        => "IN_TRANSIT"
  | awaitingHandoff  => "AWAITING_HANDOFF"
  | delivered        => "DELIVERED"
  | canceled         => "CANCELED"
  | returning        => "RETURNING"
  | deliveryFailed   => "DELIVERY_FAILED"
  | returnedToBase   => "RETURNED_TO_BASE"

def DeliveryFailureReason.name : DeliveryFailureReason → String
  | recipientUnavailable => "RECIPIENT_UNAVAILABLE"
  | weatherAbort         => "WEATHER_ABORT"
  | unsafeDropZone       => "UNSAFE_DROP_ZONE"
  | mechanical           => "MECHANICAL"
  | adminAbort           => "ADMIN_ABORT"
  | other                => "OTHER"

def DroneStatus.name : DroneStatus → String
  | available   => "AVAILABLE"
  | inFlight    => "IN_FLIGHT"
  | charging    => "CHARGING"
  | maintenance => "MAINTENANCE"
  | grounded    => "GROUNDED"

def DroneCommandType.name : DroneCommandType → String
  | returnToBase => "RETURN_TO_BASE"
  | abort        => "ABORT"

def DroneCommandStatus.name : DroneCommandStatus → String
  | pending  => "PENDING"
  | fetched  => "FETCHED"
  | acked    => "ACKED"
  | rejected => "REJECTED"
  | expired  => "EXPIRED"

def PromoDiscountType.name : PromoDiscountType → String
  | percent => "PERCENT"
  | fixed   => "FIXED"

def AirspaceZoneKind.name : AirspaceZoneKind → String
  | airport   => "AIRPORT"
  | military  => "MILITARY"
  | temporary => "TEMPORARY"
  | event     => "EVENT"

def Role.name : Role → String
  | user  => "USER"
  | agent => "AGENT"
  | admin => "ADMIN"

-- The columns of a drone that only the registry deals with.
structure Airframe where
  serial          : String
  model           : String
  firmwareVersion : Option String
  ingestKeyHash   : Option String

namespace Value

def integer (n : Int) : Value :=
  number n

-- An amount of money in the unit of the source, which is not cents.
def money (q : ℚ) : Value :=
  number (q / 100)

end Value

open Value

def Drone.toFields (airframe : Airframe) (d : Drone) : Fields := [
    (.serial,           string airframe.serial),
    (.model,            string airframe.model),
    (.firmwareVersion,  ofOption string airframe.firmwareVersion),
    (.ingestKeyHash,    ofOption string airframe.ingestKeyHash),
    (.status,           string d.status.name),
    (.airworthy,        bool d.airworthy),
    (.maxPayloadKg,     number d.maxPayloadKg),
    (.batteryPercent,   integer d.batteryPercent),
    (.rangeKm,          number d.rangeKm),
    (.homeBaseLat,      number d.homeBaseLat),
    (.homeBaseLng,      number d.homeBaseLng),
    (.maintenanceDueAt, ofOption date d.maintenanceDueAt)
  ]

def DroneCommand.toFields (c : DroneCommand) : Fields := [
    (.type,       string c.type.name),
    (.reason,     string c.reason.name),
    (.status,     string c.status.name),
    (.resultNote, ofOption string c.resultNote)
  ]

def PromoCode.toFields (code : PromoCode) : Fields := [
    (.code,           string code.code),
    (.discountType,   string code.discountType.name),
    (.discountValue,  match code.discountType with
                      | .percent => number code.discountValue
                      | .fixed   => money code.discountValue),
    (.minOrderTotal,  money code.minOrderTotal),
    (.maxDiscount,    ofOption money code.maxDiscount),
    (.startsAt,       ofOption date code.startsAt),
    (.endsAt,         ofOption date code.endsAt),
    (.active,         bool code.active),
    (.maxRedemptions, ofOption integer code.maxRedemptions),
    (.timesRedeemed,  integer code.timesRedeemed),
    (.perUserLimit,   integer code.perUserLimit)
  ]

def AirspaceZone.toFields (z : AirspaceZone) : Fields := [
    (.name,        string z.name),
    (.kind,        string z.kind.name),
    (.lat,         number z.lat),
    (.lng,         number z.lng),
    (.radiusKm,    number z.radiusKm),
    (.floorM,      ofOption integer z.floorM),
    (.ceilingM,    ofOption integer z.ceilingM),
    (.activeFrom,  ofOption date z.activeFrom),
    (.activeUntil, ofOption date z.activeUntil),
    (.active,      bool z.active),
    (.notes,       ofOption string z.notes)
  ]

end Drovery
