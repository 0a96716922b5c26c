import Drovery.Data.Calendar
import Drovery.Data.Record
import Drovery.Objects.Delivery

namespace Drovery

inductive Role
  | user
  | agent
  | admin
  deriving DecidableEq

-- Who is acting.
structure AuditActor where
  userId : UserId
  role   : Role
  deriving DecidableEq

inductive AdminAuditAction
  | deliveryForceCancel
  | deliveryFail
  | deliveryRefund
  | droneCommandIssue
  | droneCreate
  | droneUpdate
  | promoCreate
  | promoUpdate
  | userRoleSet
  | supportTicketReply
  | supportTicketStatusSet
  | airspaceZoneCreate
  | airspaceZoneUpdate
  | airspaceZoneDeactivate
  deriving DecidableEq

inductive AdminAuditTargetType
  | delivery
  | drone
  | promo
  | user
  | supportTicket
  | airspaceZone
  deriving DecidableEq

-- The names of the columns and arguments that the recorded actions deal with.
inductive Field
  | active
  | activeFrom
  | activeUntil
  | airworthy
  | amount
  | batteryPercent
  | ceilingM
  | code
  | contentLength
  | discountType
  | discountValue
  | endsAt
  | firmwareVersion
  | floorM
  | homeBaseLat
  | homeBaseLng
  | ingestKeyHash
  | kind
  | lat
  | lng
  | maintenanceDueAt
  | maxDiscount
  | maxPayloadKg
  | maxRedemptions
  | minOrderTotal
  | model
  | name
  | notes
  | perUserLimit
  | radiusKm
  | rangeKm
  | reason
  | resultNote
  | role
  | serial
  | startsAt
  | status
  | timesRedeemed
  | type
  deriving DecidableEq

inductive Value
  | null
  | bool (b : Bool)
  | number (q : ℚ)
  | string (s : String)
  | date (t : Time)
  deriving DecidableEq

-- A record of values. A field that is not listed is undefined.
abbrev Fields := Record Field Value

structure AuditEntry where
  actorUserId : UserId
  actorRole   : Role
  action      : AdminAuditAction
  targetType  : AdminAuditTargetType
  targetId    : Nat
  before      : Option Fields
  after       : Option Fields
  args        : Option Fields
  deriving DecidableEq

-- An entry of the actor without any payload.
def AuditActor.entry (actor : AuditActor) (action : AdminAuditAction)
    (targetType : AdminAuditTargetType) (targetId : Nat) : AuditEntry where
  actorUserId := actor.userId
  actorRole   := actor.role
  action      := action
  targetType  := targetType
  targetId    := targetId
  before      := none
  after       := none
  args        := none

def Time.toISOString (t : Time) : String :=
  let date := Calendar.dateOfDay (t / 86400000)
  let ms   := t % 86400000
  let year :=
    if date.year ≤ 9999 then pad 4 date.year.toNat else "+" ++ pad 6 date.year.toNat
  year ++ "-" ++ pad 2 date.month.toNat ++ "-" ++ pad 2 date.day.toNat ++ "T" ++
    pad 2 (ms / 3600000) ++ ":" ++ pad 2 (ms / 60000 % 60) ++ ":" ++ pad 2 (ms / 1000 % 60) ++
    "." ++ pad 3 (ms % 1000) ++ "Z"
where
  pad (width n : Nat) : String :=
    (toString n).leftpad width '0'

namespace Value

-- Dates are recorded as strings.
def normalize : Value → Value
  | date t => string t.toISOString
  | v      => v

def ofOption {α : Type} (f : α → Value) : Option α → Value
  | none   => null
  | some a => f a

end Value

-- The fields that may be recorded for an action.
def auditFieldAllowlist : AdminAuditAction → List Field
  | .deliveryForceCancel    => [.status]
  | .deliveryFail           => [.status, .reason]
  | .deliveryRefund         => [.amount]
  | .droneCommandIssue      => [.type, .reason]
  | .droneCreate            => [
      .serial, .model, .firmwareVersion, .maxPayloadKg, .rangeKm, .homeBaseLat, .homeBaseLng
    ]
  | .droneUpdate            => [
      .status, .airworthy, .model, .firmwareVersion, .maxPayloadKg, .rangeKm, .batteryPercent,
      .maintenanceDueAt, .homeBaseLat, .homeBaseLng
    ]
  | .promoCreate            => [
      .code, .discountType, .discountValue, .minOrderTotal, .maxDiscount, .startsAt,
      .maxRedemptions, .endsAt
    ]
  | .promoUpdate            => [
      .discountValue, .minOrderTotal, .maxDiscount, .endsAt, .maxRedemptions, .active
    ]
  | .userRoleSet            => [.role]
  | .supportTicketReply     => [.contentLength]
  | .supportTicketStatusSet => [.status]
  | .airspaceZoneCreate     => [
      .name, .kind, .lat, .lng, .radiusKm, .floorM, .ceilingM, .activeFrom, .activeUntil
    ]
  | .airspaceZoneUpdate     => [
      .name, .kind, .lat, .lng, .radiusKm, .floorM, .ceilingM, .activeFrom, .activeUntil, .active
    ]
  | .airspaceZoneDeactivate => [.active]

namespace Fields

-- A record is only captured if it is not empty.
def captured (fs : Fields) : Option Fields :=
  if fs.isEmpty then none else some fs

def normalize (fs : Fields) : Fields :=
  fs.map fun (key, v) => (key, v.normalize)

end Fields

-- The fields of a record that may be captured for the action.
def pickAllowed (action : AdminAuditAction) (source : Option Fields) : Option Fields :=
  source.bind fun source =>
    Fields.captured <| Fields.normalize <| source.pick <| auditFieldAllowlist action

-- The allowed fields that have changed, with their prior and their new values.
def diffAllowed (action : AdminAuditAction) (before after : Option Fields) :
    Option Fields × Option Fields :=
  let b : Fields := (pickAllowed action before).getD []
  let a : Fields := (pickAllowed action after).getD []
  (Fields.captured <| b.pick <| b.changed a, Fields.captured <| a.pick <| b.changed a)

end Drovery
