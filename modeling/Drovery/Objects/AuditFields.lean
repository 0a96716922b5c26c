import Drovery.Data.JsonText
import Drovery.Objects.Audit

namespace Drovery

-- The name under which a record has the field.
def Field.key : Field → String
  | active           => "active"
  | activeFrom       => "activeFrom"
  | activeUntil      => "activeUntil"
  | airworthy        => "airworthy"
  | amount           => "amount"
  | batteryPercent   => "batteryPercent"
  | ceilingM         => "ceilingM"
  | code             => "code"
  | contentLength    => "contentLength"
  | discountType     => "discountType"
  | discountValue    => "discountValue"
  | endsAt           => "endsAt"
  | firmwareVersion  => "firmwareVersion"
  | floorM           => "floorM"
  | homeBaseLat      => "homeBaseLat"
  | homeBaseLng      => "homeBaseLng"
  | ingestKeyHash    => "ingestKeyHash"
  | kind             => "kind"
  | lat              => "lat"
  | lng              => "lng"
  | maintenanceDueAt => "maintenanceDueAt"
  | maxDiscount      => "maxDiscount"
  | maxPayloadKg     => "maxPayloadKg"
  | maxRedemptions   => "maxRedemptions"
  | minOrderTotal    => "minOrderTotal"
  | model            => "model"
  | name             => "name"
  | notes            => "notes"
  | perUserLimit     => "perUserLimit"
  | radiusKm         => "radiusKm"
  | rangeKm          => "rangeKm"
  | reason           => "reason"
  | resultNote       => "resultNote"
  | role             => "role"
  | serial           => "serial"
  | startsAt         => "startsAt"
  | status           => "status"
  | timesRedeemed    => "timesRedeemed"
  | type             => "type"

-- The audit diff of arbitrary records, whose values are compared as JSON texts.
namespace AuditFields

-- A value that is not undefined, without infinities. A date is given in milliseconds.
inductive Value
  | json (v : Json) (bounded : v.bounded = v)
  | date (ms : Int)

-- A property may be listed as undefined.
abbrev Fields := Record String (Option Value)

def Fields.get (source : Fields) (key : String) : Option Value :=
  (source.lookup key).join

-- What remains of a record.
abbrev Image := Record String Json

def toISOString (ms : Int) : String :=
  let date := Calendar.dateOfDay (ms / 86400000)
  let rest := (ms % 86400000).toNat
  let year :=
    if date.year < 0 then "-" ++ Time.toISOString.pad 6 date.year.natAbs
    else if date.year ≤ 9999 then Time.toISOString.pad 4 date.year.natAbs
    else "+" ++ Time.toISOString.pad 6 date.year.natAbs
  year ++ "-" ++ Time.toISOString.pad 2 date.month.toNat ++ "-" ++
    Time.toISOString.pad 2 date.day.toNat ++ "T" ++ Time.toISOString.pad 2 (rest / 3600000) ++ ":" ++
    Time.toISOString.pad 2 (rest / 60000 % 60) ++ ":" ++ Time.toISOString.pad 2 (rest / 1000 % 60) ++
    "." ++ Time.toISOString.pad 3 (rest % 1000) ++ "Z"

def normalize : Value → Json
  | .json v _ => v
  | .date ms  => .string (toISOString ms)

def allowlist (action : AdminAuditAction) : List String :=
  (auditFieldAllowlist action).map Field.key

-- An empty object is never stored.
def captured (out : Image) : Option Image :=
  if out.isEmpty then none else some out

def pickAllowed (action : AdminAuditAction) (source : Option Fields) : Option Image :=
  source.bind fun source =>
    captured <| (allowlist action).filterMap fun key => (source.get key).map (key, normalize ·)

def diffAllowed (action : AdminAuditAction) (before after : Option Fields) :
    Option Image × Option Image :=
  let b : Image := (pickAllowed action before).getD []
  let a : Image := (pickAllowed action after).getD []
  let changed := (b.map Prod.fst ++ a.map Prod.fst).eraseDups.filter fun key =>
    (b.lookup key).map Json.stringify ≠ (a.lookup key).map Json.stringify
  (captured <| b.pick changed, captured <| a.pick changed)

end AuditFields

end Drovery
