import Drovery.Objects.Delivery

namespace Drovery

abbrev ZoneId := Nat

inductive AirspaceZoneKind
  | airport
  | military
  | temporary
  | event
  deriving DecidableEq

structure AirspaceZone where
  name        : String
  kind        : AirspaceZoneKind
  lat         : ℚ
  lng         : ℚ
  radiusKm    : ℚ
  floorM      : Option Int
  ceilingM    : Option Int
  -- The time window of the zone, which is unbounded where it is not given.
  activeFrom  : Option Time
  activeUntil : Option Time
  active      : Bool
  notes       : Option String
  deriving DecidableEq

structure GeoCircle where
  name     : String
  lat      : ℚ
  lng      : ℚ
  radiusKm : ℚ
  deriving DecidableEq

-- The columns of a zone that are cached: its geometry, and what decides whether it is in force.
structure ZoneRow extends GeoCircle where
  active      : Bool
  activeFrom  : Option Time
  activeUntil : Option Time
  deriving DecidableEq

def AirspaceZone.toRow (z : AirspaceZone) : ZoneRow where
  name        := z.name
  lat         := z.lat
  lng         := z.lng
  radiusKm    := z.radiusKm
  active      := z.active
  activeFrom  := z.activeFrom
  activeUntil := z.activeUntil

-- Both ends of the time window are inclusive.
def isZoneInForce (z : ZoneRow) (now : Time) : Bool :=
  z.active ∧ (∀ t ∈ z.activeFrom, t ≤ now) ∧ ∀ t ∈ z.activeUntil, now ≤ t

-- The answer that is computed from the rows of the database.
def inForce (rows : List ZoneRow) (now : Time) : List GeoCircle :=
  rows.filter (isZoneInForce · now) |>.map (·.toGeoCircle)

structure AirspaceCache where
  fetchedAt : Time
  rows      : List ZoneRow

def airspaceCacheTtlMaxMs : ℚ := 300000

-- The time for which rows may be served from memory. The configured value is missing if it is not a
-- finite number.
def resolveAirspaceCacheTtlMs (raw : Option ℚ) (fallback : ℚ) : ℚ :=
  match raw with
  | none     => fallback
  | some raw => if 0 ≤ raw ∧ raw ≤ airspaceCacheTtlMaxMs then raw else fallback

def AirspaceCache.Fresh (cache : AirspaceCache) (ttl : ℚ) (now : Time) : Prop :=
  cache.fetchedAt ≤ now ∧ ((now - cache.fetchedAt : Nat) : ℚ) < ttl

instance {cache : AirspaceCache} {ttl : ℚ} {now : Time} : Decidable (cache.Fresh ttl now) :=
  inferInstanceAs (Decidable (_ ∧ _))

structure CreateAirspaceZoneDto where
  name        : String
  kind        : AirspaceZoneKind
  lat         : ℚ
  lng         : ℚ
  radiusKm    : ℚ
  floorM      : Option Int    := none
  ceilingM    : Option Int    := none
  activeFrom  : Option Time   := none
  activeUntil : Option Time   := none
  notes       : Option String := none

def CreateAirspaceZoneDto.zone (dto : CreateAirspaceZoneDto) : AirspaceZone where
  name        := dto.name
  kind        := dto.kind
  lat         := dto.lat
  lng         := dto.lng
  radiusKm    := dto.radiusKm
  floorM      := dto.floorM
  ceilingM    := dto.ceilingM
  activeFrom  := dto.activeFrom
  activeUntil := dto.activeUntil
  active      := true
  notes       := dto.notes

-- A patch of a zone. A field is either absent, explicitly `null` or given, and nothing that comes
-- before the service rejects a `null`.
structure AirspaceZonePatch where
  name        : Option (Option String)           := none
  kind        : Option (Option AirspaceZoneKind) := none
  lat         : Option (Option ℚ)                := none
  lng         : Option (Option ℚ)                := none
  radiusKm    : Option (Option ℚ)                := none
  floorM      : Option (Option Int)              := none
  ceilingM    : Option (Option Int)              := none
  activeFrom  : Option (Option Time)             := none
  activeUntil : Option (Option Time)             := none
  active      : Option (Option Bool)             := none
  notes       : Option (Option String)           := none

namespace AirspaceZonePatch

def nullsRequired (patch : AirspaceZonePatch) : Bool :=
  patch.name = some none ∨ patch.kind = some none ∨ patch.lat = some none ∨
    patch.lng = some none ∨ patch.radiusKm = some none ∨ patch.active = some none

def writesWindow (patch : AirspaceZonePatch) : Bool :=
  patch.activeFrom.isSome ∨ patch.activeUntil.isSome

-- A `null` clears those columns that may be empty, and leaves the others as they are.
def apply (patch : AirspaceZonePatch) (z : AirspaceZone) : AirspaceZone where
  name        := patch.name.join.getD z.name
  kind        := patch.kind.join.getD z.kind
  lat         := patch.lat.join.getD z.lat
  lng         := patch.lng.join.getD z.lng
  radiusKm    := patch.radiusKm.join.getD z.radiusKm
  floorM      := patch.floorM.getD z.floorM
  ceilingM    := patch.ceilingM.getD z.ceilingM
  activeFrom  := patch.activeFrom.getD z.activeFrom
  activeUntil := patch.activeUntil.getD z.activeUntil
  active      := patch.active.join.getD z.active
  notes       := patch.notes.getD z.notes

end AirspaceZonePatch

def assertNoNullOnRequiredFields (patch : AirspaceZonePatch) : Except AppError Unit :=
  if patch.nullsRequired then .error <| .badRequest "error.admin.airspace.null_not_allowed"
  else .ok ()

-- Only a write to the window is refused for ending in the past.
def assertZoneBounds (z : AirspaceZone) (windowWritten : Bool) (now : Time) :
    Except AppError Unit :=
  if z.activeFrom.any fun f => z.activeUntil.any (· ≤ f) then
    .error <| .badRequest "error.admin.airspace.inverted_window"
  else if windowWritten ∧ z.activeUntil.any (· < now) then
    .error <| .badRequest "error.admin.airspace.past_window"
  else if z.floorM.any fun f => z.ceilingM.any (· ≤ f) then
    .error <| .badRequest "error.admin.airspace.inverted_altitude"
  else
    .ok ()

end Drovery
