import Drovery.Services.Broker

namespace Drovery.Broker

-- The message passes the checks for the delivery that its id selects.
structure Accepted (P : Platform) (db : Tables) (msg : Json) (selects : String → Bool)
    (delivery : Delivery) : Prop where
  paired   : present (msg.get "lat") = present (msg.get "lng")
  position : (positionValid P msg).isSome
  selected : P.whereId (msg.get "deliveryId") = some selects
  found    : db.deliveries.find? (selects ·.id) = some delivery
  live     : delivery.trackingSource = .live
  assigned : ∃ D ≠ "", delivery.assignedDroneId = some D ∧ msg.get "droneId" = some (.string D)

-- Every field is accepted by its column, and no text exceeds the length of it.
structure Fits (P : Platform) (msg : Json) : Prop where
  deliveryId     : ∃ s, msg.get "deliveryId" = some (.string s)
  lat            : (P.floatColumn <| msg.get "lat").isSome
  lng            : (P.floatColumn <| msg.get "lng").isSome
  altitudeM      : (P.floatColumn <| msg.get "altitudeM").isSome
  batteryPercent : (P.intColumn <| msg.get "batteryPercent").isSome
  airspeedKph    : (P.floatColumn <| msg.get "airspeedKph").isSome
  phase          : (textColumn 32 <| msg.get "phase").isSome
  droneStatus    : (textColumn 120 <| msg.get "droneStatus").isSome

section

variable {P : Platform} {R : Rest} {db : Tables} {msg : Json} {v : Option Json} {selects : String → Bool}
variable {delivery : Delivery} {row : FlightFrame} {rest : List Row} {D : String} {max : Nat}

theorem isSome_of_optional {α : Type} {column : Option Json → Option (Option α)} {check : Json → Bool}
    (hm : column none = some none) (hn : column (some .null) = some none)
    (hc : ∀ v, check v → (column (some v)).isSome) (h : optional check v) : (column v).isSome := by
  unfold optional at h
  split at h
  case h_1 => exact Option.isSome_of_eq_some hm
  case h_2 => exact Option.isSome_of_eq_some hn
  case h_3 => exact hc _ h

theorem floatColumn_isSome {lo hi : ℚ} (h : optional (isNumber lo hi) v) :
    (P.floatColumn v).isSome := by
  refine isSome_of_optional rfl rfl (fun v hv => ?_) h
  cases v
  case number x => exact Option.isSome_of_eq_some <| P.float_number x
  all_goals contradiction

theorem textColumn_isSome {check : String → Bool} (hc : ∀ s, check s → s.length ≤ max)
    (h : optional (isText check) v) : (textColumn max v).isSome := by
  refine isSome_of_optional rfl rfl (fun v hv => ?_) h
  cases v
  case string s => rw [textColumn, if_pos (hc s hv), Option.isSome_some]
  all_goals contradiction

theorem intColumn_isSome (h : optional (fun v => isInt v && isNumber 0 100 v) v) :
    (P.intColumn v).isSome := by
  refine isSome_of_optional rfl rfl (fun v hv => ?_) h
  have ⟨hi, hn⟩ := Bool.and_eq_true_iff.mp hv
  cases v
  case number x =>
    have hx : x.toRat = x.toRat.num := (Rat.coe_int_num_of_den_eq_one <| of_decide_eq_true hi).symm
    have ⟨hlo, hhi⟩ := of_decide_eq_true hn
    rw [hx] at hlo hhi
    have hlo : 0 ≤ x.toRat.num := by exact_mod_cast hlo
    have hhi : x.toRat.num ≤ 100 := by exact_mod_cast hhi
    exact Option.isSome_of_eq_some <| P.int_number x _ hx (by omega) (by omega)
  all_goals contradiction

-- A frame that is validated has been checked for all of this.
theorem TelemetryDto.fits {isISO8601 : String → Bool} (h : TelemetryDto isISO8601 msg) : Fits P msg where
  deliveryId     := by
    have hd := h.deliveryId
    cases hv : msg.get "deliveryId" <;> rw [hv] at hd
    case none   => contradiction
    case some v =>
      cases v
      case string s => exact ⟨s, rfl⟩
      all_goals contradiction
  lat            := floatColumn_isSome h.lat
  lng            := floatColumn_isSome h.lng
  altitudeM      := floatColumn_isSome h.altitudeM
  batteryPercent := intColumn_isSome h.batteryPercent
  airspeedKph    := floatColumn_isSome h.airspeedKph
  phase          := by
    have hl : ∀ s ∈ dronePhases, s.length ≤ 32 := by decide
    exact textColumn_isSome (fun s hs => hl s <| of_decide_eq_true hs) h.phase
  droneStatus    := textColumn_isSome (fun _ => of_decide_eq_true) h.droneStatus

-- What has been read for a row that fits.
inductive Framed (P : Platform) (delivery : Delivery) (msg : Json) : FlightFrame → Prop
  | mk {deliveryId droneId : String} {lat lng altitudeM airspeedKph : Option JsNumber}
      {batteryPercent : Option Int} {phase droneStatus : Option String} :
    msg.get "deliveryId" = some (.string deliveryId) → msg.get "droneId" = some (.string droneId) →
      P.floatColumn (msg.get "lat") = some lat → P.floatColumn (msg.get "lng") = some lng →
      P.floatColumn (msg.get "altitudeM") = some altitudeM →
      P.intColumn (msg.get "batteryPercent") = some batteryPercent →
      P.floatColumn (msg.get "airspeedKph") = some airspeedKph →
      textColumn 32 (msg.get "phase") = some phase →
      textColumn 120 (msg.get "droneStatus") = some droneStatus →
      Framed P delivery msg ⟨deliveryId, delivery.createdAt, droneId, lat, lng, altitudeM, batteryPercent,
        airspeedKph, phase, droneStatus⟩

theorem framed (h : frame P delivery msg = some row) : Framed P delivery msg row := by
  have ⟨v, hv, h⟩ := Option.bind_eq_some_iff.mp h
  split at h
  case h_2 => contradiction
  case h_1 =>
    have ⟨w, hw, h⟩ := Option.bind_eq_some_iff.mp h
    split at h
    case h_2 => contradiction
    case h_1 =>
      have ⟨_, hlat, h⟩ := Option.bind_eq_some_iff.mp h
      have ⟨_, hlng, h⟩ := Option.bind_eq_some_iff.mp h
      have ⟨_, halt, h⟩ := Option.bind_eq_some_iff.mp h
      have ⟨_, hbat, h⟩ := Option.bind_eq_some_iff.mp h
      have ⟨_, hair, h⟩ := Option.bind_eq_some_iff.mp h
      have ⟨_, hpha, h⟩ := Option.bind_eq_some_iff.mp h
      have ⟨_, hsta, h⟩ := Option.bind_eq_some_iff.mp h
      exact Option.some.inj h ▸ .mk hv hw hlat hlng halt hbat hair hpha hsta

theorem Framed.fits (h : Framed P delivery msg row) : Fits P msg := by
  cases h
  case mk hD _ hlat hlng halt hbat hair hpha hsta =>
    exact {
      deliveryId     := ⟨_, hD⟩
      lat            := Option.isSome_of_eq_some hlat
      lng            := Option.isSome_of_eq_some hlng
      altitudeM      := Option.isSome_of_eq_some halt
      batteryPercent := Option.isSome_of_eq_some hbat
      airspeedKph    := Option.isSome_of_eq_some hair
      phase          := Option.isSome_of_eq_some hpha
      droneStatus    := Option.isSome_of_eq_some hsta
    }

-- What an accepted message does is decided by the recorder and the branch that follows it.
theorem ingest_of_accepted (h : Accepted P db msg selects delivery) :
    ∃ positionValid, ingest P R db msg =
      record P R db delivery msg (applyPhase P R db selects delivery msg positionValid) := by
  have ⟨D, hne, ha, hd⟩ := h.assigned
  have hn : msg ≠ .null := by
    rintro rfl
    contradiction
  have ⟨positionValid, hp⟩ := Option.isSome_iff_exists.mp h.position
  refine ⟨positionValid, ?_⟩
  simp [ingest, hn, h.paired, hp, h.selected, h.found, h.live, ha, hd, hne]

end

-- A client that takes no object for a filter or an operation. Fractions are cut off for a column of
-- integers, and an infinity is stored as null.
def Platform.sample : Platform where
  depth              := 4000
  filter _           := none
  filterNullable _   := none
  float
    | .number x   => some <| some x
    | .infinite _ => some none
    | _           => none
  int
    | .number x   =>
      let i := x.toRat.num.tdiv x.toRat.den
      if -2 ^ 31 ≤ i ∧ i < 2 ^ 31 then some <| some i else none
    | .infinite _ => some none
    | _           => none
  floatOperation _   := false
  intOperation _     := false
  reasonOperation _  := false
  float_number _     := rfl
  int_number x i h _ _ := by simp_all

def Rest.none : Rest where
  cooling  := false
  recalls  := false
  issued   := []
  followed := []
  tracked  := []

def Delivery.sample : Delivery where
  id              := "delivery"
  createdAt       := 0
  status          := .inTransit
  trackingSource  := .live
  assignedDroneId := some "drone"

def Tables.sample : Tables where
  deliveries := [.sample]
  drones     := []
  commands   := []

end Drovery.Broker
