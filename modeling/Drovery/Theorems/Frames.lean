import Drovery.Concurrency.Sequential
import Drovery.Theorems.Broker

-- What the broker delivers is a frame of the platform as well, but for the types of its fields.
namespace Drovery

open Concurrency

-- The transition that a frame asks for (if any).
def TelemetryMessage.moves (m : TelemetryMessage) : Option Transition :=
  match m.phase with
  | some (.happy phase)          => some <| .advance (phaseToStatus phase)
  | some (.exception .failed)    =>
    some <| .fail DeliveryStatus.failableStatuses (m.failureReason.getD .mechanical)
  | some (.exception .returning) => some <| .beginReturn (m.failureReason.getD .weatherAbort)
  | some (.exception .returned)  => some .completeReturn
  | _                            => none

-- It is the first thing that the platform tries.
theorem TelemetryMessage.trace_of_moves {m : TelemetryMessage} {delivery : Delivery} {tr : Transition}
    {positionValid : Bool} {faults : CleanupFaults} {s : Store} (h : m.moves = some tr) :
    ∃ later, Method.trace Stmt.exec (match m.phase with
        | some (.exception phase) => TelemetryService.ingestException phase m positionValid faults
        | some (.happy phase)     =>
          TelemetryService.ingestHappy delivery m positionValid (some phase)
        | _                       => TelemetryService.ingestHappy delivery m positionValid none) s =
      .delivery (.transition none m.deliveryId tr) :: later := by
  unfold moves at h
  cases hp : m.phase <;> rw [hp] at h
  case none => contradiction
  case some phase =>
    cases phase
    case happy phase =>
      obtain rfl := Option.some.inj h
      exact ⟨_, rfl⟩
    case exception phase =>
      cases phase <;> obtain rfl := Option.some.inj h <;> exact ⟨_, rfl⟩
    case other => contradiction

namespace Broker

variable {P : Platform} {R : Rest} {db : Tables} {selects : String → Bool} {msg : Json}
variable {delivery : Delivery} {positionValid : Bool} {m : TelemetryMessage}

-- The phase of a frame as the platform distinguishes it. Arrays are taken for their texts.
def phase (P : Platform) : Option Json → Option DronePhase
  | none   => none
  | some v =>
    match exceptionPhase (some v) with
    | some phase => some <| .exception phase
    | none       =>
      if Json.truthy (some v) then
        match (v.text P.depth).bind fun key => happyPhases.lookup key with
        | some phase => some <| .happy phase
        | none       => some .other
      else
        some .other

theorem isSome_phase {v : Option Json} : (phase P v).isSome = decide (v ≠ none) := by
  unfold phase
  split
  case h_1 => rfl
  case h_2 =>
    split
    case h_1 => rfl
    case h_2 =>
      split
      case isTrue  => split <;> rfl
      case isFalse => rfl

-- Everything that the branches on the phase and on the position depend on is the same.
structure Reads (P : Platform) (msg : Json) (m : TelemetryMessage) : Prop where
  phase    : m.phase = phase P (msg.get "phase")
  reason   : P.updatesReason (msg.get "failureReason")
  position : m.position.isSome = hasPosition msg

-- The deliveries that are moved are those on which the platform succeeds with the transition.
theorem Reads.mem_sources_iff (h : Reads P msg m) {status : DeliveryStatus} :
    status ∈ sources P msg ↔ ∃ tr, m.moves = some tr ∧ tr.source status := by
  rw [sources, TelemetryMessage.moves, h.phase, h.reason]
  cases msg.get "phase"
  case none => simp [exceptionPhase, Json.truthy, Broker.phase]
  case some v =>
    dsimp only [Broker.phase]
    cases exceptionPhase (some v)
    case some phase => cases phase <;> simp [Transition.source]
    case none =>
      cases Json.truthy (some v)
      case false => simp
      case true =>
        simp only [Option.bind_some]
        cases (v.text P.depth).bind fun key => happyPhases.lookup key <;> simp [Transition.source]

-- When the platform stores a position, if only as a sign of life.
theorem isEmpty_trace_writePosition {row : Drovery.Delivery} {applied : Option DeliveryStatus}
    {s : Store} :
    (Method.trace Stmt.exec (TelemetryService.writePosition row m positionValid applied) s).isEmpty =
      !if positionValid then
        applied.isSome || !(m.phase.isSome && applied.isNone) &&
          !decide (row.status ∈ DeliveryStatus.positionFrozenStatuses)
      else
        m.position.isSome && !decide (row.status ∈ DeliveryStatus.positionFrozenStatuses) := by
  unfold TelemetryService.writePosition
  generalize decide (row.status ∈ DeliveryStatus.positionFrozenStatuses) = frozen
  generalize m.phase.isSome = phased, m.position.isSome = positioned
  cases positionValid
  case false => cases positioned <;> cases frozen <;> rfl
  case true  => cases applied <;> cases phased <;> cases frozen <;> rfl

-- A position is stored if and only if the platform stores it.
theorem Reads.writePosition (h : Reads P msg m) {D : String}
    (hD : msg.get "deliveryId" = some (.string D)) {row : Drovery.Delivery}
    (hs : row.status = delivery.status) (applied : Option DeliveryStatus) (s : Store) :
    writePosition R delivery msg positionValid applied.isSome =
      if (Method.trace Stmt.exec (TelemetryService.writePosition row m positionValid applied) s).isEmpty
      then [] else R.tracked := by
  have hp : m.phase.isSome = decide (msg.get "phase" ≠ none) := h.phase ▸ isSome_phase
  rw [isEmpty_trace_writePosition, hs, hp, h.position]
  unfold Broker.writePosition
  rw [hD]
  by_cases hf : delivery.status ∈ DeliveryStatus.positionFrozenStatuses
  case pos => cases positionValid <;> cases applied <;> simp [hf]
  case neg =>
    cases positionValid
    case false => cases hasPosition msg <;> simp [hf]
    case true  => cases applied <;> simp [hf]

end Broker

end Drovery
