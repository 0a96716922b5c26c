import Drovery.Theorems.FlightLog

namespace Drovery.Broker

-- The payload is an object that has all of these ids.
def HasIds (keys : List String) (raw : String) : Prop :=
  ∃ frame, Json.parse raw = some frame ∧ ∀ key ∈ keys, ∃ s, frame.get key = some (.string s)

-- The frame would update a drone.
def MovesDrones (P : Platform) (db : Tables) (msg : Json) : Prop :=
  (hasPosition msg ∨ present (msg.get "batteryPercent")) ∧ updatesDrone P msg ∧
    ∃ selects, P.whereNullable (msg.get "deliveryId") = some selects ∧
      ∃ d ∈ db.drones, selects d.activeDeliveryId

-- The statuses that the phase of the frame leads out of.
def sources (P : Platform) (msg : Json) : List DeliveryStatus :=
  let reasonFits := P.updatesReason (msg.get "failureReason")
  match exceptionPhase <| msg.get "phase" with
  | some .failed    => if reasonFits then DeliveryStatus.failableStatuses else []
  | some .returning => if reasonFits then DeliveryStatus.returnableStatuses else []
  | some .returned  => [.returning]
  | none            =>
    if ¬Json.truthy (msg.get "phase") then
      []
    else
      match ((msg.get "phase").bind <| Json.text P.depth).bind fun key => happyPhases.lookup key with
      | none       => []
      | some phase => DeliveryStatus.statusesBefore <| phaseToStatus phase

def MovesDeliveries (P : Platform) (db : Tables) (selects : String → Bool) (msg : Json) : Prop :=
  ∃ d ∈ db.deliveries, selects d.id ∧ d.status ∈ sources P msg

-- It would be checked whether a drone has to be recalled.
def Examined (P : Platform) (R : Rest) (db : Tables) (delivery : Delivery) (msg : Json) : Prop :=
  present (msg.get "batteryPercent") ∧ hasPosition msg ∧ exceptionPhase (msg.get "phase") = none ∧
    delivery.status ∈ DeliveryStatus.returnableStatuses ∧ ¬R.cooling ∧
    ∃ selects, P.whereNullable (msg.get "deliveryId") = some selects ∧
      ∃ d ∈ db.drones, selects d.activeDeliveryId

section

variable {P : Platform} {R : Rest} {db : Tables} {msg : Json} {selects : String → Bool}
variable {delivery : Delivery} {allowed : List DeliveryStatus} {hits rest : List Row}
variable {positionValid : Bool}

theorem follow_eq_nil : R.follow hits = [] ↔ hits = [] := by
  rw [Rest.follow]
  split
  case isTrue h  => exact ⟨fun _ => h, fun _ => rfl⟩
  case isFalse h => exact ⟨fun ha => (List.append_eq_nil_iff.mp ha).left, fun he => absurd he h⟩

theorem transition_eq_nil :
    transition db selects allowed = [] ↔ ¬∃ d ∈ db.deliveries, selects d.id ∧ d.status ∈ allowed := by
  simp [transition]

theorem advance_eq (h : exceptionPhase (msg.get "phase") = none) :
    (advance P db selects msg).getD [] = transition db selects (sources P msg) := by
  have hnil : transition db selects [] = [] := transition_eq_nil.mpr <| by simp
  rw [advance, sources, h]
  split
  case h_1 hp => simp [hp, hnil, Json.truthy]
  case h_2 phase hp =>
    rw [hp]
    split
    case isTrue  => exact hnil.symm
    case isFalse =>
      cases hk : phase.text P.depth
      case none => simp [hk, hnil]
      case some key => cases hl : happyPhases.lookup key <;> simp [hk, hl, hnil]

theorem writePosition_of_unnamed (hn : ∀ s, msg.get "deliveryId" ≠ some (.string s)) {applied : Bool} :
    writePosition R delivery msg positionValid applied = [] := by
  rw [writePosition]
  split
  case h_1 h => exact absurd h (hn _)
  case h_2   => rfl

theorem applyPhase_eq_nil (hn : ∀ s, msg.get "deliveryId" ≠ some (.string s)) :
    applyPhase P R db selects delivery msg positionValid = [] ↔ ¬MovesDeliveries P db selects msg := by
  rw [MovesDeliveries, ← transition_eq_nil, applyPhase]
  cases hp : exceptionPhase (msg.get "phase")
  case none =>
    rw [← advance_eq hp, ingestHappy]
    cases advance P db selects msg
    case none      => simp
    case some hits => simp [writePosition_of_unnamed hn]
  case some phase =>
    have hnil : transition db selects [] = [] := transition_eq_nil.mpr <| by simp
    cases phase <;> rw [sources, hp] <;> dsimp only [ingestException]
    case failed    => split <;> simp [follow_eq_nil, hnil]
    case returning => split <;> simp [follow_eq_nil, hnil]
    case returned  => exact follow_eq_nil

theorem updateDroneState_of_printable (h : P.printable (msg.get "deliveryId")) :
    ∃ drones, updateDroneState P db msg = some drones ∧ (drones = [] ↔ ¬MovesDrones P db msg) := by
  rw [updateDroneState]
  split
  case isTrue hm =>
    refine ⟨[], rfl, iff_of_true rfl fun hd => ?_⟩
    exact hd.left.elim hm.left hm.right
  case isFalse hm =>
    have hm : hasPosition msg ∨ present (msg.get "batteryPercent") := by simpa [or_iff_not_imp_left] using hm
    split
    case h_1 selects hs hu => exact ⟨_, rfl, by simp [MovesDrones, hm, hs, hu]⟩
    case h_2 hn =>
      refine ⟨[], rfl, iff_of_true rfl fun ⟨_, hu, selects, hs, _⟩ => ?_⟩
      exact hn selects hs hu

-- For a frame without an id of a delivery, the check whether a drone has to be recalled has no effect,
-- unless it throws.
inductive Checked (P : Platform) (R : Rest) (db : Tables) (delivery : Delivery) (msg : Json) :
    Option (List Row) → Prop
  | throws : Examined P R db delivery msg → ¬isReading P msg → Checked P R db delivery msg none
  | passes : (Examined P R db delivery msg → isReading P msg) → Checked P R db delivery msg (some [])

theorem checked (hn : ∀ s, msg.get "deliveryId" ≠ some (.string s))
    (h : P.printable (msg.get "deliveryId")) :
    Checked P R db delivery msg (maybeRecall P R db delivery msg) := by
  rw [maybeRecall]
  split
  case isTrue hb =>
    exact .passes fun he => hb.elim (absurd he.left) (absurd he.right.left)
  case isFalse hb =>
    rw [not_or, not_not, not_not] at hb
    split
    case isTrue hp =>
      refine .passes fun he => ?_
      rw [he.right.right.left] at hp
      contradiction
    case isFalse hp =>
      split
      case isTrue hs =>
        refine .passes fun he => ?_
        have ⟨hr, hc, _⟩ := he.right.right.right
        exact hs.elim (absurd hr) (fun h => absurd h hc)
      case isFalse hs =>
        rw [not_or, not_not] at hs
        split
        case h_1 hd =>
          refine .passes fun he => ?_
          have ⟨_, _, selects, hw, d, hm, hsel⟩ := he.right.right.right
          rw [hw] at hd
          exact absurd hsel <| List.find?_eq_none.mp hd d hm
        case h_2 hd =>
          have ⟨selects, hw, hd⟩ := Option.bind_eq_some_iff.mp hd
          have hsel := @List.find?_some _ _ _ _ hd
          have hp := Option.not_isSome_iff_eq_none.mp hp
          have he : Examined P R db delivery msg :=
            ⟨hb.left, hb.right, hp, hs.left, hs.right, selects, hw, _, List.mem_of_find?_eq_some hd, hsel⟩
          split
          case isTrue hr => exact .throws he hr
          case isFalse hr =>
            have hr := not_not.mp hr
            split
            case isTrue => exact .passes fun _ => hr
            case isFalse =>
              split
              case h_1 hD => exact absurd hD (hn _)
              case h_2    => rw [if_pos h]; exact .passes fun _ => hr

theorem ingest_of_not_accepted (h : ∀ selects delivery, ¬Accepted P db msg selects delivery) :
    ingest P R db msg = {} := by
  rw [ingest]
  split
  case isTrue => rfl
  case isFalse =>
    split
    case isTrue => rfl
    case isFalse hl =>
      split
      case h_2 => rfl
      case h_1 hp hs =>
        split
        case h_1 => rfl
        case h_2 delivery hf =>
          split
          case isTrue => rfl
          case isFalse ht =>
            split
            case isTrue => rfl
            case isFalse hd =>
              rw [not_or, not_not] at hd
              cases hD : delivery.assignedDroneId <;> rw [hD] at hd
              case none => exact absurd rfl hd.left
              case some D =>
                exact absurd ⟨not_not.mp hl, Option.isSome_of_eq_some hp, hs, hf, not_not.mp ht, D,
                  hd.left, hD, hd.right⟩ (h _ delivery)

-- An accepted frame without an id writes no row.
structure Idle (P : Platform) (R : Rest) (db : Tables) (selects : String → Bool) (delivery : Delivery)
    (msg : Json) : Prop where
  drones     : ¬MovesDrones P db msg
  deliveries : (Examined P R db delivery msg → isReading P msg) → ¬MovesDeliveries P db selects msg

theorem written_eq_nil_iff (hn : ∀ s, msg.get "deliveryId" ≠ some (.string s))
    (ha : Accepted P db msg selects delivery) : (ingest P R db msg).written = [] ↔
      (P.printable (msg.get "deliveryId") → Idle P R db selects delivery msg) := by
  obtain ⟨positionValid, hi⟩ := @ingest_of_accepted P R db msg selects delivery ha
  have hf : frame P delivery msg = none := by
    cases hf : frame P delivery msg
    case none => rfl
    case some =>
      obtain ⟨s, hs⟩ := (framed hf).fits.deliveryId
      exact absurd hs (hn s)
  rw [hi, record, append, hf]
  dsimp only
  by_cases hp : P.printable (msg.get "deliveryId")
  case neg => simp [hp]
  case pos =>
    obtain ⟨drones, hu, hd⟩ := @updateDroneState_of_printable P db msg hp
    have hb := @applyPhase_eq_nil P R db msg selects delivery positionValid hn
    rw [if_pos hp, hu]
    have hc := @checked P R db msg delivery hn hp
    generalize maybeRecall P R db delivery msg = recalled at hc
    cases hc
    case throws he hr =>
      constructor
      case mp  => exact fun hw _ => ⟨hd.mp hw, fun h => absurd (h he) hr⟩
      case mpr => exact fun hw => hd.mpr (hw hp).drones
    case passes hr =>
      constructor
      case mp =>
        intro hw _
        obtain ⟨hw, hr⟩ := List.append_eq_nil_iff.mp hw
        exact ⟨hd.mp <| (List.append_eq_nil_iff.mp hw).left, fun _ => hb.mp hr⟩
      case mpr =>
        intro hw
        obtain ⟨hnd, hnl⟩ := hw hp
        simp [hd.mpr hnd, hb.mpr (hnl hr)]

end

-- No frame of telemetry breaks the handler, however the ingest settles, or writes a row without the ids.
structure TelemetryUnbroken (P : Platform) (R : Rest) (db : Tables) (settles : Json → Settled)
    (raw : String) : Prop where
  resolves : (handleMessage (fun msg => (settles msg, ingest P R db msg)) raw).fst = .resolved
  harmless : ¬HasIds ["deliveryId", "droneId"] raw →
    (handleMessage (fun msg => (settles msg, ingest P R db msg)) raw).snd.written = []

-- The ingest does not reject with a value that has no properties. If it accepts a message, then either
-- its delivery is given by a string, or no drone and no delivery would be moved.
structure TelemetryGuarded (P : Platform) (R : Rest) (db : Tables) (settles : Json → Settled)
    (raw : String) : Prop where
  readable : ∀ msg, Json.parse raw = some msg → settles msg ≠ .rejected none
  confined : ∀ msg selects delivery, Json.parse raw = some msg →
    Accepted P db msg selects delivery → (∀ s, msg.get "deliveryId" ≠ some (.string s)) →
      P.printable (msg.get "deliveryId") → Idle P R db selects delivery msg

theorem caught_eq_resolved {logged : Bool} {s : Settled} : caught logged s = .resolved ↔
    ∀ message, s = .rejected message → logged ∧ message.isSome := by
  cases s
  case resolved         => simp [caught]
  case rejected message =>
    rw [caught]
    split
    case isTrue h  => exact iff_of_true rfl fun _ he => Settled.rejected.inj he ▸ h
    case isFalse h => exact iff_of_false nofun fun ha => h (ha _ rfl)

theorem handleMessage_some {core : Json → Settled × Effects} {raw : String} {msg : Json}
    (h : Json.parse raw = some msg) :
    handleMessage core raw = (caught true (core msg).fst, (core msg).snd) := by
  rw [handleMessage, h]

theorem telemetry_unbroken_iff {P : Platform} {R : Rest} {db : Tables} {settles : Json → Settled}
    {raw : String} : TelemetryUnbroken P R db settles raw ↔ TelemetryGuarded P R db settles raw := by
  cases hp : Json.parse raw
  case none =>
    have hh : handleMessage (fun msg => (settles msg, ingest P R db msg)) raw = (.resolved, {}) := by
      rw [handleMessage, hp]
    have hn (msg : Json) : Json.parse raw ≠ some msg := by rw [hp]; nofun
    exact iff_of_true ⟨by rw [hh], fun _ => by rw [hh]⟩
      ⟨fun msg h => absurd h (hn msg), fun msg _ _ h => absurd h (hn msg)⟩
  case some msg =>
    have hh : handleMessage (fun msg => (settles msg, ingest P R db msg)) raw =
        (caught true (settles msg), ingest P R db msg) := handleMessage_some hp
    have hi : HasIds ["deliveryId", "droneId"] raw ↔
        ∀ key ∈ ["deliveryId", "droneId"], ∃ s, msg.get key = some (.string s) := by
      constructor
      case mp  => rintro ⟨_, hp', hk⟩; exact Option.some.inj (hp.symm.trans hp') ▸ hk
      case mpr => exact fun hk => ⟨msg, hp, hk⟩
    constructor
    case mp =>
      intro ⟨hr, hw⟩
      rw [hh] at hr hw
      constructor
      case readable =>
        intro msg' hp' he
        obtain rfl := Option.some.inj (hp.symm.trans hp')
        exact absurd (caught_eq_resolved.mp hr _ he).right nofun
      case confined =>
        intro msg' selects delivery hp' ha hn
        obtain rfl := Option.some.inj (hp.symm.trans hp')
        refine (written_eq_nil_iff hn ha).mp <| hw fun hk => ?_
        have ⟨s, hs⟩ := hi.mp hk "deliveryId" (.head _)
        exact hn s hs
    case mpr =>
      intro ⟨hr, hc⟩
      constructor <;> rw [hh] <;> dsimp only
      case resolves =>
        refine caught_eq_resolved.mpr fun message he => ⟨rfl, ?_⟩
        cases message
        case none => exact absurd he (hr msg hp)
        case some => rfl
      case harmless =>
        intro hk
        by_cases ha : ∃ selects delivery, Accepted P db msg selects delivery
        case neg =>
          rw [ingest_of_not_accepted fun selects delivery h => ha ⟨selects, delivery, h⟩]
        case pos =>
          have ⟨selects, delivery, ha⟩ := ha
          have hn (s : String) : msg.get "deliveryId" ≠ some (.string s) := by
            intro hs
            have ⟨D, _, _, hd⟩ := ha.assigned
            refine hk <| hi.mpr fun key hm => ?_
            cases hm
            case head => exact ⟨s, hs⟩
            case tail hm => exact ⟨D, List.mem_singleton.mp hm ▸ hd⟩
          exact (written_eq_nil_iff hn ha).mpr <| hc msg selects delivery hp ha hn

-- A command that the drone owns is selected.
structure Owned (P : Platform) (db : Tables) (commandId droneId : Json) (selects : String → Bool)
    (command : Command) (delivery : Delivery) : Prop where
  selected : P.whereId (some commandId) = some selects
  found    : db.commands.find? (selects ·.id) = some command
  joined   : db.deliveries.find? (·.id = command.deliveryId) = some delivery
  drone    : droneId = .string command.droneId
  live     : delivery.trackingSource = .live
  assigned : some droneId = delivery.assignedDroneId.map .string

-- The statuses in which an acknowledgement writes a command. An expired command is closed.
def claimed (now : Time) (command : Command) (note : Option Json) : List DroneCommandStatus :=
  if command.expiresAt ≤ now then [.pending, .fetched]
  else if (textColumn 200 note).isSome then [.fetched]
  else []

section

variable {P : Platform} {R : Rest} {db : Tables} {now : Time} {commandId droneId accept : Json}
variable {note : Option Json} {selects : String → Bool} {command : Command} {delivery : Delivery}
variable {allowed : List DroneCommandStatus} {frame : Json} {raw : String}

theorem updateCommands_eq_nil :
    updateCommands db selects allowed = [] ↔ ¬∃ c ∈ db.commands, selects c.id ∧ c.status ∈ allowed := by
  simp [updateCommands]

theorem ack_of_owned (h : Owned P db commandId droneId selects command delivery) :
    (ack P R db now commandId droneId accept note).written = [] ↔
      ¬∃ c ∈ db.commands, selects c.id ∧ c.status ∈ claimed now command note := by
  have hnil : updateCommands db selects [] = [] := updateCommands_eq_nil.mpr <| by simp
  have hd : ¬(droneId ≠ .string command.droneId ∨ delivery.trackingSource ≠ .live ∨
      some droneId ≠ delivery.assignedDroneId.map .string) := by
    rw [not_or, not_or, not_not, not_not, not_not]
    exact ⟨h.drone, h.live, h.assigned⟩
  rw [← updateCommands_eq_nil, ack, h.selected]
  dsimp only
  rw [h.found]
  dsimp only
  rw [h.joined]
  dsimp only
  rw [if_neg hd, claimed]
  split
  case isTrue => rfl
  case isFalse =>
    cases textColumn 200 note
    case none   => exact iff_of_true rfl hnil
    case some _ =>
      dsimp only [Option.isSome_some]
      split
      case isTrue  => rfl
      case isFalse => exact follow_eq_nil

theorem ack_of_not_owned (h : ∀ selects command delivery, ¬Owned P db commandId droneId selects command delivery) :
    ack P R db now commandId droneId accept note = {} := by
  rw [ack]
  split
  case h_1 => rfl
  case h_2 hs =>
    split
    case h_1 => rfl
    case h_2 hf =>
      split
      case h_1 => rfl
      case h_2 hj =>
        split
        case isTrue => rfl
        case isFalse hd =>
          rw [not_or, not_or, not_not, not_not, not_not] at hd
          exact absurd ⟨hs, hf, hj, hd.left, hd.right.left, hd.right.right⟩ (h _ _ _)

end

-- No acknowledgement breaks the handler, however it settles, or writes a row without the ids.
structure AckUnbroken (P : Platform) (R : Rest) (db : Tables) (now : Time)
    (settles : Json → Json → Json → Option Json → Settled) (raw : String) : Prop where
  resolves : (handleAck P (fun c d a n => (settles c d a n, ack P R db now c d a n)) raw).fst = .resolved
  harmless : ¬HasIds ["commandId", "droneId"] raw →
    (handleAck P (fun c d a n => (settles c d a n, ack P R db now c d a n)) raw).snd.written = []

-- An error can be written to the log together with the id of the command. If a command is selected that
-- the drone owns, then either its id is given by a string, or no command would be written.
def Guarded (P : Platform) (db : Tables) (now : Time)
    (settles : Json → Json → Json → Option Json → Settled) (frame commandId droneId : Json) : Prop :=
  match slice (frame.get "note") with
  | none      => P.printable commandId
  | some note =>
    (∀ message, settles commandId droneId (accepted frame) note = .rejected message →
      P.printable commandId ∧ message.isSome) ∧
    ∀ selects command delivery, Owned P db commandId droneId selects command delivery →
      (∀ s, commandId ≠ .string s) →
        ¬∃ c ∈ db.commands, selects c.id ∧ c.status ∈ claimed now command note

-- The payload is not `null`, and guarded if it has both ids.
structure AckGuarded (P : Platform) (db : Tables) (now : Time)
    (settles : Json → Json → Json → Option Json → Settled) (raw : String) : Prop where
  not_null : Json.parse raw ≠ some .null
  guarded  : ∀ frame commandId droneId, Json.parse raw = some frame →
    ids frame = some (commandId, droneId) → Guarded P db now settles frame commandId droneId

section

variable {P : Platform} {R : Rest} {db : Tables} {now : Time} {commandId droneId : Json}
variable {settles : Json → Json → Json → Option Json → Settled} {frame : Json} {raw : String}
variable {core : Json → Json → Json → Option Json → Settled × Effects} {note : Option Json}

theorem get_of_ids (h : ids frame = some (commandId, droneId)) :
    frame.get "commandId" = some commandId ∧ frame.get "droneId" = some droneId := by
  rw [ids] at h
  split at h
  case h_2 => contradiction
  case h_1 hc hd =>
    have ⟨_, he⟩ := Option.ite_none_right_eq_some.mp h
    have ⟨h₁, h₂⟩ := Prod.mk.inj <| Option.some.inj he
    exact ⟨h₁ ▸ hc, h₂ ▸ hd⟩

theorem handleAck_of_ids (hp : Json.parse raw = some frame) (hi : ids frame = some (commandId, droneId)) :
    handleAck P core raw = match slice (frame.get "note") with
      | none      => (caught (P.printable commandId) <| .rejected <| some "TypeError", {})
      | some note =>
        (caught (P.printable commandId) (core commandId droneId (accepted frame) note).fst,
          (core commandId droneId (accepted frame) note).snd) := by
  rw [handleAck, hp]
  split
  case h_1 h => contradiction
  case h_2 h =>
    obtain rfl := Option.some.inj h
    contradiction
  case h_3 h =>
    obtain rfl := Option.some.inj h
    cases slice (frame.get "note") <;> simp only [hi]

-- How the handler treats a payload.
inductive Handled (P : Platform) (raw : String) : Prop
  | dropped : (∀ core, handleAck P core raw = (.resolved, {})) → Json.parse raw ≠ some .null →
    (∀ frame, Json.parse raw = some frame → ids frame = none) → Handled P raw
  | null : (∀ core, handleAck P core raw = (.rejected <| some "TypeError", {})) →
    Json.parse raw = some .null → Handled P raw
  | acked {frame commandId droneId : Json} : Json.parse raw = some frame →
    ids frame = some (commandId, droneId) → Handled P raw

theorem handled (P : Platform) (raw : String) : Handled P raw := by
  cases hp : Json.parse raw
  case none =>
    refine .dropped (fun core => ?_) (by rw [hp]; nofun) (by rw [hp]; nofun)
    rw [handleAck, hp]
  case some frame =>
    cases hi : ids frame
    case some => exact .acked hp hi
    case none =>
      by_cases hn : frame = .null
      case pos =>
        subst hn
        refine .null (fun core => ?_) hp
        rw [handleAck, hp]
      case neg =>
        refine .dropped (fun core => ?_) ?_ ?_
        · rw [handleAck, hp]
          split
          case h_1 h => contradiction
          case h_2 h => exact absurd (Option.some.inj h) hn
          case h_3 h =>
            obtain rfl := Option.some.inj h
            rw [hi]
        · rw [hp]
          exact fun h => hn <| Option.some.inj h
        · intro frame' hp'
          exact Option.some.inj (hp.symm.trans hp') ▸ hi

theorem hasIds_iff (hp : Json.parse raw = some frame) (hi : ids frame = some (commandId, droneId)) :
    HasIds ["commandId", "droneId"] raw ↔ (∃ s, commandId = .string s) ∧ ∃ s, droneId = .string s := by
  have ⟨hc, hd⟩ := get_of_ids hi
  constructor
  case mp =>
    rintro ⟨_, hp', hk⟩
    obtain rfl := Option.some.inj (hp.symm.trans hp')
    have ⟨s, hs⟩ := hk "commandId" (.head _)
    have ⟨t, ht⟩ := hk "droneId" (.tail _ <| .head _)
    exact ⟨⟨s, Option.some.inj <| hc.symm.trans hs⟩, ⟨t, Option.some.inj <| hd.symm.trans ht⟩⟩
  case mpr =>
    intro ⟨⟨s, hs⟩, ⟨t, ht⟩⟩
    refine ⟨frame, hp, fun key hm => ?_⟩
    cases hm
    case head => exact ⟨s, hs ▸ hc⟩
    case tail hm => exact ⟨t, List.mem_singleton.mp hm ▸ ht ▸ hd⟩

theorem ack_harmless_iff (hp : Json.parse raw = some frame) (hi : ids frame = some (commandId, droneId))
    {accept : Json} : (¬HasIds ["commandId", "droneId"] raw →
      (ack P R db now commandId droneId accept note).written = []) ↔
    ∀ selects command delivery, Owned P db commandId droneId selects command delivery →
      (∀ s, commandId ≠ .string s) →
        ¬∃ c ∈ db.commands, selects c.id ∧ c.status ∈ claimed now command note := by
  rw [hasIds_iff hp hi]
  constructor
  case mp =>
    intro hw selects command delivery ho hn
    exact (ack_of_owned ho).mp <| hw fun ⟨⟨s, hs⟩, _⟩ => hn s hs
  case mpr =>
    intro hc hk
    by_cases ho : ∃ selects command delivery, Owned P db commandId droneId selects command delivery
    case neg =>
      rw [ack_of_not_owned fun selects command delivery h => ho ⟨selects, command, delivery, h⟩]
    case pos =>
      have ⟨selects, command, delivery, ho⟩ := ho
      exact (ack_of_owned ho).mpr <| hc selects command delivery ho fun s hs => hk ⟨⟨s, hs⟩, _, ho.drone⟩

theorem guarded_iff (hp : Json.parse raw = some frame) (hi : ids frame = some (commandId, droneId)) :
    AckUnbroken P R db now settles raw ↔ Guarded P db now settles frame commandId droneId := by
  have hh := @handleAck_of_ids P commandId droneId frame raw
    (fun c d a n => (settles c d a n, ack P R db now c d a n)) hp hi
  rw [Guarded]
  cases hs : slice (frame.get "note") <;> rw [hs] at hh
  case none =>
    constructor
    case mp =>
      intro h
      have hr := h.resolves
      rw [hh] at hr
      exact (caught_eq_resolved.mp hr _ rfl).left
    case mpr =>
      intro h
      constructor <;> rw [hh] <;> dsimp only
      case resolves =>
        refine caught_eq_resolved.mpr fun message he => ?_
        obtain rfl := Settled.rejected.inj he
        exact ⟨h, rfl⟩
      case harmless => exact fun _ => rfl
  case some note =>
    dsimp only at hh ⊢
    rw [← @ack_harmless_iff P R db now commandId droneId frame raw note hp hi (accepted frame),
      ← caught_eq_resolved]
    constructor
    case mp =>
      intro ⟨hr, hw⟩
      rw [hh] at hr hw
      exact ⟨hr, hw⟩
    case mpr =>
      intro ⟨hr, hw⟩
      constructor <;> rw [hh]
      case resolves => exact hr
      case harmless => exact hw

theorem ack_unbroken_iff : AckUnbroken P R db now settles raw ↔ AckGuarded P db now settles raw := by
  cases handled P raw
  case dropped hh hn hi =>
    refine iff_of_true ⟨by rw [hh], fun _ => by rw [hh]⟩ ⟨hn, fun frame _ _ hp he => ?_⟩
    rw [hi frame hp] at he
    contradiction
  case null hh hp =>
    refine iff_of_false (fun h => ?_) (fun h => h.not_null hp)
    have hr := h.resolves
    rw [hh] at hr
    contradiction
  case acked frame commandId droneId hp hi =>
    rw [guarded_iff hp hi]
    constructor
    case mpr => exact fun h => h.guarded _ _ _ hp hi
    case mp =>
      intro h
      constructor
      case not_null =>
        intro hn
        obtain rfl := Option.some.inj (hp.symm.trans hn)
        contradiction
      case guarded =>
        intro _ _ _ hp' hi'
        obtain rfl := Option.some.inj (hp.symm.trans hp')
        have ⟨hc, hd⟩ := Prod.mk.inj <| Option.some.inj (hi.symm.trans hi')
        exact hc ▸ hd ▸ h

end

-- Exactly the guarded frames break none of the two handlers.
theorem unbroken_iff (P : Platform) (R : Rest) (db : Tables) (now : Time) (settles : Json → Settled)
    (acks : Json → Json → Json → Option Json → Settled) (raw : String) :
    (TelemetryUnbroken P R db settles raw ↔ TelemetryGuarded P R db settles raw) ∧
      (AckUnbroken P R db now acks raw ↔ AckGuarded P db now acks raw) :=
  ⟨telemetry_unbroken_iff, ack_unbroken_iff⟩

def unnamedFrame : Json :=
  .object [("droneId", .string "drone"), ("phase", .string "FAILED")]

theorem parse_unnamedFrame : Json.parse (Json.stringify unnamedFrame) = some unnamedFrame := by
  decide +kernel

theorem written_unnamedFrame :
    (ingest .sample .none .sample unnamedFrame).written = [.delivery "delivery"] := by
  decide +kernel

theorem not_hasIds_unnamedFrame :
    ¬HasIds ["deliveryId", "droneId"] (Json.stringify unnamedFrame) := by
  rintro ⟨frame, hp, hk⟩
  have hf := Option.some.inj <| parse_unnamedFrame.symm.trans hp
  have ⟨_, hs⟩ := hk "deliveryId" (.head _)
  have hn : unnamedFrame.get "deliveryId" = none := by decide +kernel
  rw [← hf, hn] at hs
  exact absurd hs nofun

-- The properties of `null` are read where no error is caught. Without an id all deliveries are selected.
theorem frames_break :
    ¬AckUnbroken .sample .none .sample 0 (fun _ _ _ _ => .resolved) "null" ∧
      ¬TelemetryUnbroken .sample .none .sample (fun _ => .resolved) (Json.stringify unnamedFrame) := by
  constructor
  case left =>
    intro h
    have hp : Json.parse "null" = some .null := by decide +kernel
    have hr := h.resolves
    rw [handleAck, hp] at hr
    contradiction
  case right =>
    intro h
    have hw := h.harmless not_hasIds_unnamedFrame
    rw [handleMessage_some parse_unnamedFrame] at hw
    exact absurd (written_unnamedFrame.symm.trans hw) nofun

end Drovery.Broker
