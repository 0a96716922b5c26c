import Drovery.Theorems.Liveness

namespace Drovery

open Concurrency Method
open DeliveriesService TelemetryService

namespace TelemetryMessage

-- The message carries no position, or one that can be used.
def Usable (msg : TelemetryMessage) : Prop :=
  ∀ pos ∈ msg.position, inBounds pos

-- The message stems from the drone that flies the delivery.
def Accepted (msg : TelemetryMessage) (db : Store) : Prop :=
  ∃ d, db.deliveries.find? msg.deliveryId = some d ∧ d.trackingSource = .live ∧
    d.assignedDroneId = some msg.droneId

-- A position that cannot be used does no harm if the message is turned away, or if there is no
-- airframe that holds the delivery.
def Contained (msg : TelemetryMessage) (db : Store) : Prop :=
  msg.Usable ∨ ¬msg.Accepted db ∨ ∀ X, ¬db.fleet.Claims X msg.deliveryId

end TelemetryMessage

open TelemetryMessage (inBounds)

-- The statement takes a position that cannot be used for that of the delivery or of an airframe, or
-- it recalls an airframe on account of such a position.
inductive Stmt.Misplaces (msg : TelemetryMessage) (db : Store) : Stmt → Prop
  | tracking {D pos} :
    ¬inBounds pos → Misplaces msg db (.effect <| .updateTracking D <| some pos)
  | airframe {D X pos battery} :
    ¬inBounds pos → db.fleet.Claims X D →
    Misplaces msg db (.fleet <| .updateState D (some pos) battery)
  | recalled {C row} : ¬msg.Usable → Misplaces msg db (.command <| .create C row)

-- The runs in which the state of an airframe is only read or written on account of a message whose
-- position can be used, unless there is no such airframe.
def positionsUsable : Policy Stmt.sig Store Call where
  step s _ c x := match c, x with
    | .ingest msg _ _, .fleet (.updateState ..) =>
      msg.Usable ∨ ∀ X, ¬s.db.fleet.Claims X msg.deliveryId
    | .ingest msg _ _, .fleet (.findActive _)   =>
      msg.Usable ∨ ∀ X, ¬s.db.fleet.Claims X msg.deliveryId
    | _,               _                        => True

section

variable {P : Params} {C : CommandId} {msg : TelemetryMessage} {cooling : Bool} {α : Type}
variable {faults : CleanupFaults} {t : Nat} {c : Call} {x : Stmt} {db : Store} {X : DroneId}
variable {es : List (Entry Stmt.sig Store Call)}

-- How the ingest of a message handles its position: only a usable one gets to the tracking row, the
-- airframe is given the position as it is, and it is recalled only if there is one.
structure Proper (msg : TelemetryMessage) (x : Stmt) (es : List (Entry Stmt.sig Store Call)) :
    Prop where
  tracking : ∀ D pos, x = .effect (.updateTracking D (some pos)) → inBounds pos
  airframe : ∀ D pos battery, x = .fleet (.updateState D pos battery) →
    D = msg.deliveryId ∧ pos = msg.position
  recalled : ∀ C row, x = .command (.create C row) →
    ∃ e ∈ es, e.stmt = .fleet (.findActive msg.deliveryId) ∧
      ∃ X, e.pre.fleet.Claims X msg.deliveryId
  claim    : ∀ X D payloadKg, x ≠ .fleet (.claim X D payloadKg)

-- The statements that neither are about positions nor claim or recall an airframe.
def Stmt.Still : Stmt → Prop
  | .effect (.updateTracking _ (some _)) => False
  | .fleet (.updateState ..)             => False
  | .fleet (.claim ..)                   => False
  | .command (.create ..)                => False
  | _                                    => True

theorem Stmt.Concludes.still (h : x.Concludes) : x.Still := by
  cases x
  case fleet x  => cases x <;> first | exact h | trivial
  case effect x => cases x <;> first | exact h.elim | trivial
  case command  => exact h.elim
  all_goals trivial

theorem Stmt.Still.proper (h : x.Still) : Proper msg x es where
  tracking _ _ he   := by subst he; exact h.elim
  airframe _ _ _ he := by subst he; exact h.elim
  recalled _ _ he   := by subst he; exact h.elim
  claim _ _ _ he    := by subst he; exact h.elim

theorem Proper.of_command {y : CommandStmt}
    (h : ∀ C row, y = .create C row → ∃ e ∈ es, e.stmt = .fleet (.findActive msg.deliveryId) ∧
      ∃ X, e.pre.fleet.Claims X msg.deliveryId) : Proper msg (.command y) es where
  tracking _ _ he   := Stmt.noConfusion he
  airframe _ _ _ he := Stmt.noConfusion he
  recalled C row he := h C row (Stmt.command.inj he)
  claim _ _ _ he    := Stmt.noConfusion he

theorem Proper.of_updateState :
    Proper msg (.fleet <| .updateState msg.deliveryId msg.position msg.battery) es where
  tracking _ _ he   := Stmt.noConfusion he
  airframe _ _ _ he := by cases he; exact ⟨rfl, rfl⟩
  recalled _ _ he   := Stmt.noConfusion he
  claim _ _ _ he    := FleetStmt.noConfusion (Stmt.fleet.inj he)

theorem Proper.of_updateTracking {D : DeliveryId} {position : Option (ℚ × ℚ)}
    (h : ∀ pos, position = some pos → inBounds pos) :
    Proper msg (.effect <| .updateTracking D position) es where
  tracking _ pos he := h pos (EffectStmt.updateTracking.inj (Stmt.effect.inj he)).right
  airframe _ _ _ he := Stmt.noConfusion he
  recalled _ _ he   := Stmt.noConfusion he
  claim _ _ _ he    := Stmt.noConfusion he

abbrev IngestFollows (msg : TelemetryMessage) (P : Params) (t : Nat) (c : Call) (p : App α)
    (es : List (Entry Stmt.sig Store Call)) : Prop :=
  p.Follows (system P) t c (Proper msg) (fun _ _ => True) (fun _ _ => True) es

theorem follows_still {p : App α} (hp : Built (Single Stmt.Still) p) :
    IngestFollows msg P t c p es :=
  Follows.of_built hp fun
    | .tx hx => follows_tx.mpr ⟨hx.proper, fun _ => by split <;> trivial⟩

theorem follows_concludes {p : App α} (hp : Built (Piece Stmt.Concludes) p) :
    IngestFollows msg P t c p es :=
  follows_still <| hp.refine fun
    | .tx hx         => .block <| .tx hx.still
    | .releasePromo  => releaseForDelivery_built trivial fun _ => trivial
    | .refundCredits => refundForDelivery_built trivial fun _ _ => trivial
    | .refundCharge  => refundChargeToWallet_built trivial fun _ _ => trivial

theorem follows_stmt (h : Proper msg x es) : IngestFollows msg P t c (App.stmt x) es :=
  follows_tx.mpr ⟨h, fun _ => trivial⟩

theorem follows_ignore {p : App α} (h : IngestFollows msg P t c p es) :
    IngestFollows msg P t c p.safe es :=
  follows_safe.mpr h

theorem follows_seq {β : Type} {p : App α} {f : α → App β} (hp : IngestFollows msg P t c p es)
    (hf : ∀ a es, IngestFollows msg P t c (f a) es) : IngestFollows msg P t c (p >>= f) es :=
  follows_bind.mpr <| hp.mono (fun a es _ => hf a es) fun _ _ _ => trivial

-- An airframe that holds the delivery has been found.
def Found (msg : TelemetryMessage) (es : List (Entry Stmt.sig Store Call)) : Prop :=
  ∃ e ∈ es, e.stmt = .fleet (.findActive msg.deliveryId) ∧
    ∃ X, e.pre.fleet.Claims X msg.deliveryId

theorem issue_follows (h : Found msg es) :
    IngestFollows msg P t c (DroneCommandService.issue C none msg.deliveryId .returnToBase none)
      es := by
  have issue : Built (Single fun x => x.Still ∨ ∃ row, x = .command (.create C row))
      (DroneCommandService.issue C none msg.deliveryId .returnToBase none) :=
    issue_built (.inl trivial) (.inl trivial) (.inl trivial) (fun _ => .inr ⟨_, rfl⟩) (.inl trivial)
  refine (Follows.built issue (R := Found msg) ?_ h).mono (fun _ _ _ => trivial)
    fun _ _ _ => trivial
  rintro _ _ es ⟨hx⟩ h
  have ⟨e, he, hs⟩ := h
  refine follows_tx.mpr ⟨?_, fun db => by split <;> exact ⟨e, .tail _ he, hs⟩⟩
  obtain hx | ⟨row, rfl⟩ := hx
  case inl => exact hx.proper
  case inr => exact .of_command fun _ _ _ => h

theorem claims_of_findActive {now : Time} {fleet : Fleet} {D : DeliveryId} {d : DroneId × Drone}
    (h : (FleetStmt.exec now (.findActive D) fleet).fst = some d) : fleet.Claims d.fst D := by
  have hX : (FleetStmt.exec now (.findHeld D) fleet).fst = some d.fst :=
    congrArg (Option.map Prod.fst) h
  exact Fleet.claims_of_findHeld hX

theorem record_follows {delivery : Delivery} :
    IngestFollows msg P t c (FlightRecorder.record P C delivery msg cooling) es := by
  refine follows_seq (follows_ignore <| follows_stmt <| Stmt.Still.proper trivial) fun _ es => ?_
  refine follows_seq ?_ fun _ es => ?_
  case refine_1 =>
    unfold FlightRecorder.updateDroneState
    split
    case isTrue => trivial
    case isFalse =>
      exact follows_ignore <| follows_stmt .of_updateState
  case refine_2 =>
    unfold FlightRecorder.maybeRecall
    split
    case h_2 => trivial
    case h_1 =>
      split
      case isTrue => trivial
      case isFalse =>
        refine follows_stmt_bind.mpr ⟨Stmt.Still.proper trivial, fun db => ?_⟩
        split
        case h_1     => trivial
        case h_2 hd =>
          split
          case isFalse => trivial
          case isTrue =>
            exact follows_ignore <| issue_follows ⟨_, .head _, rfl, _,
              @claims_of_findActive db.clock _ _ _ hd⟩

-- Only a position that has been checked gets to the tracking row.
theorem updateTracking_follows (h : msg.position.any inBounds) :
    IngestFollows msg P t c
      (App.stmt <| .effect <| .updateTracking msg.deliveryId msg.position).safe es := by
  refine follows_ignore <| follows_stmt <| .of_updateTracking fun pos hp => ?_
  rwa [hp] at h

theorem ingestException_follows {phase : ExceptionPhase} :
    IngestFollows msg P t c
      (ingestException phase msg (msg.position.any inBounds) faults) es := by
  have finish {applied : Bool} {es : List (Entry Stmt.sig Store Call)} : IngestFollows msg P t c
      (if applied && msg.position.any inBounds then
        (App.stmt <| .effect <| .updateTracking msg.deliveryId msg.position).safe
      else pure () : App Unit) es := by
    split
    case isTrue h  => exact updateTracking_follows <| (Bool.and_eq_true_iff.mp h).right
    case isFalse   => trivial
  cases phase
  case failed =>
    exact follows_seq (follows_concludes failExceptional_concludes) fun _ _ => finish
  case returning =>
    exact follows_seq (follows_concludes beginReturnToBase_concludes) fun _ _ => finish
  case returned =>
    exact follows_seq (follows_concludes completeReturnToBase_concludes) fun _ _ => finish

theorem ingestHappy_follows {delivery : Delivery} {phase : Option HappyPhase} :
    IngestFollows msg P t c
      (ingestHappy delivery msg (msg.position.any inBounds) phase) es := by
  refine follows_seq ?_ fun s es => follows_seq ?_ fun positioned es => ?_
  case refine_1 =>
    cases phase
    case none => trivial
    case some => exact follows_seq (follows_stmt <| Stmt.Still.proper trivial) fun _ _ => trivial
  case refine_2 =>
    unfold writePosition
    dsimp only
    split
    case isTrue h =>
      split
      case isTrue  => exact follows_seq (updateTracking_follows h) fun _ _ => trivial
      case isFalse => trivial
    case isFalse =>
      split
      case isTrue =>
        exact follows_seq (follows_ignore <| follows_stmt <| Stmt.Still.proper trivial)
          fun _ _ => trivial
      case isFalse => trivial
  case refine_3 =>
    split
    case isTrue  => trivial
    case isFalse => exact follows_stmt <| Stmt.Still.proper trivial

theorem ingest_follows :
    IngestFollows msg P t c (ingest P C msg cooling faults) es := by
  unfold ingest
  split
  case isTrue => trivial
  case isFalse =>
    refine follows_stmt_bind.mpr ⟨Stmt.Still.proper trivial, fun db => ?_⟩
    split
    case h_1 => trivial
    case h_2 delivery _ =>
      split
      case isTrue => trivial
      case isFalse =>
        split
        case isTrue => trivial
        case isFalse =>
          refine follows_seq record_follows fun _ es => ?_
          split
          case h_1 => exact ingestException_follows
          case h_2 => exact ingestHappy_follows
          case h_3 => exact ingestHappy_follows

section Alone

-- On its own, the method does not misplace anything.
abbrev Careful (msg : TelemetryMessage) (p : App α) (db : Store) : Prop :=
  Throughout Stmt.exec (fun (x : Stmt) db => ¬x.Misplaces msg db) p db

-- What the ingest does as long as there is no airframe to be found for the delivery.
theorem Proper.contained (h : Proper msg x es)
    (hc : msg.Usable ∨ (∀ e ∈ es, ∀ X, ¬e.pre.fleet.Claims X msg.deliveryId) ∧
      ∀ X, ¬db.fleet.Claims X msg.deliveryId) : ¬x.Misplaces msg db := by
  intro hm
  cases hm
  case tracking hb => exact hb <| h.tracking _ _ rfl
  case airframe hb hX =>
    have ⟨hD, hp⟩ := h.airframe _ _ _ rfl
    match hc with
    | .inl hu      => exact hb <| hu _ hp.symm
    | .inr ⟨_, hn⟩ => exact hn _ (hD ▸ hX)
  case recalled hb =>
    have ⟨e, he, _, X, hX⟩ := h.recalled _ _ rfl
    match hc with
    | .inl hu      => exact hb hu
    | .inr ⟨hn, _⟩ => exact hn e he X hX

theorem unclaimed_exec {D : DeliveryId} (hn : ∀ X, ¬db.fleet.Claims X D)
    (hx : ∀ X D payloadKg, x ≠ .fleet (.claim X D payloadKg)) :
    ∀ X, ¬(x.exec db).snd.fleet.Claims X D := by
  intro X hX
  obtain ⟨y, rfl⟩ | he := x.exec_fleet db
  case inl =>
    have hX : Fleet.Claims (y.exec db.clock db.fleet).snd X D := hX
    exact hn X <| hX.of_exec fun p he => hx X D p (he ▸ rfl)
  case inr => exact hn X (he ▸ hX)

theorem careful_of_usable (h : msg.Usable) :
    Careful msg (ingest P C msg cooling faults) db := by
  have hf : IngestFollows msg P 0 (.passTime 0) (ingest P C msg cooling faults) [] :=
    ingest_follows
  let R (_ : List (Entry Stmt.sig Store Call)) (_ : Store) := True
  have hr : R [] db := trivial
  exact hf.throughout hr fun _ hp => ⟨hp.contained <| .inl h, trivial⟩

theorem careful_of_unclaimed (h : ∀ X, ¬db.fleet.Claims X msg.deliveryId) :
    Careful msg (ingest P C msg cooling faults) db := by
  let R (es : List (Entry Stmt.sig Store Call)) (db : Store) :=
    (∀ e ∈ es, ∀ X, ¬e.pre.fleet.Claims X msg.deliveryId) ∧
      ∀ X, ¬db.fleet.Claims X msg.deliveryId
  have hf : IngestFollows msg P 0 (.passTime 0) (ingest P C msg cooling faults) [] :=
    ingest_follows
  have hr : R [] db := ⟨List.forall_mem_nil _, h⟩
  refine hf.throughout hr ?_
  intro x es db hr hp
  refine ⟨hp.contained <| .inr hr, ?_, unclaimed_exec hr.right hp.claim⟩
  exact List.forall_mem_cons.mpr ⟨hr.right, hr.left⟩

-- A message that is turned away has no effect.
theorem careful_of_rejected (h : ¬msg.Accepted db) :
    Careful msg (ingest P C msg cooling faults) db := by
  unfold ingest
  split
  case isTrue => trivial
  case isFalse =>
    refine throughout_stmt_bind.mpr ⟨nofun, ?_⟩
    split
    case h_1 => trivial
    case h_2 d hd =>
      split
      case isTrue => trivial
      case isFalse hl =>
        split
        case isTrue => trivial
        case isFalse ha => exact absurd ⟨d, hd, not_not.mp hl, not_not.mp ha⟩ h

-- A position that cannot be used gets to the airframe that flies the delivery.
theorem contained_of_careful
    (h : Careful msg (ingest P C msg cooling faults) db) :
    msg.Contained db := by
  by_contra hc
  have ⟨hu, ⟨d, hd, hl, ha⟩, X, hX⟩ :
      ¬msg.Usable ∧ msg.Accepted db ∧ ∃ X, db.fleet.Claims X msg.deliveryId := by
    simpa only [TelemetryMessage.Contained, not_or, not_not, not_forall] using hc
  have ⟨pos, hp, hb⟩ : ∃ pos, msg.position = some pos ∧ ¬inBounds pos := by
    simpa only [TelemetryMessage.Usable, not_forall, Option.mem_def, exists_prop] using hu
  have hpair : msg.lat.isSome = msg.lng.isSome := by
    unfold TelemetryMessage.position at hp
    split at hp
    case h_1 hlat hlng => rw [hlat, hlng]; rfl
    case h_2           => contradiction
  have hf : (Stmt.delivery <| .find msg.deliveryId).exec db = (some d, db) := by
    simp [Stmt.exec, DeliveryStmt.exec, hd]
  rw [ingest, if_neg (not_not.mpr hpair)] at h
  have h := (throughout_stmt_bind.mp h).right
  rw [hf] at h
  simp only [hl, ha, ne_eq, not_true, if_false] at h
  have h := (throughout_bind.mp h).left
  have h := (throughout_bind.mp h).right () rfl
  have h := (throughout_bind.mp h).left
  rw [FlightRecorder.updateDroneState, if_neg (by simp [hp]), throughout_safe, hp] at h
  exact h.left <| .airframe hb hX

-- Messages are handled with care when they are on their own, unless they meet all conditions.
theorem careful_iff_contained :
    Careful msg (ingest P C msg cooling faults) db ↔ msg.Contained db where
  mp    := contained_of_careful
  mpr h := match h with
    | .inl hu        => careful_of_usable hu
    | .inr (.inl ha) => careful_of_rejected ha
    | .inr (.inr hn) => careful_of_unclaimed hn

end Alone

section Runs

variable {s : Pool Stmt.sig Store Call}

-- Everything that is known about an airframe's position is in bounds, apart from what is in `K`.
def Fleet.Located (fleet : Fleet) (K : ℚ × ℚ → Prop) : Prop :=
  ∀ X d pos, fleet.find? X = some d → d.currentPosition = some pos → inBounds pos ∨ K pos

def Store.Located (db : Store) : Prop :=
  db.fleet.Located fun _ => False

-- A call other than the ingest of a message has set an airframe to the position.
def Foreign (log : List (Entry Stmt.sig Store Call)) (pos : ℚ × ℚ) : Prop :=
  ∃ e ∈ log, (∃ D battery, e.stmt = .fleet (.updateState D (some pos) battery)) ∧
    ∀ msg cooling faults, e.call ≠ .ingest msg cooling faults

def Call.Proper (c : Call) (x : Stmt) (es : List (Entry Stmt.sig Store Call)) : Prop :=
  match c with
  | .ingest msg _ _ => Drovery.Proper msg x es
  | _               => True

theorem call_proper : ((system P).prog t c).Follows (system P) t c c.Proper (fun _ _ => True) [] := by
  cases c
  case ingest => exact follows_toCall.mpr ingest_follows
  all_goals exact Prog.Follows.of_forall (fun _ _ => trivial) fun _ _ => trivial

-- A thread only issues statements on behalf of its own call.
theorem call_of_own {init : Store → Prop} {e : Entry Stmt.sig Store Call}
    (h : Reachable (system P) positionsUsable init s) (ha : s.AboutTo t c x)
    (he : e ∈ s.world.own t) : e.call = c := by
  have ⟨hm, ht⟩ := List.mem_filter.mp he
  have ⟨th, hth, hc⟩ := h.log_thread e hm
  have ⟨th', hth', hc', _⟩ := ha
  rw [of_decide_eq_true ht] at hth
  obtain rfl := Option.some.inj <| hth.symm.trans hth'
  exact hc.symm.trans hc'

theorem proper_of_aboutTo {init : Store → Prop} (h : Reachable (system P) positionsUsable init s)
    (ha : s.AboutTo t (.ingest msg cooling faults) x) : Proper msg x (s.world.own t) :=
  h.follows_aboutTo (F := fun _ => Call.Proper) (Q := fun _ _ _ => True)
    (fun _ _ _ => call_proper) ha

-- No step of the ingest of a message misplaces anything.
theorem careful_step {init : Store → Prop}
    (st : StepOf (system P) positionsUsable init s t (.ingest msg cooling faults) x) :
    ¬x.Misplaces msg s.db := by
  have hp := proper_of_aboutTo st.reachable st.aboutTo
  intro hm
  cases hm
  case tracking hb => exact hb <| hp.tracking _ _ rfl
  case airframe hb hX =>
    have ⟨hD, hpos⟩ := hp.airframe _ _ _ rfl
    match st.allowed with
    | .inl hu => exact hb <| hu _ hpos.symm
    | .inr hn => exact hn _ (hD ▸ hX)
  case recalled hu =>
    -- The airframe has been looked up in a step that meets the condition as well.
    have ⟨e, he, hs, X, hX⟩ := hp.recalled _ _ rfl
    have hc := call_of_own st.reachable st.aboutTo he
    have ⟨s₀, st₀, hpre⟩ := st.reachable.stepOf (List.mem_of_mem_filter he)
    rw [hs, hc] at st₀
    match st₀.allowed with
    | .inl hu' => exact hu hu'
    | .inr hn  => exact hn X (hpre ▸ hX)

-- What a statement can do to the position of an airframe.
theorem position_exec {d' : Drone} (hd : (x.exec db).snd.fleet.find? X = some d') :
    (∃ d, db.fleet.find? X = some d ∧ d.currentPosition = d'.currentPosition) ∨
      ∃ D pos battery, x = .fleet (.updateState D (some pos) battery) ∧ db.fleet.Claims X D ∧
        d'.currentPosition = some pos := by
  have hr := x.droneChange db X
  rw [hd] at hr
  generalize he : some d' = r at hr
  cases hr
  case same => exact .inl ⟨d', he.symm, rfl⟩
  case claimed d _ hf _ =>
    obtain rfl := Option.some.inj he
    exact .inl ⟨d, hf, rfl⟩
  case released outcome d _ hf _ =>
    obtain rfl := Option.some.inj he
    cases outcome <;> exact .inl ⟨d, hf, rfl⟩
  case updated d _ hf =>
    obtain rfl := Option.some.inj he
    exact .inl ⟨d, hf, rfl⟩
  case tracked D position battery d hx hf =>
    subst hx
    -- Only the airframes that hold the delivery are updated.
    simp only [Stmt.exec, FleetStmt.exec, Table.find?_updateMany, hf, Option.map_some,
      Option.some.injEq] at hd
    split at hd
    case isFalse => exact .inl ⟨d, hf, congrArg Drone.currentPosition hd⟩
    case isTrue hh =>
      subst hd
      cases position
      case none     => exact .inl ⟨d, hf, rfl⟩
      case some pos => exact .inr ⟨D, pos, battery, rfl, ⟨d, hf, of_decide_eq_true hh⟩, rfl⟩

-- An airframe only gets to a position that cannot be used by means of another call.
theorem located_reachable
    (h : Reachable (system P) positionsUsable Store.Located s) :
    s.db.fleet.Located (Foreign s.log) := by
  refine h.invariant (I := fun w => w.db.fleet.Located (Foreign w.log))
    (fun hi X d pos hd hp => .inl <| (hi X d pos hd hp).resolve_right id) ?_
  intro s t c x st ih X d' pos hd hp
  obtain ⟨d, hf, he⟩ | ⟨D, pos', battery, hx, hX, he⟩ := position_exec hd
  case inl =>
    exact (ih X d pos hf <| he.trans hp).imp_right fun ⟨e, hm, hs⟩ => ⟨e, .tail _ hm, hs⟩
  case inr =>
    subst hx
    obtain rfl := Option.some.inj <| he.symm.trans hp
    by_cases hc : ∃ msg cooling faults, c = .ingest msg cooling faults
    case pos =>
      obtain ⟨msg, cooling, faults, rfl⟩ := hc
      exact .inl <| not_not.mp fun hb => careful_step st <| .airframe hb hX
    case neg =>
      exact .inr ⟨_, .head _, ⟨_, _, rfl⟩, fun msg cooling faults he => hc ⟨_, _, _, he⟩⟩

end Runs

end

-- The ingest of a message misplaces nothing if and only if the message is contained, and in the runs
-- in which this is so whenever it matters, what is offered to a dispatch is in bounds.
theorem positions_usable (P : Params) :
    (∀ C msg cooling faults db,
      Careful msg (ingest P C msg cooling faults) db ↔ msg.Contained db) ∧
    ∀ s, Reachable (system P) positionsUsable Store.Located s →
      (∀ e ∈ s.log, ∀ msg cooling faults, e.call = .ingest msg cooling faults →
        ¬e.stmt.Misplaces msg e.pre) ∧
      ∀ payloadKg, ∀ o ∈ (FleetStmt.exec s.db.clock (.findAvailable payloadKg) s.db.fleet).fst,
        ∀ pos ∈ o.snd.currentPosition, inBounds pos ∨ Foreign s.log pos := by
  refine ⟨fun _ _ _ _ _ => careful_iff_contained, fun s h => ⟨?_, ?_⟩⟩
  case refine_1 =>
    intro e he msg cooling faults hc
    have ⟨s₀, st, hpre⟩ := h.stepOf he
    rw [hc] at st
    exact hpre ▸ careful_step st
  case refine_2 =>
    intro payloadKg (X, d) ho pos hp
    have hm : (X, d) ∈ s.db.fleet.findMany fun _ d => d.Dispatchable payloadKg s.db.clock :=
      (List.mem_insertionSort _).mp <| List.mem_of_mem_take ho
    exact located_reachable h X d pos (Table.find?_eq_some_iff.mpr (List.mem_filter.mp hm).left) hp

-- The drone of the first delivery reports that it picks up the package, and where it is.
def TelemetryMessage.pickupAt (lat lng : ℚ) : TelemetryMessage :=
  { TelemetryMessage.pickup with lat := some lat, lng := some lng, batteryPercent := some 50 }

theorem TelemetryMessage.pickupAt_usable : (pickupAt 1 1).Usable := by
  rintro _ ⟨⟩
  decide +kernel

theorem Store.small_located : Store.small.Located := by
  intro X d pos h hp
  have h := List.mem_singleton.mp <| Table.find?_eq_some_iff.mp h
  obtain ⟨rfl, rfl⟩ := Prod.mk.inj h
  contradiction

def Call.usable : Call → Bool
  | .ingest msg _ _ => msg.position.all inBounds
  | _               => true

theorem Call.usable_ingest (h : (Call.ingest msg cooling faults).usable) : msg.Usable :=
  (Option.all_eq_true ..).mp h

def setsPosition (e : Entry Stmt.sig Store Call) : Bool :=
  match e.call, e.stmt with
  | .ingest .., .fleet (.updateState _ (some _) _) => true
  | _,          _                                  => false

theorem positions_usable_small :
    Careful (.pickupAt 1 1) (ingest .small 2 (.pickupAt 1 1) true {}) Store.small ∧
    ∃ s e msg cooling faults, Reachable (system .small) positionsUsable Store.Located s ∧
      e ∈ s.log ∧ setsPosition e ∧ e.call = .ingest msg cooling faults ∧
      ¬e.stmt.Misplaces msg e.pre := by
  have ⟨hm, hr⟩ := positions_usable .small
  refine ⟨(hm 2 _ true {} _).mpr <| .inl TelemetryMessage.pickupAt_usable, ?_⟩
  let s := (Pool.init .small).runCmds (system .small) <|
    Cmd.run 1 (.create .small) 9 ++ Cmd.run 2 (.ingest (.pickupAt 1 1) true {}) 3
  have h : Reachable (system .small) { spawn := fun c => c.usable } Store.Located s :=
    (Reachable.init Store.small_located).runCmds (by decide +kernel)
  have h : Reachable (system .small) positionsUsable Store.Located s := by
    refine h.strengthen (fun _ _ => trivial) (fun {s t c x} st => ?_) id
    have hu := st.spawned
    unfold positionsUsable
    dsimp only
    split
    case h_1 => exact .inl <| Call.usable_ingest hu
    case h_2 => exact .inl <| Call.usable_ingest hu
    case h_3 => trivial
  have hs : s.log.any setsPosition := by decide +kernel
  have ⟨e, he, hs⟩ := List.any_eq_true.mp hs
  have ⟨msg, cooling, faults, hc⟩ : ∃ msg cooling faults, e.call = .ingest msg cooling faults := by
    unfold setsPosition at hs
    split at hs
    case h_1 hc _ => exact ⟨_, _, _, hc⟩
    case h_2      => contradiction
  exact ⟨s, e, msg, cooling, faults, h, he, hs, hc, (hr s h).left e he msg cooling faults hc⟩

-- The drone reports a latitude that does not exist.
theorem positions_misplaced :
    ¬∀ (P : Params) (s : Pool Stmt.sig Store Call), Reachable (system P) {} Store.Initial s →
      ∀ C msg cooling faults, Careful msg (ingest P C msg cooling faults) s.db := by
  intro h
  have hs : Reachable (system .small) {} Store.Initial pickedUpPool :=
    Reachable.runCmds_of_free _ <| .init Store.small_initial
  have ⟨d, hd, hl, ha, _⟩ := pickedUp_row
  match careful_iff_contained.mp <| h .small pickedUpPool hs 3 (.pickupAt 100 0) true {} with
  | .inl hu        => exact absurd (hu (100, 0) rfl) (by decide +kernel)
  | .inr (.inl hn) => exact hn ⟨d, hd, hl, ha⟩
  | .inr (.inr hn) => exact hn 1 ⟨_, rfl, rfl⟩

end Drovery
