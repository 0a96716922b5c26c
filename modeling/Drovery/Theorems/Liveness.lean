import Drovery.Concurrency.Local
import Drovery.Concurrency.Sequential
import Drovery.Theorems.Watchdog

namespace Drovery

open Concurrency Method
open DeliveriesService DeliveryWatchdog TelemetryService DeliveryStatus

-- The statements that neither write to a delivery nor record a sign of life.
def Stmt.Mute : Stmt → Prop
  | .delivery (.transition ..)     => False
  | .delivery (.countWrongGuess _) => False
  | .createDelivery ..             => False
  | .effect (.updateTracking ..)   => False
  | _                              => True

namespace Stmt.Mute

variable {x : Stmt}

theorem not_tracks {D : DeliveryId} (h : x.Mute) : ¬x.Tracks D := by
  rintro ⟨_, rfl⟩
  exact h

theorem deliveries (h : x.Mute) (db : Store) : (x.exec db).snd.deliveries = db.deliveries := by
  cases x
  case delivery y     => cases y <;> first | rfl | exact h.elim
  case createDelivery => exact h.elim
  case refundCharge ch D U amount =>
    have ⟨_, _, he⟩ := exec_refundCharge ch D U amount db
    rw [he]
  case effect y => cases y <;> rfl
  all_goals rfl

end Stmt.Mute

section Mute

variable {P : Params} {C : CommandId} {D : DeliveryId} {status : DeliveryStatus}
variable {faults : CleanupFaults}

theorem cleanupAfterTermination_mute {refundCredits : Bool} {aircraft : AircraftDisposition} :
    Built (Single Stmt.Mute) (cleanupAfterTermination D refundCredits aircraft faults) :=
  cleanupAfterTermination_built (fun _ _ => trivial) trivial <|
    .bind (releaseForDelivery_built trivial fun _ => trivial).safe fun _ =>
      .bind (refundForDelivery_built trivial fun _ _ => trivial).safe fun _ =>
        (refundChargeToWallet_built trivial fun _ _ => trivial).safe

theorem announceException_mute {reason : Option DeliveryFailureReason} :
    Built (Single Stmt.Mute) (announceException D status reason faults) :=
  announceException_built trivial trivial trivial

theorem record_mute {delivery : Delivery} {msg : TelemetryMessage} {cooling : Bool} :
    Built (Single Stmt.Mute) (FlightRecorder.record P C delivery msg cooling) :=
  record_built (Single.stmt trivial) (Single.stmt trivial) (Single.stmt trivial) <|
    issue_built trivial trivial trivial (fun _ => trivial) trivial

-- The recorder never keeps a message from being processed any further.
theorem record_total {delivery : Delivery} {msg : TelemetryMessage} {cooling : Bool} :
    (FlightRecorder.record P C delivery msg cooling).Total := by
  refine .bind .safe fun _ => .bind ?_ fun _ => ?_
  case refine_1 =>
    unfold FlightRecorder.updateDroneState
    split
    case isTrue  => exact .pure
    case isFalse => exact .safe
  case refine_2 =>
    unfold FlightRecorder.maybeRecall
    split
    case h_2 => exact .pure
    case h_1 =>
      split
      case isTrue => exact .pure
      case isFalse =>
        refine .bind .stmt fun drone => ?_
        split
        case h_1 => exact .pure
        case h_2 =>
          split
          case isTrue  => exact .safe
          case isFalse => exact .pure

end Mute

-- On its own, the method records a sign of life of the delivery `D`, or else the watchdog does not look
-- for the delivery afterwards.
def Heard {α : Type} (D : DeliveryId) (p : App α) (db : Store) : Prop :=
  (∃ x ∈ trace Stmt.exec p db, x.Tracks D) ∨
    ∀ s, (eval Stmt.exec p db).snd.status D = some s → s ∉ watchdogStuckStatuses

section Heard

variable {α β : Type} {D : DeliveryId} {p : App α} {f : α → App β} {db : Store} {x : Stmt}

theorem eval_mute (hp : Built (Single Stmt.Mute) p) :
    (eval Stmt.exec p db).snd.deliveries = db.deliveries :=
  eval_built (I := fun (db' : Store) => db'.deliveries = db.deliveries) hp
    (fun | .tx hx, h => (hx.deliveries _).trans h) rfl

theorem not_tracks_of_mute (hp : Built (Single Stmt.Mute) p) :
    ¬∃ x ∈ trace Stmt.exec p db, x.Tracks D := by
  intro ⟨x, hm, hx⟩
  have block {α : Type} {q : App α} {s : Store} (hb : Single Stmt.Mute α q) :
      ∀ y ∈ trace Stmt.exec q s, ¬y.Tracks D := by
    intro y hy
    obtain ⟨hq⟩ := hb
    exact List.mem_singleton.mp hy ▸ hq.not_tracks
  exact trace_built hp block x hm hx

theorem heard_pure {a : α} {s : DeliveryStatus} (h : db.status D = some s) :
    Heard D (pure a : App α) db ↔ s ∉ watchdogStuckStatuses := by
  simp [Heard, h]

theorem heard_stmt_bind {f : x.Res → App α} (h : ¬x.Tracks D) :
    Heard D (App.stmt x >>= f) db ↔ Heard D (f (x.exec db).fst) (x.exec db).snd := by
  have : Heard D (App.stmt x >>= f) db ↔ ((∃ y ∈ x :: trace Stmt.exec (f (x.exec db).fst)
      (x.exec db).snd, y.Tracks D) ∨ ∀ s, (eval Stmt.exec (f (x.exec db).fst) (x.exec db).snd).snd.status
        D = some s → s ∉ watchdogStuckStatuses) := Iff.rfl
  rw [this, List.exists_mem_cons_iff, Heard]
  simp only [h, false_or]

theorem heard_tracks_bind {f : Unit → App α} (h : x.Tracks D) :
    Heard D ((App.stmt x).safe >>= f) db := by
  refine .inl ⟨x, ?_, h⟩
  rw [trace_bind, trace_safe]
  exact List.mem_append_left _ <| List.mem_singleton_self _

-- What precedes the sign of life does not matter.
theorem heard_mute_bind (db : Store) (hp : Built (Single Stmt.Mute) p) (ht : p.Total) :
    ∃ a, ∀ {β : Type} {f : α → App β},
      Heard D (p >>= f) db ↔ Heard D (f a) (eval Stmt.exec p db).snd := by
  have ⟨a, ha⟩ := eval_of_total Stmt.exec db ht
  refine ⟨a, fun {_ f} => ?_⟩
  rw [Heard, trace_bind, eval_bind_of_ok ha, ha]
  simp only [List.mem_append, or_and_right, exists_or, not_tracks_of_mute hp, false_or]
  exact Iff.rfl

-- Neither does what follows it.
theorem heard_bind_mute (hf : ∀ a, Built (Single Stmt.Mute) (f a)) :
    Heard D (p >>= f) db ↔ Heard D p db := by
  rw [Heard, Heard, trace_bind, eval_bind]
  generalize eval Stmt.exec p db = r
  have ⟨r, db'⟩ := r
  cases r
  case ok a =>
    simp only [List.mem_append, or_and_right, exists_or, not_tracks_of_mute (hf a), or_false,
      Store.status, eval_mute (hf a)]
  case error => simp only [List.append_nil]

end Heard
-- The messages that the watchdog takes for a sign of life of a delivery in the status `s`.
def Signals (msg : TelemetryMessage) (s : DeliveryStatus) : Prop :=
  match msg.phase with
  | none                         => msg.position.isSome
  | some (.happy phase)          =>
    if s ∈ statusesBefore (phaseToStatus phase) then
      phase = .arrived ∨ msg.position.isSome
    else
      msg.position.any (!TelemetryMessage.inBounds ·)
  | some .other                  => msg.position.any (!TelemetryMessage.inBounds ·)
  | some (.exception .failed)    => True
  | some (.exception .returning) =>
    s ∈ returnableStatuses ∧ msg.position.any TelemetryMessage.inBounds
  | some (.exception .returned)  => s = .returning

section Ingest

variable {P : Params} {C : CommandId} {D : DeliveryId} {msg : TelemetryMessage} {db : Store}
variable {d : Delivery} {faults : CleanupFaults} {s : DeliveryStatus} {positionValid : Bool}

theorem not_frozen (h : s ∈ watchdogStuckStatuses) : s ∉ positionFrozenStatuses := by
  cases s <;> revert h <;> decide

-- A guarded write to the status of the delivery.
theorem transition_exec (o : Option CommandId) (tr : Transition)
    (hd : db.deliveries.find? D = some d) :
    ((Stmt.delivery <| .transition o D tr).exec db).fst = (if tr.source d.status then 1 else 0) ∧
      ((Stmt.delivery <| .transition o D tr).exec db).snd.status D =
        some (if tr.source d.status then tr.target else d.status) := by
  by_cases hs : tr.source d.status
  case pos =>
    have he : (DeliveryStmt.transition o D tr).exec db.clock db.tracking db.deliveries =
        (1, db.deliveries.modify D (tr.apply db.clock)) := Table.cas_of_guard hd hs
    simp [Stmt.exec, he, hs, Store.status, hd]
  case neg =>
    have he : ((DeliveryStmt.transition o D tr).exec db.clock db.tracking db.deliveries).fst = 0 :=
      Table.cas_count_eq_zero_iff.mpr fun r hr => Option.some.inj (hd.symm.trans hr) ▸ hs
    have he' := Table.cas_eq_of_count_eq_zero he
    simp only [Stmt.exec, Store.status, he, hs, Bool.false_eq_true, if_false, true_and]
    rw [show ((DeliveryStmt.transition o D tr).exec db.clock db.tracking db.deliveries).snd =
      db.deliveries from he', hd, Option.map_some]

theorem not_tracks_delivery {x : DeliveryStmt} : ¬(Stmt.delivery x).Tracks D :=
  nofun

-- Whether the position is written only depends on the status if there is a phase.
theorem heard_writePosition {a : Option DeliveryStatus}
    (hd : d.status ∈ watchdogStuckStatuses) (hs : db.status msg.deliveryId = some s) :
    Heard msg.deliveryId (writePosition d msg positionValid a) db ↔
      (if positionValid then a.isSome ∨ msg.phase.isNone else msg.position.isSome) ∨
        s ∉ watchdogStuckStatuses := by
  have hf := not_frozen hd
  unfold writePosition
  cases positionValid
  case false =>
    by_cases hp : msg.position.isSome
    case pos =>
      simp only [Bool.false_eq_true, if_false, hp, hf, decide_false, Bool.not_false, and_self,
        if_true, true_or, iff_true]
      exact heard_tracks_bind ⟨_, rfl⟩
    case neg =>
      simp only [Bool.false_eq_true, if_false, hp, false_and, false_or]
      exact heard_pure hs
  case true =>
    simp only [if_true, hf, decide_false, Bool.not_false, Bool.and_true]
    by_cases ha : a.isSome ∨ msg.phase.isNone
    case pos =>
      have : (a.isSome || !(msg.phase.isSome && a.isNone)) = true := by
        cases a <;> cases hp : msg.phase <;> simp_all
      simp only [this, if_true, ha, true_or, iff_true]
      exact heard_tracks_bind ⟨_, rfl⟩
    case neg =>
      have : (a.isSome || !(msg.phase.isSome && a.isNone)) = false := by
        cases a <;> cases hp : msg.phase <;> simp_all
      simp only [this, Bool.false_eq_true, if_false, ha, false_or]
      exact heard_pure hs

theorem position_isSome_of_any {q : ℚ × ℚ → Bool} (h : msg.position.any q) :
    msg.position.isSome := by
  cases hp : msg.position <;> simp_all

-- The happy phase of a message, if there is one.
inductive Phased (msg : TelemetryMessage) : Option HappyPhase → Prop
  | missing : msg.phase = none → Phased msg none
  | other : msg.phase = some .other → Phased msg none
  | happy {phase : HappyPhase} : msg.phase = some (.happy phase) → Phased msg (some phase)

theorem heard_ingestHappy {phase : Option HappyPhase} {db : Store}
    (hd : db.deliveries.find? msg.deliveryId = some d) (hs : d.status ∈ watchdogStuckStatuses)
    (hp : Phased msg phase) :
    Heard msg.deliveryId
        (ingestHappy d msg (msg.position.any TelemetryMessage.inBounds) phase) db ↔
      Signals msg d.status := by
  have publish (s : Option DeliveryStatus) (positioned : Bool) : Built (Single Stmt.Mute)
      (if s.isNone ∧ !positioned then pure () else
        App.stmt <| .effect <| .publishUpdate msg.deliveryId s : App Unit) := by
    split
    case isTrue  => exact .pure
    case isFalse => exact Single.stmt trivial
  have hs' : db.status msg.deliveryId = some d.status := by rw [Store.status, hd, Option.map_some]
  unfold ingestHappy
  cases hp
  case missing hp =>
    rw [advance, pure_bind, heard_bind_mute (publish _), heard_writePosition hs hs']
    simp only [hs, not_true, or_false, Signals, hp, Option.isNone_none, or_true]
    split
    case isTrue h  => exact iff_of_true trivial <| position_isSome_of_any h
    case isFalse   => exact Iff.rfl
  case other hp =>
    rw [advance, pure_bind, heard_bind_mute (publish _), heard_writePosition hs hs']
    simp only [hs, not_true, or_false, Signals, hp, Option.isSome_none, Option.isNone_some,
      Bool.false_eq_true]
    cases msg.position <;> simp
  case happy phase hp =>
    obtain ⟨hc, hs'⟩ := transition_exec none (.advance <| phaseToStatus phase) hd
    rw [advance, bind_assoc, heard_stmt_bind not_tracks_delivery, pure_bind, heard_bind_mute (publish _),
      heard_writePosition hs hs', hc]
    simp only [Transition.source, Transition.target, decide_eq_true_eq, Option.isNone_some,
      Bool.false_eq_true, or_false, Signals, hp]
    by_cases hb : d.status ∈ statusesBefore (phaseToStatus phase)
    case pos =>
      have ht : phaseToStatus phase ∉ watchdogStuckStatuses ↔ phase = .arrived := by
        revert hb hs
        cases phase <;> cases d.status <;> decide
      simp only [hb, if_true, Nat.one_pos, Option.isSome_some, ht, or_comm]
      split
      case isTrue h  => exact or_congr_right <| iff_of_true trivial <| position_isSome_of_any h
      case isFalse   => exact Iff.rfl
    case neg =>
      simp only [hb, if_false, Nat.lt_irrefl, Option.isSome_none, Bool.false_eq_true, hs, not_true,
        or_false]
      cases msg.position <;> simp

theorem heard_finish {applied : Bool} (hs : db.status msg.deliveryId = some s) :
    Heard msg.deliveryId (if applied && positionValid then
      (App.stmt <| .effect <| .updateTracking msg.deliveryId msg.position).safe else pure ()) db ↔
      (applied && positionValid) ∨ s ∉ watchdogStuckStatuses := by
  cases applied && positionValid
  case false =>
    simp only [Bool.false_eq_true, if_false, false_or]
    exact heard_pure hs
  case true =>
    simp only [if_true, true_or, iff_true]
    refine .inl ⟨.effect <| .updateTracking msg.deliveryId msg.position, ?_, ⟨_, rfl⟩⟩
    rw [trace_safe]
    exact List.mem_singleton_self _

-- A write to the status, which is followed up if its guard matches.
theorem heard_exception {tr : Transition} {k : Nat → App Bool} {q : App Unit}
    (hd : db.deliveries.find? msg.deliveryId = some d) (h₀ : k 0 = pure false)
    (h₁ : k 1 = do q; pure true) (hq : Built (Single Stmt.Mute) q) (ht : q.Total) :
    Heard msg.deliveryId ((App.stmt (.delivery <| .transition none msg.deliveryId tr) >>= k) >>=
      fun applied => if applied && positionValid then
        (App.stmt <| .effect <| .updateTracking msg.deliveryId msg.position).safe else pure ()) db ↔
      if tr.source d.status then
        positionValid ∨ tr.target ∉ watchdogStuckStatuses
      else
        d.status ∉ watchdogStuckStatuses := by
  have ⟨hc, hs⟩ := transition_exec none tr hd
  rw [bind_assoc, heard_stmt_bind not_tracks_delivery, hc]
  by_cases hg : tr.source d.status
  case neg =>
    simp only [hg, Bool.false_eq_true, if_false] at hs ⊢
    rw [h₀, pure_bind, heard_finish hs]
    simp
  case pos =>
    simp only [hg, if_true] at hs ⊢
    rw [h₁, bind_assoc]
    have ⟨_, h⟩ := heard_mute_bind (D := msg.deliveryId)
      ((Stmt.delivery <| .transition none msg.deliveryId tr).exec db).snd hq ht
    rw [h, pure_bind, heard_finish (by rw [Store.status, eval_mute hq]; exact hs)]
    simp

theorem heard_ingestException {phase : ExceptionPhase}
    (hd : db.deliveries.find? msg.deliveryId = some d) (hs : d.status ∈ watchdogStuckStatuses)
    (hp : msg.phase = some (.exception phase)) :
    Heard msg.deliveryId
        (ingestException phase msg (msg.position.any TelemetryMessage.inBounds) faults) db ↔
      Signals msg d.status := by
  unfold ingestException
  cases phase <;> dsimp only <;> simp only [Signals, hp]
  case failed =>
    have hg : failableStatuses.filter (· ∉ failableStatuses) = [] := by decide
    have ha : failableStatuses.filter (· ∈ failableStatuses) = failableStatuses := by decide
    have hf : d.status ∈ failableStatuses := by revert hs; cases d.status <;> decide
    have hn : DeliveryStatus.deliveryFailed ∉ watchdogStuckStatuses := by decide
    rw [failExceptional]
    simp only [hg, ha]
    rw [failFrom, if_pos rfl, pure_bind, if_neg (Nat.lt_irrefl 0), failFrom, if_neg (by decide),
      heard_exception hd rfl rfl
        (.bind cleanupAfterTermination_mute fun _ => announceException_mute)
        (.bind cleanupAfterTermination_total fun _ => announceException_total)]
    simp [Transition.source, Transition.target, hf, hn]
  case returning =>
    rw [beginReturnToBase, heard_exception hd rfl (bind_assoc ..).symm
      (.bind cleanupAfterTermination_mute fun _ => announceException_mute)
      (.bind cleanupAfterTermination_total fun _ => announceException_total)]
    simp only [Transition.source, Transition.target, decide_eq_true_eq]
    have hr : DeliveryStatus.returning ∈ watchdogStuckStatuses := by decide
    by_cases h : d.status ∈ returnableStatuses <;> simp [h, hr, hs]
  case returned =>
    rw [completeReturnToBase, heard_exception hd rfl (bind_assoc ..).symm
      (.bind (release_single trivial) fun _ => announceException_mute)
      (.bind .safe fun _ => announceException_total)]
    simp only [Transition.source, Transition.target, decide_eq_true_eq]
    have hr : DeliveryStatus.returnedToBase ∉ watchdogStuckStatuses := by decide
    by_cases h : d.status = .returning <;> simp [h, hr, hs]

-- The exact condition under which a message that is let through counts as a sign of life.
theorem heard_ingest {cooling : Bool} (hpair : msg.lat.isSome = msg.lng.isSome)
    (hd : db.deliveries.find? msg.deliveryId = some d) (hlive : d.trackingSource = .live)
    (hX : d.assignedDroneId = some msg.droneId) (hs : d.status ∈ watchdogStuckStatuses) :
    Heard msg.deliveryId (ingest P C msg cooling faults) db ↔ Signals msg d.status := by
  have hf : (Stmt.delivery <| .find msg.deliveryId).exec db = (some d, db) := by
    simp [Stmt.exec, DeliveryStmt.exec, hd]
  rw [ingest, if_neg (not_not.mpr hpair), heard_stmt_bind not_tracks_delivery, hf]
  simp only [hlive, ne_eq, not_true, if_false, hX]
  have hr : Built (Single Stmt.Mute) (FlightRecorder.record P C d msg cooling) := record_mute
  obtain ⟨_, h⟩ := heard_mute_bind (D := msg.deliveryId) db hr record_total
  rw [h]
  rw [← eval_mute hr] at hd
  split
  case h_1 hp => exact heard_ingestException hd hs hp
  case h_2 hp => exact heard_ingestHappy hd hs <| .happy hp
  case h_3 he hh =>
    cases hp : msg.phase
    case none => exact heard_ingestHappy hd hs <| .missing hp
    case some phase =>
      cases phase
      case happy phase     => exact absurd hp <| hh phase
      case exception phase => exact absurd hp <| he phase
      case other           => exact heard_ingestHappy hd hs <| .other hp

end Ingest

-- A sign of life of the delivery `D` has been recorded at the time `c` or later.
def HeardSince (D : DeliveryId) (c : Time) (db : Store) : Prop :=
  c ≤ db.clock ∧ ∃ u, db.tracking.find? D = some u ∧ c ≤ u

section HeardSince

variable {P : Params} {D : DeliveryId} {c : Time} {db : Store}

theorem heardSince_tracks {x : Stmt} (h : x.Tracks D) (hc : c ≤ db.clock) :
    HeardSince D c (x.exec db).snd := by
  obtain ⟨position, rfl⟩ := h
  refine ⟨hc, db.clock, ?_, hc⟩
  simp only [Stmt.exec, Store.execEffect]
  cases hi : db.tracking.insert D db.clock
  case some t => rw [Option.getD_some, Table.find?_insert hi, if_pos rfl]
  case none =>
    obtain ⟨_, hf⟩ := Option.isSome_iff_exists.mp <| Table.insert_eq_none_iff.mp hi
    rw [Option.getD_none, Table.find?_modify_self, hf, Option.map_some]

theorem heardSince_exec (x : Stmt) (db : Store) (h : HeardSince D c db) :
    HeardSince D c (x.exec db).snd := by
  by_cases hx : x.Tracks D
  case pos => exact heardSince_tracks hx h.left
  case neg =>
    have ⟨u, hu, hc⟩ := h.right
    exact ⟨h.left.trans (x.clock_le db), u, (x.exec_tracking db hx).trans hu, hc⟩

-- What the watchdog fails has not been heard of for a long time when the watchdog selects it.
theorem reaper_hears {s : Pool Stmt.sig Store Call} {newer older : List (Entry Stmt.sig Store Call)}
    {e : Entry Stmt.sig Store Call} {faults : ScanFaults} {allowed : List DeliveryStatus}
    {reason : DeliveryFailureReason} (h : Reachable (system P) {} Store.Initial s)
    (hl : s.log = newer ++ e :: older) (hc : e.call = .scanAndReap faults)
    (hw : Wins e none D (.fail allowed reason)) :
    ∃ e₀ e₁ newer' older', (World.own ⟨e.pre, older⟩ e.tid).getLast? = some e₀ ∧
      older = newer' ++ e₁ :: older' ∧ e₁.tid = e.tid ∧ (∃ a b, e₁.stmt = .delivery (.findStuck a b)) ∧
      ∀ f ∈ older', f.stmt.Tracks D → f.pre.clock + watchdogSilenceMs < e₀.pre.clock := by
  have ⟨s₀, st, hpre, hlog⟩ := h.before hl
  have hx := hw.left
  rw [hc, hx] at st
  have ⟨⟨e₀, e₁, hsel⟩, _⟩ := (reapOutline.valid.reachable st.reachable).pre st.aboutTo D rfl
  have ⟨ht, newer', older', hl'⟩ := World.mem_own hsel.mem
  rw [show s₀.world = ⟨e.pre, older⟩ by rw [← hpre, ← hlog]] at hsel
  refine ⟨e₀, e₁, newer', older', hsel.start, hlog ▸ hl', ht, ⟨_, _, hsel.stmt⟩, fun f hf htr => ?_⟩
  have ⟨s₁, st₁, hpre₁, hlog₁⟩ := st.reachable.before hl'
  -- The sign of life that is recorded by `f` is on record when the delivery is selected.
  have hs : HeardSince D f.pre.clock e₁.pre := by
    have ⟨newer'', older'', hl''⟩ := List.append_of_mem (hlog₁ ▸ hf)
    rw [← hpre₁]
    exact st₁.reachable.since (I := fun _ db => HeardSince D f.pre.clock db) hl''
      (heardSince_tracks htr le_rfl) (heardSince_exec _ _)
  have ⟨_, u, hu, hfu⟩ := hs
  have ⟨d, _, hstuck⟩ := hsel.stuck
  simp only [DeliveryStmt.stuck, decide_eq_true_eq, hu, Option.getD_some] at hstuck
  exact (Nat.add_le_add_right hfu _).trans_lt <| lt_tsub_iff_right.mp hstuck.2.2.2

end HeardSince

-- Exactly those messages of a delivery count as signs of life which signal one, and the watchdog only
-- fails deliveries without a recent sign of life.
theorem heard_iff_signals (P : Params) :
    (∀ C msg cooling faults db d, msg.lat.isSome = msg.lng.isSome →
      db.deliveries.find? msg.deliveryId = some d → d.trackingSource = .live →
      d.assignedDroneId = some msg.droneId → d.status ∈ watchdogStuckStatuses →
      (Heard msg.deliveryId (ingest P C msg cooling faults) db ↔ Signals msg d.status)) ∧
    ∀ s newer e older D faults allowed reason, Reachable (system P) {} Store.Initial s →
      s.log = newer ++ e :: older → e.call = .scanAndReap faults →
      Wins e none D (.fail allowed reason) →
      ∃ e₀ e₁ newer' older', (World.own ⟨e.pre, older⟩ e.tid).getLast? = some e₀ ∧
        older = newer' ++ e₁ :: older' ∧ e₁.tid = e.tid ∧
        (∃ a b, e₁.stmt = .delivery (.findStuck a b)) ∧
        ∀ f ∈ older', f.stmt.Tracks D → f.pre.clock + watchdogSilenceMs < e₀.pre.clock := by
  constructor
  case left =>
    intro C msg cooling faults db d hpair hd hlive hX hs
    exact heard_ingest hpair hd hlive hX hs
  case right =>
    intro s newer e older D faults allowed reason h hl hc hw
    exact reaper_hears h hl hc hw

-- The drone of a live delivery has picked up the package.
abbrev pickedUpPool : Pool Stmt.sig Store Call :=
  (Pool.init .small).runCmds (system .small) <|
    Cmd.run 1 (.create .small) 9 ++ Cmd.run 2 (.ingest .pickup true {}) 5

theorem pickedUp_row : ∃ d, pickedUpPool.db.deliveries.find? 1 = some d ∧ d.trackingSource = .live ∧
    d.assignedDroneId = some 1 ∧ d.status = .pickupInProgress := by
  have h : (pickedUpPool.db.deliveries.find? 1).any fun d => d.trackingSource = .live ∧
      d.assignedDroneId = some 1 ∧ d.status = .pickupInProgress := by decide
  have ⟨d, hd, h⟩ := (Option.any_eq_true _ _).mp h
  exact ⟨d, hd, of_decide_eq_true h⟩

-- The drone reports a position before it falls silent.
theorem heard_iff_signals_silent :
    Heard 1 (ingest .small 3 .position₁ true {}) pickedUpPool.db ∧
      ∃ s newer e older, Reachable (system .small) {} Store.Initial s ∧ s.log = newer ++ e :: older ∧
        reapsFirst e ∧ ∃ e₀, (World.own ⟨e.pre, older⟩ e.tid).getLast? = some e₀ := by
  have ⟨hm, hr⟩ := heard_iff_signals .small
  constructor
  case left =>
    have ⟨d, hd, hlive, hX, hs⟩ := pickedUp_row
    exact (hm 3 .position₁ true {} _ d rfl hd hlive hX (hs ▸ by decide)).mpr rfl
  case right =>
    let s := (Pool.init .small).runCmds (system .small) (silentRun ++ Cmd.run 4 (.scanAndReap {}) 3)
    have h : Reachable (system .small) {} Store.Initial s :=
      Reachable.runCmds_of_free _ <| .init Store.small_initial
    cases hl : s.log
    case nil => exact absurd (congrArg List.length hl) (by decide)
    case cons e older =>
      have hf : s.log.head?.any reapsFirst := by decide
      simp only [hl, List.head?_cons, Option.any_some] at hf
      have ⟨faults, allowed, reason, hc, hw⟩ := wins_of_reapsFirst hf
      have ⟨e₀, _, _, _, h₀, _⟩ := hr s [] e older 1 faults allowed reason h hl hc hw
      exact ⟨s, [], e, older, h, hl, hf, e₀, h₀⟩

-- The drone repeats the message with which it has reported the pickup, now together with its position.
def TelemetryMessage.repeated : TelemetryMessage :=
  { TelemetryMessage.pickup with lat := some 0, lng := some 0 }

theorem heard_iff_signals_missed :
    ¬∀ (P : Params) (s : Pool Stmt.sig Store Call), Reachable (system P) {} Store.Initial s →
      ∀ C msg cooling faults d, msg.lat.isSome = msg.lng.isSome →
        s.db.deliveries.find? msg.deliveryId = some d → d.trackingSource = .live →
        d.assignedDroneId = some msg.droneId → d.status ∈ watchdogStuckStatuses →
        Heard msg.deliveryId (ingest P C msg cooling faults) s.db := by
  intro h
  have hs : Reachable (system .small) {} Store.Initial pickedUpPool :=
    Reachable.runCmds_of_free _ <| .init Store.small_initial
  have ⟨d, hd, hlive, hX, hst⟩ := pickedUp_row
  have hin : d.status ∈ watchdogStuckStatuses := hst ▸ by decide
  have hh := h .small pickedUpPool hs 3 .repeated true {} d rfl hd hlive hX hin
  have hsig := (heard_ingest rfl hd hlive hX hin).mp hh
  rw [hst] at hsig
  exact absurd hsig (by simp [Signals, TelemetryMessage.repeated, TelemetryMessage.pickup,
    TelemetryMessage.position, TelemetryMessage.inBounds, phaseToStatus, statusesBefore, statusOrder])

end Drovery
