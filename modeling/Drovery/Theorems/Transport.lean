import Drovery.Concurrency.Sequential
import Drovery.Theorems.Lifecycle

namespace Drovery

open Concurrency Method Outline
open DeliveriesService DroneCommandService

-- An acknowledgement, by the transport on which it arrives.
inductive Acknowledgement
  | http (C : CommandId) (dto : AckCommandDto)
  | mqtt (frame : AckFrame)

namespace Acknowledgement

def handle (faults : CleanupFaults) : Acknowledgement → App Unit
  | http C dto => CommandController.ack C dto faults
  | mqtt frame => MqttCommandAckSubscriber.handleAck (some frame) faults

-- The drone `X` accepts the command `C`.
def Accepts (C : CommandId) (X : DroneId) : Acknowledgement → Prop
  | http C' dto => C' = C ∧ dto.droneId = X ∧ dto.accepted ≠ some false
  | mqtt frame  => frame.commandId = some C ∧ frame.droneId = some X ∧ frame.accepted ≠ some false

-- Both transports end up in the same acknowledgement.
theorem handle_eval {a : Acknowledgement} {C : CommandId} {X : DroneId} (h : a.Accepts C X)
    (faults : CleanupFaults) (db : Store) :
    ∃ note, (eval Stmt.exec (a.handle faults) db).snd =
      (eval Stmt.exec (ack C X true note faults) db).snd := by
  have default {accepted : Option Bool} (ha : accepted ≠ some false) : accepted.getD true = true := by
    revert ha; cases accepted <;> simp
  cases a
  case http C' dto =>
    obtain ⟨rfl, rfl, ha⟩ := h
    exact ⟨dto.note, by rw [handle, CommandController.ack, default ha]⟩
  case mqtt frame =>
    obtain ⟨hC, hX, ha⟩ := h
    refine ⟨frame.note.map <| JsString.slice 200, ?_⟩
    rw [handle, MqttCommandAckSubscriber.handleAck]
    simp only [hC, hX, default ha, eval_safe]

end Acknowledgement

-- The drone has fetched the command `C` by polling.
def Polled (w : History) (C : CommandId) : Prop :=
  ∃ e ∈ w.log, ∃ now cmd, e.stmt = .command (.markFetched C now) ∧
    e.pre.commands.find? C = some cmd ∧ cmd.status = .pending

-- The command `C` has been accepted and has changed its delivery.
structure Store.CarriedOut (db : Store) (C : CommandId) (cmd : DroneCommand) : Prop where
  delivery : db.status cmd.deliveryId = some (cmd.type.transition cmd.reason).target
  command  : ∃ cmd', db.commands.find? C = some cmd' ∧ cmd'.status = .acked ∧
    cmd'.appliedTransition = true

section Polls

variable {P : Params} {w : History} {t : Nat} {c : Call} {x : Stmt} {C : CommandId}

-- The rows of the commands tell which of them have been fetched.
structure PollsRecorded (w : History) : Prop where
  absent  : ∀ {C}, w.db.commands.find? C = none → ¬Polled w C
  pending : ∀ {C cmd}, w.db.commands.find? C = some cmd → cmd.status = .pending → ¬Polled w C
  fetched : ∀ {C cmd}, w.db.commands.find? C = some cmd → cmd.status = .fetched → Polled w C

theorem polled_exec : Polled (w.exec (system P) t c x) C ↔
    Polled w C ∨ ∃ now cmd, x = .command (.markFetched C now) ∧ w.db.commands.find? C = some cmd ∧
      cmd.status = .pending := by
  simp only [Polled, World.exec_log, List.exists_mem_cons_iff]
  exact or_comm

-- The poll that fetches a command shows in its row.
theorem find?_markFetched {db : Store} {now : Time} {cmd : DroneCommand}
    (hc : db.commands.find? C = some cmd) (hs : cmd.status = .pending) :
    ((Stmt.command <| .markFetched C now).exec db).snd.commands.find? C =
      some { cmd with status := .fetched, fetchedAt := some now } := by
  simp [Stmt.exec, CommandStmt.exec, Table.find?_cas, hc, hs]

theorem PollsRecorded.exec (h : PollsRecorded w) (hx : x.Warranted P t c w) :
    PollsRecorded (w.exec (system P) t c x) where
  absent {C} hn hp := by
    have kept {cmd : DroneCommand} (hc : w.db.commands.find? C = some cmd) : False := by
      obtain ⟨cmd', hc', _⟩ := x.becomes hc
      exact absurd (hn.symm.trans hc') (by simp)
    obtain hp | ⟨_, cmd, _, hc, _⟩ := polled_exec.mp hp
    case inr => exact kept hc
    case inl =>
      cases hc : w.db.commands.find? C
      case none   => exact h.absent hc hp
      case some d => exact kept hc
  pending {C cmd} hf hs hp := by
    obtain hp | ⟨now, e, rfl, he, hes⟩ := polled_exec.mp hp
    case inr =>
      obtain rfl := Option.some.inj <| hf.symm.trans <| find?_markFetched he hes
      contradiction
    case inl =>
      have := x.commandChange w.db C
      have hf : (x.exec w.db).snd.commands.find? C = some cmd := hf
      generalize (x.exec w.db).snd.commands.find? C = cmd' at this hf
      cases this
      case same           => exact h.pending hf hs hp
      case created hn _   => exact h.absent hn hp
      case fetched        => obtain rfl := Option.some.inj hf; contradiction
      case expired        => obtain rfl := Option.some.inj hf; contradiction
      case rejected       => obtain rfl := Option.some.inj hf; contradiction
      case applied he     => obtain rfl := Option.some.inj hf; exact h.pending he hs hp
      case claimed hx' _ _ =>
        obtain rfl := Option.some.inj hf
        subst hx'
        obtain rfl | rfl := hx <;> contradiction
  fetched {C cmd} hf hs := by
    refine polled_exec.mpr ?_
    have := x.commandChange w.db C
    have hf : (x.exec w.db).snd.commands.find? C = some cmd := hf
    generalize (x.exec w.db).snd.commands.find? C = cmd' at this hf
    cases this
    case same             => exact .inl <| h.fetched hf hs
    case created hx' _ _  =>
      obtain rfl := Option.some.inj hf
      subst hx'
      exact absurd (hx.1.symm.trans hs) (by decide)
    case fetched hx' he hes => exact .inr ⟨_, _, hx', he, hes⟩
    case expired          => obtain rfl := Option.some.inj hf; contradiction
    case rejected         => obtain rfl := Option.some.inj hf; contradiction
    case applied he       => obtain rfl := Option.some.inj hf; exact .inl <| h.fetched he hs
    case claimed hx' _ _ =>
      obtain rfl := Option.some.inj hf
      subst hx'
      obtain rfl | rfl := hx <;> contradiction

-- A command that is still open has been fetched if and only if its row is marked accordingly.
theorem fetched_iff_polled {pol : Policy Stmt.sig Store Call} {s : Pool Stmt.sig Store Call}
    {cmd : DroneCommand} (h : Reachable (system P) pol Store.Initial s)
    (hc : s.db.commands.find? C = some cmd) (ho : cmd.status.Open) :
    cmd.status = .fetched ↔ Polled s.world C := by
  have hr : PollsRecorded s.world := h.invariant (fun h => ⟨by simp [Polled], by simp [Polled],
    by simp [h.commands]⟩) fun st hi => hi.exec (StepOf.warranted st)
  constructor
  case mp  => exact hr.fetched hc
  case mpr =>
    obtain hp | hf := ho
    case inl => exact fun hp' => absurd hp' <| hr.pending hc hp
    case inr => exact fun _ => hf

end Polls

section Drive

variable {db : Store} {x : Stmt} {C : CommandId} {D : DeliveryId} {a : DeliveryStatus}
variable {cmd : DroneCommand} {d : Delivery} {faults : CleanupFaults} {E : DeliveryId}
variable {s : DeliveryStatus}

-- The delivery has been changed, and the command is accepted.
structure Store.Driven (db : Store) (C : CommandId) (D : DeliveryId) (a : DeliveryStatus) : Prop where
  delivery : db.status D = some a
  command  : ∃ cmd, db.commands.find? C = some cmd ∧ cmd.status = .acked

-- What follows up the change neither takes it back nor touches the command.
theorem Store.Driven.exec (h : db.Driven C D a) (hx : Aftermath E s x) :
    (x.exec db).snd.Driven C D a where
  delivery := by
    obtain ⟨d, hd, hs⟩ := Option.map_eq_some_iff.mp h.delivery
    have := x.rowChange db D
    rw [Store.status]
    generalize (x.exec db).snd.deliveries.find? D = d' at this
    cases this
    case same         => exact h.delivery
    case created hn _ => simp [hn] at hd
    case moved he _ _   => subst he; exact (hx.elim id id).elim
    case guessed he _ _ => subst he; exact (hx.elim id id).elim
  command := by
    obtain ⟨cmd, hc, hs⟩ := h.command
    have := x.commandChange db C
    generalize hc' : (x.exec db).snd.commands.find? C = cmd' at this
    have open' {e : DroneCommand} (he : db.commands.find? C = some e) : ¬e.status.Open := by
      obtain rfl := Option.some.inj <| he.symm.trans hc
      simp [DroneCommandStatus.Open, hs]
    cases this
    case same           => exact ⟨cmd, hc, hs⟩
    case created hn _   => simp [hn] at hc
    case fetched he hs  => exact absurd (.inl hs) (open' he)
    case expired he ho  => exact absurd ho (open' he)
    case claimed he hs  => exact absurd (.inr hs) (open' he)
    case applied he _   => subst he; exact (hx.elim id id).elim
    case rejected he _  => subst he; exact (hx.elim id id).elim

theorem driven_eval {p : App Unit} (h : db.Driven C D a) (ht : p.Total)
    (hp : Built (Single (Aftermath E s)) p) :
    ∃ db', eval Stmt.exec p db = (.ok (), db') ∧ db'.Driven C D a := by
  obtain ⟨_, he⟩ := eval_of_total Stmt.exec db ht
  refine ⟨_, he, eval_built (I := fun (db : Store) => db.Driven C D a) hp (fun hb h => ?_) h⟩
  obtain ⟨hx⟩ := hb
  exact h.exec hx

-- A guarded write whose guard matches.
theorem driven_of_transition {t : Transition} {o : Option CommandId}
    (hd : db.deliveries.find? D = some d) (hs : t.source d.status)
    (hc : db.commands.find? C = some cmd) (ha : cmd.status = .acked) :
    ((Stmt.delivery <| .transition o D t).exec db).fst = 1 ∧
      ((Stmt.delivery <| .transition o D t).exec db).snd.Driven C D t.target := by
  have he : (DeliveryStmt.transition o D t).exec db.clock db.tracking db.deliveries =
      (1, db.deliveries.modify D (t.apply db.clock)) := Table.cas_of_guard hd hs
  refine ⟨congrArg Prod.fst he, ?_, cmd, hc, ha⟩
  simp [Store.status, Stmt.exec, he, hd]

-- If the delivery is in a legal status, then the command changes it.
theorem drive_eval (faults : CleanupFaults) (hd : db.deliveries.find? cmd.deliveryId = some d)
    (hl : d.status ∈ cmd.type.legalStatuses) {cmd' : DroneCommand}
    (hc : db.commands.find? C = some cmd') (ha : cmd'.status = .acked) :
    ∃ db', eval Stmt.exec (drive C cmd faults) db = (.ok true, db') ∧
      db'.Driven C cmd.deliveryId (cmd.type.transition cmd.reason).target := by
  unfold drive
  cases ht : cmd.type <;> rw [ht] at hl <;> dsimp only
  case returnToBase =>
    obtain ⟨h₁, h₂⟩ := driven_of_transition (o := some C) (t := .beginReturn cmd.reason) hd
      (decide_eq_true hl) hc ha
    rw [beginReturnToBase, eval_stmt_bind, h₁]
    obtain ⟨db', he', h'⟩ := driven_eval h₂ (p := cleanupAfterTermination cmd.deliveryId
      cmd.reason.isDroneFaultReason .stillAirborne faults) cleanupAfterTermination_total
      (cleanupAfterTermination_single (.inr rfl) (by simp))
    obtain ⟨db'', he'', h''⟩ := driven_eval h' (p := announceException cmd.deliveryId .returning
      (some cmd.reason) faults) announceException_total announceException_single
    refine ⟨db'', ?_, h''⟩
    rw [if_neg Nat.one_ne_zero, eval_bind_of_ok he', eval_bind_of_ok he'', eval_pure]
  case abort =>
    obtain ⟨h₁, h₂⟩ := driven_of_transition (o := some C)
      (t := .fail DeliveryStatus.failableStatuses cmd.reason) hd (decide_eq_true hl) hc ha
    obtain ⟨db', he', h'⟩ := driven_eval h₂
      (p := finishFailure cmd.deliveryId cmd.reason true faults)
      (.bind cleanupAfterTermination_total fun _ => announceException_total) finishFailure_single
    refine ⟨db', ?_, h'⟩
    -- None of the allowed statuses is one on the ground.
    have hg : DeliveryStatus.failableStatuses.filter (· ∉ DeliveryStatus.failableStatuses) = [] := by
      decide
    have ha : DeliveryStatus.failableStatuses.filter (· ∈ DeliveryStatus.failableStatuses) =
      DeliveryStatus.failableStatuses := by decide
    rw [failExceptional]
    simp only [hg, ha]
    rw [failFrom, if_pos rfl, eval_bind, eval_pure]
    dsimp only
    rw [if_neg (by decide), failFrom, if_neg (by decide), eval_stmt_bind, h₁, if_pos Nat.one_pos,
      eval_bind_of_ok he', eval_pure]

-- An accepting acknowledgement of a command that is neither expired nor misdirected. It only gets
-- through if the command has been fetched.
theorem ack_eval {X : DroneId} {note : Option String} (hc : db.commands.find? C = some cmd)
    (hX : cmd.droneId = X) (hd : db.deliveries.find? cmd.deliveryId = some d)
    (hlive : d.trackingSource = .live) (ha : d.assignedDroneId = some X)
    (he : db.clock < cmd.expiresAt) :
    eval Stmt.exec (ack C X true note faults) db =
      if cmd.status = .fetched then
        eval Stmt.exec (do
          let applied ← drive C cmd faults
          patch C applied (note.getD "delivery no longer in a commandable state"))
          ((Stmt.command <| .claim C .acked db.clock note).exec db).snd
      else
        (.error <| .conflict "error.command.not_awaiting_ack", db) := by
  have hf : ((Stmt.command <| .find C).exec db).fst = some (cmd, .live, some X) := by
    simp [Stmt.exec, CommandStmt.exec, CommandStmt.include?, hc, hd, hlive, ha]
  rw [DroneCommandService.ack, eval_stmt_bind, hf]
  simp only [hX, ne_eq, not_true, or_self, if_false]
  rw [eval_stmt_bind]
  simp only [Stmt.exec, Store.execEffect, not_le.mpr he, if_false]
  rw [eval_stmt_bind, eval_stmt_bind]
  simp only [Stmt.exec, Store.execEffect, CommandStmt.exec, if_true]
  by_cases hs : cmd.status = .fetched
  case pos =>
    rw [if_pos hs, Table.cas_of_guard hc (decide_eq_true hs), if_neg Nat.one_ne_zero]
  case neg =>
    have hz : (db.commands.cas C (·.status = .fetched) fun c =>
        { c with status := .acked, ackedAt := some db.clock, resultNote := note }).fst = 0 := by
      simp [Table.cas_count_eq_zero_iff, hc, hs]
    rw [if_neg hs, if_pos hz, Table.cas_eq_of_count_eq_zero hz, eval_throw]

theorem carriedOut_iff_fetched {X : DroneId} {note : Option String}
    (hc : db.commands.find? C = some cmd) (hX : cmd.droneId = X)
    (hd : db.deliveries.find? cmd.deliveryId = some d) (hlive : d.trackingSource = .live)
    (ha : d.assignedDroneId = some X) (he : db.clock < cmd.expiresAt)
    (hl : d.status ∈ cmd.type.legalStatuses) :
    (eval Stmt.exec (ack C X true note faults) db).snd.CarriedOut C cmd ↔ cmd.status = .fetched := by
  rw [ack_eval hc hX hd hlive ha he]
  split
  case isTrue hs =>
    refine iff_of_true ?_ hs
    have hf : ((Stmt.command <| .claim C .acked db.clock note).exec db).snd.commands.find? C =
        some { cmd with status := .acked, ackedAt := some db.clock, resultNote := note } := by
      simp [Stmt.exec, CommandStmt.exec, Table.find?_cas, hc, hs]
    have hd' : ((Stmt.command <| .claim C .acked db.clock note).exec db).snd.deliveries.find?
      cmd.deliveryId = some d := hd
    obtain ⟨db', he, h⟩ := drive_eval faults hd' hl hf rfl
    obtain ⟨cmd', hc', hs'⟩ := h.command
    rw [eval_bind_of_ok he, patch, if_pos rfl, eval_stmt]
    refine ⟨h.delivery, { cmd' with appliedTransition := true }, ?_, hs', rfl⟩
    simp [Stmt.exec, CommandStmt.exec, hc']
  case isFalse hs =>
    refine iff_of_false (fun h => ?_) hs
    have := h.delivery
    rw [Store.status, hd, Option.map_some, Option.some.injEq] at this
    exact DroneCommandType.not_legal_of_past DroneCommandType.target_transition (this ▸ hl)

end Drive

-- An acceptance by the addressed drone changes the delivery if and only if the drone has polled the
-- command before. A drone that has only learned of the command from the push cannot accept it.
theorem transports_agree {P : Params} {s : Pool Stmt.sig Store Call} {C : CommandId}
    {cmd : DroneCommand} {d : Delivery} (h : Reachable (system P) {} Store.Initial s)
    (hc : s.db.commands.find? C = some cmd) (ho : cmd.status.Open) (he : s.db.clock < cmd.expiresAt)
    (hd : s.db.deliveries.find? cmd.deliveryId = some d) (hl : d.status ∈ cmd.type.legalStatuses)
    (a : Acknowledgement) (ha : a.Accepts C cmd.droneId) (faults : CleanupFaults) :
    (eval Stmt.exec (a.handle faults) s.db).snd.CarriedOut C cmd ↔ Polled s.world C := by
  obtain ⟨d', hd', _, hlive, has⟩ := (callOutline.valid.reachable h).inv.flown hc
  obtain rfl := Option.some.inj <| hd.symm.trans hd'
  obtain ⟨note, hn⟩ := a.handle_eval ha faults s.db
  rw [hn, carriedOut_iff_fetched hc rfl hd hlive has he hl]
  exact fetched_iff_polled h hc ho

-- The drone of a live delivery reports that it picks up the package, and is then called back.
def recallRun : List (Cmd Call) :=
  List.flatten [
    Cmd.run 1 (.create .small) 9, Cmd.run 2 (.ingest .pickup true {}) 5,
    Cmd.run 3 (.issue none 1 .returnToBase none) 5]

def AckFrame.small : AckFrame where
  commandId := some 3
  droneId   := some 1
  accepted  := none
  note      := none

abbrev recallPool : Pool Stmt.sig Store Call :=
  (Pool.init .small).runCmds (system .small) recallRun

abbrev polledPool : Pool Stmt.sig Store Call :=
  (Pool.init .small).runCmds (system .small) (recallRun ++ Cmd.run 4 (.fetchPending 1) 3)

theorem transports_agree_polled :
    ∃ s cmd, Reachable (system .small) {} Store.Initial s ∧ s.db.commands.find? 3 = some cmd ∧
      Polled s.world 3 ∧
      (eval Stmt.exec ((Acknowledgement.mqtt .small).handle {}) s.db).snd.CarriedOut 3 cmd := by
  have h : Reachable (system .small) {} Store.Initial polledPool :=
    Reachable.runCmds_of_free _ <| .init Store.small_initial
  have hc : (polledPool.db.commands.find? 3).any fun cmd => cmd.status = .fetched ∧
      polledPool.db.clock < cmd.expiresAt ∧ cmd.droneId = 1 ∧
      (polledPool.db.deliveries.find? cmd.deliveryId).any (·.status ∈ cmd.type.legalStatuses) := by
    decide
  obtain ⟨cmd, hc, hp⟩ := (Option.any_eq_true _ _).mp hc
  obtain ⟨hf, he, hX, hl⟩ := of_decide_eq_true hp
  obtain ⟨d, hd, hl⟩ := (Option.any_eq_true _ _).mp hl
  have hpolled := (fetched_iff_polled h hc (.inr hf)).mp hf
  refine ⟨polledPool, cmd, h, hc, hpolled, ?_⟩
  refine (transports_agree h hc (.inr hf) he hd (of_decide_eq_true hl) _ ?_ {}).mpr hpolled
  exact ⟨rfl, by rw [hX]; rfl, by decide⟩

-- The command has only been pushed.
theorem transports_agree_missed :
    ¬∀ (P : Params) (s : Pool Stmt.sig Store Call), Reachable (system P) {} Store.Initial s →
      ∀ C cmd d, s.db.commands.find? C = some cmd → cmd.status.Open →
        s.db.clock < cmd.expiresAt → s.db.deliveries.find? cmd.deliveryId = some d →
        d.status ∈ cmd.type.legalStatuses → ∀ a : Acknowledgement, a.Accepts C cmd.droneId →
        ∀ faults, (eval Stmt.exec (a.handle faults) s.db).snd.CarriedOut C cmd := by
  intro h
  have hs : Reachable (system .small) {} Store.Initial recallPool :=
    Reachable.runCmds_of_free _ <| .init Store.small_initial
  have hc : (recallPool.db.commands.find? 3).any fun cmd => cmd.status = .pending ∧
      recallPool.db.clock < cmd.expiresAt ∧ cmd.droneId = 1 ∧
      (recallPool.db.deliveries.find? cmd.deliveryId).any (·.status ∈ cmd.type.legalStatuses) := by
    decide
  obtain ⟨cmd, hc, hp⟩ := (Option.any_eq_true _ _).mp hc
  obtain ⟨hf, he, hX, hl⟩ := of_decide_eq_true hp
  obtain ⟨d, hd, hl⟩ := (Option.any_eq_true _ _).mp hl
  obtain ⟨cmd', hc', hs', _⟩ := (h .small recallPool hs 3 cmd d hc (.inl hf) he hd
    (of_decide_eq_true hl) (.mqtt .small) ⟨rfl, by rw [hX]; rfl, by decide⟩ {}).command
  have hn : ((eval Stmt.exec ((Acknowledgement.mqtt .small).handle {}) recallPool.db).snd.commands.find?
      3).all (·.status = .pending) := by decide
  simp [hc', hs'] at hn

end Drovery
