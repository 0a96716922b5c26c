import Drovery.Theorems.Lifecycle

namespace Drovery

open Concurrency Method Outline

section

variable {C C' : CommandId} {x : Stmt} {db : Store}

-- At most one command of a delivery is open.
def Commands.OneOpen (commands : Commands) : Prop :=
  ∀ {C C' cmd cmd'}, commands.find? C = some cmd → commands.find? C' = some cmd' →
    cmd.status.Open → cmd'.status.Open → cmd.deliveryId = cmd'.deliveryId → C = C'

-- A command that is open after a statement was open before, unless it has just been created.
theorem Stmt.CommandChange.open {cmd : DroneCommand}
    (h : CommandChange db C x (some cmd)) (ho : cmd.status.Open) :
    (∃ cmd', db.commands.find? C = some cmd' ∧ cmd'.status.Open ∧
      cmd'.deliveryId = cmd.deliveryId) ∨
    x = .command (.create C cmd) ∧
      ¬0 < db.commands.count fun _ c => c.deliveryId = cmd.deliveryId ∧ c.status.Open := by
  generalize hc : some cmd = cmd' at h
  cases h
  case same => exact .inl ⟨cmd, hc.symm, ho, rfl⟩
  case created hx _ hn =>
    obtain rfl := Option.some.inj hc
    exact .inr ⟨hx, fun hp => hn ⟨ho, hp⟩⟩
  case fetched c _ hf hs =>
    obtain rfl := Option.some.inj hc
    exact .inl ⟨c, hf, .inl hs, rfl⟩
  case expired => obtain rfl := Option.some.inj hc; simp [DroneCommandStatus.Open] at ho
  case claimed c _ hf hs =>
    obtain rfl := Option.some.inj hc
    exact .inl ⟨c, hf, .inr hs, rfl⟩
  case applied c _ hf =>
    obtain rfl := Option.some.inj hc
    exact .inl ⟨c, hf, ho, rfl⟩
  case rejected => obtain rfl := Option.some.inj hc; simp [DroneCommandStatus.Open] at ho

-- The unique index admits a new command only if no other one is open.
theorem Commands.OneOpen.exec (h : Commands.OneOpen db.commands) :
    Commands.OneOpen (x.exec db).snd.commands := by
  intro C C' cmd cmd' hc hc' ho ho' hD
  have fresh {C C' : CommandId} {cmd cmd' : DroneCommand} (hx : x = .command (.create C cmd))
      (hn : ¬0 < db.commands.count fun _ c => c.deliveryId = cmd.deliveryId ∧ c.status.Open)
      (hf : db.commands.find? C' = some cmd') (ho : cmd'.status.Open)
      (hD : cmd'.deliveryId = cmd.deliveryId) : False :=
    hn <| Table.count_pos hf (by simp [hD, ho])
  obtain ⟨c₁, hf₁, ho₁, hD₁⟩ | ⟨hx, hn⟩ := (hc ▸ x.commandChange db C).open ho <;>
  obtain ⟨c₂, hf₂, ho₂, hD₂⟩ | ⟨hx', hn'⟩ := (hc' ▸ x.commandChange db C').open ho'
  case inl.inl => exact h hf₁ hf₂ ho₁ ho₂ (hD₁.trans <| hD.trans hD₂.symm)
  case inl.inr => exact (fresh hx' hn' hf₁ ho₁ <| hD₁.trans hD).elim
  case inr.inl => exact (fresh hx hn hf₂ ho₂ <| hD₂.trans hD.symm).elim
  case inr.inr =>
    have := hx.symm.trans hx'
    simp only [Stmt.command.injEq, CommandStmt.create.injEq] at this
    exact this.left

-- The row of a command that is no longer open.
def Store.Closed (db : Store) (C : CommandId) : Prop :=
  ∃ cmd, db.commands.find? C = some cmd ∧ ¬cmd.status.Open

theorem Store.Closed.exec (h : db.Closed C) : (x.exec db).snd.Closed C := by
  obtain ⟨cmd, hc, hn⟩ := h
  obtain ⟨cmd', hc', hb⟩ := x.becomes hc
  refine ⟨cmd', hc', ?_⟩
  cases hb
  case same       => exact hn
  case fetched hs => exact absurd (.inl hs) hn
  case expired ho => exact absurd ho hn
  case claimed hs => exact absurd (.inr hs) hn
  case applied    => exact hn
  case rejected   => simp [DroneCommandStatus.Open]

end

-- The entry changed a delivery on behalf of the command `C`.
def carriesOut (C : CommandId) (e : Entry Stmt.sig Store Call) : Bool :=
  match e.stmt with
  | .delivery (.transition o D tr) =>
    o = some C && (e.pre.deliveries.find? D).any (tr.source ·.status)
  | _ => false

-- The entry closed the command `C`.
def closes (P : Params) (C : CommandId) (e : Entry Stmt.sig Store Call) : Bool :=
  (e.pre.commands.find? C).any (·.status.Open) &&
    ((e.post (system P)).commands.find? C).any (¬·.status.Open)

-- The drone has refused the command `C`.
def Refuses (e : Entry Stmt.sig Store Call) (C : CommandId) : Prop :=
  ∃ now note cmd, e.stmt = .command (.claim C .rejected now note) ∧
    e.pre.commands.find? C = some cmd ∧ cmd.status = .fetched

-- The command `C` has expired.
def Expires (P : Params) (e : Entry Stmt.sig Store Call) (C : CommandId) : Prop :=
  ∃ cmd cmd', e.pre.commands.find? C = some cmd ∧ cmd.status ≠ .expired ∧
    (e.post (system P)).commands.find? C = some cmd' ∧ cmd'.status = .expired

theorem eq_of_countP_le_one {α : Type} {l : List α} {p : α → Bool} {a b : α}
    (h : l.countP p ≤ 1) (ha : a ∈ l) (hb : b ∈ l) (hpa : p a) (hpb : p b) : a = b := by
  rw [List.countP_eq_length_filter] at h
  have ha := List.mem_filter.mpr ⟨ha, hpa⟩
  have hb := List.mem_filter.mpr ⟨hb, hpb⟩
  match hl : l.filter p, h, ha, hb with
  | [c], _, ha, hb => exact (List.mem_singleton.mp ha).trans (List.mem_singleton.mp hb).symm

section

variable {P : Params} {pol : Policy Stmt.sig Store Call} {s : Pool Stmt.sig Store Call}
variable {C : CommandId} {e : Entry Stmt.sig Store Call}

theorem carriesOut_iff : carriesOut C e ↔ ∃ D tr, Wins e (some C) D tr := by
  unfold carriesOut Wins
  split
  case h_1 o D tr he =>
    simp only [he, Option.any_eq_true, Bool.and_eq_true, decide_eq_true_eq, Stmt.delivery.injEq,
      DeliveryStmt.transition.injEq]
    constructor
    case mp  => rintro ⟨rfl, h⟩; exact ⟨D, tr, ⟨rfl, rfl, rfl⟩, h⟩
    case mpr => rintro ⟨_, _, ⟨rfl, rfl, rfl⟩, h⟩; exact ⟨rfl, h⟩
  case h_2 hn =>
    simp only [Bool.false_eq_true, false_iff, not_exists]
    rintro D tr ⟨he, _⟩
    exact hn _ _ _ he

-- A command is closed at most once, because it is never reopened.
theorem countP_closes_le (h : Reachable (system P) pol Store.Initial s) (C : CommandId) :
    s.log.countP (closes P C) ≤ 1 := by
  refine (h.invariant (I := fun w => w.log.countP (closes P C) ≤ 1 ∧
    (0 < w.log.countP (closes P C) → w.db.Closed C)) (by simp) fun {s t c x} st ih => ?_).left
  rw [World.exec_log, List.countP_cons]
  split
  case isFalse => exact ⟨ih.left, fun hp => (ih.right hp).exec⟩
  case isTrue ht =>
    simp only [closes, Bool.and_eq_true, Option.any_eq_true, decide_eq_true_eq] at ht
    obtain ⟨⟨cmd, hc, ho⟩, cmd', hc', hn⟩ := ht
    have hz : s.log.countP (closes P C) = 0 := by
      refine Nat.eq_zero_of_not_pos fun hp => ?_
      obtain ⟨cmd', hc', hn⟩ := ih.right hp
      exact hn <| Option.some.inj (hc.symm.trans hc') ▸ ho
    exact ⟨by rw [hz], fun _ => ⟨cmd', hc', hn⟩⟩

-- Once a command has been tried, whether or not it changed its delivery, the delivery is past it.
theorem past_of_attempt {D : DeliveryId} {tr : Transition}
    (h : Reachable (system P) pol Store.Initial s) (he : e ∈ s.log)
    (hs : e.stmt = .delivery (.transition (some C) D tr)) :
    ∃ cmd d, s.db.commands.find? C = some cmd ∧ s.db.deliveries.find? cmd.deliveryId = some d ∧
      d.status ∈ cmd.type.pastStatuses := by
  obtain ⟨newer, older, hl⟩ := List.append_of_mem he
  obtain ⟨s₀, st, hw, hg⟩ := h.entry (R := Grows) .refl .trans
    (fun st => .exec (StepOf.warranted st).lawful) hl
  have hx := StepOf.warranted st
  rw [hs] at hx hg
  obtain ⟨_, cmd, hc, rfl, rfl⟩ := hx.2.1 C rfl
  obtain ⟨d, hd, ho⟩ := (callOutline.valid.reachable st.reachable).inv.commandable hc
  obtain ⟨cmd', hc', ho'⟩ := hg.db.command (C := C) hc
  -- The write itself leads there from each of the statuses in which the command is legal.
  have ⟨d', hd', hp⟩ : ∃ d', (s₀.world.exec (system P) e.tid e.call (.delivery <| .transition (some C)
      cmd.deliveryId (cmd.type.transition cmd.reason))).db.deliveries.find? cmd.deliveryId = some d' ∧
      d'.status ∈ cmd.type.pastStatuses := by
    simp only [World.exec_db, system, Stmt.exec, DeliveryStmt.exec, Table.find?_cas, if_true]
    rw [hd, Option.map_some]
    refine ⟨_, rfl, ?_⟩
    split
    case isTrue     => rw [Transition.apply_status]; exact DroneCommandType.target_transition
    case isFalse hn => exact ho.resolve_left fun hl => hn <| DroneCommandType.source_transition.mpr hl
  obtain ⟨d'', hd'', _, hl⟩ := hg.db.delivery hd'
  refine ⟨cmd', d'', hc', ho'.deliveryId ▸ hd'', ?_⟩
  exact ho'.type ▸ DroneCommandType.past_of_leads hp hl

-- A command does not change its delivery once it has been tried.
theorem not_attempted_of_wins {D : DeliveryId} {tr : Transition} {t : Nat} {c : Call} {d : Delivery}
    (st : StepOf (system P) pol Store.Initial s t c (.delivery <| .transition (some C) D tr))
    (hd : s.db.deliveries.find? D = some d) (hs : tr.source d.status) :
    ∀ e ∈ s.log, ∀ D tr, e.stmt ≠ .delivery (.transition (some C) D tr) := by
  intro e he D' tr' hx
  obtain ⟨cmd, d', hc, hd', hp⟩ := past_of_attempt st.reachable he hx
  obtain ⟨_, cmd', hc', rfl, rfl⟩ := (StepOf.warranted st).2.1 C rfl
  obtain rfl := Option.some.inj (hc.symm.trans hc')
  obtain rfl := Option.some.inj (hd.symm.trans hd')
  exact DroneCommandType.not_legal_of_past hp <| DroneCommandType.source_transition.mp hs

-- A command changes its delivery at most once.
theorem countP_carriesOut_le (h : Reachable (system P) pol Store.Initial s) (C : CommandId) :
    s.log.countP (carriesOut C) ≤ 1 := by
  refine h.invariant (I := fun w => w.log.countP (carriesOut C) ≤ 1) (by simp)
    fun {s t c x} st ih => ?_
  rw [World.exec_log, List.countP_cons]
  split
  case isFalse => exact ih
  case isTrue ht =>
    obtain ⟨D, tr, he, d, hd, hs⟩ := carriesOut_iff.mp ht
    obtain rfl : x = .delivery (.transition (some C) D tr) := he
    have hz : s.log.countP (carriesOut C) = 0 := by
      refine List.countP_eq_zero.mpr fun e he hc => ?_
      obtain ⟨D', tr', hx, _⟩ := carriesOut_iff.mp hc
      exact not_attempted_of_wins st hd hs e he D' tr' hx
    rw [hz]

-- A command that changed its delivery has been accepted.
theorem accepted_of_carriesOut (h : Reachable (system P) pol Store.Initial s) (he : e ∈ s.log)
    (hc : carriesOut C e) : Accepted s.world C := by
  obtain ⟨newer, older, hl⟩ := List.append_of_mem he
  obtain ⟨D, tr, hs, _⟩ := carriesOut_iff.mp hc
  obtain ⟨hx, hg⟩ := entry_warranted h hl
  rw [hs] at hx
  have hg' : Grows ⟨e.pre, older⟩ ⟨e.post (system P), e :: older⟩ := .exec (x := e.stmt) (hs ▸ hx.1)
  exact (hx.2.1 C rfl).accepted.mono <| hg'.trans hg

-- The entries that decide the fate of a command all close it.
theorem closes_iff : closes P C e ↔ (∃ cmd, e.pre.commands.find? C = some cmd ∧ cmd.status.Open) ∧
    ∃ cmd, (e.post (system P)).commands.find? C = some cmd ∧ ¬cmd.status.Open := by
  simp [closes, Option.any_eq_true]

-- The row of a command that has been claimed.
theorem find?_claim {status : DroneCommandStatus} {now : Time} {note : Option String}
    {cmd : DroneCommand} (he : e.stmt = .command (.claim C status now note))
    (hc : e.pre.commands.find? C = some cmd) (hs : cmd.status = .fetched) :
    (e.post (system P)).commands.find? C =
      some { cmd with status := status, ackedAt := some now, resultNote := note } := by
  obtain ⟨t, c, x, db⟩ := e
  obtain rfl : x = .command (.claim C status now note) := he
  simp only [Entry.post, system, Stmt.exec, CommandStmt.exec]
  rw [Table.cas_of_guard hc (by simp [hs]), Table.find?_modify_self, hc]
  rfl

theorem closes_of_claim {status : DroneCommandStatus} {now : Time} {note : Option String}
    {cmd : DroneCommand} (he : e.stmt = .command (.claim C status now note))
    (hn : ¬status.Open) (hc : e.pre.commands.find? C = some cmd) (hs : cmd.status = .fetched) :
    closes P C e :=
  closes_iff.mpr ⟨⟨cmd, hc, .inr hs⟩, _, find?_claim he hc hs, hn⟩

theorem closes_of_refuses (h : Refuses e C) : closes P C e := by
  obtain ⟨now, note, cmd, he, hc, hs⟩ := h
  exact closes_of_claim he (by simp [DroneCommandStatus.Open]) hc hs

theorem closes_of_expires (h : Expires P e C) : closes P C e := by
  obtain ⟨cmd, cmd', hc, hn, hc', hs⟩ := h
  refine closes_iff.mpr ⟨⟨cmd, hc, ?_⟩, cmd', hc', by simp [hs, DroneCommandStatus.Open]⟩
  have := e.stmt.commandChange e.pre C
  rw [show (e.stmt.exec e.pre).snd.commands.find? C = some cmd' from hc'] at this
  generalize hd : some cmd' = d at this
  cases this
  case same           => exact absurd (Option.some.inj (hd.trans hc) ▸ hs) hn
  case created hf _   => simp [hf] at hc
  case fetched        => simp [Option.some.inj hd] at hs
  case rejected       => simp [Option.some.inj hd] at hs
  case expired hf ho  => exact Option.some.inj (hf.symm.trans hc) ▸ ho
  case claimed hf hs' => exact .inr <| Option.some.inj (hf.symm.trans hc) ▸ hs'
  case applied hf     =>
    obtain rfl := Option.some.inj (hf.symm.trans hc)
    simp [Option.some.inj hd, hn] at hs

-- A command that has been accepted neither expires nor is it refused.
theorem not_accepted_of_closes (h : Reachable (system P) pol Store.Initial s) (he : e ∈ s.log)
    (hx : Refuses e C ∨ Expires P e C) : ¬Accepted s.world C := by
  rintro ⟨e', he', now, note, cmd, hs, hc, hf⟩
  have hcl : closes P C e := hx.elim closes_of_refuses closes_of_expires
  have hcl' : closes P C e' := closes_of_claim hs (by simp [DroneCommandStatus.Open]) hc hf
  obtain rfl := eq_of_countP_le_one (countP_closes_le h C) he he' hcl hcl'
  obtain ⟨_, _, _, hs', _⟩ | ⟨_, cmd', _, _, hd, hex⟩ := hx
  case inl => simp [hs] at hs'
  case inr => simp [← Option.some.inj ((find?_claim hs hc hf).symm.trans hd)] at hex

end

-- Each delivery has at most one open command. A command changes its delivery at most once, and not at
-- all if it has expired or has been refused, and it is never reopened.
theorem drone_commands_act_once {P : Params} {s : Pool Stmt.sig Store Call}
    (h : Reachable (system P) {} Store.Initial s) :
    Commands.OneOpen s.db.commands ∧
    ∀ C, s.log.countP (carriesOut C) ≤ 1 ∧
      ((∃ e ∈ s.log, Refuses e C ∨ Expires P e C) → ∀ e ∈ s.log, ¬carriesOut C e) ∧
      (∀ e ∈ s.log, e.pre.Closed C → s.db.Closed C) := by
  refine ⟨?_, fun C => ⟨countP_carriesOut_le h C, ?_, fun e he hc => ?_⟩⟩
  case refine_1 =>
    refine h.invariant (I := fun w => Commands.OneOpen w.db.commands) (fun hi => ?_)
      fun _ ih => ih.exec
    intro C _ _ _ hf
    simp [hi.commands] at hf
  case refine_2 =>
    rintro ⟨e, he, hx⟩ e' he' hc
    exact not_accepted_of_closes h he hx <| accepted_of_carriesOut h he' hc
  case refine_3 =>
    obtain ⟨newer, older, hl⟩ := List.append_of_mem he
    obtain ⟨s₀, _, hw, hr⟩ := h.entry (R := fun w w' => w.db.Closed C → w'.db.Closed C)
      (fun _ h => h) (fun h₁ h₂ h => h₂ <| h₁ h) (fun _ h => h.exec) hl
    exact hr <| Store.Closed.exec <| by simpa [hw] using hc

-- A drone that has picked up its parcel is ordered to return, and acknowledges the order twice at the
-- same time.
def returnRun : List (Cmd Call) :=
  List.flatten [
    Cmd.run 1 (.create .small) 9, Cmd.run 2 (.handleStage 1 2) 5,
    Cmd.run 3 (.issue none 1 .returnToBase none) 5, Cmd.run 4 (.fetchPending 1) 3,
    Cmd.run 5 (.ack 3 1 true none {}) 3, Cmd.run 6 (.ack 3 1 true none {}) 12, [.exec 5]]

theorem drone_commands_act_once_return :
    let s := (Pool.init .small).runCmds (system .small) returnRun
    s.db.status 1 = some .returning ∧ s.log.countP (carriesOut 3) = 1 ∧
      Commands.OneOpen s.db.commands := by
  have h := drone_commands_act_once (P := .small) (Reachable.runCmds_of_free returnRun
    (.init Store.small_initial))
  exact ⟨by decide, by decide, h.left⟩

end Drovery
