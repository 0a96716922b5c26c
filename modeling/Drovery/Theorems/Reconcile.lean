import Drovery.Theorems.Commands

namespace Drovery

open Concurrency Outline

-- The command (if any) on whose behalf a statement changes a delivery.
def Stmt.onBehalfOf : Stmt → Option CommandId
  | .delivery (.transition o _ _) => o
  | _                             => none

-- The runs in which no command is tried again after it has changed its delivery.
def notRedriven : Policy Stmt.sig Store Call where
  step s _ _ x := ∀ C ∈ x.onBehalfOf, ∀ e ∈ s.log, ¬carriesOut C e

instance {s : Pool Stmt.sig Store Call} {t : Nat} {c : Call} {x : Stmt} :
    Decidable (notRedriven.step s t c x) :=
  inferInstanceAs (Decidable (∀ C ∈ x.onBehalfOf, ∀ e ∈ s.log, ¬carriesOut C e))

instance : DecidablePred notRedriven.spawn :=
  fun _ => .isTrue trivial

instance : Decidable notRedriven.crash :=
  .isTrue trivial

-- The command `C` has been refused or has failed to change its delivery.
def Forgone (w : History) (C : CommandId) : Prop :=
  ∃ e ∈ w.log, Refuses e C ∨
    (∃ D tr, e.stmt = .delivery (.transition (some C) D tr)) ∧ ¬carriesOut C e

theorem Forgone.mono {w w' : History} {C : CommandId} (h : Forgone w C) (hg : Grows w w') :
    Forgone w' C := by
  obtain ⟨e, he, h⟩ := h
  exact ⟨e, hg.log.mem he, h⟩

-- What the row of a command says about the history.
structure Registered (w : History) (C : CommandId) (cmd : DroneCommand) : Prop where
  applied  : cmd.appliedTransition = true → ∃ e ∈ w.log, carriesOut C e
  rejected : cmd.status = .rejected → Forgone w C
  answered : cmd.ackedAt.isSome → cmd.status = .acked ∨ cmd.status = .rejected

section

variable {P : Params} {t : Nat} {c : Call} {w w' : History} {x : Stmt} {C : CommandId}
variable {D : DeliveryId} {tr : Transition} {cmd : DroneCommand} {db : Store}

theorem carriesOut_of_won {s : DeliveryStatus} (h : Won w t (some C) D s) :
    ∃ e ∈ w.log, carriesOut C e := by
  obtain ⟨e, he, _, tr, _, hw⟩ := h
  exact ⟨e, he, carriesOut_iff.mpr ⟨D, tr, hw⟩⟩

theorem forgone_of_lost (h : Lost w t (some C) D tr) : Forgone w C := by
  obtain ⟨e, he, _, hs, hn⟩ := h
  refine ⟨e, he, .inr ⟨⟨D, tr, hs⟩, fun hc => hn ?_⟩⟩
  obtain ⟨D', tr', hs', hd⟩ := carriesOut_iff.mp hc
  simp only [hs, Stmt.delivery.injEq, DeliveryStmt.transition.injEq] at hs'
  obtain ⟨_, rfl, rfl⟩ := hs'
  exact ⟨hs, hd⟩

theorem Registered.mono (h : Registered w C cmd) (hg : Grows w w') : Registered w' C cmd where
  applied ha  := have ⟨e, he, hc⟩ := h.applied ha; ⟨e, hg.log.mem he, hc⟩
  rejected hr := (h.rejected hr).mono hg
  answered    := h.answered

theorem Registered.exec (h : ∀ {C cmd}, w.db.commands.find? C = some cmd → Registered w C cmd)
    (hx : x.Warranted P t c w) (hf : (x.exec w.db).snd.commands.find? C = some cmd) :
    Registered (w.exec (system P) t c x) C cmd := by
  have hg : Grows w (w.exec (system P) t c x) := .exec hx.lawful
  have := x.commandChange w.db C
  generalize (x.exec w.db).snd.commands.find? C = cmd' at this hf
  cases this
  case same => exact (h hf).mono hg
  case created he _ _ =>
    obtain rfl := Option.some.inj hf
    subst he
    obtain ⟨hs, ha, hn, _⟩ := hx
    exact ⟨by simp [ha], by simp [hs], by simp [hn]⟩
  case fetched hc hs =>
    obtain rfl := Option.some.inj hf
    refine ⟨((h hc).mono hg).applied, by simp, fun ha => ?_⟩
    simpa [hs] using (h hc).answered ha
  case expired hc ho =>
    obtain rfl := Option.some.inj hf
    refine ⟨((h hc).mono hg).applied, by simp, fun ha => ?_⟩
    obtain hs | hs := (h hc).answered ha <;> simp [hs, DroneCommandStatus.Open] at ho
  case claimed now note c he hc hs =>
    obtain rfl := Option.some.inj hf
    subst he
    refine ⟨((h hc).mono hg).applied, ?_, fun _ => hx⟩
    rintro rfl
    exact ⟨_, .head _, .inl ⟨now, note, c, rfl, hc, hs⟩⟩
  case applied he hc =>
    obtain rfl := Option.some.inj hf
    refine ⟨fun _ => ?_, ((h hc).mono hg).rejected, (h hc).answered⟩
    subst he
    obtain ⟨D, s, hw⟩ := hx
    exact carriesOut_of_won <| hw.mono hg
  case rejected he hc =>
    obtain rfl := Option.some.inj hf
    refine ⟨((h hc).mono hg).applied, fun _ => ?_, by simp⟩
    subst he
    obtain ⟨D, tr, hl, _⟩ := hx
    exact (forgone_of_lost hl).mono hg

-- The row of the command `C` satisfies `p`.
def Store.Shows (db : Store) (C : CommandId) (p : DroneCommand → Prop) : Prop :=
  ∃ cmd, db.commands.find? C = some cmd ∧ p cmd

-- A fact about a row that no statement can undo.
abbrev Lasting (p : DroneCommand → Prop) : Prop :=
  ∀ {c c'}, Stmt.Becomes c c' → p c → p c'

theorem Store.Shows.exec {p : DroneCommand → Prop} (hp : Lasting p) (h : db.Shows C p) :
    (x.exec db).snd.Shows C p := by
  obtain ⟨cmd, hc, h⟩ := h
  obtain ⟨cmd', hc', hb⟩ := x.becomes hc
  exact ⟨cmd', hc', hp hb h⟩

theorem lasting_applied : Lasting (·.appliedTransition = true) := by
  intro c c' hb h
  cases hb <;> first | exact h | rfl

theorem lasting_rejected : Lasting (·.status = .rejected) := by
  intro c c' hb h
  cases hb <;> simp_all [DroneCommandStatus.Open]

theorem lasting_answered : Lasting fun c => c.status = .acked ∨ c.status = .rejected := by
  intro c c' hb h
  obtain h | h := h <;> cases hb <;> simp_all [DroneCommandStatus.Open]

end

section

variable {P : Params} {pol : Policy Stmt.sig Store Call} {s : Pool Stmt.sig Store Call}
variable {C : CommandId} {e : Entry Stmt.sig Store Call} {p : DroneCommand → Prop}

-- A lasting fact that held after one of the statements still holds.
theorem shows_of_entry (h : Reachable (system P) pol Store.Initial s) (he : e ∈ s.log)
    (hp : Lasting p) (hs : (e.post (system P)).Shows C p) : s.db.Shows C p := by
  obtain ⟨newer, older, hl⟩ := List.append_of_mem he
  obtain ⟨s₀, _, hw, hr⟩ := h.entry (R := fun w w' => w.db.Shows C p → w'.db.Shows C p)
    (fun _ h => h) (fun h₁ h₂ h => h₂ <| h₁ h) (fun _ h => h.exec hp) hl
  exact hr <| by simpa [hw, Entry.post] using hs

theorem registered (h : Reachable (system P) pol Store.Initial s) {cmd : DroneCommand}
    (hc : s.db.commands.find? C = some cmd) : Registered s.world C cmd := by
  refine h.invariant (I := fun w => ∀ {C cmd}, w.db.commands.find? C = some cmd →
    Registered w C cmd) (fun hi _ _ hc => by simp [hi.commands] at hc) (fun st ih _ _ hc => ?_) hc
  exact .exec ih (StepOf.warranted st) hc

-- A command that has been accepted stays answered.
theorem answered_of_accepted (h : Reachable (system P) pol Store.Initial s)
    (ha : Accepted s.world C) : s.db.Shows C fun c => c.status = .acked ∨ c.status = .rejected := by
  obtain ⟨e, he, now, note, cmd, hs, hc, hf⟩ := ha
  exact shows_of_entry h he lasting_answered ⟨_, find?_claim hs hc hf, .inl rfl⟩

-- If no command is tried again after it has changed its delivery, then a command that has been forgone
-- never changes its delivery.
theorem not_carriesOut_of_forgone (h : Reachable (system P) notRedriven Store.Initial s)
    (hf : Forgone s.world C) : ∀ e ∈ s.log, ¬carriesOut C e := by
  obtain ⟨e', he', hr | ⟨⟨D', tr', hs'⟩, hn⟩⟩ := hf
  case inl =>
    intro e he hc
    exact not_accepted_of_closes h he' (.inl hr) <| accepted_of_carriesOut h he hc
  case inr =>
    refine h.invariant (I := fun w : History => ∀ e' ∈ w.log, ∀ D tr,
      e'.stmt = .delivery (.transition (some C) D tr) → ¬carriesOut C e' → ∀ e ∈ w.log,
      ¬carriesOut C e) (by simp) (fun {s t c x} st ih => ?_) e' he' D' tr' hs' hn
    intro e' he' D tr hs hn e he hc
    obtain rfl | hm' := List.mem_cons.mp he' <;> obtain rfl | hm := List.mem_cons.mp he
    case inl.inl => exact hn hc
    case inl.inr =>
      obtain rfl : x = .delivery (.transition (some C) D tr) := hs
      exact st.allowed C rfl e hm hc
    case inr.inl =>
      obtain ⟨D', tr', hx, d, hd, hd'⟩ := carriesOut_iff.mp hc
      obtain rfl : x = .delivery (.transition (some C) D' tr') := hx
      exact not_attempted_of_wins st hd hd' e' hm' D tr hs
    case inr.inr => exact ih e' hm' D tr hs hn e hm hc

-- The command `C` is recorded as applied if and only if it has changed its delivery, and as rejected
-- otherwise.
def TellsTruth (w : History) (C : CommandId) : Prop :=
  ∃ cmd, w.db.commands.find? C = some cmd ∧
    (cmd.status = .acked ∧ cmd.appliedTransition = true ↔ ∃ e ∈ w.log, carriesOut C e) ∧
    ((∀ e ∈ w.log, ¬carriesOut C e) → cmd.status = .rejected)

theorem tellsTruth_of_rejected (h : Reachable (system P) notRedriven Store.Initial s)
    (hs : s.db.Shows C (·.status = .rejected)) : TellsTruth s.world C := by
  obtain ⟨cmd, hc, hr⟩ := hs
  have hn := not_carriesOut_of_forgone h <| (registered h hc).rejected hr
  refine ⟨cmd, hc, ⟨fun ha => by simp [hr] at ha, fun ⟨e, he, hc⟩ => ?_⟩, fun _ => hr⟩
  exact absurd hc (hn e he)

theorem tellsTruth_of_applied (h : Reachable (system P) notRedriven Store.Initial s)
    (hs : s.db.Shows C (·.appliedTransition = true)) : TellsTruth s.world C := by
  obtain ⟨cmd, hc, ha⟩ := hs
  obtain ⟨e, he, hco⟩ := (registered h hc).applied ha
  obtain ⟨cmd', hc', hs⟩ := answered_of_accepted h <| accepted_of_carriesOut h he hco
  obtain rfl := Option.some.inj (hc'.symm.trans hc)
  obtain hs | hs := hs
  case inl => exact ⟨cmd', hc, ⟨fun _ => ⟨e, he, hco⟩, fun _ => ⟨hs, ha⟩⟩, fun hn => absurd hco (hn e he)⟩
  case inr => exact tellsTruth_of_rejected h ⟨cmd', hc, hs⟩

-- A recorded result is the truth.
theorem tellsTruth_of_patched {t : Nat} (h : Reachable (system P) notRedriven Store.Initial s)
    (hp : Patched s.world t C) : TellsTruth s.world C := by
  obtain ⟨e, he, _, hs⟩ := hp
  obtain ⟨s₀, st, hdb⟩ := h.stepOf he
  have hx := StepOf.warranted st
  -- Only the result of a command that has been accepted is recorded.
  have ha : Accepted s₀.world C := by
    obtain hs | ⟨note, hs⟩ := hs <;> rw [hs] at hx
    case inl =>
      obtain ⟨D, _, hw⟩ := hx
      obtain ⟨e', he', hc⟩ := carriesOut_of_won hw
      exact accepted_of_carriesOut st.reachable he' hc
    case inr => exact hx.choose_spec.choose_spec.right.accepted
  obtain ⟨cmd, hc, _⟩ := answered_of_accepted st.reachable ha
  rw [hdb] at hc
  obtain hs | ⟨note, hs⟩ := hs
  case inl =>
    refine tellsTruth_of_applied h <| shows_of_entry h he lasting_applied
      ⟨{ cmd with appliedTransition := true }, ?_, rfl⟩
    obtain ⟨t, c, x, db⟩ := e
    obtain rfl : x = .command (.patchApplied C) := hs
    simp only [Entry.post, system, Stmt.exec, CommandStmt.exec, Table.find?_modify_self]
    rw [hc, Option.map_some]
  case inr =>
    refine tellsTruth_of_rejected h <| shows_of_entry h he lasting_rejected
      ⟨{ cmd with status := .rejected, resultNote := some note }, ?_, rfl⟩
    obtain ⟨t, c, x, db⟩ := e
    obtain rfl : x = .command (.patchRejected C note) := hs
    simp only [Entry.post, system, Stmt.exec, CommandStmt.exec, Table.find?_modify_self]
    rw [hc, Option.map_some]

end

-- The acknowledgements of the command `C`.
def Call.Acks (C : CommandId) : Call → Prop
  | .ack C' .. => C' = C
  | _          => False

instance {C : CommandId} : DecidablePred (Call.Acks C) := fun c => by
  apply @Call.casesOn (Decidable <| Call.Acks C ·) c <;> intros <;> dsimp only [Call.Acks] <;>
    infer_instance

instance : DecidablePred Call.Sweeps := fun c => by
  apply @Call.casesOn (Decidable <| Call.Sweeps ·) c <;> intros <;> dsimp only [Call.Sweeps] <;>
    infer_instance

-- A sweep has been completed that did not start before the end of the grace for the command `C`, and
-- there were never more commands to finish than the sweep takes on.
def Reconciled (s : Pool Stmt.sig Store Call) (C : CommandId) : Prop :=
  ∃ t a, (∃ th ∈ s.threads t, th.Done ∧ th.call.Sweeps) ∧ ∀ e ∈ s.log, e.tid = t →
    (∃ cmd ∈ e.pre.commands.find? C, cmd.ackedAt = some a ∧
      a + commandReconcileGraceMs < e.pre.clock) ∧
    (e.pre.commands.count fun _ c => c.status = .acked && !c.appliedTransition) ≤ watchdogBatch

theorem mem_batch {commands : Commands} {deliveries : Table DeliveryId Delivery} {C : CommandId}
    {cmd : DroneCommand} {cutoff : Time} (hc : commands.find? C = some cmd)
    (hs : CommandStmt.stranded cutoff cmd)
    (hn : (commands.count fun _ c => c.status = .acked && !c.appliedTransition) ≤ watchdogBatch) :
    (C, cmd) ∈ ((CommandStmt.findStranded cutoff).exec deliveries commands).fst := by
  simp only [CommandStmt.exec]
  have hl : (commands.findMany fun _ c => CommandStmt.stranded cutoff c).length ≤ watchdogBatch := by
    rw [Table.findMany, ← List.countP_eq_length_filter]
    refine (List.countP_mono_left fun p _ hc => ?_).trans hn
    simp only [CommandStmt.stranded, decide_eq_true_eq] at hc
    simp [hc.1, hc.2.1]
  rw [List.take_of_length_le hl]
  exact List.mem_filter.mpr ⟨Table.find?_eq_some_iff.mp hc, hs⟩

-- If no command is tried again after it has changed its delivery, then the record of a command is true
-- once the sweep has been over it.
theorem command_record_true {P : Params} {s : Pool Stmt.sig Store Call}
    (h : Reachable (system P) notRedriven Store.Initial s) (C : CommandId) (hr : Reconciled s C) :
    TellsTruth s.world C := by
  obtain ⟨t, a, ⟨th, ht, hd, hsw⟩, hlog⟩ := hr
  obtain ⟨e₀, he₀, e, he, ht₀, hte, cutoff, hcut, hs, hp⟩ :=
    (callOutline.valid.reachable h).post ht hd hsw
  obtain ⟨⟨_, _, _, hlt⟩, _⟩ := hlog e₀ he₀ ht₀
  obtain ⟨⟨cmd, hc, ha, _⟩, hcount⟩ := hlog e he hte
  obtain ⟨s₀, st, hdb⟩ := h.stepOf he
  have hreg := registered st.reachable (hdb ▸ hc)
  -- The row has been read by the sweep, and reading does not change it.
  have lasts {p : DroneCommand → Prop} (hl : Lasting p) (h' : p cmd) : s.db.Shows C p := by
    refine shows_of_entry h he hl ⟨cmd, ?_, h'⟩
    obtain ⟨t, c, x, db⟩ := e
    obtain rfl : x = .command (.findStranded cutoff) := hs
    exact hc
  obtain hs | hs := hreg.answered (by simp [ha])
  case inr => exact tellsTruth_of_rejected h <| lasts lasting_rejected hs
  case inl =>
    cases hap : cmd.appliedTransition
    case true => exact tellsTruth_of_applied h <| lasts lasting_applied hap
    case false =>
      refine tellsTruth_of_patched h <| hp (C, cmd) ?_
      have hlt' : a < cutoff := hcut ▸ lt_tsub_iff_right.mpr hlt
      have hst : CommandStmt.stranded cutoff cmd := by
        simp [CommandStmt.stranded, hs, hap, ha, hlt']
      exact mem_batch hc hst hcount

-- A drone that has picked up its parcel accepts the order to return, and the acknowledgement breaks off
-- after `n` statements. The sweep comes by after the grace.
def strandedRun (n : Nat) : List (Cmd Call) :=
  List.flatten [
    Cmd.run 1 (.create .small) 9, Cmd.run 2 (.handleStage 1 2) 5,
    Cmd.run 3 (.issue none 1 .returnToBase none) 5, Cmd.run 4 (.fetchPending 1) 3,
    Cmd.run 5 (.ack 3 1 true none {}) n, [.crash 5], Cmd.run 6 (.passTime 200000) 1,
    Cmd.run 7 (.reconcileStrandedAcks fun _ => {}) 14]

abbrev strandedPool (n : Nat) : Pool Stmt.sig Store Call :=
  (Pool.init .small).runCmds (system .small) (strandedRun n)

theorem command_record_true_resumed :
    Reconciled (strandedPool 4) 3 ∧ TellsTruth (strandedPool 4).world 3 ∧
      ((strandedPool 4).db.commands.find? 3).any (·.appliedTransition) := by
  have h : Reachable (system .small) notRedriven Store.Initial (strandedPool 4) :=
    (Reachable.init Store.small_initial).runCmds (by decide)
  have hr : Reconciled (strandedPool 4) 3 := ⟨7, 0, by decide, by decide⟩
  exact ⟨hr, command_record_true h 3 hr, by decide⟩

-- If the acknowledgement breaks off after it has changed the delivery, then the sweep finds that it
-- cannot change the delivery any more and takes this for the truth.
theorem command_record_false :
    ¬∀ (P : Params) (s : Pool Stmt.sig Store Call), Reachable (system P) {} Store.Initial s →
      ∀ C, s.Idle (Call.Acks C) → Reconciled s C → TellsTruth s.world C := by
  intro h
  have hi : (strandedPool 5).Idle (Call.Acks 3) := Pool.idle_runCmds <| by decide
  obtain ⟨cmd, hc, hi, _⟩ := h .small (strandedPool 5)
    (Reachable.runCmds_of_free _ <| .init Store.small_initial) 3 hi ⟨7, 0, by decide, by decide⟩
  have hn : ((strandedPool 5).db.commands.find? 3).any (·.status = .rejected) := by decide
  have hw : ∃ e ∈ (strandedPool 5).log, carriesOut 3 e := by decide
  rw [hc] at hn
  have := hi.mpr hw
  simp_all

end Drovery
