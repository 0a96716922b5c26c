import Drovery.Execution.Theorems.Store
import Drovery.Objects.Theorems.Delivery
import Drovery.Services.Theorems.Blocks

namespace Drovery

open Concurrency Method Outline
open DeliveriesService DispatchService WalletService PromoService

-- The history of the platform: its current store and all statements that led to it.
abbrev History := World Stmt.sig Store Call

-- The transitions that a statement may carry out follow the life cycle.
def Stmt.Lawful : Stmt → Prop
  | .delivery (.transition _ _ tr) => tr.Lawful
  | _                              => True

-- The delivery has been launched, and it is flown as given.
def Store.Flown (db : Store) (D : DeliveryId) (source : TrackingSource) (X : Option DroneId) : Prop :=
  ∃ d, db.deliveries.find? D = some d ∧ d.status ≠ .scheduled ∧ d.trackingSource = source ∧
    d.assignedDroneId = X

-- What lawful statements never take back.
structure Store.Evolves (db db' : Store) : Prop where
  delivery : ∀ {D d}, db.deliveries.find? D = some d →
    ∃ d', db'.deliveries.find? D = some d' ∧ d.SameOrder d' ∧ d.status.Leads d'.status
  command  : ∀ {C cmd}, db.commands.find? C = some cmd →
    ∃ cmd', db'.commands.find? C = some cmd' ∧ cmd.SameOrder cmd'
  flown    : ∀ {D source X}, db.Flown D source X → db'.Flown D source X

namespace Store.Evolves

variable {db db' db'' : Store} {x : Stmt}

theorem refl (db : Store) : db.Evolves db where
  delivery h := ⟨_, h, ⟨rfl, rfl, rfl⟩, .refl⟩
  command h  := ⟨_, h, rfl, rfl, rfl, rfl⟩
  flown h    := h

theorem trans (h₁ : db.Evolves db') (h₂ : db'.Evolves db'') : db.Evolves db'' where
  delivery h := by
    obtain ⟨d', h', ⟨hu, he, hc⟩, hl⟩ := h₁.delivery h
    obtain ⟨d'', h'', ⟨hu', he', hc'⟩, hl'⟩ := h₂.delivery h'
    exact ⟨d'', h'', ⟨hu'.trans hu, he'.trans he, hc'.trans hc⟩, hl.trans hl'⟩
  command h := by
    obtain ⟨c', h', e₁, e₂, e₃, e₄⟩ := h₁.command h
    obtain ⟨c'', h'', e₁', e₂', e₃', e₄'⟩ := h₂.command h'
    exact ⟨c'', h'', e₁'.trans e₁, e₂'.trans e₂, e₃'.trans e₃, e₄'.trans e₄⟩
  flown h := h₂.flown <| h₁.flown h

theorem exec (h : x.Lawful) : db.Evolves (x.exec db).snd where
  delivery {D d} hd := by
    have := x.rowChange db D
    generalize hd' : (x.exec db).snd.deliveries.find? D = d' at this
    cases this
    case same         => exact ⟨d, hd, ⟨rfl, rfl, rfl⟩, .refl⟩
    case created hn _ => simp [hn] at hd
    case moved tr e hx he hs =>
      obtain rfl := Option.some.inj <| he.symm.trans hd
      subst hx
      refine ⟨_, rfl, ⟨tr.apply_userId, tr.apply_estimatedPrice, tr.apply_handoffCodeHash⟩, ?_⟩
      rw [tr.apply_status]
      exact .single <| tr.edge h hs
    case guessed e _ he _ =>
      obtain rfl := Option.some.inj <| he.symm.trans hd
      exact ⟨_, rfl, ⟨rfl, rfl, rfl⟩, .refl⟩
  command {C cmd} hc := by
    obtain ⟨cmd', hc', hb⟩ := x.becomes hc
    exact ⟨cmd', hc', by cases hb <;> exact ⟨rfl, rfl, rfl, rfl⟩⟩
  flown {D source X} hf := by
    obtain ⟨d, hd, hs, hsrc, ha⟩ := hf
    have := x.rowChange db D
    generalize hd' : (x.exec db).snd.deliveries.find? D = d' at this
    cases this
    case same         => exact ⟨d, hd'.trans hd, hs, hsrc, ha⟩
    case created hn _ => simp [hn] at hd
    case moved tr e hx he hg =>
      obtain rfl := Option.some.inj <| he.symm.trans hd
      subst hx
      refine ⟨_, hd', tr.apply_status ▸ (tr.edge h hg).ne_scheduled, ?_⟩
      obtain ⟨Y, rfl⟩ | ⟨hes, hsr⟩ := tr.apply_assigned db.clock e
      case inl => exact absurd (by simpa [Transition.source] using hg) hs
      case inr => exact ⟨hsr.trans hsrc, hes.trans ha⟩
    case guessed e _ he _ =>
      obtain rfl := Option.some.inj <| he.symm.trans hd
      exact ⟨_, hd', hs, hsrc, ha⟩

end Store.Evolves

-- The history `w'` is a continuation of `w`.
structure Grows (w w' : History) : Prop where
  db  : w.db.Evolves w'.db
  log : w.log <:+ w'.log

namespace Grows

variable {P : Params} {w w' w'' : History} {t : Nat} {c : Call} {x : Stmt}

theorem refl (w : History) : Grows w w :=
  ⟨.refl _, List.suffix_refl _⟩

theorem trans (h₁ : Grows w w') (h₂ : Grows w' w'') : Grows w w'' :=
  ⟨h₁.db.trans h₂.db, h₁.log.trans h₂.log⟩

theorem exec (h : x.Lawful) : Grows w (w.exec (system P) t c x) :=
  ⟨.exec h, List.suffix_cons _ _⟩

end Grows

-- The entry carried out the transition `tr` of the delivery `D`, i.e. its guard matched.
def Wins (e : Entry Stmt.sig Store Call) (o : Option CommandId) (D : DeliveryId) (tr : Transition) :
    Prop :=
  e.stmt = .delivery (.transition o D tr) ∧
    ∃ d, e.pre.deliveries.find? D = some d ∧ tr.source d.status

-- The thread `t` has moved the delivery `D` to the status `s`.
def Won (w : History) (t : Nat) (o : Option CommandId) (D : DeliveryId) (s : DeliveryStatus) : Prop :=
  ∃ e ∈ w.log, e.tid = t ∧ ∃ tr, tr.target = s ∧ Wins e o D tr

-- The thread `t` has attempted the transition `tr`, but its guard did not match.
def Lost (w : History) (t : Nat) (o : Option CommandId) (D : DeliveryId) (tr : Transition) : Prop :=
  ∃ e ∈ w.log, e.tid = t ∧ e.stmt = .delivery (.transition o D tr) ∧ ¬Wins e o D tr

-- The drone has accepted the command `C`.
def Accepted (w : History) (C : CommandId) : Prop :=
  ∃ e ∈ w.log, ∃ now note cmd, e.stmt = .command (.claim C .acked now note) ∧
    e.pre.commands.find? C = some cmd ∧ cmd.status = .fetched

-- The transition `tr` is what the command `C` stands for, which the drone has accepted.
structure Commanded (w : History) (C : CommandId) (D : DeliveryId) (tr : Transition) : Prop where
  accepted : Accepted w C
  command  : ∃ cmd, w.db.commands.find? C = some cmd ∧ cmd.deliveryId = D ∧
    tr = cmd.type.transition cmd.reason

-- The thread `t` has recorded the result of the command `C`.
def Patched (w : History) (t : Nat) (C : CommandId) : Prop :=
  ∃ e ∈ w.log, e.tid = t ∧
    (e.stmt = .command (.patchApplied C) ∨ ∃ note, e.stmt = .command (.patchRejected C note))

-- The thread `t` has looked for commands that have been accepted but not carried out, as of the time
-- of an earlier statement of its own, and has recorded the result of each of them.
def Swept (w : History) (t : Nat) : Prop :=
  ∃ e₀ ∈ w.log, ∃ e ∈ w.log, e₀.tid = t ∧ e.tid = t ∧
    ∃ cutoff, cutoff = e₀.pre.clock - commandReconcileGraceMs ∧
      e.stmt = .command (.findStranded cutoff) ∧
      ∀ r ∈ ((CommandStmt.findStranded cutoff).exec e.pre.deliveries e.pre.commands).fst,
        Patched w t r.fst

-- The code that is presented by a call to confirm the handoff, and whether it is the right one.
def Presents (P : Params) (c : Call) (w : History) (D : DeliveryId) (code : String) (right : Bool) :
    Prop :=
  ∃ U faults d, c = .confirmHandoff U D code faults ∧ w.db.deliveries.find? D = some d ∧
    handoffCodeMatches P code d.handoffCodeHash = right

-- Which calls carry out a transition.
def Entitled (P : Params) (c : Call) (w : History) (D : DeliveryId) : Transition → Prop
  | .launch _     => ∃ job, c = .handleKickoff job ∧ job.deliveryId = D
  | .deliver code => Presents P c w D code true
  | _             => True

-- A delivery has got to the point where commands of a given type are issued.
def Commandable (w : History) (D : DeliveryId) (type : DroneCommandType) : Prop :=
  ∃ d, w.db.deliveries.find? D = some d ∧
    (d.status ∈ type.legalStatuses ∨ d.status ∈ type.pastStatuses)

-- The statements with which a call gives back what it has reserved on its own, or of which it
-- consists.
def Call.Undoes (P : Params) (t : Nat) (w : History) : Call → Stmt → Prop
  | .create _, .fleet (.release D o)                           => D = P.uuid t ∧ o = .returnToFleet
  | .create _, .promo (.release D _)                           => D = P.uuid t
  | .create _, .wallet (.refund D _ _)                         => D = P.uuid t
  | .handleKickoff job, .fleet (.release D o)                  =>
    D = job.deliveryId ∧ o = .returnToFleet ∧ ∃ d, w.db.deliveries.find? D = some d
  | .refundForDelivery D _, .wallet (.refund E _ _)            => E = D
  | .refundChargeToWallet D _, .refundCharge .automatic E _ _  => E = D
  | .releaseForDelivery D _, .promo (.release E _)             => E = D
  | _, _                                                       => False

-- The calls that finish the commands which have been accepted but not carried out.
def Call.Sweeps : Call → Prop
  | .reconcileStrandedAcks _ => True
  | .scanAndReap _           => True
  | _                        => False

-- Why the thread `t` may issue a statement on behalf of its call `c`.
def Stmt.Warranted (P : Params) (t : Nat) (c : Call) (w : History) : Stmt → Prop
  | .delivery (.transition o D tr)    =>
    tr.Lawful ∧ (∀ C ∈ o, Commanded w C D tr) ∧ Entitled P c w D tr
  | .delivery (.countWrongGuess D)    => ∃ code, Presents P c w D code false
  | .command (.create _ row)          =>
    row.status = .pending ∧ row.appliedTransition = false ∧ row.ackedAt = none ∧
      Commandable w row.deliveryId row.type ∧ w.db.Flown row.deliveryId .live (some row.droneId)
  | .command (.claim _ status _ _)    => status = .acked ∨ status = .rejected
  | .command (.patchApplied C)        => ∃ D s, Won w t (some C) D s
  | .command (.patchRejected C _)     => ∃ D tr, Lost w t (some C) D tr ∧ Commanded w C D tr
  | .createDelivery D row _           =>
    D = P.uuid t ∧ (∃ inp, c = .create inp) ∧ row.New
  | x                                 =>
    (∃ D s, x.Follows D s) →
      (∃ D s o, x.Follows D s ∧ Won w t o D s) ∨ c.Undoes P t w x

section Monotonicity

variable {P : Params} {t : Nat} {c : Call} {w w' : History} {x : Stmt} {D : DeliveryId}
variable {C : CommandId} {o : Option CommandId} {s : DeliveryStatus} {tr : Transition}

theorem Won.mono (h : Won w t o D s) (hg : Grows w w') : Won w' t o D s := by
  obtain ⟨e, he, h⟩ := h
  exact ⟨e, hg.log.mem he, h⟩

theorem Lost.mono (h : Lost w t o D tr) (hg : Grows w w') : Lost w' t o D tr := by
  obtain ⟨e, he, h⟩ := h
  exact ⟨e, hg.log.mem he, h⟩

theorem Accepted.mono (h : Accepted w C) (hg : Grows w w') : Accepted w' C := by
  obtain ⟨e, he, h⟩ := h
  exact ⟨e, hg.log.mem he, h⟩

theorem Commanded.mono (h : Commanded w C D tr) (hg : Grows w w') : Commanded w' C D tr := by
  obtain ⟨ha, cmd, hc, hD, htr⟩ := h
  obtain ⟨cmd', hc', ho⟩ := hg.db.command hc
  refine ⟨ha.mono hg, cmd', hc', ho.deliveryId.trans hD, ?_⟩
  rw [ho.type, ho.reason]
  exact htr

theorem Patched.mono (h : Patched w t C) (hg : Grows w w') : Patched w' t C := by
  obtain ⟨e, he, h⟩ := h
  exact ⟨e, hg.log.mem he, h⟩

theorem Swept.mono (h : Swept w t) (hg : Grows w w') : Swept w' t := by
  obtain ⟨e₀, he₀, e, he, ht₀, ht, cutoff, hc, hs, hp⟩ := h
  exact ⟨e₀, hg.log.mem he₀, e, hg.log.mem he, ht₀, ht, cutoff, hc, hs, fun r hr => (hp r hr).mono hg⟩

theorem Presents.mono {code : String} {right : Bool} (h : Presents P c w D code right)
    (hg : Grows w w') : Presents P c w' D code right := by
  obtain ⟨U, faults, d, hc, hd, hm⟩ := h
  obtain ⟨d', hd', ho, _⟩ := hg.db.delivery hd
  exact ⟨U, faults, d', hc, hd', ho.handoffCodeHash ▸ hm⟩

theorem Commandable.mono {type : DroneCommandType} (h : Commandable w D type) (hg : Grows w w') :
    Commandable w' D type := by
  obtain ⟨d, hd, hs⟩ := h
  obtain ⟨d', hd', _, hl⟩ := hg.db.delivery hd
  exact ⟨d', hd', DroneCommandType.legal_or_past_of_leads hs hl⟩

theorem Call.Undoes.mono (h : c.Undoes P t w x) (hg : Grows w w') : c.Undoes P t w' x := by
  unfold Call.Undoes at h ⊢
  split at h
  case h_4 =>
    obtain ⟨hD, ho, d, hd⟩ := h
    obtain ⟨d', hd', _⟩ := hg.db.delivery hd
    exact ⟨hD, ho, d', hd'⟩
  all_goals exact h

-- A warrant never expires.
theorem Stmt.Warranted.mono (h : x.Warranted P t c w) (hg : Grows w w') :
    x.Warranted P t c w' := by
  have follow {x : Stmt} (h : (∃ D s, x.Follows D s) →
      (∃ D s o, x.Follows D s ∧ Won w t o D s) ∨ c.Undoes P t w x) : (∃ D s, x.Follows D s) →
      (∃ D s o, x.Follows D s ∧ Won w' t o D s) ∨ c.Undoes P t w' x := by
    intro hf
    exact (h hf).imp (fun ⟨D, s, o, hf, hw⟩ => ⟨D, s, o, hf, hw.mono hg⟩) (·.mono hg)
  cases x
  case delivery x =>
    cases x
    case transition o D tr =>
      obtain ⟨hl, hc, he⟩ := h
      refine ⟨hl, fun C hC => (hc C hC).mono hg, ?_⟩
      cases tr
      case deliver => exact Presents.mono he hg
      all_goals exact he
    case countWrongGuess => obtain ⟨code, h⟩ := h; exact ⟨code, h.mono hg⟩
    all_goals exact follow h
  case command x =>
    cases x
    case create        =>
      exact ⟨h.1, h.2.1, h.2.2.1, h.2.2.2.1.mono hg, hg.db.flown h.2.2.2.2⟩
    case claim         => exact h
    case patchApplied  => obtain ⟨D, s, h⟩ := h; exact ⟨D, s, h.mono hg⟩
    case patchRejected => obtain ⟨D, tr, h, hc⟩ := h; exact ⟨D, tr, h.mono hg, hc.mono hg⟩
    all_goals exact follow h
  case createDelivery => exact h
  all_goals exact follow h

theorem Stmt.Warranted.lawful (h : x.Warranted P t c w) : x.Lawful := by
  cases x
  case delivery x =>
    cases x
    case transition => exact h.left
    all_goals trivial
  all_goals trivial

end Monotonicity

end Drovery
