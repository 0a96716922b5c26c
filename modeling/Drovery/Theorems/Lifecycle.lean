import Drovery.Theorems.Calls

namespace Drovery

open Concurrency Method Outline
open DeliveriesService

section Reachable

variable {P : Params} {pol : Policy Stmt.sig Store Call} {s : Pool Stmt.sig Store Call}

theorem StepOf.warranted {t : Nat} {c : Call} {x : Stmt}
    (h : StepOf (system P) pol Store.Initial s t c x) : x.Warranted P t c s.world :=
  (callOutline.valid.reachable h.reachable).pre h.aboutTo

-- Every entry of the log was warranted when it was made, and nothing has been taken back since.
theorem entry_warranted {newer older : List (Entry Stmt.sig Store Call)}
    {e : Entry Stmt.sig Store Call} (h : Reachable (system P) pol Store.Initial s)
    (he : s.log = newer ++ e :: older) :
    e.stmt.Warranted P e.tid e.call ⟨e.pre, older⟩ ∧ Grows ⟨e.post (system P), e :: older⟩ s.world := by
  obtain ⟨s₀, st, hw, hg⟩ := h.entry (R := Grows) .refl .trans
    (fun st => .exec (StepOf.warranted st).lawful) he
  have hx := StepOf.warranted st
  rw [hw] at hx hg
  exact ⟨hx, hg⟩

end Reachable

def Store.status (db : Store) (D : DeliveryId) : Option DeliveryStatus :=
  (db.deliveries.find? D).map (·.status)

-- The statuses that a delivery has taken after each statement of the history. The latest comes first.
def trail (w : History) (D : DeliveryId) : List (Option DeliveryStatus) :=
  w.db.status D :: w.log.map (·.pre.status D)

-- A delivery starts out as scheduled or pending and then keeps to the life cycle.
def Proceeds : Option DeliveryStatus → Option DeliveryStatus → Prop
  | none,   none    => True
  | none,   some s  => s = .scheduled ∨ s = .pending
  | some s, some s' => s = s' ∨ s.Edge s'
  | some _, none    => False

-- The entry changed the status of the delivery `D` from `a` to `b`.
def Moves (P : Params) (e : Entry Stmt.sig Store Call) (D : DeliveryId) (a b : DeliveryStatus) :
    Prop :=
  e.pre.status D = some a ∧ (e.post (system P)).status D = some b ∧ a ≠ b

-- The entry terminated the delivery `D`.
def terminates (P : Params) (D : DeliveryId) (e : Entry Stmt.sig Store Call) : Bool :=
  (e.pre.status D).any (¬·.Terminal) && ((e.post (system P)).status D).any (·.Terminal)

section

variable {P : Params} {t : Nat} {c : Call} {w : History} {x : Stmt} {D : DeliveryId}

theorem Stmt.Warranted.proceeds (hx : x.Warranted P t c w) :
    Proceeds (w.db.status D) ((x.exec w.db).snd.status D) := by
  have := x.rowChange w.db D
  unfold Store.status
  generalize (x.exec w.db).snd.deliveries.find? D = d' at this ⊢
  cases this
  case same => cases w.db.deliveries.find? D <;> simp [Proceeds]
  case created he hn _ =>
    subst he
    simpa [hn, Proceeds] using hx.2.2.status
  case moved tr d he hd hs =>
    subst he
    simp only [hd, Option.map_some, Proceeds, tr.apply_status]
    exact .inr <| tr.edge hx.1 hs
  case guessed he hd _ => simp [hd, Proceeds, DeliveryStmt.countGuess]

-- Only a guarded write changes a status.
theorem Stmt.Warranted.moves {a b : DeliveryStatus} (hx : x.Warranted P t c w)
    (ha : w.db.status D = some a) (hb : (x.exec w.db).snd.status D = some b) (hne : a ≠ b) :
    ∃ o tr, x = .delivery (.transition o D tr) ∧ tr.source a ∧ tr.target = b ∧
      (b = .delivered → ∃ U code faults d, c = .confirmHandoff U D code faults ∧
        w.db.deliveries.find? D = some d ∧
          handoffCodeMatches P code d.handoffCodeHash = true) := by
  have := x.rowChange w.db D
  unfold Store.status at ha hb
  generalize (x.exec w.db).snd.deliveries.find? D = d' at this hb
  cases this
  case same            => exact absurd (Option.some.inj <| ha.symm.trans hb) hne
  case created hn _    => simp [hn] at ha
  case guessed he hd _ =>
    rw [hd] at ha
    exact absurd (Option.some.inj <| ha.symm.trans hb) hne
  case moved o tr d he hd hs =>
    subst he
    simp only [hd, Option.map_some, Option.some.injEq, tr.apply_status] at ha hb
    subst ha
    refine ⟨o, tr, rfl, hs, hb, fun hdel => ?_⟩
    cases tr
    case deliver code =>
      obtain ⟨U, faults, d, hc, hd, hm⟩ := hx.2.2
      exact ⟨U, code, faults, d, hc, hd, hm⟩
    case advance => exact absurd (hb.trans hdel) hx.1
    all_goals simp [Transition.target, ← hb] at hdel

-- A terminal status is final.
theorem Grows.terminal {w' : History} {a : DeliveryStatus} (h : Grows w w')
    (ha : w.db.status D = some a) (ht : a.Terminal) : w'.db.status D = some a := by
  obtain ⟨d, hd, rfl⟩ := Option.map_eq_some_iff.mp ha
  obtain ⟨d', hd', _, hl⟩ := h.db.delivery hd
  simp [Store.status, hd', DeliveryStatus.Leads.of_terminal hl ht]

theorem terminates_iff {e : Entry Stmt.sig Store Call} :
    terminates P D e ↔ (∃ a, e.pre.status D = some a ∧ ¬a.Terminal) ∧
      ∃ b, (e.post (system P)).status D = some b ∧ b.Terminal := by
  simp [terminates, Option.any_eq_true]

theorem Stmt.Warranted.follows (hx : x.Warranted P t c w) (hf : ∃ D s, x.Follows D s) :
    (∃ D s o, x.Follows D s ∧ Won w t o D s) ∨ c.Undoes P t w x := by
  obtain ⟨D, s, hf⟩ := hf
  cases x
  case delivery       => exact hf.elim
  case command        => exact hf.elim
  case createDelivery => exact hf.elim
  all_goals exact hx ⟨D, s, hf⟩

end

-- At most one entry terminates a delivery, because a terminal status is final.
theorem countP_terminates_le {P : Params} {pol : Policy Stmt.sig Store Call}
    {s : Pool Stmt.sig Store Call} (h : Reachable (system P) pol Store.Initial s) (D : DeliveryId) :
    s.log.countP (terminates P D) ≤ 1 := by
  refine (h.invariant (I := fun w => w.log.countP (terminates P D) ≤ 1 ∧
    (0 < w.log.countP (terminates P D) → ∃ a, w.db.status D = some a ∧ a.Terminal)) (by simp)
    fun {s t c x} st ih => ?_).left
  rw [World.exec_log, List.countP_cons]
  split
  case isTrue ht =>
    obtain ⟨⟨a, ha, hn⟩, b, hb, ht⟩ := terminates_iff.mp ht
    have hz : s.log.countP (terminates P D) = 0 := by
      refine Nat.eq_zero_of_not_pos fun hp => ?_
      obtain ⟨a', ha', ht'⟩ := ih.right hp
      exact hn <| Option.some.inj (ha'.symm.trans ha) ▸ ht'
    exact ⟨by rw [hz], fun _ => ⟨b, hb, ht⟩⟩
  case isFalse =>
    refine ⟨ih.left, fun hp => ?_⟩
    obtain ⟨a, ha, ht⟩ := ih.right hp
    have hg : Grows s.world (s.world.exec (system P) t c x) := .exec (StepOf.warranted st).lawful
    exact ⟨a, hg.terminal ha ht, ht⟩

-- The run of a delivery through its life cycle. Whoever terminates it does so once and for all, and
-- only those who have changed its status themselves follow this up.
theorem delivery_lifecycle {P : Params} {s : Pool Stmt.sig Store Call}
    (h : Reachable (system P) {} Store.Initial s) (D : DeliveryId) :
    (trail s.world D).IsChain (fun new old => Proceeds old new) ∧
    (∀ e ∈ s.log, ∀ a b, Moves P e D a b → ∃ o tr, e.stmt = .delivery (.transition o D tr) ∧
      tr.source a ∧ tr.target = b ∧
      (b = .delivered → ∃ U code faults d, e.call = .confirmHandoff U D code faults ∧
        e.pre.deliveries.find? D = some d ∧ handoffCodeMatches P code d.handoffCodeHash = true)) ∧
    (∀ e ∈ s.log, ∀ a, e.pre.status D = some a → a.Terminal → s.db.status D = some a) ∧
    s.log.countP (terminates P D) ≤ 1 ∧
    (∀ newer e older, s.log = newer ++ e :: older → (∃ D s, e.stmt.Follows D s) →
      (∃ D s o, e.stmt.Follows D s ∧ Won ⟨e.pre, older⟩ e.tid o D s) ∨
        e.call.Undoes P e.tid ⟨e.pre, older⟩ e.stmt) := by
  have split_log : ∀ e ∈ s.log, ∃ newer older, s.log = newer ++ e :: older :=
    fun e he => List.append_of_mem he
  refine ⟨?_, fun e he a b hm => ?_, fun e he a ha ht => ?_, ?_, fun newer e older he hf => ?_⟩
  case refine_1 =>
    refine h.invariant (I := fun w => (trail w D).IsChain fun new old => Proceeds old new)
      (by simp [trail]) fun st ih => ?_
    exact .cons_cons (StepOf.warranted st).proceeds ih
  case refine_2 =>
    obtain ⟨newer, older, hl⟩ := split_log e he
    exact (entry_warranted h hl).left.moves hm.1 hm.2.1 hm.2.2
  case refine_3 =>
    obtain ⟨newer, older, hl⟩ := split_log e he
    obtain ⟨hx, hg⟩ := entry_warranted h hl
    have hg' : Grows ⟨e.pre, older⟩ ⟨e.post (system P), e :: older⟩ := .exec hx.lawful
    exact (hg'.trans hg).terminal ha ht
  case refine_4 => exact countP_terminates_le h D
  case refine_5 => exact (entry_warranted h he).left.follows hf

-- A delivery flies to its recipient, who confirms the handoff twice at the same time.
def handoffRun : List (Cmd Call) :=
  List.flatten [
    Cmd.run 1 (.create .small) 9, Cmd.run 2 (.handleStage 1 2) 5, Cmd.run 3 (.handleStage 1 4) 5,
    Cmd.run 4 (.confirmHandoff 1 1 "1234" {}) 1, Cmd.run 5 (.confirmHandoff 1 1 "1234" {}) 4,
    [.exec 4]]

theorem delivery_lifecycle_handoff :
    let s := (Pool.init .small).runCmds (system .small) handoffRun
    s.db.status 1 = some .delivered ∧ s.log.countP (terminates .small 1) = 1 ∧
      (trail s.world 1).IsChain fun new old => Proceeds old new := by
  have h := delivery_lifecycle (P := .small) (Reachable.runCmds_of_free handoffRun
    (.init Store.small_initial)) 1
  exact ⟨by decide, by decide, h.1⟩

end Drovery
