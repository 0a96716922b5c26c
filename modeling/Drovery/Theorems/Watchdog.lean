import Drovery.Theorems.Lifecycle

namespace Drovery

open Concurrency Method Outline
open DeliveriesService DeliveryWatchdog

-- The statement records a sign of life of the delivery `D`.
def Stmt.Tracks (D : DeliveryId) (x : Stmt) : Prop :=
  ∃ position, x = .effect (.updateTracking D position)

-- The statement is the write with which the watchdog fails the delivery `D`. The writes on behalf of
-- commands, which a scan carries out as well, are not meant.
def Call.Reaps (D : DeliveryId) : Call → Stmt → Prop
  | .scanAndReap _, .delivery (.transition none E (.fail _ _)) => E = D
  | _,              _                                          => False

-- The runs in which no sign of life of a delivery is recorded between the time when a scan selects the
-- delivery and the time when it fails the delivery.
def unheard : Policy Stmt.sig Store Call where
  step s t c x := ∀ D, c.Reaps D x → ∀ newer e older, s.log = newer ++ e :: older → e.tid = t →
    (∃ a b, e.stmt = .delivery (.findStuck a b)) → ∀ e' ∈ newer, ¬e'.stmt.Tracks D

-- The scan of the thread `t` was started by `e₀`, and it has selected the delivery `D` by `e`.
structure Selected (w : History) (t : Nat) (D : DeliveryId) (e₀ e : Entry Stmt.sig Store Call) :
    Prop where
  start  : (w.own t).getLast? = some e₀
  mem    : e ∈ w.own t
  stmt   : e.stmt = .delivery
    (.findStuck (e₀.pre.clock - watchdogSilenceMs) (e₀.pre.clock - watchdogMinAgeMs))
  stuck  : ∃ d, e.pre.deliveries.find? D = some d ∧
    DeliveryStmt.stuck e.pre.tracking (e₀.pre.clock - watchdogSilenceMs)
      (e₀.pre.clock - watchdogMinAgeMs) D d

-- The watchdog only fails deliveries that it has selected, and only from the statuses that it looks
-- for.
def reapOutline : Outline Stmt.sig Store Call where
  inv _       := True
  rely t w w' := w'.own t = w.own t
  pre t c x w := ∀ D, c.Reaps D x → (∃ e₀ e, Selected w t D e₀ e) ∧
    ∀ o allowed reason, x = .delivery (.transition o D (.fail allowed reason)) →
      allowed ⊆ DeliveryStatus.watchdogStuckStatuses

namespace reapOutline

variable {P : Params} {t : Nat} {c : Call} {w w' : History} {x : Stmt} {D : DeliveryId}
variable {e₀ e : Entry Stmt.sig Store Call}

theorem selected_rely (hr : reapOutline.rely t w w') (h : Selected w t D e₀ e) :
    Selected w' t D e₀ e :=
  ⟨hr ▸ h.start, hr ▸ h.mem, h.stmt, h.stuck⟩

theorem selected_exec (h : Selected w t D e₀ e) :
    Selected (w.exec (system P) t c x) t D e₀ e where
  start := by
    rw [World.own_exec, List.getLast?_cons_of_ne_nil (List.ne_nil_of_mem h.mem)]
    exact h.start
  mem   := by
    rw [World.own_exec]
    exact .tail _ h.mem
  stmt  := h.stmt
  stuck := h.stuck

-- The statements other than those with which the watchdog fails a delivery.
def Unreaping : Stmt → Prop
  | .delivery (.transition none _ (.fail _ _)) => False
  | _                                          => True

theorem unreaping_of_aftermath {a : DeliveryStatus} (h : Aftermath D a x) : Unreaping x := by
  unfold Unreaping
  split
  case h_1 => exact h.elim id id
  case h_2 => trivial

theorem pre_of_unreaping (h : Unreaping x) : reapOutline.pre t c x w := by
  intro D hr
  unfold Call.Reaps at hr
  split at hr
  case h_1 => exact h.elim
  case h_2 => exact hr.elim

theorem ok_unreaping {α : Type} {p : App α} (hp : Built (Single Unreaping) p) :
    reapOutline.Ok (system P) t c p w :=
  Ok.built hp fun | .tx hx => Ok.tx <| pre_of_unreaping hx

-- What a scan does on behalf of commands.
theorem reconcile_unreaping {faults : CommandId → CleanupFaults}
    {stranded : List (CommandId × DroneCommand)} :
    Built (Single Unreaping) (reconcile faults stranded) := by
  induction stranded
  case nil => exact .pure
  case cons row rest ih =>
    refine .bind (.safe <| .bind ?_ fun applied => ?_) fun _ => ih
    case refine_1 =>
      unfold DroneCommandService.drive
      split
      case h_1 => exact beginReturnToBase_single (fun _ => unreaping_of_aftermath) trivial
      case h_2 => exact failExceptional_single (fun _ => unreaping_of_aftermath) fun _ _ => trivial
    case refine_2 =>
      unfold DroneCommandService.patch
      split <;> exact Single.stmt trivial

-- The statements with which a scan works through the deliveries that it has found.
def Reaping (ds : List StuckDelivery) (x : Stmt) : Prop :=
  Unreaping x ∨ ∃ d ∈ ds, ∃ allowed ⊆ DeliveryStatus.watchdogStuckStatuses, ∃ reason,
    x = .delivery (.transition none d.id (.fail allowed reason))

theorem reap_reaping {now : Time} {faults : DeliveryId → CleanupFaults} {ds ds' : List StuckDelivery}
    (h : ds' ⊆ ds) : Built (Single (Reaping ds)) (reap now faults ds') := by
  induction ds'
  case nil => exact .pure
  case cons d ds' ih =>
    obtain ⟨hd, hds⟩ := List.cons_subset.mp h
    refine .bind ?_ fun _ => ih hds
    unfold reapStuck
    split
    case isTrue => exact .pure
    case isFalse =>
      refine .safe <| failExceptional_single (fun _ hx => .inl <| unreaping_of_aftermath hx) ?_
      exact fun a ha => .inr ⟨d, hd, a, ha, _, rfl⟩

theorem pre_of_reaping {ds : List StuckDelivery} (h : ∀ d ∈ ds, Selected w t d.id e₀ e)
    (hx : Reaping ds x) : reapOutline.pre t c x w := by
  obtain hx | ⟨d, hd, a, ha, reason, rfl⟩ := hx
  case inl => exact pre_of_unreaping hx
  case inr =>
    intro D hr
    unfold Call.Reaps at hr
    split at hr
    case h_2 => exact hr.elim
    case h_1 heq =>
      simp only [Stmt.delivery.injEq, DeliveryStmt.transition.injEq, true_and] at heq
      obtain ⟨rfl, _⟩ := heq
      obtain rfl := hr
      refine ⟨⟨e₀, e, h d hd⟩, fun o allowed reason' hx => ?_⟩
      simp only [Stmt.delivery.injEq, DeliveryStmt.transition.injEq, Transition.fail.injEq] at hx
      exact hx.2.2.1 ▸ ha

theorem reap_wpm {now : Time} {faults : DeliveryId → CleanupFaults} {ds : List StuckDelivery}
    (h : ∀ d ∈ ds, Selected w t d.id e₀ e) :
    reapOutline.Ok (system P) t c (reap now faults ds) w := by
  have hp : Built (Single (Reaping ds)) (reap now faults ds) := reap_reaping fun _ h => h
  refine Ok.of_wpm <| wpm_built (F := fun w => ∀ d ∈ ds, Selected w t d.id e₀ e) hp
    (fun hb h => ?_) h
  obtain ⟨hx⟩ := hb
  refine wpm_tx_of (pre_of_reaping h hx) fun w' hr _ _ d hd => ?_
  exact selected_exec <| selected_rely hr <| h d hd

-- The deliveries that a scan finds.
theorem mem_findStuck {db : Store} {a b : Time} {d : StuckDelivery}
    (h : d ∈ ((Stmt.delivery <| .findStuck a b).exec db).fst) :
    ∃ row, db.deliveries.find? d.id = some row ∧ DeliveryStmt.stuck db.tracking a b d.id row := by
  obtain ⟨⟨D, row⟩, hm, rfl⟩ := List.mem_map.mp h
  obtain ⟨hm, hs⟩ := List.mem_filter.mp <| (List.mem_insertionSort _).mp <| List.mem_of_mem_take hm
  exact ⟨row, Table.find?_eq_some_iff.mpr hm, hs⟩

theorem ok_scanAndReap {faults : ScanFaults} (hw : w.own t = []) :
    reapOutline.Ok (system P) t c (scanAndReap faults) w := by
  refine Ok.stmt_bind (pre_of_unreaping trivial) fun w₀ hr₀ _ _ => ?_
  refine Ok.stmt_bind (pre_of_unreaping trivial) fun w₁ hr₁ _ _ => ?_
  let a : Time := w₀.db.clock - watchdogSilenceMs
  let b : Time := w₀.db.clock - watchdogMinAgeMs
  let e₀ : Entry Stmt.sig Store Call := ⟨t, c, .effect .dateNow, w₀.db⟩
  let e₁ : Entry Stmt.sig Store Call := ⟨t, c, .delivery <| .findStuck a b, w₁.db⟩
  have hown : (w₁.exec (system P) t c (.delivery <| .findStuck a b)).own t = [e₁, e₀] := by
    have h₀ : w₀.own t = [] := hr₀.trans hw
    have h₁ : w₁.own t = [e₀] := hr₁.trans (by rw [World.own_exec, h₀])
    rw [World.own_exec, h₁]
  refine Ok.bind ?_ fun _ w => Ok.bind (ok_unreaping ?_) fun _ w => ok_unreaping ?_
  case refine_1 =>
    refine @reap_wpm P t c _ e₀ e₁ _ _ _ fun d hd => ?_
    refine ⟨congrArg List.getLast? hown, ?_, rfl, mem_findStuck hd⟩
    change e₁ ∈ (w₁.exec (system P) t c (.delivery <| .findStuck a b)).own t
    rw [hown]
    exact .head _
  case refine_2 =>
    refine .bind (Single.stmt trivial) fun now => .bind (Single.stmt trivial) fun total => ?_
    split
    case isTrue  => exact .pure
    case isFalse => exact Single.stmt trivial
  case refine_3 =>
    exact .bind (Single.stmt trivial) fun now =>
      .bind (Single.stmt trivial) fun stranded => reconcile_unreaping

theorem valid {pol : Policy Stmt.sig Store Call} :
    reapOutline.Valid (system P) pol Store.Initial where
  rely_refl _ _           := rfl
  rely_trans h₁ h₂        := h₂.trans h₁
  post_stable _ _         := trivial
  inv_init _              := trivial
  spawn {t c w} _ _ hw    := by
    have other (hc : ∀ {D x}, ¬c.Reaps D x) :
        reapOutline.wp (system P) t c ((system P).prog t c) (fun _ _ => True) w :=
      wp_of_stable (fun _ _ hr => (hc hr).elim) (fun _ h => h) (fun h => h) trivial
    cases c
    case scanAndReap => exact Ok.toCall <| ok_scanAndReap <| World.own_eq_nil hw
    all_goals exact other id
  inv_step _ _ _          := trivial
  rely_step _ _ _ hn      := World.own_exec_of_ne hn
  pre_step _ _ _ hn _ h   := fun D hr => by
    obtain ⟨⟨e₀, e, hs⟩, ha⟩ := h D hr
    exact ⟨⟨e₀, e, selected_rely (World.own_exec_of_ne hn) hs⟩, ha⟩

end reapOutline

theorem Stmt.exec_tracking (x : Stmt) (db : Store) {D : DeliveryId} (h : ¬x.Tracks D) :
    (x.exec db).snd.tracking.find? D = db.tracking.find? D := by
  cases x
  case createDelivery E row booking =>
    have h := exec_createDelivery E row booking db
    cases h
    case inl h => exact congrArg (·.tracking.find? D) h
    case inr h => exact congrArg (·.find? D) h.some.tracking
  case refundCharge ch E U amount =>
    have ⟨_, _, he⟩ := exec_refundCharge ch E U amount db
    rw [he]
  case effect y =>
    cases y
    case updateTracking E position =>
      have hne : D ≠ E := fun he => h ⟨position, he ▸ rfl⟩
      simp only [exec, Store.execEffect]
      cases hi : db.tracking.insert E db.clock
      case none   => rw [Option.getD_none, Table.find?_modify_of_ne hne]
      case some t => rw [Option.getD_some, Table.find?_insert hi, if_neg hne]
    all_goals rfl
  all_goals rfl

-- If no sign of life is recorded between the selection of a delivery and the write that fails it, then
-- the watchdog only fails deliveries that have been silent.
theorem reaper_spares {P : Params} {s : Pool Stmt.sig Store Call}
    (h : Reachable (system P) unheard Store.Initial s) {newer older : List (Entry Stmt.sig Store Call)}
    {e : Entry Stmt.sig Store Call} {D : DeliveryId} {faults : ScanFaults}
    {allowed : List DeliveryStatus} {reason : DeliveryFailureReason}
    (hl : s.log = newer ++ e :: older) (hc : e.call = .scanAndReap faults)
    (hw : Wins e none D (.fail allowed reason)) :
    ∃ e₀ d, (World.own ⟨e.pre, older⟩ e.tid).getLast? = some e₀ ∧
      e.pre.deliveries.find? D = some d ∧ d.trackingSource = .live ∧
      d.status ∈ DeliveryStatus.watchdogStuckStatuses ∧ d.status ≠ .awaitingHandoff ∧
      ∀ u, e.pre.tracking.find? D = some u → u + watchdogSilenceMs < e₀.pre.clock := by
  obtain ⟨s₀, st, hw₀, _⟩ := h.entry (R := fun _ _ => True) (fun _ => trivial)
    (fun _ _ => trivial) (fun _ => trivial) hl
  obtain ⟨hstmt, d, hd, hs⟩ := hw
  rw [hc, hstmt] at st
  obtain ⟨⟨e₀, e₁, hsel⟩, ha⟩ := (reapOutline.valid.reachable st.reachable).pre st.aboutTo D rfl
  -- The selection, and what has happened since then.
  obtain ⟨hm₁, ht₁⟩ := List.mem_filter.mp hsel.mem
  obtain ⟨newer', older', hl'⟩ := List.append_of_mem hm₁
  have hn := st.allowed D rfl newer' e₁ older' hl' (of_decide_eq_true ht₁) ⟨_, _, hsel.stmt⟩
  have htr : s₀.db.tracking.find? D = (e₁.post (system P)).tracking.find? D :=
    st.reachable.unchanged (f := (Store.tracking · |>.find? D)) (K := Stmt.Tracks D)
      (fun x db => x.exec_tracking db) hl' hn
  have hg := (entry_warranted st.reachable hl').right.db
  have hpost : e₁.post (system P) = e₁.pre := by
    rw [Entry.post, hsel.stmt]
    rfl
  rw [hpost] at htr hg
  have hdb : s₀.db = e.pre := congrArg World.db hw₀
  -- The row that has been selected.
  obtain ⟨d₁, hd₁, hstuck⟩ := hsel.stuck
  simp only [DeliveryStmt.stuck, decide_eq_true_eq] at hstuck
  obtain ⟨hst, hlive, _, hsilent⟩ := hstuck
  have hns : d₁.status ≠ .scheduled := fun he => absurd (he ▸ hst) (by decide)
  obtain ⟨d', hd', _, hlive', _⟩ := hg.flown ⟨d₁, hd₁, hns, hlive, rfl⟩
  rw [hdb] at hd' htr
  obtain rfl := Option.some.inj <| hd.symm.trans hd'
  have hin : d.status ∈ DeliveryStatus.watchdogStuckStatuses :=
    ha _ _ _ rfl (of_decide_eq_true hs)
  refine ⟨e₀, d, hw₀ ▸ hsel.start, hd, hlive', hin, fun he => absurd (he ▸ hin) (by decide), ?_⟩
  intro u hu
  rw [← htr, hu, Option.getD_some] at hsilent
  exact lt_tsub_iff_right.mp hsilent

-- The drone of a live delivery picks up the package and then remains silent for twenty minutes.
def silentRun : List (Cmd Call) :=
  List.flatten [
    Cmd.run 1 (.create .small) 9, Cmd.run 2 (.ingest .pickup true {}) 5,
    Cmd.run 3 (.passTime 1200000) 1]

def TelemetryMessage.position₁ : TelemetryMessage :=
  { TelemetryMessage.pickup with phase := none, lat := some 0, lng := some 0 }

-- The entry fails the first delivery on behalf of the watchdog.
def reapsFirst (e : Entry Stmt.sig Store Call) : Bool :=
  match e.call, e.stmt with
  | .scanAndReap _, .delivery (.transition none 1 (.fail allowed _)) =>
    (e.pre.deliveries.find? 1).any (·.status ∈ allowed)
  | _, _ => false

theorem wins_of_reapsFirst {e : Entry Stmt.sig Store Call} (h : reapsFirst e) :
    ∃ faults allowed reason, e.call = .scanAndReap faults ∧ Wins e none 1 (.fail allowed reason) := by
  unfold reapsFirst at h
  split at h
  case h_2 => contradiction
  case h_1 faults allowed reason hc hs =>
    obtain ⟨d, hd, hm⟩ := (Option.any_eq_true _ _).mp h
    exact ⟨faults, allowed, reason, hc, hs, d, hd, hm⟩

-- The runs in which no sign of life is recorded at all.
def untracked : Policy Stmt.sig Store Call where
  step s _ _ _ := s.log.all fun e => match e.stmt with
    | .effect (.updateTracking ..) => false
    | _                            => true

instance : DecidablePred untracked.spawn :=
  fun _ => .isTrue trivial

instance : Decidable untracked.crash :=
  .isTrue trivial

instance {s : Pool Stmt.sig Store Call} {t : Nat} {c : Call} {x : Stmt} :
    Decidable (untracked.step s t c x) :=
  inferInstanceAs (Decidable (_ = true))

theorem reaper_spares_silent :
    ∃ s, Reachable (system .small) unheard Store.Initial s ∧ ∃ newer e older e₀ d,
      s.log = newer ++ e :: older ∧ reapsFirst e ∧
      (World.own ⟨e.pre, older⟩ e.tid).getLast? = some e₀ ∧
      e.pre.deliveries.find? 1 = some d ∧ d.trackingSource = .live ∧
      d.status ∈ DeliveryStatus.watchdogStuckStatuses := by
  let s := (Pool.init .small).runCmds (system .small) (silentRun ++ Cmd.run 4 (.scanAndReap {}) 3)
  have h : Reachable (system .small) unheard Store.Initial s := by
    have h : Reachable (system .small) untracked Store.Initial s :=
      (Reachable.init Store.small_initial).runCmds (by decide)
    refine h.mono (fun _ _ => trivial) (fun s _ _ _ h => ?_) id
    intro D _ newer e older hl _ _ e' he' ⟨position, ht⟩
    have := List.all_eq_true.mp h e' (hl ▸ List.mem_append_left _ he')
    simp [ht] at this
  cases hl : s.log
  case nil => exact absurd (congrArg List.length hl) (by decide)
  case cons e older =>
    have hr : s.log.head?.any reapsFirst := by decide
    simp only [hl, List.head?_cons, Option.any_some] at hr
    obtain ⟨faults, allowed, reason, hc, hw⟩ := wins_of_reapsFirst hr
    have hl : s.log = [] ++ e :: older := hl
    obtain ⟨e₀, d, h₀, hd, hlive, hs, _⟩ := reaper_spares h hl hc hw
    exact ⟨s, h, [], e, older, e₀, d, hl, hr, h₀, hd, hlive, hs⟩

-- The drone reports its position after the scan has selected the delivery.
def lateFrameRun : List (Cmd Call) :=
  List.flatten [
    silentRun, Cmd.run 4 (.scanAndReap {}) 2, Cmd.run 5 (.ingest .position₁ true {}) 4, [.exec 4]]

theorem reaper_spares_missed :
    ¬∀ (P : Params) (s : Pool Stmt.sig Store Call), Reachable (system P) {} Store.Initial s →
      ∀ newer e older D faults allowed reason, s.log = newer ++ e :: older →
        e.call = .scanAndReap faults → Wins e none D (.fail allowed reason) →
        ∃ e₀ d, (World.own ⟨e.pre, older⟩ e.tid).getLast? = some e₀ ∧
          e.pre.deliveries.find? D = some d ∧ d.trackingSource = .live ∧
          d.status ∈ DeliveryStatus.watchdogStuckStatuses ∧ d.status ≠ .awaitingHandoff ∧
          ∀ u, e.pre.tracking.find? D = some u → u + watchdogSilenceMs < e₀.pre.clock := by
  intro h
  let s := (Pool.init .small).runCmds (system .small) lateFrameRun
  have hs : Reachable (system .small) {} Store.Initial s :=
    Reachable.runCmds_of_free lateFrameRun <| .init Store.small_initial
  cases hl : s.log
  case nil => exact absurd (congrArg List.length hl) (by decide)
  case cons e older =>
    have hr : s.log.head?.any fun e => reapsFirst e ∧ e.tid = 4 ∧
        e.pre.tracking.find? 1 = some 1200000 := by decide
    have hn : (s.log.tail.filter (·.tid = 4)).getLast?.all (·.pre.clock = 1200000) := by decide
    simp only [hl, List.head?_cons, Option.any_some, List.tail_cons, decide_eq_true_eq] at hr hn
    obtain ⟨hr, ht, hu⟩ := hr
    obtain ⟨faults, allowed, reason, hc, hw⟩ := wins_of_reapsFirst hr
    obtain ⟨e₀, d, h₀, _, _, _, _, hsilent⟩ := h .small s hs [] e older 1 faults allowed reason hl hc hw
    rw [ht] at h₀
    have h₀ : (older.filter (·.tid = 4)).getLast? = some e₀ := h₀
    have hlt := hsilent _ hu
    rw [h₀, Option.all_some, decide_eq_true_eq] at hn
    rw [hn] at hlt
    exact absurd hlt (by decide)

end Drovery
