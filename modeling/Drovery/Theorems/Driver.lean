import Drovery.Theorems.Fleet

namespace Drovery

open Concurrency Method Outline
open DeliveriesService DispatchService

-- The delivery whose simulated flight a job carries on (if any).
def Call.simulates : Call → Option DeliveryId
  | .handleStage D _      => some D
  | .handlePosition D _ _ => some D
  | _                     => none

-- The entry enqueues the jobs that simulate the flight of the delivery `D`, either when the delivery is
-- created or at its kickoff.
def starts (D : DeliveryId) (e : Entry Stmt.sig Store Call) : Bool :=
  match e.call, e.stmt with
  | .create _,        .effect (.startSimulation E) => E = D
  | .handleKickoff _, .effect (.startSimulation E) => E = D
  | _,                _                            => false

def started (w : History) (D : DeliveryId) : Bool :=
  w.log.any (starts D)

-- The delivery `D` is driven by a drone.
def Store.Live (db : Store) (D : DeliveryId) : Prop :=
  ∃ d, db.deliveries.find? D = some d ∧ d.trackingSource = .live

-- A job of the simulation advances the delivery `D`, or writes its position.
def Simulates (e : Entry Stmt.sig Store Call) (D : DeliveryId) : Prop :=
  (∃ E stageIndex stage, e.call = .handleStage E stageIndex ∧ Wins e none D (.advance stage)) ∨
  (∃ E lat lng position, e.call = .handlePosition E lat lng ∧
    e.stmt = .effect (.updateTracking D position))

-- The jobs of a simulation are only run once they have been enqueued.
def enqueued : Policy Stmt.sig Store Call where
  step s _ c _ := ∀ D ∈ c.simulates, started s.world D

-- The runs in which no delivery is launched with an airframe after its simulation has been enqueued,
-- and in which no simulation is enqueued for a delivery that is driven by a drone.
def oneProducer : Policy Stmt.sig Store Call where
  step s t c x := enqueued.step s t c x ∧
    (∀ o D X, x = .delivery (.transition o D (.launch (some X))) →
      s.db.status D = some .scheduled → ¬started s.world D) ∧
    ∀ D, x = .effect (.startSimulation D) → ¬s.db.Live D

-- A statement of a job of the simulation only changes the delivery of the job.
def Stmt.Concerns (D : DeliveryId) : Stmt → Prop
  | .delivery (.transition _ E _)   => E = D
  | .effect (.updateTracking E _)   => E = D
  | _                               => True

-- A simulation is only enqueued for a delivery that exists.
def driverOutline : Outline Stmt.sig Store Call where
  inv w       := ∀ D, started w D → (w.db.deliveries.find? D).isSome ∧ ¬w.db.Live D
  rely _ w w' := ∀ {D}, (w.db.deliveries.find? D).isSome → (w'.db.deliveries.find? D).isSome
  pre t c x w := (∀ D, starts D ⟨t, c, x, w.db⟩ → (w.db.deliveries.find? D).isSome) ∧
    ∀ D ∈ c.simulates, x.Concerns D

namespace driverOutline

variable {P : Params} {t : Nat} {c : Call} {w : History} {α : Type} {p : App α} {x : Stmt}
variable {D : DeliveryId}

theorem stmt_of_starts {e : Entry Stmt.sig Store Call} (h : starts D e) :
    e.stmt = .effect (.startSimulation D) := by
  unfold starts at h
  split at h
  case h_1 hs => rw [hs, of_decide_eq_true h]
  case h_2 hs => rw [hs, of_decide_eq_true h]
  case h_3    => contradiction

-- The statements that enqueue no simulation.
def Unstarting : Stmt → Prop
  | .effect (.startSimulation _) => False
  | _                            => True

theorem pre_of_unstarting (hc : c.simulates = none) (h : Unstarting x) : driverOutline.pre t c x w := by
  refine ⟨fun D hs => ?_, by simp [hc]⟩
  obtain rfl := stmt_of_starts hs
  exact h.elim

theorem unstarting_of_plain (h : x.Plain) : Unstarting x := by
  unfold Unstarting
  split
  case h_1 => exact h
  case h_2 => trivial

theorem unstarting_of_books (h : x.Books D) : Unstarting x := by
  unfold Unstarting
  split
  case h_1 => exact h
  case h_2 => trivial

theorem unstarting_of_aftermath {a : DeliveryStatus} (h : Aftermath D a x) : Unstarting x := by
  unfold Unstarting
  split
  case h_1 => exact h.elim id id
  case h_2 => trivial

-- The delivery `D` exists, which no statement changes.
def Present (D : DeliveryId) (w : History) : Prop :=
  (w.db.deliveries.find? D).isSome

theorem single_wpm {F : History → Prop} (hc : c.simulates = none) (hp : Built (Single Unstarting) p)
    (hr : ∀ {w w'}, driverOutline.rely t w w' → F w → F w')
    (hx : ∀ {x w}, F w → F (w.exec (system P) t c x)) (h : F w) :
    driverOutline.wpm (system P) t c p (fun _ => F) (fun _ => F) w := by
  refine wpm_built hp (fun hb h => ?_) h
  obtain ⟨hu⟩ := hb
  exact wpm_tx_of (pre_of_unstarting hc hu) fun _ hr' _ _ => hx <| hr hr' h

theorem present_wpm (hc : c.simulates = none) (hp : Built (Single Unstarting) p) (h : Present D w) :
    driverOutline.wpm (system P) t c p (fun _ => Present D) (fun _ => Present D) w :=
  single_wpm hc hp (fun hr => hr) (fun h => Stmt.exec_isSome h) h

theorem ok_single (hc : c.simulates = none) (hp : Built (Single Unstarting) p) :
    driverOutline.Ok (system P) t c p w :=
  single_wpm hc hp (fun _ h => h) (fun h => h) trivial

section Kickoff

variable {job : KickoffJob}

open SimulationProcessor

theorem abortScheduled_unstarting {reason : DeliveryFailureReason} :
    Built (Single Unstarting) (abortScheduled job reason) :=
  .bind (failExceptional_single (fun _ => unstarting_of_aftermath) fun _ _ => trivial) fun _ => .pure

theorem giveBack_unstarting {droneId : Option DroneId} :
    Built (Single Unstarting) (giveBack job droneId) := by
  cases droneId
  case none => exact .pure
  case some => exact release_single trivial

theorem recoverLaunch_unstarting {droneId : Option DroneId} :
    Built (Single Unstarting) (recoverLaunch job droneId) := by
  cases droneId
  case none => exact .pure
  case some =>
    refine .bind (.handle (.attempt <| Single.stmt trivial) fun _ => .pure) fun current => ?_
    split
    case isTrue  => exact giveBack_unstarting
    case isFalse => exact .pure

-- Once the simulation has been enqueued, all that is left is to change the status.
theorem ok_launch {droneId : Option DroneId} (hc : c.simulates = none)
    (h : Present job.deliveryId w) : driverOutline.Ok (system P) t c (launch job droneId) w := by
  refine Ok.bind ?_ fun _ w => ?_
  case refine_1 =>
    cases droneId
    case some => trivial
    case none =>
      refine Ok.tx ⟨fun D hs => ?_, by simp [hc]⟩
      obtain rfl : job.deliveryId = D := by simpa using stmt_of_starts hs
      exact h
  case refine_2 =>
    refine ok_single hc <| .bind (.handle (.attempt <| Single.stmt trivial) fun e => ?_) fun count => ?_
    case refine_1 => exact .bind recoverLaunch_unstarting fun _ => .throw
    case refine_2 =>
      split
      case isTrue  => exact giveBack_unstarting
      case isFalse => exact .pure

theorem ok_handleKickoff (hc : c.simulates = none) :
    driverOutline.Ok (system P) t c (handleKickoff P job) w := by
  have dispatch {d : Delivery} : Built (Single Unstarting) (dispatchKickoff P job d) := by
    refine .handle (.bind (Single.mono dispatch_single fun x h => ?_) fun _ => .pure) fun e => ?_
    case refine_1 =>
      obtain h | ⟨_, _, rfl⟩ := h
      case inl => exact unstarting_of_plain h
      case inr => trivial
    case refine_2 =>
      exact .bind (handleDispatchRefusal_built (fun _ _ => Single.stmt trivial)
        fun _ => abortScheduled_unstarting) fun _ => .pure
  refine Ok.stmt_bind (pre_of_unstarting hc trivial) fun w' _ _ _ => ?_
  split
  case h_1 => trivial
  case h_2 d hd =>
    have h : Present job.deliveryId (w'.exec (system P) t c (.delivery <| .find job.deliveryId)) :=
      Option.isSome_iff_exists.mpr ⟨d, hd⟩
    unfold kickoff
    split
    case isTrue => trivial
    case isFalse =>
      have hp : Built (Single Unstarting) (preflight job d.route) :=
        preflight_built (fun _ _ => Single.stmt trivial) fun _ => abortScheduled_unstarting
      refine Ok.wpm_bind (wpm_mono (present_wpm hc hp h) (fun _ _ h => h) fun _ _ _ => trivial)
        fun cleared w h => ?_
      split
      case isFalse => trivial
      case isTrue =>
        refine Ok.wpm_bind (wpm_mono (present_wpm hc dispatch h) (fun _ _ h => h) fun _ _ _ => trivial)
          fun dispatched w h => ?_
        cases dispatched
        case none => trivial
        case some => exact ok_launch hc h

end Kickoff

section Create

variable {inp : CreateInput} {order : Order} {dec : DispatchDecision}

theorem createBlock_wpm {F : History → Prop} (hc : c.simulates = none)
    (hp : Built (CreateBlock D fun _ => False) p)
    (hr : ∀ {w w'}, driverOutline.rely t w w' → F w → F w')
    (hx : ∀ {x w}, F w → F (w.exec (system P) t c x)) (h : F w) :
    driverOutline.wpm (system P) t c p (fun _ => F) (fun _ => F) w := by
  refine single_wpm hc (hp.refine fun hb => ?_) hr hx h
  cases hb
  case tx hx _ =>
    obtain hx | hx | hx := hx
    case inl     => exact .block <| .tx <| unstarting_of_plain hx
    case inr.inl => exact .block <| .tx <| unstarting_of_books hx
    case inr.inr => exact hx.elim
  case releasePromo =>
    exact Single.mono (releaseForDelivery_single (K := Unstarting) fun _ => trivial)
      fun _ h => h.elim unstarting_of_plain id
  case refundCredits =>
    exact Single.mono (refundForDelivery_single (K := Unstarting) fun _ _ => trivial)
      fun _ h => h.elim unstarting_of_plain id

theorem ok_createBlock (hc : c.simulates = none) (hp : Built (CreateBlock D fun _ => False) p) :
    driverOutline.Ok (system P) t c p w :=
  createBlock_wpm hc hp (fun _ h => h) (fun h => h) trivial

theorem placeWithRetries_wpm (hc : c.simulates = none) {tries attempt : Nat} :
    driverOutline.wpm (system P) t c (placeWithRetries P D inp order dec tries attempt)
      (fun _ => Present D) (fun _ _ => True) w := by
  refine wpm_placeWithRetries (F := fun _ => True) (fun {attempt w} _ => ?_)
    (fun _ => ok_createBlock hc abandon_blocks) trivial
  refine wpm_attempt.mpr ⟨fun _ => ?_, fun _ _ => trivial, fun _ _ => ?_⟩
  case refine_2 => exact Ok.tx <| pre_of_unstarting hc trivial
  case refine_1 =>
    refine wpm_tx.mpr ⟨pre_of_unstarting hc trivial, fun w' _ _ _ => ?_⟩
    split
    case h_1 h => exact Option.isSome_iff_exists.mpr ⟨_, Store.find?_createDelivery h⟩
    case h_2   => trivial

theorem ok_create (hc : c.simulates = none) :
    driverOutline.Ok (system P) t c (create P D inp) w := by
  refine Ok.bind (ok_single hc <| Single.mono prepare_single fun _ => unstarting_of_plain)
    fun order w => ?_
  refine Ok.bind (ok_single hc <| Single.mono dispatch_single fun _ h => ?_) fun dec w => ?_
  case refine_1 =>
    obtain h | ⟨_, _, rfl⟩ := h
    case inl => exact unstarting_of_plain h
    case inr => trivial
  refine Ok.bind (ok_createBlock hc reserve_blocks) fun _ w => ?_
  refine Ok.wpm_bind (placeWithRetries_wpm hc) fun _ w h => ?_
  refine Ok.wpm_bind (wpm_mono (createBlock_wpm (F := Present D) hc charge_blocks (fun hr => hr)
    (fun h => Stmt.exec_isSome h) h) (fun _ _ h => h) fun _ _ _ => trivial) fun _ w h => ?_
  refine Ok.of_wpm <| wpm_built (F := Present D) enqueue_single (fun hb h => ?_) h
  obtain ⟨hx⟩ := hb
  refine wpm_tx_of ⟨fun E hs => ?_, by simp [hc]⟩ fun _ hr _ _ => Stmt.exec_isSome <| hr h
  obtain rfl := stmt_of_starts hs
  obtain hx | hx := hx
  case inl => exact hx.elim
  case inr =>
    obtain rfl : E = D := by simpa using hx
    exact h

end Create

section Jobs

open SimulationProcessor

theorem handleStage_concerns {stageIndex : Nat} :
    Built (Single (Stmt.Concerns D)) (handleStage D stageIndex) := by
  unfold handleStage
  split
  case h_1 => exact .pure
  case h_2 =>
    refine .bind (Single.stmt trivial) fun delivery => ?_
    cases delivery
    case none => exact .pure
    case some =>
      refine .bind (Single.stmt rfl) fun count => ?_
      split
      case isTrue  => exact .pure
      case isFalse =>
        exact .bind (.safe <| Single.stmt rfl) fun _ => .bind (.safe <| Single.stmt trivial) fun _ =>
          Single.stmt trivial

theorem handlePosition_concerns {lat lng : ℚ} :
    Built (Single (Stmt.Concerns D)) (handlePosition D lat lng) := by
  refine .bind (Single.stmt trivial) fun delivery => ?_
  cases delivery
  case none => exact .pure
  case some =>
    dsimp only
    split
    case isTrue  => exact .pure
    case isFalse => exact .bind (Single.stmt rfl) fun _ => Single.stmt trivial

end Jobs

theorem spawn : driverOutline.wp (system P) t c ((system P).prog t c) (fun _ _ => True) w := by
  have starts_eq (hn : ¬c.Dispatches) {D : DeliveryId} {x : Stmt} {db : Store} :
      starts D ⟨t, c, x, db⟩ = false := by
    cases c <;> first | exact absurd trivial hn | rfl
  have other (hn : ¬c.Dispatches) (hc : c.simulates = none) :
      driverOutline.wp (system P) t c ((system P).prog t c) (fun _ _ => True) w :=
    wp_of_stable (fun {x w} _ => ⟨fun D hs => by simp [starts_eq hn] at hs, by simp [hc]⟩)
      (fun _ h => h) (fun h => h) trivial
  have job {p : App Unit} {D : DeliveryId} (hn : ¬c.Dispatches) (hc : c.simulates = some D)
      (hp : Built (Single (Stmt.Concerns D)) p) : driverOutline.Ok (system P) t c p w := by
    refine Ok.built hp fun | .tx hx => Ok.tx ⟨fun E hs => ?_, fun E hE => ?_⟩
    case refine_1 => simp [starts_eq hn] at hs
    case refine_2 => exact Option.some.inj (hc.symm.trans hE) ▸ hx
  cases c
  case create         => exact Ok.toCall <| ok_create rfl
  case handleKickoff  => exact Ok.toCall <| ok_handleKickoff rfl
  case handleStage    => exact Ok.toCall <| job id rfl handleStage_concerns
  case handlePosition => exact Ok.toCall <| job id rfl handlePosition_concerns
  all_goals exact other id rfl

-- A delivery comes to be driven by a drone when it is created, or by its launch.
theorem live_exec {db : Store} (h : (x.exec db).snd.Live D) :
    db.Live D ∨ db.deliveries.find? D = none ∨
      ∃ o X, x = .delivery (.transition o D (.launch (some X))) ∧ db.status D = some .scheduled := by
  obtain ⟨d', hd', hl⟩ := h
  have hr := x.rowChange db D
  rw [hd'] at hr
  generalize hd'' : some d' = r at hr
  cases hr
  case same           => exact .inl ⟨d', hd''.symm, hl⟩
  case created hn _   => exact .inr <| .inl hn
  case guessed d _ hd _ =>
    obtain rfl := Option.some.inj hd''
    exact .inl ⟨d, hd, hl⟩
  case moved o tr d hx hd hs =>
    obtain rfl := Option.some.inj hd''
    obtain ⟨X, rfl⟩ | ⟨_, hsrc⟩ := tr.apply_assigned db.clock d
    case inr => exact .inl ⟨d, hd, hsrc ▸ hl⟩
    case inl =>
      refine .inr <| .inr ⟨o, X, hx, ?_⟩
      rw [Store.status, hd, Option.map_some]
      exact congrArg some <| by simpa [Transition.source] using hs

theorem inv_exec {s : Pool Stmt.sig Store Call}
    (st : StepOf (system P) oneProducer Store.Initial s t c x) (hi : driverOutline.inv s.world)
    (hp : driverOutline.pre t c x s.world) : driverOutline.inv (s.world.exec (system P) t c x) := by
  intro D hs
  obtain ⟨_, hlaunch, hstart⟩ := st.allowed
  simp only [started, World.exec_log, List.any_cons, Bool.or_eq_true] at hs
  obtain hs | hs := hs
  case inl =>
    obtain rfl := stmt_of_starts hs
    exact ⟨hp.left D hs, hstart D rfl⟩
  case inr =>
    obtain ⟨hd, hn⟩ := hi D hs
    refine ⟨Stmt.exec_isSome hd, fun hl => ?_⟩
    obtain hl | hnone | ⟨o, X, hx, hsched⟩ := live_exec hl
    case inl         => exact hn hl
    case inr.inl     => simp [hnone] at hd
    case inr.inr     => exact hlaunch o D X hx hsched hs

theorem valid : driverOutline.Valid (system P) oneProducer Store.Initial where
  rely_refl _ _         := fun h => h
  rely_trans h₁ h₂      := fun h => h₂ (h₁ h)
  post_stable _ _       := trivial
  inv_init _            := fun D hs => by simp [started] at hs
  spawn _ _ _           := spawn
  inv_step              := inv_exec
  rely_step _ _ _ _     := fun h => Stmt.exec_isSome h
  pre_step _ _ _ _ _ h  := by
    refine ⟨fun D hs => Stmt.exec_isSome <| h.left D ?_, h.right⟩
    rw [← hs]
    rfl

end driverOutline

-- If no delivery gets both a simulation and an airframe, then the jobs of the simulation leave alone
-- all deliveries that are driven by a drone.
theorem one_driver {P : Params} {s : Pool Stmt.sig Store Call}
    (h : Reachable (system P) oneProducer Store.Initial s)
    {newer older : List (Entry Stmt.sig Store Call)} {e : Entry Stmt.sig Store Call} {D : DeliveryId}
    (hl : s.log = newer ++ e :: older) (hs : Simulates e D) : ¬e.pre.Live D := by
  obtain ⟨s₀, st, hw, _⟩ := h.entry (R := fun _ _ => True) (fun _ => trivial) (fun _ _ => trivial)
    (fun _ => trivial) hl
  have ho := driverOutline.valid.reachable st.reachable
  obtain ⟨_, hc⟩ := ho.pre st.aboutTo
  have hdb : s₀.db = e.pre := congrArg World.db hw
  have separate {E : DeliveryId} (hE : e.call.simulates = some E) (hD : D = E) : ¬e.pre.Live D := by
    rw [hD, ← hdb]
    exact (ho.inv E <| st.allowed.left E hE).right
  obtain ⟨E, n, stage, hcall, hstmt, _⟩ | ⟨E, lat, lng, position, hcall, hstmt⟩ := hs
  case inl =>
    have hE : e.call.simulates = some E := by rw [hcall]; rfl
    have := hc E hE
    rw [hstmt] at this
    exact separate hE this
  case inr =>
    have hE : e.call.simulates = some E := by rw [hcall]; rfl
    have := hc E hE
    rw [hstmt] at this
    exact separate hE this

-- A delivery that is simulated, and the first job of its simulation.
def simulatedRun : List (Cmd Call) :=
  List.flatten [
    Cmd.run 1 (.create { CreateInput.small with liveDispatch := false }) 7,
    Cmd.run 2 (.handleStage 1 0) 2]

-- The runs in which no delivery is launched.
def unlaunched : Policy Stmt.sig Store Call where
  step s t c x := enqueued.step s t c x ∧ match x with
    | .delivery (.transition _ _ (.launch _)) => False
    | .effect (.startSimulation D)            => (s.db.deliveries.find? D).all (·.trackingSource ≠ .live)
    | _                                       => True

instance {s : Pool Stmt.sig Store Call} {t : Nat} {c : Call} {x : Stmt} :
    Decidable (enqueued.step s t c x) :=
  inferInstanceAs (Decidable (∀ D ∈ c.simulates, started s.world D = true))

instance : DecidablePred enqueued.spawn :=
  fun _ => .isTrue trivial

instance : Decidable enqueued.crash :=
  .isTrue trivial

instance {s : Pool Stmt.sig Store Call} {t : Nat} {c : Call} {x : Stmt} :
    Decidable (unlaunched.step s t c x) := by
  unfold unlaunched; dsimp only; split <;> infer_instance

instance : DecidablePred unlaunched.spawn :=
  fun _ => .isTrue trivial

instance : Decidable unlaunched.crash :=
  .isTrue trivial

-- The entry advances the first delivery on behalf of the simulation.
def advancesFirst (e : Entry Stmt.sig Store Call) : Bool :=
  match e.call, e.stmt with
  | .handleStage _ _, .delivery (.transition none 1 (.advance stage)) =>
    (e.pre.deliveries.find? 1).any ((Transition.advance stage).source ·.status)
  | _, _ => false

theorem simulates_of_advancesFirst {e : Entry Stmt.sig Store Call} (h : advancesFirst e) :
    Simulates e 1 := by
  unfold advancesFirst at h
  split at h
  case h_2 => contradiction
  case h_1 E n stage hc hs =>
    obtain ⟨d, hd, hm⟩ := (Option.any_eq_true _ _).mp h
    exact .inl ⟨E, n, stage, hc, hs, d, hd, hm⟩

theorem one_driver_simulated :
    ∃ s, Reachable (system .small) oneProducer Store.Initial s ∧ ∃ e older,
      s.log = e :: older ∧ Simulates e 1 ∧ ¬e.pre.Live 1 := by
  let s := (Pool.init .small).runCmds (system .small) simulatedRun
  have h : Reachable (system .small) oneProducer Store.Initial s := by
    have h : Reachable (system .small) unlaunched Store.Initial s :=
      (Reachable.init Store.small_initial).runCmds (by decide)
    refine h.mono (fun _ _ => trivial) (fun s _ _ _ h => ⟨h.left, ?_, ?_⟩) id
    case refine_1 =>
      rintro _ _ _ rfl
      exact h.right.elim
    case refine_2 =>
      rintro D rfl ⟨d, hd, hl⟩
      have := h.right
      simp [hd, hl] at this
  cases hl : s.log
  case nil => exact absurd (congrArg List.length hl) (by decide)
  case cons e older =>
    have hs : s.log.head?.any advancesFirst := by decide
    simp only [hl, List.head?_cons, Option.any_some] at hs
    have hs := simulates_of_advancesFirst hs
    have hl' : s.log = [] ++ e :: older := hl
    exact ⟨s, h, e, older, hl, hs, one_driver h hl' hs⟩

-- A kickoff enqueues the simulation, but fails to launch the delivery. When it is retried, live
-- dispatch has been switched on, and the delivery is launched with an airframe. The jobs of the
-- simulation run all the same.
def retriedKickoffRun : List (Cmd Call) :=
  List.flatten [
    Cmd.run 1 (.create .later) 7, Cmd.run 2 (.handleKickoff { KickoffJob.small with
      liveDispatch := false, faults := { launch := .rolledBack .connectionLost } }) 2,
    Cmd.run 3 (.handleKickoff .small) 5, Cmd.run 4 (.handleStage 1 0) 2]

theorem one_driver_missed :
    ¬∀ (P : Params) (s : Pool Stmt.sig Store Call), Reachable (system P) enqueued Store.Initial s →
      ∀ newer e older D, s.log = newer ++ e :: older → Simulates e D → ¬e.pre.Live D := by
  intro h
  let s := (Pool.init .small).runCmds (system .small) retriedKickoffRun
  have hs : Reachable (system .small) enqueued Store.Initial s :=
    (Reachable.init Store.small_initial).runCmds (by decide)
  cases hl : s.log
  case nil => exact absurd (congrArg List.length hl) (by decide)
  case cons e older =>
    have ha : s.log.head?.any fun e =>
      advancesFirst e ∧ (e.pre.deliveries.find? 1).any (·.trackingSource = .live) := by decide
    simp only [hl, List.head?_cons, Option.any_some, decide_eq_true_eq] at ha
    obtain ⟨d, hd, hlive⟩ := (Option.any_eq_true _ _).mp ha.right
    exact h .small s hs [] e older 1 hl (simulates_of_advancesFirst ha.left)
      ⟨d, hd, of_decide_eq_true hlive⟩

end Drovery
