import Drovery.Concurrency.Local
import Drovery.Theorems.Leak

namespace Drovery

open Concurrency Method Outline Duties
open DeliveriesService DispatchService SimulationProcessor

-- The delivery has not been launched: it is still scheduled, or has come to its end.
def Store.Unlaunched (db : Store) (D : DeliveryId) : Prop :=
  ∃ a, db.status D = some a ∧ (a = .scheduled ∨ a.Terminal)

-- The delivery is on its way with the airframe `X`.
def Store.Serves (db : Store) (X : DroneId) (D : DeliveryId) : Prop :=
  ∃ d, db.deliveries.find? D = some d ∧ ¬d.status.Terminal ∧ d.assignedDroneId = some X

abbrev Entries := List (Entry Stmt.sig Store Call)

-- The statement finds that the delivery is scheduled. Unless the thread itself launches the delivery, it
-- relies on this from then on.
def grounds : Duties Stmt.sig Store DeliveryId where
  binds db D x    := x = .delivery (.find D) ∧ db.status D = some .scheduled
  relieves db D x := ∃ o X, x = .delivery (.transition o D (.launch X)) ∧ db.status D = some .scheduled

-- The last thing that the thread has done is to find, in a kickoff of the delivery, that the delivery is
-- no longer scheduled.
def GaveUp (D : DeliveryId) : Entries → Prop
  | []     => False
  | e :: _ => (∃ job, e.call = .handleKickoff job ∧ job.deliveryId = D) ∧
    e.stmt = .delivery (.find D) ∧ e.pre.status D ≠ some .scheduled

-- The thread is still to hand back the airframe of the delivery, or to give it to the delivery.
def Responsible (D : DeliveryId) (es : Entries) : Prop :=
  airframes.Owes D es ∧ ¬GaveUp D es

-- The calls that hand back airframes do so successfully, and a failure to create a delivery is what it
-- claims to be. The write that launches a delivery may fail in any way.
def Call.Steady : Call → Prop
  | .handleKickoff job =>
    job.faults.reread = .committed ∧ job.faults.releaseAirframe = .committed ∧
      job.faults.cleanup.airframe = .committed
  | c                  => c.Reliable

-- Every other kickoff of the delivery that has begun is over.
def Alone (s : Pool Stmt.sig Store Call) (t : Nat) (D : DeliveryId) : Prop :=
  ∀ e ∈ s.log, e.tid ≠ t → ∀ job, e.call = .handleKickoff job → job.deliveryId = D →
    ∀ th, s.threads e.tid = some th → th.Stopped

-- The runs with one kickoff of a delivery at a time.
def oneKickoff : Policy Stmt.sig Store Call where
  spawn        := Call.Steady
  step s t c _ := ∀ job, c = .handleKickoff job → Alone s t job.deliveryId
  crash        := False

-- Moreover, if a kickoff learns that the delivery for which it has claimed an airframe has come to its
-- end, then the airframe has been handed back, or some other call is still to do so.
def attended : Policy Stmt.sig Store Call where
  spawn        := Call.Steady
  step s t c x := ∀ job, c = .handleKickoff job → Alone s t job.deliveryId ∧
    (x = .delivery (.find job.deliveryId) → airframes.Owes job.deliveryId (s.world.own t) →
      ∀ a X, s.db.status job.deliveryId = some a → a.Terminal →
        s.db.fleet.Claims X job.deliveryId → ∃ t' ≠ t, Responsible job.deliveryId (s.world.own t'))
  crash        := False

section Store

variable {db : Store} {x : Stmt} {X Y : DroneId} {D : DeliveryId}

theorem Store.Unlaunched.terminal (h : db.Unlaunched D) (hn : db.status D ≠ some .scheduled) :
    ∃ a, db.status D = some a ∧ a.Terminal := by
  have ⟨a, ha, h⟩ := h
  exact ⟨a, ha, h.resolve_left fun he => hn (he ▸ ha)⟩

-- Only a launch launches a delivery.
theorem Store.Unlaunched.exec (h : db.Unlaunched D) (hl : x.Lawful)
    (hx : ¬grounds.relieves db D x) : (x.exec db).snd.Unlaunched D := by
  obtain ⟨a, ha, h'⟩ := id h
  obtain ⟨d, hd, hs⟩ := Option.map_eq_some_iff.mp ha
  have := x.rowChange db D
  rw [Store.Unlaunched, Store.status]
  generalize (x.exec db).snd.deliveries.find? D = d' at this
  cases this
  case same         => exact h
  case created hn _ => simp [hn] at hd
  case guessed hd' _ =>
    obtain rfl := Option.some.inj <| hd.symm.trans hd'
    exact ⟨a, congrArg some hs, h'⟩
  case moved o tr _ he hd' hg =>
    obtain rfl := Option.some.inj <| hd.symm.trans hd'
    subst he hs
    refine ⟨_, rfl, .inr ?_⟩
    change (tr.apply db.clock d).status.Terminal
    rw [tr.apply_status]
    have hs := h'.resolve_right (tr.edge hl hg).not_terminal
    refine (Transition.launch_or_terminal (hs ▸ hg)).resolve_left fun hl => ?_
    obtain ⟨X, hX⟩ := hl
    refine hx ⟨o, X, ?_, ?_⟩
    case refine_1 => rw [hX]
    case refine_2 => rw [ha, hs]

-- No two airframes are claimed for the same delivery.
def Fleet.Unique (fleet : Fleet) : Prop :=
  ∀ X Y D, fleet.Claims X D → fleet.Claims Y D → X = Y

theorem Fleet.Unique.exec (h : db.fleet.Unique) : (x.exec db).snd.fleet.Unique := by
  intro X Y D hX hY
  by_cases hb : Binds db D x
  case neg =>
    have hX := not_not.mp fun hn => hb <| binds_of_claims hX hn
    have hY := not_not.mp fun hn => hb <| binds_of_claims hY hn
    exact h X Y D hX hY
  case pos =>
    obtain ⟨Z, p, n, rfl, hok, hn⟩ | ⟨o, tr, d, rfl, _⟩ := hb
    case inr => exact h X Y D hX hY
    case inl =>
      -- The delivery has not had any airframe before.
      have hz : db.fleet.count (fun _ d => FleetStmt.holds D d) = 0 := by
        by_contra hc
        simp only [FleetStmt.execClaim, Nat.pos_of_ne_zero hc, if_true] at hok
        split at hok
        case isTrue  => contradiction
        case isFalse => exact hn.ne (Except.ok.inj hok)
      have new {W : DroneId} (hW : (FleetStmt.exec db.clock (.claim Z D p) db.fleet).snd.Claims W D) :
          W = Z := by
        by_contra hne
        obtain ⟨d, hd, ha⟩ := hW.of_exec fun q he => hne (FleetStmt.claim.inj he).left.symm
        have := Table.count_eq_zero_iff.mp hz W d hd
        simp [FleetStmt.holds, ha] at this
      rw [new hX, new hY]

end Store

-- The entry has created the delivery.
def Creates (D : DeliveryId) (e : Entry Stmt.sig Store Call) : Prop :=
  ∃ row booking, e.stmt = .createDelivery D row booking ∧
    ((Stmt.createDelivery D row booking).exec e.pre).fst = .ok ()

-- What the calls that claim airframes go by when they hand back an airframe or give it to a delivery, and
-- when a kickoff looks at its delivery once more.
def Call.Settles : Call → Stmt → Entries → Prop
  | .handleKickoff job, .fleet (.release ..), es                    => grounds.Owes job.deliveryId es
  | .handleKickoff job, .delivery (.transition _ _ (.launch X)), es =>
    grounds.Owes job.deliveryId es ∧ (X = none → ∀ D, ¬airframes.Owes D es)
  | .handleKickoff job, .delivery (.find _), es                     =>
    ∀ D, airframes.Owes D es → grounds.Owes job.deliveryId es
  | .create _, .fleet (.release ..), es                             => ∀ D, ∀ e ∈ es, ¬Creates D e
  | .create _, .createDelivery D row _, es                          =>
    row.assignedDroneId = none → ¬airframes.Owes D es
  | _, _, _                                                         => True

-- A call that has been completed is responsible for no airframe, unless it has given up.
def kickoffOutline : Outline Stmt.sig Store Call where
  inv _       := True
  rely t w w' := w'.own t = w.own t
  pre t c x w := c.Settles x (w.own t)
  post t _ w  := ∀ D, airframes.Owes D (w.own t) → GaveUp D (w.own t)

namespace kickoffOutline

open leakOutline (Holding debt_holding)

variable {P : Params} {t : Nat} {c : Call} {w : History} {α : Type} {p : App α} {x : Stmt}
variable {D : DeliveryId}

abbrev Clear (t : Nat) (w : History) : Prop :=
  airframes.Clear t w

abbrev Settled (t : Nat) (w : History) : Prop :=
  ∀ D, airframes.Owes D (w.own t) → GaveUp D (w.own t)

theorem settled_of_clear (h : Clear t w) : Settled t w :=
  fun D ho => (h D ho).elim

section Kickoff

variable {job : KickoffJob} {Q : α → History → Prop} {E : AppError → History → Prop}

abbrev Grounded (t : Nat) (job : KickoffJob) (w : History) : Prop :=
  grounds.Owes job.deliveryId (w.own t)

def Unlaunching : Stmt → Prop
  | .delivery (.transition _ _ (.launch _)) => False
  | _                                       => True

theorem unlaunching_of_plain (h : x.Plain) : Unlaunching x := by
  unfold Unlaunching
  split
  case h_1 => exact h
  case h_2 => trivial

theorem unlaunching_of_aftermath {a : DeliveryStatus} (h : Aftermath D a x) : Unlaunching x := by
  unfold Unlaunching
  split
  case h_1 => exact h.elim id id
  case h_2 => trivial

theorem settles_of_unlaunching (hx : Unlaunching x) (h : Grounded t job w) :
    (Call.handleKickoff job).Settles x (w.own t) := by
  cases x <;> try trivial
  case delivery x =>
    cases x <;> try trivial
    case find => exact fun _ _ => h
    case transition tr => cases tr <;> trivial
  case fleet x =>
    cases x <;> trivial

theorem Grounded.exec (h : Grounded t job w) (hx : Unlaunching x) :
    Grounded t job (w.exec (system P) t c x) := by
  refine owes_exec.mpr <| .inr ⟨?_, h⟩
  rintro ⟨o, X, rfl, _⟩
  exact hx

-- What is not a launch is known from before, and does not change that the delivery is grounded.
theorem keep (hp : Built (Single Unlaunching) p)
    (h : leakOutline.wpm (system P) t (.handleKickoff job) p Q E w) (hg : Grounded t job w) :
    kickoffOutline.wpm (system P) t (.handleKickoff job) p (fun a w => Q a w ∧ Grounded t job w)
      (fun e w => E e w ∧ Grounded t job w) w := by
  refine wpm_transfer (O := leakOutline) (hp.issues fun | .tx hx => ⟨hx, fun _ => trivial⟩) id (fun _ => trivial)
    (fun _ _ => trivial) settles_of_unlaunching (fun hx hg hr _ => ?_) h hg
  have hg : Grounded t job _ := show grounds.Owes _ _ by rw [hr]; exact hg
  exact hg.exec hx

theorem abortScheduled_unlaunching {reason : DeliveryFailureReason} :
    Built (Single Unlaunching) (abortScheduled job reason) := by
  refine .bind (failExceptional_single (fun _ => unlaunching_of_aftermath) fun _ _ => trivial) fun _ => ?_
  exact .pure

theorem dispatchKickoff_unlaunching {delivery : Delivery} :
    Built (Single Unlaunching) (dispatchKickoff P job delivery) := by
  refine .handle (.bind (Single.mono dispatch_single ?_) fun _ => .pure) fun e => .bind ?_ fun _ => .pure
  case refine_1 =>
    rintro x (hx | ⟨X, payloadKg, rfl⟩)
    case inl => exact unlaunching_of_plain hx
    case inr => trivial
  case refine_2 =>
    exact handleDispatchRefusal_built (fun _ _ => Single.stmt trivial) fun _ => abortScheduled_unlaunching

theorem giveBack_unlaunching {X : Option DroneId} : Built (Single Unlaunching) (giveBack job X) := by
  cases X
  case none => exact .pure
  case some => exact release_single trivial

theorem giveBack_wpm {X : Option DroneId} (hf : job.faults.releaseAirframe = .committed)
    (h : Holding t job.deliveryId X w) (hg : Grounded t job w) :
    kickoffOutline.wpm (system P) t (.handleKickoff job) (giveBack job X) (fun _ => Settled t)
      (fun _ => Settled t) w :=
  wpm_mono (keep giveBack_unlaunching (leakOutline.giveBack_wpm hf h) hg)
    (fun _ _ h => settled_of_clear h.left) fun _ _ h => settled_of_clear h.left

-- What the thread knows once it has tried to launch the delivery.
def Tried (t : Nat) (job : KickoffJob) (X : Option DroneId) (w : History) : Prop :=
  Holding t job.deliveryId X w ∧ (Clear t w ∨ Grounded t job w)

-- The airframe is handed back if the delivery is still scheduled. Otherwise the thread gives up.
theorem recoverLaunch_wpm {X : Option DroneId} (hr : job.faults.reread = .committed)
    (hf : job.faults.releaseAirframe = .committed) (h : Tried t job X w) :
    kickoffOutline.wpm (system P) t (.handleKickoff job) (recoverLaunch job X) (fun _ => Settled t)
      (fun _ => Settled t) w := by
  have ⟨hh, hg⟩ := h
  cases X
  case none   => exact settled_of_clear <| hh.2 rfl
  case some X =>
    rw [recoverLaunch, wpm_bind, wpm_handle, hr]
    refine wpm_stmt.mpr ⟨fun E ho => hg.resolve_left fun hc => hc E ho, fun w' hr' _ _ => ?_⟩
    let x : Stmt := .delivery <| .find job.deliveryId
    let w₁ := w'.exec (system P) t (.handleKickoff job) x
    have hh : Holding t job.deliveryId (some X) w₁ :=
      leakOutline.unbound_exec (x := x) debt_holding trivial <| debt_holding.of_own hr' hh
    split
    case isTrue hs =>
      have ⟨d, hd, hs⟩ := (Option.any_eq_true _ _).mp hs
      have hs : w'.db.status job.deliveryId = some .scheduled :=
        Option.map_eq_some_iff.mpr ⟨d, hd, of_decide_eq_true hs⟩
      exact giveBack_wpm hf hh <| owes_exec.mpr <| .inl ⟨rfl, hs⟩
    case isFalse hs =>
      intro E ho
      obtain rfl := hh.1 E ho
      rw [World.own_exec]
      refine ⟨⟨job, rfl, rfl⟩, rfl, fun he => hs ?_⟩
      have ⟨d, hd, he⟩ := Option.map_eq_some_iff.mp he
      exact (Option.any_eq_true _ _).mpr ⟨d, hd, decide_eq_true he⟩

theorem launch_wpm {X : Option DroneId} (hr : job.faults.reread = .committed)
    (hf : job.faults.releaseAirframe = .committed) (h : Holding t job.deliveryId X w)
    (hg : Grounded t job w) :
    kickoffOutline.wpm (system P) t (.handleKickoff job) (launch job X) (fun _ => Settled t)
      (fun _ => Settled t) w := by
  let x : Stmt := .delivery <| .transition none job.deliveryId <| .launch X
  have hx : ¬DeliveryStatus.pending.Terminal := by decide
  have hs : Built (Single Unlaunching) (simulate job X) := by
    cases X
    case none => exact Single.stmt trivial
    case some => exact .pure
  have recover {e : AppError} {Q : Nat → History → Prop} {w : History} (h : Tried t job X w) :
      kickoffOutline.wpm (system P) t (.handleKickoff job)
        (do recoverLaunch job X; throw e : App Nat) Q (fun _ => Settled t) w := by
    rw [wpm_bind]
    exact recoverLaunch_wpm hr hf h
  -- Either the launch has got through, or the delivery remains grounded.
  have write {w w' : History} (h : Holding t job.deliveryId X w ∧ Grounded t job w)
      (hr : w'.own t = w.own t) : let w₁ := w'.exec (system P) t (.handleKickoff job) x
      Holding t job.deliveryId X w₁ ∧ (((x.exec w'.db).fst ≠ (0 : Nat) ∧ Clear t w₁) ∨
        ((x.exec w'.db).fst = (0 : Nat) ∧ Grounded t job w₁)) := by
    have hh := debt_holding.of_own hr h.1
    refine ⟨leakOutline.unbound_exec (x := x) debt_holding hx hh, ?_⟩
    by_cases hn : (x.exec w'.db).fst = (0 : Nat)
    case neg => exact .inl ⟨hn, leakOutline.launched hh hn⟩
    case pos =>
      refine .inr ⟨hn, owes_exec.mpr <| .inr ⟨?_, hr ▸ h.2⟩⟩
      rintro ⟨o, Y, he, hs⟩
      obtain ⟨d, hd, hs⟩ := Option.map_eq_some_iff.mp hs
      exact callOutline.transition_count.mp hn ⟨d, hd, decide_eq_true hs⟩
  rw [launch, wpm_bind]
  refine wpm_mono (keep hs (leakOutline.simulate_wpm h) hg) (fun _ w h => ?_)
    fun _ _ h => settled_of_clear h.1
  have pre : (Call.handleKickoff job).Settles x (w.own t) := ⟨h.2, h.1.2⟩
  rw [wpm_bind, wpm_handle]
  refine wpm_attempt.mpr ⟨fun _ => ?_, fun e _ => recover ⟨h.1, .inr h.2⟩, fun e _ => ?_⟩
  case refine_1 =>
    refine wpm_stmt.mpr ⟨pre, fun w' hr' _ _ => ?_⟩
    obtain ⟨hh, hw⟩ := write h hr'
    split
    case isTrue hn  => exact giveBack_wpm hf hh (hw.resolve_left fun hw => hw.1 hn).2
    case isFalse hn => exact settled_of_clear (hw.resolve_right fun hw => hn hw.1).2
  case refine_2 =>
    refine wpm_stmt.mpr ⟨pre, fun w' hr' _ _ => ?_⟩
    obtain ⟨hh, hw⟩ := write h hr'
    exact recover ⟨hh, hw.imp And.right And.right⟩

theorem dispatchKickoff_wpm {delivery : Delivery} (hf : job.faults.cleanup.airframe = .committed)
    (h : Clear t w) (hg : Grounded t job w) :
    kickoffOutline.wpm (system P) t (.handleKickoff job) (dispatchKickoff P job delivery)
      (fun r w => Holding t job.deliveryId (r.bind (·.droneId)) w ∧ Grounded t job w)
      (fun _ => Settled t) w :=
  wpm_mono (keep dispatchKickoff_unlaunching (leakOutline.dispatchKickoff_wpm hf h) hg) (fun _ _ h => h)
    fun _ _ h => settled_of_clear h.1

theorem handleKickoff_wpm (hc : (Call.handleKickoff job).Steady) (h : Clear t w) :
    kickoffOutline.wpm (system P) t (.handleKickoff job) (handleKickoff P job) (fun _ => Settled t)
      (fun _ => Settled t) w := by
  have ⟨hr, hf, hcl⟩ := hc
  rw [handleKickoff, wpm_bind]
  refine wpm_stmt.mpr ⟨fun E ho => (h E ho).elim, fun w' hr' _ _ => ?_⟩
  let x : Stmt := .delivery <| .find job.deliveryId
  let w₁ := w'.exec (system P) t (.handleKickoff job) x
  have h : Clear t w₁ := leakOutline.unbound_exec (x := x) debt_clear trivial <| debt_clear.of_own hr' h
  split
  case h_1 => exact settled_of_clear h
  case h_2 delivery hd =>
    unfold kickoff
    split
    case isTrue => exact settled_of_clear h
    case isFalse hs =>
      have hs : w'.db.status job.deliveryId = some .scheduled :=
        Option.map_eq_some_iff.mpr ⟨delivery, hd, not_not.mp hs⟩
      have hg : Grounded t job w₁ := owes_exec.mpr <| .inl ⟨rfl, hs⟩
      have hp : Built (Single Unlaunching) (preflight job delivery.route) :=
        preflight_built (fun _ _ => Single.stmt trivial) fun _ => abortScheduled_unlaunching
      have clear : leakOutline.wpm (system P) t (.handleKickoff job) (preflight job delivery.route)
          (fun _ => Clear t) (fun _ => Clear t) w₁ :=
        leakOutline.blocks_wpm (preflight_blocks hcl) (fun _ => False.elim) h
      rw [wpm_bind]
      refine wpm_mono (keep hp clear hg) (fun cleared w h => ?_) fun _ _ h => settled_of_clear h.1
      split
      case isFalse => exact settled_of_clear h.1
      case isTrue =>
        rw [wpm_bind]
        refine wpm_mono (dispatchKickoff_wpm hcl h.1 h.2) (fun dispatched w h => ?_) fun _ _ h => h
        cases dispatched
        case none     => exact settled_of_clear <| h.1.2 rfl
        case some dec => exact launch_wpm hr hf h.1 h.2

end Kickoff

section Create

variable {inp : CreateInput} {order : Order} {dec : DispatchDecision}
variable {Q : α → History → Prop} {E : AppError → History → Prop}

-- The thread has not created any delivery yet.
def Uncreated (t : Nat) (w : History) : Prop :=
  ∀ D, ∀ e ∈ w.own t, ¬Creates D e

theorem keep_create (hp : Built (Single fleetOutline.Unbinding) p)
    (h : leakOutline.wpm (system P) t (.create inp) p Q E w) (hu : Uncreated t w) :
    kickoffOutline.wpm (system P) t (.create inp) p (fun a w => Q a w ∧ Uncreated t w)
      (fun e w => E e w ∧ Uncreated t w) w := by
  refine wpm_transfer (O := leakOutline) (hp.issues fun | .tx hx => ⟨hx, fun _ => trivial⟩) id
    (fun _ => trivial) (fun _ _ => trivial) (fun {x w} hx hu => ?_) (fun hx hu hr _ => ?_) h hu
  case refine_1 =>
    cases x <;> try trivial
    case fleet x => cases x <;> trivial
  case refine_2 =>
    intro D e he
    rw [World.own_exec, hr] at he
    cases he
    case tail he => exact hu D e he
    case head =>
      rintro ⟨row, booking, rfl, _⟩
      exact hx

theorem place_wpm {attempt : Nat} (hd : ∀ n e, inp.faults.delivery n ≠ .lost e)
    (h : Holding t D dec.droneId w ∧ Uncreated t w) :
    kickoffOutline.wpm (system P) t (.create inp)
      ((App.tx (.createDelivery D (deliveryData P inp order dec attempt) (booking P order))
        id).attempt (inp.faults.delivery attempt)) (fun _ => Clear t)
      (fun _ w => Holding t D dec.droneId w ∧ Uncreated t w) w := by
  refine wpm_attempt.mpr ⟨fun _ => ?_, fun _ _ => h, fun e he => absurd he (hd attempt e)⟩
  let x : Stmt := .createDelivery D (deliveryData P inp order dec attempt) (booking P order)
  refine wpm_tx.mpr ⟨fun hX => h.1.2 hX D, fun w' hr _ _ => ?_⟩
  have hh := debt_holding.of_own hr h.1
  split
  case h_1 hok => exact leakOutline.created hh hok
  case h_2 e he =>
    refine ⟨leakOutline.unbound_exec (x := x) debt_holding trivial hh, fun E e he' => ?_⟩
    rw [World.own_exec, hr] at he'
    cases he'
    case tail he' => exact h.2 E e he'
    case head =>
      rintro ⟨row, booking, hx, hok⟩
      obtain ⟨rfl, rfl, rfl⟩ := Stmt.createDelivery.inj hx
      have he : (x.exec w'.db).fst = .error _ := he
      exact absurd (he.symm.trans hok) (by simp)

-- The statements that neither create a delivery nor hand back an airframe.
def Quiet : Stmt → Prop
  | .fleet (.release ..) => False
  | .createDelivery ..   => False
  | _                    => True

theorem quiet_of_plain (h : x.Plain) : Quiet x := by
  unfold Quiet
  split
  case h_1 => exact h
  case h_2 => exact h
  case h_3 => trivial

theorem quiet_wpm (hq : Built (Single Quiet) p) (hp : Built (Single leakOutline.Unbound) p)
    (h : Clear t w) :
    kickoffOutline.wpm (system P) t (.create inp) p (fun _ => Clear t) (fun _ => Clear t) w := by
  refine wpm_mono (wpm_transfer (O := leakOutline) (G := fun _ => True)
    (hq.issues fun | .tx hx => ⟨hx, fun _ => trivial⟩) id (fun _ => trivial) (fun _ _ => trivial)
    (fun {x w} hx _ => ?_) (fun _ _ _ _ => trivial) (leakOutline.single_wpm debt_clear hp h) trivial)
    (fun _ _ h => h.1) fun _ _ h => h.1
  cases x <;> try trivial
  case fleet x => cases x <;> trivial

theorem create_wpm (hc : (Call.create inp).Steady) (h : Clear t w) (hu : Uncreated t w) :
    kickoffOutline.wpm (system P) t (.create inp) (create P D inp) (fun _ => Settled t)
      (fun _ => Settled t) w := by
  obtain ⟨hf, hd⟩ := hc
  have prepared : leakOutline.wpm (system P) t (.create inp) (prepare inp) (fun _ => Clear t)
      (fun _ => Clear t) w :=
    leakOutline.single_wpm debt_clear (Single.mono prepare_single fun _ => leakOutline.unbound_of_plain) h
  have dispatching {live route isScheduled} : Built (Single fleetOutline.Unbinding)
      (dispatch P live D inp.packageWeight route isScheduled) := by
    refine Single.mono dispatch_single ?_
    rintro x (hx | ⟨X, payloadKg, rfl⟩)
    case inl => exact fleetOutline.unbinding_of_plain hx
    case inr => trivial
  rw [create, wpm_bind]
  refine wpm_mono (keep_create (Single.mono prepare_single fun _ => fleetOutline.unbinding_of_plain)
    prepared hu) (fun order w h => ?_) fun _ _ h => settled_of_clear h.1
  rw [wpm_bind]
  refine wpm_mono (keep_create dispatching (leakOutline.dispatch_wpm h.1) h.2) (fun dec w h => ?_)
    fun _ _ h => settled_of_clear h.1
  rw [wpm_bind]
  refine wpm_mono (keep_create fleetOutline.reserve_unbinding (leakOutline.reserve_wpm hf h.1) h.2)
    (fun _ w h => ?_) fun _ _ h => settled_of_clear h.1
  rw [wpm_bind]
  have abandoned {w : History} (h : Holding t D dec.droneId w ∧ Uncreated t w) :
      kickoffOutline.wpm (system P) t (.create inp) (abandon P D inp dec) (fun _ => Clear t)
        (fun _ => Clear t) w :=
    wpm_mono (keep_create fleetOutline.abandon_unbinding (leakOutline.abandon_wpm hf h.1) h.2)
      (fun _ _ h => h.1) fun _ _ h => h.1
  refine wpm_mono (wpm_placeWithRetries (G := fun w => Clear t w) (H := fun w => Clear t w)
    (place_wpm hd) abandoned h) (fun _ w h => ?_) fun _ _ h => settled_of_clear h
  rw [wpm_bind]
  refine wpm_mono (quiet_wpm (Single.mono charge_single ?_) (Single.mono charge_single ?_) h)
    (fun _ w h => ?_) fun _ _ h => settled_of_clear h
  case refine_1 =>
    exact fun _ h => h.elim quiet_of_plain (by rintro ⟨_, he⟩; exact he ▸ trivial)
  case refine_2 =>
    exact fun _ h => h.elim leakOutline.unbound_of_plain (by rintro ⟨_, he⟩; exact he ▸ trivial)
  case refine_3 =>
    refine wpm_mono (quiet_wpm (Single.mono enqueue_single ?_) (Single.mono enqueue_single ?_) h)
      (fun _ _ h => settled_of_clear h) fun _ _ h => settled_of_clear h
    case refine_1 => exact fun _ h => h.elim quiet_of_plain fun he => he ▸ trivial
    case refine_2 => exact fun _ h => h.elim leakOutline.unbound_of_plain fun he => he ▸ trivial

end Create

theorem spawn (hc : c.Steady) (hw : w.own t = []) :
    kickoffOutline.wp (system P) t c ((system P).prog t c) (fun _ => Settled t) w := by
  have h : Clear t w := clear_of_own hw
  have other (hr : c.Reliable) (hs : ∀ x es, c.Settles x es) :
      kickoffOutline.wp (system P) t c ((system P).prog t c) (fun _ => Settled t) w :=
    wp_mono (wp_transfer (O := leakOutline) (K := fun _ => True) (G := fun _ => True)
      (Prog.Issues.of_forall _ fun _ => trivial) id (fun _ => trivial) (fun _ _ => trivial)
      (fun _ _ => hs _ _) (fun _ _ _ _ => trivial) (leakOutline.spawn hr h) trivial)
      fun _ _ h => settled_of_clear h.1
  cases c
  case create        => exact wp_toCall.mpr <| create_wpm hc h fun D e he => by simp [hw] at he
  case handleKickoff => exact wp_toCall.mpr <| handleKickoff_wpm hc h
  all_goals exact other hc fun _ _ => trivial

theorem Settled.of_own {w' : History} (hr : w'.own t = w.own t) (h : Settled t w) : Settled t w' := by
  intro D ho
  rw [hr] at ho ⊢
  exact h D ho

theorem settles_of_own {w' : History} (hr : w'.own t = w.own t) (h : c.Settles x (w.own t)) :
    c.Settles x (w'.own t) := by
  rwa [hr]

theorem valid : kickoffOutline.Valid (system P) oneKickoff Store.Initial where
  rely_refl _ _          := rfl
  rely_trans h₁ h₂       := h₂.trans h₁
  post_stable hr h       := Settled.of_own hr h
  inv_init _             := trivial
  spawn hs _ hw          := spawn hs <| World.own_eq_nil hw
  inv_step _ _ _         := trivial
  rely_step _ _ _ hn     := World.own_exec_of_ne hn
  pre_step _ _ _ hn _ h  := settles_of_own (World.own_exec_of_ne hn) h

end kickoffOutline

section Run

variable {P : Params} {pol : Policy Stmt.sig Store Call} {s : Pool Stmt.sig Store Call} {t t' : Nat}
variable {c c' : Call} {x x' : Stmt} {X : DroneId} {D : DeliveryId} {job : KickoffJob}

-- While a kickoff is about to issue a statement, no other kickoff of the delivery does.
theorem Alone.eq (h : Alone s t D) (hr : Reachable (system P) pol Store.Initial s)
    (ha : s.AboutTo t' (.handleKickoff job) x') (hD : job.deliveryId = D) (ho : s.world.own t' ≠ []) :
    t' = t := by
  by_contra hne
  have ⟨e, he⟩ := List.exists_mem_of_ne_nil _ ho
  have ⟨hm, ht⟩ := List.mem_filter.mp he
  obtain rfl := of_decide_eq_true ht
  have ⟨th, hth, hc, hx⟩ := ha
  have ⟨th', hth', hc'⟩ := hr.log_thread e hm
  obtain rfl := Option.some.inj <| hth.symm.trans hth'
  exact hx.not_stopped <| h e hm hne job (hc'.symm.trans hc) hD th hth

-- As long as a kickoff of a delivery relies on it, the delivery is not launched.
theorem unlaunched_of_grounds (h : Reachable (system P) oneKickoff Store.Initial s)
    (ha : s.AboutTo t (.handleKickoff job) x) (hg : grounds.Owes job.deliveryId (s.world.own t)) :
    s.db.Unlaunched job.deliveryId := by
  refine grounds.guards (I := fun db => db.Unlaunched job.deliveryId)
    (A := fun c => ∃ job', c = .handleKickoff job' ∧ job'.deliveryId = job.deliveryId) h
    (fun {db x} hb => ?_) (fun {s t c x t' c' x'} st ha hc ho hr hu => ?_) ha ⟨job, rfl, rfl⟩ hg
  case refine_1 =>
    obtain ⟨rfl, hs⟩ := hb
    exact ⟨_, hs, .inl rfl⟩
  case refine_2 =>
    have hw := StepOf.warranted st
    refine hu.exec hw.lawful fun hx => hr ?_ hx
    obtain ⟨o, X, rfl, _⟩ := hx
    obtain ⟨_, _, job₁, rfl, hD₁⟩ := hw
    obtain ⟨job₂, rfl, hD₂⟩ := hc
    have alone : Alone s t job₁.deliveryId := st.allowed job₁ rfl
    exact alone.eq st.reachable ha (hD₂.trans hD₁.symm) fun hn => by rw [hn] at ho; exact ho

-- A delivery only exists once it has been created, which is up to a single thread.
theorem creator (h : Reachable (system P) pol Store.Initial s) {d : Delivery}
    (hd : s.db.deliveries.find? D = some d) : ∃ e ∈ s.log, D = P.uuid e.tid ∧ Creates D e := by
  refine h.invariant (I := fun w => ∀ {d}, w.db.deliveries.find? D = some d →
    ∃ e ∈ w.log, D = P.uuid e.tid ∧ Creates D e) (fun hi => by simp [hi.deliveries])
    (fun {s t c x} st ih => ?_) hd
  intro d hd
  have := x.rowChange s.db D
  rw [show (x.exec s.db).snd.deliveries.find? D = some d from hd] at this
  generalize hd' : some d = r at this
  have old {d : Delivery} (hd : s.db.deliveries.find? D = some d) :
      ∃ e ∈ (s.world.exec (system P) t c x).log, D = P.uuid e.tid ∧ Creates D e := by
    have ⟨e, he, hc⟩ := ih hd
    exact ⟨e, .tail _ he, hc⟩
  cases this
  case same             => exact old hd'.symm
  case moved _ hd _     => exact old hd
  case guessed hd _     => exact old hd
  case created row booking he _ hok =>
    subst he
    have ⟨hD, _⟩ := StepOf.warranted st
    refine ⟨_, .head _, hD, row, booking, rfl, ?_⟩
    rw [Stmt.exec, hok, commit]

-- No call gives back an airframe that is in use.
theorem respects (st : StepOf (system P) oneKickoff Store.Initial s t c x) :
    claimsRespected.step s t c x := by
  rintro D outcome rfl hc
  have hr := (kickoffOutline.valid.reachable st.reachable).pre st.aboutTo
  have unused {a : DeliveryStatus} (hs : s.db.status D = some a) (h : a = .scheduled ∨ a.Terminal) :
      ∀ d X, s.db.deliveries.find? D = some d → ¬d.Flies X := by
    intro d X hd hf
    rw [Store.status, hd, Option.map_some, Option.some.injEq] at hs
    exact h.elim (fun h => hf.launched <| hs.trans h) fun h => hf.active <| hs ▸ h
  obtain ⟨_, a, o, ⟨rfl, ht⟩, hw⟩ | hu := (StepOf.warranted st).follows ⟨D, .delivered, rfl, by decide⟩
  case inl =>
    have hs := status_of_won st.reachable hw ht
    refine ⟨unused hs <| .inr ht, fun he => ?_⟩
    obtain rfl := Option.some.inj <| hs.symm.trans he
    exact absurd ht <| by decide
  case inr =>
    cases c <;> try exact hu.elim
    case create =>
      obtain ⟨rfl, _⟩ := hu
      have hn : s.db.deliveries.find? (P.uuid t) = none := by
        by_contra hne
        obtain ⟨d, hd⟩ := Option.ne_none_iff_exists'.mp hne
        obtain ⟨e, he, hD, hcr⟩ := creator st.reachable hd
        exact hr _ e (List.mem_filter.mpr ⟨he, decide_eq_true <| (P.uuid_injective hD).symm⟩) hcr
      exact ⟨fun d X hd => by simp [hn] at hd, fun hs => by simp [Store.status, hn] at hs⟩
    case handleKickoff job =>
      obtain ⟨rfl, _⟩ := hu
      obtain ⟨a, hs, ha⟩ := unlaunched_of_grounds st.reachable st.aboutTo hr
      refine ⟨unused hs ha, fun _ t' c' o X ha' => ?_⟩
      -- Only this kickoff could launch the delivery, but it is about to give back the airframe.
      obtain ⟨_, _, job', hc', hD⟩ := (callOutline.valid.reachable st.reachable).pre ha'
      subst hc'
      have hr' := (kickoffOutline.valid.reachable st.reachable).pre ha'
      have alone : Alone s t job.deliveryId := st.allowed job rfl
      obtain rfl := alone.eq st.reachable ha' hD fun hn => by
        have := hr'.1
        rw [hn] at this
        exact this
      have := (Pool.aboutTo_iff_next?.mp ha').symm.trans <| Pool.aboutTo_iff_next?.mp st.aboutTo
      simp at this

theorem Reachable.unattended (h : Reachable (system P) attended Store.Initial s) :
    Reachable (system P) oneKickoff Store.Initial s :=
  h.mono (fun _ h => h) (fun _ _ _ _ h job hc => (h job hc).1) id

theorem StepOf.unattended (st : StepOf (system P) attended Store.Initial s t c x) :
    StepOf (system P) oneKickoff Store.Initial s t c x :=
  ⟨Reachable.unattended st.reachable, st.aboutTo, fun job hc => (st.allowed job hc).1⟩

theorem Reachable.respectful (h : Reachable (system P) oneKickoff Store.Initial s) :
    Reachable (system P) claimsRespected Store.Initial s :=
  h.strengthen (fun _ _ => trivial) respects fun _ => trivial

-- Every claim is that of a delivery on its way with the airframe, or some thread is responsible for it.
def Answered (w : History) : Prop :=
  ∀ X D, w.db.fleet.Claims X D → w.db.Serves X D ∨ ∃ t, Responsible D (w.own t)

theorem Store.Serves.exec {db : Store} (h : db.Serves X D) (hb : ¬Binds db D x)
    (hs : ∀ d, db.deliveries.find? D = some d → d.assignedDroneId = some X → d.status ≠ .scheduled) :
    (x.exec db).snd.Serves X D := by
  have ⟨d, hd, hn, ha⟩ := h
  have := x.rowChange db D
  rw [Store.Serves]
  generalize (x.exec db).snd.deliveries.find? D = d' at this
  cases this
  case same         => exact h
  case created hn _ => simp [hn] at hd
  case guessed hd' _ =>
    obtain rfl := Option.some.inj <| hd.symm.trans hd'
    exact ⟨_, rfl, hn, ha⟩
  case moved o tr _ he hd' hg =>
    obtain rfl := Option.some.inj <| hd.symm.trans hd'
    refine ⟨_, rfl, ?_, ?_⟩
    case refine_1 =>
      rw [tr.apply_status]
      exact fun ht => hb <| .inr ⟨o, tr, d, he, hd, hg, ht⟩
    case refine_2 =>
      obtain ⟨Y, rfl⟩ | ⟨has, _⟩ := tr.apply_assigned db.clock d
      case inl => exact absurd (by simpa [Transition.source] using hg) <| hs d hd ha
      case inr => exact has.trans ha

-- A thread is relieved of its responsibility for an airframe by handing it back, or else the delivery is
-- on its way with the airframe.
theorem serves_of_relieves (st : StepOf (system P) oneKickoff Store.Initial s t c x)
    (hr : Relieves s.db D x) (ho : airframes.Owes D (s.world.own t)) (hc : s.db.fleet.Claims X D)
    (hn : ∀ outcome, x ≠ .fleet (.release D outcome)) (hu : s.db.fleet.Unique) :
    (x.exec s.db).snd.Serves X D := by
  have hs := (kickoffOutline.valid.reachable st.reachable).pre st.aboutTo
  have hh := (fleetOutline.valid.reachable <| Reachable.respectful st.reachable).pre st.aboutTo
  have hw := StepOf.warranted st
  obtain ⟨outcome, he⟩ | ⟨o, X', d, rfl, hd, hsch⟩ | ⟨row, booking, rfl, hok⟩ := hr
  case inl => exact absurd he (hn outcome)
  case inr.inl =>
    obtain ⟨_, _, job, hjob, hD⟩ := hw
    subst hjob hD
    cases X'
    case none => exact absurd ho <| hs.2 rfl _
    case some Y =>
      obtain ⟨d', hd', hY⟩ := hh
      obtain rfl := Option.some.inj <| hd.symm.trans hd'
      obtain rfl := hu _ _ _ hc <| hY hsch
      have hg : (Transition.launch <| some X).source d.status := by simp [Transition.source, hsch]
      refine ⟨(Transition.launch <| some X).apply s.db.clock d, ?_, ?_, rfl⟩
      case refine_1 => simp [Stmt.exec, DeliveryStmt.exec, Table.find?_cas, hd, hg]
      case refine_2 => rw [Transition.apply_status, Transition.target]; decide
  case inr.inr =>
    obtain ⟨hD, ⟨inp, rfl⟩, hnew⟩ := hw
    cases hX : row.assignedDroneId
    case none => exact absurd ho <| hs hX
    case some Y =>
      obtain ⟨hf, hY⟩ := hh (Store.absent_of_createDelivery hok) Y hX
      obtain rfl := hu _ _ _ hc hY
      exact ⟨_, Store.find?_createDelivery hok, hf.active, hX⟩

theorem Answered.exec (st : StepOf (system P) attended Store.Initial s t c x)
    (h : Answered s.world) (hu : s.db.fleet.Unique) : Answered (s.world.exec (system P) t c x) := by
  intro X D hc
  have hc : (x.exec s.db).snd.fleet.Claims X D := hc
  have st' : StepOf (system P) oneKickoff Store.Initial s t c x := StepOf.unattended st
  by_cases hb : Binds s.db D x
  case pos =>
    refine .inr ⟨t, owes_exec.mpr <| .inl hb, ?_⟩
    rw [World.own_exec]
    rintro ⟨_, hx, _⟩
    obtain ⟨_, _, _, he, _⟩ | ⟨_, _, _, he, _⟩ := hb <;> exact absurd (he.symm.trans hx) (by simp)
  case neg =>
    have hn : s.db.fleet.Claims X D := not_not.mp fun hn => hb <| binds_of_claims hc hn
    obtain hs | ⟨t', ho, hg⟩ := h X D hn
    case inl =>
      have bound : Bound s.world :=
        (fleetOutline.valid.reachable <| Reachable.respectful st'.reachable).inv
      refine .inl <| hs.exec hb fun d hd ha => ?_
      have ⟨d', hd', hn, _⟩ := hs
      obtain rfl := Option.some.inj <| hd.symm.trans hd'
      exact (bound hd hn ha).1.launched
    case inr =>
      by_cases ht : t' = t
      case neg => exact .inr ⟨t', by rw [Responsible, World.own_exec_of_ne ht]; exact ⟨ho, hg⟩⟩
      case pos =>
        subst ht
        by_cases hr : Relieves s.db D x
        case pos =>
          refine .inl <| serves_of_relieves st' hr ho hn (fun outcome he => ?_) hu
          subst he
          exact @Fleet.not_claims_of_release _ _ _ s.db.clock _ hc
        case neg =>
          have ho' := owes_exec (S := system P) (c := c).mpr <| .inr ⟨hr, ho⟩
          by_cases hg' : GaveUp D ((s.world.exec (system P) t' c x).own t')
          case neg => exact .inr ⟨t', ho', hg'⟩
          case pos =>
            -- The kickoff has just found that the delivery has come to its end.
            rw [World.own_exec] at hg'
            obtain ⟨⟨job, rfl, rfl⟩, rfl, hs⟩ := hg'
            have grounded := (kickoffOutline.valid.reachable st'.reachable).pre st'.aboutTo _ ho
            have ⟨a, ha, ht⟩ := (unlaunched_of_grounds st'.reachable st'.aboutTo grounded).terminal hs
            have ⟨t₁, hne, ho₁⟩ := (st.allowed job rfl).2 rfl ho a X ha ht hn
            exact .inr ⟨t₁, by rwa [World.own_exec_of_ne hne]⟩

end Run

-- If a kickoff only ever gives up when somebody else hands back the airframe, then, once no call is in
-- flight, the airframes that are claimed are those of the deliveries on their way.
theorem claims_iff_serves {P : Params} {s : Pool Stmt.sig Store Call}
    (h : Reachable (system P) attended Store.Initial s) (hq : s.Quiescent) {X : DroneId}
    {D : DeliveryId} : s.db.fleet.Claims X D ↔ s.db.Serves X D := by
  have h' := Reachable.unattended h
  constructor
  case mpr =>
    rintro ⟨d, hd, hn, ha⟩
    exact ((fleetOutline.valid.reachable <| Reachable.respectful h').inv hd hn ha).2
  case mp =>
    intro hc
    have unique {s} (h : Reachable (system P) attended Store.Initial s) : s.db.fleet.Unique :=
      h.invariant (I := fun w => w.db.fleet.Unique)
        (fun hi X Y D hX => absurd hX <| hi.unclaimed X D) fun _ hu => Fleet.Unique.exec hu
    have hi : Answered s.world := h.invariant (fun hi X D hc => absurd hc <| hi.unclaimed X D)
      fun st hi => hi.exec st <| unique st.reachable
    obtain hs | ⟨t, ho, hg⟩ := hi X D hc
    case inl => exact hs
    case inr =>
      have ⟨e, he, _⟩ := ho.binds
      have ⟨hm, ht⟩ := List.mem_filter.mp he
      have ⟨th, hth, _⟩ := h.log_thread e hm
      rw [of_decide_eq_true ht] at hth
      have hd := (hq t th hth trivial).resolve_left <| Bool.eq_false_iff.mp <| h.not_crashed id hth
      exact absurd ((kickoffOutline.valid.reachable h').post hth hd D ho) hg

def Call.kickoff? : Call → Option KickoffJob
  | .handleKickoff job => some job
  | _                  => none

theorem Call.kickoff?_eq_some_iff {c : Call} {job : KickoffJob} :
    c.kickoff? = some job ↔ c = .handleKickoff job := by
  cases c <;> simp [Call.kickoff?]

instance {c : Call} {p : KickoffJob → Prop} [DecidablePred p] :
    Decidable (∀ job, c = .handleKickoff job → p job) :=
  decidable_of_iff (∀ job ∈ c.kickoff?, p job) <| by simp [Call.kickoff?_eq_some_iff]

instance {s : Pool Stmt.sig Store Call} {t : Nat} {D : DeliveryId} : Decidable (Alone s t D) :=
  decidable_of_iff (∀ e ∈ s.log, e.tid ≠ t → ∀ job, e.call = .handleKickoff job →
    (job.deliveryId = D → ∀ th ∈ s.threads e.tid, th.Stopped)) Iff.rfl

instance {s : Pool Stmt.sig Store Call} {t : Nat} {c : Call} {x : Stmt} :
    Decidable (oneKickoff.step s t c x) :=
  inferInstanceAs (Decidable (∀ job, c = .handleKickoff job → Alone s t job.deliveryId))

def KickoffJob.failing (fault : Fault) : KickoffJob :=
  { KickoffJob.small with faults := { launch := fault } }

-- The launch gets through, but the kickoff is told that it failed.
def severedRun : List (Cmd Call) :=
  List.flatten [
    Cmd.run 1 (.create .later) 7, Cmd.run 2 (.handleKickoff <| .failing <| .lost .connectionLost) 6]

-- The runs in which no delivery comes to its end while a kickoff of it is in flight.
def unended : Policy Stmt.sig Store Call where
  spawn        := Call.Steady
  step s t c _ := ∀ job, c = .handleKickoff job → Alone s t job.deliveryId ∧
    ∀ a ∈ s.db.status job.deliveryId, ¬a.Terminal
  crash        := False

instance {s : Pool Stmt.sig Store Call} {t : Nat} {c : Call} {x : Stmt} :
    Decidable (unended.step s t c x) :=
  inferInstanceAs (Decidable (∀ job, c = .handleKickoff job → Alone s t job.deliveryId ∧
    ∀ a ∈ s.db.status job.deliveryId, ¬a.Terminal))

theorem CreateInput.later_steady : (Call.create .later).Steady :=
  ⟨rfl, fun _ _ => nofun⟩

theorem claims_iff_serves_severed :
    ∃ s, Reachable (system .small) attended Store.Initial s ∧ s.Quiescent ∧ s.db.fleet.Claims 1 1 ∧
      s.db.Serves 1 1 := by
  let s := (Pool.init .small).runCmds (system .small) severedRun
  have h : Reachable (system .small) attended Store.Initial s := by
    have h : Reachable (system .small) unended Store.Initial s := by
      refine (Reachable.init Store.small_initial).runCmds (.of_calls (by decide) ?_)
      simp only [severedRun, Cmd.run, List.flatten_cons, List.flatten_nil, List.append_nil,
        List.mem_append, List.mem_cons, List.mem_replicate]
      rintro cmd ((rfl | ⟨_, rfl⟩) | (rfl | ⟨_, rfl⟩))
      case inl.inl => exact CreateInput.later_steady
      case inr.inl => exact ⟨rfl, rfl, rfl⟩
      all_goals trivial
    refine h.mono (fun _ h => h) (fun s t c x h job hc => ⟨(h job hc).1, ?_⟩) id
    exact fun _ _ a _ ha ht => absurd ht <| (h job hc).2 a ha
  have hq : s.Quiescent := Pool.idle_runCmds (by decide)
  have hc : (s.db.fleet.find? 1).any (·.activeDeliveryId = some 1) := by decide
  obtain ⟨d, hd, ha⟩ := (Option.any_eq_true _ _).mp hc
  have hc : s.db.fleet.Claims 1 1 := ⟨d, hd, of_decide_eq_true ha⟩
  exact ⟨s, h, hq, hc, (claims_iff_serves h hq).mp hc⟩

-- The delivery is canceled right after the kickoff has found that it is due, and the launch fails.
def canceledRun : List (Cmd Call) :=
  List.flatten [
    Cmd.run 1 (.create .later) 7,
    Cmd.run 2 (.handleKickoff <| .failing <| .rolledBack .connectionLost) 1,
    Cmd.run 3 (.cancel 1 1 {}) 12, List.replicate 4 (.exec 2)]

theorem claims_iff_serves_missed :
    ¬∀ (P : Params) (s : Pool Stmt.sig Store Call), Reachable (system P) oneKickoff Store.Initial s →
      s.Quiescent → ∀ X D, s.db.fleet.Claims X D ↔ s.db.Serves X D := by
  intro h
  let s := (Pool.init .small).runCmds (system .small) canceledRun
  have hs : Reachable (system .small) oneKickoff Store.Initial s := by
    refine (Reachable.init Store.small_initial).runCmds (.of_calls (by decide) ?_)
    simp only [canceledRun, Cmd.run, List.flatten_cons, List.flatten_nil, List.append_nil,
      List.mem_append, List.mem_cons, List.mem_replicate]
    rintro cmd ((rfl | ⟨_, rfl⟩) | (rfl | ⟨_, rfl⟩) | (rfl | ⟨_, rfl⟩) | ⟨_, rfl⟩)
    case inl.inl         => exact CreateInput.later_steady
    case inr.inl.inl     => exact ⟨rfl, rfl, rfl⟩
    case inr.inr.inl.inl => exact rfl
    all_goals trivial
  have hq : s.Quiescent := Pool.idle_runCmds (by decide)
  have hc : (s.db.fleet.find? 1).any (·.activeDeliveryId = some 1) := by decide
  obtain ⟨drone, hdr, ha⟩ := (Option.any_eq_true _ _).mp hc
  obtain ⟨d, hd, hn, _⟩ := (h .small s hs hq 1 1).mp ⟨drone, hdr, of_decide_eq_true ha⟩
  have ht : (s.db.deliveries.find? 1).all (·.status.Terminal) := by decide
  rw [hd] at ht
  exact hn <| of_decide_eq_true ht

end Drovery
