import Drovery.Theorems.Lifecycle

namespace Drovery

open Concurrency Method Outline
open DeliveriesService DispatchService

-- The delivery is on its way with the airframe `X`, which has been assigned to it by the dispatch.
structure Delivery.Flies (d : Delivery) (X : DroneId) : Prop where
  active   : ¬d.status.Terminal
  launched : d.status ≠ .scheduled
  live     : d.trackingSource = .live
  assigned : d.assignedDroneId = some X

instance {d : Delivery} {X : DroneId} : Decidable (d.Flies X) :=
  decidable_of_iff (¬d.status.Terminal ∧ d.status ≠ .scheduled ∧ d.trackingSource = .live ∧
    d.assignedDroneId = some X)
    ⟨fun ⟨h₁, h₂, h₃, h₄⟩ => ⟨h₁, h₂, h₃, h₄⟩, fun ⟨h₁, h₂, h₃, h₄⟩ => ⟨h₁, h₂, h₃, h₄⟩⟩

-- The calls that claim an airframe.
def Call.Dispatches : Call → Prop
  | .create _        => True
  | .handleKickoff _ => True
  | _                => False

-- The runs in which no call that claims an airframe gives back an airframe with which the delivery is
-- on its way, or with which another call is just about to launch it.
def claimsRespected : Policy Stmt.sig Store Call where
  step s _ c x := ∀ D outcome, x = .fleet (.release D outcome) → c.Dispatches →
    (∀ d X, s.db.deliveries.find? D = some d → ¬d.Flies X) ∧
    (s.db.status D = some .scheduled →
      ∀ t c o X, ¬s.AboutTo t c (.delivery <| .transition o D <| .launch <| some X))

section Store

variable {db : Store} {x : Stmt} {X : DroneId} {D : DeliveryId} {d : Delivery}

-- A claim stays in place unless it is released.
theorem Stmt.exec_claims (h : db.fleet.Claims X D) (hr : ∀ o, x ≠ .fleet (.release D o)) :
    (x.exec db).snd.fleet.Claims X D := by
  obtain ⟨y, rfl⟩ | he := x.exec_fleet db
  case inl => exact h.exec fun o hy => hr o (hy ▸ rfl)
  case inr => exact he ▸ h

-- Rows are never deleted.
theorem Stmt.exec_isSome (h : (db.deliveries.find? D).isSome) :
    ((x.exec db).snd.deliveries.find? D).isSome := by
  have := x.rowChange db D
  generalize (x.exec db).snd.deliveries.find? D = d' at this ⊢
  cases this
  case same => exact h
  all_goals rfl

end Store

section

variable {P : Params} {pol : Policy Stmt.sig Store Call} {s : Pool Stmt.sig Store Call}
variable {t : Nat} {c : Call} {D : DeliveryId} {outcome : ReleaseOutcome}

theorem status_of_won {o : Option CommandId} {a : DeliveryStatus}
    (h : Reachable (system P) pol Store.Initial s) (hw : Won s.world t o D a) (ht : a.Terminal) :
    s.db.status D = some a := by
  obtain ⟨e, he, _, tr, rfl, hs, d, hd, hsrc⟩ := hw
  obtain ⟨newer, older, hl⟩ := List.append_of_mem he
  refine (entry_warranted h hl).right.terminal ?_ ht
  obtain ⟨t, c, x, db⟩ := e
  obtain rfl : x = .delivery (.transition o D tr) := hs
  simp only [Store.status, Entry.post, system, Stmt.exec, DeliveryStmt.exec]
  rw [Table.cas_of_guard hd hsrc, Table.find?_modify_self, hd]
  simp

-- An airframe is released after its delivery has been terminated, or given back by the call that
-- claimed it.
theorem released (st : StepOf (system P) pol Store.Initial s t c (.fleet <| .release D outcome)) :
    (∃ a, s.db.status D = some a ∧ a.Terminal) ∨
    c.Dispatches ∧ (D = P.uuid t ∧ (∃ inp, c = .create inp) ∨
      ∃ d, s.db.deliveries.find? D = some d) := by
  obtain ⟨E, a, o, ⟨rfl, ht⟩, hw⟩ | hu :=
    (StepOf.warranted st).follows ⟨D, .delivered, rfl, by decide⟩
  case inl => exact .inl ⟨a, status_of_won st.reachable hw ht, ht⟩
  case inr =>
    cases c <;> try exact hu.elim
    case create inp    => exact .inr ⟨trivial, .inl ⟨hu.1, inp, rfl⟩⟩
    case handleKickoff => exact .inr ⟨trivial, .inr hu.2.2⟩

end

-- Every delivery that has not been terminated holds the airframe that has been assigned to it.
def Bound (w : History) : Prop :=
  ∀ {D d X}, w.db.deliveries.find? D = some d → ¬d.status.Terminal → d.assignedDroneId = some X →
    d.Flies X ∧ w.db.fleet.Claims X D

-- What has to be in place when a delivery is created or launched.
def Call.Holds (w : History) : Call → Stmt → Prop
  | .handleKickoff _, .delivery (.transition _ D (.launch (some X))) =>
    ∃ d, w.db.deliveries.find? D = some d ∧ (d.status = .scheduled → w.db.fleet.Claims X D)
  | .create _, .createDelivery D row _ =>
    w.db.deliveries.find? D = none → ∀ X, row.assignedDroneId = some X →
      row.Flies X ∧ w.db.fleet.Claims X D
  | _, _ => True

section Bound

variable {P : Params} {s : Pool Stmt.sig Store Call} {t : Nat} {c : Call} {x : Stmt}

theorem Bound.exec (st : StepOf (system P) claimsRespected Store.Initial s t c x)
    (h : Bound s.world) (hp : c.Holds s.world x) : Bound (s.world.exec (system P) t c x) := by
  intro D d' X hd' hn ha
  have hx := StepOf.warranted st
  -- What has been claimed is not released.
  have keep {d : Delivery} (hd : s.db.deliveries.find? D = some d) (hn : ¬d.status.Terminal)
      (ha : d.assignedDroneId = some X) :
      d.Flies X ∧ (x.exec s.db).snd.fleet.Claims X D := by
    obtain ⟨hf, hc⟩ := h hd hn ha
    refine ⟨hf, Stmt.exec_claims hc fun o hx => ?_⟩
    subst hx
    obtain ⟨a, hs, ht⟩ | ⟨hc, _⟩ := released st
    case inl =>
      simp only [Store.status, hd, Option.map_some, Option.some.injEq] at hs
      exact hn <| hs ▸ ht
    case inr => exact (st.allowed D o rfl hc).left d X hd hf
  have := x.rowChange s.db D
  rw [show (x.exec s.db).snd.deliveries.find? D = some d' from hd'] at this
  generalize hd'' : some d' = r at this
  cases this
  case same => exact keep hd''.symm hn ha
  case created row booking he hf _ =>
    obtain rfl := Option.some.inj hd''
    subst he
    obtain ⟨_, ⟨inp, rfl⟩, _⟩ := hx
    obtain ⟨hfl, hc⟩ := hp hf X ha
    exact ⟨⟨hn, hfl.launched, hfl.live, ha⟩, Stmt.exec_claims hc (by simp)⟩
  case guessed d _ hd _ =>
    obtain rfl := Option.some.inj hd''
    obtain ⟨hfl, hc⟩ := keep hd hn ha
    exact ⟨⟨hn, hfl.launched, hfl.live, ha⟩, hc⟩
  case moved tr d he hd hs =>
    obtain rfl := Option.some.inj hd''
    subst he
    have hedge := tr.edge hx.1 hs
    have hl : (tr.apply s.db.clock d).status ≠ .scheduled := tr.apply_status ▸ hedge.ne_scheduled
    obtain ⟨Y, rfl⟩ | ⟨has, hlive⟩ := tr.apply_assigned s.db.clock d
    case inl =>
      obtain ⟨job, rfl, _⟩ := hx.2.2
      obtain ⟨d₀, hd₀, hc⟩ := hp
      obtain rfl := Option.some.inj (hd.symm.trans hd₀)
      obtain rfl := Option.some.inj ha
      refine ⟨⟨hn, hl, rfl, rfl⟩, Stmt.exec_claims (hc ?_) (by simp)⟩
      simpa [Transition.source] using hs
    case inr =>
      obtain ⟨hfl, hc⟩ := keep hd hedge.not_terminal (has ▸ ha)
      exact ⟨⟨hn, hl, hlive ▸ hfl.live, ha⟩, hc⟩

end Bound

def fleetOutline (P : Params) : Outline Stmt.sig Store Call where
  inv w       := Bound w
  rely t w w' := (∀ {D}, (w.db.deliveries.find? D).isSome → (w'.db.deliveries.find? D).isSome) ∧
    (w'.db.deliveries.find? (P.uuid t) = none →
      ∀ {X}, w.db.fleet.Claims X (P.uuid t) → w'.db.fleet.Claims X (P.uuid t))
  pre _ c x w := c.Holds w x

namespace fleetOutline

variable {P : Params} {t : Nat} {c : Call} {w w' : History} {α : Type} {p : App α} {x : Stmt}
variable {D : DeliveryId} {F : History → Prop} {payloadKg : ℚ}

-- The statements that neither create nor launch a delivery.
def Unbinding : Stmt → Prop
  | .delivery (.transition _ _ (.launch (some _))) => False
  | .createDelivery ..                             => False
  | _                                              => True

theorem holds_of_unbinding (h : Unbinding x) : c.Holds w x := by
  unfold Call.Holds
  split
  case h_1 => exact h.elim
  case h_2 => exact h.elim
  case h_3 => trivial

theorem unbinding_of_plain (h : x.Plain) : Unbinding x := by
  unfold Unbinding
  split
  case h_1 => exact h
  case h_2 => exact h
  case h_3 => trivial

theorem unbinding_of_aftermath {a : DeliveryStatus} (h : Aftermath D a x) : Unbinding x := by
  unfold Unbinding
  split
  case h_1 => exact h.elim id id
  case h_2 => exact h.elim id id
  case h_3 => trivial

theorem ok_single (hp : Built (Single Unbinding) p) : (fleetOutline P).Ok (system P) t c p w :=
  Ok.built hp fun | .tx hx => Ok.tx <| holds_of_unbinding hx

-- An assertion that no step at all invalidates.
structure Lasts (P : Params) (t : Nat) (c : Call) (F : History → Prop) : Prop where
  rely : ∀ {w w'}, (fleetOutline P).rely t w w' → F w → F w'
  exec : ∀ {x w}, F w → F (w.exec (system P) t c x)

theorem single_wpm (hp : Built (Single Unbinding) p) (hF : Lasts P t c F) (h : F w) :
    (fleetOutline P).wpm (system P) t c p (fun _ => F) (fun _ => F) w := by
  refine wpm_built hp (fun hb h => ?_) h
  obtain ⟨hx⟩ := hb
  exact wpm_tx_of (holds_of_unbinding hx) fun _ hr _ _ => hF.exec <| hF.rely hr h

section Dispatch

-- A claim that succeeds is in place right afterwards.
theorem claimFirst_wpm {Xs : List DroneId} (hF : Lasts P t c F) (h : F w) :
    (fleetOutline P).wpm (system P) t c (claimFirst D payloadKg Xs)
      (fun r w => F w ∧ ∀ X, r = some X → w.db.fleet.Claims X D) (fun _ => F) w := by
  induction Xs generalizing w
  case nil => exact ⟨h, by simp⟩
  case cons X Xs ih =>
    rw [claimFirst, wpm_bind]
    refine wpm_tx.mpr ⟨holds_of_unbinding trivial, fun w' hr _ _ => ?_⟩
    have h' : F (w'.exec (system P) t c (.fleet <| .claim X D payloadKg)) :=
      hF.exec <| hF.rely hr h
    split
    case h_2 => exact h'
    case h_1 count hc =>
      split
      case isFalse => exact ih h'
      case isTrue hpos =>
        refine ⟨h', fun Y hY => ?_⟩
        obtain rfl := Option.some.inj hY
        exact Fleet.claims_of_claim hc hpos

theorem selectAndClaim_wpm {route : MissionRoute} (hF : Lasts P t c F) (h : F w) :
    (fleetOutline P).wpm (system P) t c (selectAndClaim P D route payloadKg)
      (fun X w => F w ∧ w.db.fleet.Claims X D) (fun _ => F) w := by
  rw [selectAndClaim, wpm_bind]
  refine wpm_stmt.mpr ⟨holds_of_unbinding trivial, fun w' hr _ _ => ?_⟩
  have h : F (w'.exec (system P) t c (.fleet <| .findHeld D)) := hF.exec <| hF.rely hr h
  split
  case h_1 X hX =>
    have hX : (FleetStmt.exec w'.db.clock (.findHeld D) w'.db.fleet).fst = some X := hX
    exact ⟨h, Fleet.claims_of_findHeld hX⟩
  case h_2 =>
    rw [wpm_bind]
    refine wpm_stmt.mpr ⟨holds_of_unbinding trivial, fun w'' hr _ _ => ?_⟩
    dsimp only
    rw [wpm_bind]
    refine wpm_mono (claimFirst_wpm hF <| hF.exec <| hF.rely hr h) (fun r w h => ?_) (fun _ _ h => h)
    cases r
    case some X => exact ⟨h.1, h.2 X rfl⟩
    case none   =>
      rw [wpm_bind]
      exact single_wpm (Single.mono saturationError_single fun _ h => unbinding_of_plain h.plain) hF h.1

theorem dispatch_wpm {live : Bool} {route : Option MissionRoute} {isScheduled : Bool}
    (hF : Lasts P t c F) (h : F w) :
    (fleetOutline P).wpm (system P) t c (dispatch P live D payloadKg route isScheduled)
      (fun dec w => F w ∧ ∀ X, dec.droneId = some X →
        dec.trackingSource = .live ∧ isScheduled = false ∧ w.db.fleet.Claims X D) (fun _ => F) w := by
  unfold dispatch
  split
  case isTrue => exact ⟨h, by simp⟩
  case isFalse hs =>
    rw [wpm_bind]
    cases route
    case none => exact h
    case some route =>
      rw [requireRoute, wpm_pure, wpm_bind]
      refine wpm_mono (selectAndClaim_wpm hF h) (fun X w h => ?_) (fun _ _ h => h)
      refine ⟨h.1, fun Y hY => ⟨rfl, ?_, Option.some.inj hY ▸ h.2⟩⟩
      simp only [Bool.or_eq_true, not_or, Bool.not_eq_true] at hs
      exact hs.right

end Dispatch

section Kickoff

variable {job : KickoffJob}

open SimulationProcessor

theorem abortScheduled_unbinding {reason : DeliveryFailureReason} :
    Built (Single Unbinding) (abortScheduled job reason) := by
  refine .bind (failExceptional_single (fun _ => unbinding_of_aftermath) fun _ _ => trivial) fun _ => ?_
  exact .pure

theorem giveBack_unbinding {droneId : Option DroneId} :
    Built (Single Unbinding) (giveBack job droneId) := by
  cases droneId
  case none => exact .pure
  case some => exact release_single trivial

theorem recoverLaunch_unbinding {droneId : Option DroneId} :
    Built (Single Unbinding) (recoverLaunch job droneId) := by
  cases droneId
  case none => exact .pure
  case some =>
    refine .bind (.handle (.attempt <| Single.stmt trivial) fun _ => .pure) fun current => ?_
    split
    case isTrue  => exact giveBack_unbinding
    case isFalse => exact .pure

-- The launch comes right after the claim.
theorem ok_launch {droneId : Option DroneId}
    (h : (w.db.deliveries.find? job.deliveryId).isSome)
    (hc : ∀ X, droneId = some X → w.db.fleet.Claims X job.deliveryId) :
    (fleetOutline P).Ok (system P) t c (launch job droneId) w := by
  have rest {w : History} {count : Nat} : (fleetOutline P).Ok (system P) t c
      (if count = 0 then giveBack job droneId else pure ()) w :=
    Ok.ite (ok_single giveBack_unbinding) trivial
  have recover (e : AppError) (w : History) : (fleetOutline P).Ok (system P) t c
      (do recoverLaunch job droneId; throw e : App Nat) w :=
    Ok.bind (ok_single recoverLaunch_unbinding) fun _ _ => trivial
  have write {w : History} (hp : c.Holds w
      (.delivery <| .transition none job.deliveryId <| .launch droneId)) :
      (fleetOutline P).Ok (system P) t c (do
        let count ← (App.stmt <| .delivery <| .transition none job.deliveryId <|
          .launch droneId).attempt job.faults.launch |>.handle fun e => do
            recoverLaunch job droneId
            throw e
        if count = 0 then giveBack job droneId else pure ()) w :=
    Ok.bind (Ok.handle (Ok.attempt <| Ok.tx hp) recover) fun _ _ => rest
  cases droneId
  case none =>
    exact Ok.bind (Ok.tx <| holds_of_unbinding trivial) fun _ w => write <| holds_of_unbinding trivial
  case some X =>
    refine write ?_
    obtain ⟨d, hd⟩ := Option.isSome_iff_exists.mp h
    cases c <;> try trivial
    exact ⟨d, hd, fun _ => hc X rfl⟩

theorem dispatchKickoff_wpm {delivery : Delivery} (hF : Lasts P t c F) (h : F w) :
    (fleetOutline P).wpm (system P) t c (dispatchKickoff P job delivery)
      (fun r w => F w ∧ ∀ dec, r = some dec → ∀ X, dec.droneId = some X →
        w.db.fleet.Claims X job.deliveryId) (fun _ _ => True) w := by
  rw [dispatchKickoff, wpm_handle, wpm_bind]
  refine wpm_mono (dispatch_wpm hF h) (fun dec w h => ?_) (fun e w h => ?_)
  case refine_1 => exact ⟨h.1, fun dec' he X hX => (h.2 X (Option.some.inj he ▸ hX)).2.2⟩
  case refine_2 =>
    rw [wpm_bind]
    refine wpm_mono (single_wpm (handleDispatchRefusal_built (fun _ _ => Single.stmt trivial)
      fun _ => abortScheduled_unbinding) hF h) (fun _ w h => ?_) (fun _ _ _ => trivial)
    exact ⟨h, by simp⟩

theorem ok_handleKickoff : (fleetOutline P).Ok (system P) t c (handleKickoff P job) w := by
  refine Ok.stmt_bind (holds_of_unbinding trivial) fun w' hr _ _ => ?_
  split
  case h_1 => trivial
  case h_2 d hd =>
    have hF : Lasts P t c fun w => (w.db.deliveries.find? job.deliveryId).isSome :=
      ⟨fun hr h => hr.1 h, fun h => Stmt.exec_isSome h⟩
    have h : ((w'.exec (system P) t c (.delivery <| .find job.deliveryId)).db.deliveries.find?
        job.deliveryId).isSome := Option.isSome_iff_exists.mpr ⟨d, hd⟩
    unfold kickoff
    split
    case isTrue => trivial
    case isFalse =>
      have hp : Built (Single Unbinding) (preflight job d.route) :=
        preflight_built (fun _ _ => Single.stmt trivial) fun _ => abortScheduled_unbinding
      refine Ok.wpm_bind (wpm_mono (single_wpm hp hF h) (fun _ _ h => h) fun _ _ _ => trivial)
        fun cleared w h => ?_
      split
      case isFalse => trivial
      case isTrue =>
        refine Ok.wpm_bind (dispatchKickoff_wpm hF h) fun dispatched w h => ?_
        cases dispatched
        case none     => trivial
        case some dec => exact ok_launch h.1 (h.2 dec rfl)

end Kickoff

section Create

variable {inp : CreateInput} {order : Order} {dec : DispatchDecision}

theorem abandon_unbinding : Built (Single Unbinding) (abandon P D inp dec) := by
  refine .bind ?_ fun _ => ?_
  case refine_1 =>
    unfold undoReservations
    split
    case isFalse => exact .pure
    case isTrue =>
      exact .bind (.safe <| releaseForDelivery_built trivial fun _ => trivial) fun _ =>
        .safe <| refundForDelivery_built trivial fun _ _ => trivial
  case refine_2 =>
    unfold releaseClaimedAircraft
    split
    case h_1 => exact .pure
    case h_2 => exact release_single trivial

theorem ok_abandon : (fleetOutline P).Ok (system P) t c (abandon P D inp dec) w :=
  ok_single abandon_unbinding

theorem reserve_unbinding : Built (Single Unbinding) (reserve P D inp order dec) := by
  have redeem : Built (Single Unbinding) (redeemPromo D inp order) := by
    unfold redeemPromo
    split
    case h_1 => exact .pure
    case h_2 => exact .attempt <| .block <| .tx trivial
  have debit : Built (Single Unbinding) (debitCredits D inp order) := by
    unfold debitCredits
    split
    case isTrue  => exact .attempt <| .block <| .tx trivial
    case isFalse => exact .pure
  unfold reserve
  split
  case isFalse => exact .pure
  case isTrue  => exact .handle (.bind redeem fun _ => debit) fun _ => .bind abandon_unbinding fun _ => .throw

-- As long as the delivery does not exist, its airframe is not released by anyone else.
def Reserved (D : DeliveryId) (dec : DispatchDecision) (w : History) : Prop :=
  w.db.deliveries.find? D = none → ∀ X, dec.droneId = some X → w.db.fleet.Claims X D

theorem Reserved.rely (hr : (fleetOutline P).rely t w w') (h : Reserved (P.uuid t) dec w) :
    Reserved (P.uuid t) dec w' := by
  intro hn X hX
  refine hr.2 hn <| h ?_ X hX
  rw [← Option.not_isSome_iff_eq_none] at hn ⊢
  exact fun hs => hn (hr.1 hs)

theorem Reserved.exec (h : Reserved D dec w) (hx : ∀ o, x ≠ .fleet (.release D o)) :
    Reserved D dec (w.exec (system P) t c x) := by
  intro hn X hX
  refine Stmt.exec_claims (h ?_ X hX) hx
  rw [← Option.not_isSome_iff_eq_none] at hn ⊢
  exact fun hs => hn (Stmt.exec_isSome hs)

theorem reserve_wpm (h : Reserved (P.uuid t) dec w) :
    (fleetOutline P).wpm (system P) t c (reserve P (P.uuid t) inp order dec)
      (fun _ => Reserved (P.uuid t) dec) (fun _ _ => True) w := by
  have book {w : History} {x : Stmt} {f : x.Res → Except AppError Unit} {fault : Fault}
      (h : Reserved (P.uuid t) dec w) (hu : Unbinding x)
      (hx : ∀ o, x ≠ .fleet (.release (P.uuid t) o)) :
      (fleetOutline P).wpm (system P) t c ((App.tx x f).attempt fault)
        (fun _ => Reserved (P.uuid t) dec) (fun _ _ => True) w := by
    have hb := wpm_tx_of (S := system P) (f := f) (w := w) (t := t) (c := c)
      (O := fleetOutline P) (holds_of_unbinding hu) fun _ hr _ _ => (h.rely hr).exec hx
    refine wpm_attempt.mpr ⟨fun _ => ?_, fun _ _ => trivial, fun _ _ => ?_⟩
    case refine_1 => exact wpm_mono hb (fun _ _ h => h) (fun _ _ _ => trivial)
    case refine_2 => exact wpm_mono hb (fun _ _ _ => trivial) (fun _ _ _ => trivial)
  unfold reserve
  split
  case isFalse => exact h
  case isTrue =>
    rw [wpm_handle, wpm_bind]
    have undo (e : AppError) (w : History) : (fleetOutline P).wpm (system P) t c
        (do abandon P (P.uuid t) inp dec; throw e : App Unit) (fun _ => Reserved (P.uuid t) dec)
        (fun _ _ => True) w := by
      rw [wpm_bind]
      exact ok_abandon
    refine wpm_mono (Q := fun _ => Reserved (P.uuid t) dec) (E := fun _ _ => True) ?_
      (fun _ w h => ?_) (fun e w _ => undo e w)
    case refine_1 =>
      unfold redeemPromo
      split
      case h_1 => exact h
      case h_2 => exact book h trivial (by simp)
    case refine_2 =>
      unfold debitCredits
      split
      case isTrue  =>
        exact wpm_mono (book h trivial (by simp)) (fun _ _ h => h) fun e w _ => undo e w
      case isFalse => exact h

-- What the dispatch has decided about the delivery.
def Decided (order : Order) (dec : DispatchDecision) : Prop :=
  ∀ X, dec.droneId = some X → dec.trackingSource = .live ∧ order.isScheduled = false

theorem deliveryData_flies {attempt : Nat} {X : DroneId} (hd : Decided order dec)
    (hX : dec.droneId = some X) : (deliveryData P inp order dec attempt).Flies X := by
  obtain ⟨hl, hs⟩ := hd X hX
  refine ⟨?_, ?_, hl, hX⟩ <;> simp only [deliveryData, hs] <;> decide

theorem placeWithRetries_wpm {tries attempt : Nat} (hd : Decided order dec)
    (h : Reserved (P.uuid t) dec w) :
    (fleetOutline P).Ok (system P) t c
      (placeWithRetries P (P.uuid t) inp order dec tries attempt) w := by
  refine wpm_placeWithRetries (F := Reserved (P.uuid t) dec) (fun {attempt w} h => ?_)
    (fun _ => ok_abandon) h
  have pre : c.Holds w (.createDelivery (P.uuid t) (deliveryData P inp order dec attempt)
      (booking P order)) := by
    cases c <;> try trivial
    exact fun hn X hX => ⟨deliveryData_flies hd hX, h hn X hX⟩
  refine wpm_attempt.mpr ⟨fun _ => ?_, fun _ _ => h, fun _ _ => ?_⟩
  case refine_1 =>
    refine wpm_mono (wpm_tx_of (F := Reserved (P.uuid t) dec) pre fun w' hr _ _ => ?_)
      (fun _ _ _ => trivial) (fun _ _ h => h)
    exact (h.rely hr).exec (by simp)
  case refine_2 => exact wpm_tx_of pre fun w' hr _ _ => (h.rely hr).exec (by simp)

theorem charge_unbinding : Built (Single Unbinding) (charge D inp order) :=
  Single.mono charge_single fun _ h => h.elim unbinding_of_plain fun ⟨_, he⟩ => he ▸ trivial

theorem ok_create : (fleetOutline P).Ok (system P) t c (create P (P.uuid t) inp) w := by
  have hT : Lasts P t c fun _ => True := ⟨fun _ h => h, fun h => h⟩
  refine Ok.bind (ok_single <| Single.mono prepare_single fun _ => unbinding_of_plain) fun order w => ?_
  refine Ok.wpm_bind (dispatch_wpm hT trivial) fun dec w h => ?_
  have hd : Decided order dec := fun X hX => ⟨(h.2 X hX).1, (h.2 X hX).2.1⟩
  refine Ok.wpm_bind (reserve_wpm fun _ X hX => (h.2 X hX).2.2) fun _ w h => ?_
  refine Ok.bind (placeWithRetries_wpm hd h) fun _ w => Ok.bind (ok_single charge_unbinding) fun _ w => ?_
  exact ok_single <| Single.mono enqueue_single fun _ h => h.elim unbinding_of_plain fun he => he ▸ trivial

end Create

theorem spawn : (fleetOutline P).wp (system P) t c ((system P).prog t c) (fun _ _ => True) w := by
  have other (hc : ¬c.Dispatches) :
      (fleetOutline P).wp (system P) t c ((system P).prog t c) (fun _ _ => True) w := by
    refine wp_of_stable (fun {x w} _ => ?_) (fun _ h => h) (fun h => h) trivial
    cases c <;> first | exact absurd trivial hc | trivial
  cases c
  case create        => exact Ok.toCall ok_create
  case handleKickoff => exact Ok.toCall ok_handleKickoff
  all_goals exact other id

section

variable {s : Pool Stmt.sig Store Call} {t' : Nat}

-- As long as a delivery does not exist, only the call that is about to create it may release its
-- airframe.
theorem claims_of_absent (st : StepOf (system P) claimsRespected Store.Initial s t c x) (hne : t' ≠ t)
    (hn : (x.exec s.db).snd.deliveries.find? (P.uuid t') = none) {X : DroneId}
    (hc : s.db.fleet.Claims X (P.uuid t')) : (x.exec s.db).snd.fleet.Claims X (P.uuid t') := by
  have absent {d : Delivery} (hd : s.db.deliveries.find? (P.uuid t') = some d) : False := by
    have := Stmt.exec_isSome (x := x) (Option.isSome_iff_exists.mpr ⟨d, hd⟩)
    simp [hn] at this
  refine Stmt.exec_claims hc fun o hx => ?_
  subst hx
  obtain ⟨a, hs, _⟩ | ⟨_, ⟨hu, _⟩ | ⟨d, hd⟩⟩ := released st
  case inl =>
    obtain ⟨d, hd, _⟩ := Option.map_eq_some_iff.mp hs
    exact absent hd
  case inr.inl => exact hne <| P.uuid_injective hu
  case inr.inr => exact absent hd

theorem holds_step {c' : Call} {x' : Stmt}
    (st : StepOf (system P) claimsRespected Store.Initial s t c x) (hne : t' ≠ t)
    (ha : s.AboutTo t' c' x') (h : c'.Holds s.world x') :
    c'.Holds (s.world.exec (system P) t c x) x' := by
  have hx := StepOf.warranted st
  have hx' : x'.Warranted P t' c' s.world := (callOutline.valid.reachable st.reachable).pre ha
  unfold Call.Holds at h ⊢
  split at h
  case h_1 job o D X =>
    obtain ⟨d, hd, hc⟩ := h
    obtain ⟨d', hd'⟩ := Option.isSome_iff_exists.mp <|
      Stmt.exec_isSome (x := x) (Option.isSome_iff_exists.mpr ⟨d, hd⟩)
    refine ⟨d', hd', fun hs' => ?_⟩
    -- The delivery must have been scheduled before.
    have hp := hx.proceeds (D := D)
    simp only [Store.status, hd, hd', Option.map_some, Proceeds] at hp
    have hs : d.status = .scheduled := hp.elim (·.trans hs') fun he => absurd hs' he.ne_scheduled
    refine Stmt.exec_claims (hc hs) fun o hx => ?_
    subst hx
    obtain ⟨a, hst, ht⟩ | ⟨hdis, _⟩ := released st
    case inl =>
      simp only [Store.status, hd, Option.map_some, Option.some.injEq, hs] at hst
      exact absurd (hst ▸ ht) (by decide)
    case inr =>
      exact (st.allowed D o rfl hdis).right (by simp [Store.status, hd, hs]) _ _ _ _ ha
  case h_2 D row booking =>
    intro hn X hX
    have hn' : s.db.deliveries.find? D = none := by
      rw [← Option.not_isSome_iff_eq_none] at hn ⊢
      exact fun hs => hn (Stmt.exec_isSome hs)
    obtain ⟨hf, hc⟩ := h hn' X hX
    obtain ⟨rfl, _⟩ := hx'
    exact ⟨hf, claims_of_absent st hne hn hc⟩
  case h_3 => trivial

end

theorem valid : (fleetOutline P).Valid (system P) claimsRespected Store.Initial where
  rely_refl _ _           := ⟨fun h => h, fun _ _ h => h⟩
  rely_trans h₁ h₂        := ⟨fun h => h₂.1 (h₁.1 h), fun hn _ hc => h₂.2 hn <| h₁.2 (by
    rw [← Option.not_isSome_iff_eq_none] at hn ⊢
    exact fun hs => hn (h₂.1 hs)) hc⟩
  post_stable _ _         := trivial
  inv_init h              := fun hd => by simp [h.deliveries] at hd
  spawn _ _ _             := spawn
  inv_step st hi hp       := hi.exec st hp
  rely_step st _ _ hn     := ⟨fun h => Stmt.exec_isSome h, fun ha _ hc => claims_of_absent st hn ha hc⟩
  pre_step st _ _ hn ha h := holds_step st hn ha h

end fleetOutline

-- If no call that claims an airframe gives back one that is in use, then every delivery that is on its
-- way holds the claim on its airframe. In particular no airframe serves two deliveries, and no airframe
-- that is in use is offered to another delivery.
theorem fleet_exclusive {P : Params} {s : Pool Stmt.sig Store Call}
    (h : Reachable (system P) claimsRespected Store.Initial s) :
    (∀ D d X, s.db.deliveries.find? D = some d → d.Flies X → s.db.fleet.Claims X D) ∧
    (∀ D D' d d' X, s.db.deliveries.find? D = some d → s.db.deliveries.find? D' = some d' →
      d.Flies X → d'.Flies X → D = D') ∧
    (∀ D d X payloadKg now, s.db.deliveries.find? D = some d → d.Flies X →
      ∀ r ∈ (FleetStmt.exec now (.findAvailable payloadKg) s.db.fleet).fst, r.fst ≠ X) := by
  have hb : Bound s.world := (fleetOutline.valid.reachable h).inv
  have claims {D d X} (hd : s.db.deliveries.find? D = some d) (hf : d.Flies X) :
      s.db.fleet.Claims X D := (hb hd hf.active hf.assigned).right
  refine ⟨fun D d X => claims, fun D D' d d' X hd hd' hf hf' => ?_, fun D d X p now hd hf r hr he => ?_⟩
  case refine_1 => exact (claims hd hf).unique (claims hd' hf')
  case refine_2 =>
    obtain ⟨drone, hdr, ha⟩ := claims hd hf
    have hm := (List.mem_insertionSort _).mp <| List.mem_of_mem_take hr
    obtain ⟨hm, hp⟩ := List.mem_filter.mp hm
    obtain ⟨Y, offered⟩ := r
    obtain rfl : Y = X := he
    obtain rfl := Option.some.inj <| hdr.symm.trans <| Table.find?_eq_some_iff.mpr hm
    simp [Drone.Dispatchable, Drone.Claimable, ha] at hp

-- A delivery that is due in two minutes.
def CreateInput.later : CreateInput :=
  { CreateInput.small with
    quote := .ok { route := some ⟨0, 0, 0, 0⟩, total := 700, scheduledFor := some 120000 } }

def KickoffJob.small : KickoffJob where
  deliveryId       := 1
  liveDispatch     := true
  preflightAttempt := 0
  serviceability   := { serviceable := true, weatherHold := false, codes := [] }
  faults           := {}

-- A scheduled delivery is launched with the only airframe.
def launchRun : List (Cmd Call) :=
  List.flatten [Cmd.run 1 (.create .later) 7, Cmd.run 2 (.handleKickoff .small) 5]

-- The runs in which no airframe is handed back.
def unreleased : Policy Stmt.sig Store Call where
  step _ _ _ x := match x with
    | .fleet (.release ..) => False
    | _                    => True

instance {s : Pool Stmt.sig Store Call} {t : Nat} {c : Call} {x : Stmt} :
    Decidable (unreleased.step s t c x) := by
  unfold unreleased; dsimp only; split <;> infer_instance

instance : DecidablePred unreleased.spawn :=
  fun _ => .isTrue trivial

instance : Decidable unreleased.crash :=
  .isTrue trivial

theorem fleet_exclusive_launched :
    ∃ s d, Reachable (system .small) claimsRespected Store.Initial s ∧
      s.db.deliveries.find? 1 = some d ∧ d.Flies 1 ∧ s.db.fleet.Claims 1 1 := by
  let s := (Pool.init .small).runCmds (system .small) launchRun
  have h : Reachable (system .small) claimsRespected Store.Initial s := by
    have h : Reachable (system .small) unreleased Store.Initial s :=
      (Reachable.init Store.small_initial).runCmds (by decide)
    refine h.mono (fun _ _ => trivial) (fun _ _ _ _ h => ?_) id
    rintro _ _ rfl
    exact h.elim
  have hf : (s.db.deliveries.find? 1).any (·.Flies 1) := by decide
  obtain ⟨d, hd, hf⟩ := (Option.any_eq_true _ _).mp hf
  have hf := of_decide_eq_true hf
  exact ⟨s, d, h, hd, hf, (fleet_exclusive h).left 1 d 1 hd hf⟩

-- The kickoff is run twice. The second one finds the airframe of the first one, loses the launch and
-- hands back the airframe.
def doubleKickoffRun : List (Cmd Call) :=
  List.flatten [
    Cmd.run 1 (.create .later) 7, Cmd.run 2 (.handleKickoff .small) 4,
    Cmd.run 3 (.handleKickoff .small) 2, [.exec 2, .exec 3, .exec 3]]

theorem fleet_exclusive_missed :
    ¬∀ (P : Params) (s : Pool Stmt.sig Store Call), Reachable (system P) {} Store.Initial s →
      ∀ D d X, s.db.deliveries.find? D = some d → d.Flies X → s.db.fleet.Claims X D := by
  intro h
  let s := (Pool.init .small).runCmds (system .small) doubleKickoffRun
  have hs : Reachable (system .small) {} Store.Initial s :=
    Reachable.runCmds_of_free doubleKickoffRun <| .init Store.small_initial
  have hf : (s.db.deliveries.find? 1).any (·.Flies 1) := by decide
  obtain ⟨d, hd, hf⟩ := (Option.any_eq_true _ _).mp hf
  obtain ⟨drone, hdr, ha⟩ := h .small s hs 1 d 1 hd <| of_decide_eq_true hf
  have hn : (s.db.fleet.find? 1).all (·.activeDeliveryId = none) := by decide
  simp [hdr, ha] at hn

end Drovery
