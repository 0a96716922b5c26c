import Drovery.Concurrency.Duties
import Drovery.Theorems.Fleet

namespace Drovery

open Concurrency Method Outline Duties
open DeliveriesService DispatchService

-- The delivery `D` exists and has not come to an end.
def Store.Active (db : Store) (D : DeliveryId) : Prop :=
  ∃ d, db.deliveries.find? D = some d ∧ ¬d.status.Terminal

-- The statement makes its thread responsible for the airframe of the delivery `D`: it claims the
-- airframe or brings the delivery to its end.
def Binds (db : Store) (D : DeliveryId) (x : Stmt) : Prop :=
  (∃ X payloadKg n, x = .fleet (.claim X D payloadKg) ∧
    (FleetStmt.execClaim db.fleet X D payloadKg).fst = .ok n ∧ 0 < n) ∨
  (∃ o tr d, x = .delivery (.transition o D tr) ∧ db.deliveries.find? D = some d ∧
    tr.source d.status ∧ tr.target.Terminal)

-- The statement relieves its thread of this responsibility: it hands back the airframe, or gives it to a
-- delivery that is on its way.
def Relieves (db : Store) (D : DeliveryId) (x : Stmt) : Prop :=
  (∃ outcome, x = .fleet (.release D outcome)) ∨
  (∃ o X d, x = .delivery (.transition o D (.launch X)) ∧ db.deliveries.find? D = some d ∧
    d.status = .scheduled) ∨
  (∃ row booking, x = .createDelivery D row booking ∧
    ((Stmt.createDelivery D row booking).exec db).fst = .ok ())

-- The deliveries for whose airframes the threads are responsible.
def airframes : Duties Stmt.sig Store DeliveryId where
  binds    := Binds
  relieves := Relieves

-- Every claim is that of a delivery on its way, or some thread is responsible for it.
def Accounted (w : History) : Prop :=
  ∀ X D, w.db.fleet.Claims X D → w.db.Active D ∨ ∃ t, airframes.Owes D (w.own t)

section

variable {P : Params} {t : Nat} {c : Call} {w : History} {x : Stmt} {db : Store}
variable {X : DroneId} {D : DeliveryId}

theorem binds_of_claims (h : (x.exec db).snd.fleet.Claims X D) (hn : ¬db.fleet.Claims X D) :
    Binds db D x := by
  obtain ⟨y, rfl⟩ | he := x.exec_fleet db
  case inr => exact absurd (he ▸ h) hn
  case inl =>
    have h : Fleet.Claims (y.exec db.clock db.fleet).snd X D := h
    by_cases hy : ∃ p, y = .claim X D p
    case neg => exact absurd (h.of_exec fun p he => hy ⟨p, he⟩) hn
    case pos =>
      obtain ⟨p, rfl⟩ := hy
      obtain ⟨he, _⟩ | ⟨he, _⟩ := Fleet.claim_cases X D p db.fleet
      case inl =>
        have h : Fleet.Claims (FleetStmt.execClaim db.fleet X D p).snd X D := h
        exact absurd (he ▸ h) hn
      case inr => exact .inl ⟨X, p, 1, rfl, by rw [he], Nat.one_pos⟩

-- A delivery ceases to be on its way only by a write for which the writer is responsible.
theorem active_exec (h : db.Active D) : (x.exec db).snd.Active D ∨ Binds db D x := by
  obtain ⟨d, hd, ha⟩ := h
  have hr := x.rowChange db D
  generalize hd' : (x.exec db).snd.deliveries.find? D = d' at hr
  cases hr
  case same           => exact .inl ⟨d, hd'.trans hd, ha⟩
  case created hn _   => simp [hn] at hd
  case guessed e _ he _ =>
    obtain rfl := Option.some.inj <| he.symm.trans hd
    exact .inl ⟨_, hd', ha⟩
  case moved o tr e hx he hs =>
    by_cases ht : tr.target.Terminal
    case pos => exact .inr <| .inr ⟨o, tr, e, hx, he, hs, ht⟩
    case neg => exact .inl ⟨_, hd', tr.apply_status ▸ ht⟩

theorem active_of_relieves (hx : x.Warranted P t c w) (h : Relieves w.db D x)
    (hr : ∀ outcome, x ≠ .fleet (.release D outcome)) : (x.exec w.db).snd.Active D := by
  obtain ⟨outcome, he⟩ | ⟨o, X, d, rfl, hd, hs⟩ | ⟨row, booking, rfl, hok⟩ := h
  case inl => exact absurd he (hr outcome)
  case inr.inl =>
    have hg : (Transition.launch X).source d.status := by simp [Transition.source, hs]
    refine ⟨(Transition.launch X).apply w.db.clock d, ?_, ?_⟩
    case refine_1 => simp [Stmt.exec, DeliveryStmt.exec, Table.find?_cas, hd, hg]
    case refine_2 => rw [Transition.apply_status, Transition.target]; decide
  case inr.inr =>
    obtain ⟨_, _, hnew⟩ := hx
    refine ⟨_, Store.find?_createDelivery hok, ?_⟩
    rw [Store.stamp]
    obtain hs | hs := hnew.status <;> rw [hs] <;> decide

theorem Accounted.exec (h : Accounted w) (hx : x.Warranted P t c w) :
    Accounted (w.exec (system P) t c x) := by
  intro X D hc
  have hc : (x.exec w.db).snd.fleet.Claims X D := hc
  by_cases hb : Binds w.db D x
  case pos => exact .inr ⟨t, owes_exec.mpr <| .inl hb⟩
  case neg =>
    have hn : w.db.fleet.Claims X D := not_not.mp fun hn => hb <| binds_of_claims hc hn
    obtain ha | ⟨t', ho⟩ := h X D hn
    case inl => exact .inl <| (active_exec ha).resolve_right hb
    case inr =>
      by_cases ht : t' = t
      case neg => exact .inr ⟨t', by rwa [World.own_exec_of_ne ht]⟩
      case pos =>
        subst ht
        by_cases hr : Relieves w.db D x
        case neg => exact .inr ⟨t', owes_exec.mpr <| .inr ⟨hr, ho⟩⟩
        case pos =>
          refine .inl <| active_of_relieves hx hr fun outcome he => ?_
          subst he
          exact @Fleet.not_claims_of_release _ _ _ w.db.clock _ hc

end

-- The calls that hand back airframes do so successfully, and a failure to create a delivery is what it
-- claims to be. The kickoff does not fail.
def Call.Reliable : Call → Prop
  | .create inp                     =>
    inp.faults.releaseAirframe = .committed ∧ ∀ n e, inp.faults.delivery n ≠ .lost e
  | .handleKickoff job              =>
    job.faults.launch = .committed ∧ job.faults.releaseAirframe = .committed ∧
      job.faults.cleanup.airframe = .committed
  | .cancel _ _ faults              => faults.airframe = .committed
  | .adminForceCancel _ faults      => faults.airframe = .committed
  | .adminFail _ _ faults           => faults.airframe = .committed
  | .failExceptional _ _ faults     => faults.airframe = .committed
  | .beginReturnToBase _ _ faults   => faults.airframe = .committed
  | .completeReturnToBase _ faults  => faults.airframe = .committed
  | .confirmHandoff _ _ _ faults    => faults.airframe = .committed
  | .ingest _ _ faults              => faults.airframe = .committed
  | .ack _ _ _ _ faults             => faults.airframe = .committed
  | .scanAndReap faults             =>
    (∀ D, (faults.reap D).airframe = .committed) ∧ ∀ C, (faults.drive C).airframe = .committed
  | .reconcileStrandedAcks faults   => ∀ C, (faults C).airframe = .committed
  | _                               => True

def reliable : Policy Stmt.sig Store Call where
  spawn := Call.Reliable
  crash := False

-- A call that has been completed is responsible for no airframe.
def leakOutline : Outline Stmt.sig Store Call where
  inv _       := True
  rely t w w' := w'.own t = w.own t
  post t _ w  := airframes.Clear t w

namespace leakOutline

variable {P : Params} {t : Nat} {c : Call} {w : History} {α : Type} {p : App α} {x : Stmt}
variable {D : DeliveryId} {F : History → Prop} {faults : CleanupFaults}

abbrev Clear (t : Nat) (w : History) : Prop :=
  airframes.Clear t w

abbrev Owing (t : Nat) (D : DeliveryId) (w : History) : Prop :=
  airframes.Owing t D w

abbrev Debt (t : Nat) (F : History → Prop) : Prop :=
  airframes.Debt t F

-- The statements that never make their thread responsible for an airframe.
def Unbound : Stmt → Prop
  | .fleet (.claim ..)                 => False
  | .delivery (.transition _ _ tr)     => ¬tr.target.Terminal
  | _                                  => True

theorem not_binds (h : Unbound x) {db : Store} (D : DeliveryId) : ¬airframes.binds db D x := by
  rintro (⟨X, p, n, rfl, _⟩ | ⟨o, tr, d, rfl, _, _, ht⟩)
  case inl => exact h
  case inr => exact h ht

theorem unbound_of_plain (h : x.Plain) : Unbound x := by
  unfold Unbound
  split
  case h_1 => exact h
  case h_2 => exact h.elim
  case h_3 => trivial

theorem unbound_of_aftermath {a : DeliveryStatus} (h : Aftermath D a x) : Unbound x := by
  unfold Unbound
  split
  case h_1 => exact h.elim id id
  case h_2 => exact (h.elim id id).elim
  case h_3 => trivial

theorem unbound_of_books (h : x.Books D) : Unbound x := by
  unfold Unbound
  split
  case h_1 => exact h
  case h_2 => exact h.elim
  case h_3 => trivial

theorem unbound_exec (hF : Debt t F) (hx : Unbound x) (h : F w) : F (w.exec (system P) t c x) :=
  hF.exec (not_binds hx) h

theorem single_wpm (hF : Debt t F) (hp : Built (Single Unbound) p) (h : F w) :
    leakOutline.wpm (system P) t c p (fun _ => F) (fun _ => F) w := by
  refine wpm_built hp (fun hb h => ?_) h
  obtain ⟨hx⟩ := hb
  exact wpm_tx_of trivial fun _ hr _ _ => unbound_exec hF hx <| hF.of_own hr h

-- Once the airframe has been handed back, the thread is no longer responsible for it.
theorem release_wpm {outcome : ReleaseOutcome} {fault : Fault} {E : AppError → History → Prop}
    (hf : fault = .committed) (h : Owing t D w) :
    leakOutline.wpm (system P) t c (release D outcome fault) (fun _ => Clear t) E w := by
  subst hf
  rw [release, wpm_safe]
  refine wpm_stmt.mpr ⟨trivial, fun w' hr _ _ => ?_⟩
  have h : Owing t D w' := debt_owing.of_own hr h
  exact h.relieved (not_binds (x := .fleet <| .release D outcome) trivial) (.inl ⟨outcome, rfl⟩)

-- The write that ends a delivery makes the thread responsible for its airframe, if it gets through.
theorem transition_wpm {o : Option CommandId} {tr : Transition} {E : AppError → History → Prop}
    (h : Clear t w) :
    leakOutline.wpm (system P) t c (App.stmt <| .delivery <| .transition o D tr)
      (fun count w => (count = 0 → Clear t w) ∧ Owing t D w) E w := by
  refine wpm_stmt.mpr ⟨trivial, fun w' hr _ _ => ⟨fun hn E ho => ?_, fun E ho => ?_⟩⟩
  all_goals
    have hc : Clear t w' := debt_clear.of_own hr h
    have hb := hc.binds ho
    obtain ⟨X, p, n, he, _⟩ | ⟨o', tr', d, he, hd, hs, _⟩ := hb
    case inl => simp at he
  case refine_1 =>
    simp only [Stmt.delivery.injEq, DeliveryStmt.transition.injEq] at he
    obtain ⟨rfl, rfl, rfl⟩ := he
    exact callOutline.transition_count.mp hn ⟨d, hd, hs⟩
  case refine_2 =>
    simp only [Stmt.delivery.injEq, DeliveryStmt.transition.injEq] at he
    exact he.2.1.symm

section Termination

theorem cleanup_wpm {refundCredits : Bool} {outcome : ReleaseOutcome}
    (hf : faults.airframe = .committed) (h : Owing t D w) :
    leakOutline.wpm (system P) t c
      (cleanupAfterTermination D refundCredits (.released outcome) faults) (fun _ => Clear t)
      (fun _ => Clear t) w := by
  rw [cleanupAfterTermination, handBack, wpm_bind]
  refine wpm_mono (release_wpm (E := fun _ => Clear t) hf h) (fun _ w h => ?_) (fun _ _ h => h)
  refine single_wpm debt_clear (.bind (.safe <| .attempt <| Single.stmt trivial) fun _ => ?_) h
  split
  case isFalse => exact .pure
  case isTrue  =>
    exact Single.mono (@refundLegs_single _ .canceled _ <| .inl <| by decide)
      fun _ => unbound_of_aftermath

theorem finishFailure_wpm {reason : DeliveryFailureReason} {airborne : Bool}
    (hf : faults.airframe = .committed) (h : Owing t D w) :
    leakOutline.wpm (system P) t c (finishFailure D reason airborne faults) (fun _ => Clear t)
      (fun _ => Clear t) w := by
  rw [finishFailure, wpm_bind]
  refine wpm_mono (cleanup_wpm hf h) (fun _ w h => ?_) (fun _ _ h => h)
  exact single_wpm debt_clear (Single.mono announceException_single fun _ => unbound_of_aftermath) h

theorem failFrom_wpm {o : Option CommandId} {allowed : List DeliveryStatus}
    {reason : DeliveryFailureReason} (h : Clear t w) :
    leakOutline.wpm (system P) t c (failFrom o D allowed reason)
      (fun count w => (count = 0 → Clear t w) ∧ Owing t D w) (fun _ => Clear t) w := by
  unfold failFrom
  split
  case isTrue  => exact ⟨fun _ => h, h.owing⟩
  case isFalse => exact transition_wpm h

theorem failExceptional_wpm {o : Option CommandId} {allowed : List DeliveryStatus}
    {reason : DeliveryFailureReason} (hf : faults.airframe = .committed) (h : Clear t w) :
    leakOutline.wpm (system P) t c (failExceptional o D reason allowed faults) (fun _ => Clear t)
      (fun _ => Clear t) w := by
  have done {w : History} {airborne : Bool} (h : Owing t D w) :
      leakOutline.wpm (system P) t c
        (do finishFailure D reason airborne faults; pure true : App Bool) (fun _ => Clear t)
        (fun _ => Clear t) w := by
    rw [wpm_bind]
    exact finishFailure_wpm hf h
  rw [failExceptional, wpm_bind]
  refine wpm_mono (failFrom_wpm h) (fun matched w h => ?_) (fun _ _ h => h)
  split
  case isTrue => exact done h.2
  case isFalse hn =>
    rw [wpm_bind]
    refine wpm_mono (failFrom_wpm <| h.1 <| Nat.eq_zero_of_not_pos hn) (fun matched w h => ?_)
      (fun _ _ h => h)
    split
    case isTrue     => exact done h.2
    case isFalse hn => exact h.1 <| Nat.eq_zero_of_not_pos hn

theorem beginReturnToBase_unbound {o : Option CommandId} {reason : DeliveryFailureReason} :
    Built (Single Unbound) (beginReturnToBase o D reason faults) :=
  beginReturnToBase_single (fun _ => unbound_of_aftermath) (by decide : ¬DeliveryStatus.returning.Terminal)

theorem completeReturnToBase_wpm (hf : faults.airframe = .committed) (h : Clear t w) :
    leakOutline.wpm (system P) t c (completeReturnToBase D faults) (fun _ => Clear t)
      (fun _ => Clear t) w := by
  rw [completeReturnToBase, wpm_bind]
  refine wpm_mono (transition_wpm (E := fun _ => Clear t) h) (fun count w h => ?_) (fun _ _ h => h)
  split
  case isTrue hn => exact h.1 hn
  case isFalse =>
    rw [wpm_bind]
    refine wpm_mono (release_wpm (E := fun _ => Clear t) hf h.2) (fun _ w h => ?_) (fun _ _ h => h)
    refine single_wpm debt_clear (.bind ?_ fun _ => .pure) h
    exact Single.mono announceException_single fun _ => unbound_of_aftermath

theorem cancel_wpm {U : UserId} (hf : faults.airframe = .committed) (h : Clear t w) :
    leakOutline.wpm (system P) t c (cancel U D faults) (fun _ => Clear t) (fun _ => Clear t) w := by
  rw [cancel, wpm_bind]
  refine wpm_stmt.mpr ⟨trivial, fun w' hr _ _ => ?_⟩
  have h := unbound_exec debt_clear (P := P) (c := c) (x := .delivery <| .find D) trivial <|
    debt_clear.of_own hr h
  split
  case h_1 => exact h
  case h_2 =>
    split
    case isTrue => exact h
    case isFalse =>
      split
      case isTrue => exact h
      case isFalse =>
        rw [wpm_bind]
        refine wpm_mono (transition_wpm (E := fun _ => Clear t) h) (fun count w h => ?_)
          (fun _ _ h => h)
        split
        case isTrue hn => exact h.1 hn
        case isFalse   => exact cleanup_wpm hf h.2

theorem adminForceCancel_wpm (hf : faults.airframe = .committed) (h : Clear t w) :
    leakOutline.wpm (system P) t c (adminForceCancel D faults) (fun _ => Clear t)
      (fun _ => Clear t) w := by
  rw [adminForceCancel, wpm_bind]
  refine wpm_mono (transition_wpm (E := fun _ => Clear t) h) (fun count w h => ?_) (fun _ _ h => h)
  split
  case isTrue => exact cleanup_wpm hf h.2
  case isFalse hn =>
    rw [wpm_bind]
    refine wpm_mono (transition_wpm (E := fun _ => Clear t) <| h.1 <| Nat.eq_zero_of_not_pos hn)
      (fun count w h => ?_) (fun _ _ h => h)
    split
    case isTrue => exact cleanup_wpm hf h.2
    case isFalse hn =>
      refine single_wpm debt_clear (.bind (Single.stmt trivial) fun d => ?_) <|
        h.1 <| Nat.eq_zero_of_not_pos hn
      cases d <;> exact .throw

end Termination

section Blocks

theorem ingestHappy_unbound {delivery : Delivery} {msg : TelemetryMessage} {positionValid : Bool}
    {phase : Option HappyPhase} :
    Built (Single Unbound) (TelemetryService.ingestHappy delivery msg positionValid phase) := by
  have publish {s : Option DeliveryStatus} : Built (Single Unbound) (do
      let positioned ← TelemetryService.writePosition delivery msg positionValid s
      if s.isNone ∧ !positioned then
        pure ()
      else
        App.stmt <| .effect <| .publishUpdate msg.deliveryId s) := by
    refine .bind (Single.mono writePosition_single fun _ => unbound_of_plain) fun positioned => ?_
    split
    case isTrue  => exact .pure
    case isFalse => exact Single.stmt trivial
  unfold TelemetryService.ingestHappy
  cases phase
  case none => exact publish
  case some phase =>
    have ht : ¬(phaseToStatus phase).Terminal := by cases phase <;> decide
    exact .bind (.bind (Single.stmt ht) fun _ => .pure) fun _ => publish

theorem handleStage_unbound {stageIndex : Nat} :
    Built (Single Unbound) (SimulationProcessor.handleStage D stageIndex) := by
  unfold SimulationProcessor.handleStage
  split
  case h_1 => exact .pure
  case h_2 stage hs =>
    have ht : ¬stage.Terminal := by
      have hm := List.mem_of_getElem? hs
      revert hm
      cases stage <;> decide
    refine .bind (Single.stmt trivial) fun delivery => ?_
    cases delivery
    case none => exact .pure
    case some =>
      refine .bind (Single.stmt ht) fun count => ?_
      split
      case isTrue  => exact .pure
      case isFalse =>
        exact .bind (.safe <| Single.stmt trivial) fun _ => .bind (.safe <| Single.stmt trivial) fun _ =>
          Single.stmt trivial

-- The cleanups hand back the airframe.
abbrev HandsBack (_ : Option CommandId) (faults : CleanupFaults) : Prop :=
  faults.airframe = .committed

theorem blocks_wpm {K : Stmt → Prop} (hp : Built (Block K HandsBack) p) (hK : ∀ x, K x → Unbound x)
    (h : Clear t w) :
    leakOutline.wpm (system P) t c p (fun _ => Clear t) (fun _ => Clear t) w := by
  refine wpm_built hp (fun hb h => ?_) h
  cases hb
  case tx hx _ =>
    exact single_wpm debt_clear (.block <| .tx <| hx.elim unbound_of_plain (hK _)) h
  case fail hf _         => exact failExceptional_wpm hf h
  case beginReturn       => exact single_wpm debt_clear beginReturnToBase_unbound h
  case completeReturn hf => exact completeReturnToBase_wpm hf h
  case cancel hf         => exact cancel_wpm hf h
  case forceCancel hf    => exact adminForceCancel_wpm hf h
  case happy             => exact single_wpm debt_clear ingestHappy_unbound h
  case issue =>
    refine single_wpm debt_clear (Single.mono issue_single fun x hx => ?_) h
    obtain hx | ⟨_, rfl⟩ := hx
    case inl => exact unbound_of_plain hx
    case inr => trivial

theorem completeHandoff_wpm {code : String} (hf : faults.airframe = .committed) (h : Clear t w) :
    leakOutline.wpm (system P) t c (completeHandoff D code faults) (fun _ => Clear t)
      (fun _ => Clear t) w := by
  rw [completeHandoff, wpm_bind]
  refine wpm_mono (transition_wpm (E := fun _ => Clear t) h) (fun count w h => ?_) (fun _ _ h => h)
  split
  case isTrue hn => exact h.1 hn
  case isFalse =>
    rw [wpm_bind]
    refine wpm_mono (release_wpm (E := fun _ => Clear t) hf h.2) (fun _ w h => ?_) (fun _ _ h => h)
    exact single_wpm debt_clear (.safe <| Single.stmt trivial) h

theorem confirmHandoff_wpm {U : UserId} {code : String} (hf : faults.airframe = .committed)
    (h : Clear t w) :
    leakOutline.wpm (system P) t c (confirmHandoff P U D code faults) (fun _ => Clear t)
      (fun _ => Clear t) w := by
  have hp : Built (HandoffBlock D code HandsBack) (confirmHandoff P U D code faults) :=
    confirmHandoff_blocks hf
  refine wpm_built hp (fun hb h => ?_) h
  cases hb
  case block hb    => exact blocks_wpm (.block hb) (fun _ he => he ▸ trivial) h
  case complete hf => exact completeHandoff_wpm hf h

end Blocks

section Dispatch

variable {payloadKg : ℚ}

-- The thread is responsible for the airframe of `D` only if there is one.
def Holding (t : Nat) (D : DeliveryId) (X : Option DroneId) (w : History) : Prop :=
  Owing t D w ∧ (X = none → Clear t w)

theorem debt_holding {X : Option DroneId} : Debt t (Holding t D X) :=
  fun h hw => ⟨debt_owing h hw.1, fun hX => debt_clear h (hw.2 hX)⟩

theorem claimFirst_wpm {Xs : List DroneId} (h : Clear t w) :
    leakOutline.wpm (system P) t c (claimFirst D payloadKg Xs) (fun X => Holding t D X)
      (fun _ => Clear t) w := by
  induction Xs generalizing w
  case nil => exact ⟨h.owing, fun _ => h⟩
  case cons X Xs ih =>
    rw [claimFirst, wpm_bind]
    refine wpm_tx.mpr ⟨trivial, fun w' hr _ _ => ?_⟩
    let x : Stmt := .fleet <| .claim X D payloadKg
    have hc : Clear t w' := debt_clear.of_own hr h
    have hb {E : DeliveryId} (ho : airframes.Owes E ((w'.exec (system P) t c x).own t)) : Binds w'.db E x :=
      hc.binds ho
    have failed (hn : ∀ n, (x.exec w'.db).fst = .ok n → n = 0) :
        Clear t (w'.exec (system P) t c x) := by
      intro E ho
      obtain ⟨Y, p, n, he, hok, hpos⟩ | ⟨_, _, _, he, _⟩ := hb ho
      case inr => simp [x] at he
      case inl =>
        simp only [x, Stmt.fleet.injEq, FleetStmt.claim.injEq] at he
        obtain ⟨rfl, rfl, rfl⟩ := he
        exact absurd (hn n hok) hpos.ne'
    split
    case h_2 e he => exact failed fun n hn => absurd (he.symm.trans hn) (by simp)
    case h_1 count hok =>
      split
      case isTrue =>
        refine ⟨fun E ho => ?_, fun hX => absurd hX (by simp)⟩
        obtain ⟨Y, p, n, he, _⟩ | ⟨_, _, _, he, _⟩ := hb ho
        case inr => simp [x] at he
        case inl =>
          simp only [x, Stmt.fleet.injEq, FleetStmt.claim.injEq] at he
          exact he.2.1.symm
      case isFalse hpos =>
        refine ih <| failed fun n hn => ?_
        obtain rfl := Except.ok.inj <| hok.symm.trans hn
        exact Nat.eq_zero_of_not_pos hpos

theorem selectAndClaim_wpm {route : MissionRoute} (h : Clear t w) :
    leakOutline.wpm (system P) t c (selectAndClaim P D route payloadKg) (fun _ => Owing t D)
      (fun _ => Clear t) w := by
  rw [selectAndClaim, wpm_bind]
  refine wpm_mono (single_wpm debt_clear (Single.stmt trivial) h) (fun held w h => ?_) (fun _ _ h => h)
  cases held
  case some X => exact h.owing
  case none =>
    dsimp only
    rw [wpm_bind]
    refine wpm_mono (single_wpm debt_clear (Single.stmt trivial) h) (fun available w h => ?_)
      (fun _ _ h => h)
    rw [wpm_bind]
    refine wpm_mono (claimFirst_wpm h) (fun claimed w h => ?_) (fun _ _ h => h)
    cases claimed
    case some X => exact h.1
    case none   =>
      dsimp only
      rw [wpm_bind]
      refine wpm_mono (single_wpm debt_clear (Single.mono saturationError_single
        fun _ h => unbound_of_plain h.plain) <| h.2 rfl) (fun _ _ h => h) (fun _ _ h => h)

theorem dispatch_wpm {live : Bool} {route : Option MissionRoute} {isScheduled : Bool}
    (h : Clear t w) :
    leakOutline.wpm (system P) t c (dispatch P live D payloadKg route isScheduled)
      (fun dec => Holding t D dec.droneId) (fun _ => Clear t) w := by
  unfold dispatch
  split
  case isTrue => exact ⟨h.owing, fun _ => h⟩
  case isFalse =>
    rw [wpm_bind]
    cases route
    case none => exact h
    case some route =>
      rw [requireRoute, wpm_pure, wpm_bind]
      refine wpm_mono (selectAndClaim_wpm h) (fun X w h => ?_) (fun _ _ h => h)
      exact ⟨h, fun hX => absurd hX (by simp)⟩

end Dispatch

section Kickoff

variable {job : KickoffJob}

open SimulationProcessor

theorem abortScheduled_wpm {reason : DeliveryFailureReason}
    (hf : job.faults.cleanup.airframe = .committed) (h : Clear t w) :
    leakOutline.wpm (system P) t c (abortScheduled job reason) (fun _ => Clear t) (fun _ => Clear t)
      w := by
  rw [abortScheduled, wpm_bind]
  exact failExceptional_wpm hf h

theorem giveBack_wpm {X : Option DroneId} (hf : job.faults.releaseAirframe = .committed)
    (h : Holding t job.deliveryId X w) :
    leakOutline.wpm (system P) t c (giveBack job X) (fun _ => Clear t) (fun _ => Clear t) w := by
  cases X
  case none => exact h.2 rfl
  case some => exact release_wpm hf h.1

theorem simulate_wpm {X : Option DroneId} (h : Holding t job.deliveryId X w) :
    leakOutline.wpm (system P) t c (simulate job X) (fun _ => Holding t job.deliveryId X)
      (fun _ => Clear t) w := by
  cases X
  case some => exact h
  case none =>
    exact wpm_mono (single_wpm debt_holding (Single.stmt trivial) h) (fun _ _ h => h)
      fun _ _ h => h.2 rfl

-- A launch that gets through gives the airframe to the delivery.
theorem launched {o : Option CommandId} {X : Option DroneId} (h : Holding t D X w)
    (hn : ((Stmt.delivery <| .transition o D <| .launch X).exec w.db).fst ≠ 0) :
    Clear t (w.exec (system P) t c <| .delivery <| .transition o D <| .launch X) := by
  have hx : Unbound (.delivery <| .transition o D <| .launch X) :=
    (by decide : ¬DeliveryStatus.pending.Terminal)
  intro E ho
  have ⟨hnot, ho⟩ := (owes_exec.mp ho).resolve_left <| not_binds hx E
  obtain rfl := h.1 E ho
  rw [ne_eq, callOutline.transition_count, not_not] at hn
  have ⟨d, hd, hg⟩ := hn
  exact hnot <| .inr <| .inl ⟨o, X, d, rfl, hd, by simpa [Transition.source] using hg⟩

theorem launch_wpm {X : Option DroneId} (hl : job.faults.launch = .committed)
    (hf : job.faults.releaseAirframe = .committed) (h : Holding t job.deliveryId X w) :
    leakOutline.wpm (system P) t c (launch job X) (fun _ => Clear t) (fun _ => Clear t) w := by
  rw [launch, wpm_bind]
  refine wpm_mono (simulate_wpm h) (fun _ w h => ?_) (fun _ _ h => h)
  rw [wpm_bind, wpm_handle, hl]
  refine wpm_stmt.mpr ⟨trivial, fun w' hr _ _ => ?_⟩
  have h := debt_holding.of_own hr h
  have hx : ¬DeliveryStatus.pending.Terminal := by decide
  split
  case isTrue     => exact giveBack_wpm hf <| unbound_exec debt_holding hx h
  case isFalse hn => exact launched h hn

theorem dispatchKickoff_wpm {delivery : Delivery} (hf : job.faults.cleanup.airframe = .committed)
    (h : Clear t w) :
    leakOutline.wpm (system P) t c (dispatchKickoff P job delivery)
      (fun r => Holding t job.deliveryId (r.bind (·.droneId))) (fun _ => Clear t) w := by
  rw [dispatchKickoff, wpm_handle, wpm_bind]
  refine wpm_mono (dispatch_wpm h) (fun dec w h => h) (fun e w h => ?_)
  rw [wpm_bind]
  refine wpm_mono (Q := fun _ => Clear t) (E := fun _ => Clear t) ?_ (fun _ w h => ?_) (fun _ _ h => h)
  case refine_2 => exact ⟨h.owing, fun _ => h⟩
  case refine_1 =>
    unfold handleDispatchRefusal
    split
    case isTrue  => exact single_wpm debt_clear (Single.stmt trivial) h
    case isFalse => exact abortScheduled_wpm hf h

theorem handleKickoff_wpm (hl : job.faults.launch = .committed)
    (hr : job.faults.releaseAirframe = .committed) (hf : job.faults.cleanup.airframe = .committed)
    (h : Clear t w) :
    leakOutline.wpm (system P) t c (handleKickoff P job) (fun _ => Clear t) (fun _ => Clear t)
      w := by
  have hp {route : Option MissionRoute} : Built (Block (fun _ => False) HandsBack)
    (preflight job route) := preflight_blocks hf
  rw [handleKickoff, wpm_bind]
  refine wpm_mono (single_wpm debt_clear (Single.stmt trivial) h) (fun delivery w h => ?_)
    (fun _ _ h => h)
  cases delivery
  case none => exact h
  case some delivery =>
    dsimp only
    unfold kickoff
    split
    case isTrue => exact h
    case isFalse =>
      rw [wpm_bind]
      refine wpm_mono (blocks_wpm hp (fun _ => False.elim) h) (fun cleared w h => ?_) (fun _ _ h => h)
      split
      case isFalse => exact h
      case isTrue =>
        rw [wpm_bind]
        refine wpm_mono (dispatchKickoff_wpm hf h) (fun dispatched w h => ?_) (fun _ _ h => h)
        cases dispatched
        case none     => exact h.2 rfl
        case some dec => exact launch_wpm hl hr h

end Kickoff

section Create

variable {inp : CreateInput} {order : Order} {dec : DispatchDecision}

theorem createBlock_wpm {K : Stmt → Prop} (hF : Debt t F) (hK : ∀ x, K x → Unbound x)
    (hp : Built (CreateBlock D K) p) (h : F w) :
    leakOutline.wpm (system P) t c p (fun _ => F) (fun _ => F) w := by
  refine single_wpm hF (hp.refine fun hb => ?_) h
  cases hb
  case tx hx _ =>
    obtain hx | hx | hx := hx
    case inl     => exact .block <| .tx <| unbound_of_plain hx
    case inr.inl => exact .block <| .tx <| unbound_of_books hx
    case inr.inr => exact .block <| .tx <| hK _ hx
  case releasePromo =>
    exact Single.mono (releaseForDelivery_single (K := Unbound) fun _ => trivial)
      fun _ h => h.elim unbound_of_plain id
  case refundCredits =>
    exact Single.mono (refundForDelivery_single (K := Unbound) fun _ _ => trivial)
      fun _ h => h.elim unbound_of_plain id

theorem abandon_wpm (hf : inp.faults.releaseAirframe = .committed)
    (h : Holding t D dec.droneId w) :
    leakOutline.wpm (system P) t c (abandon P D inp dec) (fun _ => Clear t) (fun _ => Clear t)
      w := by
  have total : (undoReservations P D inp).Total := by
    unfold undoReservations
    split
    case isTrue  => exact .bind .safe fun _ => .safe
    case isFalse => exact .pure
  rw [abandon, wpm_bind]
  refine wpm_mono (wpm_of_total total <| createBlock_wpm (K := fun _ => False) (D := D)
    (F := Holding t D dec.droneId) debt_holding (fun _ => False.elim) undoReservations_blocks h)
    (fun _ w h => ?_) (fun _ _ h => h)
  unfold releaseClaimedAircraft
  split
  case h_1 hX => exact h.2 hX
  case h_2    => exact release_wpm hf h.1

theorem reserve_wpm (hf : inp.faults.releaseAirframe = .committed)
    (h : Holding t D dec.droneId w) :
    leakOutline.wpm (system P) t c (reserve P D inp order dec) (fun _ => Holding t D dec.droneId)
      (fun _ => Clear t) w := by
  have books : Built (CreateBlock D fun _ => False)
      (do redeemPromo D inp order; debitCredits D inp order : App Unit) :=
    .bind redeemPromo_blocks fun _ => debitCredits_blocks
  unfold reserve
  split
  case isFalse => exact h
  case isTrue =>
    rw [wpm_handle]
    refine wpm_mono (createBlock_wpm debt_holding (fun _ => False.elim) books h) (fun _ _ h => h)
      (fun e w h => ?_)
    rw [wpm_bind]
    exact abandon_wpm hf h

-- A creation that gets through gives the airframe to the delivery.
theorem created {X : Option DroneId} {row : Delivery} {booking : Booking} (h : Holding t D X w)
    (hok : ((Stmt.createDelivery D row booking).exec w.db).fst = .ok ()) :
    Clear t (w.exec (system P) t c <| .createDelivery D row booking) := by
  intro E ho
  have ⟨hnot, ho⟩ := (owes_exec.mp ho).resolve_left <| not_binds (x := .createDelivery ..) trivial E
  obtain rfl := h.1 E ho
  exact hnot <| .inr <| .inr ⟨_, _, rfl, hok⟩

theorem placeWithRetries_wpm {tries attempt : Nat} (hf : inp.faults.releaseAirframe = .committed)
    (hd : ∀ n e, inp.faults.delivery n ≠ .lost e) (h : Holding t D dec.droneId w) :
    leakOutline.wpm (system P) t c (placeWithRetries P D inp order dec tries attempt)
      (fun _ => Clear t) (fun _ => Clear t) w := by
  refine wpm_placeWithRetries (fun {attempt w} h => ?_) (fun h => abandon_wpm hf h) h
  refine wpm_attempt.mpr ⟨fun _ => ?_, fun _ _ => h, fun e he => absurd he (hd attempt e)⟩
  refine wpm_tx.mpr ⟨trivial, fun w' hr _ _ => ?_⟩
  have h := debt_holding.of_own hr h
  split
  case h_1 hok => exact created h hok
  case h_2     => exact unbound_exec debt_holding (x := .createDelivery ..) trivial h

theorem create_wpm (hf : inp.faults.releaseAirframe = .committed)
    (hd : ∀ n e, inp.faults.delivery n ≠ .lost e) (h : Clear t w) :
    leakOutline.wpm (system P) t c (create P D inp) (fun _ => Clear t) (fun _ => Clear t) w := by
  rw [create, wpm_bind]
  refine wpm_mono (single_wpm debt_clear (Single.mono prepare_single fun _ => unbound_of_plain) h)
    (fun order w h => ?_) (fun _ _ h => h)
  rw [wpm_bind]
  refine wpm_mono (dispatch_wpm h) (fun dec w h => ?_) (fun _ _ h => h)
  rw [wpm_bind]
  refine wpm_mono (reserve_wpm hf h) (fun _ w h => ?_) (fun _ _ h => h)
  rw [wpm_bind]
  refine wpm_mono (placeWithRetries_wpm hf hd h) (fun _ w h => ?_) (fun _ _ h => h)
  rw [wpm_bind]
  refine wpm_mono (createBlock_wpm (K := fun _ => False) debt_clear (fun _ => False.elim)
    charge_blocks h) (fun _ w h => ?_) (fun _ _ h => h)
  refine single_wpm debt_clear (Single.mono enqueue_single fun x hx => ?_) h
  obtain hx | rfl := hx
  case inl => exact unbound_of_plain hx
  case inr => trivial

end Create

theorem refund_unbound {amount : Option Cents} {fault : Fault} :
    Built (Single Unbound) (AdminService.refund D amount fault) := by
  refine .bind (Single.stmt trivial) fun delivery => ?_
  cases delivery
  case none => exact .throw
  case some =>
    dsimp only
    split
    case isTrue  => exact .throw
    case isFalse =>
      refine .handle (.attempt <| .block <| .tx trivial) fun e => ?_
      split <;> exact .throw

theorem handleWebhookEvent_unbound {event : StripeEvent} {fault : Fault} :
    Built (Single Unbound) (PaymentsService.handleWebhookEvent event fault) := by
  unfold PaymentsService.handleWebhookEvent
  split
  case h_1 => exact .pure
  case h_2 =>
    refine .handle (.bind (.attempt <| .block <| .tx trivial) fun _ => .pure) fun e => ?_
    split
    case isTrue  => exact .pure
    case isFalse => exact .throw

-- No call is left with an airframe for which it is responsible.
theorem spawn (hc : c.Reliable) (h : Clear t w) :
    leakOutline.wp (system P) t c ((system P).prog t c) (fun _ => Clear t) w := by
  have single {α : Type} {p : App α} (hp : Built (Single Stmt.Plain) p) :
      leakOutline.wpm (system P) t c p (fun _ => Clear t) (fun _ => Clear t) w :=
    single_wpm debt_clear (Single.mono hp fun _ => unbound_of_plain) h
  have blocks {α : Type} {p : App α} (hp : Built (Block (fun _ => False) HandsBack) p) :
      leakOutline.wpm (system P) t c p (fun _ => Clear t) (fun _ => Clear t) w :=
    blocks_wpm hp (fun _ => False.elim) h
  have patches {α : Type} {p : App α} {K : Stmt → Prop} (hp : Built (Block K HandsBack) p)
      (hK : ∀ x, K x → ∃ C, x.Patch C) :
      leakOutline.wpm (system P) t c p (fun _ => Clear t) (fun _ => Clear t) w := by
    refine blocks_wpm hp (fun x hx => ?_) h
    obtain ⟨C, hx⟩ := hK x hx
    cases x
    case command => trivial
    all_goals exact hx.elim
  have undo {α : Type} {p : App α} (hp : Built (Single fun x => x.Plain ∨ Unbound x) p) :
      leakOutline.wpm (system P) t c p (fun _ => Clear t) (fun _ => Clear t) w :=
    single_wpm debt_clear (Single.mono hp fun _ h => h.elim unbound_of_plain id) h
  have one {x : Stmt} {f : x.Res → Except AppError Unit} {fault : Fault} (hx : Unbound x) :
      leakOutline.wpm (system P) t c ((App.tx x f).attempt fault) (fun _ => Clear t)
        (fun _ => Clear t) w :=
    single_wpm debt_clear (.attempt <| .block <| .tx hx) h
  cases c <;> refine wp_toCall.mpr ?_
  case create                => exact create_wpm hc.1 hc.2 h
  case cancel                => exact cancel_wpm hc h
  case adminForceCancel      => exact adminForceCancel_wpm hc h
  case adminFail             => exact blocks <| adminFail_blocks hc
  case failExceptional       => exact failExceptional_wpm hc h
  case beginReturnToBase     => exact single_wpm debt_clear beginReturnToBase_unbound h
  case completeReturnToBase  => exact completeReturnToBase_wpm hc h
  case confirmHandoff        => exact confirmHandoff_wpm hc h
  case handleKickoff         => exact handleKickoff_wpm hc.1 hc.2.1 hc.2.2 h
  case handleStage           => exact single_wpm debt_clear handleStage_unbound h
  case handlePosition        => exact single handlePosition_single
  case ingest                => exact blocks <| ingest_blocks hc
  case issue                 => exact blocks <| .block .issue
  case fetchPending          => exact single fetchPending_single
  case ack                   => exact patches (ack_blocks hc) fun _ hx => ⟨_, hx⟩
  case scanAndReap           => exact patches (scanAndReap_blocks hc.1 hc.2) fun _ hx => hx
  case expireStaleCommands   => exact single expireStaleCommands_single
  case reconcileStrandedAcks => exact patches (reconcileStrandedAcks_blocks hc) fun _ hx => hx
  case refundForDelivery     => exact undo <| refundForDelivery_single fun _ _ => trivial
  case refundChargeToWallet  => exact undo <| refundChargeToWallet_single fun _ _ => trivial
  case adminRefund           => exact single_wpm debt_clear refund_unbound h
  case handleWebhookEvent    => exact single_wpm debt_clear handleWebhookEvent_unbound h
  case releaseForDelivery    => exact undo <| releaseForDelivery_single fun _ => trivial
  case updatePromo           => exact single updatePromo_single
  case updateDrone           => exact single updateDrone_single
  case credit                => exact one trivial
  case debit                 => exact one trivial
  case grantReferralReward   => exact one trivial
  case redeem                => exact one trivial
  case passTime              => exact single <| Single.stmt trivial

theorem valid : leakOutline.Valid (system P) reliable Store.Initial where
  rely_refl _ _          := rfl
  rely_trans h₁ h₂       := h₂.trans h₁
  post_stable hr h       := debt_clear.of_own hr h
  inv_init _             := trivial
  spawn hs _ hw          := spawn hs <| clear_of_own <| World.own_eq_nil hw
  inv_step _ _ _         := trivial
  rely_step _ _ _ hn     := World.own_exec_of_ne hn
  pre_step _ _ _ _ _ _   := trivial

end leakOutline

-- When no call is in flight, every airframe that is claimed serves a delivery that is on its way.
theorem no_leaked_aircraft {P : Params} {s : Pool Stmt.sig Store Call}
    (h : Reachable (system P) reliable Store.Initial s) (hq : s.Quiescent) {X : DroneId}
    {D : DeliveryId} (hc : s.db.fleet.Claims X D) :
    ∃ d, s.db.deliveries.find? D = some d ∧ ¬d.status.Terminal := by
  have hi : Accounted s.world := h.invariant (fun hi X D hc => absurd hc (hi.unclaimed X D))
    fun st hi => hi.exec (StepOf.warranted st)
  obtain ha | ⟨t, ho⟩ := hi X D hc
  case inl => exact ha
  case inr =>
    exact absurd ho <| not_owes_of_quiescent h id hq (leakOutline.valid.reachable h).post

-- A scheduled delivery that is canceled, and one that is dispatched.
def dispatchRun : List (Cmd Call) :=
  List.flatten [
    Cmd.run 1 (.create .later) 7, Cmd.run 2 (.create .small) 12, Cmd.run 3 (.cancel 1 1 {}) 12]

theorem no_leaked_aircraft_dispatched :
    ∃ s, Reachable (system .small) reliable Store.Initial s ∧ s.Quiescent ∧
      s.db.fleet.Claims 1 2 ∧ ∃ d, s.db.deliveries.find? 2 = some d ∧ ¬d.status.Terminal := by
  let s := (Pool.init .small).runCmds (system .small) dispatchRun
  have h : Reachable (system .small) reliable Store.Initial s :=
    Reachable.runCmds_of_calls dispatchRun (.init Store.small_initial) (by
      simp [dispatchRun, Cmd.run, Cmd.Calls, Call.Reliable, CreateInput.later, CreateInput.small])
  have hq : s.Quiescent := Pool.idle_runCmds (by decide)
  have hc : s.db.fleet.Claims 1 2 := by
    have hc : (s.db.fleet.find? 1).any (·.activeDeliveryId = some 2) := by decide
    obtain ⟨d, hd, ha⟩ := (Option.any_eq_true _ _).mp hc
    exact ⟨d, hd, of_decide_eq_true ha⟩
  exact ⟨s, h, hq, hc, no_leaked_aircraft h hq hc⟩

end Drovery
