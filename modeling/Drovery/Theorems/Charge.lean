import Drovery.Concurrency.Duties
import Drovery.Theorems.Lifecycle
import Drovery.Theorems.Refund

namespace Drovery

open Concurrency Method Outline Duties
open DeliveriesService DispatchService WalletService PromoService

-- The delivery has come to an end for which the customer is not to pay.
def Delivery.CalledOff (d : Delivery) : Prop :=
  d.status = .canceled ∨ d.status = .deliveryFailed ∧ d.failureReason.any (·.isDroneFaultReason)

instance {d : Delivery} : Decidable d.CalledOff :=
  inferInstanceAs (Decidable (_ ∨ _ ∧ _))

-- The writes that bring a delivery to such an end.
def Transition.Closing : Transition → Prop
  | .cancel              => True
  | .forceCancelOnGround => True
  | .forceCancelAirborne => True
  | .fail _ reason       => reason.isDroneFaultReason
  | _                    => False

namespace Store

def CalledOff (db : Store) (D : DeliveryId) : Prop :=
  ∃ d, db.deliveries.find? D = some d ∧ d.CalledOff

-- The charge of the delivery `D` has been captured, and not been refunded.
def Captured (db : Store) (D : DeliveryId) : Prop :=
  ∃ p, db.payments.table.find? D = some p ∧ p.status = .completed

-- The charge of the delivery `D` has been refunded to the wallet.
def Reimbursed (db : Store) (D : DeliveryId) : Prop :=
  (∃ p, db.payments.table.find? D = some p ∧ p.status = .refunded) ∧
    ∃ r ∈ db.wallet.ledger.rows, r.cardLeg D

end Store

-- The statement closes the delivery `D`, for which there is something to pay.
def Closes (db : Store) (D : DeliveryId) (x : Stmt) : Prop :=
  ∃ o tr d, x = .delivery (.transition o D tr) ∧ db.deliveries.find? D = some d ∧
    tr.source d.status ∧ tr.Closing ∧ 0 < d.estimatedPrice

-- The refunds that go along with the end of a delivery.
def charges : Duties Stmt.sig Store DeliveryId where
  binds           := Closes
  relieves _ D x  := ∃ U amount, x = .refundCharge .automatic D U amount

-- The statement captures the charge of the delivery `D`.
def Captures (db : Store) (D : DeliveryId) (x : Stmt) : Prop :=
  ¬db.Captured D ∧ (x.exec db).snd.Captured D

-- The statements on the ledger do not use the keys of the refunds.
def Stmt.Keyed : Stmt → Prop
  | .wallet (.credit _ _ _ opts) => ∀ D, opts.idempotencyKey ≠ some (.exceptionRefund D)
  | .wallet (.debit _ _ _ key)   => ∀ D, key ≠ some (.exceptionRefund D)
  | _                            => True

section

variable {x : Stmt} {db : Store} {D : DeliveryId} {d : Delivery} {tr : Transition} {now : Time}

-- There is no other way to such an end.
theorem Transition.closing (h : (tr.apply now d).CalledOff) (hs : tr.source d.status) : tr.Closing := by
  have target (h : (tr.apply now d).CalledOff) : tr.target = .canceled ∨ tr.target = .deliveryFailed :=
    (h.imp id And.left).imp (tr.apply_status ▸ ·) (tr.apply_status ▸ ·)
  cases tr
  case advance s =>
    have ht : s = .canceled ∨ s = .deliveryFailed := target h
    obtain rfl | rfl := ht <;> exact absurd hs (by simp [source, DeliveryStatus.statusesBefore,
      DeliveryStatus.statusOrder])
  case fail allowed reason =>
    obtain h | ⟨_, h⟩ := h
    case inl => contradiction
    case inr => exact h
  case cancel              => trivial
  case forceCancelOnGround => trivial
  case forceCancelAirborne => trivial
  all_goals exact absurd (target h) (by simp [Transition.target])

theorem closed_exec {P : Params} {t : Nat} {c : Call} {w : History} (hx : x.Warranted P t c w)
    (h : (x.exec w.db).snd.CalledOff D) : w.db.CalledOff D ∨ ∃ o tr d,
      x = .delivery (.transition o D tr) ∧ w.db.deliveries.find? D = some d ∧ tr.source d.status ∧
        tr.Closing := by
  obtain ⟨d', hd', hc⟩ := h
  have := x.rowChange w.db D
  generalize (x.exec w.db).snd.deliveries.find? D = r at hd' this
  cases this
  case same => exact .inl ⟨d', hd', hc⟩
  case created row booking he _ _ =>
    subst he
    obtain ⟨_, _, hnew⟩ := hx
    obtain rfl := Option.some.inj hd'
    obtain hs | hs := hnew.status <;> simp [Delivery.CalledOff, hs] at hc
  case moved o tr d he hd hs =>
    obtain rfl := Option.some.inj hd'
    exact .inr ⟨o, tr, d, he, hd, hs, Transition.closing hc hs⟩
  case guessed d _ hd _ =>
    obtain rfl := Option.some.inj hd'
    exact .inl ⟨d, hd, hc⟩

-- Only a payment that is recorded as captured, or a webhook, captures a charge.
theorem captures_cases (h : Captures db D x) : ∃ y, x = .payment y := by
  obtain ⟨hn, p, hp, hs⟩ := h
  have := x.paymentChange db D
  generalize (x.exec db).snd.payments.table.find? D = r at hp this
  cases this
  case same            => exact absurd ⟨p, hp, hs⟩ hn
  case created hx _    => exact ⟨_, hx⟩
  case notified hx _ _ _ => exact ⟨_, hx⟩
  case refunded =>
    obtain rfl := Option.some.inj hp
    contradiction

-- The key of a refund is only used together with the refund.
def Store.KeysHeld (db : Store) : Prop :=
  ∀ D, .exceptionRefund D ∈ db.wallet.ledger.keys →
    ∃ p, db.payments.table.find? D = some p ∧ p.status = .refunded

theorem Store.KeysHeld.exec (h : db.KeysHeld) (hx : x.Keyed) : (x.exec db).snd.KeysHeld := by
  intro D hk
  obtain ⟨rs, hb⟩ := x.exec_wallet db
  rw [Ledger.keys, hb.books.rows, List.filterMap_append] at hk
  obtain hk | hk := List.mem_append.mp hk
  case inr =>
    obtain ⟨p, hp, hs⟩ := h D hk
    exact ⟨p, Stmt.find?_refunded hp hs, hs⟩
  case inl =>
    obtain ⟨r, hm, hk⟩ := List.mem_filterMap.mp hk
    have hr := hb.row r hm
    have reward (hr : Wallet.IsReward r) : False := by
      obtain ⟨_, hk' | hk'⟩ := hr.key <;> exact nomatch hk'.symm.trans hk
    cases x
    case wallet x =>
      cases x
      case credit              => exact absurd (hr.idempotencyKey.symm.trans hk) (hx D)
      case debit               => exact absurd (hr.idempotencyKey.symm.trans hk) (hx D)
      case grantReferralReward => exact (reward hr).elim
      case refund              => exact absurd (hr.idempotencyKey.symm.trans hk) (by simp)
      all_goals exact hr.elim
    case refundCharge ch E U a =>
      obtain hn | ⟨p, r', ps, w, hp, hc, hb', hr', rfl, he⟩ := Stmt.refundCharge_cases ch E U a db
      case inl =>
        -- Nothing has been booked.
        have := hb.books.rows
        rw [hn, List.self_eq_append_left] at this
        simp [this] at hm
      case inr =>
        have hk := hr.idempotencyKey.symm.trans hk
        cases ch
        case admin     => exact nomatch hk
        case automatic =>
          obtain ⟨rfl⟩ := hk
          rw [he]
          exact ⟨{ p with status := .refunded }, by simp [hp], rfl⟩
    case createDelivery =>
      obtain ⟨_, _, hr⟩ | hr := hr
      case inl => exact nomatch hr.idempotencyKey.symm.trans hk
      case inr => exact (reward hr).elim
    all_goals exact hr.elim

-- The refund of a captured charge goes through.
theorem exec_refundCharge_captured {p : Payment} {U : UserId} {amount : Cents}
    (hu : (db.wallet.balances.find? U).isSome) (hk : .exceptionRefund D ∉ db.wallet.ledger.keys)
    (hp : db.payments.table.find? D = some p) (hs : p.status = .completed) :
    ∃ w r, db.wallet.Books w r ∧
      Wallet.IsCredit r U amount .checkoutRefund (refundOpts D (.exceptionRefund D)) ∧
      ((Stmt.refundCharge .automatic D U amount).exec db).snd = { db with
        payments := { db.payments with
          table := db.payments.table.modify D ({ · with status := .refunded }) }
        wallet   := w } := by
  have hn : ∀ k, (refundOpts D (.exceptionRefund D)).idempotencyKey = some k →
      k ∉ db.wallet.ledger.keys := by
    rintro k ⟨rfl⟩
    exact hk
  have ⟨w, hw⟩ := @Wallet.creditWithinTx_isOk _ _ amount .checkoutRefund _ hu hn
  have ⟨r, hb, hr, _⟩ := Wallet.creditWithinTx_ok hw
  replace hw : db.wallet.creditWithinTx U amount .checkoutRefund
    { deliveryId := some D, idempotencyKey := some <| RefundChannel.automatic.key D } = .ok w := hw
  have hc : (db.payments.table.cas D (RefundChannel.automatic.refundable ·.status)
      ({ · with status := .refunded })) =
        (1, db.payments.table.modify D ({ · with status := .refunded })) :=
    Table.cas_of_guard hp (by simp [RefundChannel.refundable, hs])
  refine ⟨w, r, hb, hr, ?_⟩
  simp only [Stmt.exec, Store.refundCharge, RefundChannel.refundWithinTx, Payments.refund, hc,
    Nat.one_ne_zero, if_false]
  rw [hw]
  rfl

-- The refund that goes along with the end of a delivery leaves no charge captured.
theorem not_captured_of_refundCharge {c : Call} {U : UserId} {amount : Cents} (hs : db.Solvent)
    (hk : db.KeysHeld) (hf : (Stmt.refundCharge .automatic D U amount).Funded c db) :
    ¬((Stmt.refundCharge .automatic D U amount).exec db).snd.Captured D := by
  rintro ⟨q, hq, hqs⟩
  obtain ⟨d, hd, rfl, _⟩ := hf
  have hp : db.payments.table.find? D = some q := by
    have := (Stmt.refundCharge .automatic D d.userId amount).paymentChange db D
    generalize ((Stmt.refundCharge .automatic D d.userId amount).exec db).snd.payments.table.find? D = r
      at hq this
    cases this
    case same         => exact hq
    case created hx _ => contradiction
    case refunded     => obtain rfl := Option.some.inj hq; contradiction
    case notified hx _ _ _ => contradiction
  -- The credit cannot fail, as the payment has not been refunded yet.
  have hn : .exceptionRefund D ∉ db.wallet.ledger.keys := by
    intro hm
    have ⟨p, hp', hps⟩ := hk D hm
    obtain rfl := Option.some.inj <| hp.symm.trans hp'
    exact nomatch hqs.symm.trans hps
  have ⟨_, _, _, _, he⟩ := @exec_refundCharge_captured _ _ _ _ amount (hs.users hd) hn hp hqs
  simp only [he, Table.find?_modify_self, hp, Option.map_some, Option.some.injEq] at hq
  exact nomatch (congrArg Payment.status hq).trans hqs

-- What has been captured is either still captured or has been refunded to the wallet.
theorem captured_exec (h : db.Captured D ∨ db.Reimbursed D) :
    (x.exec db).snd.Captured D ∨ (x.exec db).snd.Reimbursed D := by
  obtain ⟨p, hp, hs⟩ | ⟨⟨p, hp, hs⟩, r, hr, hl⟩ := h
  case inr =>
    exact .inr ⟨⟨p, Stmt.find?_refunded hp hs, hs⟩, r, (x.exec_extends db).ledger hr, hl⟩
  case inl =>
    have hc := x.paymentChange db D
    generalize hq : (x.exec db).snd.payments.table.find? D = q at hc
    cases hc
    case same         => exact .inl ⟨p, hq.trans hp, hs⟩
    case created hn   => simp [hp] at hn
    case notified target p' _ _ hp' ha =>
      obtain rfl := Option.some.inj <| hp.symm.trans hp'
      simp only [Payments.applies, hs, decide_eq_true_eq] at ha
      cases target <;> simp [advanceFrom] at ha
    case refunded p' r _ _ _ hb hr =>
      refine .inr ⟨⟨_, hq, rfl⟩, r, ?_, WalletTransaction.cardLeg_of_refundCharge hr⟩
      simp [Ledger.rows_insert hb.ledger]

end

-- The refund of a charge is not rolled back, and the free-standing bookings do not use its key.
abbrev Refunding (_ : Option CommandId) (faults : CleanupFaults) : Prop :=
  ∀ e, faults.charge ≠ .rolledBack e

def Call.Refunding : Call → Prop
  | .handleKickoff job              => Drovery.Refunding none job.faults.cleanup
  | .cancel _ _ faults              => Drovery.Refunding none faults
  | .adminForceCancel _ faults      => Drovery.Refunding none faults
  | .adminFail _ _ faults           => Drovery.Refunding none faults
  | .failExceptional _ _ faults     => Drovery.Refunding none faults
  | .beginReturnToBase _ _ faults   => Drovery.Refunding none faults
  | .completeReturnToBase _ faults  => Drovery.Refunding none faults
  | .confirmHandoff _ _ _ faults    => Drovery.Refunding none faults
  | .ingest _ _ faults              => Drovery.Refunding none faults
  | .ack C _ _ _ faults             => Drovery.Refunding (some C) faults
  | .scanAndReap faults             =>
    (∀ D, Drovery.Refunding none (faults.reap D)) ∧ ∀ C, Drovery.Refunding (some C) (faults.drive C)
  | .reconcileStrandedAcks faults   => ∀ C, Drovery.Refunding (some C) (faults C)
  | .credit _ amount _ opts _       =>
    0 ≤ amount ∧ ∀ D, opts.idempotencyKey ≠ some (.exceptionRefund D)
  | .debit _ amount _ key _         => 0 ≤ amount ∧ ∀ D, key ≠ some (.exceptionRefund D)
  | _                               => True

-- A call that has been completed has made all refunds for which it is responsible.
def chargeOutline : Outline Stmt.sig Store Call where
  inv _       := True
  rely t w w' := w'.own t = w.own t ∧ w.db.Extends w'.db
  pre _ _ x _ := x.Keyed
  post t _ w  := charges.Clear t w

namespace chargeOutline

variable {P : Params} {t : Nat} {c : Call} {w w' : History} {α : Type} {p : App α} {x : Stmt}
variable {D : DeliveryId} {F : History → Prop} {faults : CleanupFaults}

abbrev Clear (t : Nat) (w : History) : Prop :=
  charges.Clear t w

-- The thread has at most the charge of `D` to refund, and in this case there is a charge.
structure Due (t : Nat) (D : DeliveryId) (w : History) : Prop where
  owing : charges.Owing t D w
  price : charges.Owes D (w.own t) →
    ∃ d, w.db.deliveries.find? D = some d ∧ 0 < d.estimatedPrice

theorem due_of_clear (h : Clear t w) : Due t D w :=
  ⟨h.owing, fun ho => absurd ho (h D)⟩

-- The statements that do not make their thread responsible for a refund.
def Aside : Stmt → Prop
  | .delivery (.transition _ _ tr) => ¬tr.Closing
  | x                              => x.Keyed

theorem Aside.keyed (h : Aside x) : x.Keyed := by
  unfold Aside at h
  split at h
  case h_1 => trivial
  case h_2 => exact h

theorem not_closes (h : Aside x) {db : Store} (D : DeliveryId) : ¬charges.binds db D x := by
  rintro ⟨o, tr, d, rfl, _, _, hc, _⟩
  exact h hc

theorem aside_of_aftermath {a : DeliveryStatus} (h : Aftermath D a x) : Aside x := by
  unfold Aside
  split
  case h_1 => exact (h.elim id id).elim
  case h_2 =>
    unfold Stmt.Keyed
    split
    case h_1 => exact (h.elim id id).elim
    case h_2 => exact (h.elim id id).elim
    case h_3 => trivial

theorem aside_of_plain (h : x.Plain) : Aside x :=
  aside_of_aftermath (D := 0) (a := .pending) (.inl h)

theorem aside_of_books (h : x.Books D) : Aside x := by
  unfold Aside
  split
  case h_1 => exact h.elim
  case h_2 =>
    unfold Stmt.Keyed
    split
    case h_1 => exact h.elim
    case h_2 =>
      rintro E rfl
      exact nomatch h.right
    case h_3 => trivial

-- An assertion that nothing but the end of a delivery invalidates.
structure Lasts (P : Params) (t : Nat) (F : History → Prop) : Prop where
  rely : ∀ {w w'}, chargeOutline.rely t w w' → F w → F w'
  exec : ∀ {c x w}, Aside x → F w → F (w.exec (system P) t c x)

theorem lasts_clear : Lasts P t (Clear t) where
  rely hr h := debt_clear.of_own hr.left h
  exec hx h := debt_clear.exec (not_closes hx) h

theorem lasts_due : Lasts P t (Due t D) where
  rely hr h := by
    refine ⟨debt_owing.of_own hr.left h.owing, fun ho => ?_⟩
    rw [hr.left] at ho
    obtain ⟨d, hd, hp⟩ := h.price ho
    obtain ⟨d', hd', hs⟩ := hr.right.delivery hd
    exact ⟨d', hd', hs.estimatedPrice ▸ hp⟩
  exec {c x w} hx h := by
    refine ⟨debt_owing.exec (not_closes hx) h.owing, fun ho => ?_⟩
    obtain ⟨d, hd, hp⟩ := h.price ((owes_exec.mp ho).resolve_left <| not_closes hx D).right
    obtain ⟨d', hd', hs⟩ := (x.exec_extends w.db).delivery hd
    exact ⟨d', hd', hs.estimatedPrice ▸ hp⟩

theorem single_wpm (hF : Lasts P t F) (hp : Built (Single Aside) p) (h : F w) :
    chargeOutline.wpm (system P) t c p (fun _ => F) (fun _ => F) w := by
  refine wpm_built hp (fun hb h => ?_) h
  obtain ⟨hx⟩ := hb
  exact wpm_tx_of hx.keyed fun _ hr _ _ => hF.exec hx <| hF.rely hr h

-- The write that closes a delivery makes the thread responsible for the refund, if it gets through.
theorem transition_wpm {o : Option CommandId} {tr : Transition} {E : AppError → History → Prop}
    (h : Clear t w) :
    chargeOutline.wpm (system P) t c (App.stmt <| .delivery <| .transition o D tr)
      (fun count w => (count = 0 → Clear t w) ∧ Due t D w) E w := by
  refine wpm_stmt.mpr ⟨trivial, fun w' hr _ _ => ⟨fun hn E ho => ?_, fun E ho => ?_, fun ho => ?_⟩⟩
  all_goals
    have hc : Clear t w' := lasts_clear.rely (P := P) hr h
    obtain ⟨o', tr', d, he, hd, hs, _, hp⟩ := hc.binds ho
    obtain ⟨_, hE, rfl⟩ := DeliveryStmt.transition.inj <| Stmt.delivery.inj he
  case refine_1 => exact callOutline.transition_count.mp hn ⟨d, hE ▸ hd, hs⟩
  case refine_2 => exact hE.symm
  case refine_3 =>
    obtain ⟨d', hd', hs⟩ := ((Stmt.delivery <| .transition o D tr).exec_extends w'.db).delivery hd
    exact ⟨d', hd', hs.estimatedPrice ▸ hp⟩

section Termination

variable {reason : DeliveryFailureReason} {o : Option CommandId}

-- Once the charge has been refunded, the thread is no longer responsible for it.
theorem refundChargeToWallet_wpm {fault : Fault} (hf : ∀ e, fault ≠ .rolledBack e)
    (h : Due t D w) :
    chargeOutline.wpm (system P) t c (refundChargeToWallet D fault) (fun _ => Clear t)
      (fun _ => Clear t) w := by
  rw [refundChargeToWallet, wpm_bind]
  refine wpm_stmt.mpr ⟨trivial, fun w' hr _ _ => ?_⟩
  have h' : Due t D w' := lasts_due.rely (P := P) hr h
  have h := lasts_due.exec (P := P) (c := c) (x := .delivery <| .find D) trivial h'
  have free (hn : ∀ d, w'.db.deliveries.find? D = some d → ¬0 < d.estimatedPrice) :
      Clear t (w'.exec (system P) t c (.delivery <| .find D)) := by
    intro E ho
    obtain rfl := h.owing E ho
    obtain ⟨d, hd, hp⟩ := h.price ho
    exact hn d hd hp
  cases hd : w'.db.deliveries.find? D
  case none =>
    simp only [system, Stmt.exec, DeliveryStmt.exec, hd]
    exact free (by simp [hd])
  case some d =>
    simp only [system, Stmt.exec, DeliveryStmt.exec, hd]
    split
    case isTrue hp =>
      refine free fun d' hd' => ?_
      obtain rfl := Option.some.inj <| hd.symm.trans hd'
      exact not_lt.mpr hp
    case isFalse =>
      have paid {w : History} (h : Due t D w) : Clear t (w.exec (system P) t c
          (.refundCharge .automatic D d.userId d.estimatedPrice)) :=
        h.owing.relieved (not_closes (x := .refundCharge ..) trivial) ⟨_, _, rfl⟩
      have refund : chargeOutline.wpm (system P) t c
          (App.tx (.refundCharge .automatic D d.userId d.estimatedPrice) id) (fun _ => Clear t)
          (fun _ => Clear t) (w'.exec (system P) t c (.delivery <| .find D)) :=
        wpm_tx_of trivial fun _ hr _ _ => paid <| lasts_due.rely (P := P) hr h
      rw [wpm_handle]
      refine wpm_mono (wpm_attempt.mpr ⟨fun _ => refund, fun e he => absurd he (hf e),
        fun e _ => refund⟩) (fun _ _ h => h) (fun e w h => ?_)
      split <;> exact h

theorem refundLegs_wpm (hf : Refunding o faults) (h : Due t D w) :
    chargeOutline.wpm (system P) t c (refundLegs D faults) (fun _ => Clear t) (fun _ => Clear t)
      w := by
  rw [refundLegs, wpm_bind, wpm_safe]
  refine wpm_mono (single_wpm lasts_due (Single.mono (releaseForDelivery_single (K := Aside)
    fun _ => trivial) fun _ h => h.elim aside_of_plain id) h) (fun _ w h => ?_) (fun _ w h => ?_)
  all_goals
    rw [wpm_bind, wpm_safe]
    refine wpm_mono (single_wpm lasts_due (Single.mono (refundForDelivery_single (K := Aside)
      fun _ _ => trivial) fun _ h => h.elim aside_of_plain id) h) (fun _ w h => ?_) (fun _ w h => ?_)
    all_goals
      rw [wpm_safe]
      exact refundChargeToWallet_wpm hf h

theorem cleanup_wpm {aircraft : AircraftDisposition} (hf : Refunding o faults) (h : Due t D w) :
    chargeOutline.wpm (system P) t c (cleanupAfterTermination D true aircraft faults)
      (fun _ => Clear t) (fun _ => Clear t) w := by
  have handBack : (handBack D aircraft faults).Total := by
    cases aircraft
    case released      => exact .safe
    case stillAirborne => exact .pure
  have single : Built (Single Aside) (DeliveriesService.handBack D aircraft faults) := by
    cases aircraft
    case released      => exact release_single trivial
    case stillAirborne => exact .pure
  rw [cleanupAfterTermination, wpm_bind]
  refine wpm_mono (wpm_of_total handBack <| single_wpm lasts_due single h) (fun _ w h => ?_)
    (fun _ _ h => h)
  rw [wpm_bind, wpm_safe]
  refine wpm_mono (single_wpm lasts_due (.attempt <| Single.stmt trivial) h) (fun _ w h => ?_)
    (fun _ w h => ?_)
  all_goals exact refundLegs_wpm hf h

theorem failExceptional_wpm {allowed : List DeliveryStatus} (hf : Refunding o faults)
    (h : Clear t w) :
    chargeOutline.wpm (system P) t c (failExceptional o D reason allowed faults) (fun _ => Clear t)
      (fun _ => Clear t) w := by
  cases hr : reason.isDroneFaultReason
  case false =>
    -- There is nothing to refund.
    refine single_wpm lasts_clear (failExceptional_single (fun _ => aside_of_aftermath)
      fun a _ => ?_) h
    exact fun hc : reason.isDroneFaultReason => nomatch hr.symm.trans hc
  case true =>
    have finish {w : History} {airborne : Bool} (h : Due t D w) : chargeOutline.wpm (system P) t c
        (do finishFailure D reason airborne faults; pure true : App Bool) (fun _ => Clear t)
        (fun _ => Clear t) w := by
      rw [wpm_bind, finishFailure, wpm_bind, hr]
      refine wpm_mono (cleanup_wpm hf h) (fun _ w h => ?_) (fun _ _ h => h)
      exact single_wpm lasts_clear (Single.mono announceException_single
        fun _ => aside_of_aftermath) h
    have write {w : History} {allowed : List DeliveryStatus} (h : Clear t w) :
        chargeOutline.wpm (system P) t c (failFrom o D allowed reason)
          (fun count w => (count = 0 → Clear t w) ∧ Due t D w) (fun _ => Clear t) w := by
      unfold failFrom
      split
      case isTrue  => exact ⟨fun _ => h, due_of_clear h⟩
      case isFalse => exact transition_wpm h
    rw [failExceptional, wpm_bind]
    refine wpm_mono (write h) (fun matched w h => ?_) (fun _ _ h => h)
    split
    case isTrue => exact finish h.2
    case isFalse hn =>
      rw [wpm_bind]
      refine wpm_mono (write <| h.1 <| Nat.eq_zero_of_not_pos hn) (fun matched w h => ?_)
        (fun _ _ h => h)
      split
      case isTrue     => exact finish h.2
      case isFalse hn => exact h.1 <| Nat.eq_zero_of_not_pos hn

theorem cancel_wpm {U : UserId} (hf : Refunding o faults) (h : Clear t w) :
    chargeOutline.wpm (system P) t c (cancel U D faults) (fun _ => Clear t) (fun _ => Clear t) w := by
  rw [cancel, wpm_bind]
  refine wpm_mono (single_wpm lasts_clear (Single.stmt trivial) h) (fun delivery w h => ?_)
    (fun _ _ h => h)
  cases delivery
  case none => exact h
  case some =>
    dsimp only
    split
    case isTrue => exact h
    case isFalse =>
      split
      case isTrue => exact h
      case isFalse =>
        rw [wpm_bind]
        refine wpm_mono (transition_wpm (E := fun _ => Clear t) h) (fun count w h => ?_)
          (fun _ _ h => h)
        split
        case isTrue hn => exact h.1 hn
        case isFalse   => exact cleanup_wpm hf h.2

theorem adminForceCancel_wpm (hf : Refunding o faults) (h : Clear t w) :
    chargeOutline.wpm (system P) t c (adminForceCancel D faults) (fun _ => Clear t)
      (fun _ => Clear t) w := by
  rw [adminForceCancel, wpm_bind]
  refine wpm_mono (transition_wpm (E := fun _ => Clear t) h) (fun count w h => ?_) (fun _ _ h => h)
  split
  case isTrue => exact cleanup_wpm hf h.2
  case isFalse hn =>
    rw [wpm_bind]
    refine wpm_mono (transition_wpm (E := fun _ => Clear t) <| h.1 <| Nat.eq_zero_of_not_pos hn)
      (fun count w h => ?_) (fun _ _ h => h)
    split
    case isTrue => exact cleanup_wpm hf h.2
    case isFalse hn =>
      refine single_wpm lasts_clear (.bind (Single.stmt trivial) fun d => ?_) <|
        h.1 <| Nat.eq_zero_of_not_pos hn
      cases d <;> exact .throw

end Termination

section Blocks

theorem ingestHappy_aside {delivery : Delivery} {msg : TelemetryMessage} {positionValid : Bool}
    {phase : Option HappyPhase} :
    Built (Single Aside) (TelemetryService.ingestHappy delivery msg positionValid phase) := by
  have publish {s : Option DeliveryStatus} : Built (Single Aside) (do
      let positioned ← TelemetryService.writePosition delivery msg positionValid s
      if s.isNone ∧ !positioned then
        pure ()
      else
        App.stmt <| .effect <| .publishUpdate msg.deliveryId s) := by
    refine .bind (Single.mono writePosition_single fun _ => aside_of_plain) fun positioned => ?_
    split
    case isTrue  => exact .pure
    case isFalse => exact Single.stmt trivial
  unfold TelemetryService.ingestHappy
  cases phase
  case none => exact publish
  case some => exact .bind (.bind (Single.stmt id) fun _ => .pure) fun _ => publish

theorem completeReturnToBase_aside : Built (Single Aside) (completeReturnToBase D faults) := by
  refine .bind (Single.stmt id) fun count => ?_
  split
  case isTrue  => exact .pure
  case isFalse =>
    refine .bind (release_single trivial) fun _ => .bind ?_ fun _ => .pure
    exact Single.mono announceException_single fun _ => aside_of_aftermath

theorem handleStage_aside {stageIndex : Nat} :
    Built (Single Aside) (SimulationProcessor.handleStage D stageIndex) := by
  unfold SimulationProcessor.handleStage
  split
  case h_1 => exact .pure
  case h_2 =>
    refine .bind (Single.stmt trivial) fun delivery => ?_
    cases delivery
    case none => exact .pure
    case some =>
      refine .bind (Single.stmt id) fun count => ?_
      split
      case isTrue  => exact .pure
      case isFalse =>
        exact .bind (.safe <| Single.stmt trivial) fun _ => .bind (.safe <| Single.stmt trivial) fun _ =>
          Single.stmt trivial

theorem completeHandoff_aside {code : String} :
    Built (Single Aside) (completeHandoff D code faults) := by
  refine .bind (Single.stmt id) fun count => ?_
  split
  case isTrue  => exact .throw
  case isFalse => exact .bind (release_single trivial) fun _ => .safe <| Single.stmt trivial

theorem blocks_wpm {K : Stmt → Prop} (hp : Built (Block K Refunding) p) (hK : ∀ x, K x → Aside x)
    (h : Clear t w) :
    chargeOutline.wpm (system P) t c p (fun _ => Clear t) (fun _ => Clear t) w := by
  refine wpm_built hp (fun hb h => ?_) h
  cases hb
  case tx hx _ => exact single_wpm lasts_clear (.block <| .tx <| hx.elim aside_of_plain (hK _)) h
  case fail hf _      => exact failExceptional_wpm hf h
  case cancel hf      => exact cancel_wpm hf h
  case forceCancel hf => exact adminForceCancel_wpm hf h
  case beginReturn =>
    exact single_wpm lasts_clear (beginReturnToBase_single (fun _ => aside_of_aftermath) id) h
  case completeReturn => exact single_wpm lasts_clear completeReturnToBase_aside h
  case happy          => exact single_wpm lasts_clear ingestHappy_aside h
  case issue =>
    refine single_wpm lasts_clear (Single.mono issue_single fun x hx => ?_) h
    obtain hx | ⟨_, rfl⟩ := hx
    case inl => exact aside_of_plain hx
    case inr => trivial

theorem confirmHandoff_wpm {U : UserId} {code : String} (hf : Refunding none faults)
    (h : Clear t w) :
    chargeOutline.wpm (system P) t c (confirmHandoff P U D code faults) (fun _ => Clear t)
      (fun _ => Clear t) w := by
  have hp : Built (HandoffBlock D code Refunding) (confirmHandoff P U D code faults) :=
    confirmHandoff_blocks hf
  refine wpm_built hp (fun hb h => ?_) h
  cases hb
  case block hb => exact blocks_wpm (.block hb) (fun _ he => he ▸ trivial) h
  case complete => exact single_wpm lasts_clear completeHandoff_aside h

theorem create_aside {inp : CreateInput} : Built (Single Aside) (create P D inp) := by
  refine create_blocks.refine fun hb => ?_
  cases hb
  case tx hx _ =>
    refine .block <| .tx ?_
    obtain hx | hx | ⟨_, _, rfl⟩ | rfl := hx
    case inl     => exact aside_of_plain hx
    case inr.inl => exact aside_of_books hx
    all_goals trivial
  case releasePromo =>
    exact Single.mono (releaseForDelivery_single (K := Aside) fun _ => trivial)
      fun _ h => h.elim aside_of_plain id
  case refundCredits =>
    exact Single.mono (refundForDelivery_single (K := Aside) fun _ _ => trivial)
      fun _ h => h.elim aside_of_plain id

theorem aside_of_kickoff (h : x.Kickoff D) : Aside x := by
  obtain ⟨_, rfl⟩ | rfl | ⟨_, _, rfl⟩ | rfl := h
  case inl => exact id
  all_goals trivial

theorem refund_aside {amount : Option Cents} {fault : Fault} :
    Built (Single Aside) (AdminService.refund D amount fault) := by
  refine .bind (Single.stmt trivial) fun delivery => ?_
  cases delivery
  case none => exact .throw
  case some =>
    dsimp only
    split
    case isTrue  => exact .throw
    case isFalse =>
      refine .handle (.attempt <| .block <| .tx trivial) fun e => ?_
      split <;> exact .throw

theorem handleWebhookEvent_aside {event : StripeEvent} {fault : Fault} :
    Built (Single Aside) (PaymentsService.handleWebhookEvent event fault) := by
  unfold PaymentsService.handleWebhookEvent
  split
  case h_1 => exact .pure
  case h_2 =>
    refine .handle (.bind (.attempt <| .block <| .tx trivial) fun _ => .pure) fun e => ?_
    split
    case isTrue  => exact .pure
    case isFalse => exact .throw

end Blocks

-- No call is left with a refund for which it is responsible.
theorem spawn (hc : c.Refunding) (h : Clear t w) :
    chargeOutline.wp (system P) t c ((system P).prog t c) (fun _ => Clear t) w := by
  have aside {α : Type} {p : App α} (hp : Built (Single Aside) p) :
      chargeOutline.wpm (system P) t c p (fun _ => Clear t) (fun _ => Clear t) w :=
    single_wpm lasts_clear hp h
  have single {α : Type} {p : App α} (hp : Built (Single Stmt.Plain) p) :
      chargeOutline.wpm (system P) t c p (fun _ => Clear t) (fun _ => Clear t) w :=
    aside <| Single.mono hp fun _ => aside_of_plain
  have undo {α : Type} {p : App α} (hp : Built (Single fun x => x.Plain ∨ Aside x) p) :
      chargeOutline.wpm (system P) t c p (fun _ => Clear t) (fun _ => Clear t) w :=
    aside <| Single.mono hp fun _ h => h.elim aside_of_plain id
  have blocks {α : Type} {p : App α} (hp : Built (Block (fun _ => False) Refunding) p) :
      chargeOutline.wpm (system P) t c p (fun _ => Clear t) (fun _ => Clear t) w :=
    blocks_wpm hp (fun _ => False.elim) h
  have patches {α : Type} {p : App α} {K : Stmt → Prop} (hp : Built (Block K Refunding) p)
      (hK : ∀ x, K x → ∃ C, x.Patch C) :
      chargeOutline.wpm (system P) t c p (fun _ => Clear t) (fun _ => Clear t) w := by
    refine blocks_wpm hp (fun x hx => ?_) h
    obtain ⟨C, hx⟩ := hK x hx
    cases x
    case command => trivial
    all_goals exact hx.elim
  cases c <;> refine wp_toCall.mpr ?_
  case create                => exact aside create_aside
  case cancel                => exact blocks <| .block <| .cancel hc
  case adminForceCancel      => exact blocks <| .block <| .forceCancel hc
  case adminFail             => exact blocks <| adminFail_blocks hc
  case failExceptional       => exact failExceptional_wpm hc h
  case beginReturnToBase     => exact blocks <| .block <| .beginReturn hc
  case completeReturnToBase  => exact aside completeReturnToBase_aside
  case confirmHandoff        => exact confirmHandoff_wpm hc h
  case handleKickoff         => exact blocks_wpm (handleKickoff_blocks hc) (fun _ => aside_of_kickoff) h
  case handleStage           => exact aside handleStage_aside
  case handlePosition        => exact single handlePosition_single
  case ingest                => exact blocks <| ingest_blocks hc
  case issue                 => exact blocks <| .block .issue
  case fetchPending          => exact single fetchPending_single
  case ack                   => exact patches (ack_blocks hc) fun _ hx => ⟨_, hx⟩
  case scanAndReap           => exact patches (scanAndReap_blocks hc.1 hc.2) fun _ hx => hx
  case expireStaleCommands   => exact single expireStaleCommands_single
  case reconcileStrandedAcks => exact patches (reconcileStrandedAcks_blocks hc) fun _ hx => hx
  case refundForDelivery     => exact undo <| refundForDelivery_single fun _ _ => trivial
  case refundChargeToWallet  => exact undo <| refundChargeToWallet_single fun _ _ => trivial
  case adminRefund           => exact aside refund_aside
  case handleWebhookEvent    => exact aside handleWebhookEvent_aside
  case releaseForDelivery    => exact undo <| releaseForDelivery_single fun _ => trivial
  case updatePromo           => exact single updatePromo_single
  case updateDrone           => exact single updateDrone_single
  case credit                => exact aside <| .attempt <| .block <| .tx hc.2
  case debit                 => exact aside <| .attempt <| .block <| .tx hc.2
  case grantReferralReward   => exact aside <| .attempt <| .block <| .tx trivial
  case redeem                => exact aside <| .attempt <| .block <| .tx trivial
  case passTime              => exact single <| Single.stmt trivial

end chargeOutline

-- The runs in which no charge is captured for a delivery that has been closed, once the call that has
-- closed it has made its refund.
def chargesRefundable : Policy Stmt.sig Store Call where
  spawn        := Call.Refunding
  step s _ _ x := ∀ D, s.db.CalledOff D → Captures s.db D x → ∃ t, charges.Owes D (s.world.own t)
  crash        := False

theorem chargeOutline.valid {P : Params} :
    chargeOutline.Valid (system P) chargesRefundable Store.Initial where
  rely_refl _ w          := ⟨rfl, .refl w.db⟩
  rely_trans h₁ h₂       := ⟨h₂.left.trans h₁.left, h₁.right.trans h₂.right⟩
  post_stable hr h       := debt_clear.of_own hr.left h
  inv_init _             := trivial
  spawn hs _ hw          := spawn hs <| clear_of_own <| World.own_eq_nil hw
  inv_step _ _ _         := trivial
  rely_step _ _ _ hn     := ⟨World.own_exec_of_ne hn, Stmt.exec_extends _ _⟩
  pre_step _ _ _ _ _ h   := h

section

variable {P : Params} {s : Pool Stmt.sig Store Call} {t : Nat} {c : Call} {x : Stmt} {D : DeliveryId}

theorem Call.Refunding.nonneg (h : c.Refunding) : c.Nonneg := by
  cases c
  case credit => exact h.left
  case debit  => exact h.left
  all_goals trivial

theorem keysHeld (h : Reachable (system P) chargesRefundable Store.Initial s) : s.db.KeysHeld := by
  refine h.invariant (I := fun w => w.db.KeysHeld) (fun hi D hk => ?_) (fun st hk => ?_)
  case refine_1 => simp [hi.ledger, Ledger.empty, Ledger.keys] at hk
  case refine_2 => exact hk.exec <| (chargeOutline.valid.reachable st.reachable).pre st.aboutTo

-- As long as the charge of a closed delivery is captured, some call is about to refund it.
def Covered (w : History) : Prop :=
  ∀ D, w.db.CalledOff D → w.db.Captured D → ∃ t, charges.Owes D (w.own t)

theorem Covered.exec (st : StepOf (system P) chargesRefundable Store.Initial s t c x)
    (h : Covered s.world) : Covered (s.world.exec (system P) t c x) := by
  intro D hc hp
  have hc : (x.exec s.db).snd.CalledOff D := hc
  have hp : (x.exec s.db).snd.Captured D := hp
  have hm := (moneyOutline.valid fun _ => Call.Refunding.nonneg).reachable st.reachable
  by_cases hb : Closes s.db D x
  case pos => exact ⟨t, owes_exec.mpr <| .inl hb⟩
  case neg =>
    -- Whoever is responsible remains so, except for the call that makes the refund.
    have keep {t'} (ho : charges.Owes D (s.world.own t')) :
        ∃ t', charges.Owes D ((s.world.exec (system P) t c x).own t') := by
      by_cases ht : t' = t
      case neg => exact ⟨t', by rwa [World.own_exec_of_ne ht]⟩
      case pos =>
        subst ht
        refine ⟨t', owes_exec.mpr <| .inr ⟨?_, ho⟩⟩
        rintro ⟨U, amount, rfl⟩
        exact not_captured_of_refundCharge (c := c) hm.inv (keysHeld st.reachable)
          (hm.pre st.aboutTo) hp
    have hcl : s.db.CalledOff D := by
      refine (closed_exec (StepOf.warranted st) hc).resolve_right ?_
      rintro ⟨o, tr, d, hx, hd, hs, ht⟩
      obtain ⟨p, hp, _⟩ := hp
      obtain ⟨d', hd', he, ha⟩ := (Stmt.exec_solvent hm.inv (hm.pre st.aboutTo)).payments hp
      obtain ⟨d'', hd'', ho⟩ := (x.exec_extends s.db).delivery hd
      obtain rfl := Option.some.inj <| hd'.symm.trans hd''
      exact hb ⟨o, tr, d, hx, hd, hs, ht, by rw [← ho.estimatedPrice, he]; exact ha⟩
    by_cases hcap : s.db.Captured D
    case pos =>
      obtain ⟨t', ho⟩ := h D hcl hcap
      exact keep ho
    case neg =>
      obtain ⟨t', ho⟩ := st.allowed D hcl ⟨hcap, hp⟩
      exact keep ho

theorem covered (h : Reachable (system P) chargesRefundable Store.Initial s) : Covered s.world := by
  refine h.invariant (fun hi D hc => ?_) fun st h => h.exec st
  obtain ⟨d, hd, _⟩ := hc
  simp [hi.deliveries] at hd

-- No captured charge is lost.
theorem captured_or_reimbursed (h : Reachable (system P) chargesRefundable Store.Initial s)
    {e : Entry Stmt.sig Store Call} (he : e ∈ s.log) (hc : e.pre.Captured D) :
    s.db.Captured D ∨ s.db.Reimbursed D := by
  refine h.invariant (I := fun w => ∀ e ∈ w.log, e.pre.Captured D →
    w.db.Captured D ∨ w.db.Reimbursed D) (by simp) (fun {s t c x} st ih => ?_) e he hc
  intro e he hc
  obtain rfl | he := List.mem_cons.mp he
  case inl => exact captured_exec <| .inl hc
  case inr => exact captured_exec <| ih e he hc

-- When no call is in flight, the charge of a delivery that has been closed is not captured, and if it
-- ever was, then it has been refunded to the wallet.
theorem closed_not_charged (h : Reachable (system P) chargesRefundable Store.Initial s)
    (hq : s.Quiescent) {d : Delivery} (hd : s.db.deliveries.find? D = some d) (hc : d.CalledOff) :
    ¬s.db.Captured D ∧ ∀ e ∈ s.log, e.pre.Captured D → s.db.Reimbursed D := by
  have hn : ¬s.db.Captured D := by
    intro hp
    obtain ⟨t, ho⟩ := covered h D ⟨d, hd, hc⟩ hp
    exact not_owes_of_quiescent h id hq (chargeOutline.valid.reachable h).post ho
  exact ⟨hn, fun e he hp => (captured_or_reimbursed h he hp).resolve_left hn⟩

end

-- A delivery is canceled after its charge has been captured.
def refundedRun : List (Cmd Call) :=
  List.flatten [Cmd.run 1 (.create .small) 12, Cmd.run 2 (.cancel 1 1 {}) 12]

-- The runs in which there is no payment once a delivery has been closed.
def chargesEarly : Policy Stmt.sig Store Call where
  spawn        := Call.Refunding
  step s _ _ x := match x with
    | .payment _ => ∀ row ∈ s.db.deliveries.rows, ¬row.snd.CalledOff
    | _          => True
  crash        := False

instance {s : Pool Stmt.sig Store Call} {t : Nat} {c : Call} {x : Stmt} :
    Decidable (chargesEarly.step s t c x) := by
  unfold chargesEarly; dsimp only; split <;> infer_instance

theorem closed_not_charged_canceled :
    ∃ s d, Reachable (system .small) chargesRefundable Store.Initial s ∧ s.Quiescent ∧
      s.db.deliveries.find? 1 = some d ∧ d.CalledOff ∧ (∃ e ∈ s.log, e.pre.Captured 1) ∧
      ¬s.db.Captured 1 ∧ ∀ e ∈ s.log, e.pre.Captured 1 → s.db.Reimbursed 1 := by
  let s := (Pool.init .small).runCmds (system .small) refundedRun
  have h : Reachable (system .small) chargesRefundable Store.Initial s := by
    have h : Reachable (system .small) chargesEarly Store.Initial s := by
      refine (Reachable.init Store.small_initial).runCmds (.of_calls (by decide) ?_)
      simp only [refundedRun, Cmd.run, List.flatten_cons, List.flatten_nil, List.append_nil,
        List.mem_append, List.mem_cons, List.mem_replicate]
      rintro cmd ((rfl | ⟨_, rfl⟩) | (rfl | ⟨_, rfl⟩))
      case inr.inl => intro e he; cases he
      all_goals trivial
    refine h.mono (fun _ h => h) (fun s t c x h D hc hp => ?_) id
    obtain ⟨y, rfl⟩ := captures_cases hp
    obtain ⟨d, hd, hc⟩ := hc
    exact absurd hc <| h _ <| Table.find?_eq_some_iff.mp hd
  have hq : s.Quiescent := Pool.idle_runCmds (by decide)
  have hd : (s.db.deliveries.find? 1).any (·.CalledOff) := by decide
  obtain ⟨d, hd, hc⟩ := (Option.any_eq_true _ _).mp hd
  have hc := of_decide_eq_true hc
  have hp : s.log.any fun e => (e.pre.payments.table.find? 1).any (·.status = .completed) := by decide
  obtain ⟨e, he, hp⟩ := List.any_eq_true.mp hp
  obtain ⟨p, hp, hps⟩ := (Option.any_eq_true _ _).mp hp
  exact ⟨s, d, h, hq, hd, hc, ⟨e, he, p, hp, of_decide_eq_true hps⟩, closed_not_charged h hq hd hc⟩

-- The delivery is canceled between its creation and its payment.
def unrefundedRun : List (Cmd Call) :=
  List.flatten [
    Cmd.run 1 (.create .small) 8, Cmd.run 2 (.cancel 1 1 {}) 12, List.replicate 4 (.exec 1)]

theorem closed_not_charged_missed :
    ¬∀ (P : Params) (s : Pool Stmt.sig Store Call),
      Reachable (system P) { spawn := Call.Refunding, crash := False } Store.Initial s →
      s.Quiescent → ∀ D d, s.db.deliveries.find? D = some d → d.CalledOff → ¬s.db.Captured D := by
  intro h
  let s := (Pool.init .small).runCmds (system .small) unrefundedRun
  have hs : Reachable (system .small) { spawn := Call.Refunding, crash := False } Store.Initial s := by
    refine Reachable.runCmds_of_calls unrefundedRun (.init Store.small_initial) ?_
    simp only [unrefundedRun, Cmd.run, List.flatten_cons, List.flatten_nil, List.append_nil,
      List.mem_append, List.mem_cons, List.mem_replicate]
    rintro cmd ((rfl | ⟨_, rfl⟩) | (rfl | ⟨_, rfl⟩) | ⟨_, rfl⟩)
    case inr.inl.inl => intro e he; cases he
    all_goals trivial
  have hq : s.Quiescent := Pool.idle_runCmds (by decide)
  have hd : (s.db.deliveries.find? 1).any (·.CalledOff) := by decide
  obtain ⟨d, hd, hc⟩ := (Option.any_eq_true _ _).mp hd
  have hp : (s.db.payments.table.find? 1).any (·.status = .completed) := by decide
  obtain ⟨p, hp, hps⟩ := (Option.any_eq_true _ _).mp hp
  exact h .small s hs hq 1 d hd (of_decide_eq_true hc) ⟨p, hp, of_decide_eq_true hps⟩

end Drovery
