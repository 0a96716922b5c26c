import Drovery.Theorems.Charge
import Drovery.Theorems.Compensation
import Drovery.Theorems.Watchdog

namespace Drovery

open Concurrency Method
open DeliveriesService DispatchService WalletService PromoService DeliveryWatchdog

-- Everything that has been paid for the delivery `D` has been returned.
structure Store.Settled (db : Store) (D : DeliveryId) : Prop where
  credits  : db.wallet.Refunded D
  charge   : ¬db.Captured D
  discount : db.promos.inForce D = none

-- The customer of the delivery `D` has been made whole since `before`, and the aircraft that flew the
-- delivery waits for its inspection.
structure Store.MadeGood (before db : Store) (D : DeliveryId) : Prop where
  settled  : db.Settled D
  charge   : before.Captured D → db.Reimbursed D ∧
    ∃ d r, db.deliveries.find? D = some d ∧ r ∈ db.wallet.ledger.rows ∧ r.cardLeg D ∧
      r.userId = d.userId ∧ r.amount = d.estimatedPrice
  aircraft : ∀ X, before.fleet.Claims X D → ∃ d, db.fleet.find? X = some d ∧
    d.status = .maintenance ∧ d.airworthy = false ∧ d.activeDeliveryId = none

-- What concerns the delivery `D` is the same in both stores.
structure Store.Alike (D : DeliveryId) (db db' : Store) : Prop where
  row      : db'.deliveries.find? D = db.deliveries.find? D
  payment  : db'.payments.table.find? D = db.payments.table.find? D
  discount : db'.promos.inForce D = db.promos.inForce D
  bookings : ∀ r : WalletTransaction, r.deliveryId = some D →
    (r ∈ db'.wallet.ledger.rows ↔ r ∈ db.wallet.ledger.rows)
  keys     : ∀ k, k = .refund D ∨ k = .exceptionRefund D →
    (k ∈ db'.wallet.ledger.keys ↔ k ∈ db.wallet.ledger.keys)
  users    : ∀ U, (db'.wallet.balances.find? U).isSome = (db.wallet.balances.find? U).isSome
  claims   : ∀ X, db'.fleet.Claims X D ↔ db.fleet.Claims X D
  idle     : ∀ X d, db.fleet.find? X = some d → d.activeDeliveryId = none →
    db'.fleet.find? X = some d

-- The statements of a scan, as far as they are about other deliveries than `D`.
def Stmt.Beside (D : DeliveryId) : Stmt → Prop
  | .delivery (.transition _ E _)      => E ≠ D
  | .delivery (.find _)                => True
  | .fleet (.release E _)              => E ≠ D
  | .promo (.findRedeemed _)           => True
  | .promo (.release E _)              => E ≠ D
  | .wallet (.findSpend _)             => True
  | .wallet (.refund E _ _)            => E ≠ D
  | .refundCharge .automatic E _ _     => E ≠ D
  | .command _                         => True
  | .effect _                          => True
  | _                                  => False

namespace Store.Alike

variable {D : DeliveryId} {db db' db'' : Store}

theorem refl (db : Store) : db.Alike D db where
  row          := rfl
  payment      := rfl
  discount     := rfl
  bookings _ _ := Iff.rfl
  keys _ _     := Iff.rfl
  users _      := rfl
  claims _     := Iff.rfl
  idle _ _ h _ := h

theorem trans (h : db.Alike D db') (h' : db'.Alike D db'') : db.Alike D db'' where
  row            := h'.row.trans h.row
  payment        := h'.payment.trans h.payment
  discount       := h'.discount.trans h.discount
  bookings r hr  := (h'.bookings r hr).trans <| h.bookings r hr
  keys k hk      := (h'.keys k hk).trans <| h.keys k hk
  users U        := (h'.users U).trans <| h.users U
  claims X       := (h'.claims X).trans <| h.claims X
  idle X d hd hn := h'.idle X d (h.idle X d hd hn) hn

theorem status (h : db.Alike D db') : db'.status D = db.status D :=
  congrArg (Option.map _) h.row

theorem captured (h : db.Alike D db') : db'.Captured D ↔ db.Captured D := by
  simp only [Captured, h.payment]

theorem refunded (h : db.Alike D db') : db'.wallet.Refunded D ↔ db.wallet.Refunded D := by
  have spent {r : WalletTransaction} (hr : WalletStmt.spends D r) : r.deliveryId = some D :=
    (of_decide_eq_true hr).left
  constructor
  case mp =>
    intro hw r hm hs
    obtain ⟨r', hm', hr'⟩ := hw r ((h.bookings r <| spent hs).mpr hm) hs
    exact ⟨r', (h.bookings r' hr'.deliveryId).mp hm', hr'⟩
  case mpr =>
    intro hw r hm hs
    obtain ⟨r', hm', hr'⟩ := hw r ((h.bookings r <| spent hs).mp hm) hs
    exact ⟨r', (h.bookings r' hr'.deliveryId).mpr hm', hr'⟩

theorem settled (h : db.Alike D db') : db'.Settled D ↔ db.Settled D :=
  ⟨fun hs => ⟨h.refunded.mp hs.credits, fun hc => hs.charge <| h.captured.mpr hc,
      h.discount.symm.trans hs.discount⟩,
    fun hs => ⟨h.refunded.mpr hs.credits, fun hc => hs.charge <| h.captured.mp hc,
      h.discount.trans hs.discount⟩⟩

end Store.Alike

section

variable {x : Stmt} {db : Store} {D E : DeliveryId}

theorem Promos.inForce_release {p : Promos} {now : Time} {P : PromoId} (h : E ≠ D) :
    (p.release now E P).inForce D = p.inForce D := by
  simp only [Promos.release]
  split
  case isTrue  => rfl
  case isFalse =>
    simp only [Promos.inForce, Redemptions.release]
    rw [Table.find?_cas, if_neg h.symm]

-- What a statement about other deliveries books is booked on them.
theorem Stmt.Row.beside {r : WalletTransaction} (hr : x.Row r) (hx : x.Beside D) :
    r.deliveryId ≠ some D ∧ ∀ k, k = .refund D ∨ k = .exceptionRefund D → r.idempotencyKey ≠ some k := by
  cases x
  case wallet x =>
    cases x
    case refund E U a =>
      rw [hr.deliveryId, hr.idempotencyKey]
      have hx : E ≠ D := hx
      refine ⟨fun he => hx <| Option.some.inj he, ?_⟩
      rintro _ (rfl | rfl) he
      case inl => exact hx <| IdempotencyKey.refund.inj <| Option.some.inj he
      case inr => exact nomatch he
    all_goals contradiction
  case refundCharge ch E U a =>
    cases ch
    case admin => exact hx.elim
    case automatic =>
      have hx : E ≠ D := hx
      rw [hr.deliveryId, hr.idempotencyKey]
      refine ⟨fun he => hx <| Option.some.inj he, ?_⟩
      rintro _ (rfl | rfl) he
      case inl => exact nomatch he
      case inr => exact hx <| IdempotencyKey.exceptionRefund.inj <| Option.some.inj he
  all_goals contradiction

theorem Stmt.Beside.alike (hx : x.Beside D) : db.Alike D (x.exec db).snd where
  row := by
    have hc := x.rowChange db D
    generalize (x.exec db).snd.deliveries.find? D = d at hc
    cases hc
    case same                 => rfl
    case created he _ _       => exact (he ▸ hx : Stmt.Beside D (.createDelivery ..)).elim
    case moved o tr _ he _ _  => exact absurd rfl (he ▸ hx : Stmt.Beside D (.delivery (.transition o D tr)))
    case guessed he _ _       => exact (he ▸ hx : Stmt.Beside D (.delivery (.countWrongGuess D))).elim
  payment := by
    have hc := x.paymentChange db D
    generalize (x.exec db).snd.payments.table.find? D = p at hc
    cases hc
    case same                 => rfl
    case created he _         => exact (he ▸ hx : Stmt.Beside D (.payment (.create ..))).elim
    case notified he _ _ _    => exact (he ▸ hx : Stmt.Beside D (.payment (.webhook ..))).elim
    case refunded ch U a _ _ he _ _ _ _ =>
      subst he
      cases ch
      case automatic => exact absurd rfl hx
      case admin     => exact hx.elim
  discount := by
    cases x
    case promo x =>
      cases x
      case release E P => exact Promos.inForce_release hx
      all_goals first | rfl | contradiction
    case refundCharge ch E U a =>
      obtain ⟨_, _, he⟩ := exec_refundCharge ch E U a db
      rw [he]
    case effect y => cases y <;> rfl
    all_goals first | rfl | contradiction
  bookings r hr := by
    obtain ⟨rs, hb⟩ := x.exec_wallet db
    rw [hb.books.rows, List.mem_append, or_iff_right]
    exact fun hm => ((hb.row r hm).beside hx).left hr
  keys k hk := by
    obtain ⟨rs, hb⟩ := x.exec_wallet db
    rw [Ledger.keys, hb.books.rows, List.filterMap_append, List.mem_append]
    refine or_iff_right fun hm => ?_
    obtain ⟨r, hr, he⟩ := List.mem_filterMap.mp hm
    exact ((hb.row r hr).beside hx).right k hk he
  users U := by
    obtain ⟨rs, hb⟩ := x.exec_wallet db
    exact hb.books.isSome_find?
  claims X := by
    obtain ⟨y, rfl⟩ | he := x.exec_fleet db
    case inr => rw [he]
    case inl =>
      refine ⟨fun h => Fleet.Claims.of_exec h fun p he => ?_, fun h => h.exec fun o he => ?_⟩
      case refine_1 => exact (he ▸ hx : Stmt.Beside D (.fleet (.claim ..))).elim
      case refine_2 => exact absurd rfl (he ▸ hx : Stmt.Beside D (.fleet (.release D o)))
  idle X d hd hn := by
    have hc := x.droneChange db X
    generalize (x.exec db).snd.fleet.find? X = d' at hc
    cases hc
    case same            => exact hd
    case claimed he _ _  => exact (he ▸ hx : Stmt.Beside D (.fleet (.claim ..))).elim
    case released he ha  =>
      obtain rfl := Option.some.inj <| hd.symm.trans he
      cases hn.symm.trans ha
    case tracked he _    => exact (he ▸ hx : Stmt.Beside D (.fleet (.updateState ..))).elim
    case updated he _    => exact (he ▸ hx : Stmt.Beside D (.fleet (.update ..))).elim

end

-- What the platform guarantees for a delivery in every store that it can reach.
structure Store.Sound (db : Store) (D : DeliveryId) : Prop where
  user      : ∀ d, db.deliveries.find? D = some d → (db.wallet.balances.find? d.userId).isSome
  price     : db.Captured D → ∃ d, db.deliveries.find? D = some d ∧ 0 < d.estimatedPrice
  spender   : ∀ r ∈ db.wallet.ledger.rows, WalletStmt.spends D r →
    (db.wallet.balances.find? r.userId).isSome
  once      : ∀ r ∈ db.wallet.ledger.rows, ∀ r' ∈ db.wallet.ledger.rows, WalletStmt.spends D r →
    WalletStmt.spends D r' → r.userId = r'.userId ∧ r.amount = r'.amount
  refundKey : .refund D ∈ db.wallet.ledger.keys → db.wallet.Refunded D
  chargeKey : .exceptionRefund D ∈ db.wallet.ledger.keys → ¬db.Captured D

section

variable {db db' : Store} {D : DeliveryId} {r : WalletTransaction} {U : UserId} {amount : Cents}
variable {opts : WalletTxnOpts} {reason : WalletTxnReason} {d : Delivery}

theorem Store.Alike.sound (h : db.Alike D db') (hs : db.Sound D) : db'.Sound D where
  user d hd     := (h.users d.userId).trans <| hs.user d <| h.row.symm.trans hd
  price hc      := h.row ▸ hs.price (h.captured.mp hc)
  spender r hr hp := by
    have hd : r.deliveryId = some D := (of_decide_eq_true hp).left
    exact (h.users r.userId).trans <| hs.spender r ((h.bookings r hd).mp hr) hp
  once r hr r' hr' hp hp' := by
    have hd : r.deliveryId = some D := (of_decide_eq_true hp).left
    have hd' : r'.deliveryId = some D := (of_decide_eq_true hp').left
    exact hs.once r ((h.bookings r hd).mp hr) r' ((h.bookings r' hd').mp hr') hp hp'
  refundKey hk  := h.refunded.mpr <| hs.refundKey <| (h.keys _ <| .inl rfl).mp hk
  chargeKey hk  := h.captured.not.mpr <| hs.chargeKey <| (h.keys _ <| .inr rfl).mp hk

-- What has been given back remains so when another credit is booked.
theorem Wallet.Refunded.books {w w' : Wallet} (h : w.Refunded D) (hb : w.Books w' r)
    (hr : Wallet.IsCredit r U amount reason opts) : w'.Refunded D := by
  intro r₁ hr₁ hs
  rw [Ledger.rows_insert hb.ledger] at hr₁ ⊢
  obtain rfl | hr₁ := List.mem_cons.mp hr₁
  case inl => simp [WalletStmt.spends, hr.type] at hs
  case inr =>
    obtain ⟨r', hm, hc⟩ := h r₁ hr₁ hs
    exact ⟨r', .tail _ hm, hc⟩

-- The refund of the credits gives back what has been spent, if this has not been done before.
theorem Store.Sound.refunded (h : db.Sound D) : (db.wallet.refundFor D).Refunded D := by
  cases hf : db.wallet.ledger.rows.reverse.find? (WalletStmt.spends D)
  case none =>
    have hn : ∀ r ∈ db.wallet.ledger.rows, ¬WalletStmt.spends D r := fun r hr =>
      List.find?_eq_none.mp hf r <| List.mem_reverse.mpr hr
    rw [Wallet.refundFor_of_unspent hn]
    exact fun r hr hs => absurd hs <| hn r hr
  case some spend =>
    have hm := List.mem_reverse.mp <| List.mem_of_find?_eq_some hf
    have hs := List.find?_some hf
    by_cases hk : .refund D ∈ db.wallet.ledger.keys
    case pos =>
      simp only [Wallet.refundFor, hf]
      obtain he | he := commit_snd (s := db.wallet) (r := db.wallet.refund D spend.userId spend.amount)
      case inl =>
        rw [he]
        exact h.refundKey hk
      case inr =>
        obtain ⟨r, hb, hr, _⟩ := Wallet.creditWithinTx_ok he
        exact (h.refundKey hk).books hb hr
    case neg =>
      obtain ⟨r, hb, hr⟩ := Wallet.refundFor_books hf (h.spender spend hm hs) hk
      intro r₁ hr₁ hs₁
      rw [Ledger.rows_insert hb.ledger] at hr₁ ⊢
      obtain rfl | hr₁ := List.mem_cons.mp hr₁
      case inl => simp [WalletStmt.spends, hr.type] at hs₁
      case inr =>
        obtain ⟨hu, ha⟩ := h.once r₁ hr₁ spend hm hs₁ hs
        exact ⟨r, .head _, hu ▸ ha ▸ hr⟩

theorem exec_refundCharge_uncaptured (hn : ¬db.Captured D) :
    ((Stmt.refundCharge .automatic D U amount).exec db).snd = db := by
  obtain he | ⟨p, _, _, _, hp, hr, _⟩ := Stmt.refundCharge_cases .automatic D U amount db
  case inl => exact he
  case inr => exact absurd ⟨p, hp, of_decide_eq_true hr⟩ hn

theorem eval_refundChargeToWallet (hd : db.deliveries.find? D = some d) (hp : 0 < d.estimatedPrice) :
    (eval Stmt.exec (refundChargeToWallet D .committed) db).snd =
      ((Stmt.refundCharge .automatic D d.userId d.estimatedPrice).exec db).snd := by
  have hf : (Stmt.delivery <| .find D).exec db = (some d, db) := Prod.ext hd rfl
  rw [refundChargeToWallet, eval_stmt_bind, hf]
  dsimp only
  rw [if_neg hp.not_ge]
  simp only [attempt, eval_handle, eval_tx]
  generalize (Stmt.refundCharge .automatic D d.userId d.estimatedPrice).exec db = r
  obtain ⟨r, s⟩ := r
  cases r
  case ok => rfl
  case error e =>
    simp only [id_eq]
    split <;> rfl

theorem eval_refundChargeToWallet_uncaptured (hn : ¬db.Captured D) :
    (eval Stmt.exec (refundChargeToWallet D .committed) db).snd = db := by
  cases hd : db.deliveries.find? D
  case none =>
    have hf : (Stmt.delivery <| .find D).exec db = (none, db) := Prod.ext hd rfl
    rw [refundChargeToWallet, eval_stmt_bind, hf]
    rfl
  case some d =>
    by_cases hp : 0 < d.estimatedPrice
    case pos => rw [eval_refundChargeToWallet hd hp, exec_refundCharge_uncaptured hn]
    case neg =>
      have hf : (Stmt.delivery <| .find D).exec db = (some d, db) := Prod.ext hd rfl
      rw [refundChargeToWallet, eval_stmt_bind, hf]
      dsimp only
      rw [if_pos (not_lt.mp hp), eval_pure]

end

-- The aircraft of the delivery `D` is kept for its inspection.
def Store.ground (db : Store) (D : DeliveryId) : Store :=
  ((Stmt.fleet <| .release D .groundForInspection).exec db).snd

-- All that has been paid for the delivery `D` is returned.
def Store.repay (db : Store) (D : DeliveryId) : Store :=
  (eval Stmt.exec (refundChargeToWallet D .committed) (db.compensate D)).snd

section

variable {db : Store} {D : DeliveryId} {reason : DeliveryFailureReason} {d : Delivery}
variable {status : DeliveryStatus} {faults : CleanupFaults} {o : Option CommandId}
variable {allowed : List DeliveryStatus}

theorem eval_announceException {reason : Option DeliveryFailureReason} :
    (eval Stmt.exec (announceException D status reason faults) db).snd = db := by
  let K (x : Stmt) := ∀ db, (x.exec db).snd = db
  have hp : Built (Single K) (announceException D status reason faults) :=
    announceException_built (fun _ => rfl) (fun _ => rfl) fun _ => rfl
  exact eval_built (I := (· = db)) hp (fun ⟨hx⟩ hs => (hx _).trans hs) rfl

theorem eval_cleanupAfterTermination {refundCredits : Bool} :
    eval Stmt.exec (cleanupAfterTermination D refundCredits (.released .groundForInspection) {}) db =
      (.ok (), if refundCredits then (db.ground D).repay D else db.ground D) := by
  have hr : eval Stmt.exec (release D .groundForInspection .committed) db = (.ok (), db.ground D) :=
    eval_safe
  have hs : eval Stmt.exec ((App.stmt <| .effect <| .stopSimulation D).attempt .committed).safe
      (db.ground D) = (.ok (), db.ground D) := eval_safe
  have hl : eval Stmt.exec (refundLegs D {}) (db.ground D) = (.ok (), (db.ground D).repay D) := by
    rw [refundLegs, eval_bind_of_ok eval_safe, eval_releaseForDelivery, eval_bind_of_ok eval_safe,
      eval_refundForDelivery, eval_safe]
    rfl
  rw [cleanupAfterTermination, handBack, eval_bind_of_ok hr, eval_bind_of_ok hs]
  split
  case isTrue  => exact hl
  case isFalse => rfl

theorem eval_finishFailure : (eval Stmt.exec (finishFailure D reason true {}) db).snd =
    if reason.isDroneFaultReason then (db.ground D).repay D else db.ground D := by
  rw [finishFailure, Bool.or_true, if_pos rfl, eval_bind_of_ok eval_cleanupAfterTermination,
    eval_announceException]

-- A write whose guard does not match.
theorem exec_transition_of_not {tr : Transition}
    (h : ∀ d, db.deliveries.find? D = some d → ¬tr.source d.status) :
    (Stmt.delivery <| .transition o D tr).exec db = (0, db) := by
  have hz : (db.deliveries.cas D (tr.source ·.status) (tr.apply db.clock)).fst = 0 :=
    Table.cas_count_eq_zero_iff.mpr h
  have hs := Table.cas_eq_of_count_eq_zero hz
  simp only [Stmt.exec, DeliveryStmt.exec, hz, hs]

theorem finishFailure_total {airborne : Bool} : (finishFailure D reason airborne faults).Total :=
  .bind cleanupAfterTermination_total fun _ => announceException_total

-- If all of the allowed statuses are in the air, then there is only one write.
theorem eval_failExceptional (hd : db.deliveries.find? D = some d)
    (ha : ∀ s ∈ allowed, s ∈ DeliveryStatus.failableStatuses) (hn : allowed ≠ []) :
    eval Stmt.exec (failExceptional o D reason allowed faults) db =
      if d.status ∈ allowed then
        (.ok true, (eval Stmt.exec (finishFailure D reason true faults)
          ((Stmt.delivery <| .transition o D <| .fail allowed reason).exec db).snd).snd)
      else
        (.ok false, db) := by
  have hg : allowed.filter (· ∉ DeliveryStatus.failableStatuses) = [] :=
    List.filter_eq_nil_iff.mpr fun s hs => by simpa using ha s hs
  have hf : allowed.filter (· ∈ DeliveryStatus.failableStatuses) = allowed :=
    List.filter_eq_self.mpr fun s hs => by simpa using ha s hs
  rw [failExceptional]
  simp only [hg, hf]
  rw [failFrom, if_pos rfl, eval_bind, eval_pure]
  dsimp only
  rw [if_neg (lt_irrefl _), failFrom, if_neg hn, eval_stmt_bind]
  by_cases hs : d.status ∈ allowed
  case pos =>
    have hc : ((Stmt.delivery <| .transition o D <| .fail allowed reason).exec db).fst = 1 :=
      congrArg Prod.fst <| Table.cas_of_guard hd (decide_eq_true hs)
    obtain ⟨_, he⟩ := eval_of_total Stmt.exec
      ((Stmt.delivery <| .transition o D <| .fail allowed reason).exec db).snd
      (@finishFailure_total D reason faults true)
    rw [hc, if_pos Nat.one_pos, eval_bind_of_ok he, eval_pure, if_pos hs]
  case neg =>
    have hx : (Stmt.delivery <| .transition o D <| .fail allowed reason).exec db = (0, db) :=
      exec_transition_of_not fun d' hd' hg =>
        hs <| Option.some.inj (hd.symm.trans hd') ▸ of_decide_eq_true hg
    rw [hx, if_neg (lt_irrefl _), eval_pure, if_neg hs]

end

section

variable {db : Store} {D : DeliveryId} {reason : DeliveryFailureReason} {d : Delivery}
variable {faults : CleanupFaults} {o : Option CommandId} {allowed : List DeliveryStatus}

theorem refundFor_booked (db : Store) (D : DeliveryId) :
    ∃ rs, db.wallet.BooksAll (db.wallet.refundFor D) rs ∧
      ∀ r ∈ rs, ∃ U a, Wallet.IsCredit r U a .checkoutRefund (refundOpts D (.refund D)) := by
  cases hf : db.wallet.ledger.rows.reverse.find? (WalletStmt.spends D)
  case none =>
    refine ⟨[], ?_, List.forall_mem_nil _⟩
    rw [Wallet.refundFor, hf]
    exact .refl
  case some spend =>
    obtain ⟨rs, hb⟩ := (Stmt.wallet <| .refund D spend.userId spend.amount).exec_wallet db
    refine ⟨rs, ?_, fun r hr => ⟨_, _, hb.row r hr⟩⟩
    rw [Wallet.refundFor, hf]
    exact hb.books

-- The repayment leaves nothing to be returned, and what was captured is credited to the wallet.
theorem Store.Sound.repay (h : db.Sound D) :
    (db.repay D).Settled D ∧ (db.repay D).fleet = db.fleet ∧
      (db.repay D).deliveries = db.deliveries ∧ (db.Captured D → (db.repay D).Reimbursed D ∧
        ∃ d r, (db.repay D).deliveries.find? D = some d ∧ r ∈ (db.repay D).wallet.ledger.rows ∧
          r.cardLeg D ∧ r.userId = d.userId ∧ r.amount = d.estimatedPrice) := by
  have hw : (db.compensate D).wallet.Refunded D := h.refunded
  have hp : (db.compensate D).promos.inForce D = none := by
    rw [compensate, Promos.inForce_releaseFor, if_pos rfl]
  obtain ⟨rs, hb, hrs⟩ := refundFor_booked db D
  by_cases hc : db.Captured D
  case neg =>
    have hn : ¬(db.compensate D).Captured D := id hc
    have he : db.repay D = db.compensate D := eval_refundChargeToWallet_uncaptured hn
    rw [he]
    exact ⟨⟨hw, hn, hp⟩, rfl, rfl, fun h => absurd h hc⟩
  case pos =>
    obtain ⟨d, hd, hprice⟩ := h.price hc
    obtain ⟨p, hpay, hs⟩ := id hc
    have hu : ((db.compensate D).wallet.balances.find? d.userId).isSome :=
      hb.isSome_find?.trans <| h.user d hd
    have hk : .exceptionRefund D ∉ (db.compensate D).wallet.ledger.keys := by
      intro hm
      rw [Ledger.keys, compensate, hb.rows, List.filterMap_append] at hm
      obtain hm | hm := List.mem_append.mp hm
      case inr => exact h.chargeKey hm hc
      case inl =>
        obtain ⟨r, hr, he⟩ := List.mem_filterMap.mp hm
        obtain ⟨_, _, hi⟩ := hrs r hr
        cases hi.idempotencyKey.symm.trans he
    obtain ⟨w, r, hbk, hr, he⟩ := @exec_refundCharge_captured _ _ _ _ d.estimatedPrice hu hk hpay hs
    have hd' : (db.compensate D).deliveries.find? D = some d := hd
    have he : db.repay D = _ := (eval_refundChargeToWallet hd' hprice).trans he
    have hrow : r ∈ w.ledger.rows := by
      rw [Ledger.rows_insert hbk.ledger]
      exact .head _
    have hpost : (db.payments.table.modify D ({ · with status := .refunded })).find? D =
        some { p with status := .refunded } := by simp [hpay]
    have hl : r.cardLeg D := @WalletTransaction.cardLeg_of_refundCharge _ _ _ _ .automatic hr
    rw [he]
    refine ⟨⟨hw.books hbk hr, ?_, hp⟩, rfl, rfl, fun _ => ⟨⟨⟨_, hpost, rfl⟩, r, hrow, hl⟩, ?_⟩⟩
    case refine_1 =>
      rintro ⟨q, hq, hqs⟩
      obtain rfl := Option.some.inj <| hq.symm.trans hpost
      contradiction
    case refine_2 => exact ⟨d, r, hd, hrow, hl, hr.userId, hr.amount⟩

-- The store after the watchdog has failed the delivery `D`.
def Store.reap (db : Store) (D : DeliveryId) (reason : DeliveryFailureReason) : Store :=
  (eval Stmt.exec (finishFailure D reason true {})
    ((Stmt.delivery <| .transition none D <|
      .fail DeliveryStatus.watchdogStuckStatuses reason).exec db).snd).snd

-- The aircraft of the delivery is set aside.
theorem find?_ground {X : DroneId} {drone : Drone} (hX : db.fleet.find? X = some drone)
    (ha : drone.activeDeliveryId = some D) :
    (db.ground D).fleet.find? X = some (drone.release .groundForInspection) := by
  simp [Store.ground, Stmt.exec, FleetStmt.exec, Table.find?_updateMany, hX, FleetStmt.holds, ha]

-- A stuck delivery is made good by the watchdog if the drone is to blame. Otherwise nothing is returned.
theorem madeGood_reap (reason : DeliveryFailureReason) (h : db.Sound D) (hd : db.deliveries.find? D = some d)
    (hs : d.status ∈ DeliveryStatus.watchdogStuckStatuses) :
    (db.reap D reason).status D = some .deliveryFailed ∧
      (reason.isDroneFaultReason ∨ db.Settled D → db.MadeGood (db.reap D reason) D) ∧
      ((db.reap D reason).Settled D → reason.isDroneFaultReason ∨ db.Settled D) := by
  let tr := Transition.fail DeliveryStatus.watchdogStuckStatuses reason
  let db₁ : Store := { db with deliveries := db.deliveries.modify D (tr.apply db.clock) }
  have hx : ((Stmt.delivery <| .transition none D tr).exec db).snd = db₁ :=
    congrArg (fun r : Nat × Table DeliveryId Delivery => { db with deliveries := r.snd }) <|
      Table.cas_of_guard hd (decide_eq_true hs)
  have hd₁ : db₁.deliveries.find? D = some (tr.apply db.clock d) := by simp [db₁, hd]
  have he : db.reap D reason = if reason.isDroneFaultReason then (db₁.ground D).repay D else db₁.ground D := by
    rw [Store.reap, hx, eval_finishFailure]
  have hsound : (db₁.ground D).Sound D := {
    h with
    user := fun e he => by
      obtain rfl := Option.some.inj <| hd₁.symm.trans he
      exact h.user d hd
    price := fun hc => by
      obtain ⟨e, he, hp⟩ := h.price hc
      obtain rfl := Option.some.inj <| hd.symm.trans he
      exact ⟨_, hd₁, hp⟩
  }
  have hst : db₁.status D = some .deliveryFailed := by
    rw [Store.status, hd₁]
    rfl
  have aircraft {fleet : Fleet} (hf : fleet = (db₁.ground D).fleet) :
      ∀ X, db.fleet.Claims X D → ∃ d, fleet.find? X = some d ∧
        d.status = .maintenance ∧ d.airworthy = false ∧ d.activeDeliveryId = none := by
    rintro X ⟨drone, hX, ha⟩
    exact ⟨drone.release .groundForInspection, hf ▸ @find?_ground db₁ _ _ _ hX ha, rfl, rfl, rfl⟩
  obtain ⟨hset, hfl, hde, hch⟩ := hsound.repay
  rw [he]
  by_cases hr : reason.isDroneFaultReason
  case pos =>
    rw [if_pos hr]
    refine ⟨?_, fun _ => ⟨hset, hch, aircraft hfl⟩, fun _ => .inl hr⟩
    rw [Store.status, hde]
    exact hst
  case neg =>
    rw [if_neg hr]
    refine ⟨hst, fun hs => ?_, fun hs => .inr ⟨hs.credits, hs.charge, hs.discount⟩⟩
    have hs := hs.resolve_left hr
    exact ⟨⟨hs.credits, hs.charge, hs.discount⟩, fun hc => absurd hc hs.charge, aircraft rfl⟩

end

section

variable {db : Store} {D E : DeliveryId} {reason : DeliveryFailureReason}
variable {faults : CleanupFaults} {o : Option CommandId} {allowed : List DeliveryStatus}

theorem cleanupAfterTermination_beside {refundCredits : Bool} {aircraft : AircraftDisposition}
    (h : E ≠ D) : Built (Single (Stmt.Beside D))
      (cleanupAfterTermination E refundCredits aircraft faults) := by
  refine cleanupAfterTermination_built (fun _ _ => h) trivial ?_
  refine .bind (releaseForDelivery_built trivial fun _ => h).safe fun _ => ?_
  refine .bind (refundForDelivery_built trivial fun _ _ => h).safe fun _ => ?_
  exact (refundChargeToWallet_built trivial fun _ _ => h).safe

theorem announceException_beside {status : DeliveryStatus} {reason : Option DeliveryFailureReason} :
    Built (Single (Stmt.Beside D)) (announceException E status reason faults) :=
  announceException_built trivial trivial trivial

theorem alike_of_beside {α : Type} {p : App α} (hp : Built (Single (Stmt.Beside D)) p) :
    db.Alike D (eval Stmt.exec p db).snd :=
  eval_built (I := fun s => db.Alike D s) hp (fun ⟨hx⟩ h => h.trans hx.alike) (.refl db)

-- The failure of another delivery, and that of one that has already failed.
theorem alike_failExceptional (ha : ∀ s ∈ allowed, s ∈ DeliveryStatus.failableStatuses)
    (hn : allowed ≠ []) (h : E = D → db.status D = some .deliveryFailed) :
    db.Alike D (eval Stmt.exec (failExceptional o E reason allowed faults) db).snd := by
  by_cases he : E = D
  case pos =>
    subst he
    have ⟨d, hd, hs⟩ := Option.map_eq_some_iff.mp <| h rfl
    have hm : d.status ∉ allowed := fun hm => absurd (ha _ hm) <| hs ▸ by decide
    rw [eval_failExceptional hd ha hn, if_neg hm]
    exact .refl db
  case neg =>
    refine alike_of_beside <| failExceptional_built (fun _ _ => Single.stmt he) fun _ => ?_
    exact .bind (cleanupAfterTermination_beside he) fun _ => announceException_beside

theorem alike_beginReturnToBase (h : E = D → db.status D = some .deliveryFailed) :
    db.Alike D (eval Stmt.exec (beginReturnToBase o E reason faults) db).snd := by
  by_cases he : E = D
  case pos =>
    subst he
    have hx : (Stmt.delivery <| .transition o E <| .beginReturn reason).exec db = (0, db) := by
      refine exec_transition_of_not fun d hd hg => ?_
      have ⟨d', hd', hs⟩ := Option.map_eq_some_iff.mp <| h rfl
      obtain rfl := Option.some.inj <| hd.symm.trans hd'
      exact absurd (hs ▸ hg) (by simp [Transition.source, DeliveryStatus.returnableStatuses])
    rw [beginReturnToBase, eval_stmt_bind, hx, if_pos rfl, eval_pure]
    exact .refl db
  case neg =>
    exact alike_of_beside <| beginReturnToBase_built (Single.stmt he)
      (fun _ => cleanupAfterTermination_beside he) announceException_beside

-- What a scan does on behalf of commands leaves a failed delivery alone.
theorem alike_reconcile {faults : CommandId → CleanupFaults}
    {stranded : List (CommandId × DroneCommand)} (h : db.status D = some .deliveryFailed) :
    db.Alike D (eval Stmt.exec (reconcile faults stranded) db).snd := by
  induction stranded generalizing db
  case nil => exact .refl db
  case cons row rest ih =>
    obtain ⟨C, command⟩ := row
    have hr : db.Alike D (eval Stmt.exec (redrive C command (faults C)) db).snd := by
      have hd : db.Alike D (eval Stmt.exec (DroneCommandService.drive C command (faults C)) db).snd := by
        unfold DroneCommandService.drive
        split
        case h_1 => exact alike_beginReturnToBase fun _ => h
        case h_2 => exact alike_failExceptional (fun _ => id) (by decide) fun _ => h
      have hp {applied : Bool} {note : String} :
          Built (Single (Stmt.Beside D)) (DroneCommandService.patch C applied note) := by
        unfold DroneCommandService.patch
        split <;> exact Single.stmt trivial
      rw [redrive, eval_bind]
      generalize eval Stmt.exec (DroneCommandService.drive C command (faults C)) db = r at hd
      obtain ⟨r, s⟩ := r
      cases r
      case ok applied => exact hd.trans <| alike_of_beside hp
      case error      => exact hd
    rw [reconcile, eval_bind_of_ok eval_safe]
    exact hr.trans <| ih <| hr.status.trans h

end

-- The deliveries that a scan finds to be stuck.
def stuckIn (db : Store) : List StuckDelivery :=
  ((Stmt.delivery <| .findStuck (db.clock - watchdogSilenceMs) (db.clock - watchdogMinAgeMs)).exec db).fst

-- The scan on its own, and the part of it in which it fails what it has found.
def Store.scanned (db : Store) (faults : ScanFaults) : Store :=
  (eval Stmt.exec (scanAndReap faults) db).snd

def Store.reaped (db : Store) (faults : ScanFaults) : Store :=
  (eval Stmt.exec (DeliveryWatchdog.reap db.clock faults.reap (stuckIn db)) db).snd

-- The delivery `D`, whose row is `d`, has not been touched yet, or it has been failed by the watchdog.
def Reaping (D : DeliveryId) (d : Delivery) (before db : Store) : Prop :=
  before.Alike D db ∨ ∃ pre, before.Alike D pre ∧ d.status ∈ DeliveryStatus.watchdogStuckStatuses ∧
    (pre.reap D <| d.failureReason.getD .mechanical).Alike D db

section

variable {before db : Store} {D : DeliveryId} {d : Delivery} {faults : ScanFaults} {now : Time}

theorem Reaping.step {c : StuckDelivery} (h : Reaping D d before db) (hs : before.Sound D)
    (hd : before.deliveries.find? D = some d) (hf : faults.reap D = {})
    (hc : c.id = D → c.failureReason = d.failureReason) :
    Reaping D d before (eval Stmt.exec (reapStuck now faults.reap c) db).snd := by
  have stuck : ∀ s ∈ DeliveryStatus.watchdogStuckStatuses, s ∈ DeliveryStatus.failableStatuses := by
    decide
  have none : DeliveryStatus.watchdogStuckStatuses ≠ [] := by decide
  unfold reapStuck
  split
  case isTrue => exact h
  case isFalse =>
    rw [eval_safe]
    obtain h | ⟨pre, hp, hm, h⟩ := h
    case inr =>
      have hsp := hp.sound hs
      have ⟨hfail, _⟩ := madeGood_reap (d.failureReason.getD .mechanical) hsp (hp.row.trans hd) hm
      exact .inr ⟨pre, hp, hm, h.trans <| alike_failExceptional stuck none fun _ => h.status.trans hfail⟩
    case inl =>
      by_cases he : c.id = D
      case neg => exact .inl <| h.trans <| alike_failExceptional stuck none fun heq => absurd heq he
      case pos =>
        rw [he, hc he, hf, eval_failExceptional (h.row.trans hd) stuck none]
        split
        case isTrue hm => exact .inr ⟨db, h, hm, .refl _⟩
        case isFalse   => exact .inl h

theorem Reaping.reap {ds : List StuckDelivery} (h : Reaping D d before db) (hs : before.Sound D)
    (hd : before.deliveries.find? D = some d) (hf : faults.reap D = {})
    (hc : ∀ c ∈ ds, c.id = D → c.failureReason = d.failureReason) :
    Reaping D d before (eval Stmt.exec (DeliveryWatchdog.reap now faults.reap ds) db).snd := by
  induction ds generalizing db
  case nil => exact h
  case cons c ds ih =>
    have ⟨hc, hds⟩ := List.forall_mem_cons.mp hc
    have hstep : Reaping D d before (eval Stmt.exec (reapStuck now faults.reap c) db).snd :=
      h.step hs hd hf hc
    have ⟨_, he⟩ := eval_of_total Stmt.exec db <| @reapStuck_total now faults.reap c
    rw [DeliveryWatchdog.reap, eval_bind_of_ok he]
    exact ih hstep hds

-- The scan reads the reason together with the delivery.
theorem failureReason_of_mem_stuckIn {c : StuckDelivery} (hc : c ∈ stuckIn db)
    (hd : db.deliveries.find? c.id = some d) : c.failureReason = d.failureReason := by
  obtain ⟨⟨D, row⟩, hm, rfl⟩ := List.mem_map.mp hc
  obtain ⟨hm, _⟩ := List.mem_filter.mp <| (List.mem_insertionSort _).mp <| List.mem_of_mem_take hm
  obtain rfl := Option.some.inj <| (Table.find?_eq_some_iff.mpr hm).symm.trans hd
  rfl

-- The rest of the scan is not about deliveries that have already failed.
theorem alike_scanned (h : (db.reaped faults).status D = some .deliveryFailed) :
    (db.reaped faults).Alike D (db.scanned faults) := by
  have ⟨_, he⟩ := eval_of_total Stmt.exec db <| @reap_total db.clock faults.reap (stuckIn db)
  have hx : db.scanned faults = (eval Stmt.exec (do
      expireStaleCommands
      reconcileStrandedAcks faults.drive) (db.reaped faults)).snd :=
    congrArg Prod.snd <| eval_bind_of_ok he
  have hp : Built (Single (Stmt.Beside D)) expireStaleCommands := by
    refine .bind (Single.stmt trivial) fun _ => .bind (Single.stmt trivial) fun _ => ?_
    split
    case isTrue  => exact .pure
    case isFalse => exact Single.stmt trivial
  have ha : (db.reaped faults).Alike D _ := alike_of_beside hp
  rw [hx, eval_bind]
  generalize eval Stmt.exec expireStaleCommands (db.reaped faults) = r at ha
  obtain ⟨r, s⟩ := r
  cases r
  case error => exact ha
  case ok    => exact ha.trans <| alike_reconcile <| ha.status.trans h

theorem Store.Alike.reimbursed {db' : Store} (h : db.Alike D db') (hr : db.Reimbursed D) :
    db'.Reimbursed D := by
  have ⟨⟨p, hp, hs⟩, r, hm, hl⟩ := hr
  have hd : r.deliveryId = some D := by
    have := (of_decide_eq_true hl).left
    exact (of_decide_eq_true this).left
  exact ⟨⟨p, h.payment.trans hp, hs⟩, r, (h.bookings r hd).mpr hm, hl⟩

theorem Store.MadeGood.alike {pre db' : Store} (hg : pre.MadeGood db D) (h : before.Alike D pre)
    (h' : db.Alike D db') : before.MadeGood db' D where
  settled  := h'.settled.mpr hg.settled
  charge hc := by
    have ⟨hr, d, r, hd, hm, hl, hu, ha⟩ := hg.charge <| h.captured.mpr hc
    have hdel : r.deliveryId = some D := by
      have := (of_decide_eq_true hl).left
      exact (of_decide_eq_true this).left
    exact ⟨h'.reimbursed hr, d, r, h'.row.trans hd, (h'.bookings r hdel).mpr hm, hl, hu, ha⟩
  aircraft X hX := by
    have ⟨d, hd, hs, ha, hn⟩ := hg.aircraft X <| (h.claims X).mpr hX
    exact ⟨d, h'.idle X d hd hn, hs, ha, hn⟩

theorem madeGood_scanned_iff (hs : db.Sound D) (hd : db.deliveries.find? D = some d)
    (hn : d.status ≠ .deliveryFailed) (hf : faults.reap D = {})
    (hr : (db.reaped faults).status D = some .deliveryFailed) :
    db.MadeGood (db.scanned faults) D ↔
      d.failureReason ≠ some .recipientUnavailable ∨ db.Settled D := by
  have hj : Reaping D d db (db.reaped faults) := by
    refine Reaping.reap (.inl <| .refl db) hs hd hf fun c hc he => ?_
    exact failureReason_of_mem_stuckIn hc (he ▸ hd)
  have ha := alike_scanned hr
  obtain h | ⟨pre, hp, hm, h⟩ := hj
  case inl =>
    have := h.status.symm.trans hr
    rw [Store.status, hd] at this
    exact absurd (Option.some.inj this) hn
  case inr =>
    have hfault : (d.failureReason.getD .mechanical).isDroneFaultReason ↔
        d.failureReason ≠ some .recipientUnavailable := by
      cases hr : d.failureReason with
      | none => decide
      | some reason => cases reason <;> decide
    have hsettled := hp.settled
    have h := h.trans ha
    obtain ⟨_, hgood, hnot⟩ := madeGood_reap (d.failureReason.getD .mechanical) (hp.sound hs)
      (hp.row.trans hd) hm
    constructor
    case mp =>
      intro hg
      exact (hnot <| h.settled.mp hg.settled).imp hfault.mp hsettled.mp
    case mpr =>
      intro hc
      exact (hgood <| hc.imp hfault.mpr hsettled.mpr).alike hp h

end

-- A booking leaves the keys of the refunds alone, and what is spent on a delivery is booked under the key
-- of the delivery.
def Stmt.KeepsKeys : Stmt → Prop
  | .wallet (.credit _ _ _ opts) => ∀ D, opts.idempotencyKey ≠ some (.refund D) ∧
    opts.idempotencyKey ≠ some (.exceptionRefund D)
  | .wallet (.debit _ _ D key)   => key = some (.debit D)
  | _                            => True

-- The same for the bookings that a call makes on its own account.
def Call.KeepsKeys (c : Call) : Prop :=
  c.Nonneg ∧ ∀ x, c.Own x → x.KeepsKeys

def keysKept : Policy Stmt.sig Store Call where
  spawn := Call.KeepsKeys

-- What the rows of the ledger tell about each other.
structure Wallet.Linked (w : Wallet) : Prop where
  user   : ∀ r ∈ w.ledger.rows, (w.balances.find? r.userId).isSome
  debit  : ∀ r ∈ w.ledger.rows, ∀ D, WalletStmt.spends D r → r.idempotencyKey = some (.debit D)
  refund : ∀ r ∈ w.ledger.rows, ∀ D, r.idempotencyKey = some (.refund D) →
    ∃ r₀ ∈ w.ledger.rows, WalletStmt.spends D r₀ ∧
      Wallet.IsCredit r r₀.userId r₀.amount .checkoutRefund (refundOpts D (.refund D))

section

variable {x : Stmt} {c : Call} {db : Store} {D : DeliveryId} {r r' : WalletTransaction}

theorem Stmt.KeepsKeys.keyed (h : x.KeepsKeys) : x.Keyed := by
  cases x
  case wallet x =>
    cases x
    case credit => exact fun D => (h D).right
    case debit  =>
      intro D he
      obtain rfl := he
      exact nomatch h
    all_goals trivial
  all_goals trivial

theorem Stmt.Moneyless.keepsKeys (h : x.Moneyless) : x.KeepsKeys := by
  cases x
  case wallet x => cases x <;> trivial
  all_goals trivial

theorem Stmt.Books.keepsKeys {E : DeliveryId} (h : x.Books E) : x.KeepsKeys := by
  cases x
  case wallet x =>
    cases x
    case debit =>
      have ⟨he, hk⟩ := h
      exact he ▸ hk
    all_goals exact h.elim
  all_goals trivial

theorem Call.Makes.keepsKeys (h : c.Makes x) (hc : c.KeepsKeys) : x.KeepsKeys := by
  obtain h | ⟨_, h | h⟩ | h := h
  case inl         => exact h.keepsKeys
  case inr.inl.inl => exact h.keepsKeys
  case inr.inl.inr => obtain ⟨_, _, rfl⟩ | rfl := h <;> trivial
  case inr.inr     => exact hc.right x h

theorem Call.KeepsKeys.follows {P : Params} {t : Nat} (hc : c.KeepsKeys) :
    ((system P).prog t c).Follows (system P) t c (fun x _ => x.KeepsKeys) (fun _ _ => True) [] := by
  have single {α : Type} {p : App α} {es : List (Entry Stmt.sig Store Call)}
      (hp : Built (Single Stmt.KeepsKeys) p) : p.Follows (system P) t c (fun x _ => x.KeepsKeys)
        (fun _ _ => True) (fun _ _ => True) es :=
    Follows.of_built hp fun | .tx hx => follows_tx.mpr ⟨hx, fun _ => by split <;> trivial⟩
  have ⟨α, p, he, hp⟩ := Call.composed P t c
  rw [he]
  exact follows_toCall.mpr <| Follows.of_built hp fun
    | .tx h          => follows_tx.mpr ⟨h.keepsKeys hc, fun _ => by split <;> trivial⟩
    | .releasePromo  => single <| releaseForDelivery_built trivial fun _ => trivial
    | .refundCredits => single <| refundForDelivery_built trivial fun _ _ => trivial
    | .refundCharge  => single <| refundChargeToWallet_built trivial fun _ _ => trivial

theorem Wallet.BooksAll.users {w w' : Wallet} {rs : List WalletTransaction} (h : w.BooksAll w' rs) :
    ∀ r ∈ rs, (w.balances.find? r.userId).isSome := by
  induction h
  case nil => exact List.forall_mem_nil _
  case cons hb h ih =>
    have ⟨b, hf, _⟩ := h.balance
    refine List.forall_mem_cons.mpr ⟨?_, ih⟩
    rw [← hb.isSome_find?, hf]
    rfl

-- What is booked as spent carries the key of its delivery.
theorem Stmt.Row.debit (hr : x.Row r) (hx : x.KeepsKeys) (hs : WalletStmt.spends D r) :
    r.idempotencyKey = some (.debit D) := by
  have ⟨hd, ht, _⟩ := of_decide_eq_true hs
  cases x
  case wallet x =>
    cases x
    case debit U a E key =>
      obtain rfl := Option.some.inj <| hr.deliveryId.symm.trans hd
      exact hr.idempotencyKey.trans hx
    case credit              => exact nomatch hr.type.symm.trans ht
    case grantReferralReward => exact nomatch hr.type.symm.trans ht
    case refund              => exact nomatch hr.type.symm.trans ht
    all_goals exact hr.elim
  case refundCharge => exact nomatch hr.type.symm.trans ht
  case createDelivery =>
    obtain ⟨a, _, hr⟩ | hr := hr
    case inl =>
      obtain rfl := Option.some.inj <| hr.deliveryId.symm.trans hd
      exact hr.idempotencyKey
    case inr => exact nomatch hr.type.symm.trans ht
  all_goals exact hr.elim

-- What is booked under the key of a refund gives back what has been spent.
theorem Stmt.Row.refund (hr : x.Row r) (hx : x.KeepsKeys) (hf : x.Funded c db)
    (hk : r.idempotencyKey = some (.refund D)) :
    ∃ r₀ ∈ db.wallet.ledger.rows, WalletStmt.spends D r₀ ∧
      Wallet.IsCredit r r₀.userId r₀.amount .checkoutRefund (refundOpts D (.refund D)) := by
  have reward (hr : Wallet.IsReward r) : False := by
    obtain ⟨_, hk' | hk'⟩ := hr.key <;> exact nomatch hk'.symm.trans hk
  cases x
  case wallet x =>
    cases x
    case credit              => exact absurd (hr.idempotencyKey.symm.trans hk) (hx D).left
    case debit               => exact nomatch (hr.idempotencyKey.trans hx).symm.trans hk
    case grantReferralReward => exact (reward hr).elim
    case refund E U a =>
      obtain rfl := IdempotencyKey.refund.inj <| Option.some.inj <| hr.idempotencyKey.symm.trans hk
      obtain ⟨r₀, hm, hs, rfl, rfl⟩ := hf
      exact ⟨r₀, hm, hs, hr⟩
    all_goals exact hr.elim
  case refundCharge ch E U a =>
    have hk := hr.idempotencyKey.symm.trans hk
    cases ch <;> exact nomatch hk
  case createDelivery =>
    obtain ⟨_, _, hr⟩ | hr := hr
    case inl => exact nomatch hr.idempotencyKey.symm.trans hk
    case inr => exact (reward hr).elim
  all_goals exact hr.elim

theorem Wallet.Linked.exec (h : db.wallet.Linked) (hx : x.KeepsKeys) (hf : x.Funded c db) :
    (x.exec db).snd.wallet.Linked := by
  have ⟨rs, hb⟩ := x.exec_wallet db
  have keep {r : WalletTransaction} (hr : r ∈ db.wallet.ledger.rows) :
      r ∈ (x.exec db).snd.wallet.ledger.rows := (x.exec_extends db).ledger hr
  constructor <;> intro r hr <;> rw [hb.books.rows] at hr <;> obtain hr | hr := List.mem_append.mp hr
  case user.inl     => exact hb.books.isSome_find?.trans <| hb.books.users r hr
  case user.inr     => exact hb.books.isSome_find?.trans <| h.user r hr
  case debit.inl    => exact fun D => (hb.row r hr).debit hx
  case debit.inr    => exact h.debit r hr
  case refund.inl   =>
    intro D hk
    have ⟨r₀, hm, hs⟩ := (hb.row r hr).refund hx hf hk
    exact ⟨r₀, keep hm, hs⟩
  case refund.inr   =>
    intro D hk
    have ⟨r₀, hm, hs⟩ := h.refund r hr D hk
    exact ⟨r₀, keep hm, hs⟩

theorem Wallet.Linked.once {w : Wallet} (h : w.Linked) (hr : r ∈ w.ledger.rows) (hr' : r' ∈ w.ledger.rows)
    (hs : WalletStmt.spends D r) (hs' : WalletStmt.spends D r') : r = r' :=
  w.ledger.eq_of_key hr hr' (h.debit r hr D hs) (h.debit r' hr' D hs')

theorem Wallet.Linked.refunded {w : Wallet} (h : w.Linked) (hk : .refund D ∈ w.ledger.keys) :
    w.Refunded D := by
  have ⟨r', hr', hk'⟩ := List.mem_filterMap.mp hk
  have ⟨r₀, hr₀, hs₀, hc⟩ := h.refund r' hr' D hk'
  intro r hr hs
  obtain rfl := h.once hr hr₀ hs hs₀
  exact ⟨r', hr', hc⟩

-- Every store that can be reached is sound.
theorem sound_of_reachable {P : Params} {s : Pool Stmt.sig Store Call}
    (h : Reachable (system P) keysKept Store.Initial s) (D : DeliveryId) : s.db.Sound D := by
  have money {s : Pool Stmt.sig Store Call} (h : Reachable (system P) keysKept Store.Initial s) :=
    (moneyOutline.valid fun _ (hc : Call.KeepsKeys _) => hc.left).reachable h
  have kept {s : Pool Stmt.sig Store Call} {t : Nat} {c : Call} {x : Stmt}
      (st : StepOf (system P) keysKept Store.Initial s t c x) : x.KeepsKeys :=
    st.reachable.follows_aboutTo (F := fun _ _ x _ => Stmt.KeepsKeys x) (Q := fun _ _ _ => True)
      (fun _ _ hc => Call.KeepsKeys.follows hc) st.aboutTo
  have hs : s.db.Solvent := (money h).inv
  have hk : s.db.KeysHeld := by
    refine h.invariant (I := fun w => w.db.KeysHeld) (fun hi D hk => ?_) fun st hk => ?_
    case refine_1 => simp [hi.ledger, Ledger.empty, Ledger.keys] at hk
    case refine_2 => exact hk.exec (kept st).keyed
  have hl : s.db.wallet.Linked := by
    refine h.invariant (I := fun w => w.db.wallet.Linked) (fun hi => ?_) fun st hl => ?_
    case refine_1 => constructor <;> simp [hi.ledger, Ledger.empty]
    case refine_2 => exact hl.exec (kept st) <| (money st.reachable).pre st.aboutTo
  exact {
    user      := fun d hd => hs.users hd
    price     := by
      rintro ⟨p, hp, _⟩
      obtain ⟨d, hd, he, hpos⟩ := hs.payments hp
      exact ⟨d, hd, he ▸ hpos⟩
    spender   := fun r hr _ => hl.user r hr
    once      := fun r hr r' hr' hsp hsp' => by
      obtain rfl := hl.once hr hr' hsp hsp'
      exact ⟨rfl, rfl⟩
    refundKey := hl.refunded
    chargeKey := by
      rintro hm ⟨p, hp, hc⟩
      obtain ⟨q, hq, hr⟩ := hk D hm
      obtain rfl := Option.some.inj <| hp.symm.trans hq
      cases hc.symm.trans hr
  }

end

-- Given that its cleanup succeeds, a delivery that the watchdog reaps is made good if and only if the
-- recipient was not to blame for an earlier abort, unless there was nothing left to be returned.
theorem reaped_made_good {P : Params} {s : Pool Stmt.sig Store Call}
    (h : Reachable (system P) keysKept Store.Initial s) {D : DeliveryId} {d : Delivery}
    {faults : ScanFaults} (hd : s.db.deliveries.find? D = some d) (hn : d.status ≠ .deliveryFailed)
    (hf : faults.reap D = {}) (hr : (s.db.reaped faults).status D = some .deliveryFailed) :
    s.db.MadeGood (s.db.scanned faults) D ↔
      d.failureReason ≠ some .recipientUnavailable ∨ s.db.Settled D :=
  madeGood_scanned_iff (sound_of_reachable h D) hd hn hf hr

-- The first delivery has been paid for, and a scan fails it.
def Store.reapsPaid (db : Store) (reason : Option DeliveryFailureReason) : Bool :=
  (db.deliveries.find? 1).any (fun d => d.status ≠ .deliveryFailed ∧ d.failureReason = reason) ∧
    (db.payments.table.find? 1).any (·.status = .completed) ∧
    (db.reaped {}).status 1 = some .deliveryFailed

theorem Store.of_reapsPaid {db : Store} {reason : Option DeliveryFailureReason}
    (h : db.reapsPaid reason) : ∃ d, db.deliveries.find? 1 = some d ∧ d.status ≠ .deliveryFailed ∧
      d.failureReason = reason ∧ db.Captured 1 ∧ (db.reaped {}).status 1 = some .deliveryFailed := by
  have ⟨hd, hp, hr⟩ := of_decide_eq_true h
  have ⟨d, hd, hs⟩ := (Option.any_eq_true _ _).mp hd
  have ⟨p, hp, hps⟩ := (Option.any_eq_true _ _).mp hp
  have ⟨hn, hreason⟩ := of_decide_eq_true hs
  exact ⟨d, hd, hn, hreason, ⟨p, hp, of_decide_eq_true hps⟩, hr⟩

theorem reaped_made_good_silent :
    ∃ s, Reachable (system .small) keysKept Store.Initial s ∧ s.db.Captured 1 ∧
      (s.db.reaped {}).status 1 = some .deliveryFailed ∧ s.db.MadeGood (s.db.scanned {}) 1 := by
  let s := (Pool.init .small).runCmds (system .small) silentRun
  have h : Reachable (system .small) keysKept Store.Initial s := by
    refine Reachable.runCmds_of_calls silentRun (.init Store.small_initial) ?_
    simp only [silentRun, Cmd.run, List.flatten_cons, List.flatten_nil, List.append_nil,
      List.mem_append, List.mem_cons, List.mem_replicate]
    rintro cmd ((rfl | ⟨_, rfl⟩) | (rfl | ⟨_, rfl⟩) | (rfl | ⟨_, rfl⟩))
    case inl.inl     => exact ⟨trivial, fun _ => False.elim⟩
    case inr.inl.inl => exact ⟨trivial, fun _ => False.elim⟩
    case inr.inr.inl => exact ⟨trivial, fun _ => False.elim⟩
    all_goals trivial
  have hp : s.db.reapsPaid none := by decide +kernel
  obtain ⟨d, hd, hn, hf, hc, hr⟩ := Store.of_reapsPaid hp
  exact ⟨s, h, hc, hr, (reaped_made_good h hd hn rfl hr).mpr <| .inl <| by simp [hf]⟩

-- The drone of a live delivery reports that it returns with the package because nobody was there to
-- receive it, and then remains silent for twenty minutes.
def TelemetryMessage.undelivered : TelemetryMessage :=
  { TelemetryMessage.pickup with
    phase         := some <| .exception .returning
    failureReason := some .recipientUnavailable }

def undeliveredRun : List (Cmd Call) :=
  List.flatten [
    Cmd.run 1 (.create .small) 12, Cmd.run 2 (.ingest .pickup true {}) 5,
    Cmd.run 3 (.ingest .undelivered true {}) 10, Cmd.run 4 (.passTime 1200000) 1]

theorem reaped_not_made_good :
    ¬∀ (P : Params) (s : Pool Stmt.sig Store Call), Reachable (system P) {} Store.Initial s →
      ∀ D d, s.db.deliveries.find? D = some d → d.status ≠ .deliveryFailed →
        (s.db.reaped {}).status D = some .deliveryFailed → s.db.MadeGood (s.db.scanned {}) D := by
  intro h
  let s := (Pool.init .small).runCmds (system .small) undeliveredRun
  have hs : Reachable (system .small) {} Store.Initial s :=
    Reachable.runCmds_of_free undeliveredRun (.init Store.small_initial)
  have hp : s.db.reapsPaid (some .recipientUnavailable) := by decide +kernel
  have ⟨d, hd, hn, _, _, hr⟩ := Store.of_reapsPaid hp
  have still : ((s.db.scanned {}).payments.table.find? 1).any (·.status = .completed) := by decide +kernel
  have ⟨p, hp, hps⟩ := (Option.any_eq_true _ _).mp still
  exact (h .small s hs 1 d hd hn hr).settled.charge ⟨p, hp, of_decide_eq_true hps⟩

end Drovery
