import Drovery.Concurrency.Agreement
import Drovery.Services.Create
import Drovery.Services.Reaper

-- In debit-first mode a creation reserves the same, and gives back the same, whether it runs on the
-- platform or on the part of it that the reaper deals with.
namespace Drovery.Reaper

open Concurrency

variable {D : DeliveryId} {s : Store} {t : Drovery.Store}

-- The wallet and the promotions are the same.
structure Shares (s : Store) (t : Drovery.Store) : Prop where
  clock  : s.clock = t.clock
  wallet : s.wallet = t.wallet
  promos : s.promos = t.promos

-- The outcomes of the same two transactions.
def ReverseFaults.ofCreate (faults : Drovery.CreateFaults) : ReverseFaults where
  refund  := faults.refundCredits
  release := faults.releasePromo

-- What a creation reserves for its order.
def CreateInput.ofOrder (inp : Drovery.CreateInput) (order : Order) : CreateInput where
  userId         := inp.userId
  promo          := order.promo.map fun (P, _) => (P, order.originalTotal, order.discount)
  creditsToApply := order.creditsToApply
  trackingId     := inp.trackingId
  promoFault     := inp.faults.promo
  debitFault     := inp.faults.debit
  deliveryFault  := inp.faults.delivery
  reverseFaults  := .ofCreate inp.faults

theorem agree_refundForDelivery {fault : Fault} (h : Shares s t) :
    Agree Shares ((WalletService.refundForDelivery D fault).eval Stmt.exec s)
      ((Drovery.WalletService.refundForDelivery D fault).eval Drovery.Stmt.exec t) := by
  unfold WalletService.refundForDelivery Drovery.WalletService.refundForDelivery
  rw [Method.eval_stmt_bind, Method.eval_stmt_bind]
  simp only [Stmt.exec, Drovery.Stmt.exec, WalletStmt.exec, h.wallet]
  cases t.wallet.ledger.rows.reverse.find? (WalletStmt.spends D)
  case none => exact ⟨rfl, h⟩
  case some spend =>
    refine Agree.method_handle (Agree.method_attempt h ?_) fun e s t h => ?_
    case refine_1 =>
      rw [Method.eval_tx, Method.eval_tx]
      simp only [Stmt.exec, Drovery.Stmt.exec, WalletStmt.exec, Store.refund, h.wallet]
      cases t.wallet.refund D spend.userId spend.amount
      case error => exact ⟨rfl, h⟩
      case ok    => exact ⟨rfl, h.clock, rfl, h.promos⟩
    case refine_2 => split <;> exact ⟨rfl, h⟩

theorem agree_releaseForDelivery {fault : Fault} (h : Shares s t) :
    Agree Shares ((PromoService.releaseForDelivery D fault).eval Stmt.exec s)
      ((Drovery.PromoService.releaseForDelivery D fault).eval Drovery.Stmt.exec t) := by
  unfold PromoService.releaseForDelivery Drovery.PromoService.releaseForDelivery
  rw [Method.eval_stmt_bind, Method.eval_stmt_bind]
  simp only [Stmt.exec, Drovery.Stmt.exec, PromoStmt.exec, h.promos]
  cases (t.promos.redemptions.table.find? D).filter fun r => r.status = .redeemed
  case none => exact ⟨rfl, h⟩
  case some redemption =>
    refine Agree.method_attempt h ?_
    rw [Method.eval_stmt, Method.eval_stmt]
    simp only [Stmt.exec, Drovery.Stmt.exec, PromoStmt.exec, h.clock, h.promos]
    exact ⟨rfl, rfl, h.wallet, rfl⟩

theorem agree_redeemPromo {inp : Drovery.CreateInput} {order : Order} (h : Shares s t) :
    Agree Shares ((DeliveriesService.redeemPromo D (.ofOrder inp order)).eval Stmt.exec s)
      ((Drovery.DeliveriesService.redeemPromo D inp order).eval Drovery.Stmt.exec t) := by
  unfold DeliveriesService.redeemPromo Drovery.DeliveriesService.redeemPromo CreateInput.ofOrder
  cases order.promo
  case none => exact ⟨rfl, h⟩
  case some promo =>
    refine Agree.method_attempt h ?_
    rw [Method.eval_tx, Method.eval_tx]
    simp only [Stmt.exec, Drovery.Stmt.exec, PromoStmt.exec, Store.redeem, h.clock, h.promos]
    cases t.promos.redeemWithinTx t.clock promo.fst inp.userId D order.originalTotal order.discount
    case error => exact ⟨rfl, h⟩
    case ok    => exact ⟨rfl, rfl, h.wallet, rfl⟩

theorem agree_debitCredits {inp : Drovery.CreateInput} {order : Order} (h : Shares s t) :
    Agree Shares ((DeliveriesService.debitCredits D (.ofOrder inp order)).eval Stmt.exec s)
      ((Drovery.DeliveriesService.debitCredits D inp order).eval Drovery.Stmt.exec t) := by
  unfold DeliveriesService.debitCredits Drovery.DeliveriesService.debitCredits CreateInput.ofOrder
  dsimp only
  split
  case isTrue =>
    refine Agree.method_attempt h ?_
    rw [Method.eval_tx, Method.eval_tx]
    simp only [Stmt.exec, Drovery.Stmt.exec, WalletStmt.exec, Store.debit, h.wallet]
    cases t.wallet.debitWithinTx inp.userId order.creditsToApply D (some <| .debit D)
    case error => exact ⟨rfl, h⟩
    case ok    => exact ⟨rfl, h.clock, rfl, h.promos⟩
  case isFalse => exact ⟨rfl, h⟩

theorem agree_compensateReservations (faults : Drovery.CreateFaults) (h : Shares s t) :
    Agree Shares
      ((DeliveriesService.compensateReservations D (.ofCreate faults)).eval Stmt.exec s)
      ((Drovery.DeliveriesService.compensateReservations D faults).eval Drovery.Stmt.exec t) :=
  (agree_releaseForDelivery h).method_safe.method_bind fun _ _ _ h =>
    (agree_refundForDelivery h).method_safe

theorem Shares.release (X : Option DroneId) (faults : Drovery.CreateFaults) (h : Shares s t) :
    ∃ t', (Drovery.DeliveriesService.releaseClaimedAircraft X D faults).eval Drovery.Stmt.exec t =
      (.ok (), t') ∧ Shares s t' := by
  unfold Drovery.DeliveriesService.releaseClaimedAircraft DispatchService.release
  cases X
  case none => exact ⟨t, rfl, h⟩
  case some =>
    refine ⟨_, Method.eval_safe, ?_⟩
    cases faults.releaseAirframe <;> exact ⟨h.clock, h.wallet, h.promos⟩

-- A claimed aircraft is given back as well, which is of no concern to the wallet and the promotions.
theorem agree_abandon {P : Params} {inp : Drovery.CreateInput} {dispatched : DispatchDecision}
    (hP : P.debitFirst) (h : Shares s t) :
    Agree Shares
      ((DeliveriesService.compensateReservations D (.ofCreate inp.faults)).eval Stmt.exec s)
      ((Drovery.DeliveriesService.abandon P D inp dispatched).eval Drovery.Stmt.exec t) := by
  unfold Drovery.DeliveriesService.abandon Drovery.DeliveriesService.undoReservations
  rw [if_pos hP, Method.eval_bind]
  obtain ⟨a, s, t, hp, hq, h⟩ | ⟨e, s, t, hp, hq, h⟩ :=
    (agree_compensateReservations (D := D) inp.faults h).cases <;> rw [hp, hq]
  case inl =>
    obtain ⟨t', ht, h'⟩ := h.release (D := D) dispatched.droneId inp.faults
    dsimp only
    rw [ht]
    exact ⟨rfl, h'⟩
  case inr => exact ⟨rfl, h⟩

theorem agree_reserve {P : Params} {inp : Drovery.CreateInput} {order : Order}
    {dispatched : DispatchDecision} (hP : P.debitFirst) (h : Shares s t) :
    Agree Shares ((DeliveriesService.reserve D (.ofOrder inp order)).eval Stmt.exec s)
      ((Drovery.DeliveriesService.reserve P D inp order dispatched).eval Drovery.Stmt.exec t) := by
  unfold DeliveriesService.reserve Drovery.DeliveriesService.reserve
  rw [if_pos hP]
  refine Agree.method_handle ?_ fun e s t h => ?_
  case refine_1 =>
    exact (agree_redeemPromo h).method_bind fun _ _ _ h => agree_debitCredits h
  case refine_2 => exact (agree_abandon hP h).method_bind fun _ _ _ h => ⟨rfl, h⟩

end Drovery.Reaper
