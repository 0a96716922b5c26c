import Drovery.Theorems.Wallet

namespace Drovery

open Concurrency Method Outline

namespace WalletTransaction

-- A credit for a delivery.
def refunds (D : DeliveryId) (r : WalletTransaction) : Bool :=
  r.deliveryId = some D ∧ r.type = .credit

-- The credit that returns the credits spent on a delivery.
def creditLeg (D : DeliveryId) (r : WalletTransaction) : Bool :=
  r.refunds D ∧ r.idempotencyKey = some (.refund D)

-- The credits that return the charge of a delivery, through either channel.
def cardLeg (D : DeliveryId) (r : WalletTransaction) : Bool :=
  r.refunds D ∧ (r.idempotencyKey = some (RefundChannel.automatic.key D) ∨
    r.idempotencyKey = some (RefundChannel.admin.key D))

variable {D E : DeliveryId} {r : WalletTransaction} {U : UserId} {amount : Cents}

theorem refunds_of_creditLeg (h : r.creditLeg D) : r.refunds D := by
  simp_all [creditLeg]

theorem refunds_of_cardLeg (h : r.cardLeg D) : r.refunds D := by
  simp_all [cardLeg]

theorem not_refunds_of_debit (h : r.type = .debit) : ¬r.refunds D := by
  simp [refunds, h]

theorem not_refunds_of_ne (h : r.deliveryId ≠ some D) : ¬r.refunds D := by
  simp [refunds, h]

theorem creditLeg_of_refund
    (h : Wallet.IsCredit r U amount .checkoutRefund (refundOpts D (.refund D))) : r.creditLeg D := by
  simp [creditLeg, refunds, h.deliveryId, h.type, h.idempotencyKey]

theorem not_cardLeg_of_refund
    (h : Wallet.IsCredit r U amount .checkoutRefund (refundOpts D (.refund D))) :
    ¬r.cardLeg E := by
  simp [cardLeg, h.idempotencyKey, RefundChannel.key]

theorem cardLeg_of_refundCharge {ch : RefundChannel}
    (h : Wallet.IsCredit r U amount .checkoutRefund (refundOpts D (ch.key D))) : r.cardLeg D := by
  cases ch <;> simp [cardLeg, refunds, h.deliveryId, h.type, h.idempotencyKey]

theorem not_creditLeg_of_refundCharge {ch : RefundChannel}
    (h : Wallet.IsCredit r U amount .checkoutRefund (refundOpts D (ch.key D))) :
    ¬r.creditLeg E := by
  cases ch <;> simp [creditLeg, h.idempotencyKey, RefundChannel.key]

end WalletTransaction

open WalletTransaction WalletStmt

-- What has been returned for a delivery is covered by what was paid for it. The payment stands for
-- the charge: it is marked as refunded as soon as the charge has been returned.
structure Store.Refunds (db : Store) (D : DeliveryId) : Prop where
  legs   : ∀ r ∈ db.wallet.ledger.rows, r.refunds D → r.creditLeg D ∨ r.cardLeg D
  credit : Ledger.sum (creditLeg D) db.wallet.ledger.rows ≤
    Ledger.sum (spends D) db.wallet.ledger.rows
  card   : (∀ r ∈ db.wallet.ledger.rows, ¬r.cardLeg D) ∨
    ∃ p, db.payments.table.find? D = some p ∧ p.status = .refunded ∧
      db.wallet.ledger.rows.countP (cardLeg D) = 1 ∧
      Ledger.sum (cardLeg D) db.wallet.ledger.rows ≤ p.amount

namespace Stmt

variable {x : Stmt} {c : Call} {db : Store} {D : DeliveryId}

-- A refunded payment stays refunded.
theorem find?_refunded {p : Payment} (hp : db.payments.table.find? D = some p)
    (hs : p.status = .refunded) : (x.exec db).snd.payments.table.find? D = some p := by
  have := x.paymentChange db D
  generalize he : (x.exec db).snd.payments.table.find? D = q at this ⊢
  cases this
  case same          => exact hp
  case created hn    => simp [hp] at hn
  case notified target q _ _ hq ha =>
    obtain rfl := Option.some.inj <| hp.symm.trans hq
    simp only [Payments.applies, hs, decide_eq_true_eq] at ha
    cases target <;> simp [advanceFrom] at ha
  case refunded ch _ _ q _ _ hq hr _ _ =>
    obtain rfl := Option.some.inj <| hp.symm.trans hq
    cases ch <;> simp [RefundChannel.refundable, hs] at hr

end Stmt

-- Free-standing credits are not booked on a delivery.
def Call.Orderly : Call → Prop
  | .credit _ amount _ opts _ => 0 ≤ amount ∧ opts.deliveryId = none
  | .debit _ amount _ _ _     => 0 ≤ amount
  | _                         => True

theorem Call.Orderly.nonneg {c : Call} (h : c.Orderly) : c.Nonneg := by
  cases c
  case credit => exact h.left
  case debit  => exact h
  all_goals trivial

namespace Store.Refunds

variable {x : Stmt} {c : Call} {db db' : Store} {D : DeliveryId} {rs : List WalletTransaction}

-- Transactions that do not refund the delivery.
theorem unrelated (h : db.Refunds D) (hr : db'.wallet.ledger.rows = rs ++ db.wallet.ledger.rows)
    (hn : ∀ r ∈ rs, ¬r.refunds D) (ha : ∀ r ∈ rs, 0 ≤ r.amount)
    (hp : ∀ {p}, db.payments.table.find? D = some p → p.status = .refunded →
      db'.payments.table.find? D = some p) : db'.Refunds D := by
  have hcr : ∀ r ∈ rs, ¬r.creditLeg D := fun r hm hl => hn r hm <| refunds_of_creditLeg hl
  have hca : ∀ r ∈ rs, ¬r.cardLeg D := fun r hm hl => hn r hm <| refunds_of_cardLeg hl
  constructor <;> rw [hr]
  case legs =>
    intro r hm hrf
    cases List.mem_append.mp hm
    case inl hm => exact absurd hrf <| hn r hm
    case inr hm => exact h.legs r hm hrf
  case credit =>
    rw [Ledger.sum_append, Ledger.sum_append, Ledger.sum_eq_zero hcr, zero_add]
    linarith [h.credit, Ledger.sum_nonneg (p := spends D) ha]
  case card =>
    obtain h | ⟨p, hf, hs, hc, hle⟩ := h.card
    case inl =>
      refine .inl fun r hm => ?_
      cases List.mem_append.mp hm
      case inl hm => exact hca r hm
      case inr hm => exact h r hm
    case inr =>
      refine .inr ⟨p, hp hf hs, hs, ?_, ?_⟩
      case refine_1 => rw [List.countP_append, List.countP_eq_zero.mpr hca, hc]
      case refine_2 => rwa [Ledger.sum_append, Ledger.sum_eq_zero hca, zero_add]

-- The credits that were spent are returned.
theorem refundCredits {U : UserId} {a : Cents} {w : Wallet} {r : WalletTransaction}
    (h : db.Refunds D) (hs : db.Solvent) (hf : (Stmt.wallet (.refund D U a)).Funded c db)
    (hb : db.wallet.Books w r)
    (hr : Wallet.IsCredit r U a .checkoutRefund (refundOpts D (.refund D))) :
    ({ db with wallet := w } : Store).Refunds D := by
  have hrows : w.ledger.rows = r :: db.wallet.ledger.rows := Ledger.rows_insert hb.ledger
  have hl := creditLeg_of_refund hr
  have hca : ¬r.cardLeg D := not_cardLeg_of_refund hr
  constructor <;> simp only [hrows]
  case legs =>
    simp only [List.mem_cons, forall_eq_or_imp]
    exact ⟨fun _ => .inl hl, h.legs⟩
  case credit =>
    -- The credits have not been returned before, as the key was still unused.
    have hz : Ledger.sum (creditLeg D) db.wallet.ledger.rows = 0 := by
      refine Ledger.sum_eq_zero fun r' hm hl' => ?_
      have hk : r'.idempotencyKey = some (.refund D) := by simp_all [creditLeg]
      exact Ledger.key_of_insert hb.ledger hr.idempotencyKey (List.mem_filterMap.mpr ⟨r', hm, hk⟩)
    have hsp : ¬spends D r := by simp [spends, hr.type]
    obtain ⟨s, hm, hsp', _, ha⟩ := hf
    have := Ledger.amount_le_sum (fun _ => hs.wallet.amounts) hm hsp'
    rw [Ledger.sum_cons, Ledger.sum_cons, hz, if_pos hl, if_neg hsp, hr.amount]
    linarith
  case card =>
    rw [List.countP_cons_of_neg hca, Ledger.sum_cons, if_neg hca, zero_add]
    refine h.card.imp_left fun h => ?_
    simp only [List.mem_cons, forall_eq_or_imp]
    exact ⟨hca, h⟩

-- The charge is returned.
theorem refundCharge {ch : RefundChannel} {U : UserId} {a : Cents} {w : Wallet} {p : Payment}
    {r : WalletTransaction} (h : db.Refunds D) (hs : db.Solvent)
    (hf : (Stmt.refundCharge ch D U a).Funded c db) (hp : db.payments.table.find? D = some p)
    (hc : ch.refundable p.status) (hb : db.wallet.Books w r)
    (hr : Wallet.IsCredit r U a .checkoutRefund (refundOpts D (ch.key D))) :
    ({ db with
      payments := { db.payments with
        table := db.payments.table.modify D ({ · with status := .refunded }) }
      wallet   := w } : Store).Refunds D := by
  have hrows : w.ledger.rows = r :: db.wallet.ledger.rows := Ledger.rows_insert hb.ledger
  have hl := cardLeg_of_refundCharge hr
  have hcr : ¬r.creditLeg D := not_creditLeg_of_refundCharge hr
  have hsp : ¬spends D r := by simp [spends, hr.type]
  -- The charge has not been returned before, as the payment was still refundable.
  have hn : ∀ r ∈ db.wallet.ledger.rows, ¬r.cardLeg D := by
    obtain h | ⟨q, hq, hs, _⟩ := h.card
    case inl => exact h
    case inr =>
      obtain rfl := Option.some.inj <| hp.symm.trans hq
      cases ch <;> simp [RefundChannel.refundable, hs] at hc
  constructor <;> simp only [hrows]
  case legs =>
    simp only [List.mem_cons, forall_eq_or_imp]
    exact ⟨fun _ => .inr hl, h.legs⟩
  case credit =>
    rw [Ledger.sum_cons, Ledger.sum_cons, if_neg hcr, if_neg hsp, zero_add, zero_add]
    exact h.credit
  case card =>
    obtain ⟨d, hd, _, _, hle, _⟩ := hf
    obtain ⟨d', hd', he, _⟩ := hs.payments hp
    obtain rfl := Option.some.inj <| hd.symm.trans hd'
    refine .inr ⟨{ p with status := .refunded }, by simp [hp], rfl, ?_, ?_⟩
    case refine_1 => rw [List.countP_cons_of_pos hl, List.countP_eq_zero.mpr hn]
    case refine_2 =>
      rw [Ledger.sum_cons, if_pos hl, Ledger.sum_eq_zero hn, hr.amount]
      linarith

theorem exec (h : db.Refunds D) (hs : db.Solvent) (hf : x.Funded c db) (hc : c.Orderly) :
    (x.exec db).snd.Refunds D := by
  have ⟨rs, hb⟩ := x.exec_wallet db
  have other (hn : ∀ r, x.Row r → ¬r.refunds D) : (x.exec db).snd.Refunds D :=
    h.unrelated hb.books.rows (fun r hm => hn r <| hb.row r hm)
      (fun r hm => (hb.row r hm).amount_nonneg hs hf) Stmt.find?_refunded
  cases x
  case wallet x =>
    cases x
    case credit =>
      obtain ⟨_, _, rfl⟩ := hf
      exact other fun r hr => not_refunds_of_ne (by simp [hr.deliveryId, hc.right])
    case debit => exact other fun r hr => not_refunds_of_debit hr.type
    case grantReferralReward => exact other fun r hr => not_refunds_of_ne (by simp [hr.deliveryId])
    case refund E U a =>
      by_cases he : E = D
      case neg => exact other fun r hr => not_refunds_of_ne (by simp [hr.deliveryId, he])
      case pos =>
        subst he
        simp only [Stmt.exec, WalletStmt.exec]
        obtain hn | hok := commit_snd (s := db.wallet) (r := db.wallet.refund E U a)
        case inl => rw [hn]; exact h
        case inr =>
          obtain ⟨r, hb, hr, _⟩ := Wallet.creditWithinTx_ok hok
          exact h.refundCredits hs hf hb hr
    all_goals exact other fun _ => False.elim
  case refundCharge ch E U a =>
    by_cases he : E = D
    case neg => exact other fun r hr => not_refunds_of_ne (by simp [hr.deliveryId, he])
    case pos =>
      subst he
      obtain hn | ⟨p, r, ps, w, hp, hc, hb, hr, rfl, he⟩ := Stmt.refundCharge_cases ch E U a db
      case inl => rw [hn]; exact h
      case inr => rw [he]; exact h.refundCharge hs hf hp hc hb hr
  case createDelivery =>
    refine other fun r hr => ?_
    obtain ⟨_, _, hr⟩ | hr := hr
    case inl => exact not_refunds_of_debit hr.type
    case inr => exact not_refunds_of_ne (by simp [hr.deliveryId])
  all_goals exact other fun _ => False.elim

theorem of_reachable {P : Params} {s : Pool Stmt.sig Store Call}
    (h : Reachable (system P) { spawn := Call.Orderly } Store.Initial s) : s.db.Refunds D := by
  refine h.invariant (I := fun w => w.db.Refunds D) (fun hi => ?_) (fun st hr => ?_)
  case refine_1 =>
    constructor <;> simp [hi.ledger, Ledger.empty, Ledger.sum]
  case refine_2 =>
    have ho := (moneyOutline.valid fun _ => Call.Orderly.nonneg).reachable st.reachable
    exact hr.exec ho.inv (ho.pre st.aboutTo) st.spawned

end Store.Refunds

-- Neither part of the price is returned twice, and never more than what was paid.
theorem refund_bound {P : Params} {s : Pool Stmt.sig Store Call}
    (h : Reachable (system P) { spawn := Call.Orderly } Store.Initial s) (D : DeliveryId) :
    let rows := s.db.wallet.ledger.rows
    rows.countP (creditLeg D) ≤ 1 ∧ rows.countP (cardLeg D) ≤ 1 ∧
    ((∃ r ∈ rows, r.cardLeg D) →
      ∃ p, s.db.payments.table.find? D = some p ∧ p.status = .refunded) ∧
    Ledger.sum (refunds D) rows ≤ Ledger.sum (spends D) rows +
      ((s.db.payments.table.find? D).map (·.amount)).getD 0 := by
  have hr : s.db.Refunds D := .of_reachable h
  have hs : s.db.Solvent :=
    (moneyOutline.valid fun _ => Call.Orderly.nonneg).reachable h |>.inv
  have hsum := Ledger.sum_le_add (p := refunds D) (fun _ => hs.wallet.amounts) hr.legs
  refine ⟨Ledger.countP_key_le (k := .refund D) fun r _ hl => by simp_all [creditLeg], ?_⟩
  obtain hn | ⟨p, hp, hst, hc, hle⟩ := hr.card
  case inl =>
    have hz : Ledger.sum (cardLeg D) s.db.wallet.ledger.rows = 0 := Ledger.sum_eq_zero hn
    refine ⟨by simp [List.countP_eq_zero.mpr hn], fun ⟨r, hm, hl⟩ => absurd hl <| hn r hm, ?_⟩
    have hpos : 0 ≤ ((s.db.payments.table.find? D).map (·.amount)).getD 0 := by
      cases hp : s.db.payments.table.find? D
      case none   => exact le_rfl
      case some p => exact (hs.payments hp).choose_spec.right.right.le
    linarith [hr.credit]
  case inr =>
    refine ⟨hc.le, fun _ => ⟨p, hp, hst⟩, ?_⟩
    simp only [hp, Option.map_some, Option.getD_some]
    linarith [hr.credit]

-- A delivery is paid with credits and by card, and both parts are refunded while an administrator
-- attempts to refund the charge a second time.
def refundRun : List (Cmd Call) :=
  List.flatten [
    Cmd.run 1 (.grantReferralReward 1 .committed) 1, Cmd.run 2 (.create .small) 10,
    Cmd.run 3 (.refundForDelivery 2 .committed) 2, Cmd.run 4 (.adminRefund 2 none .committed) 1,
    Cmd.run 5 (.refundChargeToWallet 2 .committed) 2, [.exec 4]]

theorem refund_bound_tight :
    let s := (Pool.init .small).runCmds (system .small) refundRun
    let rows := s.db.wallet.ledger.rows
    (rows.countP (creditLeg 2) = 1 ∧ rows.countP (cardLeg 2) = 1 ∧
      Ledger.sum (refunds 2) rows = 700) ∧
    Ledger.sum (refunds 2) rows ≤ Ledger.sum (spends 2) rows +
      ((s.db.payments.table.find? 2).map (·.amount)).getD 0 := by
  have h := refund_bound (P := .small) (Reachable.runCmds_of_calls refundRun
    (.init Store.small_initial) (by simp [refundRun, Cmd.run, Cmd.Calls, Call.Orderly])) 2
  exact ⟨by decide, h.2.2.2⟩

end Drovery
