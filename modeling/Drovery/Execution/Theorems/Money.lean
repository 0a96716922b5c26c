import Drovery.Objects.Theorems.Wallet
import Drovery.Services.Theorems.Blocks

namespace Drovery

open Concurrency Method

-- The optional columns of a transaction that returns money for a delivery.
abbrev refundOpts (D : DeliveryId) (key : IdempotencyKey) : WalletTxnOpts :=
  { deliveryId := some D, idempotencyKey := some key }

namespace RefundChannel

variable {ch : RefundChannel} {ps ps' : Payments} {w w' : Wallet} {D : DeliveryId} {U : UserId}
variable {amount : Cents}

-- A refund of the charge either does nothing, or it takes a payment that was still refundable and
-- books its amount.
theorem refundWithinTx_ok (h : ch.refundWithinTx ps w D U amount = .ok (ps', w')) :
    ps' = ps ∧ w' = w ∧ (∀ p, ps.table.find? D = some p → ch.refundable p.status = false) ∨
    ∃ p r, ps.table.find? D = some p ∧ ch.refundable p.status ∧ w.Books w' r ∧
      Wallet.IsCredit r U amount .checkoutRefund (refundOpts D (ch.key D)) ∧
      ps' = { ps with table := ps.table.modify D ({ · with status := .refunded }) } := by
  unfold refundWithinTx Payments.refund at h
  by_cases hc : ∃ p, ps.table.find? D = some p ∧ ch.refundable p.status
  case neg =>
    have hn : (ps.table.cas D (ch.refundable ·.status) ({ · with status := .refunded })).fst = 0 :=
      Table.cas_count_eq_zero_iff.mpr fun p hp hr => hc ⟨p, hp, hr⟩
    simp only [hn, if_true] at h
    cases ch
    case admin => contradiction
    case automatic =>
      obtain ⟨rfl, rfl⟩ := Prod.mk.inj <| Except.ok.inj h
      refine .inl ⟨rfl, rfl, fun p hp => ?_⟩
      exact Bool.eq_false_iff.mpr fun hr => hc ⟨p, hp, hr⟩
  case pos =>
    obtain ⟨p, hp, hr⟩ := hc
    rw [Table.cas_of_guard hp hr] at h
    obtain ⟨w₁, hw, he⟩ := parts_of_bind h
    obtain ⟨r, hb, hcr, _⟩ := Wallet.creditWithinTx_ok hw
    obtain ⟨rfl, rfl⟩ := Prod.mk.inj <| Except.ok.inj he
    exact .inr ⟨p, r, hp, hr, hb, hcr, rfl⟩

end RefundChannel

namespace Stmt

variable {x : Stmt} {db : Store} {D : DeliveryId}

-- The transactions that a statement may book.
def Row : Stmt → WalletTransaction → Prop
  | .wallet (.credit U a reason opts), r    => Wallet.IsCredit r U a reason opts
  | .wallet (.debit U a D key), r           => Wallet.IsDebit r U a D key
  | .wallet (.grantReferralReward _), r     => Wallet.IsReward r
  | .wallet (.refund D U a), r              =>
    Wallet.IsCredit r U a .checkoutRefund (refundOpts D (.refund D))
  | .refundCharge ch D U a, r               =>
    Wallet.IsCredit r U a .checkoutRefund (refundOpts D (ch.key D))
  | .createDelivery D row booking, r        =>
    (∃ a, booking.debit = some a ∧ Wallet.IsDebit r row.userId a D (some <| .debit D)) ∨ Wallet.IsReward r
  | _, _                                    => False

-- What a refund of the charge does to the store.
theorem refundCharge_cases (ch : RefundChannel) (D : DeliveryId) (U : UserId) (amount : Cents)
    (db : Store) :
    ((Stmt.refundCharge ch D U amount).exec db).snd = db ∨
    ∃ p r ps w, db.payments.table.find? D = some p ∧ ch.refundable p.status ∧ db.wallet.Books w r ∧
      Wallet.IsCredit r U amount .checkoutRefund (refundOpts D (ch.key D)) ∧
      ps = { db.payments with
        table := db.payments.table.modify D ({ · with status := .refunded }) } ∧
      ((Stmt.refundCharge ch D U amount).exec db).snd = { db with payments := ps, wallet := w } := by
  simp only [exec]
  obtain h | h := commit_snd (s := db) (r := db.refundCharge ch D U amount)
  case inl => exact .inl h
  case inr =>
    obtain ⟨ps, w, hr, he⟩ := Store.refundCharge_ok h
    obtain ⟨rfl, rfl, _⟩ | ⟨p, r, hp, hs, hb, hc, rfl⟩ := RefundChannel.refundWithinTx_ok hr
    case inl => exact .inl he
    case inr => exact .inr ⟨p, r, _, w, hp, hs, hb, hc, rfl, he⟩

-- The keys under which a statement is to book its transactions.
def Key (db : Store) : Stmt → IdempotencyKey → Prop
  | .wallet (.credit _ _ _ opts), k      => opts.idempotencyKey = some k
  | .wallet (.debit _ _ _ key), k        => key = some k
  | .wallet (.grantReferralReward U), k  => db.wallet.RewardKey U k
  | .wallet (.refund D _ _), k           => k = .refund D
  | .refundCharge ch D _ _, k            => k = ch.key D
  | .createDelivery D row booking, k     =>
    booking.debit.isSome ∧ k = .debit D ∨
      booking.referral = some .inline ∧ db.wallet.RewardKey row.userId k
  | _, _                                 => False

-- The effect of a statement on the wallet, which consists in booking the transactions `rs`.
structure Booked (x : Stmt) (db : Store) (rs : List WalletTransaction) : Prop where
  books : db.wallet.BooksAll (x.exec db).snd.wallet rs
  row   : ∀ r ∈ rs, x.Row r
  key   : ∀ k, x.Key db k → rs ≠ [] → ∃ r ∈ rs, r.idempotencyKey = some k

namespace Booked

theorem none (h : (x.exec db).snd.wallet = db.wallet) : ∃ rs, x.Booked db rs :=
  ⟨[], h ▸ .refl, by simp, by simp⟩

theorem one {r : WalletTransaction} (hb : db.wallet.Books (x.exec db).snd.wallet r) (hr : x.Row r)
    (hk : ∀ k, x.Key db k → r.idempotencyKey = some k) : ∃ rs, x.Booked db rs :=
  ⟨[r], .single hb, by simpa using hr, fun k h _ => ⟨r, by simp, hk k h⟩⟩

end Booked

theorem createDelivery_booked (D : DeliveryId) (row : Delivery) (booking : Booking) (db : Store) :
    ∃ rs, (Stmt.createDelivery D row booking).Booked db rs := by
  obtain h | h := commit_snd (s := db) (r := db.createDelivery D row booking)
  case inl => exact Booked.none (congrArg Store.wallet h)
  case inr =>
    obtain ⟨hc⟩ := Store.createDelivery_ok h
    have ⟨rs, hb, hr, hd, href⟩ : ∃ rs, db.wallet.BooksAll hc.debited rs ∧
        (∀ r ∈ rs, ∃ a, booking.debit = some a ∧
          Wallet.IsDebit r row.userId a D (some <| .debit D)) ∧
        (booking.debit.isSome → ∃ r ∈ rs, r.idempotencyKey = some (.debit D)) ∧
        hc.debited.referrals = db.wallet.referrals := by
      obtain ⟨hn, he⟩ | ⟨a, ha, hd⟩ := hc.debit
      case inl => exact ⟨[], he ▸ .refl, by simp, by simp [hn], by rw [he]⟩
      case inr =>
        obtain ⟨r, hb, hr, href⟩ := Wallet.debitWithinTx_ok hd
        exact ⟨[r], .single hb, by simpa using ⟨a, ha, hr⟩,
          fun _ => ⟨r, by simp, hr.idempotencyKey⟩, href⟩
    obtain ⟨hn, he⟩ | ⟨_, hg⟩ := hc.referral
    case inl =>
      refine ⟨rs, he ▸ hb, fun r hm => .inl <| hr r hm, fun k hk _ => ?_⟩
      obtain ⟨hs, rfl⟩ | ⟨hi, _⟩ := hk
      case inl => exact hd hs
      case inr => exact absurd hi hn
    case inr =>
      have ⟨rs', hb', hr', hk'⟩ := Wallet.maybeGrantReferralRewardWithinTx_ok hg
      refine ⟨rs' ++ rs, hb.trans hb', fun r hm => ?_, fun k hk _ => ?_⟩
      case refine_1 =>
        cases List.mem_append.mp hm
        case inl hm => exact .inr <| hr' r hm
        case inr hm => exact .inl <| hr r hm
      case refine_2 =>
        obtain ⟨hs, rfl⟩ | ⟨_, hk⟩ := hk
        case inl =>
          obtain ⟨r, hm, hk⟩ := hd hs
          exact ⟨r, List.mem_append_right _ hm, hk⟩
        case inr =>
          rw [Wallet.RewardKey, ← href] at hk
          obtain ⟨r, hm, hk⟩ := hk' k hk
          exact ⟨r, List.mem_append_left _ hm, hk⟩

theorem exec_wallet (x : Stmt) (db : Store) : ∃ rs, x.Booked db rs := by
  cases x
  case wallet x =>
    cases x
    case findBalance         => exact Booked.none rfl
    case findPendingReferral => exact Booked.none rfl
    case findSpend           => exact Booked.none rfl
    case credit U a reason opts =>
      obtain h | h := commit_snd (s := db.wallet) (r := db.wallet.creditWithinTx U a reason opts)
      case inl => exact Booked.none h
      case inr =>
        obtain ⟨r, hb, hr, _⟩ := Wallet.creditWithinTx_ok h
        exact Booked.one hb hr fun _ hk => hr.idempotencyKey.trans hk
    case debit U a E key =>
      obtain h | h := commit_snd (s := db.wallet) (r := db.wallet.debitWithinTx U a E key)
      case inl => exact Booked.none h
      case inr =>
        obtain ⟨r, hb, hr, _⟩ := Wallet.debitWithinTx_ok h
        exact Booked.one hb hr fun _ hk => hr.idempotencyKey.trans hk
    case grantReferralReward U =>
      obtain h | h := commit_snd (s := db.wallet) (r := db.wallet.maybeGrantReferralRewardWithinTx U)
      case inl => exact Booked.none h
      case inr =>
        have ⟨rs, hb, hr, hk⟩ := Wallet.maybeGrantReferralRewardWithinTx_ok h
        exact ⟨rs, hb, hr, fun k h _ => hk k h⟩
    case refund E U a =>
      obtain h | h := commit_snd (s := db.wallet) (r := db.wallet.refund E U a)
      case inl => exact Booked.none h
      case inr =>
        obtain ⟨r, hb, hr, _⟩ := Wallet.creditWithinTx_ok h
        exact Booked.one hb hr fun _ hk => hk ▸ hr.idempotencyKey
  case refundCharge ch E U a =>
    obtain h | ⟨p, r, ps, w, _, _, hb, hr, _, h⟩ := refundCharge_cases ch E U a db
    case inl => exact Booked.none (by rw [h])
    case inr => exact Booked.one (h ▸ hb) hr fun _ hk => hk ▸ hr.idempotencyKey
  case createDelivery E row booking => exact createDelivery_booked E row booking db
  case effect x => cases x <;> exact Booked.none rfl
  all_goals exact Booked.none rfl

-- A statement that would have to book a key for the second time books nothing at all.
theorem replay {k : IdempotencyKey} (hk : x.Key db k) (hm : k ∈ db.wallet.ledger.keys) :
    (x.exec db).snd.wallet.balances = db.wallet.balances ∧
      (x.exec db).snd.wallet.ledger = db.wallet.ledger := by
  obtain ⟨rs, hb, _, hkey⟩ := x.exec_wallet db
  cases rs
  case nil => cases hb with | nil h h' => exact ⟨h, h'⟩
  case cons =>
    obtain ⟨r, hr, hrk⟩ := hkey k hk (by simp)
    exact absurd hm <| hb.fresh hr hrk

-- What a statement can do to the payment of a delivery.
inductive PaymentChange (db : Store) (D : DeliveryId) (x : Stmt) : Option Payment → Prop
  | same : PaymentChange db D x (db.payments.table.find? D)
  | created {p} :
    x = .payment (.create D p) → db.payments.table.find? D = none → PaymentChange db D x (some p)
  | notified {id type intentId target p} :
    x = .payment (.webhook id type intentId) → webhookStatus type = some target →
    db.payments.table.find? D = some p → Payments.applies intentId target p →
    PaymentChange db D x (some { p with status := target })
  | refunded {ch U amount p r} :
    x = .refundCharge ch D U amount → db.payments.table.find? D = some p →
    ch.refundable p.status → db.wallet.Books (x.exec db).snd.wallet r →
    Wallet.IsCredit r U amount .checkoutRefund (refundOpts D (ch.key D)) →
    PaymentChange db D x (some { p with status := .refunded })

theorem find?_applyStatus (ps : Payments) (type : WebhookType) (I : IntentId) :
    (ps.applyStatus type I).snd.table.find? D = ps.table.find? D ∨
    ∃ target p, webhookStatus type = some target ∧ ps.table.find? D = some p ∧
      Payments.applies I target p ∧
      (ps.applyStatus type I).snd.table.find? D = some { p with status := target } := by
  unfold Payments.applyStatus
  split
  case h_1 => exact .inl rfl
  case h_2 target ht =>
    simp only [Table.find?_updateMany]
    cases hp : ps.table.find? D
    case none => exact .inl rfl
    case some p =>
      by_cases ha : Payments.applies I target p
      case pos => exact .inr ⟨target, p, ht, rfl, ha, by simp [ha]⟩
      case neg => exact .inl (by simp [ha])

theorem paymentChange (x : Stmt) (db : Store) (D : DeliveryId) :
    PaymentChange db D x ((x.exec db).snd.payments.table.find? D) := by
  cases x
  case payment x =>
    cases x
    case find => exact .same
    case create E p =>
      simp only [exec, PaymentStmt.exec]
      split
      case h_1 => exact .same
      case h_2 t ht =>
        rw [Table.find?_insert ht]
        split
        case isFalse => exact .same
        case isTrue h => subst h; exact .created rfl (Table.find?_of_insert ht)
    case webhook id type I =>
      have step {ps : Payments} (hps : ps.table = db.payments.table) :
          PaymentChange db D (.payment (.webhook id type I))
            ((ps.applyStatus type I).snd.table.find? D) := by
        obtain h | ⟨target, p, ht, hp, ha, h⟩ := find?_applyStatus (D := D) ps type I
        case inl => rw [h, hps]; exact .same
        case inr => rw [h]; exact .notified rfl ht (hps ▸ hp) ha
      simp only [exec, PaymentStmt.exec, Payments.handleWebhook]
      split
      case h_1 => exact step rfl
      case h_2 =>
        split
        case h_1 => exact .same
        case h_2 => exact step rfl
  case refundCharge ch E U a =>
    obtain h | ⟨p, r, ps, w, hp, hs, hb, hr, rfl, h⟩ := refundCharge_cases ch E U a db
    case inl => rw [h]; exact .same
    case inr =>
      rw [h]
      simp only [Table.find?_modify]
      split
      case isFalse => exact .same
      case isTrue he =>
        subst he
        rw [hp]
        exact .refunded rfl hp hs (h ▸ hb) hr
  case createDelivery E row booking =>
    simp only [exec]
    obtain h | h := commit_snd (s := db) (r := db.createDelivery E row booking)
    case inl => rw [h]; exact .same
    case inr =>
      obtain ⟨hc⟩ := Store.createDelivery_ok h
      rw [hc.payments]; exact .same
  case effect x => cases x <;> exact .same
  all_goals exact .same

end Stmt

end Drovery
