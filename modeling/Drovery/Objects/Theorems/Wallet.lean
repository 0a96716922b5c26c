import Mathlib.Algebra.Order.BigOperators.Group.List
import Mathlib.Tactic.Linarith
import Drovery.Objects.Payment
import Drovery.Execution.Theorems.Store

namespace Drovery

namespace WalletTransaction

variable {r : WalletTransaction}

theorem delta_credit (h : r.type = .credit) : r.delta = r.amount := by
  simp [delta, h]

theorem delta_debit (h : r.type = .debit) : r.delta = -r.amount := by
  simp [delta, h]

end WalletTransaction

namespace Ledger

variable {rows : List WalletTransaction} {r : WalletTransaction} {U : UserId}

-- The sum of the transactions that satisfy `p`.
def sum (p : WalletTransaction → Bool) (rows : List WalletTransaction) : Cents :=
  rows.filter p |>.map (·.amount) |>.sum

-- The sum of a user's transactions of one type.
def total (type : WalletTxnType) (rows : List WalletTransaction) (U : UserId) : Cents :=
  sum (fun r => r.userId = U ∧ r.type = type) rows

theorem sum_cons {p : WalletTransaction → Bool} :
    sum p (r :: rows) = (if p r then r.amount else 0) + sum p rows := by
  by_cases h : p r <;> simp [sum, h]

theorem sum_append {p : WalletTransaction → Bool} {rows' : List WalletTransaction} :
    sum p (rows ++ rows') = sum p rows + sum p rows' := by
  simp [sum]

theorem sum_nonneg {p : WalletTransaction → Bool} (h : ∀ r ∈ rows, 0 ≤ r.amount) :
    0 ≤ sum p rows := by
  refine List.sum_nonneg fun a ha => ?_
  obtain ⟨r, hr, rfl⟩ := List.mem_map.mp ha
  exact h r (List.mem_of_mem_filter hr)

theorem amount_le_sum {p : WalletTransaction → Bool} (h : ∀ r ∈ rows, 0 ≤ r.amount) (hm : r ∈ rows)
    (hp : p r) : r.amount ≤ sum p rows := by
  refine List.single_le_sum (fun a ha => ?_) _ (List.mem_map_of_mem <| List.mem_filter.mpr ⟨hm, hp⟩)
  obtain ⟨r, hr, rfl⟩ := List.mem_map.mp ha
  exact h r (List.mem_of_mem_filter hr)

theorem sum_eq_zero {p : WalletTransaction → Bool} (h : ∀ r ∈ rows, ¬p r) : sum p rows = 0 := by
  simp [sum, List.filter_eq_nil_iff.mpr h]

theorem sum_le_add {p q q' : WalletTransaction → Bool} (h : ∀ r ∈ rows, 0 ≤ r.amount)
    (hp : ∀ r ∈ rows, p r → q r ∨ q' r) : sum p rows ≤ sum q rows + sum q' rows := by
  induction rows
  case nil => exact le_rfl
  case cons r rows ih =>
    have ha := h r (.head _)
    have hr := hp r (.head _)
    have := ih (fun r hm => h r <| .tail _ hm) (fun r hm => hp r <| .tail _ hm)
    simp only [sum_cons]
    by_cases hpr : p r
    case pos =>
      have hq : r.amount ≤ (if q r then r.amount else 0) + (if q' r then r.amount else 0) := by
        cases hr hpr
        case inl hq  => rw [if_pos hq]; split <;> linarith only [ha]
        case inr hq' => rw [if_pos hq']; split <;> linarith only [ha]
      rw [if_pos hpr]
      linarith only [this, hq]
    case neg =>
      rw [if_neg hpr]
      split <;> split <;> linarith only [ha, this]

theorem countP_le_count_key {k : IdempotencyKey} {p : WalletTransaction → Bool}
    (h : ∀ r ∈ rows, p r → r.idempotencyKey = some k) :
    rows.countP p ≤ (rows.filterMap (·.idempotencyKey)).count k := by
  induction rows
  case nil => exact le_rfl
  case cons r rows ih =>
    have ih := ih fun r hm => h r <| .tail _ hm
    have hr := h r (.head _)
    cases hk : r.idempotencyKey <;> by_cases hp : p r <;> simp_all [List.count_cons]
    omega

-- At most one transaction is booked under a key.
theorem countP_key_le {l : Ledger} {k : IdempotencyKey} {p : WalletTransaction → Bool}
    (h : ∀ r ∈ l.rows, p r → r.idempotencyKey = some k) : l.rows.countP p ≤ 1 :=
  (countP_le_count_key h).trans <| List.nodup_iff_count_le_one.mp l.nodup k

theorem total_cons {type : WalletTxnType} : total type (r :: rows) U =
    (if r.userId = U ∧ r.type = type then r.amount else 0) + total type rows U := by
  simp [total, sum_cons]

theorem balance_eq_total : balance rows U = total .credit rows U - total .debit rows U := by
  induction rows
  case nil => rfl
  case cons r rows ih =>
    rw [balance_cons, total_cons, total_cons, ih]
    by_cases hu : r.userId = U <;> cases ht : r.type <;>
      simp only [hu, ht, WalletTransaction.delta, true_and, false_and, if_true, if_false,
        reduceCtorEq] <;> linarith

end Ledger

namespace Wallet

-- The wallet `w'` results from `w` by booking the transaction `r`.
structure Books (w w' : Wallet) (r : WalletTransaction) : Prop where
  balance  : ∃ b, w.balances.find? r.userId = some b ∧ r.balanceAfter = b + r.delta ∧
    (r.type = .debit → r.amount ≤ b)
  balances : w'.balances = w.balances.modify r.userId (· + r.delta)
  ledger   : w.ledger.insert r = some w'.ledger

-- The wallet `w'` results from `w` by booking some transactions, where the latest comes first.
inductive BooksAll (w : Wallet) : Wallet → List WalletTransaction → Prop
  | nil {w'} : w'.balances = w.balances → w'.ledger = w.ledger → BooksAll w w' []
  | cons {w₁ w' r rs} : BooksAll w w₁ rs → Books w₁ w' r → BooksAll w w' (r :: rs)

namespace BooksAll

variable {w w' : Wallet} {r : WalletTransaction} {rs : List WalletTransaction}

theorem refl : BooksAll w w [] :=
  .nil rfl rfl

theorem single (h : Books w w' r) : BooksAll w w' [r] :=
  .cons .refl h

theorem rows (h : BooksAll w w' rs) : w'.ledger.rows = rs ++ w.ledger.rows := by
  induction h
  case nil h         => simp [h]
  case cons h ih     => simp [Ledger.rows_insert h.ledger, ih]

theorem trans {w₁ : Wallet} {rs' : List WalletTransaction} (h₁ : BooksAll w w₁ rs)
    (h₂ : BooksAll w₁ w' rs') : BooksAll w w' (rs' ++ rs) := by
  induction h₂
  case nil hb hl =>
    cases h₁
    case nil hb' hl'  => exact .nil (hb.trans hb') (hl.trans hl')
    case cons h₁ h₂   => exact .cons h₁ ⟨h₂.balance, hb.trans h₂.balances, hl ▸ h₂.ledger⟩
  case cons h ih => exact .cons ih h

-- The keys of the new transactions were still unused.
theorem fresh {k : IdempotencyKey} (h : BooksAll w w' rs) (hr : r ∈ rs)
    (hk : r.idempotencyKey = some k) : k ∉ w.ledger.keys := by
  intro hm
  have hn := w'.ledger.nodup
  rw [h.rows, List.filterMap_append] at hn
  have := List.disjoint_of_nodup_append hn
  exact this (List.mem_filterMap.mpr ⟨r, hr, hk⟩) hm

-- Users do not disappear.
theorem isSome_find? {U : UserId} (h : BooksAll w w' rs) :
    (w'.balances.find? U).isSome = (w.balances.find? U).isSome := by
  induction h
  case nil h _ => rw [h]
  case cons h ih =>
    rw [h.balances, Table.find?_modify, ← ih]
    split
    case isFalse => rfl
    case isTrue he => simp [he]

end BooksAll

section

variable {w w' : Wallet} {U : UserId} {amount : Cents} {reason : WalletTxnReason}
variable {opts : WalletTxnOpts} {D : DeliveryId} {key : Option IdempotencyKey}

-- The columns of the transaction that a credit books.
structure IsCredit (r : WalletTransaction) (U : UserId) (amount : Cents) (reason : WalletTxnReason)
    (opts : WalletTxnOpts) : Prop where
  userId         : r.userId = U
  type           : r.type = .credit
  reason         : r.reason = reason
  amount         : r.amount = amount
  deliveryId     : r.deliveryId = opts.deliveryId
  idempotencyKey : r.idempotencyKey = opts.idempotencyKey

-- The columns of the transaction that a debit books.
structure IsDebit (r : WalletTransaction) (U : UserId) (amount : Cents) (D : DeliveryId)
    (key : Option IdempotencyKey) : Prop where
  userId         : r.userId = U
  type           : r.type = .debit
  reason         : r.reason = .checkoutSpend
  amount         : r.amount = amount
  deliveryId     : r.deliveryId = some D
  idempotencyKey : r.idempotencyKey = key

theorem creditWithinTx_ok (h : w.creditWithinTx U amount reason opts = .ok w') :
    ∃ r, Books w w' r ∧ IsCredit r U amount reason opts ∧ w'.referrals = w.referrals := by
  unfold creditWithinTx at h
  split at h
  case h_1 => contradiction
  case h_2 b hb =>
    dsimp only at h
    split at h
    case h_1 => contradiction
    case h_2 l hl =>
      obtain rfl := Except.ok.inj h
      exact ⟨_, ⟨⟨b, hb, rfl, by simp⟩, rfl, hl⟩, ⟨rfl, rfl, rfl, rfl, rfl, rfl⟩, rfl⟩

-- A credit goes through unless its key has been used before.
theorem creditWithinTx_isOk (hu : (w.balances.find? U).isSome)
    (hk : ∀ k, opts.idempotencyKey = some k → k ∉ w.ledger.keys) :
    ∃ w', w.creditWithinTx U amount reason opts = .ok w' := by
  obtain ⟨b, hb⟩ := Option.isSome_iff_exists.mp hu
  unfold creditWithinTx
  simp only [hb]
  split
  case h_2 => exact ⟨_, rfl⟩
  case h_1 hi =>
    refine absurd hi ?_
    rw [Ledger.insert, dif_pos]
    case hc => exact hk
    simp

theorem debitWithinTx_ok (h : w.debitWithinTx U amount D key = .ok w') :
    ∃ r, Books w w' r ∧ IsDebit r U amount D key ∧ w'.referrals = w.referrals := by
  unfold debitWithinTx at h
  -- The guard has matched, so that the balance covers the amount.
  obtain ⟨b, hb, ha⟩ | hn : (∃ b, w.balances.find? U = some b ∧ amount ≤ b) ∨
      (w.balances.cas U (amount ≤ ·) (· - amount)).fst = 0 := by
    cases hf : w.balances.find? U <;> simp [Table.cas_count, hf, le_or_gt]
  case inr => simp [hn] at h
  case inl =>
    rw [Table.cas_of_guard hb (decide_eq_true ha)] at h
    simp only [Nat.one_ne_zero, if_false, Table.find?_modify_self, hb, Option.map_some,
      Option.getD_some] at h
    split at h
    case h_1 => contradiction
    case h_2 l hl =>
      obtain rfl := Except.ok.inj h
      refine ⟨_, ⟨⟨b, hb, ?_, fun _ => ha⟩, ?_, hl⟩, ⟨rfl, rfl, rfl, rfl, rfl, rfl⟩, rfl⟩
      case refine_1 => exact Int.sub_eq_add_neg
      case refine_2 => simp [WalletTransaction.delta, Int.sub_eq_add_neg]

-- A transaction that rewards a referral. It does not belong to any delivery.
structure IsReward (r : WalletTransaction) : Prop where
  type       : r.type = .credit
  deliveryId : r.deliveryId = none
  amount     : 0 ≤ r.amount
  key        : ∃ ref, r.idempotencyKey = some (.referralReferrer ref) ∨
    r.idempotencyKey = some (.referralReferee ref)

-- The keys of the rewards that are due for a user who has been referred.
def RewardKey (w : Wallet) (U : UserId) (k : IdempotencyKey) : Prop :=
  ∃ ref, w.referrals.find? U = some ref ∧ ref.status = .pending ∧ ref.referrerId ≠ U ∧
    (k = .referralReferrer ref.id ∨ k = .referralReferee ref.id)

theorem maybeGrantReferralRewardWithinTx_ok
    (h : w.maybeGrantReferralRewardWithinTx U = .ok w') :
    ∃ rs, BooksAll w w' rs ∧ (∀ r ∈ rs, IsReward r) ∧
      ∀ k, w.RewardKey U k → ∃ r ∈ rs, r.idempotencyKey = some k := by
  unfold maybeGrantReferralRewardWithinTx at h
  split at h
  case h_1 hn =>
    obtain rfl := Except.ok.inj h
    refine ⟨[], .refl, by simp, fun k hk => ?_⟩
    obtain ⟨_, hr, _⟩ := hk
    simp [hn] at hr
  case h_2 ref hf =>
    split at h
    case isTrue hc =>
      obtain rfl := Except.ok.inj h
      refine ⟨[], .refl, by simp, fun k hk => ?_⟩
      obtain ⟨ref', hr, hp, hne, _⟩ := hk
      obtain rfl := Option.some.inj <| hf.symm.trans hr
      exact absurd hc (by simp [hp, hne])
    case isFalse =>
      obtain ⟨w₁, h₁, h₂⟩ := parts_of_bind h
      obtain ⟨r₁, hr₁, hc₁, _⟩ := creditWithinTx_ok h₁
      obtain ⟨r₂, hr₂, hc₂, _⟩ := creditWithinTx_ok h₂
      refine ⟨[r₂, r₁], .cons (.cons .refl ⟨hr₁.balance, hr₁.balances, hr₁.ledger⟩) hr₂, ?_, ?_⟩
      case refine_1 =>
        simp only [List.mem_cons, List.not_mem_nil, or_false, forall_eq_or_imp, forall_eq]
        refine ⟨⟨hc₂.type, hc₂.deliveryId, ?_, ?_⟩, ⟨hc₁.type, hc₁.deliveryId, ?_, ?_⟩⟩
        case refine_1 => simp [hc₂.amount, refereeReward]
        case refine_2 => exact ⟨_, .inr hc₂.idempotencyKey⟩
        case refine_3 => simp [hc₁.amount, referrerReward]
        case refine_4 => exact ⟨_, .inl hc₁.idempotencyKey⟩
      case refine_2 =>
        rintro k ⟨ref', hr, _, _, hk⟩
        obtain rfl := Option.some.inj <| hf.symm.trans hr
        obtain rfl | rfl := hk
        case inl => exact ⟨r₁, by simp, hc₁.idempotencyKey⟩
        case inr => exact ⟨r₂, by simp, hc₂.idempotencyKey⟩

end

-- The balances are the net effect of a ledger without gaps.
structure Balanced (w : Wallet) : Prop where
  balance  : ∀ {U b}, w.balances.find? U = some b → b = Ledger.balance w.ledger.rows U
  nonneg   : ∀ {U b}, w.balances.find? U = some b → 0 ≤ b
  snapshot : ∀ {newer r older}, w.ledger.rows = newer ++ r :: older →
    r.balanceAfter = Ledger.balance (r :: older) r.userId
  amounts  : ∀ {r}, r ∈ w.ledger.rows → 0 ≤ r.amount

namespace Balanced

variable {w w' : Wallet} {r : WalletTransaction} {rs : List WalletTransaction}

theorem booked (h : w.Balanced) (hb : Books w w' r) (ha : 0 ≤ r.amount) : w'.Balanced := by
  obtain ⟨b, hf, hs, hd⟩ := hb.balance
  have hrows := Ledger.rows_insert hb.ledger
  have hold := h.balance hf
  have hpos : 0 ≤ b + r.delta := by
    have := h.nonneg hf
    cases ht : r.type
    case credit => rw [r.delta_credit ht]; linarith
    case debit  => rw [r.delta_debit ht]; linarith [hd ht]
  constructor
  case balance =>
    intro U b' h'
    rw [hb.balances, Table.find?_modify] at h'
    rw [hrows, Ledger.balance_cons]
    split at h'
    case isTrue he =>
      subst he
      simp only [hf, Option.map_some, Option.some.injEq] at h'
      simp only [if_true]; linarith
    case isFalse hne =>
      rw [if_neg (Ne.symm hne), h.balance h', zero_add]
  case nonneg =>
    intro U b' h'
    rw [hb.balances, Table.find?_modify] at h'
    split at h'
    case isTrue =>
      simp only [hf, Option.map_some, Option.some.injEq] at h'
      exact h' ▸ hpos
    case isFalse => exact h.nonneg h'
  case snapshot =>
    intro newer r' older he
    rw [hrows] at he
    cases newer
    case nil =>
      obtain ⟨rfl, rfl⟩ := List.cons.inj he
      rw [Ledger.balance_cons, if_pos rfl]; linarith
    case cons => exact h.snapshot (List.cons.inj he).right
  case amounts =>
    intro r' hr
    rw [hrows] at hr
    cases List.mem_cons.mp hr
    case inl he => exact he ▸ ha
    case inr hm => exact h.amounts hm

theorem bookedAll (h : w.Balanced) (hb : BooksAll w w' rs) (ha : ∀ r ∈ rs, 0 ≤ r.amount) :
    w'.Balanced := by
  induction hb
  case nil hb hl =>
    exact ⟨hb ▸ hl ▸ h.balance, hb ▸ h.nonneg, hl ▸ h.snapshot, hl ▸ h.amounts⟩
  case cons hr ih =>
    exact (ih fun r hm => ha r <| .tail _ hm).booked hr <| ha _ <| .head _

end Balanced

end Wallet

end Drovery
