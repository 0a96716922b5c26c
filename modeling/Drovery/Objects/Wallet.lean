import Mathlib.Algebra.BigOperators.Group.List.Basic
import Mathlib.Algebra.Ring.Int.Defs
import Drovery.Objects.Delivery

namespace Drovery

inductive WalletTxnType
  | credit
  | debit
  deriving DecidableEq

inductive WalletTxnReason
  | referralReward
  | refereeReward
  | checkoutSpend
  | checkoutRefund
  deriving DecidableEq

-- The keys that make a movement of credits happen at most once.
inductive IdempotencyKey
  | debit (D : DeliveryId)
  | refund (D : DeliveryId)
  | exceptionRefund (D : DeliveryId)
  | adminRefund (D : DeliveryId)
  | referralReferrer (R : ReferralId)
  | referralReferee (R : ReferralId)
  deriving DecidableEq

structure WalletTransaction where
  userId         : UserId
  type           : WalletTxnType
  reason         : WalletTxnReason
  amount         : Cents
  balanceAfter   : Cents
  deliveryId     : Option DeliveryId
  referralId     : Option ReferralId
  idempotencyKey : Option IdempotencyKey
  deriving DecidableEq

-- What a transaction does to the balance of its user.
def WalletTransaction.delta (r : WalletTransaction) : Cents :=
  match r.type with
  | .credit => r.amount
  | .debit  => -r.amount

-- The append-only ledger, where the latest transaction comes first. No key occurs twice.
structure Ledger where
  rows  : List WalletTransaction
  nodup : (rows.filterMap (·.idempotencyKey)).Nodup

namespace Ledger

def empty : Ledger where
  rows  := []
  nodup := List.nodup_nil

def keys (l : Ledger) : List IdempotencyKey :=
  l.rows.filterMap (·.idempotencyKey)

-- Appends a transaction, unless its key has already been used.
def insert (l : Ledger) (r : WalletTransaction) : Option Ledger :=
  if h : ∀ k ∈ r.idempotencyKey, k ∉ l.keys then
    some {
      rows  := r :: l.rows
      nodup := by
        cases hk : r.idempotencyKey <;> simp only [List.filterMap_cons, hk]
        case none => exact l.nodup
        case some => exact List.nodup_cons.mpr ⟨h _ hk, l.nodup⟩
    }
  else
    none

-- The net effect of all transactions of a user.
def balance (rows : List WalletTransaction) (U : UserId) : Cents :=
  rows.filter (·.userId = U) |>.map (·.delta) |>.sum

variable {l l' : Ledger} {r : WalletTransaction} {rows : List WalletTransaction} {U : UserId}

theorem rows_insert (h : l.insert r = some l') : l'.rows = r :: l.rows := by
  simp only [insert, Option.dite_none_right_eq_some, Option.some.injEq] at h
  obtain ⟨_, rfl⟩ := h
  rfl

theorem key_of_insert {k : IdempotencyKey} (h : l.insert r = some l')
    (hk : r.idempotencyKey = some k) : k ∉ l.keys := by
  simp only [insert, Option.dite_none_right_eq_some] at h
  obtain ⟨hn, _⟩ := h
  exact hn k hk

@[simp]
theorem balance_nil : balance [] U = 0 :=
  rfl

theorem balance_cons :
    balance (r :: rows) U = (if r.userId = U then r.delta else 0) + balance rows U := by
  by_cases h : r.userId = U <;> simp [balance, h]

-- Two transactions with the same key are the same transaction.
theorem eq_of_key {r r' : WalletTransaction} {k : IdempotencyKey} (h : r ∈ l.rows)
    (h' : r' ∈ l.rows) (hk : r.idempotencyKey = some k) (hk' : r'.idempotencyKey = some k) :
    r = r' := by
  obtain ⟨rows, nodup⟩ := l
  induction rows
  case nil => simp at h
  case cons hd tl ih =>
    have mem {r} (hm : r ∈ tl) (hk : r.idempotencyKey = some k) :
        k ∈ tl.filterMap (·.idempotencyKey) :=
      List.mem_filterMap.mpr ⟨r, hm, hk⟩
    have tail : (tl.filterMap (·.idempotencyKey)).Nodup := by
      cases hd' : hd.idempotencyKey <;> simp only [List.filterMap_cons, hd'] at nodup
      case none => exact nodup
      case some => exact (List.nodup_cons.mp nodup).right
    have head (hd' : hd.idempotencyKey = some k) : k ∉ tl.filterMap (·.idempotencyKey) := by
      simp only [List.filterMap_cons, hd'] at nodup
      exact (List.nodup_cons.mp nodup).left
    cases List.mem_cons.mp h <;> cases List.mem_cons.mp h'
    case inl.inl h₁ h₂ => exact h₁.trans h₂.symm
    case inl.inr h₁ h₂ => exact absurd (mem h₂ hk') (head <| h₁ ▸ hk)
    case inr.inl h₁ h₂ => exact absurd (mem h₁ hk) (head <| h₂ ▸ hk')
    case inr.inr h₁ h₂ => exact ih tail h₁ h₂

end Ledger

inductive ReferralStatus
  | pending
  | rewarded
  deriving DecidableEq

structure Referral where
  id         : ReferralId
  referrerId : UserId
  status     : ReferralStatus

structure Wallet where
  -- The credit balance of each user.
  balances  : Table UserId Cents
  ledger    : Ledger
  -- The referrals by the user who has been referred.
  referrals : Table UserId Referral

def referrerReward : Cents := 500
def refereeReward : Cents := 500

-- The optional columns of a transaction.
structure WalletTxnOpts where
  deliveryId     : Option DeliveryId     := none
  referralId     : Option ReferralId     := none
  idempotencyKey : Option IdempotencyKey := none

namespace Wallet

def creditWithinTx (w : Wallet) (userId : UserId) (amount : Cents) (reason : WalletTxnReason)
    (opts : WalletTxnOpts) : Except AppError Wallet :=
  match w.balances.find? userId with
  | none         => .error .recordNotFound
  | some balance =>
    let row : WalletTransaction := {
      userId         := userId
      type           := .credit
      reason         := reason
      amount         := amount
      balanceAfter   := balance + amount
      deliveryId     := opts.deliveryId
      referralId     := opts.referralId
      idempotencyKey := opts.idempotencyKey
    }
    match w.ledger.insert row with
    | none        => .error <| .p2002 .walletIdempotencyKey
    | some ledger => .ok { w with balances := w.balances.modify userId (· + amount), ledger }

-- The balance only ever decreases under the condition that it covers the amount.
def debitWithinTx (w : Wallet) (userId : UserId) (amount : Cents) (deliveryId : DeliveryId)
    (idempotencyKey : Option IdempotencyKey) : Except AppError Wallet :=
  let (count, balances) := w.balances.cas userId (amount ≤ ·) (· - amount)
  if count = 0 then
    .error <| .conflict "error.wallet.insufficient_credits"
  else
    let row : WalletTransaction := {
      userId         := userId
      type           := .debit
      reason         := .checkoutSpend
      amount         := amount
      balanceAfter   := (balances.find? userId).getD 0
      deliveryId     := some deliveryId
      referralId     := none
      idempotencyKey := idempotencyKey
    }
    match w.ledger.insert row with
    | none        => .error <| .p2002 .walletIdempotencyKey
    | some ledger => .ok { w with balances, ledger }

-- Credits both parties of a referral, provided that the referral is still pending.
def maybeGrantReferralRewardWithinTx (w : Wallet) (refereeId : UserId) : Except AppError Wallet :=
  match w.referrals.find? refereeId with
  | none     => .ok w
  | some ref =>
    if ref.status ≠ .pending ∨ ref.referrerId = refereeId then
      .ok w
    else do
      let w := { w with referrals := w.referrals.modify refereeId ({ · with status := .rewarded }) }
      let w ← w.creditWithinTx ref.referrerId referrerReward .referralReward
        { referralId := some ref.id, idempotencyKey := some <| .referralReferrer ref.id }
      w.creditWithinTx refereeId refereeReward .refereeReward
        { referralId := some ref.id, idempotencyKey := some <| .referralReferee ref.id }

-- The transaction of `refundForDelivery`.
def refund (w : Wallet) (D : DeliveryId) (userId : UserId) (amount : Cents) :
    Except AppError Wallet :=
  w.creditWithinTx userId amount .checkoutRefund
    { deliveryId := some D, idempotencyKey := some <| .refund D }

end Wallet

-- The wallet transactions and the reads around them.
inductive WalletStmt
  | findBalance (U : UserId)
  | findPendingReferral (U : UserId)
  -- The transaction that spent credits on a delivery.
  | findSpend (D : DeliveryId)
  | credit (U : UserId) (amount : Cents) (reason : WalletTxnReason) (opts : WalletTxnOpts)
  | debit (U : UserId) (amount : Cents) (D : DeliveryId) (key : Option IdempotencyKey)
  | grantReferralReward (U : UserId)
  | refund (D : DeliveryId) (U : UserId) (amount : Cents)

-- A transaction either commits as a whole or leaves the store as it was.
def commit {ε σ : Type} (s : σ) : Except ε σ → Except ε Unit × σ
  | .ok s'   => (.ok (), s')
  | .error e => (.error e, s)

-- What holds before a write that may fail also holds after it, if every successful write preserves it.
theorem commit_preserves {ε σ : Type} {I : σ → Prop} {s : σ} {r : Except ε σ} (h : I s)
    (hr : ∀ s', r = .ok s' → I s') : I (commit s r).snd := by
  cases r
  case ok    => exact hr _ rfl
  case error => exact h

namespace WalletStmt

@[reducible]
def Res : WalletStmt → Type
  | findBalance _         => Option Cents
  | findPendingReferral _ => Option Referral
  | findSpend _           => Option WalletTransaction
  | credit ..             => Except AppError Unit
  | debit ..              => Except AppError Unit
  | grantReferralReward _ => Except AppError Unit
  | refund ..             => Except AppError Unit

def spends (D : DeliveryId) (r : WalletTransaction) : Bool :=
  r.deliveryId = some D ∧ r.type = .debit ∧ r.reason = .checkoutSpend

def exec : (x : WalletStmt) → Wallet → x.Res × Wallet
  | findBalance U, w =>
    (w.balances.find? U, w)
  | findPendingReferral U, w =>
    (w.referrals.find? U |>.filter (·.status = .pending), w)
  | findSpend D, w =>
    (w.ledger.rows.reverse.find? (spends D), w)
  | credit U amount reason opts, w =>
    commit w <| w.creditWithinTx U amount reason opts
  | debit U amount D key, w =>
    commit w <| w.debitWithinTx U amount D key
  | grantReferralReward U, w =>
    commit w <| w.maybeGrantReferralRewardWithinTx U
  | refund D U amount, w =>
    commit w <| w.refund D U amount

end WalletStmt

end Drovery
