import Drovery.Concurrency.Local
import Drovery.Theorems.Wallet

namespace Drovery

open Concurrency

namespace WalletTransaction

def isReward (r : WalletTransaction) : Bool :=
  r.reason = .referralReward ∨ r.reason = .refereeReward

-- The transaction credits the reward for the referral `R` to the user `U`.
def pays (R : ReferralId) (U : UserId) (reason : WalletTxnReason) (r : WalletTransaction) : Bool :=
  r.type = .credit ∧ r.reason = reason ∧ r.userId = U ∧ r.referralId = some R

-- The transaction is a reward for the referral `R`, whoever receives it.
def rewards (R : ReferralId) (r : WalletTransaction) : Bool :=
  r.isReward ∧ r.referralId = some R

end WalletTransaction

open WalletTransaction

namespace Wallet

-- The referrals and the rewards in the ledger match.
structure Rewarding (w : Wallet) : Prop where
  unique : ∀ {U U' ref ref'}, w.referrals.find? U = some ref → w.referrals.find? U' = some ref' →
    ref.id = ref'.id → U = U'
  self   : ∀ {U ref}, w.referrals.find? U = some ref → ref.referrerId = U → ref.status = .pending
  none   : ∀ {U ref}, w.referrals.find? U = some ref → ref.status = .pending →
    ∀ r ∈ w.ledger.rows, ¬r.rewards ref.id
  both   : ∀ {U ref}, w.referrals.find? U = some ref → ref.status = .rewarded →
    w.ledger.rows.countP (pays ref.id ref.referrerId .referralReward) = 1 ∧
      w.ledger.rows.countP (pays ref.id U .refereeReward) = 1

variable {w w' : Wallet} {U : UserId} {amount : Cents} {reason : WalletTxnReason}
variable {opts : WalletTxnOpts} {D : DeliveryId} {key : Option IdempotencyKey}

theorem creditWithinTx_row (h : w.creditWithinTx U amount reason opts = .ok w') :
    ∃ r, w'.ledger.rows = r :: w.ledger.rows ∧ r.type = .credit ∧ r.reason = reason ∧
      r.userId = U ∧ r.referralId = opts.referralId ∧ w'.referrals = w.referrals := by
  unfold creditWithinTx at h
  split at h
  case h_1 => contradiction
  case h_2 =>
    dsimp only at h
    split at h
    case h_1 => contradiction
    case h_2 l hl =>
      obtain rfl := Except.ok.inj h
      exact ⟨_, Ledger.rows_insert hl, rfl, rfl, rfl, rfl, rfl⟩

namespace Rewarding

theorem countP_pays (h : w.Rewarding) {ref : Referral} {V : UserId} {reason : WalletTxnReason}
    (href : w.referrals.find? U = some ref) (hp : ref.status = .pending)
    (hr : reason = .referralReward ∨ reason = .refereeReward) :
    w.ledger.rows.countP (pays ref.id V reason) = 0 := by
  refine List.countP_eq_zero.mpr fun r hm hr' => h.none href hp r hm ?_
  simp only [pays, decide_eq_true_eq] at hr'
  simp [rewards, isReward, hr', hr]

-- A transaction that is no reward does not matter.
theorem cons {r : WalletTransaction} (h : w.Rewarding) (hr : r.isReward = false)
    (hw : w'.ledger.rows = r :: w.ledger.rows) (hf : w'.referrals = w.referrals) : w'.Rewarding where
  unique h₁ h₂ := h.unique (hf ▸ h₁) (hf ▸ h₂)
  self h₁      := h.self (hf ▸ h₁)
  none h₁ hs   := by
    rw [hw]
    refine List.forall_mem_cons.mpr ⟨?_, h.none (hf ▸ h₁) hs⟩
    simp [rewards, hr]
  both h₁ hs   := by
    have := h.both (hf ▸ h₁) hs
    simp only [isReward, decide_eq_false_iff_not, not_or] at hr
    simp only [hw, List.countP_cons, pays, hr, false_and, and_false, decide_false,
      Bool.false_eq_true, if_false, Nat.add_zero]
    exact this

theorem credit (h : w.Rewarding) (hr : reason ≠ .referralReward ∧ reason ≠ .refereeReward)
    (hw : w.creditWithinTx U amount reason opts = .ok w') : w'.Rewarding := by
  obtain ⟨r, hl, _, hs, _, _, hf⟩ := creditWithinTx_row hw
  exact h.cons (by simp [isReward, hs, hr]) hl hf

theorem debit (h : w.Rewarding) (hw : w.debitWithinTx U amount D key = .ok w') : w'.Rewarding := by
  obtain ⟨r, hb, hd, hf⟩ := debitWithinTx_ok hw
  exact h.cons (by simp [isReward, hd.reason]) (Ledger.rows_insert hb.ledger) hf

-- Both parties of a pending referral are credited.
theorem granted {ref : Referral} {r₁ r₂ : WalletTransaction} (h : w.Rewarding)
    (href : w.referrals.find? U = some ref) (hp : ref.status = .pending) (hne : ref.referrerId ≠ U)
    (hf : w'.referrals = w.referrals.modify U ({ · with status := .rewarded }))
    (hl : w'.ledger.rows = r₂ :: r₁ :: w.ledger.rows)
    (h₁ : r₁.pays ref.id ref.referrerId .referralReward) (h₂ : r₂.pays ref.id U .refereeReward) :
    w'.Rewarding := by
  simp only [pays, decide_eq_true_eq] at h₁ h₂
  -- Any other referral is as it was, and it has another id.
  have parts {V : UserId} {ref' : Referral} (hv : w'.referrals.find? V = some ref') :
      V = U ∧ ref' = { ref with status := .rewarded } ∨
        V ≠ U ∧ w.referrals.find? V = some ref' ∧ ref'.id ≠ ref.id := by
    rw [hf, Table.find?_modify] at hv
    split at hv
    case isTrue he =>
      rw [href] at hv
      exact .inl ⟨he, (Option.some.inj hv).symm⟩
    case isFalse hn => exact .inr ⟨hn, hv, fun he => hn <| h.unique hv href he⟩
  constructor
  case unique =>
    intro V V' ref' ref'' hv hv' he
    obtain ⟨rfl, rfl⟩ | ⟨_, hv, hi⟩ := parts hv <;> obtain ⟨rfl, rfl⟩ | ⟨_, hv', hi'⟩ := parts hv'
    case inl.inl => rfl
    case inl.inr => exact absurd he.symm hi'
    case inr.inl => exact absurd he hi
    case inr.inr => exact h.unique hv hv' he
  case self =>
    intro V ref' hv hs
    obtain ⟨rfl, rfl⟩ | ⟨_, hv, _⟩ := parts hv
    case inl => exact absurd hs hne
    case inr => exact h.self hv hs
  case none =>
    intro V ref' hv hs
    obtain ⟨rfl, rfl⟩ | ⟨_, hv, hi⟩ := parts hv
    case inl => contradiction
    case inr =>
      rw [hl]
      simp only [List.forall_mem_cons]
      exact ⟨by simp [rewards, h₂, Ne.symm hi], by simp [rewards, h₁, Ne.symm hi], h.none hv hs⟩
  case both =>
    intro V ref' hv hs
    obtain ⟨rfl, rfl⟩ | ⟨_, hv, hi⟩ := parts hv
    case inl =>
      -- No reward had been booked on this referral before.
      simp [hl, pays, h₁, h₂, h.countP_pays href hp]
    case inr =>
      have := h.both hv hs
      simpa [hl, List.countP_cons, pays, h₁, h₂, Ne.symm hi] using this

-- Granting a reward credits both parties of a pending referral, or does nothing at all.
theorem grant (h : w.Rewarding) (hw : w.maybeGrantReferralRewardWithinTx U = .ok w') :
    w'.Rewarding := by
  unfold maybeGrantReferralRewardWithinTx at hw
  split at hw
  case h_1 => exact Except.ok.inj hw ▸ h
  case h_2 ref href =>
    split at hw
    case isTrue     => exact Except.ok.inj hw ▸ h
    case isFalse hn =>
      rw [not_or, not_not] at hn
      obtain ⟨w₁, h₁, h₂⟩ := parts_of_bind hw
      obtain ⟨r₁, hl₁, ht₁, hr₁, hu₁, hi₁, hf₁⟩ := creditWithinTx_row h₁
      obtain ⟨r₂, hl₂, ht₂, hr₂, hu₂, hi₂, hf₂⟩ := creditWithinTx_row h₂
      exact h.granted href hn.left hn.right (hf₂.trans hf₁) (hl₂.trans <| by rw [hl₁])
        (by simp [pays, ht₁, hr₁, hu₁, hi₁]) (by simp [pays, ht₂, hr₂, hu₂, hi₂])

-- A refund of the charge is booked as such.
theorem refundCharge {ch : RefundChannel} {ps ps' : Payments} (h : w.Rewarding)
    (hr : ch.refundWithinTx ps w D U amount = .ok (ps', w')) : w'.Rewarding := by
  simp only [RefundChannel.refundWithinTx] at hr
  split at hr
  case isTrue =>
    cases ch
    case automatic => exact (Prod.mk.inj <| Except.ok.inj hr).right ▸ h
    case admin     => contradiction
  case isFalse =>
    obtain ⟨w₁, hw, he⟩ := parts_of_bind hr
    exact (Prod.mk.inj <| Except.ok.inj he).right ▸ h.credit (by decide) hw

end Rewarding

end Wallet

-- Only the reward for a referral is booked as such.
def Call.Unrewarding : Call → Prop
  | .credit _ amount reason _ _ =>
    0 ≤ amount ∧ reason ≠ .referralReward ∧ reason ≠ .refereeReward
  | .debit _ amount _ _ _       => 0 ≤ amount
  | _                           => True

theorem Call.Unrewarding.nonneg {c : Call} (h : c.Unrewarding) : c.Nonneg := by
  cases c
  case credit => exact h.left
  case debit  => exact h
  all_goals trivial

-- The referrals of an initial store are distinct, and none of them has been rewarded yet.
structure Store.Unrewarded (db : Store) : Prop extends db.Initial where
  unique  : ∀ {U U' ref ref'}, db.wallet.referrals.find? U = some ref →
    db.wallet.referrals.find? U' = some ref' → ref.id = ref'.id → U = U'
  pending : ∀ {U ref}, db.wallet.referrals.find? U = some ref → ref.status = .pending

theorem Store.Unrewarded.rewarding {db : Store} (h : db.Unrewarded) : db.wallet.Rewarding where
  unique       := h.unique
  self hf _    := h.pending hf
  none _ _     := by simp [h.ledger, Ledger.empty]
  both hf hs   := by
    rw [h.pending hf] at hs
    contradiction

namespace Stmt

variable {db : Store} {x : Stmt}

theorem createDelivery_rewarding {D : DeliveryId} {row : Delivery} {booking : Booking}
    (h : db.wallet.Rewarding) :
    ((Stmt.createDelivery D row booking).exec db).snd.wallet.Rewarding := by
  obtain hs | hs := commit_snd (s := db) (r := db.createDelivery D row booking)
  case inl => exact (congrArg Store.wallet hs) ▸ h
  case inr =>
    obtain ⟨hc⟩ := Store.createDelivery_ok hs
    have hd : hc.debited.Rewarding := by
      obtain ⟨_, he⟩ | ⟨a, _, hd⟩ := hc.debit
      case inl => exact he ▸ h
      case inr => exact h.debit hd
    obtain ⟨_, he⟩ | ⟨_, hg⟩ := hc.referral
    case inl => exact he ▸ hd
    case inr => exact hd.grant hg

theorem exec_rewarding (h : db.wallet.Rewarding)
    (hx : ∀ U a reason opts, x = .wallet (.credit U a reason opts) →
      reason ≠ .referralReward ∧ reason ≠ .refereeReward) :
    (x.exec db).snd.wallet.Rewarding := by
  have step {w : Wallet} {r : Except AppError Wallet} (hw : w.Rewarding)
      (hr : ∀ w', r = .ok w' → w'.Rewarding) : (commit w r).snd.Rewarding := by
    cases r
    case error => exact hw
    case ok    => exact hr _ rfl
  cases x
  case wallet x =>
    cases x
    case credit              => exact step h fun _ hw => h.credit (hx _ _ _ _ rfl) hw
    case debit               => exact step h fun _ hw => h.debit hw
    case grantReferralReward => exact step h fun _ hw => h.grant hw
    case refund              => exact step h fun _ hw => h.credit (by decide) hw
    all_goals exact h
  case refundCharge ch D U a =>
    obtain hs | hs := commit_snd (s := db) (r := db.refundCharge ch D U a)
    case inl => exact (congrArg Store.wallet hs) ▸ h
    case inr =>
      obtain ⟨ps, w, hr, he⟩ := Store.refundCharge_ok hs
      exact (congrArg Store.wallet he) ▸ h.refundCharge hr
  case createDelivery => exact createDelivery_rewarding h
  case effect x       => cases x <;> exact h
  all_goals exact h

end Stmt

theorem Store.rewarding_of_reachable {P : Params} {s : Pool Stmt.sig Store Call}
    (h : Reachable (system P) { spawn := Call.Unrewarding } Store.Unrewarded s) :
    s.db.wallet.Rewarding := by
  refine h.invariant (I := fun w => w.db.wallet.Rewarding) (·.rewarding) fun {s t c x} st hi => ?_
  refine Stmt.exec_rewarding hi ?_
  rintro U a reason opts rfl
  -- A free-standing credit stems from a call that is not allowed to book a reward.
  have hv := @moneyOutline.valid P { spawn := Call.Unrewarding } fun _ => Call.Unrewarding.nonneg
  have hr : Reachable _ _ Store.Initial _ := st.reachable.of_init fun _ h => h.toInitial
  have ⟨_, _, hc⟩ := (hv.reachable hr).pre st.aboutTo
  have hs := st.spawned
  rw [hc] at hs
  exact hs.right

-- A referral has been rewarded if and only if both of its parties have been credited, once each.
-- Neither of them is credited without the other, and nobody is credited for a referral to oneself.
theorem referral_paid_once {P : Params} {s : Pool Stmt.sig Store Call}
    (h : Reachable (system P) { spawn := Call.Unrewarding } Store.Unrewarded s) {U : UserId}
    {ref : Referral} (hr : s.db.wallet.referrals.find? U = some ref) :
    let rows := s.db.wallet.ledger.rows
    (ref.status = .rewarded ↔ rows.countP (pays ref.id ref.referrerId .referralReward) = 1 ∧
      rows.countP (pays ref.id U .refereeReward) = 1) ∧
    rows.countP (pays ref.id ref.referrerId .referralReward) =
      rows.countP (pays ref.id U .refereeReward) ∧
    (ref.referrerId = U → ∀ r ∈ rows, ¬r.rewards ref.id) := by
  have hw := Store.rewarding_of_reachable h
  refine ⟨?_, ?_, fun hs => hw.none hr <| hw.self hr hs⟩ <;> cases hs : ref.status
  case refine_1.pending  => simp [hw.countP_pays hr hs]
  case refine_1.rewarded => simp [hw.both hr hs]
  case refine_2.pending  => simp [hw.countP_pays hr hs]
  case refine_2.rewarded => simp [hw.both hr hs]

theorem Store.small_unrewarded : Store.small.Unrewarded where
  toInitial := Store.small_initial
  unique h₁ h₂ _ := by
    have h₁ := List.mem_singleton.mp <| Table.find?_eq_some_iff.mp h₁
    have h₂ := List.mem_singleton.mp <| Table.find?_eq_some_iff.mp h₂
    exact (Prod.mk.inj h₁).left.trans (Prod.mk.inj h₂).left.symm
  pending h      := by
    have h := List.mem_singleton.mp <| Table.find?_eq_some_iff.mp h
    obtain ⟨_, rfl⟩ := Prod.mk.inj h
    rfl

-- The referred user creates a delivery while another attempt to grant the reward is rolled back, and
-- the event is replayed later.
def replayedRun : List (Cmd Call) :=
  List.flatten [
    Cmd.run 1 (.grantReferralReward 1 (.rolledBack .connectionLost)) 1,
    Cmd.run 2 (.create .small) 10, Cmd.run 3 (.grantReferralReward 1 .committed) 1]

theorem referral_paid_once_replayed :
    ∃ s ref, Reachable (system .small) { spawn := Call.Unrewarding } Store.Unrewarded s ∧
      s.db.wallet.referrals.find? 1 = some ref ∧ ref.status = .rewarded ∧
      s.db.wallet.ledger.rows.countP (pays ref.id ref.referrerId .referralReward) = 1 ∧
      s.db.wallet.ledger.rows.countP (pays ref.id 1 .refereeReward) = 1 := by
  let s := (Pool.init .small).runCmds (system .small) replayedRun
  have h : Reachable (system .small) { spawn := Call.Unrewarding } Store.Unrewarded s :=
    Reachable.runCmds_of_calls replayedRun (.init Store.small_unrewarded)
      (by simp [replayedRun, Cmd.run, Cmd.Calls, Call.Unrewarding])
  have hs : (s.db.wallet.referrals.find? 1).any (·.status = .rewarded) := by decide +kernel
  cases hr : s.db.wallet.referrals.find? 1
  case none     => rw [hr] at hs; contradiction
  case some ref =>
    rw [hr] at hs
    have hs : ref.status = .rewarded := of_decide_eq_true hs
    exact ⟨s, ref, h, hr, hs, (referral_paid_once h hr).left.mp hs⟩

end Drovery
