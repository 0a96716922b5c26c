import Drovery.Concurrency.Sequential
import Drovery.Execution.Theorems.Money
import Drovery.Theorems.Promo

namespace Drovery

open Concurrency Method
open DeliveriesService DispatchService WalletService PromoService

namespace Promos

-- What `releaseForDelivery` does to the promo codes.
def releaseFor (p : Promos) (now : Time) (D : DeliveryId) : Promos :=
  match (p.redemptions.table.find? D).filter (·.status = .redeemed) with
  | none   => p
  | some r => p.release now D r.promoCodeId

-- The redemption of the delivery `D`, provided that it is in force.
def inForce (p : Promos) (D : DeliveryId) : Option PromoRedemption :=
  (p.redemptions.table.find? D).filter Redemptions.redeemed

variable {p p' : Promos} {now : Time} {P Q : PromoId} {D E : DeliveryId} {U : UserId} {total : Cents}
variable {discount : DiscountResult} {r : PromoRedemption}

theorem releaseFor_of_none (h : p.redemptions.table.find? D = none) : p.releaseFor now D = p := by
  simp [releaseFor, h]

theorem releaseFor_of_inForce (h : p.inForce D = some r) :
    p.releaseFor now D = p.release now D r.promoCodeId := by
  have h : (p.redemptions.table.find? D).filter (·.status = .redeemed) = some r := h
  simp [releaseFor, h]

theorem release_of_redeemed (h : p.redemptions.table.find? D = some r) (hr : r.status = .redeemed) :
    p.release now D P = {
      codes       := (p.codes.cas P (0 < ·.timesRedeemed) fun code =>
        { code with timesRedeemed := code.timesRedeemed - 1 }).snd
      redemptions := (p.redemptions.release D now).snd } := by
  have hn : (p.redemptions.release D now).fst = 1 := by
    simp [Redemptions.release, Table.cas_of_guard h, Redemptions.redeemed, hr]
  simp only [release, hn, Nat.one_ne_zero, if_false]

-- No redemption of the delivery is left in force, and no other one is touched.
theorem inForce_releaseFor : (p.releaseFor now D).inForce E = if E = D then none else p.inForce E := by
  cases hf : p.inForce D
  case none =>
    have hn : (p.redemptions.table.find? D).filter (·.status = .redeemed) = none := hf
    simp only [releaseFor, hn]
    split
    case isTrue he => exact he ▸ hf
    case isFalse   => rfl
  case some r =>
    obtain ⟨hr, hs⟩ := Option.filter_eq_some_iff.mp hf
    have hs : r.status = .redeemed := of_decide_eq_true hs
    rw [releaseFor_of_inForce hf, release_of_redeemed hr hs]
    simp only [inForce, Redemptions.release, Table.find?_cas]
    split
    case isFalse   => rfl
    case isTrue he => simp [hr, Redemptions.redeemed, hs, Redemptions.markReleased]

namespace Redeemed

theorem find? (h : Redeemed now p p' P D) : ∃ row, row.promoCodeId = P ∧ row.status = .redeemed ∧
    p'.redemptions.table.find? D = some row ∧
      ∀ E ≠ D, p'.redemptions.table.find? E = p.redemptions.table.find? E := by
  obtain ⟨row, hP, hs, hi⟩ := h.row
  have ht := insert_table hi
  refine ⟨row, hP, hs, by rw [Table.find?_insert ht, if_pos rfl], fun E he => ?_⟩
  rw [Table.find?_insert ht, if_neg he]

theorem unused (h : Redeemed now p p' P D) : p.redemptions.table.find? D = none := by
  obtain ⟨row, _, _, hi⟩ := h.row
  exact Table.find?_of_insert <| insert_table hi

theorem inForce_releaseFor (h : Redeemed now p p' P D) :
    (p'.releaseFor now D).inForce E = p.inForce E := by
  rw [Promos.inForce_releaseFor]
  obtain ⟨_, _, _, _, ho⟩ := h.find?
  split
  case isTrue he => simp [he, Promos.inForce, h.unused]
  case isFalse he => simp [Promos.inForce, ho E he]

-- The release takes back the increment of the counter.
theorem codes_releaseFor (h : Redeemed now p p' P D)
    (hn : ∀ Q code, p.codes.find? Q = some code → 0 ≤ code.timesRedeemed) :
    (p'.releaseFor now D).codes.find? Q = p.codes.find? Q := by
  obtain ⟨row, rfl, hs, hr, _⟩ := h.find?
  obtain ⟨code, hf, _⟩ := h.code
  have hi : p'.inForce D = some row := Option.filter_eq_some_iff.mpr ⟨hr, decide_eq_true hs⟩
  rw [releaseFor_of_inForce hi, release_of_redeemed hr hs]
  simp only [Table.find?_cas, h.codes, Table.find?_modify]
  have hpos := hn _ code hf
  split
  case isFalse he => rfl
  case isTrue he  =>
    have : 0 < code.timesRedeemed + 1 := by omega
    simp [he, hf, this]

end Redeemed

end Promos

namespace Wallet

-- What `refundForDelivery` does to the wallet.
def refundFor (w : Wallet) (D : DeliveryId) : Wallet :=
  match w.ledger.rows.reverse.find? (WalletStmt.spends D) with
  | none       => w
  | some spend => (commit w <| w.refund D spend.userId spend.amount).snd

variable {w w' : Wallet} {D : DeliveryId} {U V : UserId} {amount : Cents} {r : WalletTransaction}

theorem refundFor_of_unspent (h : ∀ r ∈ w.ledger.rows, ¬WalletStmt.spends D r) :
    w.refundFor D = w := by
  have hn : w.ledger.rows.reverse.find? (WalletStmt.spends D) = none :=
    List.find?_eq_none.mpr fun r hr => h r <| List.mem_reverse.mp hr
  simp [refundFor, hn]

theorem refundFor_books {spend : WalletTransaction}
    (hf : w.ledger.rows.reverse.find? (WalletStmt.spends D) = some spend)
    (hu : (w.balances.find? spend.userId).isSome) (hk : .refund D ∉ w.ledger.keys) :
    ∃ r, Books w (w.refundFor D) r ∧
      IsCredit r spend.userId spend.amount .checkoutRefund (refundOpts D (.refund D)) := by
  have hk : ∀ k, (refundOpts D (.refund D)).idempotencyKey = some k → k ∉ w.ledger.keys := by
    rintro k ⟨rfl⟩
    exact hk
  obtain ⟨w', hw⟩ := @creditWithinTx_isOk w _ spend.amount .checkoutRefund _ hu hk
  obtain ⟨r, hb, hc, _⟩ := creditWithinTx_ok hw
  simp only [refundFor, hf, refund, hw, commit]
  exact ⟨r, hb, hc⟩

-- All credits that have been spent on the delivery `D` have been given back.
def Refunded (w : Wallet) (D : DeliveryId) : Prop :=
  ∀ r ∈ w.ledger.rows, WalletStmt.spends D r →
    ∃ r' ∈ w.ledger.rows, IsCredit r' r.userId r.amount .checkoutRefund (refundOpts D (.refund D))

theorem spends_of_isDebit {key : Option IdempotencyKey} (h : IsDebit r U amount D key) :
    WalletStmt.spends D r :=
  decide_eq_true ⟨h.deliveryId, h.type, h.reason⟩

-- The refund of the only debit for a delivery.
theorem refundFor_debit (h : w.debitWithinTx U amount D (some <| .debit D) = .ok w')
    (hs : ∀ r ∈ w.ledger.rows, ¬WalletStmt.spends D r) (hk : .refund D ∉ w.ledger.keys) :
    ∃ r r', Books w w' r ∧ IsDebit r U amount D (some <| .debit D) ∧
      Books w' (w'.refundFor D) r' ∧
      IsCredit r' r.userId r.amount .checkoutRefund (refundOpts D (.refund D)) := by
  obtain ⟨r, hb, hd, _⟩ := debitWithinTx_ok h
  have hrows := Ledger.rows_insert hb.ledger
  have hf : w'.ledger.rows.reverse.find? (WalletStmt.spends D) = some r := by
    rw [hrows, List.reverse_cons, List.find?_append, List.find?_eq_none.mpr]
    case _ => simp [spends_of_isDebit hd]
    case _ => exact fun r hr => hs r <| List.mem_reverse.mp hr
  have hu : (w'.balances.find? r.userId).isSome := by
    obtain ⟨b, hb', _⟩ := hb.balance
    simp [hb.balances, hb']
  have hk' : .refund D ∉ w'.ledger.keys := by
    rw [Ledger.keys, hrows, List.filterMap_cons, hd.idempotencyKey]
    exact fun hm => hk <| (List.mem_cons.mp hm).resolve_left nofun
  obtain ⟨r', hb', hc⟩ := refundFor_books hf hu hk'
  exact ⟨r, r', hb, hd, hb', hc⟩

-- The refund takes back what a debit has taken.
theorem balances_refundFor (h : w.debitWithinTx U amount D (some <| .debit D) = .ok w')
    (hs : ∀ r ∈ w.ledger.rows, ¬WalletStmt.spends D r) (hk : .refund D ∉ w.ledger.keys) :
    (w'.refundFor D).balances.find? V = w.balances.find? V := by
  obtain ⟨r, r', hb, hd, hb', hc⟩ := refundFor_debit h hs hk
  rw [hb'.balances, Table.find?_modify, hb.balances, hc.userId,
    WalletTransaction.delta_credit hc.type, WalletTransaction.delta_debit hd.type, hc.amount]
  split
  case isFalse he => rw [Table.find?_modify_of_ne he]
  case isTrue he  => simp [he, Option.map_map, Function.comp_def]

theorem refunded_refundFor (h : w.debitWithinTx U amount D (some <| .debit D) = .ok w')
    (hs : ∀ r ∈ w.ledger.rows, ¬WalletStmt.spends D r) (hk : .refund D ∉ w.ledger.keys) :
    (w'.refundFor D).Refunded D := by
  obtain ⟨r, r', hb, hd, hb', hc⟩ := refundFor_debit h hs hk
  intro r₁ hr₁ hs₁
  refine ⟨r', by simp [Ledger.rows_insert hb'.ledger], ?_⟩
  rw [Ledger.rows_insert hb'.ledger, Ledger.rows_insert hb.ledger] at hr₁
  obtain rfl | hr₁ := List.mem_cons.mp hr₁
  case inl => simp [WalletStmt.spends, hc.type] at hs₁
  obtain rfl | hr₁ := List.mem_cons.mp hr₁
  case inl => exact hc
  case inr => exact absurd hs₁ <| hs r₁ hr₁

end Wallet

section

variable {P : Params} {D : DeliveryId} {inp : CreateInput} {order : Order} {db db' : Store}
variable {dispatched : DispatchDecision} {faults : CreateFaults}

theorem eval_releaseForDelivery : eval Stmt.exec (releaseForDelivery D .committed) db =
    (.ok (), { db with promos := db.promos.releaseFor db.clock D }) := by
  rw [releaseForDelivery, eval_stmt_bind]
  simp only [Stmt.exec, PromoStmt.exec, Promos.releaseFor]
  cases (db.promos.redemptions.table.find? D).filter (·.status = .redeemed) <;> rfl

theorem eval_refundForDelivery : (eval Stmt.exec (refundForDelivery D .committed) db).snd =
    { db with wallet := db.wallet.refundFor D } := by
  rw [refundForDelivery, eval_stmt_bind]
  simp only [Stmt.exec, WalletStmt.exec, Wallet.refundFor]
  cases db.wallet.ledger.rows.reverse.find? (WalletStmt.spends D)
  case none => rfl
  case some spend =>
    simp only [attempt, eval_handle, eval_tx, Stmt.exec, WalletStmt.exec]
    cases hr : db.wallet.refund D spend.userId spend.amount
    case ok => rfl
    case error e =>
      simp only [commit, id_eq]
      split <;> rfl

-- What the compensation of a creation does to the store.
def Store.compensate (db : Store) (D : DeliveryId) : Store :=
  { db with
    promos := db.promos.releaseFor db.clock D
    wallet := db.wallet.refundFor D }

theorem eval_compensateReservations (hp : faults.releasePromo = .committed)
    (hc : faults.refundCredits = .committed) :
    eval Stmt.exec (compensateReservations D faults) db = (.ok (), db.compensate D) := by
  rw [compensateReservations, hp, hc, eval_bind_of_ok (eval_safe (p := releaseForDelivery D .committed)),
    eval_safe, eval_releaseForDelivery, eval_refundForDelivery]
  rfl

-- What becomes of the claim on an airframe.
def returned (fleet : Fleet) (droneId : Option DroneId) (D : DeliveryId) : Fault → Fleet
  | .rolledBack _ => fleet
  | _             =>
    match droneId with
    | none   => fleet
    | some _ => fleet.updateMany (fun _ d => FleetStmt.holds D d) (·.release .returnToFleet)

theorem eval_releaseClaimedAircraft {droneId : Option DroneId} :
    eval Stmt.exec (releaseClaimedAircraft droneId D faults) db =
      (.ok (), { db with fleet := returned db.fleet droneId D faults.releaseAirframe }) := by
  cases droneId
  case none => cases hr : faults.releaseAirframe <;> simp [releaseClaimedAircraft, returned]
  case some X =>
    simp only [releaseClaimedAircraft, release, eval_safe]
    cases faults.releaseAirframe <;> rfl

theorem eval_abandon (hp : inp.faults.releasePromo = .committed)
    (hc : inp.faults.refundCredits = .committed) :
    eval Stmt.exec (abandon P D inp dispatched) db =
      (.ok (), { (if P.debitFirst then db.compensate D else db) with
        fleet := returned db.fleet dispatched.droneId D inp.faults.releaseAirframe }) := by
  have hu : eval Stmt.exec (undoReservations P D inp) db =
      (.ok (), if P.debitFirst then db.compensate D else db) := by
    unfold undoReservations
    split
    case isTrue  => exact eval_compensateReservations hp hc
    case isFalse => rfl
  rw [abandon, eval_bind_of_ok hu, eval_releaseClaimedAircraft]
  split <;> rfl

end

-- A store in which no money has moved for the delivery `D` yet.
structure Store.Fresh (db : Store) (D : DeliveryId) : Prop where
  delivery   : db.deliveries.find? D = none
  unspent    : ∀ r ∈ db.wallet.ledger.rows, ¬WalletStmt.spends D r
  refundKey  : .refund D ∉ db.wallet.ledger.keys
  redemption : db.promos.redemptions.table.find? D = none

-- The store `db'` results from `db` by redeeming a promo code and spending credits on the delivery
-- `D`, both of which are optional.
def Store.Reserves (db : Store) (D : DeliveryId) (U : UserId) (db' : Store) : Prop :=
  ∃ redeem debit db₁, db.bookRedemption D U redeem = .ok db₁ ∧ db₁.bookDebit D U debit = .ok db'

-- In the store `db'`, nothing is left of what has been reserved for the delivery `D`.
structure Store.Restored (db : Store) (D : DeliveryId) (db' : Store) : Prop where
  balances   : ∀ U, db'.wallet.balances.find? U = db.wallet.balances.find? U
  codes      : (∀ Q code, db.promos.codes.find? Q = some code → 0 ≤ code.timesRedeemed) →
    ∀ Q, db'.promos.codes.find? Q = db.promos.codes.find? Q
  inForce    : ∀ E, db'.promos.inForce E = db.promos.inForce E
  deliveries : db'.deliveries = db.deliveries
  refunded   : db'.wallet.Refunded D

namespace Store

variable {db db' : Store} {D : DeliveryId} {U : UserId} {fleet : Fleet}

theorem Fresh.restored (h : db.Fresh D) : db.Restored D { db with fleet } where
  balances _ := rfl
  codes _ _  := rfl
  inForce _  := rfl
  deliveries := rfl
  refunded r hr hs := absurd hs <| h.unspent r hr

-- Everything that has been reserved is given back by the compensation.
theorem Reserves.restored (hr : db.Reserves D U db') (h : db.Fresh D) :
    db.Restored D { db'.compensate D with fleet } := by
  obtain ⟨redeem, debit, db₁, h₁, h₂⟩ := hr
  obtain ⟨ps, rfl, hp⟩ := bookRedemption_ok h₁
  obtain ⟨w, rfl, hw⟩ := bookDebit_ok h₂
  refine ⟨fun V => ?_, fun hn Q => ?_, fun E => ?_, rfl, ?_⟩ <;> simp only [compensate]
  case refine_1 =>
    obtain ⟨_, rfl⟩ | ⟨a, _, hd⟩ := hw
    case inl => rw [Wallet.refundFor_of_unspent h.unspent]
    case inr => exact Wallet.balances_refundFor hd h.unspent h.refundKey
  case refine_2 =>
    obtain ⟨_, rfl⟩ | ⟨P, t, d, _, hd⟩ := hp
    case inl => rw [Promos.releaseFor_of_none h.redemption]
    case inr => exact (Promos.redeemed_of_redeemWithinTx hd).codes_releaseFor hn
  case refine_3 =>
    obtain ⟨_, rfl⟩ | ⟨P, t, d, _, hd⟩ := hp
    case inl => rw [Promos.releaseFor_of_none h.redemption]
    case inr => exact (Promos.redeemed_of_redeemWithinTx hd).inForce_releaseFor
  case refine_4 =>
    obtain ⟨_, rfl⟩ | ⟨a, _, hd⟩ := hw
    case inl =>
      rw [Wallet.refundFor_of_unspent h.unspent]
      exact fun r hr hs => absurd hs <| h.unspent r hr
    case inr => exact Wallet.refunded_refundFor hd h.unspent h.refundKey

end Store

end Drovery
