import Drovery.Concurrency.Local
import Drovery.Services.Reaper
import Drovery.Objects.Theorems.Wallet
import Drovery.Theorems.Promo

namespace Drovery.Reaper

open Concurrency OrphanReaperService

variable {limits : Limits}

abbrev Log := List (Entry Stmt.sig Store Call)

abbrev History := World Stmt.sig Store Call

namespace Store

-- Something has been reserved for the delivery `D` at the given time.
def ReservedAt (db : Store) (D : DeliveryId) (time : Time) : Prop :=
  db.spentAt.find? D = some time ∨ db.redeemedAt.find? D = some time

-- The reservation has outlived the time within which its delivery is created, if ever.
def Overdue (limits : Limits) (db : Store) (D : DeliveryId) : Prop :=
  db.deliveries.find? D = none ∧ ∃ time, db.ReservedAt D time ∧ time + limits.graceMs < db.clock

def Spent (db : Store) (D : DeliveryId) : Prop :=
  ∃ r ∈ db.wallet.ledger.rows, WalletStmt.spends D r

def Refunded (db : Store) (D : DeliveryId) : Prop :=
  ∃ r ∈ db.wallet.ledger.rows, refunds D r

-- The row gives back to its user all that has been spent on the delivery.
def RefundsInFull (db : Store) (D : DeliveryId) (r : WalletTransaction) : Prop :=
  refunds D r ∧ ∃ spend ∈ db.wallet.ledger.rows, WalletStmt.spends D spend ∧
    r.userId = spend.userId ∧ r.amount = spend.amount

-- There is a redemption for the delivery, whether or not it is still in force.
def Redeemed (db : Store) (D : DeliveryId) : Prop :=
  ∃ r, db.promos.redemptions.table.find? D = some r

def Released (db : Store) (D : DeliveryId) : Prop :=
  ∃ r, db.promos.redemptions.table.find? D = some r ∧ r.status = .released

-- What does not change anymore.
structure Grows (limits : Limits) (db db' : Store) : Prop where
  clock    : db.clock ≤ db'.clock
  ledger   : ∀ r ∈ db.wallet.ledger.rows, r ∈ db'.wallet.ledger.rows
  users    : ∀ U, (db.wallet.balances.find? U).isSome → (db'.wallet.balances.find? U).isSome
  redeemed : ∀ D, db.Redeemed D → db'.Redeemed D
  released : ∀ D, db.Released D → db'.Released D
  overdue  : ∀ D, db.Overdue limits D → db'.Overdue limits D

namespace Grows

variable {db db' db₁ db₂ db₃ : Store} {D : DeliveryId}

theorem refl : Grows limits db db :=
  ⟨Nat.le_refl _, fun _ h => h, fun _ h => h, fun _ h => h, fun _ h => h, fun _ h => h⟩

theorem trans (h₁ : Grows limits db₁ db₂) (h₂ : Grows limits db₂ db₃) : Grows limits db₁ db₃ where
  clock        := h₁.clock.trans h₂.clock
  ledger r h   := h₂.ledger r <| h₁.ledger r h
  users U h    := h₂.users U <| h₁.users U h
  redeemed D h := h₂.redeemed D <| h₁.redeemed D h
  released D h := h₂.released D <| h₁.released D h
  overdue D h  := h₂.overdue D <| h₁.overdue D h

theorem spent (h : Grows limits db db') (hs : db.Spent D) : db'.Spent D := by
  obtain ⟨r, hm, hr⟩ := hs
  exact ⟨r, h.ledger r hm, hr⟩

theorem refunded (h : Grows limits db db') (hs : db.Refunded D) : db'.Refunded D := by
  obtain ⟨r, hm, hr⟩ := hs
  exact ⟨r, h.ledger r hm, hr⟩

-- A reservation never gets another time.
theorem overdue_of {spentAt redeemedAt : Table DeliveryId Time} {time : Time}
    (hs : spentAt = db.spentAt ∨ ∃ D, db.spentAt.insert D time = some spentAt)
    (hr : redeemedAt = db.redeemedAt ∨ ∃ D, db.redeemedAt.insert D time = some redeemedAt)
    (h : db.Overdue limits D) :
    Overdue limits { db with spentAt, redeemedAt } D := by
  have keep {t t' : Table DeliveryId Time} {τ} (h : t' = t ∨ ∃ D, t.insert D time = some t')
      (hf : t.find? D = some τ) : t'.find? D = some τ := by
    obtain rfl | ⟨D', hi⟩ := h
    case inl => exact hf
    case inr =>
      have hne : D ≠ D' := by
        rintro rfl
        simp [Table.find?_of_insert hi] at hf
      rw [Table.find?_insert hi, if_neg hne, hf]
  obtain ⟨hd, τ, hτ, hlt⟩ := h
  exact ⟨hd, τ, hτ.imp (keep hs) (keep hr), hlt⟩

end Grows

variable {db db' : Store} {D D' : DeliveryId} {P : PromoId} {U : UserId} {amount : Cents}

theorem getD_insert {ρ : Type} (t : Table DeliveryId ρ) (D : DeliveryId) (r : ρ) :
    (t.insert D r).getD t = t ∨ ∃ D', t.insert D' r = some ((t.insert D r).getD t) := by
  cases h : t.insert D r
  case none => exact .inl rfl
  case some => exact .inr ⟨D, h⟩

theorem grows_of_books {w : Wallet} {r : WalletTransaction} {spentAt : Table DeliveryId Time}
    (hb : Wallet.Books db.wallet w r)
    (hs : spentAt = db.spentAt ∨ ∃ D, db.spentAt.insert D db.clock = some spentAt) :
    Grows limits db { db with wallet := w, spentAt } where
  clock        := Nat.le_refl _
  ledger r h   := by
    rw [Ledger.rows_insert hb.ledger]
    exact .tail _ h
  users U h    := by
    rw [(Wallet.BooksAll.single hb).isSome_find?]
    exact h
  redeemed D h := h
  released D h := h
  overdue D h  := Grows.overdue_of hs (.inl rfl) h

theorem refund_ok (h : db.refund D U amount = .ok db') :
    ∃ r, Wallet.Books db.wallet db'.wallet r ∧ Wallet.IsCredit r U amount .checkoutRefund
      { deliveryId := some D, idempotencyKey := some <| .refund D } ∧
      db' = { db with wallet := db'.wallet } := by
  unfold refund at h
  cases hw : db.wallet.refund D U amount <;> rw [hw] at h
  case error => contradiction
  case ok w  =>
    obtain rfl := Except.ok.inj h
    obtain ⟨r, hb, hr, _⟩ := Wallet.creditWithinTx_ok hw
    exact ⟨r, hb, hr, rfl⟩

theorem debit_ok (h : db.debit U amount D = .ok db') :
    ∃ r, Wallet.Books db.wallet db'.wallet r ∧ Wallet.IsDebit r U amount D (some <| .debit D) ∧
      db' = { db with
        wallet := db'.wallet, spentAt := (db.spentAt.insert D db.clock).getD db.spentAt } := by
  unfold debit at h
  cases hw : db.wallet.debitWithinTx U amount D (some <| .debit D) <;> rw [hw] at h
  case error => contradiction
  case ok w  =>
    obtain rfl := Except.ok.inj h
    obtain ⟨r, hb, hr, _⟩ := Wallet.debitWithinTx_ok hw
    exact ⟨r, hb, hr, rfl⟩

theorem redeem_ok {total : Cents} {discount : DiscountResult}
    (h : db.redeem P U D total discount = .ok db') :
    Promos.Redeemed db.clock db.promos db'.promos P D ∧ db' = { db with
      promos     := db'.promos
      redeemedAt := (db.redeemedAt.insert D db.clock).getD db.redeemedAt } := by
  unfold redeem at h
  cases hw : db.promos.redeemWithinTx db.clock P U D total discount <;> rw [hw] at h
  case error => contradiction
  case ok p  =>
    obtain rfl := Except.ok.inj h
    exact ⟨Promos.redeemed_of_redeemWithinTx hw, rfl⟩

theorem createDelivery_ok {trackingId : String} (h : db.createDelivery D U trackingId = .ok db') :
    db.deliveries.insert D U = some db'.deliveries ∧
      db' = { db with deliveries := db'.deliveries, registry := db'.registry } := by
  unfold createDelivery at h
  split at h
  case h_1 hi _ =>
    obtain rfl := Except.ok.inj h
    exact ⟨hi, rfl⟩
  all_goals contradiction

theorem find?_release {p : Promos} {now : Time} :
    (p.release now D P).redemptions.table.find? D' = if D' = D then
      (p.redemptions.table.find? D).map fun r =>
        if Redemptions.redeemed r then Redemptions.markReleased now r else r
    else
      p.redemptions.table.find? D' := by
  rw [← Table.find?_cas]
  unfold Promos.release
  by_cases hn : (p.redemptions.release D now).fst = 0
  case neg => simp only [hn, if_false]; rfl
  case pos => simp only [hn, if_true]; rw [Table.cas_eq_of_count_eq_zero hn]

theorem grows_redeem {total : Cents} {discount : DiscountResult}
    (h : db.redeem P U D total discount = .ok db') : Grows limits db db' := by
  obtain ⟨⟨_, ⟨row, _, _, hi⟩, _⟩, he⟩ := redeem_ok h
  have ht := Promos.insert_table hi
  have keep {D' r} (hf : db.promos.redemptions.table.find? D' = some r) :
      db'.promos.redemptions.table.find? D' = some r := by
    have hne : D' ≠ D := by
      rintro rfl
      simp [Table.find?_of_insert ht] at hf
    rw [Table.find?_insert ht, if_neg hne, hf]
  rw [he]
  refine ⟨Nat.le_refl _, fun _ h => h, fun _ h => h, ?_, ?_, fun D' h => ?_⟩
  case refine_1 => rintro D' ⟨r, hf⟩; exact ⟨r, keep hf⟩
  case refine_2 => rintro D' ⟨r, hf, hs⟩; exact ⟨r, keep hf, hs⟩
  case refine_3 => exact @Grows.overdue_of _ _ _ db.spentAt _ _ (.inl rfl) (getD_insert ..) h

theorem grows_release : Grows limits db { db with promos := db.promos.release db.clock D P } := by
  refine ⟨Nat.le_refl _, fun _ h => h, fun _ h => h, ?_, ?_, fun _ h => h⟩
  case refine_1 =>
    rintro D' ⟨r, hf⟩
    refine Option.isSome_iff_exists.mp ?_
    rw [find?_release]
    split
    case isTrue he => simp [← he, hf]
    case isFalse   => simp [hf]
  case refine_2 =>
    rintro D' ⟨r, hf, hs⟩
    refine ⟨r, ?_, hs⟩
    rw [find?_release]
    split
    case isTrue he => simp [← he, hf, Redemptions.redeemed, hs]
    case isFalse   => exact hf

end Store

-- The statement does not create a delivery too late.
def InGrace (limits : Limits) (db : Store) (x : Stmt) : Prop :=
  match x with
  | .createDelivery D U trackingId => (db.createDelivery D U trackingId).isOk →
    ∀ time, db.ReservedAt D time → db.clock ≤ time + limits.graceMs
  | _                              => True

-- The runs in which a delivery that is created is created soon after its reservations.
def commitsInGrace (limits : Limits) : Policy Stmt.sig Store Call where
  step s _ _ x := InGrace limits s.db x

section

variable {s : Pool Stmt.sig Store Call} {t : Nat} {c : Call} {x : Stmt} {init : Store → Prop}
variable {db : Store}

theorem grows_exec (hx : InGrace limits db x) : db.Grows limits (Stmt.exec x db).snd := by
  cases x
  case passTime ms =>
    refine ⟨Nat.le_add_right .., fun _ h => h, fun _ h => h, fun _ h => h, fun _ h => h, ?_⟩
    rintro D ⟨hd, τ, hτ, hlt⟩
    exact ⟨hd, τ, hτ, Nat.lt_add_right _ hlt⟩
  case redeem =>
    simp only [Stmt.exec, commit]
    split
    case h_1 h => exact Store.grows_redeem h
    case h_2   => exact .refl
  case debit =>
    simp only [Stmt.exec, commit]
    split
    case h_2   => exact .refl
    case h_1 h =>
      obtain ⟨r, hb, _, he⟩ := Store.debit_ok h
      rw [he]
      exact Store.grows_of_books hb <| Store.getD_insert ..
  case refund =>
    simp only [Stmt.exec, commit]
    split
    case h_2   => exact .refl
    case h_1 h =>
      obtain ⟨r, hb, _, he⟩ := Store.refund_ok h
      rw [he]
      exact Store.grows_of_books hb <| .inl rfl
  case createDelivery D U trackingId =>
    simp only [Stmt.exec, commit]
    split
    case h_2   => exact .refl
    case h_1 h =>
      obtain ⟨hi, he⟩ := Store.createDelivery_ok h
      rw [he]
      refine ⟨Nat.le_refl _, fun _ h => h, fun _ h => h, fun _ h => h, fun _ h => h, ?_⟩
      rintro D' ⟨hd, τ, hτ, hlt⟩
      refine ⟨?_, τ, hτ, hlt⟩
      rw [Table.find?_insert hi, if_neg, hd]
      rintro rfl
      -- The delivery would have been created too late.
      have := hx (by rw [h]; rfl) τ hτ
      simp only [Time] at *
      omega
  case release => exact Store.grows_release
  all_goals exact .refl

end

-- What the ledger tells about its rows. The refunds that are not under the key of the reservation,
-- i.e. those of a failed delivery and those that an admin makes, are for deliveries that exist.
structure Store.Sound (db : Store) : Prop where
  users  : ∀ r ∈ db.wallet.ledger.rows, (db.wallet.balances.find? r.userId).isSome
  keys   : ∀ r ∈ db.wallet.ledger.rows, ∀ D, r.idempotencyKey = some (.refund D) →
    db.RefundsInFull D r
  others : ∀ r ∈ db.wallet.ledger.rows, ∀ D, Store.refunds D r →
    r.idempotencyKey ≠ some (.refund D) → (db.deliveries.find? D).isSome

-- A refund is of what has been spent on the delivery.
def Warranted (db : Store) (x : Stmt) : Prop :=
  ∀ D U amount, x = .refund D U amount → ∃ spend ∈ db.wallet.ledger.rows,
    WalletStmt.spends D spend ∧ U = spend.userId ∧ amount = spend.amount

section

variable {db db' : Store} {D : DeliveryId} {U : UserId} {amount : Cents} {P : PromoId} {x : Stmt}

theorem Store.Sound.booked {r : WalletTransaction} (h : db.Sound)
    (hb : Wallet.Books db.wallet db'.wallet r) (hd : db.deliveries = db'.deliveries)
    (hk : ∀ D, r.idempotencyKey = some (.refund D) → db.RefundsInFull D r)
    (ho : ∀ D, Store.refunds D r → r.idempotencyKey = some (.refund D)) : db'.Sound := by
  have kept {U : UserId} := (Wallet.BooksAll.single hb).isSome_find? (U := U)
  have full {D r'} (hr : db.RefundsInFull D r') : db'.RefundsInFull D r' := by
    obtain ⟨hr, spend, hm, hs⟩ := hr
    exact ⟨hr, spend, Ledger.rows_insert hb.ledger ▸ .tail _ hm, hs⟩
  refine ⟨fun r' hm => ?_, fun r' hm D hr => ?_, fun r' hm D hr hn => ?_⟩ <;>
    rw [Ledger.rows_insert hb.ledger] at hm
  case refine_1 =>
    rw [kept]
    obtain rfl | hm := List.mem_cons.mp hm
    case inl =>
      obtain ⟨b, hf, _⟩ := hb.balance
      exact Option.isSome_of_eq_some hf
    case inr => exact h.users r' hm
  case refine_2 =>
    obtain rfl | hm := List.mem_cons.mp hm
    case inl => exact full <| hk D hr
    case inr => exact full <| h.keys r' hm D hr
  case refine_3 =>
    obtain rfl | hm := List.mem_cons.mp hm
    case inl => exact absurd (ho D hr) hn
    case inr => exact hd ▸ h.others r' hm D hr hn

theorem Store.Sound.exec (h : db.Sound) (hw : Warranted db x) : (Stmt.exec x db).snd.Sound := by
  cases x
  case redeem =>
    simp only [Stmt.exec, commit]
    split
    case h_2    => exact h
    case h_1 ho => rw [(Store.redeem_ok ho).right]; exact ⟨h.users, h.keys, h.others⟩
  case createDelivery D U trackingId =>
    simp only [Stmt.exec, commit]
    split
    case h_2    => exact h
    case h_1 ho =>
      obtain ⟨hi, he⟩ := Store.createDelivery_ok ho
      rw [he]
      refine ⟨h.users, h.keys, fun r hm D' hr hn => ?_⟩
      rw [Table.find?_insert hi]
      split
      case isTrue  => rfl
      case isFalse => exact h.others r hm D' hr hn
  case debit =>
    simp only [Stmt.exec, commit]
    split
    case h_2    => exact h
    case h_1 ho =>
      obtain ⟨r, hb, hr, he⟩ := Store.debit_ok ho
      refine h.booked hb (congrArg Store.deliveries he).symm (fun D hk => ?_) fun D hk => ?_
      case refine_1 => simp [hr.idempotencyKey] at hk
      case refine_2 => simp [Store.refunds, hr.reason] at hk
  case refund D U amount =>
    simp only [Stmt.exec, commit]
    split
    case h_2    => exact h
    case h_1 ho =>
      obtain ⟨r, hb, hr, he⟩ := Store.refund_ok ho
      obtain ⟨spend, hm, hs, rfl, rfl⟩ := hw D U amount rfl
      refine h.booked hb (congrArg Store.deliveries he).symm (fun D' hk => ?_) fun D' hk => ?_
      case refine_1 =>
        obtain rfl : D = D' := by simpa [hr.idempotencyKey] using hk
        exact ⟨by simp [Store.refunds, hr.reason, hr.deliveryId], spend, hm, hs, hr.userId, hr.amount⟩
      case refine_2 =>
        obtain rfl : D = D' := by simpa [Store.refunds, hr.reason, hr.deliveryId] using hk
        exact hr.idempotencyKey
  all_goals exact ⟨h.users, h.keys, h.others⟩

-- Only the key of the reservation is left to a refund of a delivery that does not exist.
theorem Store.Sound.key_of_refunds {r : WalletTransaction} (h : db.Sound)
    (hm : r ∈ db.wallet.ledger.rows) (hr : Store.refunds D r)
    (hd : db.deliveries.find? D = none) : r.idempotencyKey = some (.refund D) := by
  by_contra hk
  simpa [hd] using h.others r hm D hr hk

theorem Store.Sound.refunded_of_key (h : db.Sound) (hk : .refund D ∈ db.wallet.ledger.keys) :
    db.Refunded D := by
  obtain ⟨r, hm, hk⟩ := List.mem_filterMap.mp hk
  exact ⟨r, hm, (h.keys r hm D hk).left⟩

-- A refund can only fail because the delivery has already been refunded.
theorem refunded_of_refund (h : db.Sound) (hu : (db.wallet.balances.find? U).isSome) :
    (Stmt.exec (.refund D U amount) db).snd.Refunded D ∧
      ∀ e, (Stmt.exec (.refund D U amount) db).fst = .error e → e.isUniqueViolation := by
  simp only [Stmt.exec, commit]
  cases ho : db.refund D U amount
  case ok db' =>
    obtain ⟨r, hb, hr, _⟩ := Store.refund_ok ho
    refine ⟨⟨r, ?_, ?_⟩, fun e he => by cases he⟩
    case refine_1 => rw [Ledger.rows_insert hb.ledger]; exact .head _
    case refine_2 => simp [Store.refunds, hr.reason, hr.deliveryId]
  case error e =>
    have hw : db.wallet.refund D U amount = .error e := by
      unfold Store.refund at ho
      cases hw : db.wallet.refund D U amount <;> rw [hw] at ho
      case ok    => contradiction
      case error => rw [Except.error.inj ho]
    have used : .refund D ∈ db.wallet.ledger.keys := by
      by_contra hn
      obtain ⟨w, hw'⟩ : ∃ w, db.wallet.refund D U amount = .ok w :=
        Wallet.creditWithinTx_isOk hu fun k hk => Option.some.inj hk ▸ hn
      simp [hw] at hw'
    refine ⟨h.refunded_of_key used, fun e' he => ?_⟩
    obtain rfl := Except.error.inj he
    obtain ⟨b, hb⟩ := Option.isSome_iff_exists.mp hu
    simp only [Wallet.refund, Wallet.creditWithinTx, hb] at hw
    split at hw
    case h_1 => rw [← Except.error.inj hw]; rfl
    case h_2 => contradiction

theorem released_of_release (h : db.Redeemed D) :
    (Stmt.exec (.release D P) db).snd.Released D := by
  obtain ⟨r, hf⟩ := h
  simp only [Store.Released, Stmt.exec, Store.find?_release, hf, if_true, Option.map_some]
  refine ⟨_, rfl, ?_⟩
  cases hs : r.status <;> simp [Redemptions.redeemed, Redemptions.markReleased, hs]

end

-- The delivery whose reservations the statement reverses.
def Stmt.reverses : Stmt → Option DeliveryId
  | refund D _ _ => some D
  | release D _  => some D
  | _            => none

-- The entry is a query that has returned the delivery as a candidate.
def Finds (e : Entry Stmt.sig Store Call) (D : DeliveryId) : Prop :=
  match e.stmt with
  | .debitCandidates lower upper batch      => D ∈ e.pre.debitCandidates lower upper batch
  | .redemptionCandidates lower upper batch => D ∈ e.pre.redemptionCandidates lower upper batch
  | _                                       => False

-- What had been reserved for the delivery in `db₀` has been given back in `db`.
structure Reversed (db₀ db : Store) (D : DeliveryId) : Prop where
  refunded : db₀.Spent D → ∃ r ∈ db.wallet.ledger.rows,
    r.idempotencyKey = some (.refund D) ∧ db.RefundsInFull D r
  released : db₀.Redeemed D → db.Released D

theorem Reversed.of_refunded {db₀ db : Store} {D : DeliveryId} (h : db.Sound)
    (hd : db.deliveries.find? D = none) (hf : db₀.Spent D → db.Refunded D)
    (hr : db₀.Redeemed D → db.Released D) : Reversed db₀ db D where
  released    := hr
  refunded hs := by
    obtain ⟨r, hm, hr⟩ := hf hs
    have hk := h.key_of_refunds hm hr hd
    exact ⟨r, hm, hk, h.keys r hm D hk⟩

def outline (limits : Limits) : Outline Stmt.sig Store Call where
  inv w       := w.db.Sound ∧ ∀ e ∈ w.log, e.pre.Grows limits w.db
  rely t w w' := w'.own t = w.own t ∧ w.db.Grows limits w'.db
  pre _ c x w := (∃ faults, c = .sweep faults) → ∀ D, x.reverses = some D → w.db.Overdue limits D
  post t c w  := ∀ faults, c = .sweep faults → ∀ e ∈ w.own t, ∀ D, Finds e D → faults D = {} →
    w.db.Overdue limits D ∧ (e.pre.Spent D → w.db.Refunded D) ∧ (e.pre.Redeemed D → w.db.Released D)

-- The assertion of a sweep that still has to refund the deliveries `ds` and to release the
-- redemptions of the deliveries `rs`, unless it has been told that their transactions fail.
structure Reaping (limits : Limits) (faults : DeliveryId → ReverseFaults) (t : Nat)
    (ds rs : List DeliveryId) (w : History) : Prop where
  overdue  : ∀ D, D ∈ ds ∨ D ∈ rs → w.db.Overdue limits D
  found    : ∀ e ∈ w.own t, ∀ D, Finds e D → w.db.Overdue limits D
  refunded : ∀ e ∈ w.own t, ∀ D, Finds e D → faults D = {} →
    D ∈ ds ∨ (e.pre.Spent D → w.db.Refunded D)
  released : ∀ e ∈ w.own t, ∀ D, Finds e D → faults D = {} →
    D ∈ rs ∨ (e.pre.Redeemed D → w.db.Released D)

namespace Reaping

variable {faults : DeliveryId → ReverseFaults} {t : Nat} {ds rs : List DeliveryId} {w w' : History}
variable {c : Call} {x : Stmt} {D : DeliveryId}

theorem rely (h : Reaping limits faults t ds rs w) (hr : (outline limits).rely t w w') :
    Reaping limits faults t ds rs w' where
  overdue D hD := hr.right.overdue D <| h.overdue D hD
  found e he D hs := hr.right.overdue D <| h.found e (hr.left ▸ he) D hs
  refunded e he D hs hf := (h.refunded e (hr.left ▸ he) D hs hf).imp_right fun hn hd =>
    hr.right.refunded <| hn hd
  released e he D hs hf := (h.released e (hr.left ▸ he) D hs hf).imp_right fun hn hd =>
    hr.right.released D <| hn hd

theorem exec (h : Reaping limits faults t ds rs w) (hx : ∀ D, ¬Finds ⟨t, c, x, w.db⟩ D)
    (hg : InGrace limits w.db x) :
    Reaping limits faults t ds rs (w.exec (system limits) t c x) := by
  have old {e D} (he : e ∈ (w.exec (system limits) t c x).own t) (hs : Finds e D) : e ∈ w.own t := by
    rw [World.own_exec] at he
    refine (List.mem_cons.mp he).resolve_left ?_
    rintro rfl
    exact hx D hs
  have hg := grows_exec hg
  exact {
    overdue  := fun D hD => hg.overdue D <| h.overdue D hD
    found    := fun e he D hs => hg.overdue D <| h.found e (old he hs) D hs
    refunded := fun e he D hs hf => (h.refunded e (old he hs) D hs hf).imp_right fun hn hd =>
      hg.refunded <| hn hd
    released := fun e he D hs hf => (h.released e (old he hs) D hs hf).imp_right fun hn hd =>
      hg.released D <| hn hd
  }

-- A delivery that does not have to be refunded anymore.
theorem refund (h : Reaping limits faults t (D :: ds) rs w)
    (hd : faults D = {} → ∀ e ∈ w.own t, e.pre.Spent D → w.db.Refunded D) :
    Reaping limits faults t ds rs w where
  overdue D hD := h.overdue D <| hD.imp_left (.tail _)
  found        := h.found
  released     := h.released
  refunded e he D' hs hf := by
    obtain hm | hn := h.refunded e he D' hs hf
    case inr => exact .inr hn
    case inl =>
      obtain rfl | hm := List.mem_cons.mp hm
      case inl => exact .inr <| hd hf e he
      case inr => exact .inl hm

theorem release (h : Reaping limits faults t ds (D :: rs) w)
    (hd : faults D = {} → ∀ e ∈ w.own t, e.pre.Redeemed D → w.db.Released D) :
    Reaping limits faults t ds rs w where
  overdue D hD := h.overdue D <| hD.imp_right (.tail _)
  found        := h.found
  refunded     := h.refunded
  released e he D' hs hf := by
    obtain hm | hn := h.released e he D' hs hf
    case inr => exact .inr hn
    case inl =>
      obtain rfl | hm := List.mem_cons.mp hm
      case inl => exact .inr <| hd hf e he
      case inr => exact .inl hm

-- What a sweep has found out about a delivery.
theorem findSpend (h : Reaping limits faults t (D :: ds) rs w) (hi : (outline limits).inv w) :
    Reaping limits faults t
      (if ((system limits).exec (.findSpend D) w.db).fst.isSome then D :: ds else ds) rs w := by
  split
  case isTrue     => exact h
  case isFalse hn =>
    refine h.refund fun _ e he hs => absurd ?_ hn
    obtain ⟨r, hm, hr⟩ := (hi.right e <| List.mem_of_mem_filter he).spent hs
    exact List.find?_isSome.mpr ⟨r, List.mem_reverse.mpr hm, hr⟩

theorem findRefund {b : Bool} (h : Reaping limits faults t (if b then D :: ds else ds) rs w) :
    Reaping limits faults t
      (if b && ((system limits).exec (.findRefund D) w.db).fst.isNone then D :: ds else ds)
      rs w := by
  cases b
  case false => exact h
  case true =>
    cases hf : ((system limits).exec (.findRefund D) w.db).fst
    case none   => exact h
    case some r =>
      refine h.refund fun _ _ _ _ => ⟨r, ?_, List.find?_some hf⟩
      exact List.mem_reverse.mp <| List.mem_of_find?_eq_some hf

theorem findRedeemed (h : Reaping limits faults t ds (D :: rs) w) (hi : (outline limits).inv w) :
    Reaping limits faults t ds
      (if ((system limits).exec (.findRedeemed D) w.db).fst.isSome then D :: rs else rs) w := by
  split
  case isTrue     => exact h
  case isFalse hn =>
    refine h.release fun _ e he hs => ?_
    obtain ⟨r, hf⟩ := (hi.right e <| List.mem_of_mem_filter he).redeemed D hs
    refine ⟨r, hf, ?_⟩
    cases hr : r.status
    case released => rfl
    case redeemed => simp [system, Stmt.exec, hf, hr] at hn

-- The candidates that a query has found have yet to be reversed.
theorem query {ids found : List DeliveryId} (h : Reaping limits faults t ids ids w)
    (hq : ∀ D, Finds ⟨t, c, x, w.db⟩ D → D ∈ found) (ho : ∀ D ∈ found, w.db.Overdue limits D)
    (hx : InGrace limits w.db x) :
    Reaping limits faults t (ids ++ found) (ids ++ found) (w.exec (system limits) t c x) := by
  have hg := grows_exec hx
  refine ⟨fun D hD => hg.overdue D ?_, fun e he D hs => hg.overdue D ?_, fun e he D hs hf => ?_,
    fun e he D hs hf => ?_⟩
  case refine_1 =>
    rw [or_self] at hD
    exact (List.mem_append.mp hD).elim (fun hD => h.overdue D <| .inl hD) (ho D)
  all_goals
    rw [World.own_exec] at he
    obtain rfl | he := List.mem_cons.mp he
  case refine_2.inl => exact ho D <| hq D hs
  case refine_2.inr => exact h.found e he D hs
  case refine_3.inl => exact .inl <| List.mem_append_right _ <| hq D hs
  case refine_4.inl => exact .inl <| List.mem_append_right _ <| hq D hs
  case refine_3.inr =>
    exact (h.refunded e he D hs hf).imp (List.mem_append_left _) fun hn hd => hg.refunded <| hn hd
  case refine_4.inr =>
    exact (h.released e he D hs hf).imp (List.mem_append_left _) fun hn hd => hg.released D <| hn hd

end Reaping

section

variable {faults : DeliveryId → ReverseFaults} {t : Nat} {ds rs ids : List DeliveryId} {w : History}
variable {D : DeliveryId}

theorem wpm_refundForDelivery (h : Reaping limits faults t (D :: ds) rs w) :
    (outline limits).wpm (system limits) t (.sweep faults)
      (WalletService.refundForDelivery D (faults D).refund) (fun _ => Reaping limits faults t ds rs)
      (fun _ w => faults D ≠ {} ∧ Reaping limits faults t ds rs w) w := by
  unfold WalletService.refundForDelivery
  rw [Outline.wpm_bind]
  refine Outline.wpm_stmt.mpr ⟨nofun, fun w' hr hi _ => ?_⟩
  have h' := h.rely hr
  have hn := h'.findSpend hi
  cases hs : ((system limits).exec (.findSpend D) w'.db).fst
  case none       =>
    rw [hs] at hn
    exact hn.exec nofun trivial
  case some spend =>
    have hu := hi.left.users spend <| List.mem_reverse.mp <| List.mem_of_find?_eq_some hs
    have h' := h'.exec (c := .sweep faults) (x := .findSpend D) nofun trivial
    -- Once it is clear that the transaction fails, nothing is required of it anymore.
    have failed {e : AppError} {w} (hf : (faults D).refund ≠ .committed)
        (h : Reaping limits faults t (D :: ds) rs w) :
        (outline limits).wpm (system limits) t (.sweep faults)
          (if e.isUniqueViolation then pure () else throw e : App Unit)
          (fun _ => Reaping limits faults t ds rs)
          (fun _ w => faults D ≠ {} ∧ Reaping limits faults t ds rs w) w := by
      have hne : faults D ≠ {} := fun he => hf <| by rw [he]
      have h := h.refund fun hf => absurd hf hne
      split
      case isTrue  => exact h
      case isFalse => exact ⟨hne, h⟩
    have due : (outline limits).pre t (.sweep faults) (.refund D spend.userId spend.amount)
        (w'.exec (system limits) t (.sweep faults) (.findSpend D)) := by
      intro _ D' he
      obtain rfl := Option.some.inj he
      exact h'.overdue D <| .inl <| .head _
    dsimp only
    rw [Outline.wpm_handle]
    refine Outline.wpm_attempt.mpr ⟨fun _ => ?_, fun e he => ?_, fun e he => ?_⟩
    case refine_2 => exact failed (by simp [he]) h'
    case refine_3 =>
      refine Outline.wpm_tx.mpr ⟨due, fun w'' hr' _ _ => ?_⟩
      have h'' := (h'.rely hr').exec (c := .sweep faults)
        (x := .refund D spend.userId spend.amount) nofun trivial
      split <;> exact failed (by simp [he]) h''
    case refine_1 =>
      refine Outline.wpm_tx.mpr ⟨due, fun w'' hr' hi' _ => ?_⟩
      have h'' := (h'.rely hr').exec (c := .sweep faults)
        (x := .refund D spend.userId spend.amount) nofun trivial
      have hu' := hr'.right.users _ hu
      have hd := @refunded_of_refund _ D _ spend.amount hi'.left hu'
      have h'' := h''.refund fun _ _ _ _ => hd.left
      split
      case h_1    => exact h''
      case h_2 ho => rw [if_pos <| hd.right _ ho]; exact h''

theorem wpm_releaseForDelivery (h : Reaping limits faults t ds (D :: rs) w) :
    (outline limits).wpm (system limits) t (.sweep faults)
      (PromoService.releaseForDelivery D (faults D).release)
      (fun _ => Reaping limits faults t ds rs) (fun _ => Reaping limits faults t ds rs) w := by
  unfold PromoService.releaseForDelivery
  rw [Outline.wpm_bind]
  refine Outline.wpm_stmt.mpr ⟨nofun, fun w' hr hi _ => ?_⟩
  have h' := h.rely hr
  have hn := h'.findRedeemed hi
  cases hs : ((system limits).exec (.findRedeemed D) w'.db).fst
  case none =>
    rw [hs] at hn
    exact hn.exec nofun trivial
  case some redemption =>
    have h' := h'.exec (c := .sweep faults) (x := .findRedeemed D) nofun trivial
    have hf : w'.db.Redeemed D := by
      obtain ⟨hf, _⟩ := Option.filter_eq_some_iff.mp hs
      exact ⟨redemption, hf⟩
    have due : (outline limits).pre t (.sweep faults) (.release D redemption.promoCodeId)
        (w'.exec (system limits) t (.sweep faults) (.findRedeemed D)) := by
      intro _ D' he
      obtain rfl := Option.some.inj he
      exact h'.overdue D <| .inr <| .head _
    have released : ∀ w'', (outline limits).rely t
        (w'.exec (system limits) t (.sweep faults) (.findRedeemed D)) w'' →
        Reaping limits faults t ds rs
          (w''.exec (system limits) t (.sweep faults) (.release D redemption.promoCodeId)) := by
      intro w'' hr'
      have h'' := (h'.rely hr').exec (c := .sweep faults) (x := .release D redemption.promoCodeId)
        nofun trivial
      exact h''.release fun _ _ _ _ => released_of_release <| hr'.right.redeemed D hf
    refine Outline.wpm_attempt.mpr ⟨fun _ => ?_, fun e he => ?_, fun e he => ?_⟩
    case refine_1 => exact Outline.wpm_stmt.mpr ⟨due, fun w'' hr' _ _ => released w'' hr'⟩
    case refine_3 => exact Outline.wpm_stmt.mpr ⟨due, fun w'' hr' _ _ => released w'' hr'⟩
    case refine_2 => exact h'.release fun hf => absurd he <| by simp [hf]

theorem wpm_reapIfOrphan (h : Reaping limits faults t (D :: ids) (D :: ids) w) :
    (outline limits).wpm (system limits) t (.sweep faults) (reapIfOrphan D (faults D))
      (fun _ => Reaping limits faults t ids ids) (fun _ => Reaping limits faults t ids ids) w := by
  unfold reapIfOrphan
  rw [Outline.wpm_bind]
  refine Outline.wpm_stmt.mpr ⟨nofun, fun w₁ hr₁ _ _ => ?_⟩
  have h := h.rely hr₁
  have hd : ((system limits).exec (.findDelivery D) w₁.db).fst = none :=
    (h.overdue D <| .inl <| .head _).left
  have h := h.exec (c := .sweep faults) (x := .findDelivery D) nofun trivial
  rw [hd]
  simp only [Option.isSome_none, Bool.false_eq_true, if_false]
  rw [Outline.wpm_bind]
  refine Outline.wpm_stmt.mpr ⟨nofun, fun w₂ hr₂ hi₂ _ => ?_⟩
  have h := ((h.rely hr₂).findSpend hi₂).exec (c := .sweep faults) (x := .findSpend D) nofun trivial
  rw [Outline.wpm_bind]
  refine Outline.wpm_stmt.mpr ⟨nofun, fun w₃ hr₃ _ _ => ?_⟩
  have h := (h.rely hr₃).findRefund.exec (c := .sweep faults) (x := .findRefund D) nofun trivial
  rw [Outline.wpm_bind]
  refine Outline.wpm_stmt.mpr ⟨nofun, fun w₄ hr₄ hi₄ _ => ?_⟩
  have h := ((h.rely hr₄).findRedeemed hi₄).exec (c := .sweep faults) (x := .findRedeemed D) nofun
    trivial
  generalize (_ && _ : Bool) = needsRefund at h ⊢
  generalize Option.isSome _ = needsRelease at h ⊢
  cases needsRefund <;> cases needsRelease <;>
    simp only [Bool.not_false, Bool.not_true, Bool.and_false, Bool.false_and, Bool.and_self,
      Bool.false_eq_true, if_false, if_true] at h ⊢
  case false.false => exact h
  case false.true =>
    rw [Outline.wpm_bind]
    exact wpm_releaseForDelivery h
  case true.false =>
    rw [Outline.wpm_bind]
    exact Outline.wpm_mono (wpm_refundForDelivery h) (fun _ _ h => h) (fun _ _ h => h.right)
  case true.true =>
    rw [Outline.wpm_bind]
    refine Outline.wpm_mono (wpm_refundForDelivery h) (fun _ _ h => ?_) fun _ _ h => ?_
    case refine_1 =>
      rw [Outline.wpm_bind]
      exact wpm_releaseForDelivery h
    case refine_2 =>
      -- Without the refund the redemption is left to the next sweep.
      exact h.right.release fun hf => absurd hf h.left

theorem wpm_reapAll (h : Reaping limits faults t ids ids w) :
    (outline limits).wpm (system limits) t (.sweep faults) (reapAll faults ids)
      (fun _ => Reaping limits faults t [] []) (fun _ => Reaping limits faults t [] []) w := by
  induction ids generalizing w
  case nil => exact h
  case cons D rest ih =>
    rw [reapAll, Outline.wpm_bind, Outline.wpm_safe]
    exact Outline.wpm_mono (wpm_reapIfOrphan h) (fun _ _ h => ih h) (fun _ _ h => ih h)

end

section

variable {db : Store} {D : DeliveryId} {now : Time} {lower : Int} {batch : Nat}

theorem Store.overdue_of_within {time : Time} (hd : db.deliveries.find? D = none)
    (hr : db.ReservedAt D time) (hw : within lower (now - limits.graceMs) time)
    (hc : now ≤ db.clock) : db.Overdue limits D := by
  have := (of_decide_eq_true hw).right
  refine ⟨hd, time, hr, ?_⟩
  simp only [Time] at *
  omega

theorem Store.overdue_of_debitCandidates
    (h : D ∈ db.debitCandidates lower (now - limits.graceMs) batch) (hc : now ≤ db.clock) :
    db.Overdue limits D := by
  obtain ⟨_, hp⟩ := List.mem_filter.mp <| List.mem_of_mem_take h
  obtain ⟨hs, hd, _⟩ := of_decide_eq_true hp
  cases hf : db.spentAt.find? D <;> rw [hf] at hs
  case none => contradiction
  case some => exact Store.overdue_of_within hd (.inl hf) hs hc

theorem Store.overdue_of_redemptionCandidates
    (h : D ∈ db.redemptionCandidates lower (now - limits.graceMs) batch) (hc : now ≤ db.clock) :
    db.Overdue limits D := by
  obtain ⟨⟨D, r⟩, hm, rfl⟩ := List.mem_map.mp <| List.mem_of_mem_take h
  obtain ⟨_, hp⟩ := List.mem_filter.mp hm
  obtain ⟨_, hs, hd⟩ := of_decide_eq_true hp
  dsimp only at hs hd ⊢
  cases hf : db.redeemedAt.find? D <;> rw [hf] at hs
  case none => contradiction
  case some => exact Store.overdue_of_within hd (.inr hf) hs hc

end

theorem wpm_sweep {faults : DeliveryId → ReverseFaults} {t : Nat} {w : History}
    (h : w.own t = []) :
    (outline limits).wpm (system limits) t (.sweep faults) (sweep limits faults)
      (fun _ => Reaping limits faults t [] []) (fun _ => Reaping limits faults t [] []) w := by
  have h : Reaping limits faults t [] [] w := ⟨by simp, by simp [h], by simp [h], by simp [h]⟩
  unfold sweep
  rw [Outline.wpm_bind]
  refine Outline.wpm_stmt.mpr ⟨nofun, fun w₁ hr₁ _ _ => ?_⟩
  have h := (h.rely hr₁).exec (c := .sweep faults) (x := .dateNow) nofun trivial
  obtain ⟨now, hn⟩ : ∃ now, ((system limits).exec .dateNow w₁.db).fst = now := ⟨_, rfl⟩
  rw [hn]
  rw [Outline.wpm_bind]
  refine Outline.wpm_stmt.mpr ⟨nofun, fun w₂ hr₂ _ _ => ?_⟩
  have hc₂ : now ≤ w₂.db.clock := hn ▸ hr₂.right.clock
  have h := (h.rely hr₂).query (c := .sweep faults)
    (x := .debitCandidates (now - limits.graceMs - limits.lookbackMs) (now - limits.graceMs)
      limits.batch)
    (fun _ hs => hs) (fun _ hD => Store.overdue_of_debitCandidates hD hc₂) trivial
  rw [Outline.wpm_bind]
  refine Outline.wpm_stmt.mpr ⟨nofun, fun w₃ hr₃ _ _ => ?_⟩
  have hc₃ : now ≤ w₃.db.clock := hc₂.trans hr₃.right.clock
  have h := (h.rely hr₃).query (c := .sweep faults)
    (x := .redemptionCandidates (now - limits.graceMs - limits.lookbackMs) (now - limits.graceMs)
      limits.batch)
    (fun _ hs => hs) (fun _ hD => Store.overdue_of_redemptionCandidates hD hc₃) trivial
  refine wpm_reapAll ?_
  have same {D : DeliveryId} {ids : List DeliveryId} : D ∈ ids.eraseDups ↔ D ∈ ids := by
    simp
  refine ⟨fun D hD => h.overdue D ?_, h.found, fun e he D hs hf => ?_, fun e he D hs hf => ?_⟩
  case refine_1 => rwa [same] at hD
  case refine_2 => rw [same]; exact h.refunded e he D hs hf
  case refine_3 => rw [same]; exact h.released e he D hs hf

-- Nothing is required of the calls that are not sweeps.
theorem wpm_of_ne {p : App Unit} {t : Nat} {c : Call} {w : History}
    (hc : ∀ faults, c ≠ .sweep faults) :
    (outline limits).wpm (system limits) t c p (fun _ => (outline limits).post t c)
      (fun _ => (outline limits).post t c) w := by
  refine Outline.wpm_of_stable ?_ ?_ ?_ ?_
  case refine_1 => exact fun _ he => absurd he.choose_spec <| hc _
  all_goals intros; exact fun faults he => absurd he <| hc faults

section

open Reaper.DeliveriesService

variable {t : Nat} {c : Call} {D : DeliveryId} {inp : CreateInput}

-- What the calls consist of: the refund of what has been spent, and statements other than a refund.
inductive Block : (α : Type) → App α → Prop
  | tx {α : Type} {x : Stmt} {f : x.Res → Except AppError α} :
    (∀ D U amount, x ≠ .refund D U amount) → Block α (App.tx x f)
  | refund {D : DeliveryId} {fault : Outcome AppError} :
    Block Unit (WalletService.refundForDelivery D fault)

theorem Block.stmt {x : Stmt} (h : ∀ D U amount, x ≠ .refund D U amount) :
    Method.Built Block (App.stmt x) :=
  .block <| .tx h

theorem releaseForDelivery_built {fault : Outcome AppError} :
    Method.Built Block (PromoService.releaseForDelivery D fault) := by
  refine .bind (Block.stmt nofun) fun r => ?_
  split
  case h_1 => exact .pure
  case h_2 => exact .attempt <| Block.stmt nofun

theorem compensateReservations_built {faults : ReverseFaults} :
    Method.Built Block (compensateReservations D faults) :=
  .bind (.safe releaseForDelivery_built) fun _ => .safe <| .block .refund

theorem reserve_built : Method.Built Block (reserve D inp) := by
  refine .handle (.bind ?_ fun _ => ?_) fun _ => .bind compensateReservations_built fun _ => .throw
  case refine_1 =>
    unfold redeemPromo
    split
    case h_1 => exact .pure
    case h_2 => exact .attempt <| .block <| .tx nofun
  case refine_2 =>
    unfold debitCredits
    split
    case isTrue  => exact .attempt <| .block <| .tx nofun
    case isFalse => exact .pure

theorem placeWithRetries_built {tries attempt : Nat} :
    Method.Built Block (placeWithRetries D inp tries attempt) := by
  induction tries generalizing attempt
  case zero => exact .bind compensateReservations_built fun _ => .throw
  case succ tries ih =>
    refine .bind (.handle (.bind (.attempt <| .block <| .tx nofun) fun _ => .pure) fun e => ?_)
      fun placed => ?_
    case refine_1 =>
      split
      case isTrue  => exact .pure
      case isFalse => exact .bind compensateReservations_built fun _ => .throw
    case refine_2 =>
      split
      case isTrue  => exact .pure
      case isFalse => exact ih

theorem reapIfOrphan_built {faults : ReverseFaults} :
    Method.Built Block (reapIfOrphan D faults) := by
  refine .bind (Block.stmt nofun) fun _ => ?_
  split
  case isTrue => exact .pure
  case isFalse =>
    refine .bind (Block.stmt nofun) fun _ => .bind (Block.stmt nofun) fun _ =>
      .bind (Block.stmt nofun) fun _ => ?_
    dsimp only
    split
    case isTrue => exact .pure
    case isFalse =>
      have release {b : Bool} : Method.Built Block
          (if b then (do PromoService.releaseForDelivery D faults.release; pure true : App Bool)
            else pure true) := by
        split
        case isTrue  => exact .bind releaseForDelivery_built fun _ => .pure
        case isFalse => exact .pure
      split
      case isTrue  => exact .bind (.block .refund) fun _ => release
      case isFalse => exact release

theorem reapAll_built {faults : DeliveryId → ReverseFaults} {ids : List DeliveryId} :
    Method.Built Block (reapAll faults ids) := by
  induction ids
  case nil     => exact .pure
  case cons ih => exact .bind (.safe reapIfOrphan_built) fun _ => ih

-- A refund is of what the thread has read to be spent on the delivery.
def RefundFollows (x : Stmt) (es : Log) : Prop :=
  ∀ D U amount, x = .refund D U amount → ∃ e ∈ es, ∃ spend ∈ e.pre.wallet.ledger.rows,
    WalletStmt.spends D spend ∧ U = spend.userId ∧ amount = spend.amount

theorem refundForDelivery_follows {fault : Outcome AppError} {es : Log} :
    (WalletService.refundForDelivery D fault).Follows (system limits) t c RefundFollows
      (fun _ _ => True) (fun _ _ => True) es := by
  refine Method.follows_stmt_bind.mpr ⟨nofun, fun db => ?_⟩
  split
  case h_1 => trivial
  case h_2 spend hs =>
    have hs : db.wallet.ledger.rows.reverse.find? (WalletStmt.spends D) = some spend := hs
    refine Method.follows_handle.mpr <| (Method.follows_attempt ?_).mono (fun _ _ h => h) ?_
    case refine_1 =>
      refine Method.follows_tx.mpr ⟨fun D' U amount hx => ?_, fun db => by split <;> trivial⟩
      obtain ⟨rfl, rfl, rfl⟩ := Stmt.refund.inj hx
      exact ⟨_, .head _, spend, List.mem_reverse.mp <| List.mem_of_find?_eq_some hs,
        List.find?_some hs, rfl, rfl⟩
    case refine_2 =>
      intro e _ _
      split <;> trivial

theorem follows_of_built {α : Type} {p : App α} {es : Log} (hp : Method.Built Block p) :
    p.Follows (system limits) t c RefundFollows (fun _ _ => True) (fun _ _ => True) es := by
  refine Method.Follows.of_built hp fun hb => ?_
  cases hb
  case tx x hx f =>
    exact Method.follows_tx.mpr
      ⟨fun D U amount he => absurd he <| hx D U amount, fun db => by split <;> trivial⟩
  case refund => exact refundForDelivery_follows

theorem call_refundFollows :
    ((system limits).prog t c).Follows (system limits) t c RefundFollows (fun _ _ => True) [] := by
  cases c
  case create   =>
    exact Method.follows_toCall.mpr <| follows_of_built <|
      .bind reserve_built fun _ => placeWithRetries_built
  case sweep    =>
    refine Method.follows_toCall.mpr <| follows_of_built <| .bind (Block.stmt nofun) fun _ => ?_
    exact .bind (Block.stmt nofun) fun _ => .bind (Block.stmt nofun) fun _ => reapAll_built
  case passTime => exact Method.follows_toCall.mpr <| follows_of_built <| Block.stmt nofun

-- No statement refunds anything but what has been spent.
theorem warranted {P : Policy Stmt.sig Store Call} {init : Store → Prop}
    {s : Pool Stmt.sig Store Call} {x : Stmt} (st : StepOf (system limits) P init s t c x)
    (hg : ∀ e ∈ s.log, e.pre.Grows limits s.db) : Warranted s.db x := by
  intro D U amount hx
  obtain ⟨e, he, spend, hm, h⟩ :=
    st.reachable.follows_aboutTo (fun _ _ _ => call_refundFollows) st.aboutTo D U amount hx
  exact ⟨spend, (hg e <| List.mem_of_mem_filter he).ledger spend hm, h⟩

end

theorem outline_valid :
    (outline limits).Valid (system limits) (commitsInGrace limits) Store.Sound where
  rely_refl _ _      := ⟨rfl, .refl⟩
  rely_trans h₁ h₂   := ⟨h₂.left.trans h₁.left, h₁.right.trans h₂.right⟩
  inv_init h         := ⟨h, by simp⟩
  post_stable hr hp faults hc e he D hs hf := by
    obtain ⟨ho, hd, hp⟩ := hp faults hc e (hr.left ▸ he) D hs hf
    exact ⟨hr.right.overdue D ho, fun hs => hr.right.refunded <| hd hs,
      fun hs => hr.right.released D <| hp hs⟩
  spawn {t c w} _ _ hn := by
    cases c
    case sweep faults =>
      refine Outline.wp_toCall.mpr <| Outline.wpm_mono (wpm_sweep <| World.own_eq_nil hn) ?_ ?_
      all_goals
        intro _ w h faults' hc e he D hs hf
        obtain rfl := Call.sweep.inj hc
        exact ⟨h.found e he D hs, (h.refunded e he D hs hf).resolve_left nofun,
          (h.released e he D hs hf).resolve_left nofun⟩
    all_goals exact Outline.wp_toCall.mpr <| wpm_of_ne nofun
  inv_step st hi _   := by
    have hg := grows_exec st.allowed
    refine ⟨hi.left.exec (warranted st hi.right), fun e he => ?_⟩
    obtain rfl | he := List.mem_cons.mp he
    case inl => exact hg
    case inr => exact (hi.right e he).trans hg
  rely_step st _ _ hne := ⟨World.own_exec_of_ne hne, grows_exec st.allowed⟩
  pre_step st _ _ _ _ hp hc D hx := (grows_exec st.allowed).overdue D <| hp hc D hx

-- The window of a sweep that begins at the given time.
def Limits.upper (limits : Limits) (now : Time) : Int :=
  now - limits.graceMs

def Limits.lower (limits : Limits) (now : Time) : Int :=
  now - limits.graceMs - limits.lookbackMs

def Limits.covers (limits : Limits) (now time : Time) : Bool :=
  limits.lower now ≤ time ∧ (time : Int) < limits.upper now

namespace Store

variable {db : Store} {now : Time} {D : DeliveryId}

-- The row spends credits on a delivery that does not exist, within the window of the sweep, and it
-- has not been refunded.
def strandedSpend (limits : Limits) (now : Time) (db : Store) (r : WalletTransaction) : Bool :=
  (spentOn r).any fun D =>
    (db.spentAt.find? D).any (limits.covers now) ∧ db.deliveries.find? D = none ∧ !db.refunded D

def strandedRedemption (limits : Limits) (now : Time) (db : Store)
    (row : DeliveryId × PromoRedemption) : Bool :=
  row.snd.status = .redeemed ∧ (db.redeemedAt.find? row.fst).any (limits.covers now) ∧
    db.deliveries.find? row.fst = none

-- The credits spent on the delivery are stranded, and there are not too many older ones.
def SpendDue (limits : Limits) (now : Time) (db : Store) (D : DeliveryId) : Prop :=
  ∃ newer r older, db.wallet.ledger.rows = newer ++ r :: older ∧ WalletStmt.spends D r ∧
    db.strandedSpend limits now r ∧ older.countP (db.strandedSpend limits now) < limits.batch

def RedemptionDue (limits : Limits) (now : Time) (db : Store) (D : DeliveryId) : Prop :=
  ∃ older r newer, db.promos.redemptions.table.rows = older ++ (D, r) :: newer ∧
    db.strandedRedemption limits now (D, r) ∧
    older.countP (db.strandedRedemption limits now) < limits.batch

theorem mem_take_append {α : Type} {l l' : List α} {a : α} {n : Nat} (h : l.length < n) :
    a ∈ (l ++ a :: l').take n := by
  rw [List.take_append, List.mem_append]
  obtain ⟨k, hk⟩ : ∃ k, n - l.length = k + 1 := ⟨n - l.length - 1, by omega⟩
  exact .inr <| hk ▸ .head _

theorem mem_debitCandidates (h : db.SpendDue limits now D) :
    D ∈ db.debitCandidates (limits.lower now) (limits.upper now) limits.batch := by
  obtain ⟨newer, r, older, hr, hs, hd, hn⟩ := h
  have hD : spentOn r = some D := by
    obtain ⟨hD, ht, hr⟩ := of_decide_eq_true hs
    simp [spentOn, ht, hr, hD]
  rw [strandedSpend, hD, Option.any_some] at hd
  unfold debitCandidates
  rw [hr, List.reverse_append, List.reverse_cons, List.append_assoc, List.filterMap_append,
    List.singleton_append, List.filterMap_cons_some hD, List.filter_append,
    List.filter_cons_of_pos (by exact hd)]
  refine mem_take_append ?_
  rw [← List.countP_eq_length_filter, List.countP_filterMap, List.countP_reverse]
  refine (List.countP_congr fun r _ => ?_).trans_lt hn
  unfold strandedSpend
  cases spentOn r <;> rfl

theorem mem_redemptionCandidates (h : db.RedemptionDue limits now D) :
    D ∈ db.redemptionCandidates (limits.lower now) (limits.upper now) limits.batch := by
  obtain ⟨older, r, newer, hr, hd, hn⟩ := h
  unfold redemptionCandidates
  rw [hr, List.filter_append, List.filter_cons_of_pos (by exact hd), List.map_append, List.map_cons]
  refine mem_take_append ?_
  rwa [List.length_map, ← List.countP_eq_length_filter]

end Store

-- When the sweep of a thread has begun, and how it has looked for orphans.
structure Looks (limits : Limits) (es : Log) (now : Time)
    (debits redemptions : Entry Stmt.sig Store Call) : Prop where
  begins      : ∃ e ∈ es, e.stmt = .dateNow ∧ e.pre.clock = now
  debits      : debits ∈ es ∧
    debits.stmt = .debitCandidates (limits.lower now) (limits.upper now) limits.batch
  redemptions : redemptions ∈ es ∧
    redemptions.stmt = .redemptionCandidates (limits.lower now) (limits.upper now) limits.batch

theorem Looks.of_suffix {es : Log} {e₁ e₂ e₃ : Entry Stmt.sig Store Call}
    (hs : [e₃, e₂, e₁] <:+ es) (h₁ : e₁.stmt = .dateNow)
    (h₂ : e₂.stmt = .debitCandidates (limits.lower e₁.pre.clock) (limits.upper e₁.pre.clock)
      limits.batch)
    (h₃ : e₃.stmt = .redemptionCandidates (limits.lower e₁.pre.clock) (limits.upper e₁.pre.clock)
      limits.batch) : Looks limits es e₁.pre.clock e₂ e₃ where
  begins      := ⟨e₁, hs.mem <| by simp, h₁, rfl⟩
  debits      := ⟨hs.mem <| by simp, h₂⟩
  redemptions := ⟨hs.mem <| by simp, h₃⟩

theorem call_looks {t : Nat} {c : Call} :
    ((system limits).prog t c).Follows (system limits) t c (fun _ _ => True)
      (fun _ es => ∀ faults, c = .sweep faults → ∃ now debits redemptions,
        Looks limits es now debits redemptions) [] := by
  cases c
  case sweep faults =>
    refine Method.follows_toCall.mpr <| Method.follows_stmt_bind.mpr ⟨trivial, fun db₁ => ?_⟩
    refine Method.follows_stmt_bind.mpr ⟨trivial, fun db₂ => ?_⟩
    refine Method.follows_stmt_bind.mpr ⟨trivial, fun db₃ => ?_⟩
    exact Method.follows_suffix.mono (fun _ _ hs _ _ => ⟨_, _, _, .of_suffix hs rfl rfl rfl⟩)
      fun _ _ hs _ _ => ⟨_, _, _, .of_suffix hs rfl rfl rfl⟩
  all_goals exact Prog.Follows.of_forall (fun _ _ => trivial) fun _ _ _ => nofun

-- The entry takes the redemption of the delivery out of force, which returns its slot.
def returnsSlot (D : DeliveryId) (e : Entry Stmt.sig Store Call) : Bool :=
  match e.stmt with
  | .release D' _ => D' = D ∧ (e.pre.promos.redemptions.release D e.pre.clock).fst ≠ 0
  | _             => false

section

variable {s : Pool Stmt.sig Store Call} {D : DeliveryId}

theorem returnsSlot_le_one
    (h : Reachable (system limits) (commitsInGrace limits) Store.Sound s) :
    s.log.countP (returnsSlot D) ≤ 1 := by
  refine (h.invariant (I := fun w => w.log.countP (returnsSlot D) ≤ 1 ∧
    (w.log.countP (returnsSlot D) ≠ 0 → w.db.Released D)) ?_ fun {s t c x} st ih => ?_).left
  case refine_1 => simp
  case refine_2 =>
    have hg := grows_exec st.allowed
    rw [World.exec_log, List.countP_cons]
    split
    case isFalse => exact ⟨ih.left, fun hn => hg.released D <| ih.right hn⟩
    case isTrue hr =>
      cases x <;> simp only [returnsSlot, Bool.false_eq_true] at hr
      case release D' P =>
        obtain ⟨rfl, hn⟩ := of_decide_eq_true hr
        obtain ⟨r, hf, hs⟩ : ∃ r, s.db.promos.redemptions.table.find? D' = some r ∧
            Redemptions.redeemed r := by
          by_contra hc
          refine hn <| Table.cas_count_eq_zero_iff.mpr fun r hf hs => hc ⟨r, hf, hs⟩
        -- It is the first one, because the redemption was still in force.
        have first : s.log.countP (returnsSlot D') = 0 := by
          by_contra hc
          obtain ⟨r', hf', hs'⟩ := ih.right hc
          obtain rfl := Option.some.inj <| hf.symm.trans hf'
          simp [Redemptions.redeemed, hs'] at hs
        exact ⟨by simp [first], fun _ => released_of_release ⟨r, hf⟩⟩

-- A sweep only reverses reservations of deliveries that do not exist and never will, nothing is
-- reversed twice, and a completed sweep has reversed all orphans in its window and batch, unless
-- their transactions fail.
theorem reaper_safe (h : Reachable (system limits) (commitsInGrace limits) Store.Sound s) :
    (∀ e ∈ s.log, ∀ faults D, e.call = .sweep faults → e.stmt.reverses = some D →
      e.pre.deliveries.find? D = none ∧ s.db.deliveries.find? D = none) ∧
    (∀ D, s.db.wallet.ledger.rows.countP (·.idempotencyKey = some (.refund D)) ≤ 1 ∧
      (s.db.deliveries.find? D = none →
        s.db.wallet.ledger.rows.countP (Store.refunds D) ≤ 1) ∧
      s.log.countP (returnsSlot D) ≤ 1) ∧
    ∀ t th faults, s.threads t = some th → th.call = .sweep faults → th.Done →
      ∃ now debits redemptions, Looks limits (s.world.own t) now debits redemptions ∧
        ∀ D, faults D = {} →
          (debits.pre.SpendDue limits now D → Reversed debits.pre s.db D) ∧
          (redemptions.pre.RedemptionDue limits now D → Reversed redemptions.pre s.db D) := by
  have ho := outline_valid.reachable h
  refine ⟨fun e he faults D hc hx => ?_, fun D => ⟨?_, fun hn => ?_, returnsSlot_le_one h⟩, ?_⟩
  case refine_1 =>
    obtain ⟨s₀, st, hd⟩ := h.stepOf he
    have due : e.pre.Overdue limits D :=
      hd ▸ (outline_valid.reachable st.reachable).pre st.aboutTo ⟨faults, hc⟩ D hx
    exact ⟨due.left, ((ho.inv.right e he).overdue D due).left⟩
  case refine_2 => exact Ledger.countP_key_le fun _ _ hr => of_decide_eq_true hr
  case refine_3 =>
    exact Ledger.countP_key_le fun r hm hr => ho.inv.left.key_of_refunds hm hr hn
  case refine_4 =>
    intro t th faults ht hc hd
    obtain ⟨now, debits, redemptions, hl⟩ :=
      h.follows_done (fun _ _ _ => call_looks) ht hd faults hc
    have post := ho.post ht hd faults hc
    have reversed {e : Entry Stmt.sig Store Call} {D : DeliveryId} (he : e ∈ s.world.own t)
        (hs : Finds e D) (hf : faults D = {}) : Reversed e.pre s.db D := by
      obtain ⟨hdue, hr, hr'⟩ := post e he D hs hf
      exact .of_refunded ho.inv.left hdue.left hr hr'
    refine ⟨now, debits, redemptions, hl, fun D hf => ⟨fun hs => ?_, fun hs => ?_⟩⟩
    case refine_1 =>
      obtain ⟨he, hx⟩ := hl.debits
      refine reversed he ?_ hf
      rw [Finds, hx]
      exact Store.mem_debitCandidates hs
    case refine_2 =>
      obtain ⟨he, hx⟩ := hl.redemptions
      refine reversed he ?_ hf
      rw [Finds, hx]
      exact Store.mem_redemptionCandidates hs

end

instance {db : Store} {x : Stmt} : Decidable (InGrace limits db x) := by
  unfold InGrace Store.ReservedAt
  split
  case h_2 => infer_instance
  case h_1 D _ _ =>
    exact @instDecidableForall _ _ inferInstance <| decidable_of_iff
      ((∀ time ∈ db.spentAt.find? D, db.clock ≤ time + limits.graceMs) ∧
        ∀ time ∈ db.redeemedAt.find? D, db.clock ≤ time + limits.graceMs) <| by
      simp [or_imp, forall_and]

instance {s : Pool Stmt.sig Store Call} {t : Nat} {c : Call} {x : Stmt} :
    Decidable ((commitsInGrace limits).step s t c x) :=
  inferInstanceAs (Decidable (InGrace limits s.db x))

instance : DecidablePred (commitsInGrace limits).spawn :=
  fun _ => .isTrue trivial

instance : Decidable (commitsInGrace limits).crash :=
  .isTrue trivial

theorem Store.offered : ([1] : List PromoId).Nodup := by
  decide

-- An admin has refunded 300 cents for an earlier delivery.
def Store.goodwill : WalletTransaction where
  userId         := 1
  type           := .credit
  reason         := .checkoutRefund
  amount         := 300
  balanceAfter   := 300
  deliveryId     := some 100
  referralId     := none
  idempotencyKey := some <| .adminRefund 100

-- The first user has 300 cents of credits.
def Store.small : Store where
  clock      := 0
  wallet     := {
    balances  := ⟨[(1, 300)], by decide⟩
    ledger    := ⟨[goodwill], by decide⟩
    referrals := .empty
  }
  spentAt    := .empty
  promos     := { codes := ⟨[(1, .small)], Store.offered⟩, redemptions := .empty }
  redeemedAt := .empty
  deliveries := ⟨[(100, 1)], by decide⟩
  registry   := ⟨[("DRV-0", 100)], by decide⟩

theorem Store.small_sound : Store.small.Sound := by
  refine ⟨fun r hm => ?_, fun r hm D hk => ?_, fun r hm D hr _ => ?_⟩ <;>
    obtain rfl := List.mem_singleton.mp hm
  case refine_1 => decide
  case refine_2 => simp [goodwill] at hk
  case refine_3 =>
    obtain ⟨hD, _⟩ := of_decide_eq_true hr
    obtain rfl := Option.some.inj hD
    decide

def CreateInput.small : CreateInput where
  userId         := 1
  promo          := some (1, 700, ⟨350, 350⟩)
  creditsToApply := 300
  trackingId     := fun _ => "DRV-A"

-- The creation of a delivery crashes after its reservations, which a sweep reverses.
def orphaned : List (Cmd Call) :=
  List.flatten [
    Cmd.run 0 (.create .small) 2, [.crash 0], Cmd.run 1 (.passTime 600001) 1,
    Cmd.run 2 (.sweep fun _ => {}) 11]

theorem reaper_safe_orphan : ∃ s : Pool Stmt.sig Store Call,
    Reachable (system .default) (commitsInGrace .default) Store.Sound s ∧
      s.db.wallet.balances.find? 1 = some 300 ∧ s.db.wallet.ledger.rows.length = 3 ∧
      (∀ e ∈ s.log, ∀ faults D, e.call = .sweep faults → e.stmt.reverses = some D →
        e.pre.deliveries.find? D = none ∧ s.db.deliveries.find? D = none) ∧
      (∀ D, s.db.wallet.ledger.rows.countP (·.idempotencyKey = some (.refund D)) ≤ 1 ∧
        (s.db.deliveries.find? D = none →
          s.db.wallet.ledger.rows.countP (Store.refunds D) ≤ 1) ∧
        s.log.countP (returnsSlot D) ≤ 1) ∧
      ∀ t th faults, s.threads t = some th → th.call = .sweep faults → th.Done →
        ∃ now debits redemptions, Looks .default (s.world.own t) now debits redemptions ∧
          ∀ D, faults D = {} →
            (debits.pre.SpendDue .default now D → Reversed debits.pre s.db D) ∧
            (redemptions.pre.RedemptionDue .default now D → Reversed redemptions.pre s.db D) := by
  let s := (Pool.init .small).runCmds (system .default) orphaned
  have hr : Reachable (system .default) (commitsInGrace .default) Store.Sound s :=
    (Reachable.init Store.small_sound).runCmds (by decide +kernel)
  have hb : s.db.wallet.balances.find? 1 = some 300 := by decide +kernel
  have hl : s.db.wallet.ledger.rows.length = 3 := by decide +kernel
  clear_value s
  exact ⟨s, hr, hb, hl, reaper_safe hr⟩

end Drovery.Reaper
