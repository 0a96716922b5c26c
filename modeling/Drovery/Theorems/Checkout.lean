import Drovery.Theorems.Compensation

namespace Drovery

open Concurrency Method
open DeliveriesService DispatchService WalletService PromoService

-- What an order books if nothing has been reserved for it ahead of the delivery.
namespace Order

def redemption (order : Order) : Option (PromoId × Cents × DiscountResult) :=
  order.promo.map fun (code, _) => (code, order.originalTotal, order.discount)

def debit (order : Order) : Option Cents :=
  if 0 < order.creditsToApply then some order.creditsToApply else none

-- The outcomes of the two reservations, where a reservation that is not needed cannot fail.
def promoFault (order : Order) (faults : CreateFaults) : Fault :=
  if order.promo.isSome then faults.promo else .committed

def debitFault (order : Order) (faults : CreateFaults) : Fault :=
  if 0 < order.creditsToApply then faults.debit else .committed

end Order

section

variable {P : Params} {D : DeliveryId} {inp : CreateInput} {order : Order} {db db' : Store}
variable {dispatched : DispatchDecision} {α : Type}

theorem eval_of_reads {p : App α} (hp : Built (Single Stmt.Reads) p) :
    (eval Stmt.exec p db).snd = db := by
  refine eval_built (I := (· = db)) hp ?_ rfl
  rintro _ _ s ⟨hx⟩ rfl
  exact hx.exec s

theorem eval_prepare : (eval Stmt.exec (prepare inp) db).snd = db :=
  eval_of_reads prepare_reads

-- A dispatch only affects the fleet.
theorem eval_dispatch {live : Bool} {payloadKg : ℚ} {route : Option MissionRoute}
    {isScheduled : Bool} : ∃ fleet,
      (eval Stmt.exec (dispatch P live D payloadKg route isScheduled) db).snd = { db with fleet } := by
  refine eval_built (I := fun s => ∃ fleet, s = { db with fleet }) dispatch_reads ?_ ⟨db.fleet, rfl⟩
  rintro _ _ _ ⟨hx⟩ ⟨fleet, rfl⟩
  obtain hx | ⟨X, payloadKg, rfl⟩ := hx
  case inl => exact ⟨fleet, hx.exec _⟩
  case inr => exact ⟨_, rfl⟩

theorem Store.Fresh.with_fleet {fleet : Fleet} (h : db.Fresh D) :
    Store.Fresh { db with fleet } D :=
  ⟨h.delivery, h.unspent, h.refundKey, h.redemption⟩

-- How a transaction may end whose effect on the store is `r`.
inductive Leg (fault : Fault) (db : Store) (r : Except AppError Store) :
    Except AppError Unit × Store → Prop
  | done {s} : fault = .committed → r = .ok s → Leg fault db r (.ok (), s)
  | refused {e} : r = .error e → Leg fault db r (.error e, db)
  | rolledBack {e} : fault = .rolledBack e → Leg fault db r (.error e, db)
  | lost {e s} : fault = .lost e → r = .ok s → Leg fault db r (.error e, s)

theorem leg_of_tx {x : Stmt} {f : x.Res → Except AppError Unit} {fault : Fault}
    {r : Except AppError Store} (h : (f (x.exec db).fst, (x.exec db).snd) = commit db r) :
    Leg fault db r (eval Stmt.exec ((App.tx x f).attempt fault) db) := by
  have h : eval Stmt.exec (App.tx x f) db = commit db r := h
  cases fault <;> simp only [attempt, eval_bind, h]
  case committed    => cases r <;> [exact .refused rfl; exact .done rfl rfl]
  case rolledBack e => exact .rolledBack rfl
  case lost e       => cases r <;> [exact .refused rfl; exact .lost rfl rfl]

theorem leg_redeemPromo :
    Leg (order.promoFault inp.faults) db (db.bookRedemption D inp.userId order.redemption)
      (eval Stmt.exec (redeemPromo D inp order) db) := by
  unfold redeemPromo Order.redemption Order.promoFault
  cases order.promo
  case none => exact .done rfl rfl
  case some promo =>
    refine leg_of_tx ?_
    simp only [Stmt.exec, PromoStmt.exec, Option.map_some, Store.bookRedemption, id_eq]
    cases db.promos.redeemWithinTx db.clock promo.fst inp.userId D order.originalTotal order.discount
      <;> rfl

theorem leg_debitCredits :
    Leg (order.debitFault inp.faults) db (db.bookDebit D inp.userId order.debit)
      (eval Stmt.exec (debitCredits D inp order) db) := by
  unfold debitCredits Order.debit Order.debitFault
  split
  case isFalse => exact .done rfl rfl
  case isTrue =>
    refine leg_of_tx ?_
    simp only [Stmt.exec, WalletStmt.exec, Store.bookDebit, id_eq]
    cases db.wallet.debitWithinTx inp.userId order.creditsToApply D (some <| .debit D) <;> rfl

-- The three ways in which the attempts to create a delivery may end.
inductive Placement
  | placed (db : Store)
  | failed (e : AppError)
  -- The delivery has been created, but its creation is reported to have failed.
  | lost (e : AppError) (db : Store)

-- The tracking ids are tried one after the other as long as they collide.
def placement (fault : Nat → Fault) (f : Nat → Except AppError Store) :
    (tries attempt : Nat) → Placement
  | 0, _               => .failed <| .conflict "error.delivery.tracking_id_alloc_failed"
  | tries + 1, attempt =>
    match fault attempt, f attempt with
    | .committed,    .ok db   => .placed db
    | .lost e,       .ok db   => .lost e db
    | .rolledBack e, _        =>
      if isTrackingIdCollision e then placement fault f tries (attempt + 1) else .failed e
    | _,             .error e =>
      if isTrackingIdCollision e then placement fault f tries (attempt + 1) else .failed e

-- The creation of the delivery under its tracking ids.
abbrev creation (P : Params) (D : DeliveryId) (inp : CreateInput) (order : Order)
    (dispatched : DispatchDecision) (db : Store) (n : Nat) : Except AppError Store :=
  db.createDelivery D (deliveryData P inp order dispatched n) (booking P order)

-- A connection that breaks down after the commit does not look like a collision.
def CreateFaults.Plausible (faults : CreateFaults) : Prop :=
  ∀ n e, faults.delivery n = .lost e → isTrackingIdCollision e = false

theorem abandon_total : (abandon P D inp dispatched).Total := by
  refine .bind ?_ fun _ => ?_
  case refine_1 =>
    unfold undoReservations
    split
    case isTrue  => exact .bind .safe fun _ => .safe
    case isFalse => exact .pure
  case refine_2 =>
    unfold releaseClaimedAircraft
    split
    case h_1 => exact .pure
    case h_2 => exact .safe

-- Whatever a failing creation has reserved is undone before the failure is reported.
theorem eval_abandon_throw {e : AppError} :
    eval Stmt.exec (do abandon P D inp dispatched; throw e : App α) db =
      (.error e, (eval Stmt.exec (abandon P D inp dispatched) db).snd) := by
  obtain ⟨_, ha⟩ := eval_of_total Stmt.exec db <| @abandon_total P D inp dispatched
  rw [eval_bind_of_ok ha]
  rfl

theorem eval_place {n : Nat} : eval Stmt.exec (place P D inp order dispatched n) db =
    match eval Stmt.exec ((App.tx (.createDelivery D (deliveryData P inp order dispatched n)
      (booking P order)) id).attempt (inp.faults.delivery n)) db with
    | (.ok (), s)   => (.ok true, s)
    | (.error e, s) => if isTrackingIdCollision e then (.ok false, s) else
      (.error e, (eval Stmt.exec (abandon P D inp dispatched) s).snd) := by
  rw [place, eval_handle, eval_bind]
  generalize eval Stmt.exec ((App.tx (.createDelivery D (deliveryData P inp order dispatched n)
    (booking P order)) id).attempt (inp.faults.delivery n)) db = r
  obtain ⟨r, s⟩ := r
  cases r
  case ok      => rfl
  case error e =>
    dsimp only
    split
    case isTrue  => rfl
    case isFalse => exact eval_abandon_throw

theorem eval_placeWithRetries (hl : inp.faults.Plausible) (tries attempt : Nat) :
    eval Stmt.exec (placeWithRetries P D inp order dispatched tries attempt) db =
      match placement inp.faults.delivery (creation P D inp order dispatched db) tries attempt with
      | .placed db'  => (.ok (), db')
      | .failed e    => (.error e, (eval Stmt.exec (abandon P D inp dispatched) db).snd)
      | .lost e db'  => (.error e, (eval Stmt.exec (abandon P D inp dispatched) db').snd) := by
  induction tries generalizing attempt
  case zero => exact eval_abandon_throw
  case succ tries ih =>
    have retry {e : AppError} (hp : eval Stmt.exec (place P D inp order dispatched attempt) db =
        if isTrackingIdCollision e then (.ok false, db) else
          (.error e, (eval Stmt.exec (abandon P D inp dispatched) db).snd)) :
        eval Stmt.exec (placeWithRetries P D inp order dispatched (tries + 1) attempt) db =
          match if isTrackingIdCollision e then
            placement inp.faults.delivery (creation P D inp order dispatched db) tries (attempt + 1)
            else .failed e with
          | .placed db'  => (.ok (), db')
          | .failed e    => (.error e, (eval Stmt.exec (abandon P D inp dispatched) db).snd)
          | .lost e db'  => (.error e, (eval Stmt.exec (abandon P D inp dispatched) db').snd) := by
      by_cases hc : isTrackingIdCollision e <;> simp only [hc, if_true, Bool.false_eq_true, if_false] at hp ⊢
      case pos =>
        rw [placeWithRetries, eval_bind_of_ok hp]
        exact ih _
      case neg => rw [placeWithRetries, eval_bind_of_error hp]
    have hp := @eval_place P D inp order db dispatched attempt
    have htx : eval Stmt.exec (App.tx (.createDelivery D (deliveryData P inp order dispatched attempt)
      (booking P order)) id) db = commit db (creation P D inp order dispatched db attempt) := rfl
    simp only [placement]
    cases hf : inp.faults.delivery attempt <;> simp only [hf, Method.attempt, eval_bind, htx] at hp
    case rolledBack e => exact retry hp
    all_goals
      cases hc : creation P D inp order dispatched db attempt <;> simp only [hc, commit] at hp
    case committed.ok s    => rw [placeWithRetries, eval_bind_of_ok hp]; rfl
    case committed.error e => exact retry hp
    case lost.error e      => exact retry hp
    case lost.ok e s =>
      simp only [eval_throw, hl attempt e hf, Bool.false_eq_true, if_false] at hp
      rw [placeWithRetries, eval_bind_of_error hp]

end

-- The reservations of an order, one after the other.
def Store.reserveAll (db : Store) (D : DeliveryId) (U : UserId) (order : Order) :
    Except AppError Store := do
  let db ← db.bookRedemption D U order.redemption
  db.bookDebit D U order.debit

-- The store `db` with the money of another store.
abbrev Store.withMoney (db db' : Store) : Store :=
  { db with promos := db'.promos, wallet := db'.wallet }

section

variable {P : Params} {D : DeliveryId} {U : UserId} {inp : CreateInput} {order : Order}
variable {db db' s : Store} {dispatched : DispatchDecision} {e : AppError}

-- The reservations only depend on the money and the time.
theorem Store.reserveAll_congr (hp : s.promos = db.promos) (hw : s.wallet = db.wallet)
    (hc : s.clock = db.clock) : s.reserveAll D U order =
      db.reserveAll D U order >>= fun db' => .ok (s.withMoney db') := by
  obtain ⟨clock, _, _, _, _, _, wallet, promos, _, _⟩ := s
  obtain ⟨_, _, _, _, _, _, _, _, _, _⟩ := db
  dsimp only at hp hw hc
  subst hp hw hc
  simp only [Store.reserveAll]
  cases order.redemption
  case none =>
    simp only [Store.bookRedemption, ok_bind]
    cases order.debit
    case none   => rfl
    case some a =>
      simp only [Store.bookDebit]
      cases wallet.debitWithinTx U a D (some <| .debit D) <;> rfl
  case some r =>
    obtain ⟨Q, total, discount⟩ := r
    simp only [Store.bookRedemption]
    cases promos.redeemWithinTx clock Q U D total discount
    case error => rfl
    case ok    =>
      simp only [ok_bind, pure_bind]
      cases order.debit
      case none   => rfl
      case some a =>
        simp only [Store.bookDebit]
        cases wallet.debitWithinTx U a D (some <| .debit D) <;> rfl

theorem reserves_of_reserveAll (h : db.reserveAll D U order = .ok db') : db.Reserves D U db' := by
  obtain ⟨db₁, h₁, h₂⟩ := parts_of_bind h
  exact ⟨_, _, db₁, h₁, h₂⟩

theorem Store.Reserves.refl : db.Reserves D U db :=
  ⟨none, none, db, rfl, rfl⟩

-- The reservations do not touch anything but the money, and nobody loses the wallet.
theorem Store.Reserves.money (h : db.Reserves D U db') : db' = db.withMoney db' ∧
    ∀ V, (db'.wallet.balances.find? V).isNone = (db.wallet.balances.find? V).isNone := by
  obtain ⟨redeem, debit, db₁, h₁, h₂⟩ := h
  obtain ⟨ps, rfl, _⟩ := bookRedemption_ok h₁
  obtain ⟨w, rfl, hw⟩ := bookDebit_ok h₂
  refine ⟨rfl, fun V => ?_⟩
  obtain ⟨_, rfl⟩ | ⟨a, _, hd⟩ := hw
  case inl => rfl
  case inr =>
    obtain ⟨r, hb, _⟩ := Wallet.debitWithinTx_ok hd
    have := (Wallet.BooksAll.single hb).isSome_find? (U := V)
    rw [← Option.not_isSome, ← Option.not_isSome, this]

-- The rows of a delivery do not depend on the money, as long as the user exists.
theorem Store.Reserves.insertDelivery {row : Delivery} (h : db.Reserves D U db') :
    db'.insertDelivery D row = db.insertDelivery D row >>= fun s => .ok (s.withMoney db') := by
  obtain ⟨he, hu⟩ := h.money
  rw [he]
  simp only [Store.insertDelivery, hu]
  split
  case isTrue  => rfl
  case isFalse =>
    cases db.deliveries.insert D (db.stamp row)
    case none    => rfl
    case some ds => cases db.trackingIds.insert row.trackingId D <;> rfl

theorem insertDelivery_money {row : Delivery} (h : db.insertDelivery D row = .ok s) :
    s.promos = db.promos ∧ s.wallet = db.wallet ∧ s.clock = db.clock := by
  obtain ⟨ds, ts, _, _, _, rfl⟩ := Store.insertDelivery_ok h
  exact ⟨rfl, rfl, rfl⟩

-- The platform with the given setting of the debit-first mode.
abbrev Params.debitsFirst (P : Params) (b : Bool) : Params :=
  { P with debitFirst := b }

def Order.referral (P : Params) (order : Order) : Option ReferralGrant :=
  if order.pendingReferral then some <| if P.outboxReferral then .outbox else .inline else none

theorem creation_on {n : Nat} : creation (P.debitsFirst true) D inp order dispatched db n =
    db.insertDelivery D (deliveryData P inp order dispatched n) >>= fun s =>
      s.bookReferral D inp.userId (order.referral P) :=
  rfl

theorem creation_off {n : Nat} : creation (P.debitsFirst false) D inp order dispatched db n =
    db.insertDelivery D (deliveryData P inp order dispatched n) >>= fun s =>
      s.reserveAll D inp.userId order >>= fun s => s.bookReferral D inp.userId (order.referral P) := by
  have hb : booking (P.debitsFirst false) order =
      ⟨order.redemption, order.debit, order.referral P⟩ := by
    simp [booking, Order.redemption, Order.debit, Order.referral]
  simp only [creation, Store.createDelivery, hb, Store.reserveAll, bind_assoc]
  rfl

-- Once the reservations have gone through, the two modes create the same delivery.
theorem creation_of_reserved (h : db.reserveAll D inp.userId order = .ok db') (n : Nat) :
    creation (P.debitsFirst true) D inp order dispatched db' n =
      creation (P.debitsFirst false) D inp order dispatched db n := by
  rw [creation_on, creation_off, (reserves_of_reserveAll h).insertDelivery, bind_assoc]
  cases hi : db.insertDelivery D (deliveryData P inp order dispatched n)
  case error => rfl
  case ok s =>
    obtain ⟨hp, hw, hc⟩ := insertDelivery_money hi
    simp only [ok_bind, Store.reserveAll_congr hp hw hc, h]

-- If a reservation is refused, then no delivery is created.
theorem creation_of_refused (h : db.reserveAll D inp.userId order = .error e) (n : Nat) :
    creation (P.debitsFirst false) D inp order dispatched db n =
      db.insertDelivery D (deliveryData P inp order dispatched n) >>= fun _ => .error e := by
  rw [creation_off]
  cases hi : db.insertDelivery D (deliveryData P inp order dispatched n)
  case error => rfl
  case ok s =>
    obtain ⟨hp, hw, hc⟩ := insertDelivery_money hi
    simp only [ok_bind, Store.reserveAll_congr hp hw hc, h, error_bind]

theorem placement_refused {fault : Nat → Fault} {f : Nat → Except AppError Store}
    (he : isTrackingIdCollision e = false) (tries attempt : Nat) :
    ∃ e', placement fault (fun n => f n >>= fun _ => .error e) tries attempt = .failed e' ∧
      (e' = e ∨ placement fault f tries attempt = .failed e') := by
  induction tries generalizing attempt
  case zero => exact ⟨_, rfl, .inr rfl⟩
  case succ tries ih =>
    have retry {e₁ : AppError} : ∃ e', (if isTrackingIdCollision e₁ then
        placement fault (fun n => f n >>= fun _ => .error e) tries (attempt + 1) else .failed e₁) =
          .failed e' ∧ (e' = e ∨ (if isTrackingIdCollision e₁ then
            placement fault f tries (attempt + 1) else .failed e₁) = .failed e') := by
      split
      case isTrue  => exact ih _
      case isFalse => exact ⟨e₁, rfl, .inr rfl⟩
    simp only [placement]
    cases fault attempt <;> cases f attempt <;>
      simp only [ok_bind, error_bind, he, Bool.false_eq_true, if_false]
    case committed.ok => exact ⟨e, rfl, .inl rfl⟩
    case lost.ok      => exact ⟨e, rfl, .inl rfl⟩
    all_goals exact retry

theorem redeemWithinTx_error {p : Promos} {now : Time} {Q : PromoId} {total : Cents}
    {discount : DiscountResult} (h : p.redeemWithinTx now Q U D total discount = .error e) :
    isTrackingIdCollision e = false := by
  have reject {reason : PromoRejectReason} : isTrackingIdCollision (promoError reason) = false := by
    cases reason <;> rfl
  unfold Promos.redeemWithinTx at h
  dsimp only at h
  split at h
  case isTrue  => exact Except.error.inj h ▸ reject
  case isFalse =>
    split at h
    case h_1 => contradiction
    case h_2 => exact Except.error.inj h ▸ reject
    case h_3 c hc hi =>
      obtain rfl := Except.error.inj h
      unfold Redemptions.insert at hi
      split at hi
      case h_1 => exact Except.error.inj hi ▸ rfl
      case h_2 =>
        split at hi
        case isTrue  => contradiction
        case isFalse => exact Except.error.inj hi ▸ rfl

theorem debitWithinTx_error {w : Wallet} {a : Cents} {key : Option IdempotencyKey}
    (h : w.debitWithinTx U a D key = .error e) : isTrackingIdCollision e = false := by
  unfold Wallet.debitWithinTx at h
  dsimp only at h
  split at h
  case isTrue  => exact Except.error.inj h ▸ rfl
  case isFalse =>
    split at h
    case h_1 => exact Except.error.inj h ▸ rfl
    case h_2 => contradiction

-- A refused reservation is refused on its own account.
theorem reserveAll_error (h : db.reserveAll D U order = .error e) :
    isTrackingIdCollision e = false ∧ (db.bookRedemption D U order.redemption = .error e ∨
      db.bookDebit D U order.debit = .error e) := by
  unfold Store.reserveAll at h
  cases hr : db.bookRedemption D U order.redemption <;> rw [hr] at h
  case error e' =>
    obtain rfl := Except.error.inj h
    refine ⟨?_, .inl rfl⟩
    cases ho : order.redemption <;> rw [ho] at hr
    case none   => contradiction
    case some r =>
      simp only [Store.bookRedemption] at hr
      cases hw : db.promos.redeemWithinTx db.clock r.fst U D r.snd.fst r.snd.snd <;> rw [hw] at hr
      case ok    => contradiction
      case error => exact Except.error.inj hr ▸ redeemWithinTx_error hw
  case ok db₁ =>
    obtain ⟨ps, rfl, _⟩ := Store.bookRedemption_ok hr
    rw [ok_bind] at h
    cases ho : order.debit <;> rw [ho] at h
    case none   => contradiction
    case some a =>
      simp only [Store.bookDebit] at h ⊢
      cases hw : db.wallet.debitWithinTx U a D (some <| .debit D) <;> rw [hw] at h
      case ok       => contradiction
      case error e' =>
        obtain rfl := Except.error.inj h
        exact ⟨debitWithinTx_error hw, .inr rfl⟩

-- In debit-first mode, a failed reservation is reported once everything has been undone.
theorem eval_reserve (hb : P.debitFirst = true) :
    (∃ db', order.promoFault inp.faults = .committed ∧ order.debitFault inp.faults = .committed ∧
      db.reserveAll D inp.userId order = .ok db' ∧
      eval Stmt.exec (reserve P D inp order dispatched) db = (.ok (), db')) ∨
    ∃ e s, db.Reserves D inp.userId s ∧
      eval Stmt.exec (reserve P D inp order dispatched) db =
        (.error e, (eval Stmt.exec (abandon P D inp dispatched) s).snd) ∧
      (order.promoFault inp.faults = .committed → order.debitFault inp.faults = .committed →
        db.reserveAll D inp.userId order = .error e) := by
  have fails {e s} (h : eval Stmt.exec (do redeemPromo D inp order; debitCredits D inp order) db =
      (.error e, s)) : eval Stmt.exec (reserve P D inp order dispatched) db =
        (.error e, (eval Stmt.exec (abandon P D inp dispatched) s).snd) := by
    simp only [reserve, hb, if_true, eval_handle, h]
    exact eval_abandon_throw
  unfold Store.reserveAll
  have hr := @leg_redeemPromo D inp order db
  cases he : eval Stmt.exec (redeemPromo D inp order) db
  case mk r s =>
  rw [he] at hr
  cases hr
  case refused e h =>
    exact .inr ⟨e, _, .refl, fails (eval_bind_of_error he), fun _ _ => by rw [h, error_bind]⟩
  case rolledBack e h =>
    exact .inr ⟨e, _, .refl, fails (eval_bind_of_error he), fun hp _ => nomatch hp.symm.trans h⟩
  case lost e h hs =>
    exact .inr ⟨e, s, ⟨_, none, s, hs, rfl⟩, fails (eval_bind_of_error he),
      fun hp _ => nomatch hp.symm.trans h⟩
  case done hp hs =>
    have hd := @leg_debitCredits D inp order s
    cases he' : eval Stmt.exec (debitCredits D inp order) s
    case mk r' s' =>
    rw [he'] at hd
    replace he' := (eval_bind_of_ok (f := fun _ => debitCredits D inp order) he).trans he'
    rw [hs, ok_bind]
    cases hd
    case done hd h =>
      refine .inl ⟨s', hp, hd, h, ?_⟩
      simp only [reserve, hb, if_true, eval_handle, he']
    case refused e h =>
      exact .inr ⟨e, s, ⟨_, none, s, hs, rfl⟩, fails he', fun _ _ => h⟩
    case rolledBack e h =>
      exact .inr ⟨e, s, ⟨_, none, s, hs, rfl⟩, fails he', fun _ hd => nomatch hd.symm.trans h⟩
    case lost e h hs' =>
      exact .inr ⟨e, s', ⟨_, _, s, hs, hs'⟩, fails he', fun _ hd => nomatch hd.symm.trans h⟩

-- What remains of a creation after the dispatch.
def checkout (P : Params) (D : DeliveryId) (inp : CreateInput) (order : Order)
    (dispatched : DispatchDecision) : App Unit := do
  reserve P D inp order dispatched
  placeWithRetries P D inp order dispatched maxTrackingIdTries 0
  charge D inp order
  enqueue D inp order dispatched.trackingSource

theorem eval_create : eval Stmt.exec (create P D inp) db =
    match eval Stmt.exec (prepare inp) db with
    | (.error e, s)  => (.error e, s)
    | (.ok order, s) =>
      match eval Stmt.exec (dispatch P inp.liveDispatch D inp.packageWeight order.route
        order.isScheduled) s with
      | (.error e, s)       => (.error e, s)
      | (.ok dispatched, s) => eval Stmt.exec (checkout P D inp order dispatched) s := by
  rw [create, eval_bind]
  generalize eval Stmt.exec (prepare inp) db = r
  obtain ⟨r, s⟩ := r
  cases r
  case error => rfl
  case ok order =>
    dsimp only
    rw [eval_bind]
    generalize eval Stmt.exec (dispatch P inp.liveDispatch D inp.packageWeight order.route
      order.isScheduled) s = r
    obtain ⟨r, s⟩ := r
    cases r <;> rfl

-- Neither the payment nor the simulation can fail a creation any more.
theorem settle_total : (do
    charge D inp order
    enqueue D inp order dispatched.trackingSource : App Unit).Total := by
  refine .bind ?_ fun _ => ?_
  case refine_1 =>
    unfold charge
    split
    case isTrue  => exact .safe
    case isFalse => exact .pure
  case refine_2 =>
    unfold enqueue
    split
    case h_1 => exact .pure
    case h_2 => exact .safe
    case h_3 => exact .safe

theorem eval_checkout_of_reserved (hl : inp.faults.Plausible)
    (hr : eval Stmt.exec (reserve P D inp order dispatched) db = (.ok (), db')) :
    eval Stmt.exec (checkout P D inp order dispatched) db =
      match placement inp.faults.delivery (creation P D inp order dispatched db') maxTrackingIdTries 0
      with
      | .placed s => (.ok (), (eval Stmt.exec (do
          charge D inp order
          enqueue D inp order dispatched.trackingSource : App Unit) s).snd)
      | .failed e => (.error e, (eval Stmt.exec (abandon P D inp dispatched) db').snd)
      | .lost e s => (.error e, (eval Stmt.exec (abandon P D inp dispatched) s).snd) := by
  rw [checkout, eval_bind_of_ok hr, eval_bind, eval_placeWithRetries hl]
  cases placement inp.faults.delivery (creation P D inp order dispatched db') maxTrackingIdTries 0
  case failed => rfl
  case lost   => rfl
  case placed s =>
    obtain ⟨_, hs⟩ := eval_of_total Stmt.exec s <| @settle_total D inp order dispatched
    exact hs

end

-- The outcomes of the transactions are reported as they are, and none of those fails for a reason of
-- its own that only exist in one of the two modes.
structure CreateFaults.Truthful (faults : CreateFaults) : Prop where
  promo         : faults.promo = .committed
  debit         : faults.debit = .committed
  delivery      : ∀ n e, faults.delivery n ≠ .lost e
  releasePromo  : faults.releasePromo = .committed
  refundCredits : faults.refundCredits = .committed

-- The two stores agree on the balances, the promo codes and their redemptions that are in force, and
-- the deliveries.
structure Store.Agrees (s s' : Store) : Prop where
  balances   : ∀ U, s.wallet.balances.find? U = s'.wallet.balances.find? U
  codes      : ∀ Q, s.promos.codes.find? Q = s'.promos.codes.find? Q
  inForce    : ∀ E, s.promos.inForce E = s'.promos.inForce E
  deliveries : s.deliveries = s'.deliveries

-- The errors that the steps of a checkout report, each of them on its own.
inductive Applies (P : Params) (D : DeliveryId) (inp : CreateInput) (order : Order)
    (dispatched : DispatchDecision) (db : Store) : AppError → Prop
  | redeem {e} : db.bookRedemption D inp.userId order.redemption = .error e →
    Applies P D inp order dispatched db e
  | debit {e} : db.bookDebit D inp.userId order.debit = .error e →
    Applies P D inp order dispatched db e
  | place {e} : placement inp.faults.delivery (fun n =>
      db.insertDelivery D (deliveryData P inp order dispatched n)) maxTrackingIdTries 0 = .failed e →
    Applies P D inp order dispatched db e

-- Both errors apply to the checkout of a request.
def BothApply (P : Params) (D : DeliveryId) (inp : CreateInput) (db : Store) (e e' : AppError) :
    Prop :=
  ∃ order dispatched db₁, (eval Stmt.exec (prepare inp) db).fst = .ok order ∧
    eval Stmt.exec (dispatch P inp.liveDispatch D inp.packageWeight order.route order.isScheduled) db =
      (.ok dispatched, db₁) ∧
    Applies P D inp order dispatched db₁ e ∧ Applies P D inp order dispatched db₁ e'

-- Two creations come out the same: either both succeed, and leave the same store, or both fail. The
-- errors only differ if both of them apply.
inductive SameOutcome (P : Params) (D : DeliveryId) (inp : CreateInput) (db : Store) :
    Except AppError Unit × Store → Except AppError Unit × Store → Prop
  | success {s} : SameOutcome P D inp db (.ok (), s) (.ok (), s)
  | failure {e e' s s'} : e = e' ∨ BothApply P D inp db e e' → s.Agrees s' →
    SameOutcome P D inp db (.error e, s) (.error e', s')

section

variable {P : Params} {D : DeliveryId} {inp : CreateInput} {order : Order} {db s s' : Store}
variable {dispatched : DispatchDecision}

theorem Store.Agrees.refl : s.Agrees s :=
  ⟨fun _ => rfl, fun _ => rfl, fun _ => rfl, rfl⟩

theorem Store.Agrees.of_restored
    (hn : ∀ Q code, db.promos.codes.find? Q = some code → 0 ≤ code.timesRedeemed)
    (h : db.Restored D s) (h' : db.Restored D s') : s.Agrees s' where
  balances U := (h.balances U).trans (h'.balances U).symm
  codes Q    := (h.codes hn Q).trans (h'.codes hn Q).symm
  inForce E  := (h.inForce E).trans (h'.inForce E).symm
  deliveries := h.deliveries.trans h'.deliveries.symm

theorem CreateFaults.Truthful.plausible {faults : CreateFaults} (h : faults.Truthful) :
    faults.Plausible :=
  fun n e he => absurd he <| h.delivery n e

theorem CreateFaults.Truthful.promoFault {faults : CreateFaults} (h : faults.Truthful)
    (order : Order) : order.promoFault faults = .committed := by
  simp [Order.promoFault, h.promo]

theorem CreateFaults.Truthful.debitFault {faults : CreateFaults} (h : faults.Truthful)
    (order : Order) : order.debitFault faults = .committed := by
  simp [Order.debitFault, h.debit]

-- Whatever has been reserved, nothing is left of it.
theorem abandon_restored (hp : inp.faults.releasePromo = .committed)
    (hc : inp.faults.refundCredits = .committed) (hf : db.Fresh D)
    (hr : db.Reserves D inp.userId s) (hb : P.debitFirst = false → s = db) :
    db.Restored D (eval Stmt.exec (abandon P D inp dispatched) s).snd := by
  rw [eval_abandon hp hc]
  cases hd : P.debitFirst
  case true  => exact hr.restored hf
  case false =>
    obtain rfl := hb hd
    exact hf.restored

theorem placement_ne_lost {fault : Nat → Fault} {f : Nat → Except AppError Store}
    (h : ∀ n e, fault n ≠ .lost e) (tries attempt : Nat) (e : AppError) (s : Store) :
    placement fault f tries attempt ≠ .lost e s := by
  induction tries generalizing attempt
  case zero => nofun
  case succ tries ih =>
    simp only [placement]
    cases hf : fault attempt <;> cases f attempt <;> dsimp only
    case committed.ok => nofun
    case lost.ok e _  => exact absurd hf <| h attempt e
    all_goals
      split
      case isTrue  => exact ih _
      case isFalse => nofun

theorem checkout_same (hf : db.Fresh D)
    (hn : ∀ Q code, db.promos.codes.find? Q = some code → 0 ≤ code.timesRedeemed)
    (ht : inp.faults.Truthful) :
    (∃ s, eval Stmt.exec (checkout (P.debitsFirst true) D inp order dispatched) db = (.ok (), s) ∧
      eval Stmt.exec (checkout (P.debitsFirst false) D inp order dispatched) db = (.ok (), s)) ∨
    ∃ e e' s s', eval Stmt.exec (checkout (P.debitsFirst true) D inp order dispatched) db =
        (.error e, s) ∧
      eval Stmt.exec (checkout (P.debitsFirst false) D inp order dispatched) db = (.error e', s') ∧
      s.Agrees s' ∧ (e = e' ∨ Applies P D inp order dispatched db e ∧
        Applies P D inp order dispatched db e') := by
  have hoff := @eval_checkout_of_reserved (P.debitsFirst false) D inp order db db dispatched ht.plausible rfl
  have restored {b s} (hr : db.Reserves D inp.userId s) (hb : b = false → s = db) :=
    @abandon_restored (P.debitsFirst b) D inp db s dispatched ht.releasePromo ht.refundCredits hf
      hr hb
  obtain ⟨db', _, _, hres, hr⟩ | ⟨e, s, hr, hev, hres⟩ := 
    @eval_reserve (P.debitsFirst true) D inp order db dispatched rfl
  case inl =>
    -- The reservations have gone through, so that the two modes create the same delivery.
    have hon := eval_checkout_of_reserved (P := P.debitsFirst true) ht.plausible hr
    simp only [funext (creation_of_reserved hres)] at hon
    have hlost := placement_ne_lost (f := creation (P.debitsFirst false) D inp order dispatched db)
      ht.delivery maxTrackingIdTries 0
    generalize placement inp.faults.delivery (creation (P.debitsFirst false) D inp order dispatched db)
      maxTrackingIdTries 0 = r at hon hoff hlost
    cases r
    case placed s => exact .inl ⟨_, hon, hoff⟩
    case lost e s => exact absurd rfl <| hlost e s
    case failed e =>
      refine .inr ⟨e, e, _, _, hon, hoff, ?_, .inl rfl⟩
      exact .of_restored hn (restored (b := true) (reserves_of_reserveAll hres) nofun)
        (restored (b := false) .refl fun _ => rfl)
  case inr =>
    -- A reservation is refused, so that the co-committed creation fails as well, be it for another reason.
    have hres := hres (ht.promoFault order) (ht.debitFault order)
    obtain ⟨hcol, happ⟩ := reserveAll_error hres
    have hon : eval Stmt.exec (checkout (P.debitsFirst true) D inp order dispatched) db =
        (.error e, _) := eval_bind_of_error hev
    rw [funext (creation_of_refused hres)] at hoff
    obtain ⟨e', hp, he'⟩ := @placement_refused e inp.faults.delivery
      (fun n => db.insertDelivery D (deliveryData P inp order dispatched n)) hcol maxTrackingIdTries 0
    rw [hp] at hoff
    refine .inr ⟨e, e', _, _, hon, hoff, ?_, ?_⟩
    case refine_1 =>
      exact .of_restored hn (restored (b := true) hr nofun) (restored (b := false) .refl fun _ => rfl)
    case refine_2 =>
      obtain rfl | he' := he'
      case inl => exact .inl rfl
      case inr => exact .inr ⟨happ.elim .redeem .debit, .place he'⟩

-- The debit-first mode refines the co-committed one.
theorem debit_first_refines (hf : db.Fresh D)
    (hn : ∀ Q code, db.promos.codes.find? Q = some code → 0 ≤ code.timesRedeemed)
    (ht : inp.faults.Truthful) :
    SameOutcome P D inp db (eval Stmt.exec (create (P.debitsFirst true) D inp) db)
      (eval Stmt.exec (create (P.debitsFirst false) D inp) db) := by
  rw [eval_create, eval_create]
  have hprep := @eval_prepare inp db
  cases hp : eval Stmt.exec (prepare inp) db
  case mk r s =>
  rw [hp] at hprep
  obtain rfl : s = db := hprep
  cases r
  case error e => exact .failure (.inl rfl) .refl
  case ok order =>
    have ⟨fleet, hdisp⟩ :=
      @eval_dispatch P D s inp.liveDispatch inp.packageWeight order.route order.isScheduled
    show SameOutcome P D inp s (match eval Stmt.exec (dispatch P _ _ _ _ _) s with
      | (.error e, s) => _ | (.ok d, s) => _) (match eval Stmt.exec (dispatch P _ _ _ _ _) s with
      | (.error e, s) => _ | (.ok d, s) => _)
    cases hd : eval Stmt.exec (dispatch P inp.liveDispatch D inp.packageWeight order.route
      order.isScheduled) s
    case mk r db₁ =>
    rw [hd] at hdisp
    obtain rfl : db₁ = { s with fleet } := hdisp
    cases r
    case error e => exact .failure (.inl rfl) .refl
    case ok dispatched =>
      have hf₁ : Store.Fresh { s with fleet } D := hf.with_fleet
      obtain ⟨s', hon, hoff⟩ | ⟨e, e', s₁, s₂, hon, hoff, ha, he⟩ := 
        @checkout_same P D inp order _ dispatched hf₁ hn ht
      case inl =>
        dsimp only
        rw [hon, hoff]
        exact .success
      case inr =>
        dsimp only
        rw [hon, hoff]
        refine .failure (he.imp_right fun ⟨h, h'⟩ => ?_) ha
        exact ⟨order, dispatched, _, congrArg Prod.fst hp, hd, h, h'⟩

end

-- The first user has 300 cents of credits, and orders with the promo code and the credits.
theorem Store.referred : ([1] : List UserId).Nodup := by
  decide

def Store.funded : Store :=
  { Store.small with wallet := {
      balances  := ⟨[(1, 300), (2, 0)], by decide⟩
      ledger    := .empty
      referrals := ⟨[(1, { id := 1, referrerId := 2, status := .pending })], Store.referred⟩ } }

def CreateInput.saving : CreateInput :=
  { CreateInput.small with promoCode := some "half" }

theorem Store.funded_fresh (D : DeliveryId) : Store.funded.Fresh D where
  delivery   := rfl
  unspent    := by simp [funded, Ledger.empty]
  refundKey  := by simp [funded, Ledger.empty, Ledger.keys]
  redemption := rfl

theorem debit_first_refines_funded :
    (eval Stmt.exec (create (Params.small.debitsFirst true) 1 .saving) Store.funded).fst.isOk ∧
      SameOutcome .small 1 .saving Store.funded
        (eval Stmt.exec (create (Params.small.debitsFirst true) 1 .saving) Store.funded)
        (eval Stmt.exec (create (Params.small.debitsFirst false) 1 .saving) Store.funded) := by
  refine ⟨by decide +kernel, debit_first_refines (Store.funded_fresh 1) ?_ ⟨rfl, rfl, nofun, rfl, rfl⟩⟩
  intro Q code h
  have h := List.mem_singleton.mp <| Table.find?_eq_some_iff.mp h
  obtain ⟨rfl, rfl⟩ := Prod.mk.inj h
  exact le_rfl

end Drovery
