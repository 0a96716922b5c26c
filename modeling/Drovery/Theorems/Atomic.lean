import Drovery.Theorems.Checkout

namespace Drovery

open Concurrency Method
open DeliveriesService DispatchService WalletService PromoService PaymentsService

-- The delivery `D` holds exactly the given airframe.
def Fleet.HeldBy (fleet : Fleet) (D : DeliveryId) (droneId : Option DroneId) : Prop :=
  ∀ X, fleet.Claims X D ↔ droneId = some X

namespace Fleet

variable {fleet : Fleet} {D : DeliveryId} {X : DroneId} {payloadKg : ℚ} {droneId : Option DroneId}

theorem heldBy_none : fleet.HeldBy D none ↔ ∀ X, ¬fleet.Claims X D :=
  ⟨fun h X hc => (nomatch (h X).mp hc), fun h X => ⟨fun hc => absurd hc (h X), nofun⟩⟩

theorem HeldBy.execClaim (h : fleet.HeldBy D none) :
    ((FleetStmt.execClaim fleet X D payloadKg).snd.HeldBy D none ∧
      ∀ n, (FleetStmt.execClaim fleet X D payloadKg).fst = .ok n → n = 0) ∨
    (FleetStmt.execClaim fleet X D payloadKg).fst = .ok 1 ∧
      (FleetStmt.execClaim fleet X D payloadKg).snd.HeldBy D (some X) := by
  obtain ⟨he, hn⟩ | ⟨he, d, hd, _⟩ := claim_cases X D payloadKg fleet
  case inl => exact .inl ⟨by rwa [he], hn⟩
  case inr =>
    rw [he]
    refine .inr ⟨rfl, fun Y => ⟨fun hc => ?_, ?_⟩⟩
    case refine_1 =>
      by_contra hne
      refine nomatch (h Y).mp ?_
      obtain ⟨d', hd', ha⟩ := hc
      have hne : Y ≠ X := fun he => hne <| congrArg some he.symm
      exact ⟨d', by rwa [Table.find?_modify_of_ne hne] at hd', ha⟩
    case refine_2 =>
      rintro ⟨rfl⟩
      exact ⟨d.claim D, by simp [hd], rfl⟩

-- Nothing is held any more once the airframe has been given back.
theorem HeldBy.returned (h : fleet.HeldBy D droneId) :
    Fleet.HeldBy (returned fleet droneId D .committed) D none := by
  cases droneId
  case none   => exact h
  case some X => exact heldBy_none.mpr fun Y => @not_claims_of_release _ _ _ 0 _

end Fleet

section

variable {P : Params} {D : DeliveryId} {db : Store} {payloadKg : ℚ}

-- What a part of the dispatch leaves claimed, where a failure leaves nothing claimed.
def Settles {α : Type} (D : DeliveryId) (droneId : α → Option DroneId) :
    Except AppError α × Store → Prop
  | (.ok a, s)    => s.fleet.HeldBy D (droneId a)
  | (.error _, s) => s.fleet.HeldBy D none

theorem eval_claimFirst {Xs : List DroneId} (h : db.fleet.HeldBy D none) :
    Settles D id (eval Stmt.exec (claimFirst D payloadKg Xs) db) := by
  induction Xs generalizing db
  case nil => exact h
  case cons X Xs ih =>
    have hc := @Fleet.HeldBy.execClaim _ _ X payloadKg h
    rw [claimFirst, eval_bind, eval_tx]
    simp only [Stmt.exec, FleetStmt.exec, id_eq]
    generalize FleetStmt.execClaim db.fleet X D payloadKg = r at hc
    obtain ⟨r, fleet⟩ := r
    obtain ⟨hf, hn⟩ | ⟨rfl, hf⟩ := hc
    case inr => exact hf
    case inl =>
      cases r
      case error => exact hf
      case ok n  =>
        obtain rfl := hn n rfl
        exact ih hf

theorem eval_selectAndClaim {route : MissionRoute} (h : db.fleet.HeldBy D none) :
    Settles D some (eval Stmt.exec (selectAndClaim P D route payloadKg) db) := by
  rw [selectAndClaim, eval_stmt_bind]
  cases hh : (FleetStmt.exec db.clock (.findHeld D) db.fleet).fst
  case some X => exact nomatch (h X).mp <| Fleet.claims_of_findHeld hh
  case none =>
    simp only [Stmt.exec, hh]
    rw [eval_stmt_bind, eval_bind]
    generalize P.rankCandidates _ _ _ = ranked
    have hc := @eval_claimFirst _ _ payloadKg (ranked.take maxClaimAttempts) h
    simp only [Stmt.exec, FleetStmt.exec] at hc ⊢
    generalize eval Stmt.exec (claimFirst D payloadKg (ranked.take maxClaimAttempts)) db = r at hc ⊢
    obtain ⟨r, s⟩ := r
    cases r
    case error => exact hc
    case ok o =>
      cases o
      case some X => exact hc
      case none =>
        have hs := @eval_of_reads s _ _ <| @saturationError_single payloadKg ranked.length
        dsimp only
        rw [eval_bind]
        generalize eval Stmt.exec (saturationError payloadKg ranked.length) s = r at hs
        obtain ⟨r, s'⟩ := r
        obtain rfl : s' = s := hs
        cases r <;> exact hc

theorem eval_dispatch_settles {live : Bool} {route : Option MissionRoute} {isScheduled : Bool}
    (h : db.fleet.HeldBy D none) :
    Settles D DispatchDecision.droneId
      (eval Stmt.exec (dispatch P live D payloadKg route isScheduled) db) := by
  unfold dispatch
  split
  case isTrue  => exact h
  case isFalse =>
    cases route
    case none       => exact h
    case some route =>
      have hc := @eval_selectAndClaim P _ _ payloadKg route h
      show Settles D _ (eval Stmt.exec (selectAndClaim P D route payloadKg >>= _) db)
      rw [eval_bind]
      generalize eval Stmt.exec (selectAndClaim P D route payloadKg) db = r at hc
      obtain ⟨r, s⟩ := r
      cases r <;> exact hc

end

-- The tracking id of a try is already taken, be it according to the database or to the error that the
-- transaction is reported to have failed with.
def Collides (fault : Nat → Fault) (f : Nat → Except AppError Store) (n : Nat) : Prop :=
  ∃ e, isTrackingIdCollision e ∧
    (fault n = .rolledBack e ∨ (∀ e', fault n ≠ .rolledBack e') ∧ f n = .error e)

-- The creation of a delivery is lost if the first try whose tracking id does not collide is.
theorem placement_eq_lost_iff {fault : Nat → Fault} {f : Nat → Except AppError Store} {e : AppError}
    {s : Store} (tries attempt : Nat) : placement fault f tries attempt = .lost e s ↔
      ∃ n, attempt ≤ n ∧ n < attempt + tries ∧ (∀ m, attempt ≤ m → m < n → Collides fault f m) ∧
        fault n = .lost e ∧ f n = .ok s := by
  induction tries generalizing attempt
  case zero =>
    refine ⟨nofun, ?_⟩
    rintro ⟨n, h₁, h₂, _⟩
    omega
  case succ tries ih =>
    -- Either the first try is the one that is lost, or it collides.
    have step : (∃ n, attempt ≤ n ∧ n < attempt + (tries + 1) ∧
        (∀ m, attempt ≤ m → m < n → Collides fault f m) ∧ fault n = .lost e ∧ f n = .ok s) ↔
        (fault attempt = .lost e ∧ f attempt = .ok s) ∨
          Collides fault f attempt ∧ placement fault f tries (attempt + 1) = .lost e s := by
      rw [ih]
      constructor
      case mp =>
        rintro ⟨n, h₁, h₂, hm, hn⟩
        obtain rfl | h₁ := h₁.eq_or_lt
        case inl => exact .inl hn
        case inr =>
          refine .inr ⟨hm _ le_rfl h₁, n, h₁, by omega, fun m h => hm m (by omega), hn⟩
      case mpr =>
        rintro (hn | ⟨hc, n, h₁, h₂, hm, hn⟩)
        case inl => exact ⟨attempt, le_rfl, by omega, fun m _ _ => by omega, hn⟩
        case inr =>
          refine ⟨n, by omega, by omega, fun m h₁ h₂ => ?_, hn⟩
          obtain rfl | h₁ := h₁.eq_or_lt
          case inl => exact hc
          case inr => exact hm m h₁ h₂
    rw [step]
    have retry {e' : AppError} (hl : ¬(fault attempt = .lost e ∧ f attempt = .ok s))
        (hc : Collides fault f attempt ↔ isTrackingIdCollision e') :
        (if isTrackingIdCollision e' then placement fault f tries (attempt + 1) else .failed e') =
            .lost e s ↔
          (fault attempt = .lost e ∧ f attempt = .ok s) ∨
            Collides fault f attempt ∧ placement fault f tries (attempt + 1) = .lost e s := by
      rw [hc]
      split
      case isTrue h  => simp [hl, h]
      case isFalse h => simp [hl, h]
    simp only [placement]
    cases hf : fault attempt <;> cases ho : f attempt <;> dsimp only
    case committed.ok => simp [Collides, hf, ho]
    case lost.ok      => simp [Collides, hf, ho]
    case committed.error => rw [← hf, ← ho]; exact retry (by simp [hf]) (by simp [Collides, hf, ho])
    case lost.error      => rw [← hf, ← ho]; exact retry (by simp [ho]) (by simp [Collides, hf, ho])
    case rolledBack.ok    => rw [← hf, ← ho]; exact retry (by simp [hf]) (by simp [Collides, hf])
    case rolledBack.error => rw [← hf, ← ho]; exact retry (by simp [hf]) (by simp [Collides, hf])

-- The wallet after the debit, if there is any, knows nothing else about the delivery.
structure Wallet.Spent (w : Wallet) (D : DeliveryId) (spends : Prop) : Prop where
  refundKey : .refund D ∉ w.ledger.keys
  users     : ∀ r ∈ w.ledger.rows, WalletStmt.spends D r → (w.balances.find? r.userId).isSome
  debit     : spends ↔ ∃ r ∈ w.ledger.rows, WalletStmt.spends D r

theorem placement_placed {fault : Nat → Fault} {f : Nat → Except AppError Store} {s : Store}
    {tries attempt : Nat} (h : placement fault f tries attempt = .placed s) : ∃ n, f n = .ok s := by
  induction tries generalizing attempt
  case zero => contradiction
  case succ tries ih =>
    simp only [placement] at h
    cases hf : fault attempt <;> cases ho : f attempt <;> rw [hf, ho] at h <;> dsimp only at h
    case committed.ok s' =>
      obtain rfl := Placement.placed.inj h
      exact ⟨attempt, ho⟩
    case lost.ok => contradiction
    all_goals
      split at h
      case isTrue  => exact ih h
      case isFalse => contradiction

-- What the store knows about the delivery `D` right after its creation.
structure Store.Placed (db : Store) (D : DeliveryId) (order : Order) (droneId : Option DroneId) :
    Prop where
  delivery   : ∃ d, db.deliveries.find? D = some d ∧ d.assignedDroneId = droneId
  airframe   : db.fleet.HeldBy D droneId
  wallet     : db.wallet.Spent D (0 < order.creditsToApply)
  redemption : (db.promos.redemptions.table.find? D).isSome = order.promo.isSome
  inForce    : ∀ r, db.promos.redemptions.table.find? D = some r → r.status = .redeemed

section

variable {P : Params} {D : DeliveryId} {inp : CreateInput} {order : Order} {db s : Store}
variable {dispatched : DispatchDecision} {n : Nat} {w w' : Wallet}

theorem Wallet.spent_of_bookDebit (hf : db.Fresh D)
    (h : order.debit = none ∧ w = db.wallet ∨
      ∃ a, order.debit = some a ∧
        db.wallet.debitWithinTx inp.userId a D (some <| .debit D) = .ok w) :
    w.Spent D (0 < order.creditsToApply) := by
  have hd : order.debit.isSome ↔ 0 < order.creditsToApply := by
    unfold Order.debit
    split <;> simp_all
  rw [← hd]
  obtain ⟨hn, rfl⟩ | ⟨a, ha, h⟩ := h
  case inl =>
    refine ⟨hf.refundKey, fun r hr hs => absurd hs <| hf.unspent r hr, ?_⟩
    rw [hn]
    refine ⟨fun h => by simp at h, ?_⟩
    rintro ⟨r, hr, hs⟩
    exact absurd hs <| hf.unspent r hr
  case inr =>
    obtain ⟨r, hb, hd, _⟩ := debitWithinTx_ok h
    have hrows := Ledger.rows_insert hb.ledger
    refine ⟨?_, fun r' hr' hs => ?_, ?_⟩
    case refine_1 =>
      rw [Ledger.keys, hrows, List.filterMap_cons, hd.idempotencyKey]
      exact fun hm => hf.refundKey <| (List.mem_cons.mp hm).resolve_left fun h => by cases h
    case refine_2 =>
      rw [hrows] at hr'
      obtain rfl | hr' := List.mem_cons.mp hr'
      case inr => exact absurd hs <| hf.unspent r' hr'
      case inl =>
        obtain ⟨b, hb', _⟩ := hb.balance
        simp [hb.balances, hb']
    case refine_3 =>
      rw [ha]
      exact ⟨fun _ => ⟨r, by simp [hrows], spends_of_isDebit hd⟩, fun _ => rfl⟩

-- The rewards for a referral do not belong to the delivery.
theorem Wallet.Spent.rewarded {p : Prop} {U : UserId} (h : w.Spent D p)
    (hr : w' = w ∨ w.maybeGrantReferralRewardWithinTx U = .ok w') : w'.Spent D p := by
  obtain rfl | hr := hr
  case inl => exact h
  case inr =>
    obtain ⟨rs, hb, hrw, _⟩ := maybeGrantReferralRewardWithinTx_ok hr
    have hs {r} (hm : r ∈ w'.ledger.rows) (hs : WalletStmt.spends D r) : r ∈ w.ledger.rows := by
      rw [hb.rows] at hm
      obtain hm | hm := List.mem_append.mp hm
      case inl => simp [WalletStmt.spends, (hrw r hm).deliveryId] at hs
      case inr => exact hm
    refine ⟨?_, fun r hm hr => ?_, h.debit.trans ⟨?_, ?_⟩⟩
    case refine_1 =>
      rw [Ledger.keys, hb.rows, List.filterMap_append]
      intro hm
      obtain hm | hm := List.mem_append.mp hm
      case inl =>
        obtain ⟨r, hr, hk⟩ := List.mem_filterMap.mp hm
        obtain ⟨_, hk' | hk'⟩ := (hrw r hr).key <;> cases hk'.symm.trans hk
      case inr => exact h.refundKey hm
    case refine_2 => exact hb.isSome_find? ▸ h.users r (hs hm hr) hr
    case refine_3 =>
      rintro ⟨r, hm, hr⟩
      exact ⟨r, by simp [hb.rows, hm], hr⟩
    case refine_4 =>
      rintro ⟨r, hm, hr⟩
      exact ⟨r, hs hm hr, hr⟩

theorem placed_of_creation
    (h : creation (P.debitsFirst false) D inp order dispatched db n = .ok s) (hf : db.Fresh D)
    (hh : db.fleet.HeldBy D dispatched.droneId) : s.Placed D order dispatched.droneId := by
  obtain ⟨hc⟩ := Store.createDelivery_ok h
  have hb : booking (P.debitsFirst false) order =
      ⟨order.redemption, order.debit, order.referral P⟩ := by
    simp [booking, Order.redemption, Order.debit, Order.referral]
  rw [hb] at hc
  have hd := hc.deliveries
  have hp := hc.redeem
  refine ⟨⟨_, by rw [Table.find?_insert hd, if_pos rfl], rfl⟩, hc.fleet ▸ hh, ?_, ?_, ?_⟩
  case refine_1 =>
    exact (@Wallet.spent_of_bookDebit _ inp _ _ _ hf hc.debit).rewarded <|
      hc.referral.imp And.right And.right
  case refine_2 =>
    obtain ⟨hn, he⟩ | ⟨Q, t, d, ho, hr⟩ := hp
    case inl =>
      rw [he, hf.redemption]
      simp_all [Order.redemption]
    case inr =>
      obtain ⟨_, _, _, hr, _⟩ := (Promos.redeemed_of_redeemWithinTx hr).find?
      obtain ⟨promo, hp, _⟩ := Option.map_eq_some_iff.mp ho
      rw [hr, hp]
      rfl
  case refine_3 =>
    intro r hr'
    obtain ⟨hn, he⟩ | ⟨Q, t, d, ho, hr⟩ := hp
    case inl => simp [he, hf.redemption] at hr'
    case inr =>
      obtain ⟨row, _, hs, hr, _⟩ := (Promos.redeemed_of_redeemWithinTx hr).find?
      obtain rfl := Option.some.inj <| hr.symm.trans hr'
      exact hs

end

namespace Store

-- The delivery `D` exists, and everything that is recorded for it is in force.
structure Intact (db : Store) (D : DeliveryId) : Prop where
  delivery   : ∃ d, db.deliveries.find? D = some d ∧
    ∀ X, d.assignedDroneId = some X → db.fleet.Claims X D
  debit      : .refund D ∉ db.wallet.ledger.keys
  redemption : ∀ r, db.promos.redemptions.table.find? D = some r → r.status = .redeemed

-- The delivery `D` does not exist, and nothing is in force for it.
structure Vacant (db : Store) (D : DeliveryId) : Prop where
  delivery   : db.deliveries.find? D = none
  airframe   : ∀ X, ¬db.fleet.Claims X D
  debit      : db.wallet.Refunded D
  redemption : db.promos.inForce D = none

def AllOrNothing (db : Store) (D : DeliveryId) : Prop :=
  db.Intact D ∨ db.Vacant D

variable {db s : Store} {D : DeliveryId} {order : Order} {droneId : Option DroneId}

theorem Placed.intact (h : db.Placed D order droneId) : db.Intact D where
  delivery := by
    obtain ⟨d, hd, rfl⟩ := h.delivery
    exact ⟨d, hd, fun X hX => (h.airframe X).mpr hX⟩
  debit      := h.wallet.refundKey
  redemption := h.inForce

theorem Fresh.vacant (h : db.Fresh D) (hh : db.fleet.HeldBy D none) : db.Vacant D where
  delivery     := h.delivery
  airframe     := Fleet.heldBy_none.mp hh
  debit r hr s := absurd s <| h.unspent r hr
  redemption   := by simp [Promos.inForce, h.redemption]

theorem Restored.vacant (h : db.Restored D s) (hf : db.Fresh D) (hh : s.fleet.HeldBy D none) :
    s.Vacant D where
  delivery   := h.deliveries ▸ hf.delivery
  airframe   := Fleet.heldBy_none.mp hh
  debit      := h.refunded
  redemption := by rw [h.inForce, Promos.inForce, hf.redemption, Option.filter_none]

-- The compensation has no effect on a delivery for which nothing has been reserved.
theorem Placed.compensate_eq (h : db.Placed D order droneId) (hp : ¬order.promo.isSome)
    (hc : ¬0 < order.creditsToApply) : db.compensate D = db := by
  have hr : db.promos.redemptions.table.find? D = none :=
    Option.not_isSome_iff_eq_none.mp <| h.redemption ▸ hp
  have hs : ∀ r ∈ db.wallet.ledger.rows, ¬WalletStmt.spends D r :=
    fun r hr hs => hc <| h.wallet.debit.mpr ⟨r, hr, hs⟩
  rw [compensate, Promos.releaseFor_of_none hr, Wallet.refundFor_of_unspent hs]

-- The compensation releases the redemption of a delivery that exists.
theorem Placed.released (h : db.Placed D order droneId) (hp : order.promo.isSome) :
    ∃ r, (db.compensate D).promos.redemptions.table.find? D = some r ∧ r.status ≠ .redeemed := by
  obtain ⟨r, hr⟩ := Option.isSome_iff_exists.mp <| h.redemption.trans hp
  have hs := h.inForce r hr
  have hi : db.promos.inForce D = some r := Option.filter_eq_some_iff.mpr ⟨hr, decide_eq_true hs⟩
  refine ⟨Redemptions.markReleased db.clock r, ?_, by simp [Redemptions.markReleased]⟩
  simp only [compensate, Promos.releaseFor_of_inForce hi, Promos.release_of_redeemed hr hs,
    Redemptions.release, Table.find?_cas]
  simp [hr, Redemptions.redeemed, hs]

-- The compensation refunds the credits that have been spent on a delivery that exists.
theorem Placed.refunded (h : db.Placed D order droneId) (hc : 0 < order.creditsToApply) :
    .refund D ∈ (db.compensate D).wallet.ledger.keys := by
  obtain ⟨r, hr, hs⟩ := h.wallet.debit.mp hc
  have hf : (db.wallet.ledger.rows.reverse.find? (WalletStmt.spends D)).isSome :=
    List.find?_isSome.mpr ⟨r, List.mem_reverse.mpr hr, hs⟩
  obtain ⟨spend, hf⟩ := Option.isSome_iff_exists.mp hf
  have hm := List.mem_reverse.mp <| List.mem_of_find?_eq_some hf
  obtain ⟨r', hb, hi⟩ := Wallet.refundFor_books hf (h.wallet.users spend hm <| List.find?_some hf)
    h.wallet.refundKey
  rw [Ledger.keys, compensate, Ledger.rows_insert hb.ledger]
  exact List.mem_filterMap.mpr ⟨r', List.mem_cons_self, hi.idempotencyKey⟩

end Store

-- The compensating steps of a creation succeed.
structure CreateFaults.Compensates (faults : CreateFaults) : Prop where
  releasePromo    : faults.releasePromo = .committed
  refundCredits   : faults.refundCredits = .committed
  releaseAirframe : faults.releaseAirframe = .committed

-- The statements with which a delivery is charged and set off.
def Stmt.Settling : Stmt → Prop
  | .payment _ => True
  | .effect _  => True
  | _          => False

section

variable {P : Params} {D : DeliveryId} {inp : CreateInput} {order : Order} {db s : Store}
variable {dispatched : DispatchDecision}

theorem Store.Intact.settling {x : Stmt} (h : db.Intact D) (hx : x.Settling) :
    (x.exec db).snd.Intact D := by
  cases x
  case payment => exact ⟨h.delivery, h.debit, h.redemption⟩
  case effect y => cases y <;> exact ⟨h.delivery, h.debit, h.redemption⟩
  all_goals contradiction

theorem settle_settling : Built (Single Stmt.Settling) (do
    charge D inp order
    enqueue D inp order dispatched.trackingSource : App Unit) := by
  refine .bind ?_ fun _ => ?_
  case refine_1 =>
    unfold charge
    split
    case isFalse => exact .pure
    case isTrue =>
      refine .safe <| .bind (Single.stmt trivial) fun existing => ?_
      cases existing
      case some => exact .pure
      case none =>
        dsimp only
        split
        case h_1 => exact .throw
        case h_2 => exact .attempt <| .block <| .tx trivial
  case refine_2 =>
    unfold enqueue
    split
    case h_1 => exact .pure
    case h_2 => exact .safe <| .attempt <| Single.stmt trivial
    case h_3 => exact .safe <| .attempt <| Single.stmt trivial

-- The transaction with which a checkout creates the delivery commits, but is reported to have failed.
structure LostCommit (P : Params) (D : DeliveryId) (inp : CreateInput) (order : Order)
    (dispatched : DispatchDecision) (db : Store) (n : Nat) : Prop where
  reserved : P.debitFirst → order.promoFault inp.faults = .committed ∧
    order.debitFault inp.faults = .committed
  tries    : n < maxTrackingIdTries
  collides : ∀ m < n, Collides inp.faults.delivery
    (creation (P.debitsFirst false) D inp order dispatched db) m
  lost     : ∃ e, inp.faults.delivery n = .lost e
  commits  : ∃ s, creation (P.debitsFirst false) D inp order dispatched db n = .ok s

-- Something has been taken for the delivery outside of the transaction that creates it.
def TakenApart (P : Params) (order : Order) (dispatched : DispatchDecision) : Prop :=
  P.debitFirst ∧ (order.promo.isSome ∨ 0 < order.creditsToApply) ∨ dispatched.droneId.isSome

theorem lostCommit_iff :
    (∃ n, LostCommit P D inp order dispatched db n) ↔
      (P.debitFirst → order.promoFault inp.faults = .committed ∧
        order.debitFault inp.faults = .committed) ∧
      ∃ e s, placement inp.faults.delivery (creation (P.debitsFirst false) D inp order dispatched db)
        maxTrackingIdTries 0 = .lost e s := by
  simp only [placement_eq_lost_iff]
  constructor
  case mp =>
    rintro ⟨n, hr, ht, hc, ⟨e, he⟩, ⟨s, hs⟩⟩
    exact ⟨hr, e, s, n, n.zero_le, by omega, fun m _ => hc m, he, hs⟩
  case mpr =>
    rintro ⟨hr, e, s, n, _, hn, hc, he, hs⟩
    exact ⟨n, hr, by omega, fun m => hc m m.zero_le, ⟨e, he⟩, ⟨s, hs⟩⟩

theorem eval_abandon_snd (hc : inp.faults.Compensates) :
    (eval Stmt.exec (abandon P D inp dispatched) s).snd =
      { (if P.debitFirst then s.compensate D else s) with
        fleet := returned s.fleet dispatched.droneId D .committed } := by
  rw [eval_abandon hc.releasePromo hc.refundCredits, hc.releaseAirframe]

-- Nothing is left of a delivery that has not been created.
theorem abandon_vacant (hc : inp.faults.Compensates) (hf : db.Fresh D)
    (hr : db.Reserves D inp.userId s) (hb : P.debitFirst = false → s = db)
    (hh : db.fleet.HeldBy D dispatched.droneId) :
    (eval Stmt.exec (abandon P D inp dispatched) s).snd.Vacant D := by
  refine (abandon_restored hc.releasePromo hc.refundCredits hf hr hb).vacant hf ?_
  rw [eval_abandon_snd hc, hr.money.left]
  exact hh.returned

-- A delivery that has been created after all remains consistent if nothing has been taken apart.
theorem abandon_placed (hc : inp.faults.Compensates) (h : s.Placed D order dispatched.droneId) :
    (eval Stmt.exec (abandon P D inp dispatched) s).snd.AllOrNothing D ↔
      ¬TakenApart P order dispatched := by
  rw [eval_abandon_snd hc]
  obtain ⟨d, hd, hX⟩ := h.delivery
  constructor
  case mp =>
    rintro (hi | hv) ht
    case inr =>
      have := hv.delivery
      split at this <;> exact nomatch hd.symm.trans this
    case inl =>
      obtain ⟨hb, hp | hp⟩ | ho := ht
      case inl.inl =>
        obtain ⟨r, hr, hs⟩ := h.released hp
        rw [if_pos hb] at hi
        exact hs <| hi.redemption r hr
      case inl.inr =>
        rw [if_pos hb] at hi
        exact hi.debit <| h.refunded hp
      case inr =>
        obtain ⟨X, ho⟩ := Option.isSome_iff_exists.mp ho
        obtain ⟨d', hd', hX'⟩ := hi.delivery
        have he : d' = d := by
          split at hd' <;> exact Option.some.inj <| hd'.symm.trans hd
        refine Fleet.heldBy_none.mp h.airframe.returned X ?_
        exact hX' X (he ▸ hX.trans ho)
  case mpr =>
    intro ht
    have ho : dispatched.droneId = none :=
      Option.not_isSome_iff_eq_none.mp fun ho => ht (.inr ho)
    have hs : (if P.debitFirst then s.compensate D else s) = s := by
      split
      case isFalse   => rfl
      case isTrue hb =>
        exact h.compensate_eq (fun hp => ht <| .inl ⟨hb, .inl hp⟩) fun hp => ht <| .inl ⟨hb, .inr hp⟩
    rw [hs, ho]
    exact .inl h.intact

theorem checkout_allOrNothing (hf : db.Fresh D) (hh : db.fleet.HeldBy D dispatched.droneId)
    (hl : inp.faults.Plausible) (hc : inp.faults.Compensates) :
    (eval Stmt.exec (checkout P D inp order dispatched) db).snd.AllOrNothing D ↔
      ¬((∃ n, LostCommit P D inp order dispatched db n) ∧ TakenApart P order dispatched) := by
  rw [lostCommit_iff]
  -- Once the reservations have gone through, everything depends on the creation of the delivery.
  have reserved {db' : Store} (hr : db.Reserves D inp.userId db') (hb : P.debitFirst = false → db' = db)
      (he : eval Stmt.exec (reserve P D inp order dispatched) db = (.ok (), db'))
      (hfc : P.debitFirst → order.promoFault inp.faults = .committed ∧
        order.debitFault inp.faults = .committed)
      (hcr : creation P D inp order dispatched db' =
        creation (P.debitsFirst false) D inp order dispatched db) :
      (eval Stmt.exec (checkout P D inp order dispatched) db).snd.AllOrNothing D ↔
        ¬(((P.debitFirst → order.promoFault inp.faults = .committed ∧
          order.debitFault inp.faults = .committed) ∧
            ∃ e s, placement inp.faults.delivery
              (creation (P.debitsFirst false) D inp order dispatched db) maxTrackingIdTries 0 =
                .lost e s) ∧ TakenApart P order dispatched) := by
    rw [eval_checkout_of_reserved hl he, hcr]
    cases hp : placement inp.faults.delivery
      (creation (P.debitsFirst false) D inp order dispatched db) maxTrackingIdTries 0
    case failed e =>
      refine ⟨?_, fun _ => ?_⟩
      case refine_1 =>
        rintro _ ⟨⟨_, _, _, h⟩, _⟩
        cases h
      exact .inr <| abandon_vacant hc hf hr hb hh
    case lost e s =>
      obtain ⟨n, _, _, _, _, hs⟩ := (placement_eq_lost_iff _ _).mp hp
      refine (abandon_placed hc (placed_of_creation hs hf hh)).trans (not_congr ?_)
      exact ⟨fun h => ⟨⟨hfc, e, s, rfl⟩, h⟩, And.right⟩
    case placed s =>
      refine ⟨?_, fun _ => ?_⟩
      case refine_1 =>
        rintro _ ⟨⟨_, _, _, h⟩, _⟩
        cases h
      obtain ⟨n, hs⟩ := placement_placed hp
      have hi := (placed_of_creation hs hf hh).intact
      exact .inl <| eval_built (I := (Store.Intact · D)) settle_settling
        (fun hs hi => by cases hs with | tx hx => exact hi.settling hx) hi
  have params {b : Bool} (hb : P.debitFirst = b) : P.debitsFirst b = P := by
    obtain ⟨_, _, _, _, _, _, _⟩ := P
    simp_all
  cases hb : P.debitFirst
  case false =>
    have he : eval Stmt.exec (reserve P D inp order dispatched) db = (.ok (), db) := by
      simp [reserve, hb]
    refine hb ▸ reserved .refl (fun _ => rfl) he (by simp [hb]) ?_
    rw [params hb]
  case true =>
    obtain ⟨db', hp, hd, hres, he⟩ | ⟨e, s, hr, he, hres⟩ := 
      @eval_reserve P D inp order db dispatched hb
    case inl =>
      refine hb ▸ reserved (reserves_of_reserveAll hres) (by simp [hb]) he (fun _ => ⟨hp, hd⟩) ?_
      have := funext <| @creation_of_reserved P _ _ _ _ _ dispatched hres
      rwa [params hb] at this
    case inr =>
      -- The reservation fails, so that the delivery is not created at all.
      have hev : eval Stmt.exec (checkout P D inp order dispatched) db = (.error e, _) :=
        eval_bind_of_error he
      rw [hev]
      refine ⟨?_, fun _ => .inr ?_⟩
      case refine_1 =>
        rintro _ ⟨⟨hfc, e', s', h⟩, _⟩
        obtain ⟨n, _, _, _, _, hs⟩ := (placement_eq_lost_iff _ _).mp h
        rw [creation_of_refused (hres (hfc rfl).left (hfc rfl).right)] at hs
        obtain ⟨_, _, hs⟩ := parts_of_bind hs
        cases hs
      case refine_2 => exact abandon_vacant hc hf hr (by simp [hb]) hh

-- The creation of a delivery is all or nothing unless the transaction that creates the delivery commits,
-- but is reported to have failed, after something has been taken for the delivery outside of it.
def LostCreation (P : Params) (D : DeliveryId) (inp : CreateInput) (db : Store) : Prop :=
  ∃ order dispatched db₁, (eval Stmt.exec (prepare inp) db).fst = .ok order ∧
    eval Stmt.exec (dispatch P inp.liveDispatch D inp.packageWeight order.route order.isScheduled) db =
      (.ok dispatched, db₁) ∧
    (∃ n, LostCommit P D inp order dispatched db₁ n) ∧ TakenApart P order dispatched

theorem create_all_or_nothing (hf : db.Fresh D) (hh : ∀ X, ¬db.fleet.Claims X D)
    (hl : inp.faults.Plausible) (hc : inp.faults.Compensates) :
    (eval Stmt.exec (create P D inp) db).snd.AllOrNothing D ↔ ¬LostCreation P D inp db := by
  replace hh := Fleet.heldBy_none.mpr hh
  rw [eval_create]
  have hprep := @eval_prepare inp db
  cases hp : eval Stmt.exec (prepare inp) db
  case mk r s =>
  rw [hp] at hprep
  obtain rfl : s = db := hprep
  cases r
  case error e =>
    refine ⟨fun _ ⟨_, _, _, h, _⟩ => ?_, fun _ => .inr <| hf.vacant hh⟩
    exact nomatch (congrArg Prod.fst hp).symm.trans h
  case ok order =>
    have ⟨fleet, hfl⟩ :=
      @eval_dispatch P D s inp.liveDispatch inp.packageWeight order.route order.isScheduled
    have hs := @eval_dispatch_settles P D s inp.packageWeight inp.liveDispatch order.route
      order.isScheduled hh
    cases hd : eval Stmt.exec (dispatch P inp.liveDispatch D inp.packageWeight order.route
      order.isScheduled) s
    case mk r db₁ =>
    rw [hd] at hfl hs
    obtain rfl : db₁ = { s with fleet } := hfl
    have heq {order'} (h : (eval Stmt.exec (prepare inp) s).fst = .ok order') : order' = order :=
      Except.ok.inj <| h.symm.trans <| congrArg Prod.fst hp
    dsimp only
    rw [hd]
    cases r
    case error e =>
      refine ⟨fun _ ⟨_, _, _, h, h', _⟩ => ?_, fun _ => .inr <| hf.with_fleet.vacant hs⟩
      obtain rfl := heq h
      exact nomatch hd.symm.trans h'
    case ok dispatched =>
      refine (checkout_allOrNothing hf.with_fleet hs hl hc).trans (not_congr ⟨fun h => ?_, ?_⟩)
      case refine_1 => exact ⟨order, dispatched, _, congrArg Prod.fst hp, hd, h⟩
      case refine_2 =>
        rintro ⟨order', dispatched', db₁, h, h', hlost⟩
        obtain rfl := heq h
        obtain ⟨hr, rfl⟩ := Prod.mk.inj <| hd.symm.trans h'
        obtain rfl := Except.ok.inj hr
        exact hlost

end

-- The connection breaks down right after the credits have been debited.
def CreateInput.lostDebit : CreateInput :=
  { CreateInput.saving with faults := { debit := .lost .connectionLost } }

theorem Store.funded_unclaimed (D : DeliveryId) (X : DroneId) : ¬Store.funded.fleet.Claims X D := by
  rintro ⟨d, hd, ha⟩
  obtain ⟨rfl, rfl⟩ := Prod.mk.inj <| List.mem_singleton.mp <| Table.find?_eq_some_iff.mp hd
  exact nomatch ha

theorem create_all_or_nothing_debited :
    (eval Stmt.exec (create .small 1 .lostDebit) Store.funded).fst = .error .connectionLost ∧
      (eval Stmt.exec (create .small 1 .lostDebit) Store.funded).snd.AllOrNothing 1 := by
  have hl (n : Nat) (e : AppError) : CreateInput.lostDebit.faults.delivery n ≠ .lost e := nofun
  refine ⟨by decide +kernel, (create_all_or_nothing (Store.funded_fresh 1) (Store.funded_unclaimed 1)
    (fun n e he => absurd he <| hl n e) ⟨rfl, rfl, rfl⟩).mpr ?_⟩
  rintro ⟨_, _, _, _, _, ⟨n, hn⟩, _⟩
  obtain ⟨e, he⟩ := hn.lost
  exact hl n e he

-- The connection breaks down right after the delivery has been created.
def CreateInput.lostDelivery : CreateInput :=
  { CreateInput.saving with faults := { delivery := fun _ => .lost .connectionLost } }

-- The delivery exists, but its credits are refunded, its promo code is free for another use and its
-- airframe is back in the fleet.
theorem create_all_or_nothing_missed :
    ¬∀ (P : Params) (D : DeliveryId) (inp : CreateInput) (db : Store), db.Fresh D →
      (∀ X, ¬db.fleet.Claims X D) → inp.faults.Plausible → inp.faults.Compensates →
      (eval Stmt.exec (create P D inp) db).snd.AllOrNothing D := by
  intro h
  have hl : CreateInput.lostDelivery.faults.Plausible := by
    rintro n e ⟨rfl⟩
    rfl
  have hd : ((eval Stmt.exec (create .small 1 .lostDelivery) Store.funded).snd.deliveries.find?
      1).isSome := by
    decide +kernel
  have hk : .refund 1 ∈
      (eval Stmt.exec (create .small 1 .lostDelivery) Store.funded).snd.wallet.ledger.keys := by
    decide +kernel
  obtain hi | hv := h .small 1 .lostDelivery Store.funded (Store.funded_fresh 1)
    (Store.funded_unclaimed 1) hl ⟨rfl, rfl, rfl⟩
  case inl => exact hi.debit hk
  case inr => simp [hv.delivery] at hd

end Drovery
