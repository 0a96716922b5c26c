import Drovery.Execution.Theorems.Money
import Drovery.Objects.Theorems.Delivery

namespace Drovery

open Concurrency Method Outline
open DeliveriesService WalletService

namespace Store

-- What no statement ever takes back: the transactions of the ledger and the orders.
structure Extends (db db' : Store) : Prop where
  ledger   : ∀ {r}, r ∈ db.wallet.ledger.rows → r ∈ db'.wallet.ledger.rows
  delivery : ∀ {D d}, db.deliveries.find? D = some d →
    ∃ d', db'.deliveries.find? D = some d' ∧ d.SameOrder d'

namespace Extends

variable {db db' db'' : Store}

theorem refl (db : Store) : db.Extends db where
  ledger h   := h
  delivery h := ⟨_, h, rfl, rfl, rfl⟩

theorem trans (h₁ : db.Extends db') (h₂ : db'.Extends db'') : db.Extends db'' where
  ledger h   := h₂.ledger <| h₁.ledger h
  delivery h := by
    obtain ⟨d', h', hu, he, hc⟩ := h₁.delivery h
    obtain ⟨d'', h'', hu', he', hc'⟩ := h₂.delivery h'
    exact ⟨d'', h'', hu'.trans hu, he'.trans he, hc'.trans hc⟩

end Extends

-- The wallet is balanced, and every payment belongs to a delivery with the same price.
structure Solvent (db : Store) : Prop where
  wallet   : db.wallet.Balanced
  payments : ∀ {D p}, db.payments.table.find? D = some p →
    ∃ d, db.deliveries.find? D = some d ∧ d.estimatedPrice = p.amount ∧ 0 < p.amount
  users    : ∀ {D d}, db.deliveries.find? D = some d → (db.wallet.balances.find? d.userId).isSome

theorem Solvent.of_initial {db : Store} (h : db.Initial) : db.Solvent where
  wallet := {
    balance  := fun hb => by simp [h.ledger, Ledger.empty, h.balances _ _ hb]
    nonneg   := fun hb => (h.balances _ _ hb).ge
    snapshot := fun he => by simp [h.ledger, Ledger.empty] at he
    amounts  := fun hr => by simp [h.ledger, Ledger.empty] at hr
  }
  payments hp := by simp [h.payments] at hp
  users hd    := by simp [h.deliveries] at hd

end Store

namespace Stmt

variable {x : Stmt} {c : Call} {db db' : Store}

theorem exec_extends (x : Stmt) (db : Store) : db.Extends (x.exec db).snd where
  ledger h := by
    have ⟨rs, hb, _, _⟩ := x.exec_wallet db
    exact hb.rows ▸ List.mem_append_right rs h
  delivery {D d} h := by
    have := x.rowChange db D
    generalize hd : (x.exec db).snd.deliveries.find? D = d' at this
    cases this
    case same           => exact ⟨d, h, rfl, rfl, rfl⟩
    case created hn _   => simp [hn] at h
    case moved tr e _ he _ =>
      obtain rfl := Option.some.inj <| he.symm.trans h
      exact ⟨_, rfl, tr.apply_userId, tr.apply_estimatedPrice, tr.apply_handoffCodeHash⟩
    case guessed e _ he _ =>
      obtain rfl := Option.some.inj <| he.symm.trans h
      exact ⟨_, rfl, rfl, rfl, rfl⟩

-- The money that a statement moves on behalf of the call `c` is covered by what the store records.
def Funded (c : Call) (db : Store) : Stmt → Prop
  | .wallet (.credit U a reason opts) => 0 ≤ a ∧ ∃ fault, c = .credit U a reason opts fault
  | .wallet (.debit _ a _ _)   => 0 ≤ a
  | .wallet (.refund D U a)    =>
    ∃ r ∈ db.wallet.ledger.rows, WalletStmt.spends D r ∧ r.userId = U ∧ r.amount = a
  | .refundCharge ch D U a     =>
    ∃ d, db.deliveries.find? D = some d ∧ d.userId = U ∧ 0 < a ∧ a ≤ d.estimatedPrice ∧
      (ch = .automatic → a = d.estimatedPrice)
  | .payment (.create D p)     =>
    ∃ d, db.deliveries.find? D = some d ∧ d.estimatedPrice = p.amount ∧ 0 < p.amount
  | .createDelivery _ _ b      => ∀ a ∈ b.debit, 0 ≤ a
  | _                          => True

theorem Funded.mono (h : x.Funded c db) (he : db.Extends db') : x.Funded c db' := by
  cases x
  case wallet x =>
    cases x
    case refund =>
      obtain ⟨r, hr, hs⟩ := h
      exact ⟨r, he.ledger hr, hs⟩
    all_goals exact h
  case refundCharge =>
    obtain ⟨d, hd, hU, h₀, hle, ha⟩ := h
    obtain ⟨d', hd', ho⟩ := he.delivery hd
    exact ⟨d', hd', ho.userId ▸ hU, h₀, ho.estimatedPrice ▸ hle, ho.estimatedPrice ▸ ha⟩
  case payment x =>
    cases x
    case create =>
      obtain ⟨d, hd, hp⟩ := h
      obtain ⟨d', hd', ho⟩ := he.delivery hd
      exact ⟨d', hd', ho.estimatedPrice ▸ hp⟩
    all_goals exact h
  case createDelivery => exact h
  all_goals trivial

theorem Moneyless.funded (h : x.Moneyless) : x.Funded c db := by
  cases x
  case wallet x       => cases x <;> trivial
  case payment x      => cases x <;> trivial
  case createDelivery => exact h.elim
  case refundCharge   => exact h.elim
  all_goals trivial

-- Funded statements only book amounts that are not negative.
theorem Row.amount_nonneg {r : WalletTransaction} (hs : db.Solvent) (hf : x.Funded c db)
    (hr : x.Row r) : 0 ≤ r.amount := by
  cases x
  case wallet x =>
    cases x
    case credit              => exact hr.amount ▸ hf.left
    case debit               => exact hr.amount ▸ hf
    case grantReferralReward => exact hr.amount
    case refund =>
      obtain ⟨r', hm, _, _, ha⟩ := hf
      exact hr.amount ▸ ha ▸ hs.wallet.amounts hm
    all_goals exact hr.elim
  case refundCharge =>
    obtain ⟨_, _, _, ha, _⟩ := hf
    exact hr.amount ▸ ha.le
  case createDelivery =>
    obtain ⟨a, ha, hr⟩ | hr := hr
    case inl => exact hr.amount ▸ hf a ha
    case inr => exact hr.amount
  all_goals exact hr.elim

theorem exec_solvent (hs : db.Solvent) (hf : x.Funded c db) : (x.exec db).snd.Solvent where
  wallet := by
    have ⟨rs, hb, hr, _⟩ := x.exec_wallet db
    exact hs.wallet.bookedAll hb fun r hm => (hr r hm).amount_nonneg hs hf
  payments {D p} h := by
    -- A payment keeps its amount, and its delivery keeps its price.
    have keep {q : Payment} (hq : ∃ d, db.deliveries.find? D = some d ∧ d.estimatedPrice = q.amount ∧
        0 < q.amount) : ∃ d, (x.exec db).snd.deliveries.find? D = some d ∧
        d.estimatedPrice = q.amount ∧ 0 < q.amount := by
      obtain ⟨d, hd, he, ha⟩ := hq
      obtain ⟨d', hd', ho⟩ := (x.exec_extends db).delivery hd
      exact ⟨d', hd', ho.estimatedPrice.trans he, ha⟩
    have := x.paymentChange db D
    generalize hp : (x.exec db).snd.payments.table.find? D = q at this h
    cases this
    case same => exact keep <| hs.payments h
    case created hx _ =>
      obtain rfl := Option.some.inj h
      subst hx
      exact keep hf
    case notified q _ _ hq _ =>
      obtain rfl := Option.some.inj h
      have hq := hs.payments hq
      exact keep (q := { q with status := _ }) hq
    case refunded q _ _ hq _ _ _ =>
      obtain rfl := Option.some.inj h
      have hq := hs.payments hq
      exact keep (q := { q with status := _ }) hq
  users {D d} h := by
    have ⟨rs, hb, _, _⟩ := x.exec_wallet db
    rw [hb.isSome_find?]
    have := x.rowChange db D
    generalize hd : (x.exec db).snd.deliveries.find? D = d' at this h
    cases this
    case same => exact hs.users h
    case created hx _ hc =>
      obtain rfl := Option.some.inj h
      obtain ⟨hc⟩ := Store.createDelivery_ok hc
      exact hc.user
    case moved he _ =>
      obtain rfl := Option.some.inj h
      rw [Transition.apply_userId]
      exact hs.users he
    case guessed e _ he _ =>
      obtain rfl := Option.some.inj h
      exact hs.users (d := e) he

end Stmt

-- The outline for the flow of money. The assertions only depend on the store.
def moneyOutline : Outline Stmt.sig Store Call where
  inv w       := w.db.Solvent
  rely _ w w' := w.db.Extends w'.db
  pre _ c x w := x.Funded c w.db

-- The amounts that a call moves on its own account are not negative.
def Call.Nonneg : Call → Prop
  | .credit _ amount _ _ _ => 0 ≤ amount
  | .debit _ amount _ _ _  => 0 ≤ amount
  | _                      => True

namespace moneyOutline

variable {P : Params} {t : Nat} {c : Call} {w : World Stmt.sig Store Call} {α : Type} {p : App α}
variable {D : DeliveryId} {fault : Fault}

-- The amount of a refund is that of the transaction which spent the credits.
theorem ok_refundForDelivery : moneyOutline.Ok (system P) t c (refundForDelivery D fault) w := by
  refine Ok.stmt_bind trivial fun w' _ _ _ => ?_
  split
  case h_1 => trivial
  case h_2 spend hs =>
    refine Ok.handle (Ok.attempt <| Ok.tx ?_) fun e w => Ok.ite trivial trivial
    have hm := List.mem_reverse.mp <| List.mem_of_find?_eq_some hs
    exact ⟨spend, hm, List.find?_some hs, rfl, rfl⟩

theorem ok_refundChargeToWallet : moneyOutline.Ok (system P) t c (refundChargeToWallet D fault) w := by
  refine Ok.stmt_bind trivial fun w' _ _ _ => ?_
  split
  case h_1 => trivial
  case h_2 d hd =>
    split
    case isTrue => trivial
    case isFalse hp =>
      refine Ok.handle (Ok.attempt <| Ok.tx ?_) fun e w => Ok.ite trivial trivial
      exact ⟨d, hd, rfl, not_le.mp hp, le_rfl, fun _ => rfl⟩

theorem ok_refund {amount : Option Cents} : moneyOutline.Ok (system P) t c (AdminService.refund D amount fault) w := by
  refine Ok.stmt_bind trivial fun w' _ _ _ => ?_
  split
  case h_1 => trivial
  case h_2 d hd =>
    dsimp only
    split
    case isTrue => trivial
    case isFalse hp =>
      rw [not_or, not_le, not_lt] at hp
      refine Ok.handle (Ok.attempt <| Ok.tx ?_) fun e w => Ok.ite trivial trivial
      exact ⟨d, hd, rfl, hp.left, hp.right, by simp⟩

theorem ok_single {K : Stmt → Prop} (hp : Built (Single K) p) (h : ∀ x db, K x → x.Funded c db) :
    moneyOutline.Ok (system P) t c p w :=
  Ok.built hp fun | .tx hx => Ok.tx <| h _ _ hx

theorem ok_releaseForDelivery : moneyOutline.Ok (system P) t c (PromoService.releaseForDelivery D fault) w := by
  refine Ok.stmt_bind trivial fun w' _ _ _ => ?_
  split
  case h_1 => trivial
  case h_2 => exact Ok.attempt <| Ok.tx trivial

theorem ok_moneyless (hp : Built (Piece Stmt.Moneyless) p) : moneyOutline.Ok (system P) t c p w :=
  Ok.built hp fun
    | .tx h          => Ok.tx h.funded
    | .releasePromo  => ok_releaseForDelivery
    | .refundCredits => ok_refundForDelivery
    | .refundCharge  => ok_refundChargeToWallet

theorem ok_pieces (hp : Built (Piece Stmt.Frugal) p) : moneyOutline.Ok (system P) t c p w :=
  ok_moneyless <| Piece.mono hp fun _ => (·.moneyless)

theorem ok_blocks {K : Stmt → Prop} (hp : Built (Block K fun _ _ => True) p)
    (hK : ∀ x, K x → x.Frugal) : moneyOutline.Ok (system P) t c p w :=
  ok_pieces <| hp.refine (·.pieces (fun _ => id) hK)

theorem ok_handleWebhookEvent {event : StripeEvent} :
    moneyOutline.Ok (system P) t c (PaymentsService.handleWebhookEvent event fault) w := by
  unfold PaymentsService.handleWebhookEvent
  split
  case h_1 => trivial
  case h_2 =>
    refine Ok.handle (Ok.bind (Ok.attempt <| Ok.tx trivial) fun _ _ => trivial) fun e w => ?_
    exact Ok.ite trivial trivial

theorem ok_updatePromo {code : PromoId} {dto : UpdatePromoDto} :
    moneyOutline.Ok (system P) t c (AdminService.updatePromo code dto fault) w :=
  ok_single updatePromo_single fun _ _ => (·.moneyless.funded)

section Create

variable {inp : CreateInput} {order : Order} {dispatched : DispatchDecision}

theorem ok_abandon : moneyOutline.Ok (system P) t c (abandon P D inp dispatched) w := by
  refine Ok.bind ?_ fun _ w => ?_
  case refine_1 =>
    refine Ok.ite (Ok.bind (Ok.safe ok_releaseForDelivery) fun _ w => ?_) trivial
    exact Ok.safe ok_refundForDelivery
  case refine_2 =>
    unfold releaseClaimedAircraft
    split
    case h_1 => trivial
    case h_2 => exact Ok.safe <| Ok.attempt <| Ok.tx trivial

theorem ok_reserve : moneyOutline.Ok (system P) t c (reserve P D inp order dispatched) w := by
  refine Ok.ite (Ok.handle (Ok.bind ?_ fun _ w => ?_) fun e w => Ok.bind ok_abandon fun _ _ => trivial)
    trivial
  case refine_1 =>
    unfold redeemPromo
    split
    case h_1 => trivial
    case h_2 => exact Ok.attempt <| Ok.tx trivial
  case refine_2 =>
    unfold debitCredits
    split
    case isTrue h  => exact Ok.attempt <| Ok.tx h.le
    case isFalse   => trivial

-- The delivery exists and costs the given amount.
def Placed (D : DeliveryId) (price : Cents) (w : World Stmt.sig Store Call) : Prop :=
  ∃ d, w.db.deliveries.find? D = some d ∧ d.estimatedPrice = price

theorem Placed.extends {price : Cents} {w' : World Stmt.sig Store Call} (h : Placed D price w)
    (he : w.db.Extends w'.db) : Placed D price w' := by
  obtain ⟨d, hd, hp⟩ := h
  obtain ⟨d', hd', ho⟩ := he.delivery hd
  exact ⟨d', hd', ho.estimatedPrice.trans hp⟩

theorem placeWithRetries_wpm {tries attempt : Nat} :
    moneyOutline.wpm (system P) t c (placeWithRetries P D inp order dispatched tries attempt)
      (fun _ => Placed D order.finalTotal) (fun _ _ => True) w := by
  refine wpm_placeWithRetries (F := fun _ => True) (fun {attempt w} _ => ?_) (fun _ => ok_abandon) trivial
  have pre : (Stmt.createDelivery D (deliveryData P inp order dispatched attempt)
      (booking P order)).Funded c w.db := by
    intro a ha
    simp only [booking, Option.mem_def, Option.ite_none_right_eq_some, Option.some.injEq,
      Bool.and_eq_true, decide_eq_true_eq] at ha
    exact ha.right ▸ ha.left.right.le
  refine wpm_attempt.mpr ⟨fun _ => ?_, fun _ _ => trivial, fun e _ => Ok.tx pre⟩
  refine wpm_tx.mpr ⟨pre, fun w' _ _ _ => ?_⟩
  split
  case h_1 h => exact ⟨_, Store.find?_createDelivery h, rfl⟩
  case h_2   => trivial

theorem ok_charge (h : Placed D order.finalTotal w) : moneyOutline.Ok (system P) t c (charge D inp order) w := by
  unfold charge
  split
  case isFalse => trivial
  case isTrue hpos =>
    refine Ok.safe <| Ok.stmt_bind trivial fun w' hr _ _ => ?_
    split
    case h_1 => trivial
    case h_2 =>
      split
      case h_1 => trivial
      case h_2 =>
        obtain ⟨d, hd, hp⟩ := h.extends hr
        exact Ok.attempt <| Ok.tx ⟨d, hd, hp, hpos⟩

theorem ok_create : moneyOutline.Ok (system P) t c (create P D inp) w := by
  refine Ok.bind (ok_single prepare_single fun _ _ h => h.moneyless.funded) fun order w => ?_
  refine Ok.bind (ok_single dispatch_single fun _ _ h => ?_) fun dispatched w => ?_
  case refine_1 =>
    obtain h | ⟨_, _, rfl⟩ := h
    case inl => exact h.moneyless.funded
    case inr => trivial
  refine Ok.bind ok_reserve fun _ w => ?_
  refine Ok.wpm_bind placeWithRetries_wpm fun _ w h => Ok.bind (ok_charge h) fun _ w => ?_
  refine ok_single enqueue_single fun _ _ h => ?_
  obtain h | rfl := h
  case inl => exact h.moneyless.funded
  case inr => trivial

end Create

-- Every call moves only money that is accounted for.
theorem spawn (hc : c.Nonneg) :
    moneyOutline.wp (system P) t c ((system P).prog t c) (fun _ _ => True) w := by
  cases c <;> refine Ok.toCall ?_
  case create                => exact ok_create
  case cancel                => exact ok_pieces cancel_pieces
  case adminForceCancel      => exact ok_pieces adminForceCancel_pieces
  case adminFail             => exact ok_blocks (adminFail_blocks trivial) fun _ => False.elim
  case failExceptional       => exact ok_pieces failExceptional_pieces
  case beginReturnToBase     => exact ok_pieces beginReturnToBase_pieces
  case completeReturnToBase  => exact ok_pieces completeReturnToBase_pieces
  case confirmHandoff        => exact ok_pieces confirmHandoff_pieces
  case handleKickoff         => exact ok_moneyless handleKickoff_pieces
  case handleStage           => exact ok_pieces handleStage_pieces
  case handlePosition        => exact ok_single handlePosition_single fun _ _ h => h.moneyless.funded
  case ingest                => exact ok_blocks (ingest_blocks trivial) fun _ => False.elim
  case issue                 => exact ok_blocks (.block .issue) fun _ => False.elim
  case fetchPending          => exact ok_single fetchPending_single fun _ _ => (·.moneyless.funded)
  case ack                   => exact ok_blocks (ack_blocks trivial) fun _ => (·.frugal)
  case scanAndReap           =>
    exact ok_blocks (scanAndReap_blocks (fun _ => trivial) fun _ => trivial) fun _ ⟨_, h⟩ => h.frugal
  case expireStaleCommands   =>
    exact ok_single expireStaleCommands_single fun _ _ => (·.moneyless.funded)
  case reconcileStrandedAcks =>
    exact ok_blocks (reconcileStrandedAcks_blocks fun _ => trivial) fun _ ⟨_, h⟩ => h.frugal
  case refundForDelivery     => exact ok_refundForDelivery
  case refundChargeToWallet  => exact ok_refundChargeToWallet
  case adminRefund           => exact ok_refund
  case handleWebhookEvent    => exact ok_handleWebhookEvent
  case releaseForDelivery    => exact ok_releaseForDelivery
  case updatePromo           => exact ok_updatePromo
  case updateDrone           => exact ok_single updateDrone_single fun _ _ h => h.moneyless.funded
  case credit                => exact Ok.attempt <| Ok.tx ⟨hc, _, rfl⟩
  case debit                 => exact Ok.attempt <| Ok.tx hc
  case grantReferralReward   => exact Ok.attempt <| Ok.tx trivial
  case redeem                => exact Ok.attempt <| Ok.tx trivial
  case passTime              => exact Ok.tx trivial

theorem valid {pol : Policy Stmt.sig Store Call} (hp : ∀ c, pol.spawn c → c.Nonneg) :
    moneyOutline.Valid (system P) pol Store.Initial where
  rely_refl _ w       := .refl w.db
  rely_trans h₁ h₂    := h₁.trans h₂
  post_stable _ _     := trivial
  inv_init h          := .of_initial h
  spawn hc _ _        := spawn <| hp _ hc
  inv_step _ hi hf    := Stmt.exec_solvent hi hf
  rely_step _ _ _ _   := Stmt.exec_extends ..
  pre_step _ _ _ _ _ h := h.mono <| Stmt.exec_extends ..

end moneyOutline

-- The ledger explains every balance, in every store that the platform can ever reach.
theorem wallet_ledger {P : Params} {s : Pool Stmt.sig Store Call}
    (h : Reachable (system P) { spawn := Call.Nonneg } Store.Initial s) :
    let w := s.db.wallet
    (∀ U b, w.balances.find? U = some b →
      b = Ledger.total .credit w.ledger.rows U - Ledger.total .debit w.ledger.rows U ∧ 0 ≤ b) ∧
    (∀ newer r older, w.ledger.rows = newer ++ r :: older →
      r.balanceAfter =
        Ledger.total .credit (r :: older) r.userId - Ledger.total .debit (r :: older) r.userId) ∧
    w.ledger.keys.Nodup ∧
    ∀ t c x k, s.AboutTo t c x → x.Key s.db k → k ∈ w.ledger.keys →
      (x.exec s.db).snd.wallet.balances = w.balances ∧
        (x.exec s.db).snd.wallet.ledger = w.ledger := by
  have hs : s.db.Solvent := (moneyOutline.valid fun _ => id).reachable h |>.inv
  refine ⟨fun U b hb => ⟨?_, hs.wallet.nonneg hb⟩, fun newer r older he => ?_,
    s.db.wallet.ledger.nodup, fun _ _ _ _ _ => Stmt.replay⟩
  case refine_1 => rw [← Ledger.balance_eq_total]; exact hs.wallet.balance hb
  case refine_2 => rw [← Ledger.balance_eq_total]; exact hs.wallet.snapshot he

-- A user spends the reward for a referral, and the refund of what was spent is requested twice.
def walletRun : List (Cmd Call) := [
  .spawn 1 (.grantReferralReward 1 .committed), .exec 1,
  .spawn 2 (.debit 1 200 7 (some <| .debit 7) .committed), .exec 2,
  .spawn 3 (.refundForDelivery 7 .committed), .exec 3,
  .spawn 4 (.refundForDelivery 7 .committed), .exec 4, .exec 3]

theorem wallet_ledger_refund :
    let s := (Pool.init .small).runCmds (system .small) walletRun
    s.db.wallet.balances.find? 1 = some 500 ∧ s.db.wallet.ledger.rows.length = 4 ∧
    (500 : Cents) =
      Ledger.total .credit s.db.wallet.ledger.rows 1 - Ledger.total .debit s.db.wallet.ledger.rows 1 ∧
    s.db.wallet.ledger.keys.Nodup := by
  have hb : ((Pool.init .small).runCmds (system .small) walletRun).db.wallet.balances.find? 1 =
      some 500 := by decide
  have h := wallet_ledger (P := .small) <| Reachable.runCmds_of_calls walletRun
    (.init Store.small_initial) (by simp [walletRun, Cmd.Calls, Call.Nonneg])
  exact ⟨hb, by decide, (h.1 1 500 hb).left, h.2.2.1⟩

end Drovery
