import Drovery.Execution.Store

namespace Drovery

-- A transaction succeeds only if all of its parts do.
theorem parts_of_bind {ε α β : Type} {x : Except ε α} {f : α → Except ε β} {b : β}
    (h : x >>= f = .ok b) : ∃ a, x = .ok a ∧ f a = .ok b := by
  cases x
  case error => contradiction
  case ok a  => exact ⟨a, rfl, h⟩

theorem ok_bind {ε α β : Type} {a : α} {f : α → Except ε β} : (Except.ok a >>= f) = f a :=
  rfl

theorem error_bind {ε α β : Type} {e : ε} {f : α → Except ε β} :
    (Except.error e >>= f) = .error e :=
  rfl

theorem commit_snd {ε σ : Type} {s : σ} {r : Except ε σ} :
    (commit s r).snd = s ∨ r = .ok (commit s r).snd := by
  cases r
  case ok    => exact .inr rfl
  case error => exact .inl rfl

namespace Store

variable {db db' : Store} {D E : DeliveryId} {row : Delivery} {booking : Booking} {U : UserId}

-- The row as the database stores it.
abbrev stamp (db : Store) (row : Delivery) : Delivery :=
  { row with createdAt := db.clock, updatedAt := db.clock }

theorem insertDelivery_ok (h : db.insertDelivery D row = .ok db') :
    ∃ ds ts, (db.wallet.balances.find? row.userId).isSome ∧
      db.deliveries.insert D (db.stamp row) = some ds ∧
      db.trackingIds.insert row.trackingId D = some ts ∧
      db' = { db with deliveries := ds, trackingIds := ts } := by
  unfold insertDelivery at h
  split at h
  case isTrue => contradiction
  case isFalse hu =>
    split at h
    case h_1 => contradiction
    case h_2 ds hd =>
      split at h
      case h_1 => contradiction
      case h_2 ts ht =>
        exact ⟨ds, ts, by simpa [Option.isSome_iff_ne_none] using hu, hd, ht, Except.ok.inj h |>.symm⟩

theorem bookRedemption_ok {r : Option (PromoId × Cents × DiscountResult)}
    (h : db.bookRedemption D U r = .ok db') :
    ∃ ps, db' = { db with promos := ps } ∧ (r = none ∧ ps = db.promos ∨
      ∃ P t d, r = some (P, t, d) ∧ db.promos.redeemWithinTx db.clock P U D t d = .ok ps) := by
  cases r
  case none => exact ⟨_, Except.ok.inj h |>.symm, .inl ⟨rfl, rfl⟩⟩
  case some r =>
    obtain ⟨P, t, d⟩ := r
    obtain ⟨ps, hp, he⟩ := parts_of_bind h
    exact ⟨ps, Except.ok.inj he |>.symm, .inr ⟨P, t, d, rfl, hp⟩⟩

theorem bookDebit_ok {r : Option Cents} (h : db.bookDebit D U r = .ok db') :
    ∃ w, db' = { db with wallet := w } ∧ (r = none ∧ w = db.wallet ∨
      ∃ a, r = some a ∧ db.wallet.debitWithinTx U a D (some <| .debit D) = .ok w) := by
  cases r
  case none => exact ⟨_, Except.ok.inj h |>.symm, .inl ⟨rfl, rfl⟩⟩
  case some a =>
    obtain ⟨w, hw, he⟩ := parts_of_bind h
    exact ⟨w, Except.ok.inj he |>.symm, .inr ⟨a, rfl, hw⟩⟩

theorem bookReferral_ok {r : Option ReferralGrant} (h : db.bookReferral D U r = .ok db') :
    ∃ w o, db' = { db with wallet := w, outbox := o } ∧ (r ≠ some .inline ∧ w = db.wallet ∨
      r = some .inline ∧ db.wallet.maybeGrantReferralRewardWithinTx U = .ok w) := by
  unfold bookReferral at h
  split at h
  case h_1 => exact ⟨_, _, Except.ok.inj h |>.symm, .inl ⟨by simp, rfl⟩⟩
  case h_2 =>
    obtain ⟨w, hw, he⟩ := parts_of_bind h
    exact ⟨w, _, Except.ok.inj he |>.symm, .inr ⟨rfl, hw⟩⟩
  case h_3 =>
    split at h
    case h_1 => contradiction
    case h_2 o _ => exact ⟨_, o, Except.ok.inj h |>.symm, .inl ⟨by simp, rfl⟩⟩

-- Everything that the creation of a delivery does to the store.
structure Created (db db' : Store) (D : DeliveryId) (row : Delivery) (booking : Booking) where
  user       : (db.wallet.balances.find? row.userId).isSome
  deliveries : db.deliveries.insert D (db.stamp row) = some db'.deliveries
  trackingId : db.trackingIds.insert row.trackingId D = some db'.trackingIds
  redeem     : booking.redeem = none ∧ db'.promos = db.promos ∨
    ∃ P t d, booking.redeem = some (P, t, d) ∧
      db.promos.redeemWithinTx db.clock P row.userId D t d = .ok db'.promos
  -- The credits are debited before the reward for a referral is granted.
  debited    : Wallet
  debit      : booking.debit = none ∧ debited = db.wallet ∨
    ∃ a, booking.debit = some a ∧
      db.wallet.debitWithinTx row.userId a D (some <| .debit D) = .ok debited
  referral   : booking.referral ≠ some .inline ∧ db'.wallet = debited ∨
    booking.referral = some .inline ∧
      debited.maybeGrantReferralRewardWithinTx row.userId = .ok db'.wallet
  clock      : db'.clock = db.clock
  tracking   : db'.tracking = db.tracking
  fleet      : db'.fleet = db.fleet
  commands   : db'.commands = db.commands
  payments   : db'.payments = db.payments

theorem createDelivery_ok (h : db.createDelivery D row booking = .ok db') :
    Nonempty (Created db db' D row booking) := by
  obtain ⟨db₁, h₁, h⟩ := parts_of_bind h
  obtain ⟨db₂, h₂, h⟩ := parts_of_bind h
  obtain ⟨db₃, h₃, h₄⟩ := parts_of_bind h
  obtain ⟨ds, ts, hu, hd, ht, rfl⟩ := insertDelivery_ok h₁
  obtain ⟨ps, rfl, hp⟩ := bookRedemption_ok h₂
  obtain ⟨w, rfl, hw⟩ := bookDebit_ok h₃
  obtain ⟨w', o, rfl, hr⟩ := bookReferral_ok h₄
  exact ⟨⟨hu, hd, ht, hp, w, hw, hr, rfl, rfl, rfl, rfl, rfl⟩⟩

theorem created_of_ok (h : ((Stmt.createDelivery D row booking).exec db).fst = .ok ()) :
    Nonempty (Created db ((Stmt.createDelivery D row booking).exec db).snd D row booking) := by
  simp only [Stmt.exec] at h ⊢
  cases hc : db.createDelivery D row booking <;> simp only [hc, commit] at h ⊢
  case error => contradiction
  case ok    => exact createDelivery_ok hc

theorem absent_of_createDelivery
    (h : ((Stmt.createDelivery D row booking).exec db).fst = .ok ()) : db.deliveries.find? D = none := by
  have ⟨hd⟩ := created_of_ok h
  exact Table.find?_of_insert hd.deliveries

theorem find?_createDelivery
    (h : ((Stmt.createDelivery D row booking).exec db).fst = .ok ()) :
    ((Stmt.createDelivery D row booking).exec db).snd.deliveries.find? D = some (db.stamp row) := by
  have ⟨hd⟩ := created_of_ok h
  rw [Table.find?_insert hd.deliveries, if_pos rfl]

theorem refundCharge_ok {ch : RefundChannel} {amount : Cents}
    (h : db.refundCharge ch D U amount = .ok db') :
    ∃ ps w, ch.refundWithinTx db.payments db.wallet D U amount = .ok (ps, w) ∧
      db' = { db with payments := ps, wallet := w } := by
  obtain ⟨⟨ps, w⟩, h, he⟩ := parts_of_bind h
  exact ⟨ps, w, h, Except.ok.inj he |>.symm⟩

end Store

namespace Stmt

variable {x : Stmt} {db : Store} {D : DeliveryId}

-- A refund only touches the payments and the wallet.
theorem exec_refundCharge (ch : RefundChannel) (D : DeliveryId) (U : UserId) (amount : Cents)
    (db : Store) : ∃ ps w, ((refundCharge ch D U amount).exec db).snd =
      { db with payments := ps, wallet := w } := by
  have h := commit_snd (s := db) (r := db.refundCharge ch D U amount)
  cases h
  case inl h => exact ⟨db.payments, db.wallet, h⟩
  case inr h =>
    have ⟨ps, w, _, he⟩ := Store.refundCharge_ok h
    exact ⟨ps, w, he⟩

-- A creation either fails or else does what it is meant to do.
theorem exec_createDelivery (D : DeliveryId) (row : Delivery) (booking : Booking) (db : Store) :
    ((createDelivery D row booking).exec db).snd = db ∨
      Nonempty (Store.Created db ((createDelivery D row booking).exec db).snd D row booking) :=
  commit_snd.imp_right Store.createDelivery_ok

-- What a statement can do to the row of a delivery.
inductive RowChange (db : Store) (D : DeliveryId) (x : Stmt) : Option Delivery → Prop
  | same : RowChange db D x (db.deliveries.find? D)
  | created {row booking} :
    x = .createDelivery D row booking → db.deliveries.find? D = none →
    db.createDelivery D row booking = .ok (x.exec db).snd → RowChange db D x (some <| db.stamp row)
  | moved {o tr d} :
    x = .delivery (.transition o D tr) → db.deliveries.find? D = some d → tr.source d.status →
    RowChange db D x (some <| tr.apply db.clock d)
  | guessed {d} :
    x = .delivery (.countWrongGuess D) → db.deliveries.find? D = some d →
    d.handoffAttempts < maxHandoffAttempts →
    RowChange db D x (some <| DeliveryStmt.countGuess db.clock d)

theorem rowChange (x : Stmt) (db : Store) (D : DeliveryId) :
    RowChange db D x ((x.exec db).snd.deliveries.find? D) := by
  cases x
  case delivery x =>
    cases x
    case find      => exact .same
    case findStuck => exact .same
    case transition o E tr =>
      simp only [exec, DeliveryStmt.exec]
      obtain h | ⟨d, rfl, hd, hs, h⟩ := db.deliveries.find?_cas_cases E D
        (tr.source ·.status) (tr.apply db.clock)
      case inl => rw [h]; exact .same
      case inr => rw [h]; exact .moved rfl hd hs
    case countWrongGuess E =>
      simp only [exec, DeliveryStmt.exec]
      obtain h | ⟨d, rfl, hd, hs, h⟩ := db.deliveries.find?_cas_cases E D
        DeliveryStmt.guessable (DeliveryStmt.countGuess db.clock)
      case inl => rw [h]; exact .same
      case inr => rw [h]; exact .guessed rfl hd (of_decide_eq_true hs)
  case createDelivery E row booking =>
    cases hc : db.createDelivery E row booking
    case error => simp only [exec, hc, commit]; exact .same
    case ok db' =>
      obtain ⟨hd⟩ := Store.createDelivery_ok hc
      simp only [exec, hc, commit]
      rw [Table.find?_insert hd.deliveries]
      split
      case isFalse => exact .same
      case isTrue h =>
        subst h
        exact .created rfl (Table.find?_of_insert hd.deliveries) (by simp [exec, hc, commit])
  case refundCharge ch E U amount =>
    have ⟨_, _, he⟩ := exec_refundCharge ch E U amount db
    rw [he]
    exact .same
  case effect x => cases x <;> exact .same
  all_goals exact .same

-- What a statement can do to the row of a command.
inductive CommandChange (db : Store) (C : CommandId) (x : Stmt) : Option DroneCommand → Prop
  | same : CommandChange db C x (db.commands.find? C)
  | created {row} :
    x = .command (.create C row) → db.commands.find? C = none →
    ¬(row.status.Open ∧
      0 < db.commands.count fun _ c => c.deliveryId = row.deliveryId ∧ c.status.Open) →
    CommandChange db C x (some row)
  | fetched {now c} :
    x = .command (.markFetched C now) → db.commands.find? C = some c → c.status = .pending →
    CommandChange db C x (some { c with status := .fetched, fetchedAt := some now })
  | expired {c} :
    x = .command (.expire C) ∨ (∃ now, x = .command (.expireStale now)) →
    db.commands.find? C = some c → c.status.Open →
    CommandChange db C x (some { c with status := .expired })
  | claimed {status now note c} :
    x = .command (.claim C status now note) → db.commands.find? C = some c → c.status = .fetched →
    CommandChange db C x
      (some { c with status := status, ackedAt := some now, resultNote := note })
  | applied {c} :
    x = .command (.patchApplied C) → db.commands.find? C = some c →
    CommandChange db C x (some { c with appliedTransition := true })
  | rejected {note c} :
    x = .command (.patchRejected C note) → db.commands.find? C = some c →
    CommandChange db C x (some { c with status := .rejected, resultNote := some note })

theorem commandChange (x : Stmt) (db : Store) (C : CommandId) :
    CommandChange db C x ((x.exec db).snd.commands.find? C) := by
  -- An unconditional update of a single row.
  have modify {E : CommandId} {f : DroneCommand → DroneCommand}
      (h : ∀ c, E = C → db.commands.find? C = some c → CommandChange db C x (some <| f c)) :
      CommandChange db C x ((db.commands.modify E f).find? C) := by
    rw [Table.find?_modify]
    split
    case isFalse => exact .same
    case isTrue he =>
      subst he
      cases hc : db.commands.find? C
      case none   => rw [Option.map_none, ← hc]; exact .same
      case some c => exact h c rfl hc
  cases x
  case command x =>
    cases x
    case create E row =>
      simp only [exec, CommandStmt.exec, CommandStmt.execCreate]
      split
      case isTrue => exact .same
      case isFalse hn =>
        split
        case h_1 => exact .same
        case h_2 cs hcs =>
          rw [Table.find?_insert hcs]
          split
          case isFalse => exact .same
          case isTrue he => subst he; exact .created rfl (Table.find?_of_insert hcs) hn
    case markFetched E now =>
      simp only [exec, CommandStmt.exec]
      obtain h | ⟨c, rfl, hc, hg, h⟩ := db.commands.find?_cas_cases E C (·.status = .pending)
        ({ · with status := .fetched, fetchedAt := some now })
      case inl => rw [h]; exact .same
      case inr => rw [h]; exact .fetched rfl hc (of_decide_eq_true hg)
    case expire E =>
      simp only [exec, CommandStmt.exec]
      obtain h | ⟨c, rfl, hc, hg, h⟩ := db.commands.find?_cas_cases E C (·.status.Open)
        ({ · with status := .expired })
      case inl => rw [h]; exact .same
      case inr => rw [h]; exact .expired (.inl rfl) hc (of_decide_eq_true hg)
    case claim E status now note =>
      simp only [exec, CommandStmt.exec]
      obtain h | ⟨c, rfl, hc, hg, h⟩ := db.commands.find?_cas_cases E C (·.status = .fetched)
        ({ · with status := status, ackedAt := some now, resultNote := note })
      case inl => rw [h]; exact .same
      case inr => rw [h]; exact .claimed rfl hc (of_decide_eq_true hg)
    case patchApplied  => exact modify fun c he hc => .applied (he ▸ rfl) hc
    case patchRejected => exact modify fun c he hc => .rejected (he ▸ rfl) hc
    case expireStale now =>
      simp only [exec, CommandStmt.exec, Table.find?_updateMany]
      cases hc : db.commands.find? C
      case none   => rw [Option.map_none, ← hc]; exact .same
      case some c =>
        rw [Option.map_some]
        split
        case isFalse => rw [← hc]; exact .same
        case isTrue hs =>
          simp only [CommandStmt.stale, decide_eq_true_eq] at hs
          exact .expired (.inr ⟨now, rfl⟩) hc hs.left
    all_goals exact .same
  case createDelivery E row booking =>
    simp only [exec]
    obtain h | h := commit_snd (s := db) (r := db.createDelivery E row booking)
    case inl => rw [h]; exact .same
    case inr =>
      obtain ⟨hc⟩ := Store.createDelivery_ok h
      rw [hc.commands]; exact .same
  case refundCharge ch E U amount =>
    have ⟨_, _, he⟩ := exec_refundCharge ch E U amount db
    rw [he]
    exact .same
  case effect x => cases x <;> exact .same
  all_goals exact .same

-- What can become of the row of a command.
inductive Becomes (c : DroneCommand) : DroneCommand → Prop
  | same : Becomes c c
  | fetched {now} : c.status = .pending →
    Becomes c { c with status := .fetched, fetchedAt := some now }
  | expired : c.status.Open → Becomes c { c with status := .expired }
  | claimed {status now note} : c.status = .fetched →
    Becomes c { c with status := status, ackedAt := some now, resultNote := note }
  | applied : Becomes c { c with appliedTransition := true }
  | rejected {note} : Becomes c { c with status := .rejected, resultNote := some note }

theorem becomes {C : CommandId} {c : DroneCommand} (h : db.commands.find? C = some c) :
    ∃ c', (x.exec db).snd.commands.find? C = some c' ∧ Becomes c c' := by
  have same {c' : DroneCommand} (h' : db.commands.find? C = some c') : c' = c :=
    Option.some.inj (h'.symm.trans h)
  have := x.commandChange db C
  generalize (x.exec db).snd.commands.find? C = cmd' at this
  cases this
  case same            => exact ⟨c, h, .same⟩
  case created hn _    => simp [hn] at h
  case fetched h' hs   => obtain rfl := same h'; exact ⟨_, rfl, .fetched hs⟩
  case expired h' ho   => obtain rfl := same h'; exact ⟨_, rfl, .expired ho⟩
  case claimed h' hs   => obtain rfl := same h'; exact ⟨_, rfl, .claimed hs⟩
  case applied h'      => obtain rfl := same h'; exact ⟨_, rfl, .applied⟩
  case rejected h'     => obtain rfl := same h'; exact ⟨_, rfl, .rejected⟩

theorem exec_fleet (x : Stmt) (db : Store) :
    (∃ y, x = .fleet y) ∨ (x.exec db).snd.fleet = db.fleet := by
  cases x
  case fleet y => exact .inl ⟨y, rfl⟩
  case createDelivery E row booking =>
    have h := exec_createDelivery E row booking db
    cases h
    case inl h => exact .inr <| congrArg Store.fleet h
    case inr h => exact .inr h.some.fleet
  case refundCharge ch E U amount =>
    have ⟨_, _, he⟩ := exec_refundCharge ch E U amount db
    exact .inr <| by rw [he]
  case effect y => cases y <;> exact .inr rfl
  all_goals exact .inr rfl

theorem exec_clock (x : Stmt) (db : Store) :
    (∃ ms, x = .effect (.passTime ms)) ∨ (x.exec db).snd.clock = db.clock := by
  cases x
  case createDelivery E row booking =>
    have h := exec_createDelivery E row booking db
    cases h
    case inl h => exact .inr <| congrArg Store.clock h
    case inr h => exact .inr h.some.clock
  case refundCharge ch E U amount =>
    have ⟨_, _, he⟩ := exec_refundCharge ch E U amount db
    exact .inr <| by rw [he]
  case effect y =>
    cases y
    case passTime ms => exact .inl ⟨ms, rfl⟩
    all_goals exact .inr rfl
  all_goals exact .inr rfl

theorem clock_le (x : Stmt) (db : Store) : db.clock ≤ (x.exec db).snd.clock := by
  obtain ⟨ms, rfl⟩ | he := x.exec_clock db
  case inl => exact Nat.le_add_right _ _
  case inr => exact he.ge

-- What a statement can do to the row of an airframe.
inductive DroneChange (db : Store) (X : DroneId) (x : Stmt) : Option Drone → Prop
  | same : DroneChange db X x (db.fleet.find? X)
  | claimed {D payloadKg d} :
    x = .fleet (.claim X D payloadKg) → db.fleet.find? X = some d → d.Claimable payloadKg →
    DroneChange db X x (some <| d.claim D)
  | released {D outcome d} :
    x = .fleet (.release D outcome) → db.fleet.find? X = some d → d.activeDeliveryId = some D →
    DroneChange db X x (some <| d.release outcome)
  | tracked {D position batteryPercent d} :
    x = .fleet (.updateState D position batteryPercent) → db.fleet.find? X = some d →
    DroneChange db X x (some
      { d with
        currentPosition := position <|> d.currentPosition
        batteryPercent  := batteryPercent.getD d.batteryPercent })
  | updated {dto d} :
    x = .fleet (.update X dto) → db.fleet.find? X = some d →
    DroneChange db X x (some <| d.update dto)

theorem droneChange (x : Stmt) (db : Store) (X : DroneId) :
    DroneChange db X x ((x.exec db).snd.fleet.find? X) := by
  obtain ⟨y, rfl⟩ | he := x.exec_fleet db
  case inr => rw [he]; exact .same
  case inl =>
    simp only [exec]
    cases y
    case claim Y D p =>
      simp only [FleetStmt.exec, FleetStmt.execClaim]
      split
      case isFalse => exact .same
      case isTrue hc =>
        split
        case isTrue => exact .same
        case isFalse =>
          obtain ⟨d, hd, hcl⟩ := (Option.any_eq_true _ _).mp hc
          rw [Table.find?_modify]
          split
          case isFalse => exact .same
          case isTrue he =>
            subst he
            rw [hd, Option.map_some]
            exact .claimed rfl hd (of_decide_eq_true hcl)
    case release D o =>
      simp only [FleetStmt.exec, Table.find?_updateMany]
      cases hd : db.fleet.find? X
      case none => rw [Option.map_none, ← hd]; exact .same
      case some d =>
        rw [Option.map_some]
        split
        case isFalse => rw [← hd]; exact .same
        case isTrue h => exact .released rfl hd (of_decide_eq_true h)
    case updateState D p b =>
      simp only [FleetStmt.exec, Table.find?_updateMany]
      cases hd : db.fleet.find? X
      case none => rw [Option.map_none, ← hd]; exact .same
      case some d =>
        rw [Option.map_some]
        split
        case isFalse => rw [← hd]; exact .same
        case isTrue  => exact .tracked rfl hd
    case update Y dto =>
      simp only [FleetStmt.exec]
      split
      case h_1 => exact .same
      case h_2 d hd =>
        rw [Table.find?_modify]
        split
        case isFalse => exact .same
        case isTrue he =>
          subst he
          rw [hd, Option.map_some]
          exact .updated rfl hd
    all_goals exact .same

end Stmt

end Drovery
