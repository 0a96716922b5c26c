import Drovery.Concurrency.Agreement
import Drovery.Services.Commands
import Drovery.Services.Registry
import Drovery.Services.Roles

-- The actions of an operator are part of several systems. An action that runs on its own does the
-- same in each of them.
namespace Drovery

open Concurrency Session

namespace Registry

variable {actor : AuditActor} {db : Store}

-- The same call as one of the administration.
def Call.toAdmin : Call → Admin.Call
  | createPromo P dto              => .createPromo P dto
  | updatePromo P dto              => .updatePromo P dto
  | createAirspaceZone Z dto now   => .createAirspaceZone Z dto now
  | updateAirspaceZone Z patch now => .updateAirspaceZone Z patch now
  | deactivateAirspaceZone Z       => .deactivateAirspaceZone Z

section

variable {α : Type} {p : App α} {q : Admin.App α}

-- The transactions of the registry are those of the administration.
theorem agree_tx {x : Stmt} {f : x.Res → Except AppError α} (hq : q.Calm)
    (h : (f (x.exec db).fst, (x.exec db).snd) = q.eval db) :
    Agree (Shows id) ((App.tx x f).eval Stmt.exec db) (q ⟨db, []⟩) :=
  ⟨congrArg Prod.fst h, congrArg Prod.snd h, hq db⟩

end

theorem agree_assertDiscountValue {type : PromoDiscountType} {value : ℚ} :
    Agree (Shows id) ((AdminService.assertDiscountValue type value).eval Stmt.exec db)
      (Admin.AdminService.assertDiscountValue type value ⟨db, []⟩) := by
  unfold AdminService.assertDiscountValue Admin.AdminService.assertDiscountValue
  split <;> exact ⟨rfl, rfl, rfl⟩

theorem agree_check {r : Except AppError Unit} :
    Agree (Shows id) (Method.eval Stmt.exec (Method.check r : App Unit) db)
      (Admin.AdminService.check r ⟨db, []⟩) := by
  cases r <;> exact ⟨rfl, rfl, rfl⟩

theorem agree_findZoneOr404 {Z : ZoneId} :
    Agree (Shows id) ((AdminService.findZoneOr404 Z).eval Stmt.exec db)
      (Admin.AdminService.findZoneOr404 Z ⟨db, []⟩) := by
  refine Agree.session_bind ⟨rfl, rfl, rfl⟩ fun a db _ => ?_
  cases a <;> exact ⟨rfl, rfl, rfl⟩

theorem agree_getPromo {P : PromoId} :
    Agree (Shows id) ((AdminService.getPromo P).eval Stmt.exec db)
      (Admin.AdminService.getPromo P ⟨db, []⟩) := by
  refine Agree.session_bind ⟨rfl, rfl, rfl⟩ fun a db _ => ?_
  cases a <;> exact ⟨rfl, rfl, rfl⟩

theorem agree_createPromo {P : PromoId} {dto : Admin.CreatePromoDto} :
    Agree (Shows id) ((AdminService.createPromo actor P dto).eval Stmt.exec db)
      (Admin.AdminService.createPromo actor P dto ⟨db, []⟩) := by
  refine agree_assertDiscountValue.session_bind fun _ db _ => ?_
  refine Agree.session_tryCatch (agree_tx ?_ rfl) fun e db => ?_
  case refine_1 => exact Calm.transaction <| Calm.write.bind fun _ => Calm.write
  case refine_2 => split <;> exact ⟨rfl, rfl, rfl⟩

theorem agree_updatePromoTx {P : PromoId} {before : PromoCode} {dto : UpdatePromoDto} :
    Agree (Shows id) ((App.tx (.updatePromo actor P before dto) id).eval Stmt.exec db)
      (Admin.AdminService.updatePromoTx actor P before dto ⟨db, []⟩) := by
  refine agree_tx (Calm.transaction <| Calm.cas.bind fun count => ?_) rfl
  dsimp only
  split
  case isTrue  => exact Calm.throw.bind fun _ => Calm.read.bind fun _ => Calm.write
  case isFalse => exact Calm.read.bind fun _ => Calm.write

theorem agree_updatePromo {P : PromoId} {dto : UpdatePromoDto} :
    Agree (Shows id) ((AdminService.updatePromo actor P dto).eval Stmt.exec db)
      (Admin.AdminService.updatePromo actor P dto ⟨db, []⟩) := by
  refine agree_getPromo.session_bind fun before db _ => ?_
  cases dto.discountValue
  case none => exact agree_updatePromoTx
  case some => exact agree_assertDiscountValue.session_bind fun _ _ _ => agree_updatePromoTx

theorem agree_createAirspaceZone {Z : ZoneId} {dto : CreateAirspaceZoneDto} {now : Time} :
    Agree (Shows id) ((AdminService.createAirspaceZone actor Z dto now).eval Stmt.exec db)
      (Admin.AdminService.createAirspaceZone actor Z dto now ⟨db, []⟩) := by
  refine agree_check.session_bind fun _ db _ => agree_tx ?_ rfl
  exact Calm.transaction <| Calm.write.bind fun _ => Calm.write

theorem agree_updateAirspaceZone {Z : ZoneId} {patch : AirspaceZonePatch} {now : Time} :
    Agree (Shows id) ((AdminService.updateAirspaceZone actor Z patch now).eval Stmt.exec db)
      (Admin.AdminService.updateAirspaceZone actor Z patch now ⟨db, []⟩) := by
  refine agree_findZoneOr404.session_bind fun before db _ => ?_
  refine agree_check.session_bind fun _ db _ => agree_check.session_bind fun _ db _ => ?_
  exact agree_tx (Calm.transaction <| Calm.stmt.bind fun _ => Calm.write) rfl

theorem agree_deactivateAirspaceZone {Z : ZoneId} :
    Agree (Shows id) ((AdminService.deactivateAirspaceZone actor Z).eval Stmt.exec db)
      (Admin.AdminService.deactivateAirspaceZone actor Z ⟨db, []⟩) := by
  refine agree_findZoneOr404.session_bind fun before db _ => agree_tx ?_ rfl
  exact Calm.transaction <| Calm.stmt.bind fun _ => Calm.write

theorem eval_prog (c : Call) :
    (c.prog actor).eval Stmt.exec db = (c.toAdmin.prog actor).eval db := by
  cases c
  case createPromo            => exact agree_createPromo.eval_eq
  case updatePromo            => exact agree_updatePromo.eval_eq
  case createAirspaceZone     => exact agree_createAirspaceZone.eval_eq
  case updateAirspaceZone     => exact agree_updateAirspaceZone.eval_eq
  case deactivateAirspaceZone => exact agree_deactivateAirspaceZone.eval_eq

end Registry

namespace Admin

open AdminAuditService

variable {actor : AuditActor} {db : Store} {D : DeliveryId} {faults : CleanupFaults}

theorem agree_run {α : Type} {p : Drovery.App α} :
    Agree (Shows (·.platform)) (p.eval Drovery.Stmt.exec db.platform) (run p ⟨db, []⟩) :=
  ⟨rfl, rfl, rfl⟩

section Deliveries

open Admin.DeliveriesService

theorem run_readStatus_bind {α : Type} {f : Option DeliveryStatus → App α} :
    (readStatus D >>= f) ⟨db, []⟩ = f ((db.platform.deliveries.find? D).map (·.status)) ⟨db, []⟩ :=
  run_bind_of_ok rfl

-- How many deliveries a transition hits, and where it leads to.
def hit (platform : Drovery.Store) (D : DeliveryId) (tr : Transition) : Nat × Drovery.Store :=
  Drovery.Stmt.exec (.delivery <| .transition none D tr) platform

theorem run_transition_bind {α : Type} {tr : Transition} {f : Nat → App α} :
    (transition D tr >>= f) ⟨db, []⟩ =
      f (hit db.platform D tr).fst ⟨{ db with platform := (hit db.platform D tr).snd }, []⟩ :=
  run_bind_of_ok rfl

theorem eval_transition_bind {α : Type} {tr : Transition} {platform : Drovery.Store}
    {f : Nat → Drovery.App α} :
    Method.eval Drovery.Stmt.exec (Drovery.App.stmt (.delivery <| .transition none D tr) >>= f) platform =
      Method.eval Drovery.Stmt.exec (f (hit platform D tr).fst) (hit platform D tr).snd :=
  rfl

-- The audit entries do not belong to the platform.
theorem agree_adminForceCancel (entry : Option DeliveryStatus → AuditEntry) :
    Agree (Shows (·.platform))
      ((Drovery.DeliveriesService.adminForceCancel D faults).eval Drovery.Stmt.exec db.platform)
      (adminForceCancel D (fun status => recordWithinTx <| entry status) faults ⟨db, []⟩) := by
  unfold Drovery.DeliveriesService.adminForceCancel adminForceCancel forceCancelTx
  rw [eval_transition_bind]
  by_cases h : 0 < (hit db.platform D .forceCancelOnGround).fst
  case pos =>
    rw [if_pos h]
    refine Agree.session_after (a := some .returnToFleet)
      (t := (hit db.platform D .forceCancelOnGround).snd) (Agree.transaction ?_) ?_
    case refine_1 =>
      rw [run_readStatus_bind, run_transition_bind, if_pos h]
      exact ⟨rfl, rfl, rfl⟩
    case refine_2 => exact fun db hp => hp ▸ agree_run.session_then fun _ _ => rfl
  case neg =>
    rw [if_neg h, eval_transition_bind]
    set platform := (hit db.platform D .forceCancelOnGround).snd with hf
    by_cases h' : 0 < (hit platform D .forceCancelAirborne).fst
    case pos =>
      rw [if_pos h']
      refine Agree.session_after (a := some .groundForInspection)
        (t := (hit platform D .forceCancelAirborne).snd) (Agree.transaction ?_) ?_
      case refine_1 =>
        rw [run_readStatus_bind, run_transition_bind, if_neg h, run_readStatus_bind,
          run_transition_bind, ← hf, if_pos h']
        exact ⟨rfl, rfl, rfl⟩
      case refine_2 => exact fun db hp => hp ▸ agree_run.session_then fun _ _ => rfl
    case neg =>
      rw [if_neg h']
      refine Agree.session_after (a := none)
        (t := (hit platform D .forceCancelAirborne).snd) (Agree.transaction ?_) ?_
      case refine_1 =>
        rw [run_readStatus_bind, run_transition_bind, if_neg h, run_readStatus_bind,
          run_transition_bind, ← hf, if_neg h']
        exact ⟨rfl, rfl, rfl⟩
      case refine_2 =>
        intro db hp
        rw [hp]
        refine Agree.session_bind ⟨rfl, rfl, rfl⟩ fun d _ _ => ?_
        cases d <;> exact ⟨rfl, rfl, rfl⟩

theorem eval_failFrom (db : Store) (D : DeliveryId) (allowed : List DeliveryStatus)
    (reason : DeliveryFailureReason) :
    ∃ count platform, Method.eval Drovery.Stmt.exec
        (Drovery.DeliveriesService.failFrom none D allowed reason) db.platform = (.ok count, platform) ∧
      failFrom D allowed reason ⟨db, []⟩ = (.ok count, ⟨{ db with platform }, []⟩) := by
  unfold Drovery.DeliveriesService.failFrom failFrom
  split <;> exact ⟨_, _, rfl, rfl⟩

theorem agree_failExceptional {reason : DeliveryFailureReason}
    (entry : Option DeliveryStatus → AuditEntry) :
    Agree (Shows (·.platform))
      ((Drovery.DeliveriesService.failExceptional none D reason DeliveryStatus.failableStatuses
        faults).eval Drovery.Stmt.exec db.platform)
      (failExceptional D reason (fun status => recordWithinTx <| entry status) faults ⟨db, []⟩) := by
  unfold Drovery.DeliveriesService.failExceptional failExceptional failTx
  dsimp only
  generalize DeliveryStatus.failableStatuses.filter (· ∉ DeliveryStatus.failableStatuses) = grounded
  generalize DeliveryStatus.failableStatuses.filter (· ∈ DeliveryStatus.failableStatuses) = airborne
  obtain ⟨n, platform, hp, hq⟩ := eval_failFrom db D grounded reason
  rw [Method.eval_bind_of_ok hp]
  by_cases hn : 0 < n
  case pos =>
    rw [if_pos hn]
    refine Agree.session_after (a := some false) (Agree.transaction (t := platform) ?_) ?_
    case refine_1 =>
      rw [run_readStatus_bind, run_bind_of_ok hq, if_pos hn]
      exact ⟨rfl, rfl, rfl⟩
    case refine_2 =>
      exact fun db hp => hp ▸ agree_run.session_bind fun _ _ _ => ⟨rfl, rfl, rfl⟩
  case neg =>
    obtain ⟨m, platform', hp', hq'⟩ := eval_failFrom { db with platform } D airborne reason
    rw [if_neg hn, Method.eval_bind_of_ok hp']
    by_cases hm : 0 < m
    case pos =>
      rw [if_pos hm]
      refine Agree.session_after (a := some true) (Agree.transaction (t := platform') ?_) ?_
      case refine_1 =>
        rw [run_readStatus_bind, run_bind_of_ok hq, if_neg hn, run_bind_of_ok hq', if_pos hm]
        exact ⟨rfl, rfl, rfl⟩
      case refine_2 =>
        exact fun db hp => hp ▸ agree_run.session_bind fun _ _ _ => ⟨rfl, rfl, rfl⟩
    case neg =>
      rw [if_neg hm]
      refine Agree.session_after (a := none) (Agree.transaction (t := platform') ?_) ?_
      case refine_1 =>
        rw [run_readStatus_bind, run_bind_of_ok hq, if_neg hn, run_bind_of_ok hq', if_neg hm]
        exact ⟨rfl, rfl, rfl⟩
      case refine_2 => exact fun db hp => ⟨rfl, hp, rfl⟩

theorem agree_adminFail {reason : DeliveryFailureReason}
    (entry : Option DeliveryStatus → AuditEntry) :
    Agree (Shows (·.platform))
      ((Drovery.DeliveriesService.adminFail D reason faults).eval Drovery.Stmt.exec db.platform)
      (adminFail D reason (fun status => recordWithinTx <| entry status) faults ⟨db, []⟩) := by
  refine (agree_failExceptional entry).session_bind fun applied db _ => ?_
  cases applied
  case true  => exact ⟨rfl, rfl, rfl⟩
  case false =>
    refine Agree.session_bind ⟨rfl, rfl, rfl⟩ fun d _ _ => ?_
    cases d <;> exact ⟨rfl, rfl, rfl⟩

end Deliveries

section Refund

variable {U : UserId} {amount : Cents}

theorem Store.credit_eq : db.credit D U amount =
    (db.platform.wallet.creditWithinTx U amount .checkoutRefund
      { deliveryId := some D, idempotencyKey := some <| RefundChannel.admin.key D }).map fun wallet =>
        { db with platform := { db.platform with wallet } } :=
  rfl

theorem agree_refundTx :
    Agree (Shows (·.platform))
      (Method.eval Drovery.Stmt.exec (Drovery.App.tx (.refundCharge .admin D U amount) id) db.platform)
      (AdminService.refundTx actor D U amount ⟨db, []⟩) := by
  rw [Method.eval_tx]
  unfold Drovery.Stmt.exec Drovery.Store.refundCharge RefundChannel.refundWithinTx
    AdminService.refundTx
  dsimp only
  by_cases h : (db.platform.payments.refund D RefundChannel.admin.refundable).fst = 0
  case pos =>
    have h' : (db.refundPayment D).fst = 0 := h
    rw [if_pos h]
    refine Agree.transaction_error (f := Store.platform) (t := (db.refundPayment D).snd.platform) ?_
    rw [run_cas_bind, if_pos h']
    exact ⟨rfl, rfl, rfl⟩
  case neg =>
    have h' : ¬(db.refundPayment D).fst = 0 := h
    rw [if_neg h]
    cases hc : db.platform.wallet.creditWithinTx U amount .checkoutRefund
      { deliveryId := some D, idempotencyKey := some <| RefundChannel.admin.key D }
    case error e =>
      have hw : (db.refundPayment D).snd.credit D U amount = .error e :=
        Store.credit_eq.trans <| congrArg _ hc
      refine Agree.transaction_error (f := Store.platform) (t := (db.refundPayment D).snd.platform) ?_
      rw [run_cas_bind, if_neg h', run_write_bind, hw]
      exact ⟨rfl, rfl, rfl⟩
    case ok wallet =>
      have hw := Store.credit_eq.trans <| congrArg (Except.map fun wallet =>
        { (db.refundPayment D).snd with
          platform := { (db.refundPayment D).snd.platform with wallet } }) hc
      refine Agree.transaction (f := Store.platform) ?_
      rw [run_cas_bind, if_neg h', run_write_bind, hw]
      exact ⟨rfl, rfl, rfl⟩

theorem agree_refund {amount : Option Cents} :
    Agree (Shows (·.platform))
      ((Drovery.AdminService.refund D amount .committed).eval Drovery.Stmt.exec db.platform)
      (AdminService.refund actor D amount ⟨db, []⟩) := by
  refine Agree.session_bind ⟨rfl, rfl, rfl⟩ fun delivery db _ => ?_
  cases delivery
  case none => exact ⟨rfl, rfl, rfl⟩
  case some delivery =>
    dsimp only
    split
    case isTrue  => exact ⟨rfl, rfl, rfl⟩
    case isFalse =>
      refine Agree.session_tryCatch agree_refundTx fun e db => ?_
      split <;> exact ⟨rfl, rfl, rfl⟩

end Refund

-- The airframe of a drone is kept apart from the row that the platform works on.
theorem agree_updateDrone {X : DroneId} {dto : UpdateDroneDto}
    (hX : (db.airframes.find? X).isSome = (db.platform.fleet.find? X).isSome) :
    Agree (Shows (·.platform))
      ((Drovery.AdminService.updateDrone X dto.toUpdateDroneDto .committed).eval Drovery.Stmt.exec
        db.platform)
      (AdminService.updateDrone actor X dto ⟨db, []⟩) := by
  unfold Drovery.AdminService.updateDrone AdminService.updateDrone AdminService.getDrone
  rw [Method.eval_stmt_bind]
  simp only [Drovery.Stmt.exec, FleetStmt.exec]
  cases hd : db.platform.fleet.find? X
  case none =>
    have ha : db.airframes.find? X = none := by simpa [hd] using hX
    have hf : db.findDrone X = none := by simp [Store.findDrone, ha]
    rw [run_bind, run_read_bind, hf]
    exact ⟨rfl, rfl, rfl⟩
  case some drone =>
    obtain ⟨airframe, ha⟩ := Option.isSome_iff_exists.mp (hX.trans <| by rw [hd]; rfl)
    have hf : db.findDrone X = some (airframe, drone) := by simp [Store.findDrone, ha, hd]
    have hx : FleetStmt.exec db.platform.clock (.update X dto.toUpdateDroneDto) db.platform.fleet =
        (.ok (), db.platform.fleet.modify X (·.update dto.toUpdateDroneDto)) := by
      rw [FleetStmt.exec, hd]
    have hu : db.updateDrone X dto =
        (.ok (dto.apply airframe, drone.update dto.toUpdateDroneDto), (db.updateDrone X dto).snd) := by
      rw [Store.updateDrone, hf]
    have hs : (db.updateDrone X dto).snd.platform = { db.platform with
        fleet := db.platform.fleet.modify X (·.update dto.toUpdateDroneDto) } := by
      rw [Store.updateDrone, hf]
    rw [run_bind, run_read_bind, hf]
    change Agree _ (Method.eval Drovery.Stmt.exec (Drovery.App.tx (.fleet <| .update X _) id) _) (transaction _ ⟨db, []⟩)
    rw [Method.eval_tx, Drovery.Stmt.exec, hx, ← hs]
    refine Agree.transaction (f := Store.platform) ?_
    rw [run_stmt_bind hu]
    exact ⟨rfl, rfl, rfl⟩

theorem agree_assertDiscountValue {type : PromoDiscountType} {value : ℚ} :
    Agree (Shows (·.platform))
      ((Drovery.AdminService.assertDiscountValue type (some value)).eval Drovery.Stmt.exec db.platform)
      (AdminService.assertDiscountValue type value ⟨db, []⟩) := by
  unfold Drovery.AdminService.assertDiscountValue AdminService.assertDiscountValue
  cases type
  case percent =>
    dsimp only
    split
    case isTrue h  => rw [if_pos ⟨rfl, h⟩]; exact ⟨rfl, rfl, rfl⟩
    case isFalse h => rw [if_neg fun h' => h h'.right]; exact ⟨rfl, rfl, rfl⟩
  case fixed => exact ⟨rfl, rfl, rfl⟩

theorem agree_updatePromoTx {P : PromoId} {dto : UpdatePromoDto} {before : PromoCode}
    (hp : db.platform.promos.codes.find? P = some before) :
    Agree (Shows (·.platform))
      (Method.eval Drovery.Stmt.exec (do
        let count ← (Drovery.App.stmt <| .promo <| .update P dto).attempt .committed
        if count = 0 then throw <| .notFound "error.admin.promo.not_found" else pure ()) db.platform)
      (AdminService.updatePromoTx actor P before dto ⟨db, []⟩) := by
  have hc : db.platform.promos.codes.cas P (fun _ => true) dto.apply =
      (1, db.platform.promos.codes.modify P dto.apply) := Table.cas_of_guard hp rfl
  have hu : db.updatePromo P dto = (1, db.setPromos { db.platform.promos with
      codes := db.platform.promos.codes.modify P dto.apply }) := by
    rw [Store.updatePromo, PromoStmt.exec, hc]
  unfold AdminService.updatePromoTx Method.attempt
  rw [Method.eval_stmt_bind]
  simp only [Drovery.Stmt.exec, PromoStmt.exec, hc]
  refine Agree.transaction (f := Store.platform) ?_
  rw [run_cas_bind, hu]
  exact ⟨rfl, rfl, rfl⟩

theorem agree_updatePromo {P : PromoId} {dto : UpdatePromoDto} :
    Agree (Shows (·.platform))
      ((Drovery.AdminService.updatePromo P dto .committed).eval Drovery.Stmt.exec db.platform)
      (AdminService.updatePromo actor P dto ⟨db, []⟩) := by
  unfold Drovery.AdminService.updatePromo AdminService.updatePromo AdminService.getPromo
  rw [Method.eval_stmt_bind, run_bind, run_read_bind]
  cases hp : db.platform.promos.codes.find? P
  case none =>
    simp only [Drovery.Stmt.exec, PromoStmt.exec, hp]
    exact ⟨rfl, rfl, rfl⟩
  case some before =>
    simp only [Drovery.Stmt.exec, PromoStmt.exec, hp]
    cases dto.discountValue
    case none =>
      have hn : Drovery.AdminService.assertDiscountValue before.discountType none = pure () := by
        cases before.discountType <;> rfl
      rw [hn]
      exact agree_updatePromoTx hp
    case some value =>
      refine agree_assertDiscountValue.session_bind fun _ db' hq => ?_
      unfold AdminService.assertDiscountValue at hq
      split at hq
      case isTrue  => exact nomatch congrArg Prod.fst hq
      case isFalse =>
        obtain rfl : db = db' := congrArg (·.snd.db) hq
        exact agree_updatePromoTx hp

theorem agree_issueTx {C : CommandId} {row : DroneCommand} {entry : AuditEntry} :
    Agree (Shows (·.platform))
      (Method.eval Drovery.Stmt.exec (Method.handle (Drovery.App.tx (.command <| .create C row) id) fun e =>
        if e.isUniqueViolation then throw <| .conflict "error.command.already_pending" else throw e)
        db.platform)
      (DroneCommandService.issueTx C row (fun _ => recordWithinTx entry) ⟨db, []⟩) := by
  refine Agree.session_tryCatch ?_ fun e db => ?_
  case refine_1 =>
    rw [Method.eval_tx]
    unfold Drovery.Stmt.exec CommandStmt.exec DroneCommandService.create
    dsimp only
    cases hc : CommandStmt.execCreate db.platform.commands C row with
    | mk r commands =>
      cases r
      case error e =>
        have hs : commands = db.platform.commands := by
          unfold CommandStmt.execCreate at hc
          split at hc
          case isTrue  => exact (Prod.mk.inj hc).right.symm
          case isFalse =>
            split at hc
            case h_1 => exact (Prod.mk.inj hc).right.symm
            case h_2 => exact nomatch (Prod.mk.inj hc).left
        subst hs
        refine Agree.transaction_error (f := Store.platform) (t := db.platform) ?_
        rw [run_write_bind, hc]
        exact ⟨rfl, rfl, rfl⟩
      case ok =>
        refine Agree.transaction (f := Store.platform) ?_
        rw [run_write_bind, hc]
        exact ⟨rfl, rfl, rfl⟩
  case refine_2 => split <;> exact ⟨rfl, rfl, rfl⟩

theorem agree_issueDroneCommand {C : CommandId} {type : DroneCommandType}
    {reason : Option DeliveryFailureReason} :
    Agree (Shows (·.platform))
      ((Drovery.DroneCommandService.issue C actor.userId D type reason).eval Drovery.Stmt.exec
        db.platform)
      (AdminService.issueDroneCommand actor C D type reason db.platform.clock ⟨db, []⟩) := by
  unfold Drovery.DroneCommandService.issue AdminService.issueDroneCommand DroneCommandService.issue
  refine Agree.session_bind ⟨rfl, rfl, rfl⟩ fun delivery db' hq => ?_
  obtain rfl : db = db' := congrArg (·.snd.db) hq
  cases delivery
  case none => exact ⟨rfl, rfl, rfl⟩
  case some delivery =>
    dsimp only
    split
    case isTrue  => exact ⟨rfl, rfl, rfl⟩
    case isFalse =>
      cases delivery.assignedDroneId
      case none => exact ⟨rfl, rfl, rfl⟩
      case some X =>
        dsimp only
        split
        case isTrue  => exact ⟨rfl, rfl, rfl⟩
        case isFalse =>
          refine Agree.session_bind ⟨rfl, rfl, rfl⟩ fun total db' hq => ?_
          obtain rfl : db = db' := congrArg (·.snd.db) hq
          split
          case isTrue  => exact ⟨rfl, rfl, rfl⟩
          case isFalse => exact agree_issueTx.method_then fun _ _ => rfl

-- What the platform does for an action (if it is involved).
def Call.onPlatform (actor : AuditActor) : Call → Option (Drovery.App Unit)
  | .forceCancel D faults                => some <| Drovery.DeliveriesService.adminForceCancel D faults
  | .fail D reason faults                =>
    some <| Drovery.DeliveriesService.adminFail D (reason.getD .adminAbort) faults
  | .refund D amount                     => some <| Drovery.AdminService.refund D amount .committed
  | .updateDrone X dto                   =>
    some <| Drovery.AdminService.updateDrone X dto.toUpdateDroneDto .committed
  | .issueDroneCommand C D type reason _ =>
    some <| Drovery.DroneCommandService.issue C actor.userId D type reason
  | .updatePromo P dto                   => some <| Drovery.AdminService.updatePromo P dto .committed
  | _                                    => none

-- A command is issued at the current time.
def Call.Current (now : Time) : Call → Prop
  | .issueDroneCommand _ _ _ _ time => time = now
  | _                               => True

theorem eval_onPlatform {c : Call} {p : Drovery.App Unit} (h : c.onPlatform actor = some p)
    (hc : c.Current db.platform.clock)
    (hX : ∀ X, (db.airframes.find? X).isSome = (db.platform.fleet.find? X).isSome) :
    p.eval Drovery.Stmt.exec db.platform = Prod.map id (·.platform) ((c.prog actor).eval db) := by
  cases c
  case forceCancel =>
    obtain rfl := Option.some.inj h
    exact (agree_adminForceCancel _).eval_eq
  case fail =>
    obtain rfl := Option.some.inj h
    exact (agree_adminFail _).eval_eq
  case refund =>
    obtain rfl := Option.some.inj h
    exact agree_refund.eval_eq
  case updateDrone =>
    obtain rfl := Option.some.inj h
    exact (agree_updateDrone <| hX _).eval_eq
  case issueDroneCommand =>
    obtain rfl := Option.some.inj h
    obtain rfl := hc
    exact agree_issueDroneCommand.eval_eq
  case updatePromo =>
    obtain rfl := Option.some.inj h
    exact agree_updatePromo.eval_eq
  all_goals exact nomatch h

end Admin

namespace Support

variable {actor : AuditActor} {db : Admin.Store} {T : TicketId}

-- The tables of the support chat.
def ofAdmin (db : Admin.Store) : Store where
  tickets  := db.tickets
  messages := db.messages
  audit    := db.audit

theorem agree_replyAsAgent {content : String} {now : Time} :
    Agree (Shows ofAdmin) ((AdminService.replyAsAgent actor T content now).eval Stmt.exec (ofAdmin db))
      (Admin.AdminService.replyAsAgent actor T content now ⟨db, []⟩) := by
  refine Agree.session_bind ⟨rfl, rfl, rfl⟩ fun ticket db' hq => ?_
  obtain rfl : db = db' := congrArg (·.snd.db) hq
  have ht : db.tickets.find? T = ticket := Except.ok.inj <| congrArg Prod.fst hq
  cases ticket
  case none => exact ⟨rfl, rfl, rfl⟩
  case some ticket =>
    dsimp only
    split
    case isTrue  => exact ⟨rfl, rfl, rfl⟩
    case isFalse =>
      have hf : (ofAdmin db).tickets.find? T = some ticket := ht
      rw [Method.eval_tx]
      simp only [Stmt.exec, Store.post, hf]
      refine Agree.transaction (f := ofAdmin) ?_
      rw [run_write_bind, Admin.Store.createMessage]
      simp only [ht]
      rw [run_write_bind, Admin.Store.updateTicket]
      simp only [ht]
      exact ⟨rfl, rfl, rfl⟩

theorem agree_setTicketStatus {status : SupportTicketStatus} :
    Agree (Shows ofAdmin) ((AdminService.setTicketStatus actor T status).eval Stmt.exec (ofAdmin db))
      (Admin.AdminService.setTicketStatus actor T status ⟨db, []⟩) := by
  refine Agree.session_bind ⟨rfl, rfl, rfl⟩ fun ticket db' hq => ?_
  obtain rfl : db = db' := congrArg (·.snd.db) hq
  have ht : db.tickets.find? T = ticket := Except.ok.inj <| congrArg Prod.fst hq
  cases ticket
  case none => exact ⟨rfl, rfl, rfl⟩
  case some ticket =>
    have hf : (ofAdmin db).tickets.find? T = some ticket := ht
    have hs : db.setTicketStatus T status =
        (1, { db with tickets := db.tickets.modify T ({ · with status }) }) := by
      rw [Admin.Store.setTicketStatus, ht]
    refine Agree.session_then ?_ fun _ _ => rfl
    rw [Method.eval_tx]
    simp only [Stmt.exec, Store.setStatus, hf]
    refine Agree.transaction (f := ofAdmin) ?_
    rw [run_cas_bind, hs]
    exact ⟨rfl, rfl, rfl⟩

-- The replies and the changes of a status, as a part of the administration.
theorem eval_replyAsAgent {content : String} {now : Time} :
    (AdminService.replyAsAgent actor T content now).eval Stmt.exec (ofAdmin db) =
      Prod.map id ofAdmin ((Admin.AdminService.replyAsAgent actor T content now).eval db) :=
  agree_replyAsAgent.eval_eq

theorem eval_setTicketStatus {status : SupportTicketStatus} :
    (AdminService.setTicketStatus actor T status).eval Stmt.exec (ofAdmin db) =
      Prod.map id ofAdmin ((Admin.AdminService.setTicketStatus actor T status).eval db) :=
  agree_setTicketStatus.eval_eq

end Support

namespace Roles

variable {actor : AuditActor} {U : UserId}

-- The audit entry as the administration records it.
def AuditEntry.toAudit (e : AuditEntry) : Drovery.AuditEntry :=
  { e.actor.entry .userRoleSet .user e.targetId with
    before := pickAllowed .userRoleSet (some [(.role, .string e.before.name)])
    after  := pickAllowed .userRoleSet (some [(.role, .string e.after.name)]) }

-- The users are the same, and so are the recorded changes of their roles.
structure Mirrors (db : Store) (s : Session.State Admin.Store AppError) : Prop where
  users : db.users = s.db.users
  audit : db.audit.map (·.toAudit) = s.db.audit.filter (·.action = .userRoleSet)
  calm  : s.mishaps = []

theorem agree_setRole {db : Store} {s : Session.State Admin.Store AppError} {role : Role}
    (h : Mirrors db s) :
    Agree Mirrors ((AdminService.setRole actor U role .committed).eval Stmt.exec db)
      (Admin.AdminService.setRole actor U role s) := by
  obtain ⟨store, ms⟩ := s
  obtain rfl : ms = [] := h.calm
  have hu : db.users = store.users := h.users
  unfold AdminService.setRole Admin.AdminService.setRole
  rw [Method.eval_stmt_bind, run_read_bind]
  simp only [Stmt.exec, hu]
  cases hf : store.users.find? U
  case none => exact ⟨rfl, h⟩
  case some before =>
    let entry : AuditEntry := ⟨actor, U, before, role⟩
    have hs : db.setRole actor U before role =
        .ok ⟨store.users.modify U fun _ => role, entry :: db.audit⟩ := by
      simp only [Store.setRole, hu, hf, entry]
    have hs' : store.setRole U role =
        (.ok role, { store with users := store.users.modify U fun _ => role }) := by
      rw [Admin.Store.setRole, hf]
    have tx : Agree Mirrors (Method.eval Stmt.exec (App.tx (.setRole actor U before role) id) db)
        (transaction (do
          let role ← Session.stmt (·.setRole U role)
          Admin.AdminAuditService.recordWithinTx { actor.entry .userRoleSet .user U with
            before := pickAllowed .userRoleSet (some [(.role, .string before.name)])
            after  := pickAllowed .userRoleSet (some [(.role, .string role.name)])
          }) ⟨store, []⟩) := by
      rw [Method.eval_tx, Session.transaction, run_stmt_bind hs']
      simp only [Stmt.exec, hs]
      refine ⟨rfl, rfl, ?_, rfl⟩
      exact (congrArg (entry.toAudit :: ·) h.audit).trans (List.filter_cons_of_pos rfl).symm
    dsimp only
    unfold AdminService.guardLastAdmin
    split
    case isTrue =>
      have hc : db.admins = store.users.count fun _ role => role = .admin := by
        rw [← hu]
        rfl
      rw [run_read_bind, ← hc, Method.eval_bind, Method.eval_stmt_bind]
      by_cases ha : db.admins ≤ 1
      case pos =>
        rw [if_pos ha, if_pos (show (Stmt.countAdmins.exec db).fst ≤ 1 from ha)]
        exact ⟨rfl, h⟩
      case neg =>
        rw [if_neg ha, if_neg (show ¬(Stmt.countAdmins.exec db).fst ≤ 1 from ha)]
        exact tx
    case isFalse => exact tx

end Roles

end Drovery
