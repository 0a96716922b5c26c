import Drovery.Execution.Theorems.Store
import Drovery.Objects.Theorems.Audit
import Drovery.Services.Admin
import Drovery.Services.Theorems.Blocks

namespace Drovery.Admin

open Concurrency Session

namespace Call

def action : Call → AdminAuditAction
  | forceCancel ..            => .deliveryForceCancel
  | fail ..                   => .deliveryFail
  | refund ..                 => .deliveryRefund
  | createDrone ..            => .droneCreate
  | updateDrone ..            => .droneUpdate
  | issueDroneCommand ..      => .droneCommandIssue
  | createPromo ..            => .promoCreate
  | updatePromo ..            => .promoUpdate
  | createAirspaceZone ..     => .airspaceZoneCreate
  | updateAirspaceZone ..     => .airspaceZoneUpdate
  | deactivateAirspaceZone .. => .airspaceZoneDeactivate
  | setRole ..                => .userRoleSet
  | replyAsAgent ..           => .supportTicketReply
  | setTicketStatus ..        => .supportTicketStatusSet

def target : Call → AdminAuditTargetType × Nat
  | forceCancel D _             => (.delivery, D)
  | fail D ..                   => (.delivery, D)
  | refund D _                  => (.delivery, D)
  | createDrone X _             => (.drone, X)
  | updateDrone X _             => (.drone, X)
  | issueDroneCommand _ D ..    => (.delivery, D)
  | createPromo P _             => (.promo, P)
  | updatePromo P _             => (.promo, P)
  | createAirspaceZone Z ..     => (.airspaceZone, Z)
  | updateAirspaceZone Z ..     => (.airspaceZone, Z)
  | deactivateAirspaceZone Z    => (.airspaceZone, Z)
  | setRole U _                 => (.user, U)
  | replyAsAgent T ..           => (.supportTicket, T)
  | setTicketStatus T _         => (.supportTicket, T)

-- What an action has changed, where `db` is the store before and `db'` the one after it.
def Visible (actor : AuditActor) (db db' : Store) : Call → Prop
  | forceCancel D _                        =>
    ∃ d d', db.platform.deliveries.find? D = some d ∧ ¬d.status.Terminal ∧
      db'.platform.deliveries.find? D = some d' ∧ d'.status = .canceled
  | fail D reason _                        =>
    ∃ d d', db.platform.deliveries.find? D = some d ∧ d.status ∈ DeliveryStatus.failableStatuses ∧
      db'.platform.deliveries.find? D = some d' ∧ d'.status = .deliveryFailed ∧
      d'.failureReason = some (reason.getD .adminAbort)
  | refund D amount                        =>
    ∃ d p p', db.platform.deliveries.find? D = some d ∧
      db.platform.payments.table.find? D = some p ∧ p.status ≠ .refunded ∧
      db'.platform.payments.table.find? D = some p' ∧ p'.status = .refunded ∧
      db.platform.wallet.creditWithinTx d.userId (amount.getD d.estimatedPrice) .checkoutRefund
        { deliveryId := some D, idempotencyKey := some (.adminRefund D) } =
        .ok db'.platform.wallet
  | createDrone X dto                      =>
    db.findDrone X = none ∧ db'.findDrone X = some (dto.airframe, dto.drone)
  | updateDrone X dto                      =>
    ∃ a d, db.findDrone X = some (a, d) ∧
      db'.findDrone X = some (dto.apply a, d.update dto.toUpdateDroneDto)
  | issueDroneCommand C D type reason _    =>
    db.platform.commands.find? C = none ∧ ∃ c, db'.platform.commands.find? C = some c ∧
      c.deliveryId = D ∧ c.type = type ∧ c.reason = reason.getD type.defaultReason ∧
      c.status = .pending ∧ c.issuedByUserId = actor.userId
  | createPromo P dto                      =>
    db.platform.promos.codes.find? P = none ∧ db'.platform.promos.codes.find? P = some dto.promo
  | updatePromo P dto                      =>
    ∃ promo, db.platform.promos.codes.find? P = some promo ∧
      db'.platform.promos.codes.find? P = some (dto.apply promo)
  | createAirspaceZone Z dto _             =>
    db.zones.find? Z = none ∧ db'.zones.find? Z = some dto.zone
  | updateAirspaceZone Z patch _           =>
    ∃ zone, db.zones.find? Z = some zone ∧ db'.zones.find? Z = some (patch.apply zone)
  | deactivateAirspaceZone Z               =>
    ∃ zone, db.zones.find? Z = some zone ∧ db'.zones.find? Z = some { zone with active := false }
  | setRole U role                         =>
    (db.users.find? U).isSome ∧ db'.users.find? U = some role
  | replyAsAgent T content now             =>
    db'.messages = ⟨T, .agent, some actor.userId, content, now⟩ :: db.messages ∧
      ∃ ticket, db.tickets.find? T = some ticket ∧ db'.tickets.find? T =
        some { ticket with status := ticket.status.onReply, lastMessageAt := some now }
  | setTicketStatus T status               =>
    ∃ ticket, db.tickets.find? T = some ticket ∧ db'.tickets.find? T = some { ticket with status }

-- The entry is about the action of the actor, and does not capture more than it may.
structure Describes (c : Call) (actor : AuditActor) (entry : AuditEntry) : Prop where
  actor     : entry.actorUserId = actor.userId ∧ entry.actorRole = actor.role
  action    : entry.action = c.action
  target    : (entry.targetType, entry.targetId) = c.target
  permitted : entry.Permitted

-- The action has taken effect, and there is exactly one new entry, which describes it.
structure Applied (c : Call) (actor : AuditActor) (db db' : Store) : Prop where
  visible : c.Visible actor db db'
  entry   : ∃ entry, db'.audit = entry :: db.audit ∧ c.Describes actor entry

-- Either the action has taken effect and is recorded, or nothing has happened.
def Recorded (c : Call) (actor : AuditActor) (db db' : Store) : Prop :=
  c.Applied actor db db' ∨ db' = db

end Call

section

variable {α : Type} {c : Call} {actor : AuditActor} {db db' : Store} {entry : AuditEntry}

abbrev Ends (c : Call) (actor : AuditActor) (db : Store) (p : App α) : Prop :=
  Wp p (fun _ => c.Recorded actor db) (fun _ => c.Recorded actor db) db

theorem ends_throw {e : AppError} : Ends c actor db (throw e : App α) :=
  wp_throw <| .inr rfl

theorem ends_read_bind {β : Type} {f : Store → β} {p : β → App α} (h : Ends c actor db (p (f db))) :
    Ends c actor db (read f >>= p) :=
  wp_bind <| wp_read (fun _ => .inr rfl) h

-- The body of a transaction only has to be correct if it succeeds.
theorem ends_transaction {p : App α}
    (h : Wp p (fun _ => c.Applied actor db) (fun _ _ => True) db) :
    Ends c actor db (transaction p) :=
  wp_transaction (fun _ => .inr rfl) <| h.mono (fun _ _ h => ⟨.inl h, fun _ => .inl h⟩) fun _ _ => id

theorem wp_throwIf {P : Prop} [Decidable P] {e : AppError} {p : App α} {Q : α → Store → Prop}
    {E : AppError → Store → Prop} (ht : P → E e db) (hf : ¬P → Wp p Q E db) :
    Wp (do
      if P then
        throw e
      p) Q E db := by
  split
  case isTrue h  => exact wp_throw <| ht h
  case isFalse h => exact hf h

theorem ends_onUniqueViolation {p : App α} {e : AppError} (h : Ends c actor db p) :
    Ends c actor db (onUniqueViolation p e) := by
  refine wp_tryCatch <| h.mono (fun _ _ => id) fun e' db' h => ?_
  split
  case isTrue  => exact wp_throw h
  case isFalse => exact wp_throw h

-- The entry is written at the end of a transaction, when the action has already taken effect.
theorem wp_recordWithinTx (ha : db'.audit = db.audit) (hd : c.Describes actor entry)
    (hv : c.Visible actor db db') :
    Wp (AdminAuditService.recordWithinTx entry) (fun _ => c.Applied actor db) (fun _ _ => True)
      db' := by
  refine wp_write (fun _ => trivial) fun db'' h => ?_
  have := Except.ok.inj h
  subst this
  refine ⟨⟨?_, entry, by rw [ha], hd⟩, fun _ => trivial⟩
  cases c <;> exact hv

end

section Deliveries

variable {c : Call} {actor : AuditActor} {db : Store} {D : DeliveryId} {tr : Transition}
variable {Q : Nat → Store → Prop} {faults : CleanupFaults}

def Store.setDeliveries (db : Store) (deliveries : Table DeliveryId Delivery) : Store :=
  { db with platform := { db.platform with deliveries } }

-- What a guarded write to the delivery has done if it has matched `count` rows.
inductive Writes (db : Store) (D : DeliveryId) (tr : Transition) : Nat → Store → Prop
  | missed : Writes db D tr 0 db
  | fired {d} :
    db.platform.deliveries.find? D = some d → tr.source d.status →
    Writes db D tr 1
      (db.setDeliveries <| db.platform.deliveries.modify D (tr.apply db.platform.clock))

theorem wp_transition :
    Wp (DeliveriesService.transition D tr) (Writes db D tr) (fun _ _ => True) db := by
  refine wp_cas (fun _ => trivial) (fun _ => trivial) .missed ?_
  simp only [Stmt.exec, DeliveryStmt.exec]
  cases Table.cas_cases db.platform.deliveries D (tr.source ·.status) (tr.apply db.platform.clock)
  case inl he => exact he ▸ .missed
  case inr hs =>
    obtain ⟨d, hd, hs, he⟩ := hs
    exact he ▸ .fired hd hs

theorem wp_failFrom {allowed : List DeliveryStatus} {reason : DeliveryFailureReason} :
    Wp (DeliveriesService.failFrom D allowed reason) (Writes db D (.fail allowed reason))
      (fun _ _ => True) db := by
  unfold DeliveriesService.failFrom
  split
  case isTrue  => exact wp_pure .missed
  case isFalse => exact wp_transition

-- What follows up the termination of a delivery does not write to any delivery.
theorem find?_exec_of_aftermath {pl : Drovery.Store} {x : Stmt} {E : DeliveryId}
    {status : DeliveryStatus} (hx : Aftermath E status x) :
    (x.exec pl).snd.deliveries.find? D = pl.deliveries.find? D := by
  have := x.rowChange pl D
  generalize (x.exec pl).snd.deliveries.find? D = d' at this
  cases this
  case same              => rfl
  case created he _ _    => exact (he ▸ hx).elim False.elim False.elim
  case moved he _ _      => exact (he ▸ hx).elim False.elim False.elim
  case guessed he _ _    => exact (he ▸ hx).elim False.elim False.elim

theorem find?_eval_of_aftermath {pl : Drovery.Store} {p : Drovery.App Unit} {E : DeliveryId}
    {status : DeliveryStatus} (hp : Method.Built (Single (Aftermath E status)) p) :
    (Method.eval Stmt.exec p pl).snd.deliveries.find? D = pl.deliveries.find? D := by
  refine Method.eval_built (I := fun pl' : Drovery.Store =>
    pl'.deliveries.find? D = pl.deliveries.find? D) hp (fun hb h => ?_) rfl
  have ⟨hx⟩ := hb
  exact (find?_exec_of_aftermath hx).trans h

-- Where an action changes a delivery, it does not matter what happens to the rest of the platform.
def Call.Terminates : Call → Prop
  | .forceCancel .. => True
  | .fail ..        => True
  | _               => False

theorem wp_run_of_applied {db' : Store} {p : Drovery.App Unit} {E : DeliveryId}
    {status : DeliveryStatus} (hc : c.Terminates) (h : c.Applied actor db db')
    (hp : Method.Built (Single (Aftermath E status)) p) :
    Wp (run p) (fun _ => c.Applied actor db) (fun _ => c.Applied actor db) db' := by
  have applied : c.Applied actor db
      { db' with platform := (Method.eval Stmt.exec p db'.platform).snd } := by
    refine ⟨?_, h.entry⟩
    have visible := h.visible
    cases c
    case forceCancel =>
      have ⟨d, d', hd, hs, hd', hs'⟩ := visible
      exact ⟨d, d', hd, hs, (find?_eval_of_aftermath hp).trans hd', hs'⟩
    case fail =>
      have ⟨d, d', hd, hs, hd', hs'⟩ := visible
      exact ⟨d, d', hd, hs, (find?_eval_of_aftermath hp).trans hd', hs'⟩
    all_goals exact hc.elim
  refine wp_reliably ?_
  split <;> exact applied

theorem ends_find {α : Type} {db' : Store} {f : Option Delivery → App α}
    (h : c.Recorded actor db db') (hf : Wp (f (db'.platform.deliveries.find? D))
      (fun _ => c.Recorded actor db) (fun _ => c.Recorded actor db) db') :
    Wp (DeliveriesService.find D >>= f) (fun _ => c.Recorded actor db)
      (fun _ => c.Recorded actor db) db' :=
  wp_bind <| wp_read (fun _ => h) hf

theorem wp_readStatus {Q : Option DeliveryStatus → Store → Prop}
    (h : Q ((db.platform.deliveries.find? D).map (·.status)) db) :
    Wp (DeliveriesService.readStatus D) Q (fun _ _ => True) db :=
  wp_bind <| wp_read (fun _ => trivial) <| wp_pure h

-- What a transaction that terminates a delivery reports: nothing if no write has fired.
def Fired {β : Type} (c : Call) (actor : AuditActor) (db : Store) : Option β → Store → Prop
  | none,   db' => db' = db
  | some _, db' => c.Applied actor db db'

theorem Fired.outcome {β : Type} {outcome : Option β} {db' : Store}
    (h : Fired c actor db outcome db') : c.Recorded actor db db' := by
  cases outcome
  case none => exact .inr h
  case some => exact .inl h

-- One of the writes that terminate a delivery, together with its entry.
theorem wp_fire {β : Type} {b : β} {write : App Nat} {record : App Unit} {rest : App (Option β)}
    (hw : Wp write (Writes db D tr) (fun _ _ => True) db)
    (hf : ∀ d, db.platform.deliveries.find? D = some d → tr.source d.status →
      Wp record (fun _ => c.Applied actor db) (fun _ _ => True)
        (db.setDeliveries <| db.platform.deliveries.modify D (tr.apply db.platform.clock)))
    (hr : Wp rest (Fired c actor db) (fun _ _ => True) db) :
    Wp (do
      let count ← write
      if 0 < count then
        record
        return some b
      rest) (Fired c actor db) (fun _ _ => True) db := by
  refine wp_bind <| hw.mono (fun count db' h => ?_) fun _ _ => id
  cases h
  case missed      => exact hr
  case fired hd hs => exact wp_bind <| (hf _ hd hs).mono (fun _ _ h => wp_pure h) fun _ _ => id

theorem wp_terminate {β : Type} {p : App (Option β)}
    (h : Wp p (Fired c actor db) (fun _ _ => True) db) :
    Wp (transaction p) (Fired c actor db) (fun _ => c.Recorded actor db) db :=
  wp_transaction (fun _ => .inr rfl) <|
    h.mono (fun _ _ h => ⟨h, fun _ => h.outcome⟩) fun _ _ => id

theorem describes_entry {entry : AuditEntry} {before after args : Option Fields}
    (he : entry = { actor.entry c.action c.target.fst c.target.snd with before, after, args })
    (hb : Fields.Allowed c.action before) (ha : Fields.Allowed c.action after)
    (hargs : Fields.Allowed c.action args) : c.Describes actor entry := by
  subst he
  exact ⟨⟨rfl, rfl⟩, rfl, rfl, hb, ha, hargs⟩

theorem not_terminal_of_failable {status : DeliveryStatus}
    (h : status ∈ DeliveryStatus.failableStatuses) : ¬status.Terminal := by
  revert h
  cases status <;> decide

theorem ends_forceCancel : Ends (.forceCancel D faults) actor db
    (AdminService.forceCancel actor D faults) := by
  have recorded {firedFrom : Option DeliveryStatus} {tr : Transition} {d : Delivery}
      (hd : db.platform.deliveries.find? D = some d) (hs : ¬d.status.Terminal)
      (ht : tr.target = .canceled) :
      Wp (AdminAuditService.recordWithinTx {
        actor.entry .deliveryForceCancel .delivery D with
        before := pickAllowed .deliveryForceCancel
          (some [(.status, .ofOption (fun status => .string status.name) firedFrom)])
      }) (fun _ => (Call.forceCancel D faults).Applied actor db) (fun _ _ => True)
        (db.setDeliveries <| db.platform.deliveries.modify D (tr.apply db.platform.clock)) :=
    wp_recordWithinTx rfl (describes_entry rfl allowed_pickAllowed .none .none)
      ⟨d, _, hd, hs, Table.find?_modify_of_some hd, Transition.apply_status.trans ht⟩
  have terminal : DeliveryStatus.canceled.Terminal := by decide
  refine wp_bind <| (wp_terminate ?_).mono (fun outcome db' h => ?_) fun _ _ => id
  case refine_1 =>
    refine wp_bind <| wp_readStatus <| wp_fire wp_transition (fun d hd hs => recorded hd ?_ rfl) ?_
    case refine_1 => exact fun ht => of_decide_eq_true hs <| List.mem_append_left _ ht
    case refine_2 =>
      refine wp_bind <| wp_readStatus <|
        wp_fire wp_transition (fun d hd hs => recorded hd ?_ rfl) <| wp_pure rfl
      exact not_terminal_of_failable <| of_decide_eq_true hs
  case refine_2 =>
    cases outcome
    case none =>
      cases h
      refine ends_find (.inr rfl) ?_
      split <;> exact ends_throw
    case some outcome =>
      have single := @cleanupAfterTermination_single D .canceled faults true (.released outcome)
        (.inl terminal) fun _ _ => terminal
      exact wp_bind <| (wp_run_of_applied (c := .forceCancel D faults) trivial h single).mono
        (fun _ _ h => ends_find (.inl h) <| wp_pure <| .inl h) fun _ _ => .inl

theorem ends_fail {reason : Option DeliveryFailureReason} : Ends (.fail D reason faults) actor db
    (AdminService.fail actor D reason faults) := by
  have recorded {firedFrom : Option DeliveryStatus} {allowed : List DeliveryStatus} {d : Delivery}
      (hd : db.platform.deliveries.find? D = some d)
      (hs : d.status ∈ DeliveryStatus.failableStatuses) :
      Wp (AdminAuditService.recordWithinTx {
        actor.entry .deliveryFail .delivery D with
        before := pickAllowed .deliveryFail
          (some [(.status, .ofOption (fun status => .string status.name) firedFrom)])
        args   := pickAllowed .deliveryFail (some [(.reason, .string (reason.getD .adminAbort).name)])
      }) (fun _ => (Call.fail D reason faults).Applied actor db) (fun _ _ => True)
        (db.setDeliveries <| db.platform.deliveries.modify D <|
          (Transition.fail allowed (reason.getD .adminAbort)).apply db.platform.clock) :=
    wp_recordWithinTx rfl (describes_entry rfl allowed_pickAllowed .none allowed_pickAllowed)
      ⟨d, _, hd, hs, Table.find?_modify_of_some hd, rfl, rfl⟩
  have source {p : DeliveryStatus → Bool} {status : DeliveryStatus}
      (h : (Transition.fail (DeliveryStatus.failableStatuses.filter p)
        (reason.getD .adminAbort)).source status) : status ∈ DeliveryStatus.failableStatuses :=
    List.mem_of_mem_filter <| of_decide_eq_true h
  refine wp_bind <| wp_bind <| (wp_terminate ?_).mono (fun outcome db' h => ?_) fun _ _ => id
  case refine_1 =>
    exact wp_bind <| wp_readStatus <|
      wp_fire wp_failFrom (fun d hd hs => recorded hd <| source hs) <|
      wp_fire wp_failFrom (fun d hd hs => recorded hd <| source hs) <| wp_pure rfl
  case refine_2 =>
    cases outcome
    case none =>
      cases h
      refine wp_pure <| ends_find (.inr rfl) ?_
      split <;> exact ends_throw
    case some airborne =>
      exact wp_bind <| (wp_run_of_applied (c := .fail D reason faults) trivial h
        finishFailure_single).mono
        (fun _ _ h => wp_pure <| ends_find (.inl h) <| wp_pure <| .inl h) fun _ _ => .inl

end Deliveries

section

variable {c : Call} {actor : AuditActor} {db : Store}

-- A transaction which gives up if its conditional write does not match.
theorem ends_cas {f : Store → Nat × Store} {e : AppError} {p : App Unit}
    (h : (f db).fst ≠ 0 → Wp p (fun _ => c.Applied actor db) (fun _ _ => True) (f db).snd) :
    Ends c actor db (transaction do
      let count ← cas f
      if count = 0 then
        throw e
      p) := by
  refine ends_transaction <| wp_bind <| wp_cas (fun _ => trivial) (fun _ => trivial) ?_ ?_
  case refine_1 => exact wp_throwIf (fun _ => trivial) fun h => (h rfl).elim
  case refine_2 => exact wp_throwIf (fun _ => trivial) h

-- The entry is written right after the only write.
theorem ends_write {f : Store → Except AppError Store} {entry : AuditEntry}
    (hd : c.Describes actor entry)
    (h : ∀ db', f db = .ok db' → db'.audit = db.audit ∧ c.Visible actor db db') :
    Ends c actor db (transaction do
      write f
      AdminAuditService.recordWithinTx entry) := by
  refine ends_transaction <| wp_bind <| wp_write (fun _ => trivial) fun db' hf => ?_
  have ⟨ha, hv⟩ := h db' hf
  exact ⟨wp_recordWithinTx ha hd hv, fun _ => trivial⟩

theorem wp_recordDiff {db' : Store} {row row' : Option Fields} (ha : db'.audit = db.audit)
    (hv : c.Visible actor db db') :
    Wp (match diffAllowed c.action row row' with
      | (before, after) => AdminAuditService.recordWithinTx {
        actor.entry c.action c.target.fst c.target.snd with before, after })
      (fun _ => c.Applied actor db) (fun _ _ => True) db' := by
  have ⟨hb, ha'⟩ := @allowed_diffAllowed c.action row row'
  exact wp_recordWithinTx ha (describes_entry rfl hb ha' .none) hv

theorem Store.refundPayment_effect {D : DeliveryId} (h : (db.refundPayment D).fst ≠ 0) :
    ∃ p, db.platform.payments.table.find? D = some p ∧ p.status ≠ .refunded ∧
      (db.refundPayment D).snd.platform.payments.table.find? D =
        some { p with status := .refunded } := by
  simp only [Store.refundPayment, Payments.refund] at h ⊢
  cases Table.cas_cases db.platform.payments.table D (RefundChannel.admin.refundable ·.status)
    ({ · with status := .refunded })
  case inl he => exact (h <| he ▸ rfl).elim
  case inr he =>
    have ⟨p, hp, hs, he⟩ := he
    rw [he]
    exact ⟨p, hp, of_decide_eq_true hs, Table.find?_modify_of_some hp⟩

theorem Store.credit_effect {D : DeliveryId} {U : UserId} {amount : Cents} {db' : Store}
    (h : db.credit D U amount = .ok db') : ∃ wallet,
      db.platform.wallet.creditWithinTx U amount .checkoutRefund
        { deliveryId := some D, idempotencyKey := some (.adminRefund D) } = .ok wallet ∧
      db' = { db with platform := { db.platform with wallet } } := by
  unfold Store.credit at h
  match hc : db.platform.wallet.creditWithinTx U amount .checkoutRefund
    { deliveryId := some D, idempotencyKey := some (RefundChannel.admin.key D) } with
  | .error _   =>
    rw [hc] at h
    contradiction
  | .ok wallet =>
    rw [hc] at h
    exact ⟨wallet, rfl, (Except.ok.inj h).symm⟩

theorem ends_refund {D : DeliveryId} {amount : Option Cents} : Ends (.refund D amount) actor db
    (AdminService.refund actor D amount) := by
  refine ends_find (.inr rfl) ?_
  split
  case h_1      => exact ends_throw
  case h_2 d hd =>
    refine wp_throwIf (fun _ => .inr rfl) fun _ => ends_onUniqueViolation <| ends_cas fun hc => ?_
    have ⟨p, hp, hs, hp'⟩ := Store.refundPayment_effect hc
    refine wp_bind <| wp_write (fun _ => trivial) fun db' hw => ?_
    have ⟨wallet, hc, he⟩ := Store.credit_effect hw
    subst he
    exact ⟨wp_recordWithinTx rfl (describes_entry rfl .none .none allowed_pickAllowed)
      ⟨d, p, _, hd, hp, hs, hp', rfl, hc⟩, fun _ => trivial⟩

theorem Store.createDrone_effect {X : DroneId} {airframe : Airframe} {drone : Drone} {db' : Store}
    (h : db.createDrone X airframe drone = .ok db') : db'.audit = db.audit ∧
      db.findDrone X = none ∧ db'.findDrone X = some (airframe, drone) := by
  unfold Store.createDrone at h
  split at h
  case isTrue  => contradiction
  case isFalse =>
    split at h
    case h_2 => contradiction
    case h_1 airframes fleet ha hf =>
      have := Except.ok.inj h
      subst this
      refine ⟨rfl, ?_, ?_⟩ <;> unfold Store.findDrone
      · rw [Table.find?_of_insert ha]
        rfl
      · simp only [Table.find?_insert ha, Table.find?_insert hf]
        rfl

theorem ends_createDrone {X : DroneId} {dto : CreateDroneDto} :
    Ends (.createDrone X dto) actor db (AdminService.createDrone actor X dto) :=
  ends_onUniqueViolation <|
    ends_write (describes_entry rfl .none .none allowed_pickAllowed) fun _ => Store.createDrone_effect

theorem Store.updateDrone_eq {X : DroneId} {dto : UpdateDroneDto} {a : Airframe} {d : Drone}
    (h : db.findDrone X = some (a, d)) : ∃ db', db'.audit = db.audit ∧
      db'.findDrone X = some (dto.apply a, d.update dto.toUpdateDroneDto) ∧
      db.updateDrone X dto = (.ok (dto.apply a, d.update dto.toUpdateDroneDto), db') := by
  refine ⟨(db.updateDrone X dto).snd, ?_, ?_, ?_⟩ <;> simp only [Store.updateDrone, h]
  unfold Store.findDrone at h ⊢
  simp only [Table.find?_modify_self]
  cases ha : db.airframes.find? X <;> rw [ha] at h
  case none    => contradiction
  case some a' =>
    cases hd : db.platform.fleet.find? X <;> rw [hd] at h
    case none    => contradiction
    case some d' =>
      cases h
      rfl

theorem ends_updateDrone {X : DroneId} {dto : UpdateDroneDto} :
    Ends (.updateDrone X dto) actor db (AdminService.updateDrone actor X dto) := by
  refine wp_bind <| wp_bind <| wp_read (fun _ => .inr rfl) ?_
  split
  case h_1          => exact wp_throw <| .inr rfl
  case h_2 drone hd =>
    have ⟨db', ha, hd', he⟩ := @Store.updateDrone_eq _ _ dto _ _ hd
    refine wp_pure <| ends_transaction <| wp_bind <| wp_stmt (fun _ => trivial) (fun _ => trivial) ?_
    rw [he]
    exact wp_recordDiff (c := .updateDrone X dto) ha ⟨_, _, hd, hd'⟩

theorem find?_of_execCreate {commands commands' : Commands} {C : CommandId} {row : DroneCommand}
    (h : CommandStmt.execCreate commands C row = (.ok (), commands')) :
    commands.find? C = none ∧ commands'.find? C = some row := by
  unfold CommandStmt.execCreate at h
  split at h
  case isTrue  => cases h
  case isFalse =>
    split at h
    case h_1    => cases h
    case h_2 hi =>
      cases h
      exact ⟨Table.find?_of_insert hi, (Table.find?_insert hi).trans <| if_pos rfl⟩

theorem ends_issueDroneCommand {C : CommandId} {D : DeliveryId} {type : DroneCommandType}
    {reason : Option DeliveryFailureReason} {now : Time} :
    Ends (.issueDroneCommand C D type reason now) actor db
      (AdminService.issueDroneCommand actor C D type reason now) := by
  refine ends_find (.inr rfl) ?_
  split
  case h_1      => exact ends_throw
  case h_2 d hd =>
    refine wp_throwIf (fun _ => .inr rfl) fun _ => ?_
    split
    case h_1      => exact ends_throw
    case h_2 X hX =>
      refine wp_throwIf (fun _ => .inr rfl) fun _ => ends_read_bind ?_
      refine wp_throwIf (fun _ => .inr rfl) fun _ => ends_onUniqueViolation <|
        ends_write (describes_entry rfl .none .none allowed_pickAllowed) fun db' h => ?_
      split at h
      case h_1    => contradiction
      case h_2 hc =>
        have ⟨hn, hf⟩ := find?_of_execCreate hc
        have := Except.ok.inj h
        subst this
        exact ⟨rfl, hn, _, hf, rfl, rfl, rfl, rfl, rfl⟩

theorem wp_assertDiscountValue {type : PromoDiscountType} {value : ℚ} {Q : Unit → Store → Prop}
    {E : AppError → Store → Prop} (h : Q () db) (he : ∀ e, E e db) :
    Wp (AdminService.assertDiscountValue type value) Q E db := by
  unfold AdminService.assertDiscountValue
  split
  case isTrue  => exact wp_throw <| he _
  case isFalse => exact wp_pure h

theorem Store.createPromo_effect {P : PromoId} {promo : PromoCode} {db' : Store}
    (h : db.createPromo P promo = .ok db') :
    ∃ codes, db.platform.promos.codes.insert P promo = some codes ∧
      db' = db.setPromos { db.platform.promos with codes } := by
  unfold Store.createPromo at h
  dsimp only at h
  split at h
  case isTrue  => contradiction
  case isFalse =>
    split at h
    case h_1          => contradiction
    case h_2 codes hc => exact ⟨codes, hc, (Except.ok.inj h).symm⟩

theorem ends_createPromo {P : PromoId} {dto : CreatePromoDto} :
    Ends (.createPromo P dto) actor db (AdminService.createPromo actor P dto) := by
  refine wp_bind <| wp_assertDiscountValue (ends_onUniqueViolation <|
    ends_write (describes_entry rfl .none .none allowed_pickAllowed) fun _ h => ?_) fun _ => .inr rfl
  have ⟨codes, hc, he⟩ := Store.createPromo_effect h
  subst he
  exact ⟨rfl, Table.find?_of_insert hc, (Table.find?_insert hc).trans <| if_pos rfl⟩

theorem Store.updatePromo_eq {P : PromoId} {dto : UpdatePromoDto} {promo : PromoCode}
    (h : db.platform.promos.codes.find? P = some promo) :
    db.updatePromo P dto = (1, db.setPromos { db.platform.promos with
      codes := db.platform.promos.codes.modify P dto.apply }) := by
  have he : db.platform.promos.codes.cas P (fun _ => true) dto.apply = _ := Table.cas_of_guard h rfl
  simp only [Store.updatePromo, PromoStmt.exec, he]

theorem ends_updatePromo {P : PromoId} {dto : UpdatePromoDto} :
    Ends (.updatePromo P dto) actor db (AdminService.updatePromo actor P dto) := by
  refine wp_bind <| wp_bind <| wp_read (fun _ => .inr rfl) ?_
  split
  case h_1          => exact wp_throw <| .inr rfl
  case h_2 promo hp =>
    have update : Ends (.updatePromo P dto) actor db
        (AdminService.updatePromoTx actor P promo dto) := by
      refine ends_cas fun _ => wp_bind <| wp_read (fun _ => trivial) ?_
      rw [Store.updatePromo_eq hp]
      exact wp_recordDiff (c := .updatePromo P dto) rfl
        ⟨promo, hp, Table.find?_modify_of_some hp⟩
    refine wp_pure ?_
    cases dto.discountValue
    case none => exact wp_bind <| wp_pure update
    case some => exact wp_bind <| wp_assertDiscountValue update fun _ => .inr rfl

theorem wp_check {r : Except AppError Unit} {Q : Unit → Store → Prop} {E : AppError → Store → Prop}
    (h : Q () db) (he : ∀ e, E e db) : Wp (AdminService.check r) Q E db := by
  cases r
  case error e => exact wp_throw <| he e
  case ok      => exact wp_pure h

theorem Store.createZone_effect {Z : ZoneId} {zone : AirspaceZone} {db' : Store}
    (h : db.createZone Z zone = .ok db') :
    ∃ zones, db.zones.insert Z zone = some zones ∧ db' = { db with zones } := by
  unfold Store.createZone at h
  split at h
  case h_1          => contradiction
  case h_2 zones hz => exact ⟨zones, hz, (Except.ok.inj h).symm⟩

theorem ends_createAirspaceZone {Z : ZoneId} {dto : CreateAirspaceZoneDto} {now : Time} :
    Ends (.createAirspaceZone Z dto now) actor db
      (AdminService.createAirspaceZone actor Z dto now) := by
  refine wp_bind <| wp_check (ends_write (describes_entry rfl .none .none allowed_pickAllowed)
    fun _ h => ?_) fun _ => .inr rfl
  have ⟨zones, hz, he⟩ := Store.createZone_effect h
  subst he
  exact ⟨rfl, Table.find?_of_insert hz, (Table.find?_insert hz).trans <| if_pos rfl⟩

theorem Store.updateZone_eq {Z : ZoneId} {patch : AirspaceZonePatch} {zone : AirspaceZone}
    (h : db.zones.find? Z = some zone) : db.updateZone Z patch =
      (.ok <| patch.apply zone, { db with zones := db.zones.modify Z patch.apply }) := by
  simp only [Store.updateZone, h]

theorem ends_updateAirspaceZone {Z : ZoneId} {patch : AirspaceZonePatch} {now : Time} :
    Ends (.updateAirspaceZone Z patch now) actor db
      (AdminService.updateAirspaceZone actor Z patch now) := by
  refine wp_bind <| wp_bind <| wp_read (fun _ => .inr rfl) ?_
  split
  case h_1         => exact wp_throw <| .inr rfl
  case h_2 zone hz =>
    refine wp_pure <| wp_bind <| wp_check (wp_bind <| wp_check ?_ fun _ => .inr rfl)
      fun _ => .inr rfl
    refine ends_transaction <| wp_bind <| wp_stmt (fun _ => trivial) (fun _ => trivial) ?_
    rw [Store.updateZone_eq hz]
    exact wp_recordDiff (c := .updateAirspaceZone Z patch now) rfl
      ⟨zone, hz, Table.find?_modify_of_some hz⟩

theorem ends_deactivateAirspaceZone {Z : ZoneId} :
    Ends (.deactivateAirspaceZone Z) actor db (AdminService.deactivateAirspaceZone actor Z) := by
  refine wp_bind <| wp_bind <| wp_read (fun _ => .inr rfl) ?_
  split
  case h_1         => exact wp_throw <| .inr rfl
  case h_2 zone hz =>
    refine wp_pure <| ends_transaction <| wp_bind <|
      wp_stmt (fun _ => trivial) (fun _ => trivial) ?_
    rw [Store.updateZone_eq hz]
    exact wp_recordWithinTx rfl (describes_entry rfl allowed_pickAllowed allowed_pickAllowed .none)
      ⟨zone, hz, Table.find?_modify_of_some hz⟩

theorem Store.setRole_eq {U : UserId} {role target : Role} (h : db.users.find? U = some target) :
    ∃ db', db'.audit = db.audit ∧ db'.users.find? U = some role ∧
      db.setRole U role = (.ok role, db') := by
  refine ⟨(db.setRole U role).snd, ?_, ?_, ?_⟩ <;> simp only [Store.setRole, h]
  exact Table.find?_modify_of_some h

theorem ends_setRole {U : UserId} {role : Role} :
    Ends (.setRole U role) actor db (AdminService.setRole actor U role) := by
  refine ends_read_bind ?_
  split
  case h_1           => exact ends_throw
  case h_2 target hu =>
    have ⟨db', ha, hu', he⟩ := @Store.setRole_eq _ _ role _ hu
    have write : Ends (.setRole U role) actor db (transaction do
        let role ← stmt (·.setRole U role)
        AdminAuditService.recordWithinTx {
          actor.entry .userRoleSet .user U with
          before := pickAllowed .userRoleSet (some [(.role, .string target.name)])
          after  := pickAllowed .userRoleSet (some [(.role, .string role.name)])
        }) := by
      refine ends_transaction <| wp_bind <| wp_stmt (fun _ => trivial) (fun _ => trivial) ?_
      rw [he]
      exact wp_recordWithinTx ha (describes_entry rfl allowed_pickAllowed allowed_pickAllowed .none)
        ⟨hu ▸ rfl, hu'⟩
    split
    case isTrue  => exact ends_read_bind <| wp_throwIf (fun _ => .inr rfl) fun _ => write
    case isFalse => exact write

theorem Store.createMessage_effect {message : Support.SupportChatMessage} {db' : Store}
    (h : db.createMessage message = .ok db') : db' = { db with messages := message :: db.messages } := by
  unfold Store.createMessage at h
  split at h
  case h_1 => contradiction
  case h_2 => exact (Except.ok.inj h).symm

theorem Store.updateTicket_effect {T : Support.TicketId}
    {f : Support.SupportTicket → Support.SupportTicket} {db' : Store}
    (h : db.updateTicket T f = .ok db') :
    ∃ ticket, db.tickets.find? T = some ticket ∧ db'.tickets.find? T = some (f ticket) ∧
      db'.audit = db.audit ∧ db'.messages = db.messages := by
  unfold Store.updateTicket at h
  split at h
  case h_1           => contradiction
  case h_2 ticket ht =>
    have := Except.ok.inj h
    subst this
    refine ⟨ticket, ht, ?_, rfl, rfl⟩
    rw [Serial.find?_modify, if_pos rfl, ht, Option.map_some]

theorem ends_replyAsAgent {T : Support.TicketId} {content : String} {now : Time} :
    Ends (.replyAsAgent T content now) actor db
      (AdminService.replyAsAgent actor T content now) := by
  refine ends_read_bind ?_
  split
  case h_1           => exact ends_throw
  case h_2 ticket ht =>
    refine wp_throwIf (fun _ => .inr rfl) fun _ => ends_transaction ?_
    refine wp_bind <| wp_write (fun _ => trivial) fun db' hm => ⟨?_, fun _ => trivial⟩
    have := Store.createMessage_effect hm
    subst this
    refine wp_bind <| wp_write (fun _ => trivial) fun db' hw => ⟨?_, fun _ => trivial⟩
    have ⟨ticket', ht', hf, ha, hm'⟩ := Store.updateTicket_effect hw
    cases ht.symm.trans ht'
    exact wp_recordWithinTx ha (describes_entry rfl .none .none allowed_pickAllowed)
      ⟨hm', ticket, ht, hf⟩

theorem Store.setTicketStatus_effect {T : Support.TicketId} {status : Support.SupportTicketStatus}
    (h : (db.setTicketStatus T status).fst ≠ 0) :
    ∃ ticket, db.tickets.find? T = some ticket ∧
      (db.setTicketStatus T status).snd.tickets.find? T = some { ticket with status } ∧
      (db.setTicketStatus T status).snd.audit = db.audit := by
  unfold Store.setTicketStatus at h ⊢
  cases ht : db.tickets.find? T <;> rw [ht] at h
  case none        => exact (h rfl).elim
  case some ticket =>
    refine ⟨ticket, rfl, ?_, rfl⟩
    rw [Serial.find?_modify, if_pos rfl, ht, Option.map_some]

theorem ends_setTicketStatus {T : Support.TicketId} {status : Support.SupportTicketStatus} :
    Ends (.setTicketStatus T status) actor db (AdminService.setTicketStatus actor T status) := by
  refine ends_read_bind ?_
  split
  case h_1           => exact ends_throw
  case h_2 ticket ht =>
    have write : Ends (.setTicketStatus T status) actor db (AdminService.statusTx T status <|
        Support.AdminService.statusEntry actor T ticket.status status) := by
      refine ends_cas fun hc => ?_
      have ⟨ticket', ht', hf, ha⟩ := Store.setTicketStatus_effect hc
      exact wp_recordWithinTx ha
        (describes_entry rfl allowed_pickAllowed allowed_pickAllowed .none) ⟨ticket', ht', hf⟩
    -- What is read after the transaction is only for the answer.
    exact wp_bind <| write.mono (fun _ db' h => wp_bind <| wp_read (fun _ => h) <| wp_pure h)
      fun _ _ => id

end

-- Whatever goes wrong, an action of an operator is recorded if and only if it has taken effect.
theorem recorded (actor : AuditActor) (c : Call) (db : Store) (ms : List (Mishap AppError)) :
    c.Recorded actor db ((c.prog actor).final ms db) := by
  refine final_of_wp ?_
  cases c
  case forceCancel            => exact ends_forceCancel
  case fail                   => exact ends_fail
  case refund                 => exact ends_refund
  case createDrone            => exact ends_createDrone
  case updateDrone            => exact ends_updateDrone
  case issueDroneCommand      => exact ends_issueDroneCommand
  case createPromo            => exact ends_createPromo
  case updatePromo            => exact ends_updatePromo
  case createAirspaceZone     => exact ends_createAirspaceZone
  case updateAirspaceZone     => exact ends_updateAirspaceZone
  case deactivateAirspaceZone => exact ends_deactivateAirspaceZone
  case setRole                => exact ends_setRole
  case replyAsAgent           => exact ends_replyAsAgent
  case setTicketStatus        => exact ends_setTicketStatus

end Drovery.Admin
