import Drovery.Concurrency.Local
import Drovery.Objects.Theorems.Audit
import Drovery.Services.Registry
import Drovery.Theorems.Admin

namespace Drovery.Registry

open Concurrency Session
open Admin (AuditWithinTx)

-- What the audit log is asked about.
inductive Target
  | promo (P : PromoId)
  | zone (Z : ZoneId)
  deriving DecidableEq

namespace Target

def key : Target → AdminAuditTargetType × Nat
  | promo P => (.promo, P)
  | zone Z  => (.airspaceZone, Z)

-- The action whose allowlist determines which fields are accounted for.
def action : Target → AdminAuditAction
  | promo _ => .promoUpdate
  | zone _  => .airspaceZoneUpdate

def fields? (db : Store) : Target → Option Fields
  | promo P => (db.platform.promos.codes.find? P).map (·.toFields)
  | zone Z  => (db.zones.find? Z).map (·.toFields)

end Target

-- The fields of a row in the form in which they are recorded.
def recorded (action : AdminAuditAction) (row : Fields) : Fields :=
  (pickAllowed action <| some row).getD []

-- What a target looks like after the recorded event. New rows are active.
def image (entry : AuditEntry) : Fields :=
  match entry.action with
  | .promoCreate        => (.active, .bool true) :: entry.args.getD []
  | .airspaceZoneCreate => (.active, .bool true) :: entry.args.getD []
  | _                   => entry.after.getD []

-- What has been recorded about a target, where the latest event comes first.
def history (db : Store) (x : Target) : List Fields :=
  db.audit.filter (fun entry => (entry.targetType, entry.targetId) = x.key) |>.map image

-- Replaying the recorded events yields all rows.
def Explained (db : Store) : Prop :=
  ∀ x row, x.fields? db = some row →
    Record.Explains (history db x) (auditFieldAllowlist x.action) (recorded x.action row)

-- What an update leaves the same as in the state that its caller has read is not changed by it.
def Faithful (action : AdminAuditAction) (before row after : Fields) : Prop :=
  ∀ key ∈ auditFieldAllowlist action,
    (recorded action before).lookup key = (recorded action after).lookup key →
    (recorded action row).lookup key = (recorded action after).lookup key

-- The runs in which all updates are faithful to what their callers have read.
def faithful : Policy Stmt.sig Store (AuditActor × Call) where
  step s _ _ x := match x with
    | .updatePromo _ P before dto  => ∀ promo ∈ s.db.platform.promos.codes.find? P,
      Faithful .promoUpdate before.toFields promo.toFields (dto.apply promo).toFields
    | .updateZone _ Z before patch => ∀ zone ∈ s.db.zones.find? Z,
      Faithful .airspaceZoneUpdate before.toFields zone.toFields (patch.apply zone).toFields
    | _                            => True

-- New rows are active.
def CreatesActive : Stmt → Prop
  | .createPromo _ _ promo => promo.active
  | .createZone _ _ zone   => zone.active
  | _                      => True

section

variable {x y : Target} {db db' : Store} {entry : AuditEntry} {row before : Fields}
variable {action : AdminAuditAction} {key : Field} {actor : AuditActor}

theorem key_injective (h : x.key = y.key) : x = y := by
  cases x <;> cases y <;> cases h <;> rfl

theorem lookup_recorded (h : key ∈ auditFieldAllowlist action) :
    (recorded action row).lookup key = (row.lookup key).map Value.normalize := by
  rw [recorded, lookup_pickAllowed, if_pos h]

theorem history_record (ha : db'.audit = entry :: db.audit)
    (ht : (entry.targetType, entry.targetId) = x.key) : history db' x = image entry :: history db x := by
  simp only [history, ha, List.filter_cons, ht, decide_true, if_true, List.map_cons]

theorem history_record_of_ne (ha : db'.audit = entry :: db.audit)
    (ht : (entry.targetType, entry.targetId) = x.key) (hne : y ≠ x) :
    history db' y = history db y := by
  have hne : ¬x.key = y.key := fun h => hne (key_injective h).symm
  simp only [history, ha, List.filter_cons, ht, decide_eq_true_eq, if_neg hne]

-- The row of a target has been written, and nothing else.
structure Writes (db : Store) (x : Target) (row : Fields) (db' : Store) : Prop where
  audit  : db'.audit = db.audit
  row    : x.fields? db' = some row
  others : ∀ y, y ≠ x → y.fields? db' = y.fields? db

-- A write leaves all rows explained if its entry explains the row that it writes.
theorem wp_recordWithinTx (h : Explained db) (hw : Writes db x row db')
    (ht : (entry.targetType, entry.targetId) = x.key)
    (he : Record.Explains (image entry :: history db x) (auditFieldAllowlist x.action)
      (recorded x.action row)) :
    Wp (Admin.AdminAuditService.recordWithinTx entry) (fun _ => Explained) (fun _ _ => True) db' := by
  refine wp_write (fun _ => trivial) fun db'' hr => ⟨?_, fun _ => trivial⟩
  have hr := Except.ok.inj hr
  have ha : db''.audit = entry :: db.audit := by rw [← hr, hw.audit]
  have fields? (y : Target) : y.fields? db'' = y.fields? db' := by
    cases y <;> rw [← hr] <;> rfl
  intro y row' hy
  rw [fields?] at hy
  by_cases hne : y = x
  case pos =>
    subst hne
    cases hw.row.symm.trans hy
    exact history_record ha ht ▸ he
  case neg => exact history_record_of_ne ha ht hne ▸ h y row' (hw.others y hne ▸ hy)

-- A new row is explained by the event of its creation.
theorem explains_create {rs : List Fields} {create update : AdminAuditAction}
    (hi : image entry = (.active, .bool true) :: recorded create row)
    (hs : ∀ key ∈ auditFieldAllowlist update, key ≠ .active → key ∈ auditFieldAllowlist create)
    (hr : ∀ key ∈ auditFieldAllowlist update, (row.lookup key).isSome)
    (ha : row.lookup .active = some (.bool true)) :
    Record.Explains (image entry :: rs) (auditFieldAllowlist update) (recorded update row) := by
  intro key hk
  rw [hi, Record.replay, List.lookup_cons, lookup_recorded hk]
  by_cases h : key = .active
  case pos =>
    rw [beq_iff_eq.mpr h, h, ha]
    rfl
  case neg =>
    obtain ⟨v, hv⟩ := Option.isSome_iff_exists.mp <| hr key hk
    have create := @lookup_recorded row _ _ <| hs key hk h
    rw [beq_eq_false_iff_ne.mpr h]
    dsimp only
    rw [create, hv]
    rfl

theorem explains_update {rs : List Fields} {after : Fields}
    (h : Record.Explains rs (auditFieldAllowlist action) (recorded action row))
    (ha : ∀ key ∈ auditFieldAllowlist action, (after.lookup key).isSome)
    (hf : Faithful action before row after) :
    Record.Explains ((diffAllowed action (some before) (some after)).snd.getD [] :: rs)
      (auditFieldAllowlist action) (recorded action after) := by
  rw [diffAllowed, Fields.getD_captured]
  refine (Record.explains_changed_iff h fun key hk => ?_).mpr hf
  refine (congrArg Option.isSome <| lookup_recorded hk).trans ?_
  rw [Option.isSome_map]
  exact ha key hk

theorem isSome_promo {promo : PromoCode} (h : key ∈ auditFieldAllowlist .promoUpdate) :
    (promo.toFields.lookup key).isSome := by
  have keys : auditFieldAllowlist .promoUpdate ⊆ promo.toFields.map Prod.fst := by
    dsimp only [PromoCode.toFields, List.map]
    decide
  exact Record.isSome_lookup <| keys h

theorem isSome_zone {zone : AirspaceZone} (h : key ∈ auditFieldAllowlist .airspaceZoneUpdate) :
    (zone.toFields.lookup key).isSome := by
  have keys : auditFieldAllowlist .airspaceZoneUpdate ⊆ zone.toFields.map Prod.fst := by
    dsimp only [AirspaceZone.toFields, List.map]
    decide
  exact Record.isSome_lookup <| keys h

-- A transaction that records a write leaves all rows explained.
theorem explained_eval {p : Admin.App Unit} (h : Explained db)
    (hp : Wp p (fun _ => Explained) (fun _ _ => True) db) :
    Explained (eval (transaction p) db).snd :=
  eval_of_wp <| wp_transaction (fun _ => h) <|
    hp.mono (fun _ _ h => ⟨h, fun _ => h⟩) fun _ _ => id

theorem writes_promo {codes : Table PromoId PromoCode} {P : PromoId} {promo : PromoCode}
    (hp : codes.find? P = some promo)
    (h : ∀ Q, Q ≠ P → codes.find? Q = db.platform.promos.codes.find? Q) :
    Writes db (.promo P) promo.toFields (db.setPromos { db.platform.promos with codes }) where
  audit  := rfl
  row    := congrArg (Option.map _) hp
  others := by
    intro y hne
    cases y
    case promo Q => exact congrArg (Option.map _) <| h Q fun hQ => hne <| congrArg _ hQ
    case zone    => rfl

theorem writes_zone {zones : Table ZoneId AirspaceZone} {Z : ZoneId} {zone : AirspaceZone}
    (hz : zones.find? Z = some zone) (h : ∀ W, W ≠ Z → zones.find? W = db.zones.find? W) :
    Writes db (.zone Z) zone.toFields { db with zones } where
  audit  := rfl
  row    := congrArg (Option.map _) hz
  others := by
    intro y hne
    cases y
    case promo  => rfl
    case zone W => exact congrArg (Option.map _) <| h W fun hW => hne <| congrArg _ hW

theorem wp_recordDiff {after : Fields} (h : Explained db) (hr : x.fields? db = some row)
    (hw : Writes db x after db')
    (hk : ∀ key ∈ auditFieldAllowlist x.action, (after.lookup key).isSome)
    (hf : Faithful x.action before row after) :
    Wp (match diffAllowed x.action (some before) (some after) with
      | (before, after) => Admin.AdminAuditService.recordWithinTx {
        actor.entry x.action x.key.fst x.key.snd with before, after })
      (fun _ => Explained) (fun _ _ => True) db' := by
  refine wp_recordWithinTx h hw rfl ?_
  cases x
  case promo => exact explains_update (h _ _ hr) hk hf
  case zone  => exact explains_update (h _ _ hr) hk hf

open Admin.AdminService

theorem explained_createPromo {P : PromoId} {promo : PromoCode} (h : Explained db)
    (ha : promo.active) : Explained (eval (createPromoTx actor P promo) db).snd := by
  refine explained_eval h <| wp_bind <| wp_write (fun _ => trivial) fun db' hw => ?_
  have ⟨codes, hc, he⟩ := Admin.Store.createPromo_effect hw
  subst he
  have writes : Writes db (.promo P) promo.toFields _ := writes_promo
    ((Table.find?_insert hc).trans <| if_pos rfl)
    fun Q hQ => (Table.find?_insert hc).trans <| if_neg hQ
  have keys : ∀ key ∈ auditFieldAllowlist .promoUpdate, key ≠ .active →
    key ∈ auditFieldAllowlist .promoCreate := by decide
  exact ⟨wp_recordWithinTx h writes rfl <| @explains_create _ _ _ .promoCreate _ rfl keys
    (fun _ => isSome_promo) (congrArg (fun b => some <| Value.bool b) ha), fun _ => trivial⟩

theorem explained_updatePromo {P : PromoId} {before : PromoCode} {dto : UpdatePromoDto}
    (h : Explained db) (hf : ∀ promo ∈ db.platform.promos.codes.find? P,
      Faithful .promoUpdate before.toFields promo.toFields (dto.apply promo).toFields) :
    Explained (eval (updatePromoTx actor P before dto) db).snd := by
  refine explained_eval h <| wp_bind <| wp_cas (fun _ => trivial) (fun _ => trivial) ?_ ?_
  case refine_1 => exact Admin.wp_throwIf (fun _ => trivial) fun h => (h rfl).elim
  case refine_2 =>
    cases hp : db.platform.promos.codes.find? P
    case none       =>
      have hc : (db.updatePromo P dto).fst = 0 :=
        Table.cas_count_eq_zero_iff.mpr fun r hr => nomatch hp.symm.trans hr
      exact Admin.wp_throwIf (fun _ => trivial) fun h => (h hc).elim
    case some promo =>
      rw [Admin.Store.updatePromo_eq hp]
      refine Admin.wp_throwIf (fun _ => trivial) fun _ => wp_bind <| wp_read (fun _ => trivial) ?_
      have stored := Table.find?_modify_of_some (f := dto.apply) hp
      have writes : Writes db (.promo P) (dto.apply promo).toFields _ :=
        writes_promo stored fun Q hQ => Table.find?_modify_of_ne hQ
      have read : ((db.setPromos { db.platform.promos with
          codes := db.platform.promos.codes.modify P dto.apply }).platform.promos.codes.find?
          P).map (·.toFields) = some (dto.apply promo).toFields :=
        writes.row
      rw [read]
      exact wp_recordDiff (x := .promo P) h (congrArg (Option.map _) hp) writes
        (fun _ => isSome_promo) (hf promo hp)

theorem explained_createZone {Z : ZoneId} {zone : AirspaceZone} (h : Explained db)
    (ha : zone.active) : Explained (eval (createZoneTx actor Z zone) db).snd := by
  refine explained_eval h <| wp_bind <| wp_write (fun _ => trivial) fun db' hw => ?_
  have ⟨zones, hz, he⟩ := Admin.Store.createZone_effect hw
  subst he
  have writes : Writes db (.zone Z) zone.toFields _ := writes_zone
    ((Table.find?_insert hz).trans <| if_pos rfl)
    fun W hW => (Table.find?_insert hz).trans <| if_neg hW
  have keys : ∀ key ∈ auditFieldAllowlist .airspaceZoneUpdate, key ≠ .active →
    key ∈ auditFieldAllowlist .airspaceZoneCreate := by decide
  exact ⟨wp_recordWithinTx h writes rfl <| @explains_create _ _ _ .airspaceZoneCreate _ rfl keys
    (fun _ => isSome_zone) (congrArg (fun b => some <| Value.bool b) ha), fun _ => trivial⟩

theorem explained_updateZone {Z : ZoneId} {before : AirspaceZone} {patch : AirspaceZonePatch}
    (h : Explained db) (hf : ∀ zone ∈ db.zones.find? Z,
      Faithful .airspaceZoneUpdate before.toFields zone.toFields (patch.apply zone).toFields) :
    Explained (eval (updateZoneTx actor Z before patch) db).snd := by
  refine explained_eval h <| wp_bind <| wp_stmt (fun _ => trivial) (fun _ => trivial) ?_
  cases hz : db.zones.find? Z
  case none      => simp only [Admin.Store.updateZone, hz]
  case some zone =>
    rw [Admin.Store.updateZone_eq hz]
    exact wp_recordDiff (x := .zone Z) h (congrArg (Option.map _) hz)
      (writes_zone (Table.find?_modify_of_some hz) fun W hW => Table.find?_modify_of_ne hW)
      (fun _ => isSome_zone) (hf zone hz)

theorem lookup_deactivated {zone : AirspaceZone} (h : key ≠ .active) :
    ({ zone with active := false } : AirspaceZone).toFields.lookup key = zone.toFields.lookup key := by
  cases key
  case active => contradiction
  all_goals rfl

-- The entry of a deactivation does not depend on what its caller has read.
theorem explained_deactivateZone {Z : ZoneId} {before : AirspaceZone} (h : Explained db) :
    Explained (eval (deactivateZoneTx actor Z before) db).snd := by
  refine explained_eval h <| wp_bind <| wp_stmt (fun _ => trivial) (fun _ => trivial) ?_
  cases hz : db.zones.find? Z
  case none      => simp only [Admin.Store.updateZone, hz]
  case some zone =>
    rw [Admin.Store.updateZone_eq hz]
    refine wp_recordWithinTx (x := .zone Z) h
      (writes_zone (Table.find?_modify_of_some hz) fun W hW => Table.find?_modify_of_ne hW) rfl fun key hk => ?_
    rw [lookup_recorded hk, Record.replay]
    by_cases hne : key = .active
    case pos =>
      subst hne
      rfl
    case neg =>
      have explained := (h (.zone Z) zone.toFields (congrArg (Option.map _) hz) key hk).trans <|
        lookup_recorded hk
      have captured : image {
          actor.entry .airspaceZoneDeactivate .airspaceZone Z with
          before := pickAllowed .airspaceZoneDeactivate (some [(.active, .bool before.active)])
          after  := pickAllowed .airspaceZoneDeactivate (some [(.active, .bool false)])
        } = [(.active, .bool false)] := rfl
      have absent : List.lookup key [(Field.active, Value.bool false)] = none := by
        rw [List.lookup_cons, beq_eq_false_iff_ne.mpr hne]
        rfl
      refine (congrArg (List.lookup key · <|> _) captured).trans ?_
      rw [absent]
      refine explained.trans <| congrArg (Option.map _) ?_
      exact (lookup_deactivated hne).symm

end

section

variable {s : Pool Stmt.sig Store (AuditActor × Call)} {t : Nat} {c : AuditActor × Call} {x : Stmt}

-- The single statements that do not create inactive rows.
inductive Block : (α : Type) → App α → Prop
  | tx {α : Type} {x : Stmt} {f : x.Res → Except AppError α} : CreatesActive x → Block α (App.tx x f)

theorem assertDiscountValue_built {type : PromoDiscountType} {value : ℚ} :
    Method.Built Block (AdminService.assertDiscountValue type value) := by
  unfold AdminService.assertDiscountValue
  split
  case isTrue  => exact .throw
  case isFalse => exact .pure

theorem check_built {r : Except AppError Unit} : Method.Built Block (Method.check r) := by
  cases r
  case error => exact .throw
  case ok    => exact .pure

theorem getPromo_built {P : PromoId} : Method.Built Block (AdminService.getPromo P) := by
  refine .bind (.block <| .tx (f := .ok) trivial) fun promo => ?_
  cases promo
  case none => exact .throw
  case some => exact .pure

theorem findZoneOr404_built {Z : ZoneId} : Method.Built Block (AdminService.findZoneOr404 Z) := by
  refine .bind (.block <| .tx (f := .ok) trivial) fun zone => ?_
  cases zone
  case none => exact .throw
  case some => exact .pure

theorem prog_built {actor : AuditActor} {c : Call} : Method.Built Block (c.prog actor) := by
  cases c
  case createPromo =>
    refine .bind assertDiscountValue_built fun _ => .handle (.block <| .tx rfl) fun e => ?_
    split <;> exact .throw
  case updatePromo P dto =>
    refine .bind getPromo_built fun before => ?_
    cases dto.discountValue
    case none => exact .block <| .tx trivial
    case some => exact .bind assertDiscountValue_built fun _ => .block <| .tx trivial
  case createAirspaceZone => exact .bind check_built fun _ => .block <| .tx rfl
  case updateAirspaceZone =>
    exact .bind findZoneOr404_built fun _ => .bind check_built fun _ => .bind check_built fun _ =>
      .block <| .tx trivial
  case deactivateAirspaceZone =>
    exact .bind findZoneOr404_built fun _ => .block <| .tx trivial

theorem follows_createsActive (t : Nat) (c : AuditActor × Call) :
    (system.prog t c).Follows system t c (fun x _ => CreatesActive x) (fun _ _ => True) [] := by
  refine Method.follows_toCall.mpr <| .of_built prog_built fun hb => ?_
  have ⟨hx⟩ := hb
  exact Method.follows_tx.mpr ⟨hx, fun _ => by split <;> trivial⟩

theorem explained_exec (h : Explained s.db) (hf : faithful.step s t c x) (ha : CreatesActive x) :
    Explained (Stmt.exec x s.db).snd := by
  cases x
  case findPromo      => exact h
  case createPromo    => exact explained_createPromo h ha
  case updatePromo    => exact explained_updatePromo h hf
  case findZone       => exact h
  case createZone     => exact explained_createZone h ha
  case updateZone     => exact explained_updateZone h hf
  case deactivateZone => exact explained_deactivateZone h

end

-- In a run whose updates are faithful to what their callers have read, the audit log explains the
-- promotions and the airspace zones.
theorem explained_of_faithful {init : Store → Prop} {s : Pool Stmt.sig Store (AuditActor × Call)}
    (hi : ∀ db, init db → Explained db) (h : Reachable system faithful init s) : Explained s.db := by
  refine h.invariant (I := fun w => Explained w.db) (hi _) fun st ih => ?_
  have active := st.reachable.follows_aboutTo (fun t c _ => follows_createsActive t c) st.aboutTo
  exact explained_exec ih st.allowed active

instance {action : AdminAuditAction} {before row after : Fields} :
    Decidable (Faithful action before row after) :=
  inferInstanceAs (Decidable (∀ key ∈ _, _))

instance {s : Pool Stmt.sig Store (AuditActor × Call)} {t : Nat} {c : AuditActor × Call} {x : Stmt} :
    Decidable (faithful.step s t c x) := by
  cases x <;> dsimp only [faithful] <;> infer_instance

instance : DecidablePred faithful.spawn :=
  fun _ => .isTrue trivial

instance : Decidable faithful.crash :=
  .isTrue trivial

def Store.empty : Store where
  platform  := {
    clock       := 0
    deliveries  := .empty
    trackingIds := .empty
    tracking    := .empty
    fleet       := .empty
    commands    := .empty
    wallet      := { balances := .empty, ledger := .empty, referrals := .empty }
    promos      := { codes := .empty, redemptions := .empty }
    payments    := { table := .empty, webhookEvents := .empty }
    outbox      := .empty
  }
  airframes := .empty
  zones     := .empty
  users     := .empty
  tickets   := .empty
  messages  := []
  audit     := []

theorem Store.empty_explained : Explained Store.empty := by
  intro x row h
  cases x <;> contradiction

def alice : AuditActor :=
  ⟨1, .admin⟩

def bob : AuditActor :=
  ⟨2, .admin⟩

-- An airport, which has the id 1.
def airport : Call :=
  .createAirspaceZone 1 {
    name     := "Airport"
    kind     := .airport
    lat      := 52
    lng      := 13
    radiusKm := 5
  } 0

-- A zone is renamed by one administrator while another one deactivates it.
theorem explained_of_faithful_renamed :
    ∃ s, Reachable system faithful Explained s ∧ Explained s.db ∧ s.db.audit.length = 3 := by
  let cmds := Cmd.run 1 (alice, airport) 1 ++
    Cmd.run 2 (alice, .updateAirspaceZone 1 { name := some "Old airport" } 1) 1 ++
    Cmd.run 3 (bob, .deactivateAirspaceZone 1) 2 ++ [.exec 2]
  let s := (Pool.init Store.empty).runCmds system cmds
  have admitted : faithful.AdmitsAll system (Pool.init Store.empty) cmds := by decide +kernel
  have h : Reachable system faithful Explained s :=
    (Reachable.init Store.empty_explained).runCmds admitted
  exact ⟨s, h, explained_of_faithful (fun _ => id) h, by decide +kernel⟩

-- One administrator reads the zone before another one deactivates it, and activates it afterwards.
theorem explained_of_faithful_reactivated :
    ¬∀ s, Reachable system {} Explained s → Explained s.db := by
  intro h
  let s := (Pool.init Store.empty).runCmds system <| Cmd.run 1 (alice, airport) 1 ++
    Cmd.run 2 (alice, .updateAirspaceZone 1 { active := some true } 1) 1 ++
    Cmd.run 3 (bob, .deactivateAirspaceZone 1) 2 ++ [.exec 2]
  have hs : Reachable system {} Explained s :=
    Reachable.runCmds_of_free _ <| .init Store.empty_explained
  have hn : ¬∀ row ∈ (Target.zone 1).fields? s.db, Record.replay (history s.db (.zone 1)) .active =
      (recorded .airspaceZoneUpdate row).lookup .active := by decide +kernel
  exact hn fun row hr => h s hs (.zone 1) row hr .active (by decide)

end Drovery.Registry
