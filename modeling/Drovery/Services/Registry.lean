import Drovery.Concurrency.Method
import Drovery.Services.Admin

namespace Drovery.Registry

open Concurrency
open Admin (CreatePromoDto)

abbrev Store := Admin.Store

-- The statements that operators issue against promotions and airspace zones. Every statement that
-- writes is a transaction that also records the write.
inductive Stmt
  | findPromo (P : PromoId)
  | createPromo (actor : AuditActor) (P : PromoId) (promo : PromoCode)
  | updatePromo (actor : AuditActor) (P : PromoId) (before : PromoCode) (dto : UpdatePromoDto)
  | findZone (Z : ZoneId)
  | createZone (actor : AuditActor) (Z : ZoneId) (zone : AirspaceZone)
  | updateZone (actor : AuditActor) (Z : ZoneId) (before : AirspaceZone) (patch : AirspaceZonePatch)
  | deactivateZone (actor : AuditActor) (Z : ZoneId) (before : AirspaceZone)

namespace Stmt

@[reducible]
def Res : Stmt → Type
  | findPromo _       => Option PromoCode
  | createPromo ..    => Except AppError Unit
  | updatePromo ..    => Except AppError Unit
  | findZone _        => Option AirspaceZone
  | createZone ..     => Except AppError Unit
  | updateZone ..     => Except AppError Unit
  | deactivateZone .. => Except AppError Unit

open Admin.AdminService

def exec : (x : Stmt) → Store → x.Res × Store
  | findPromo P,                      db => (db.platform.promos.codes.find? P, db)
  | createPromo actor P promo,        db => (createPromoTx actor P promo).eval db
  | updatePromo actor P before dto,   db => (updatePromoTx actor P before dto).eval db
  | findZone Z,                       db => (db.zones.find? Z, db)
  | createZone actor Z zone,          db => (createZoneTx actor Z zone).eval db
  | updateZone actor Z before patch,  db => (updateZoneTx actor Z before patch).eval db
  | deactivateZone actor Z before,    db => (deactivateZoneTx actor Z before).eval db

@[reducible]
def sig : Signature where
  Stmt := Stmt
  Res  := Res

end Stmt

abbrev App := Method Stmt.sig AppError

abbrev App.stmt (x : Stmt) : App x.Res :=
  @Method.stmt Stmt.sig AppError x

abbrev App.tx {α : Type} (x : Stmt) (f : x.Res → Except AppError α) : App α :=
  @Method.tx Stmt.sig AppError α x f

open Registry.App (stmt tx)

namespace AdminService

def assertDiscountValue (type : PromoDiscountType) (value : ℚ) : App Unit :=
  if type = .percent ∧ (value ≤ 0 ∨ 100 < value) then
    throw <| .badRequest "error.admin.promo.percent_range"
  else
    pure ()

def createPromo (actor : AuditActor) (P : PromoId) (dto : CreatePromoDto) : App Unit := do
  assertDiscountValue dto.discountType dto.discountValue
  (tx (.createPromo actor P dto.promo) id).handle fun e =>
    if e.isUniqueViolation then throw <| .conflict "error.admin.promo.code_exists" else throw e

def getPromo (P : PromoId) : App PromoCode := do
  match ← stmt <| .findPromo P with
  | none       => throw <| .notFound "error.admin.promo.not_found"
  | some promo => return promo

def updatePromo (actor : AuditActor) (P : PromoId) (dto : UpdatePromoDto) : App Unit := do
  let before ← getPromo P
  match dto.discountValue with
  | none       => pure ()
  | some value => assertDiscountValue before.discountType value
  tx (.updatePromo actor P before dto) id

def createAirspaceZone (actor : AuditActor) (Z : ZoneId) (dto : CreateAirspaceZoneDto)
    (now : Time) : App Unit := do
  Method.check <| assertZoneBounds dto.zone true now
  tx (.createZone actor Z dto.zone) id

def findZoneOr404 (Z : ZoneId) : App AirspaceZone := do
  match ← stmt <| .findZone Z with
  | none      => throw <| .notFound "error.admin.airspace.not_found"
  | some zone => return zone

def updateAirspaceZone (actor : AuditActor) (Z : ZoneId) (patch : AirspaceZonePatch) (now : Time) :
    App Unit := do
  let before ← findZoneOr404 Z
  Method.check <| assertNoNullOnRequiredFields patch
  Method.check <| assertZoneBounds (patch.apply before) patch.writesWindow now
  tx (.updateZone actor Z before patch) id

def deactivateAirspaceZone (actor : AuditActor) (Z : ZoneId) : App Unit := do
  let before ← findZoneOr404 Z
  tx (.deactivateZone actor Z before) id

end AdminService

inductive Call
  | createPromo (P : PromoId) (dto : CreatePromoDto)
  | updatePromo (P : PromoId) (dto : UpdatePromoDto)
  | createAirspaceZone (Z : ZoneId) (dto : CreateAirspaceZoneDto) (now : Time)
  | updateAirspaceZone (Z : ZoneId) (patch : AirspaceZonePatch) (now : Time)
  | deactivateAirspaceZone (Z : ZoneId)

def Call.prog (actor : AuditActor) : Call → App Unit
  | createPromo P dto              => AdminService.createPromo actor P dto
  | updatePromo P dto              => AdminService.updatePromo actor P dto
  | createAirspaceZone Z dto now   => AdminService.createAirspaceZone actor Z dto now
  | updateAirspaceZone Z patch now => AdminService.updateAirspaceZone actor Z patch now
  | deactivateAirspaceZone Z       => AdminService.deactivateAirspaceZone actor Z

def system : System Stmt.sig Store (AuditActor × Call) where
  exec   := Stmt.exec
  prog _ := fun (actor, c) => (c.prog actor).toCall

end Drovery.Registry
