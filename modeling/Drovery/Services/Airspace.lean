import Drovery.Concurrency.Method
import Drovery.Objects.Airspace

namespace Drovery.Airspace

open Concurrency

-- The state that the calls of one instance share: the zones in the database, and the rows that the
-- instance keeps in memory.
structure Store where
  zones : Table ZoneId AirspaceZone
  cache : Option AirspaceCache

inductive Stmt
  | readCache
  -- The database read, which may fail.
  | fetchActiveRows (fault : Option AppError)
  | storeCache (cache : AirspaceCache)
  | invalidate
  | find (Z : ZoneId)
  | create (Z : ZoneId) (zone : AirspaceZone)
  | update (Z : ZoneId) (patch : AirspaceZonePatch)
  -- The answer to the caller.
  | respond (zones : List GeoCircle)

namespace Store

def activeRows (db : Store) : List ZoneRow :=
  db.zones.findMany (fun _ z => z.active) |>.map (·.snd.toRow)

def create (db : Store) (Z : ZoneId) (zone : AirspaceZone) : Except AppError Store :=
  match db.zones.insert Z zone with
  | none       => .error <| .p2002 .airspaceZoneId
  | some zones => .ok { db with zones }

def update (db : Store) (Z : ZoneId) (patch : AirspaceZonePatch) : Except AppError Store :=
  match db.zones.find? Z with
  | none   => .error .recordNotFound
  | some _ => .ok { db with zones := db.zones.modify Z patch.apply }

end Store

namespace Stmt

@[reducible]
def Res : Stmt → Type
  | readCache         => Option AirspaceCache
  | fetchActiveRows _ => Except AppError (List ZoneRow)
  | storeCache _      => Unit
  | invalidate        => Unit
  | find _            => Option AirspaceZone
  | create ..         => Except AppError Unit
  | update ..         => Except AppError Unit
  | respond _         => Unit

def commit (db : Store) : Except AppError Store → Except AppError Unit × Store
  | .ok db'   => (.ok (), db')
  | .error e  => (.error e, db)

def exec : (x : Stmt) → Store → x.Res × Store
  | readCache,                db => (db.cache, db)
  | fetchActiveRows none,     db => (.ok db.activeRows, db)
  | fetchActiveRows (some e), db => (.error e, db)
  | storeCache cache,         db => ((), { db with cache := some cache })
  | invalidate,               db => ((), { db with cache := none })
  | find Z,                   db => (db.zones.find? Z, db)
  | create Z zone,            db => commit db <| db.create Z zone
  | update Z patch,           db => commit db <| db.update Z patch
  | respond _,                db => ((), db)

@[reducible]
def sig : Signature where
  Stmt := Stmt
  Res  := Res

end Stmt

abbrev App := Method Stmt.sig AppError

abbrev App.stmt (x : Stmt) : App x.Res :=
  @Method.stmt Stmt.sig AppError x

abbrev App.tx {α : Type} (x : Stmt) (f : x.Res → Except AppError α) : App α :=
  @Method.tx Stmt.sig AppError α x f

open App (stmt tx)

namespace AirspaceService

-- The rows that are cached are those of the database, not the answer: the time window of a zone is
-- evaluated anew for each call. A failed read leaves the cache as it is.
def inForceZones (ttl : ℚ) (now : Time) (fault : Option AppError) : App Unit := do
  match (← stmt .readCache).filter (·.Fresh ttl now) with
  | some cached => stmt <| .respond <| inForce cached.rows now
  | none        =>
    let rows ← tx (.fetchActiveRows fault) id
    stmt <| .storeCache ⟨now, rows⟩
    stmt <| .respond <| inForce rows now

def invalidate : App Unit :=
  stmt .invalidate

end AirspaceService

namespace AdminService

def findZoneOr404 (Z : ZoneId) : App AirspaceZone := do
  match ← stmt <| .find Z with
  | none      => throw <| .notFound "error.admin.airspace.not_found"
  | some zone => pure zone

def dropZoneCacheAfterCommit : App Unit :=
  AirspaceService.invalidate

def createAirspaceZone (Z : ZoneId) (dto : CreateAirspaceZoneDto) (now : Time)
    (fault : Outcome AppError) : App Unit := do
  Method.check <| assertZoneBounds dto.zone true now
  (tx (.create Z dto.zone) id).attempt fault
  dropZoneCacheAfterCommit

-- It is the merged zone that has to be within bounds.
def updateAirspaceZone (Z : ZoneId) (patch : AirspaceZonePatch) (now : Time)
    (fault : Outcome AppError) : App Unit := do
  let before ← findZoneOr404 Z
  Method.check <| assertNoNullOnRequiredFields patch
  Method.check <| assertZoneBounds (patch.apply before) patch.writesWindow now
  (tx (.update Z patch) id).attempt fault
  dropZoneCacheAfterCommit

def deactivateAirspaceZone (Z : ZoneId) (fault : Outcome AppError) : App Unit := do
  let _ ← findZoneOr404 Z
  (tx (.update Z { active := some (some false) }) id).attempt fault
  dropZoneCacheAfterCommit

end AdminService

-- The calls of one instance. A call comes with its time and with the outcomes of its transactions.
inductive Call
  | inForceZones (now : Time) (fault : Option AppError)
  | createAirspaceZone (dto : CreateAirspaceZoneDto) (now : Time) (fault : Outcome AppError)
  | updateAirspaceZone (Z : ZoneId) (patch : AirspaceZonePatch) (now : Time)
    (fault : Outcome AppError)
  | deactivateAirspaceZone (Z : ZoneId) (fault : Outcome AppError)

def Call.prog (ttl : ℚ) (t : Nat) : Call → Prog Stmt.sig Unit
  | inForceZones now fault               => (AirspaceService.inForceZones ttl now fault).toCall
  | createAirspaceZone dto now fault     => (AdminService.createAirspaceZone t dto now fault).toCall
  | updateAirspaceZone Z patch now fault =>
    (AdminService.updateAirspaceZone Z patch now fault).toCall
  | deactivateAirspaceZone Z fault       => (AdminService.deactivateAirspaceZone Z fault).toCall

-- One instance of the platform, where `raw` is the configured lifetime of the cache.
def system (raw : Option ℚ) : System Stmt.sig Store Call where
  exec := Stmt.exec
  prog := Call.prog <| resolveAirspaceCacheTtlMs raw 30000

end Drovery.Airspace
