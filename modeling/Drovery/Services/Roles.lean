import Drovery.Concurrency.Method
import Drovery.Objects.Audit

namespace Drovery.Roles

open Concurrency

-- The record of a change of a role.
structure AuditEntry where
  actor    : AuditActor
  targetId : UserId
  before   : Role
  after    : Role
  deriving DecidableEq

structure Store where
  users : Table UserId Role
  audit : List AuditEntry

namespace Store

def isAdmin (_ : UserId) (role : Role) : Bool :=
  role = .admin

def admins (db : Store) : Nat :=
  db.users.count isAdmin

-- The role and its audit entry are written together.
def setRole (db : Store) (actor : AuditActor) (targetId : UserId) (before role : Role) :
    Except AppError Store :=
  match db.users.find? targetId with
  | none   => .error .recordNotFound
  | some _ => .ok {
      users := db.users.modify targetId fun _ => role
      audit := ⟨actor, targetId, before, role⟩ :: db.audit
    }

end Store

inductive Stmt
  | findUser (targetId : UserId)
  | countAdmins
  | setRole (actor : AuditActor) (targetId : UserId) (before role : Role)

namespace Stmt

@[reducible]
def Res : Stmt → Type
  | findUser _  => Option Role
  | countAdmins => Nat
  | setRole ..  => Except AppError Unit

def exec : (x : Stmt) → Store → x.Res × Store
  | findUser targetId,                  db => (db.users.find? targetId, db)
  | countAdmins,                        db => (db.admins, db)
  | setRole actor targetId before role, db =>
    match db.setRole actor targetId before role with
    | .ok db'  => (.ok (), db')
    | .error e => (.error e, db)

@[reducible]
def sig : Signature where
  Stmt := Stmt
  Res  := Res

end Stmt

abbrev App := Method Stmt.sig AppError

abbrev App.stmt (x : Stmt) : App x.Res :=
  @Method.stmt Stmt.sig AppError x

abbrev App.tx {α : Type} (x : Stmt) (f : x.Res → Except AppError α) : App α :=
  @Method.tx Stmt.sig AppError α x f

open Roles.App (stmt tx)

namespace AdminService

-- The last administrator keeps the role. The guard stays outside of the transaction.
def guardLastAdmin (before role : Role) : App Unit := do
  if before = .admin ∧ role ≠ .admin then
    let admins ← stmt .countAdmins
    if admins ≤ 1 then
      throw <| .conflict "error.admin.user.last_admin"

def setRole (actor : AuditActor) (targetId : UserId) (role : Role) (fault : Outcome AppError) :
    App Unit := do
  match ← stmt <| .findUser targetId with
  | none        => throw <| .notFound "error.admin.user.not_found"
  | some before =>
    guardLastAdmin before role
    (tx (.setRole actor targetId before role) id).attempt fault

end AdminService

-- A call comes with the outcome of its transaction.
structure Call where
  actor    : AuditActor
  targetId : UserId
  role     : Role
  fault    : Outcome AppError

def system : System Stmt.sig Store Call where
  exec     := Stmt.exec
  prog _ c := (AdminService.setRole c.actor c.targetId c.role c.fault).toCall

end Drovery.Roles
