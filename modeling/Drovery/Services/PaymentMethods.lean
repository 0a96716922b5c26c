import Mathlib.Data.List.MinMax
import Drovery.Concurrency.Method
import Drovery.Data.Serial
import Drovery.Objects.Wallet

namespace Drovery.PaymentMethods

open Concurrency

abbrev MethodId := Nat

structure PaymentMethod where
  userId                : UserId
  stripePaymentMethodId : String
  network               : String
  last4                 : String
  holderName            : String
  expiry                : String
  isDefault             : Bool
  createdAt             : Time
  deriving DecidableEq

structure User where
  name             : String
  stripeCustomerId : Option String

structure AddPaymentMethodDto where
  network    : String
  last4      : String
  holderName : String
  expiry     : String

-- A card that the payment provider has stored for a customer.
structure Card where
  id       : String
  brand    : String
  last4    : String
  expMonth : Nat
  expYear  : Nat

structure Store where
  users   : Table UserId User
  methods : Serial PaymentMethod

-- A transaction that moves the default flag consists of two statements. The first one finds those
-- cards that have the flag at that moment, and both take effect when the transaction commits.
-- A deletion does not depend on what its call knows about the card, nor does the update that
-- promotes a card depend on the user.
inductive Stmt
  | findUser (U : UserId)
  | count (U : UserId)
  | find (M : MethodId)
  | findCard (U : UserId) (stripePaymentMethodId : String)
  | create (row : PaymentMethod)
  | delete (U : UserId) (M : MethodId) (wasDefault : Bool)
  | mostRecent (U : UserId)
  | promote (U : UserId) (M : MethodId)
  | clearDefaults (U : UserId)
  | setDefault (cleared : List MethodId) (M : MethodId)

namespace Store

variable (db : Store)

def count (U : UserId) : Nat :=
  db.methods.table.count fun _ row => row.userId = U

def findCard (U : UserId) (stripePaymentMethodId : String) : Option PaymentMethod :=
  db.methods.table.findFirst (fun _ row =>
    row.userId = U ∧ row.stripePaymentMethodId = stripePaymentMethodId) |>.map Prod.snd

def mostRecent (U : UserId) : Option MethodId :=
  db.methods.table.findMany (fun _ row => row.userId = U)
    |>.argmax (fun (_, row) => row.createdAt)
    |>.map Prod.fst

def defaults (U : UserId) : List MethodId :=
  db.methods.table.findMany (fun _ row => row.userId = U ∧ row.isDefault) |>.map Prod.fst

def create (row : PaymentMethod) : Store :=
  { db with methods := db.methods.create row }

def delete (M : MethodId) : Except AppError Store :=
  match db.methods.find? M with
  | none   => .error .recordNotFound
  | some _ => .ok { db with methods := db.methods.erase M }

def clear (cleared : List MethodId) : Store where
  users   := db.users
  methods := db.methods.updateMany (fun M _ => M ∈ cleared) ({ · with isDefault := false })

-- Makes a card a default.
def mark (M : MethodId) : Except AppError Store :=
  match db.methods.find? M with
  | none   => .error .recordNotFound
  | some _ => .ok { db with methods := db.methods.modify M ({ · with isDefault := true }) }

end Store

namespace Stmt

@[reducible]
def Res : Stmt → Type
  | findUser _      => Option User
  | count _         => Nat
  | find _          => Option PaymentMethod
  | findCard ..     => Option PaymentMethod
  | create _        => Unit
  | delete ..       => Except AppError Unit
  | mostRecent _    => Option MethodId
  | promote ..      => Except AppError Unit
  | clearDefaults _ => List MethodId
  | setDefault ..   => Except AppError Unit

def exec : (x : Stmt) → Store → x.Res × Store
  | findUser U,           db => (db.users.find? U, db)
  | count U,              db => (db.count U, db)
  | find M,               db => (db.methods.find? M, db)
  | findCard U id,        db => (db.findCard U id, db)
  | create row,           db => ((), db.create row)
  | delete _ M _,         db => commit db <| db.delete M
  | mostRecent U,         db => (db.mostRecent U, db)
  | promote _ M,          db => commit db <| db.mark M
  | clearDefaults U,      db => (db.defaults U, db)
  | setDefault cleared M, db => commit db <| (db.clear cleared).mark M

@[reducible]
def sig : Signature where
  Stmt := Stmt
  Res  := Res

end Stmt

abbrev App := Method Stmt.sig AppError

abbrev App.stmt (x : Stmt) : App x.Res :=
  @Method.stmt Stmt.sig AppError x

abbrev App.tx {α : Type} (x : Stmt) (f : x.Res → Except AppError α) : App α :=
  @Method.tx Stmt.sig AppError α x f

open PaymentMethods.App (stmt tx)

namespace PaymentsService

def addPaymentMethod (U : UserId) (dto : AddPaymentMethodDto) (now : Time) : App Unit := do
  let existingCount ← stmt <| .count U
  stmt <| .create {
    userId                := U
    stripePaymentMethodId := "manual_" ++ toString now
    network               := dto.network
    last4                 := dto.last4
    holderName            := dto.holderName
    expiry                := dto.expiry
    isDefault             := existingCount = 0
    createdAt             := now
  }

def findOwned (U : UserId) (M : MethodId) : App PaymentMethod := do
  match ← stmt <| .find M with
  | none     => throw <| .notFound "error.payment.method.not_found"
  | some row =>
    if row.userId ≠ U then
      throw <| .forbidden "error.authz.access_denied"
    pure row

-- If the card was the default then the most recent one of those that remain is promoted.
def promoteMostRecent (U : UserId) : App Unit := do
  match ← stmt <| .mostRecent U with
  | none   => pure ()
  | some M => tx (.promote U M) id

def remove (U : UserId) (M : MethodId) : App Unit := do
  let method ← findOwned U M
  tx (.delete U M method.isDefault) id
  if method.isDefault then
    promoteMostRecent U

def setDefault (U : UserId) (M : MethodId) : App Unit := do
  let _ ← findOwned U M
  let cleared ← stmt <| .clearDefaults U
  tx (.setDefault cleared M) id

def expiry (card : Card) : String :=
  (if card.expMonth < 10 then "0" else "") ++ toString card.expMonth ++ "/" ++ toString card.expYear

-- Adds the cards that are not yet stored, one after the other.
def syncCard (U : UserId) (holderName : String) (now : Time) (card : Card) : App Unit := do
  match ← stmt <| .findCard U card.id with
  | some _ => pure ()
  | none   =>
    let count ← stmt <| .count U
    stmt <| .create {
      userId                := U
      stripePaymentMethodId := card.id
      network               := card.brand
      last4                 := card.last4
      holderName            := holderName
      expiry                := expiry card
      isDefault             := count = 0
      createdAt             := now
    }

def syncAll (U : UserId) (holderName : String) (now : Time) : List Card → App Unit
  | []            => pure ()
  | card :: cards => do
    syncCard U holderName now card
    syncAll U holderName now cards

-- The list of cards is the answer of the payment provider.
def syncCards (U : UserId) (cards : List Card) (now : Time) : App Unit := do
  match ← stmt <| .findUser U with
  | none      => pure ()
  | some user =>
    if user.stripeCustomerId.any (· ≠ "") then
      syncAll U user.name now cards

end PaymentsService

inductive Call
  | addPaymentMethod (U : UserId) (dto : AddPaymentMethodDto) (now : Time)
  | remove (U : UserId) (M : MethodId)
  | setDefault (U : UserId) (M : MethodId)
  | syncCards (U : UserId) (cards : List Card) (now : Time)

def Call.prog : Call → Prog Stmt.sig Unit
  | addPaymentMethod U dto now => (PaymentsService.addPaymentMethod U dto now).toCall
  | remove U M                 => (PaymentsService.remove U M).toCall
  | setDefault U M             => (PaymentsService.setDefault U M).toCall
  | syncCards U cards now      => (PaymentsService.syncCards U cards now).toCall

def system : System Stmt.sig Store Call where
  exec   := Stmt.exec
  prog _ := Call.prog

end Drovery.PaymentMethods
