import Drovery.Concurrency.Method
import Drovery.Data.Serial
import Drovery.Objects.Wallet

namespace Drovery.SavedAddresses

open Concurrency

abbrev AddressId := Nat

def maxAddressesPerUser : Nat := 20

structure SavedAddress where
  userId    : UserId
  label     : String
  address   : String
  lat       : Option ℚ
  lng       : Option ℚ
  isDefault : Bool
  deriving DecidableEq

structure GeoPoint where
  lat : ℚ
  lng : ℚ

structure CreateSavedAddressDto where
  label     : String
  address   : String
  lat       : Option ℚ
  lng       : Option ℚ
  isDefault : Option Bool

-- A coordinate is either absent, explicitly `null` or given.
structure UpdateSavedAddressDto where
  label     : Option String
  address   : Option String
  lat       : Option (Option ℚ)
  lng       : Option (Option ℚ)
  isDefault : Option Bool

-- What an update writes besides the default flag.
structure AddressData where
  label   : Option String
  address : Option String
  lat     : Option (Option ℚ)
  lng     : Option (Option ℚ)

def AddressData.empty : AddressData where
  label   := none
  address := none
  lat     := none
  lng     := none

def AddressData.apply (data : AddressData) (row : SavedAddress) : SavedAddress where
  userId    := row.userId
  label     := data.label.getD row.label
  address   := data.address.getD row.address
  lat       := data.lat.getD row.lat
  lng       := data.lng.getD row.lng
  isDefault := row.isDefault

structure Store where
  addresses : Serial SavedAddress

-- A transaction that moves the default flag consists of two statements. The first one finds those
-- addresses that have the flag at that moment. Since the isolation level is READ COMMITTED, other
-- calls may come in between, and both statements take effect when the transaction commits. The
-- update does not depend on the user.
inductive Stmt
  | count (U : UserId)
  | find (A : AddressId)
  | create (row : SavedAddress)
  | clearDefaults (U : UserId) (keep : Option AddressId)
  | createDefault (cleared : List AddressId) (row : SavedAddress)
  | updateDefault (U : UserId) (cleared : List AddressId) (A : AddressId) (data : AddressData)
  | update (A : AddressId) (data : AddressData)
  | delete (A : AddressId)

namespace Store

variable (db : Store)

def count (U : UserId) : Nat :=
  db.addresses.table.count fun _ row => row.userId = U

-- The addresses of a user that have the default flag, except for `keep`.
def defaults (U : UserId) (keep : Option AddressId) : List AddressId :=
  db.addresses.table.findMany (fun A row => row.userId = U ∧ row.isDefault ∧ keep ≠ some A)
    |>.map Prod.fst

def clear (cleared : List AddressId) : Store where
  addresses := db.addresses.updateMany (fun A _ => A ∈ cleared) ({ · with isDefault := false })

def create (row : SavedAddress) : Store where
  addresses := db.addresses.create row

def update (A : AddressId) (f : SavedAddress → SavedAddress) : Except AppError Store :=
  match db.addresses.find? A with
  | none   => .error .recordNotFound
  | some _ => .ok { addresses := db.addresses.modify A f }

def delete (A : AddressId) : Except AppError Store :=
  match db.addresses.find? A with
  | none   => .error .recordNotFound
  | some _ => .ok { addresses := db.addresses.erase A }

end Store

namespace Stmt

@[reducible]
def Res : Stmt → Type
  | count _          => Nat
  | find _           => Option SavedAddress
  | create _         => Unit
  | clearDefaults .. => List AddressId
  | createDefault .. => Unit
  | updateDefault .. => Except AppError Unit
  | update ..        => Except AppError Unit
  | delete _         => Except AppError Unit

def exec : (x : Stmt) → Store → x.Res × Store
  | count U,                        db => (db.count U, db)
  | find A,                         db => (db.addresses.find? A, db)
  | create row,                     db => ((), db.create row)
  | clearDefaults U keep,           db => (db.defaults U keep, db)
  | createDefault cleared row,      db => ((), (db.clear cleared).create row)
  | updateDefault _ cleared A data, db =>
    commit db <| (db.clear cleared).update A fun row => { data.apply row with isDefault := true }
  | update A data,                  db => commit db <| db.update A data.apply
  | delete A,                       db => commit db <| db.delete A

@[reducible]
def sig : Signature where
  Stmt := Stmt
  Res  := Res

end Stmt

abbrev App := Method Stmt.sig AppError

abbrev App.stmt (x : Stmt) : App x.Res :=
  @Method.stmt Stmt.sig AppError x

abbrev App.tx {α : Type} (x : Stmt) (f : x.Res → Except AppError α) : App α :=
  @Method.tx Stmt.sig AppError α x f

open SavedAddresses.App (stmt tx)

namespace SavedAddressesService

-- The coordinates of a client have precedence over those of the geocoder.
def resolveCoords (lat lng : Option ℚ) (geo : Option GeoPoint) : Option ℚ × Option ℚ :=
  match lat, lng with
  | some lat, some lng => (some lat, some lng)
  | _,        _        => (geo.map (·.lat), geo.map (·.lng))

def findOne (U : UserId) (A : AddressId) : App SavedAddress := do
  match ← stmt <| .find A with
  | none     => throw <| .notFound "error.saved_address.not_found"
  | some row =>
    if row.userId ≠ U then
      throw <| .notFound "error.saved_address.not_found"
    pure row

-- The first address of a user is the default. For any other one the flag decides.
def create (U : UserId) (dto : CreateSavedAddressDto) (geo : Option GeoPoint) : App Unit := do
  let count ← stmt <| .count U
  if maxAddressesPerUser ≤ count then
    throw <| .badRequest "error.saved_address.limit"
  let coords := resolveCoords dto.lat dto.lng geo
  let row := {
    userId    := U
    label     := dto.label
    address   := dto.address
    lat       := coords.fst
    lng       := coords.snd
    isDefault := count = 0 ∨ dto.isDefault = some true
  }
  if row.isDefault then
    let cleared ← stmt <| .clearDefaults U none
    stmt <| .createDefault cleared row
  else
    stmt <| .create row

-- A changed address is geocoded, unless the client gives its coordinates.
def updateData (existing : SavedAddress) (dto : UpdateSavedAddressDto) (geo : Option GeoPoint) :
    AddressData :=
  let changed := dto.address.filter (· ≠ existing.address)
  let geo     := if changed.isSome ∧ (dto.lat = none ∨ dto.lng = none) then geo else none
  {
    label   := dto.label
    address := changed
    lat     := (geo.map (some ·.lat)).or dto.lat
    lng     := (geo.map (some ·.lng)).or dto.lng
  }

def moveDefault (U : UserId) (A : AddressId) (data : AddressData) : App Unit := do
  let cleared ← stmt <| .clearDefaults U (some A)
  tx (.updateDefault U cleared A data) id

def update (U : UserId) (A : AddressId) (dto : UpdateSavedAddressDto) (geo : Option GeoPoint) :
    App Unit := do
  let existing ← findOne U A
  let data := updateData existing dto geo
  if dto.isDefault = some true then
    moveDefault U A data
  else
    tx (.update A data) id

def setDefault (U : UserId) (A : AddressId) : App Unit := do
  let _ ← findOne U A
  moveDefault U A .empty

def remove (U : UserId) (A : AddressId) : App Unit := do
  let _ ← findOne U A
  tx (.delete A) id

end SavedAddressesService

-- A call comes with the answer of the geocoder.
inductive Call
  | create (U : UserId) (dto : CreateSavedAddressDto) (geo : Option GeoPoint)
  | update (U : UserId) (A : AddressId) (dto : UpdateSavedAddressDto) (geo : Option GeoPoint)
  | setDefault (U : UserId) (A : AddressId)
  | remove (U : UserId) (A : AddressId)

def Call.prog : Call → Prog Stmt.sig Unit
  | create U dto geo   => (SavedAddressesService.create U dto geo).toCall
  | update U A dto geo => (SavedAddressesService.update U A dto geo).toCall
  | setDefault U A     => (SavedAddressesService.setDefault U A).toCall
  | remove U A         => (SavedAddressesService.remove U A).toCall

def system : System Stmt.sig Store Call where
  exec   := Stmt.exec
  prog _ := Call.prog

end Drovery.SavedAddresses
