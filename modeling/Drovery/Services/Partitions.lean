import Mathlib.Data.List.Dedup
import Drovery.Data.Decimal
import Drovery.Data.Partition
import Drovery.Objects.Recurrence

namespace Drovery.Partitions

open Calendar (monthStart monthOfDay msPerDay)
open Decimal (pad value IsNumeral)

-- The number of a month stands for the date of its first day.
def monthOf (t : Instant) : Int :=
  monthOfDay (t / msPerDay)

-- The first instant of a month.
def start (m : Int) : Instant :=
  monthStart m * msPerDay

-- A row and its partition key.
structure Row where
  id  : Nat
  key : Instant
  deriving DecidableEq

-- A partitioned table. The other relations of the schema are tables that are not attached to it.
structure Store where
  table   : String
  hasRefs : Bool
  parts   : Partitioned String Row.key
  others  : List String
  next    : Nat

-- The order in which a query without `ORDER BY` returns its rows.
structure Scan (α : Type) where
  apply : List α → List α
  perm  : ∀ l, (apply l).Perm l

-- The year is displayed by its number in its era.
def childName (table : String) (m : Int) : String :=
  let year  := pad 4 (displayYear (m / 12)).toNat
  let month := pad 2 (m % 12 + 1).toNat
  .ofList <| table.toList ++ ['_', 'y'] ++ year ++ 'm' :: month

-- The month of a leaf whose name consists of that of the table, a year of four digits and a month
-- of two digits.
def childMonth (table child : String) : Option Int :=
  let rest  := child.toList.drop (table.toList.length + 2)
  let year  := rest.take 4
  let month := rest.drop 5
  if child.toList = table.toList ++ ['_', 'y'] ++ year ++ 'm' :: month ∧ year.length = 4 ∧
      month.length = 2 ∧ IsNumeral year ∧ IsNumeral month then
    some (12 * value year + (value month - 1))
  else
    none

def inMonth (m : Int) (row : Row) : Bool :=
  start m ≤ row.key ∧ row.key < start (m + 1)

namespace Store

def rows (db : Store) : List Row :=
  db.parts.rows

def insert (db : Store) (t : Instant) : Store :=
  { db with parts := db.parts.insert ⟨db.next, t⟩, next := db.next + 1 }

-- Creates the leaf of a month if there is no relation of its name, and moves the rows of the month
-- from the default partition to it before it is attached.
def attachMonth (db : Store) (m : Int) : Except AttachError (Bool × Store) :=
  let child := childName db.table m
  if child ∈ db.parts.names ∨ child ∈ db.others then
    .ok (false, db)
  else
    let moved := db.parts.default.filter (inMonth m)
    let parts := db.parts.deleteDefault (inMonth m)
    (parts.attach ⟨child, start m, start (m + 1), moved⟩).map fun parts => (true, { db with parts })

def attachMonths (db : Store) : List Int → Except AttachError (Nat × Store)
  | []      => .ok (0, db)
  | m :: ms => do
    let (attached, db) ← db.attachMonth m
    let (created, db)  ← db.attachMonths ms
    return (if attached then created + 1 else created, db)

def drainDefault (db : Store) (order : Scan Int) : Except AttachError (Nat × Store) :=
  db.attachMonths <| order.apply (db.parts.default.map (monthOf ·.key)).dedup

-- Rows that are referenced by others are deleted before their leaf is detached and dropped.
def dropLeaves (db : Store) (cutoff : Int) : List String → Nat × Store
  | []            => (0, db)
  | child :: rest =>
    match childMonth db.table child with
    | none   => db.dropLeaves cutoff rest
    | some m =>
      if m < cutoff then
        let parts := if db.hasRefs then db.parts.delete (inMonth m) else db.parts
        let (dropped, db) := { db with parts := parts.drop child }.dropLeaves cutoff rest
        (dropped + 1, db)
      else
        db.dropLeaves cutoff rest

-- The first month that is retained.
def cutoff (now : Instant) (retainMonths : Option Int) : Option Int :=
  retainMonths.bind fun retain => if retain ≤ 0 then none else some (monthOf now - retain)

def dropOld (db : Store) (now : Instant) (retainMonths : Option Int) (order : Scan String) :
    Nat × Store :=
  match cutoff now retainMonths with
  | none        => (0, db)
  | some cutoff => db.dropLeaves cutoff (order.apply db.parts.names)

end Store

-- The order of the rows that a query returns is not determined.
inductive Op
  | insert (t : Instant)
  | attachMonth (m : Int)
  | drainDefault (order : Scan Int)
  | dropOld (now : Instant) (retainMonths : Option Int) (order : Scan String)

namespace Store

def exec (db : Store) : Op → Except AttachError Store
  | .insert t                       => .ok (db.insert t)
  | .attachMonth m                  => (db.attachMonth m).map (·.snd)
  | .drainDefault order             => (db.drainDefault order).map (·.snd)
  | .dropOld now retainMonths order => .ok (db.dropOld now retainMonths order).snd

-- A statement that fails is rolled back.
def step (db : Store) (op : Op) : Store :=
  match db.exec op with
  | .ok db'  => db'
  | .error _ => db

def run (db : Store) (ops : List Op) : Store :=
  ops.foldl step db

-- A new table, in a schema with other relations.
def new (table : String) (hasRefs : Bool) (others : List String) : Store where
  table   := table
  hasRefs := hasRefs
  parts   := .empty
  others  := others
  next    := 0

end Store

end Drovery.Partitions
