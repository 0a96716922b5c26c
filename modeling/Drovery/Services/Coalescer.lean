import Mathlib.Data.Rat.Floor
import Drovery.Data.Table
import Drovery.Objects.Delivery

namespace Drovery

-- A frame that carries no status is a mere position. The rest of the frame is of no concern here.
structure TrackingUpdatePayload (α : Type) where
  deliveryId : DeliveryId
  status     : Option String
  drone      : α
  deriving DecidableEq

-- The frames that wait for the next flush, by their deliveries and in the order in which these have
-- been added.
structure PositionCoalescer (α : Type) where
  buffer     : Table DeliveryId (TrackingUpdatePayload α) := .empty
  timer      : Bool := false
  intervalMs : Nat

namespace PositionCoalescer

variable {α : Type}

-- The interval between two flushes at a rate of `hz` per second.
def new (hz : ℚ) : PositionCoalescer α where
  intervalMs := if 0 < hz then max 1 ⌊1000 / hz + 1 / 2⌋.toNat else 0

def active (c : PositionCoalescer α) : Bool :=
  0 < c.intervalMs

def ensureTimer (c : PositionCoalescer α) : PositionCoalescer α :=
  if c.timer ∨ !c.active then c else { c with timer := true }

-- The operations emit frames.
def submit (payload : TrackingUpdatePayload α) (c : PositionCoalescer α) :
    List (TrackingUpdatePayload α) × PositionCoalescer α :=
  if !c.active ∨ payload.status.isSome then
    ([payload], { c with buffer := c.buffer.erase payload.deliveryId })
  else
    ([], ensureTimer { c with
      buffer := c.buffer.upsert payload.deliveryId payload fun _ => payload })

def flush (c : PositionCoalescer α) : List (TrackingUpdatePayload α) × PositionCoalescer α :=
  (c.buffer.rows.map Prod.snd, { c with buffer := .empty })

def stop (c : PositionCoalescer α) : List (TrackingUpdatePayload α) × PositionCoalescer α :=
  flush { c with timer := false }

inductive Op (α : Type)
  | submit (payload : TrackingUpdatePayload α)
  | flush
  | stop

def Op.exec : Op α → PositionCoalescer α → List (TrackingUpdatePayload α) × PositionCoalescer α
  | .submit payload, c => c.submit payload
  | .flush,          c => c.flush
  | .stop,           c => c.stop

-- All that is emitted while the operations are carried out, and the final state.
def run (c : PositionCoalescer α) :
    List (Op α) → List (TrackingUpdatePayload α) × PositionCoalescer α
  | []        => ([], c)
  | op :: ops =>
    let (emitted, c) := op.exec c
    let (rest, c) := c.run ops
    (emitted ++ rest, c)

end PositionCoalescer

end Drovery
