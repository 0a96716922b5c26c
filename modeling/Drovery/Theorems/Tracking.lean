import Mathlib.Data.List.Induction
import Drovery.Services.Tracking

namespace Drovery.Tracking

open Concurrency

variable {L : Lang}

namespace TrackingPosition

variable {pos data : TrackingPosition L} {f : Field}

theorem ext_get (h : ∀ f, pos.get f = data.get f) : pos = data := by
  obtain ⟨lat, lng, status, eta⟩ := pos
  have h₁ := h .droneLat
  have h₂ := h .droneLng
  have h₃ := h .droneStatus
  have h₄ := h .eta
  simp only [get] at h₁ h₂ h₃ h₄
  rw [h₁, h₂, h₃, h₄]

@[simp]
theorem get_empty : ({} : TrackingPosition L).get f = none := by
  cases f <;> rfl

@[simp]
theorem get_overlay : (pos.overlay data).get f = (data.get f).or (pos.get f) := by
  cases f <;> simp [get, overlay]

@[simp]
theorem empty_overlay : ({} : TrackingPosition L).overlay data = data :=
  ext_get fun f => by simp

@[simp]
theorem overlay_empty : pos.overlay {} = pos :=
  ext_get fun f => by simp

@[simp]
theorem overlay_self : (pos.overlay data).overlay data = pos.overlay data :=
  ext_get fun f => by cases h : data.get f <;> simp [h]

theorem overlay_assoc {data' : TrackingPosition L} :
    (pos.overlay data).overlay data' = pos.overlay (data.overlay data') :=
  ext_get fun f => by simp [Option.or_assoc]

end TrackingPosition

namespace HotHash

variable {h : HotHash} {pos : TrackingPosition L} {D : DeliveryId} {deliveryCreatedAt : L.Date}

@[simp]
theorem empty_hset {fields : HotHash} : ({} : HotHash).hset fields = fields := by
  simp [hset]

@[simp]
theorem parsePosition_empty : ({} : HotHash).parsePosition = ({} : TrackingPosition L) :=
  rfl

-- The text of a date is never empty.
theorem toISOString_ne {d : L.Date} : L.toISOString d ≠ "" := by
  intro h
  have := L.newDate_toISOString d
  simp [h, L.newDate_empty] at this

-- What has been written is read back, and what has not been written is still there.
theorem parsePosition_hset : (h.hset (pos.toFields deliveryCreatedAt)).parsePosition =
    h.parsePosition.overlay pos := by
  obtain ⟨lat, lng, status, eta⟩ := pos
  simp only [parsePosition, hset, TrackingPosition.toFields, TrackingPosition.overlay,
    TrackingPosition.mk.injEq]
  refine ⟨?_, ?_, ?_, ?_⟩
  case refine_1 => cases lat <;> simp [L.number_string]
  case refine_2 => cases lng <;> simp [L.number_string]
  case refine_3 => trivial
  case refine_4 => cases eta <;> simp [L.newDate_toISOString, toISOString_ne]

theorem hset_ne {fields : HotHash} (hh : h ≠ {}) : h.hset fields ≠ {} := by
  intro he
  refine hh ?_
  obtain ⟨_, _, _, _, _⟩ := h
  simp_all [hset]

theorem hset_toFields_ne : h.hset (pos.toFields deliveryCreatedAt) ≠ {} := by
  simp [hset, TrackingPosition.toFields]

end HotHash

-- What a tracker is for: it knows the latest value of each field of the deliveries it has heard of.
abbrev Board (L : Lang) := DeliveryId → Option (TrackingPosition L)

namespace Board

def update (b : Board L) (D : DeliveryId) (data : TrackingPosition L) : Board L :=
  Function.update b D <| some <| ((b D).getD {}).overlay data

def read (b : Board L) (D : DeliveryId) : Except AppError (TrackingPosition L) :=
  match b D with
  | none     => .error <| .notFound "error.delivery.tracking.not_found"
  | some pos => .ok pos

-- The operations of a tracker that has nothing to check.
def run (b : Board L) (op : Op L) : Option (Except AppError (TrackingPosition L)) × Board L :=
  match op with
  | .updateTracking D _ data _ => (none, b.update D data)
  | .drainCheckpoints ..       => (none, b)
  | .getTracking D             => (some <| b.read D, b)

def answers : List (Op L) → Board L → List (Except AppError (TrackingPosition L))
  | [],        _ => []
  | op :: ops, b => (b.run op).fst.toList ++ answers ops (b.run op).snd

end Board

-- What a row and a hash tell about a delivery: the fields of the row, below those of the hash.
def merge (row : Option (DeliveryTracking L)) (h : HotHash) : Option (TrackingPosition L) :=
  match row with
  | none     => if h = {} then none else some h.parsePosition
  | some row => some <| row.overlay h.parsePosition

-- The row after an upsert.
def upserted (row : Option (DeliveryTracking L)) (deliveryCreatedAt : L.Date)
    (pos : TrackingPosition L) : DeliveryTracking L :=
  row.elim ⟨pos, deliveryCreatedAt⟩ fun row => { row with toTrackingPosition := row.overlay pos }

section

variable {row : Option (DeliveryTracking L)} {h : HotHash} {deliveryCreatedAt : L.Date}
variable {pos : TrackingPosition L}

theorem merge_hset : merge row (h.hset (pos.toFields deliveryCreatedAt)) =
    some (((merge row h).getD {}).overlay pos) := by
  cases row
  case some => simp [merge, HotHash.parsePosition_hset, TrackingPosition.overlay_assoc]
  case none =>
    rw [merge, if_neg HotHash.hset_toFields_ne, HotHash.parsePosition_hset]
    by_cases hh : h = {} <;> simp [merge, hh]

theorem merge_upserted : merge (some (upserted row deliveryCreatedAt pos)) {} =
    some (((merge row {}).getD {}).overlay pos) := by
  cases row <;> simp [merge, upserted]

theorem merge_checkpoint (hh : h ≠ {}) :
    merge (some (upserted row deliveryCreatedAt h.parsePosition)) h = merge row h := by
  cases row
  case some => simp [merge, upserted]
  case none =>
    have := @TrackingPosition.overlay_self L {} h.parsePosition
    simp_all [merge, upserted]

end

namespace Store

variable {db : Store L} {D D' : DeliveryId} {deliveryCreatedAt : L.Date} {pos : TrackingPosition L}
variable {f : Field}

def board (db : Store L) : Board L := fun D =>
  merge (db.rows.find? D) (db.hgetall D)

@[simp]
theorem hgetall_sadd : (db.sadd D).hgetall D' = db.hgetall D' :=
  rfl

@[simp]
theorem hgetall_spop {order : List DeliveryId} {count : Nat} :
    (db.spop order count).hgetall D' = db.hgetall D' :=
  rfl

@[simp]
theorem hgetall_upsert : (db.upsert D deliveryCreatedAt pos).hgetall D' = db.hgetall D' :=
  rfl

theorem hgetall_hset {fields : HotHash} : (db.hset D fields).hgetall D' =
    if D' = D then (db.hgetall D).hset fields else db.hgetall D' := by
  unfold hgetall
  rw [hset, Table.find?_upsert]
  split
  case isFalse => rfl
  case isTrue  => cases db.hot.find? D <;> simp

theorem find?_upsert : (db.upsert D deliveryCreatedAt pos).rows.find? D' =
    if D' = D then some (upserted (db.rows.find? D) deliveryCreatedAt pos)
    else db.rows.find? D' :=
  Table.find?_upsert

@[simp]
theorem board_sadd : (db.sadd D).board = db.board :=
  rfl

-- A write to the hot store.
theorem board_hset : (db.hset D (pos.toFields deliveryCreatedAt)).board = db.board.update D pos := by
  funext D'
  have hr : (db.hset D (pos.toFields deliveryCreatedAt)).rows = db.rows := rfl
  by_cases h : D' = D
  case pos => subst h; simp [board, Board.update, hr, hgetall_hset, merge_hset]
  case neg => simp [board, Board.update, hr, hgetall_hset, h]

-- A write to the database, which does not reach the readers if there is something in the hot store.
theorem board_upsert (h : db.hgetall D = {}) :
    (db.upsert D deliveryCreatedAt pos).board = db.board.update D pos := by
  funext D'
  by_cases hD : D' = D
  case pos => subst hD; simp [board, Board.update, find?_upsert, h, merge_upserted]
  case neg => simp [board, Board.update, find?_upsert, hD]

-- A checkpoint tells nothing new.
theorem board_checkpoint (h : db.hgetall D ≠ {}) :
    (db.upsert D deliveryCreatedAt (db.hgetall D).parsePosition).board = db.board := by
  funext D'
  by_cases hD : D' = D
  case pos => subst hD; simp [board, find?_upsert, merge_checkpoint h]
  case neg => simp [board, find?_upsert, hD]

-- The value of a field in the hot store.
def hotField (db : Store L) (D : DeliveryId) (f : Field) : Option (f.Value L) :=
  (db.hgetall D).parsePosition.get f

-- The value of a field in the database.
def rowField (db : Store L) (D : DeliveryId) (f : Field) : Option (f.Value L) :=
  (db.rows.find? D).elim none (·.get f)

-- The value of a field as it can be read.
def field (db : Store L) (D : DeliveryId) (f : Field) : Option (f.Value L) :=
  (db.board D).elim none (·.get f)

theorem field_eq : db.field D f = (db.hotField D f).or (db.rowField D f) := by
  unfold field hotField rowField board
  cases db.rows.find? D
  case some => simp [merge]
  case none => by_cases h : db.hgetall D = {} <;> simp [merge, h]

@[simp]
theorem hotField_sadd : (db.sadd D).hotField D' f = db.hotField D' f :=
  rfl

@[simp]
theorem hotField_upsert : (db.upsert D deliveryCreatedAt pos).hotField D' f = db.hotField D' f :=
  rfl

@[simp]
theorem rowField_sadd : (db.sadd D).rowField D' f = db.rowField D' f :=
  rfl

@[simp]
theorem rowField_hset {fields : HotHash} : (db.hset D fields).rowField D' f = db.rowField D' f :=
  rfl

theorem hotField_hset : (db.hset D (pos.toFields deliveryCreatedAt)).hotField D' f =
    if D' = D then (pos.get f).or (db.hotField D' f) else db.hotField D' f := by
  unfold hotField
  rw [hgetall_hset]
  split
  case isFalse   => rfl
  case isTrue he => rw [HotHash.parsePosition_hset, TrackingPosition.get_overlay, he]

theorem rowField_upsert : (db.upsert D deliveryCreatedAt pos).rowField D' f =
    if D' = D then (pos.get f).or (db.rowField D' f) else db.rowField D' f := by
  unfold rowField
  rw [find?_upsert]
  split
  case isFalse   => rfl
  case isTrue he => subst he; cases db.rows.find? D' <;> simp [upserted]

-- The two stores answer all reads alike, and they have the same hashes.
def Same (db db' : Store L) : Prop :=
  db'.hgetall = db.hgetall ∧ db'.board = db.board

theorem Same.trans {db₁ db₂ db₃ : Store L} (h₁ : Same db₁ db₂) (h₂ : Same db₂ db₃) : Same db₁ db₃ :=
  ⟨h₂.left.trans h₁.left, h₂.right.trans h₁.right⟩

end Store

namespace TrackingHotStore

variable {db : Store L} {D : DeliveryId} {faults : Faults}

theorem checkpoint_same :
    db.Same ((checkpoint D faults : App L Bool).eval Stmt.exec db).snd := by
  unfold checkpoint
  cases faults.hgetall D
  case rolledBack => exact ⟨rfl, rfl⟩
  case lost       => exact ⟨rfl, rfl⟩
  case committed  =>
    simp only [Method.attempt]
    rw [Method.eval_stmt_bind]
    simp only [Stmt.exec]
    split
    case h_1 => exact ⟨rfl, rfl⟩
    case h_2 => exact ⟨rfl, rfl⟩
    case h_3 v _ hv =>
      have hne : db.hgetall D ≠ {} := fun he => by simp [he] at hv
      have done {at'} : db.Same (db.upsert D at' (db.hgetall D).parsePosition) :=
        ⟨rfl, Store.board_checkpoint hne⟩
      split
      case h_1     => exact ⟨rfl, rfl⟩
      case h_2 at' =>
        cases faults.upsert D
        case committed  => exact done
        case rolledBack => exact ⟨rfl, rfl⟩
        case lost       => exact done

-- The parts of a checkpoint run.
inductive Part (faults : Faults) : (α : Type) → App L α → Prop
  | spop {order : List DeliveryId} {count : Nat} : Part faults _ (App.stmt <| .spop order count)
  | sadd {D : DeliveryId}                        : Part faults _ (App.stmt <| .sadd D)
  | checkpoint {D : DeliveryId}                  : Part faults _ (checkpoint D faults)

theorem drain_built {ids : List DeliveryId} {written : Nat} :
    Method.Built (Part (L := L) faults) (drain faults ids written) := by
  induction ids generalizing written
  case nil     => exact .pure
  case cons ih =>
    refine .bind (.handle (.block .checkpoint) fun _ => ?_) fun _ => ih
    exact .bind (.safe <| .attempt <| .block .sadd) fun _ => .pure

-- A checkpoint run does not change what can be read, even if some of its commands fail.
theorem drainCheckpoints_same {enabled : Bool} {CHECKPOINT_BATCH : Nat} {order : List DeliveryId} :
    db.Same ((drainCheckpoints enabled CHECKPOINT_BATCH order faults : App L Nat).eval
      Stmt.exec db).snd := by
  unfold drainCheckpoints
  split
  case isFalse => exact ⟨rfl, rfl⟩
  case isTrue  =>
    refine Method.eval_built (I := db.Same) (.bind (.attempt <| .block .spop) fun _ => drain_built)
      (fun hb h => ?_) ⟨rfl, rfl⟩
    cases hb
    case spop       => exact h.trans ⟨rfl, rfl⟩
    case sadd       => exact h.trans ⟨rfl, rfl⟩
    case checkpoint => exact h.trans checkpoint_same

end TrackingHotStore

namespace TrackingService

variable {db : Store L} {enabled : Bool} {D : DeliveryId} {deliveryCreatedAt : L.Date}
variable {data : TrackingPosition L} {redis : Outcome AppError}

-- Either the hot store is enabled, or there is nothing in it.
def Consistent (enabled : Bool) (db : Store L) : Prop :=
  enabled = false → ∀ D, db.hgetall D = {}

-- What a read finds in the hot store.
def hot? (enabled : Bool) (h : HotHash) : Option (TrackingPosition L) :=
  if enabled = false ∨ h = {} then none else some h.parsePosition

theorem eval_readPosition :
    (TrackingHotStore.readPosition enabled D .committed).eval Stmt.exec db =
      (.ok <| hot? enabled <| db.hgetall D, db) := by
  unfold TrackingHotStore.readPosition hot?
  cases enabled
  case false => rfl
  case true  =>
    simp only [Bool.true_eq_false, false_or, if_true]
    rfl

theorem eval_getTracking (h : Consistent enabled db) :
    ((getTracking enabled D .committed).eval Stmt.exec db).fst.map (·.toTrackingPosition) =
      db.board.read D ∧ ((getTracking enabled D .committed).eval Stmt.exec db).snd = db := by
  have hb : db.board D = merge (db.rows.find? D) (db.hgetall D) := rfl
  have he : enabled = false → db.hgetall D = {} := fun he => h he D
  rw [getTracking, Method.eval_stmt_bind, Method.eval_bind_of_ok eval_readPosition, Board.read, hb]
  simp only [Stmt.exec]
  generalize db.hgetall D = h at he ⊢
  generalize db.rows.find? D = row
  unfold hot?
  by_cases hh : h = {}
  case pos => cases row <;> simp [merge, hh] <;> rfl
  case neg =>
    have : enabled ≠ false := fun hf => hh <| he hf
    cases row <;> simp [merge, hh, this] <;> rfl

theorem eval_updateTracking_off :
    ((updateTracking false D deliveryCreatedAt data redis .committed).eval Stmt.exec db).snd =
      db.upsert D deliveryCreatedAt data :=
  rfl

-- A write that fails may still have reached the hot store.
theorem eval_updateTracking_on :
    ((updateTracking true D deliveryCreatedAt data redis .committed).eval Stmt.exec db).snd =
      let hot := (db.hset D <| data.toFields deliveryCreatedAt).sadd D
      match redis with
      | .committed    => hot
      | .rolledBack _ => db.upsert D deliveryCreatedAt data
      | .lost _       => hot.upsert D deliveryCreatedAt data := by
  cases redis <;> rfl

end TrackingService

namespace Op

open TrackingService

variable {db : Store L} {enabled : Bool} {CHECKPOINT_BATCH : Nat} {ops : List (Op L)} {op : Op L}

-- The operation is not a write that the hot store fails.
def Reliable : Op L → Prop
  | updateTracking _ _ _ redis => redis = .committed
  | drainCheckpoints ..        => True
  | getTracking _              => True

-- Each operation does to the store what it does to a plain tracker.
theorem run_board (h : Consistent enabled db) (hop : op.Reliable) :
    (op.run enabled CHECKPOINT_BATCH db).fst.map (Except.map (·.toTrackingPosition)) =
      (db.board.run op).fst ∧
    (op.run enabled CHECKPOINT_BATCH db).snd.board = (db.board.run op).snd ∧
    Consistent enabled (op.run enabled CHECKPOINT_BATCH db).snd := by
  cases op
  case updateTracking D _ _ _ =>
    obtain rfl := hop
    cases enabled
    case false =>
      rw [run, eval_updateTracking_off]
      exact ⟨rfl, Store.board_upsert <| h rfl D, h⟩
    case true =>
      rw [run, eval_updateTracking_on]
      simp only [Store.board_sadd, Store.board_hset]
      exact ⟨rfl, rfl, nofun⟩
  case drainCheckpoints =>
    obtain ⟨hh, hb⟩ := TrackingHotStore.drainCheckpoints_same
    exact ⟨rfl, hb, fun he D => (congrFun hh D).trans <| h he D⟩
  case getTracking D =>
    obtain ⟨hr, hd⟩ := eval_getTracking (D := D) h
    simp only [run, hd]
    exact ⟨congrArg some hr, rfl, h⟩

theorem answers_board (h : Consistent enabled db) (hops : ∀ op ∈ ops, op.Reliable) :
    (answers enabled CHECKPOINT_BATCH ops db).map (Except.map (·.toTrackingPosition)) =
      db.board.answers ops := by
  induction ops generalizing db
  case nil => rfl
  case cons op ops ih =>
    obtain ⟨hop, hops⟩ := List.forall_mem_cons.mp hops
    obtain ⟨hr, hb, hc⟩ := @run_board _ _ _ CHECKPOINT_BATCH _ h hop
    rw [answers, Board.answers, ← hr, ← hb, List.map_append, ih hc hops]
    cases (op.run enabled CHECKPOINT_BATCH db).fst <;> rfl

end Op

-- It cannot be observed whether the hot store is enabled, as long as it does not fail.
theorem hot_store_unobservable (CHECKPOINT_BATCH : Nat)
    (rows : Table DeliveryId (DeliveryTracking L)) (ops : List (Op L))
    (h : ∀ op ∈ ops, op.Reliable) :
    (Op.answers true CHECKPOINT_BATCH ops (.cold rows)).map (Except.map (·.toTrackingPosition)) =
      (Op.answers false CHECKPOINT_BATCH ops (.cold rows)).map
        (Except.map (·.toTrackingPosition)) := by
  have cold {enabled} : TrackingService.Consistent enabled (.cold rows) := fun _ _ => rfl
  rw [Op.answers_board cold h, Op.answers_board cold h]

-- The digits, and the first ten seconds of a year.
def Lang.digits : Lang where
  Number              := Fin 10
  Date                := Fin 10
  string n            := toString n.val
  number v            := (List.finRange 10).find? (toString ·.val = v)
  toISOString d       := "2026-01-01T00:00:0" ++ toString d.val ++ ".000Z"
  newDate v           := (List.finRange 10).find?
    fun d => "2026-01-01T00:00:0" ++ toString d.val ++ ".000Z" = v
  number_string       := by decide
  newDate_toISOString := by decide
  newDate_empty       := by decide

-- A delivery without a row, a checkpoint between two writes, and a delivery nobody has heard of.
def checkpointOps : List (Op .digits) :=
  [.updateTracking 0 (0 : Fin 10) { droneLat := some (5 : Fin 10) } .committed,
    .getTracking 0,
    .drainCheckpoints [] {},
    .updateTracking 0 (0 : Fin 10) { droneStatus := some "", eta := some (9 : Fin 10) } .committed,
    .getTracking 0,
    .getTracking 1]

theorem hot_store_unobservable_checkpoint : (∀ op ∈ checkpointOps, op.Reliable) ∧
    (Op.answers true 500 checkpointOps (.cold .empty)).map (Except.map (·.toTrackingPosition)) =
      (Op.answers false 500 checkpointOps (.cold .empty)).map
        (Except.map (·.toTrackingPosition)) := by
  have h : ∀ op ∈ checkpointOps, op.Reliable := by simp [checkpointOps, Op.Reliable]
  exact ⟨h, hot_store_unobservable 500 .empty _ h⟩

namespace Op

open TrackingService

-- The value that the operation gives to a field of the delivery `D`.
def sets (D : DeliveryId) (f : Field) : Op L → Option (f.Value L)
  | updateTracking D' _ data _ => if D' = D then data.get f else none
  | _                          => none

-- The value that the operation gives to a field in the hot store.
def setsHot (D : DeliveryId) (f : Field) : Op L → Option (f.Value L)
  | updateTracking D' _ data redis => if D' = D ∧ redis.applied then data.get f else none
  | _                              => none

-- The value that the latest of the operations that set a field gave to it.
def latest (D : DeliveryId) (f : Field) (ops : List (Op L)) : Option (f.Value L) :=
  ops.reverse.findSome? (sets D f)

-- The value that the latest of the operations that set a field in the hot store gave to it.
def latestHot (D : DeliveryId) (f : Field) (ops : List (Op L)) : Option (f.Value L) :=
  ops.reverse.findSome? (setsHot D f)

variable {db : Store L} {CHECKPOINT_BATCH : Nat} {ops : List (Op L)} {op : Op L} {D : DeliveryId}
variable {f : Field}

-- What a single operation does to a field in the hot store, and to what can be read of it.
theorem run_field :
    let db' := (op.run true CHECKPOINT_BATCH db).snd
    db'.hotField D f = (op.setsHot D f).or (db.hotField D f) ∧
      db'.field D f = (db'.hotField D f).or ((op.sets D f).or (db.field D f)) := by
  have still {db' : Store L} (h : db.Same db') : db'.hotField D f = db.hotField D f ∧
      db'.field D f = (db'.hotField D f).or (db.field D f) := by
    have hh : db'.hotField D f = db.hotField D f := by rw [Store.hotField, h.left, Store.hotField]
    refine ⟨hh, ?_⟩
    rw [hh, Store.field, h.right, ← Store.field, Store.field_eq]
    cases db.hotField D f <;> simp
  cases op
  case drainCheckpoints =>
    simpa [sets, setsHot, run] using still TrackingHotStore.drainCheckpoints_same
  case getTracking D' =>
    have hd := (@eval_getTracking L db true D' nofun).right
    simpa [sets, setsHot, run, hd] using still ⟨rfl, rfl⟩
  case updateTracking D' at' data redis =>
    simp only [run, eval_updateTracking_on]
    by_cases hD : D = D'
    case neg =>
      have hD' : D' ≠ D := Ne.symm hD
      cases redis <;> cases hf : db.hotField D f <;> simp [sets, setsHot, hD, hD', Store.field_eq,
        Store.hotField_hset, Store.rowField_upsert, hf]
    case pos =>
      subst hD
      cases redis <;> cases hd : data.get f <;> cases hf : db.hotField D f <;> simp [sets, setsHot,
        Outcome.applied, Store.field_eq, Store.hotField_hset, Store.rowField_upsert, hd, hf]

theorem latest_append : latest D f (ops ++ [op]) = (op.sets D f).or (latest D f ops) := by
  unfold latest
  rw [List.reverse_append]
  exact (@List.findSome?_append _ _ _ [op] _) |>.trans <| by simp

theorem latestHot_append : latestHot D f (ops ++ [op]) = (op.setsHot D f).or (latestHot D f ops) := by
  unfold latestHot
  rw [List.reverse_append]
  exact (@List.findSome?_append _ _ _ [op] _) |>.trans <| by simp

-- What can be read of a field is its latest value in the hot store. Only if there is none, it is
-- the latest value at all.
theorem runAll_field {rows : Table DeliveryId (DeliveryTracking L)} :
    let db := runAll true CHECKPOINT_BATCH ops (.cold rows)
    db.hotField D f = latestHot D f ops ∧
      db.field D f = (latestHot D f ops).or ((latest D f ops).or ((Store.cold rows).field D f)) := by
  induction ops using List.reverseRecOn
  case nil => exact ⟨by cases f <;> rfl, rfl⟩
  case append_singleton ops op ih =>
    obtain ⟨ihh, ihf⟩ := ih
    obtain ⟨hh, hf⟩ := 
      @run_field L (runAll true CHECKPOINT_BATCH ops (.cold rows)) CHECKPOINT_BATCH op D f
    simp only [runAll, List.foldl_append, List.foldl_cons, List.foldl_nil] at ihh ihf hh hf ⊢
    rw [ihh] at hh
    rw [hh, ihf] at hf
    rw [hh, hf, latest_append, latestHot_append]
    refine ⟨rfl, ?_⟩
    cases op.setsHot D f <;> cases latestHot D f ops <;> simp [Option.or_assoc]

end Op

-- A read returns the latest value of a field if and only if the hot store does not hold another one:
-- the latest write of the field has reached the hot store, or no write of it has, or the last one
-- that has agrees with it.
theorem reads_latest_iff (CHECKPOINT_BATCH : Nat) (rows : Table DeliveryId (DeliveryTracking L))
    (ops : List (Op L)) (D : DeliveryId) (f : Field) (v : f.Value L)
    (h : Op.latest D f ops = some v) :
    (∃ view, ((TrackingService.getTracking true D .committed).eval Stmt.exec
      (Op.runAll true CHECKPOINT_BATCH ops (.cold rows))).fst = .ok view ∧ view.get f = some v) ↔
    Op.latestHot D f ops = none ∨ Op.latestHot D f ops = some v := by
  generalize hdb : Op.runAll true CHECKPOINT_BATCH ops (.cold rows) = db
  have hf : db.field D f = (Op.latestHot D f ops).or (some v) := by
    rw [← hdb, Op.runAll_field.right, h, Option.some_or]
  have hr := (@TrackingService.eval_getTracking L db true D nofun).left
  have hv : (∃ view, ((TrackingService.getTracking true D .committed).eval Stmt.exec db).fst =
      .ok view ∧ view.get f = some v) ↔ db.field D f = some v := by
    unfold Store.field
    unfold Board.read at hr
    cases hb : db.board D <;>
      cases he : ((TrackingService.getTracking true D .committed).eval Stmt.exec db).fst <;>
      simp_all [Except.map]
  rw [hv, hf]
  cases Op.latestHot D f ops <;> simp

-- The first write reaches the hot store, the second one has to be written to the database instead.
def fallbackOps : List (Op .digits) :=
  [.updateTracking 0 (0 : Fin 10) { droneStatus := some "In transit" } .committed,
    .updateTracking 0 (0 : Fin 10) { droneStatus := some "Delivered" } (.rolledBack .connectionLost)]

theorem reads_latest_missed :
    Op.latest 0 .droneStatus fallbackOps = some "Delivered" ∧
      ((TrackingService.getTracking true 0 .committed).eval Stmt.exec
        (Op.runAll true 500 fallbackOps (.cold .empty))).fst.map (·.droneStatus) =
          .ok (some "In transit") := by
  decide

theorem reads_latest_iff_fallback :
    Op.latest 0 .droneStatus fallbackOps = some "Delivered" ∧
    ((∃ view, ((TrackingService.getTracking true 0 .committed).eval Stmt.exec
      (Op.runAll true 500 fallbackOps (.cold .empty))).fst = .ok view ∧
        view.get .droneStatus = some "Delivered") ↔
    Op.latestHot 0 .droneStatus fallbackOps = none ∨
      Op.latestHot 0 .droneStatus fallbackOps = some "Delivered") :=
  ⟨by decide, reads_latest_iff 500 .empty fallbackOps 0 .droneStatus "Delivered" (by decide)⟩

end Drovery.Tracking
