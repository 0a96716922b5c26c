import Drovery.Concurrency.Duties
import Drovery.Concurrency.Local
import Drovery.Theorems.Tracking

namespace Drovery.Tracking

open Concurrency TrackingHotStore

variable {L : Lang} {CHECKPOINT_BATCH : Nat}

abbrev Log (L : Lang) := List (Entry (Stmt.sig L) (Store L) (Call L))

namespace TrackingPosition

-- Every field of `data` is present in `pos`, with the same value.
def Covers (pos data : TrackingPosition L) : Prop :=
  ∀ f v, data.get f = some v → pos.get f = some v

-- No field has two different values.
def Agrees (pos data : TrackingPosition L) : Prop :=
  ∀ f v, data.get f = some v → pos.get f = none ∨ pos.get f = some v

variable {pos data data' : TrackingPosition L}

theorem Covers.refl : pos.Covers pos :=
  fun _ _ h => h

theorem Covers.overlay (h : data.Covers data') : (pos.overlay data).Covers data' :=
  fun f v hf => by rw [get_overlay, h f v hf, Option.some_or]

theorem Agrees.overlay (h : data.Agrees data') (hp : pos.Covers data') :
    (pos.overlay data).Covers data' := by
  intro f v hf
  rw [get_overlay]
  obtain hd | hd := h f v hf
  case inl => rw [hd, Option.none_or, hp f v hf]
  case inr => rw [hd, Option.some_or]

end TrackingPosition

-- The time of creation that a checkpoint needs.
def HotHash.createdAt? (h : HotHash) : Option L.Date :=
  h.deliveryCreatedAt.bind fun v => if v = "" then none else L.newDate v

-- What a checkpoint run has still to do: to read a hash that it has drawn, and to write a position
-- that it has read.
inductive Duty (L : Lang)
  | drawn (D : DeliveryId)
  | read (D : DeliveryId) (pos : TrackingPosition L)

def duties (L : Lang) : Duties (Stmt.sig L) (Store L) (Duty L) where
  binds db i x :=
    match i, x with
    | .drawn D,    .spop order count => D ∈ db.drawn order count
    | .read D pos, .hgetall D'       =>
      D' = D ∧ ((db.hgetall D).createdAt? : Option L.Date).isSome ∧ pos = (db.hgetall D).parsePosition
    | _,           _                 => False
  relieves _ i x :=
    match i, x with
    | .drawn D,  .hgetall D'   => D' = D
    | .read D _, .upsert D' .. => D' = D
    | _,         _             => False

-- The thread `t` is going to write a checkpoint that is up to date.
def Held (w : World (Stmt.sig L) (Store L) (Call L)) (t : Nat) (D : DeliveryId) : Prop :=
  (duties L).Owes (.drawn D) (w.own t) ∨
    ∃ pos, (duties L).Owes (.read D pos) (w.own t) ∧ pos.Covers (w.db.hgetall D).parsePosition

namespace Call

-- The call is not affected by a failure.
def Reliable : Call L → Prop
  | writePosition _ _ _ redis _ => redis = .committed
  | drainCheckpoints _ faults   => faults = {}
  | expire _                    => True

-- The call is one of the program.
def Issued : Call L → Prop
  | expire _ => False
  | _        => True

end Call

-- The runs without a failure in which no checkpoint is overwritten by an older one: what a checkpoint
-- run writes does not contradict the hash, or a newer checkpoint is still to be written.
def checkpointsCurrent : Policy (Stmt.sig L) (Store L) (Call L) where
  spawn        := Call.Reliable
  crash        := False
  step s t _ x := ∀ D deliveryCreatedAt pos, x = .upsert D deliveryCreatedAt pos →
    pos.Agrees (s.db.hgetall D).parsePosition ∨ D ∈ s.db.dirty ∨ ∃ t' ≠ t, Held s.world t' D

section

variable {es : Log L} {t : Nat} {c : Call L} {D : DeliveryId} {ids : List DeliveryId}

-- A write sets the fields of a position, and the only position that a checkpoint run has read is the
-- one it writes.
def Fresh (x : Stmt L) (es : Log L) : Prop :=
  match x with
  | .multi _ fields => ∃ (pos : TrackingPosition L) (at' : L.Date), fields = pos.toFields at'
  | .upsert D _ pos => ∀ pos', (duties L).Owes (.read D pos') es → pos' = pos
  | _               => True

-- A checkpoint run has nothing to do but to read the given hashes.
def Within (ids : List DeliveryId) (es : Log L) : Prop :=
  ∀ i, (duties L).Owes i es → ∃ D ∈ ids, i = .drawn D

-- After it has read the hash of `D`, a run may have to write what it has read.
theorem owes_hgetall {db : Store L} {i : Duty L} (h : Within (D :: ids) es)
    (ho : (duties L).Owes i (⟨t, c, .hgetall D, db⟩ :: es)) :
    (∃ D' ∈ ids, i = .drawn D') ∨
      ((db.hgetall D).createdAt? : Option L.Date).isSome ∧
        i = .read D (db.hgetall D).parsePosition := by
  obtain hb | ⟨hr, ho⟩ := ho
  case inl =>
    cases i
    case drawn => exact hb.elim
    case read  =>
      obtain ⟨rfl, hs, rfl⟩ := hb
      exact .inr ⟨hs, rfl⟩
  case inr =>
    obtain ⟨D', hD, rfl⟩ := h i ho
    cases List.mem_cons.mp hD
    case inl he => exact (hr he.symm).elim
    case inr hm => exact .inl ⟨D', hm, rfl⟩

theorem checkpoint_follows (h : Within (D :: ids) es) :
    (checkpoint D {} : App L Bool).Follows (system L CHECKPOINT_BATCH) t c Fresh
      (fun _ => Within ids) (fun _ => Within ids) es := by
  unfold checkpoint
  refine Method.follows_stmt_bind.mpr ⟨trivial, fun db => ?_⟩
  have skip (hn : ((db.hgetall D).createdAt? : Option L.Date) = none) :
      Within ids (⟨t, c, .hgetall D, db⟩ :: es) := by
    intro i ho
    exact (owes_hgetall h ho).resolve_right fun hr => by simp [hn] at hr
  simp only [system, Stmt.exec]
  split
  case h_1 hv => exact skip <| by simp [HotHash.createdAt?, hv]
  case h_2 hv => exact skip <| by simp [HotHash.createdAt?, hv]
  case h_3 v hne hv =>
    split
    case h_1 hd   => exact skip <| by simp [HotHash.createdAt?, hv, hd]
    case h_2 at' hd =>
      refine Method.follows_stmt_bind.mpr ⟨fun pos' ho => ?_, fun db' i ho => ?_⟩
      case refine_1 =>
        obtain ⟨_, _, hi⟩ | ⟨_, hi⟩ := owes_hgetall h ho
        case inl => cases hi
        case inr => exact (Duty.read.inj hi).right
      case refine_2 =>
        obtain hb | ⟨hr, ho⟩ := ho
        case inl => cases i <;> exact hb.elim
        case inr =>
          refine (owes_hgetall h ho).resolve_right ?_
          rintro ⟨_, rfl⟩
          exact hr rfl

theorem drain_follows {written : Nat} (h : Within ids es) :
    (drain {} ids written : App L Nat).Follows (system L CHECKPOINT_BATCH) t c Fresh
      (fun _ => Within []) (fun _ => Within []) es := by
  induction ids generalizing es written
  case nil => exact h
  case cons D ids ih =>
    refine Method.follows_bind.mpr <| Method.follows_handle.mpr ?_
    refine (checkpoint_follows h).mono (fun _ es h => ih h) fun _ es h => ?_
    refine Method.follows_bind.mpr <| Method.follows_safe.mpr ?_
    refine Method.follows_tx.mpr ⟨trivial, fun db => ih fun i ho => ?_⟩
    obtain hb | ⟨_, ho⟩ := ho
    case inl => cases i <;> exact hb.elim
    case inr => exact h i ho

theorem call_follows (hc : c.Reliable) :
    (Call.method CHECKPOINT_BATCH c).toCall.Follows (system L CHECKPOINT_BATCH) t c Fresh
      (fun _ => Within []) [] := by
  refine Method.follows_toCall.mpr ?_
  cases c
  case writePosition =>
    obtain rfl := hc
    refine Method.follows_handle.mpr <| Method.follows_tx.mpr ⟨⟨_, _, rfl⟩, fun db i ho => ?_⟩
    obtain hb | ⟨_, ho⟩ := ho
    case inl => cases i <;> exact hb.elim
    case inr => exact ho.elim
  case expire =>
    refine Method.follows_tx.mpr ⟨trivial, fun db i ho => ?_⟩
    obtain hb | ⟨_, ho⟩ := ho
    case inl => cases i <;> exact hb.elim
    case inr => exact ho.elim
  case drainCheckpoints =>
    obtain rfl := hc
    refine Method.follows_bind.mpr <| Method.follows_stmt_bind.mpr ⟨trivial, fun db => ?_⟩
    refine (drain_follows fun i ho => ?_).mono (fun _ _ h => h) fun _ _ h => h
    obtain hb | ⟨_, ho⟩ := ho
    case inr => exact ho.elim
    case inl =>
      cases i
      case read  => exact hb.elim
      case drawn => exact ⟨_, hb, rfl⟩

end

-- The hot store is empty at first.
def Cold (db : Store L) : Prop :=
  ∃ rows, db = .cold rows

-- The hash of `D` is marked, or the row of `D` has all of its fields, or it will get them.
def Settled (w : World (Stmt.sig L) (Store L) (Call L)) (D : DeliveryId) : Prop :=
  D ∈ w.db.dirty ∨
  (∃ row, w.db.rows.find? D = some row ∧ row.Covers (w.db.hgetall D).parsePosition) ∨
  ∃ t, Held w t D

section

variable {w : World (Stmt.sig L) (Store L) (Call L)} {s : Pool (Stmt.sig L) (Store L) (Call L)}
variable {P : Policy (Stmt.sig L) (Store L) (Call L)} {t t' : Nat} {c : Call L} {x : Stmt L}
variable {D D' : DeliveryId}

theorem Store.hgetall_expire {db : Store L} :
    (db.expire D).hgetall D' = if D' = D then {} else db.hgetall D' := by
  unfold hgetall
  rw [expire, Table.find?_erase]
  split <;> rfl

theorem fresh_aboutTo (hP : ∀ c, P.spawn c → c.Reliable)
    (h : Reachable (system L CHECKPOINT_BATCH) P Cold s) (ha : s.AboutTo t c x) :
    Fresh x (s.world.own t) :=
  h.follows_aboutTo (F := fun _ _ => Fresh) (Q := fun _ _ => Within [])
    (fun _ c hc => call_follows <| hP c hc) ha

-- Every hash has a time of creation.
theorem createdAt_of_hash (hP : ∀ c, P.spawn c → c.Reliable)
    (h : Reachable (system L CHECKPOINT_BATCH) P Cold s) (hD : s.db.hgetall D ≠ {}) :
    ((s.db.hgetall D).createdAt? : Option L.Date).isSome := by
  refine h.invariant (I := fun w => ∀ D, w.db.hgetall D ≠ {} →
    ((w.db.hgetall D).createdAt? : Option L.Date).isSome) ?_ (fun {s t c x} st ih D hD => ?_) D hD
  case refine_1 =>
    rintro _ ⟨_, rfl⟩ D hD
    exact absurd rfl hD
  case refine_2 =>
    cases x
    case multi D₀ fields =>
      obtain ⟨pos, at', rfl⟩ := fresh_aboutTo hP st.reachable st.aboutTo
      have hh : ((s.world.exec (system L CHECKPOINT_BATCH) t c
          (.multi D₀ (pos.toFields at'))).db).hgetall D =
          if D = D₀ then (s.db.hgetall D₀).hset (pos.toFields at') else s.db.hgetall D :=
        Store.hgetall_hset
      rw [hh] at hD ⊢
      split
      case isTrue =>
        simp [HotHash.createdAt?, HotHash.hset, TrackingPosition.toFields, HotHash.toISOString_ne,
          L.newDate_toISOString]
      case isFalse hne => exact ih D <| by rwa [if_neg hne] at hD
    case expire D₀ =>
      have hh : ((s.world.exec (system L CHECKPOINT_BATCH) t c (.expire D₀)).db).hgetall D =
          if D = D₀ then {} else s.db.hgetall D := Store.hgetall_expire
      rw [hh] at hD ⊢
      split
      case isTrue he   => simp [he] at hD
      case isFalse hne => exact ih D <| by rwa [if_neg hne] at hD
    all_goals exact ih D hD

-- The statement does not relieve a run from its duties with respect to `D`.
def Unrelated (x : Stmt L) (D : DeliveryId) : Prop :=
  match x with
  | .hgetall D'   => D' ≠ D
  | .upsert D' .. => D' ≠ D
  | _             => True

theorem Held.exec_of_ne (h : Held w t' D) (hne : t' ≠ t)
    (hh : (Stmt.exec x w.db).snd.hgetall D = w.db.hgetall D) :
    Held (w.exec (system L CHECKPOINT_BATCH) t c x) t' D := by
  unfold Held at h ⊢
  rw [World.own_exec_of_ne hne, World.exec_db]
  simpa only [system, hh] using h

theorem Held.exec (h : Held w t' D) (hx : Unrelated x D)
    (hh : (Stmt.exec x w.db).snd.hgetall D = w.db.hgetall D) :
    Held (w.exec (system L CHECKPOINT_BATCH) t c x) t' D := by
  by_cases hne : t' = t
  case neg => exact h.exec_of_ne hne hh
  case pos =>
    subst hne
    have hk {i : Duty L} (hi : i = .drawn D ∨ ∃ pos, i = .read D pos)
        (ho : (duties L).Owes i (w.own t')) :
        (duties L).Owes i ((w.exec (system L CHECKPOINT_BATCH) t' c x).own t') := by
      refine Duties.owes_exec.mpr <| .inr ⟨fun hr => ?_, ho⟩
      obtain rfl | ⟨_, rfl⟩ := hi <;> cases x <;> first | exact hr.elim | exact hx hr
    obtain ho | ⟨pos, ho, hc⟩ := h
    case inl => exact .inl <| hk (.inl rfl) ho
    case inr => exact .inr ⟨pos, hk (.inr ⟨pos, rfl⟩) ho, by simpa only [World.exec_db, system, hh] using hc⟩

theorem Settled.exec (h : Settled w D) (hx : Unrelated x D)
    (hh : (Stmt.exec x w.db).snd.hgetall D = w.db.hgetall D)
    (hd : D ∈ w.db.dirty → Settled (w.exec (system L CHECKPOINT_BATCH) t c x) D)
    (hr : (Stmt.exec x w.db).snd.rows.find? D = w.db.rows.find? D) :
    Settled (w.exec (system L CHECKPOINT_BATCH) t c x) D := by
  obtain h | ⟨row, hrow, hc⟩ | ⟨t', h⟩ := h
  case inl         => exact hd h
  case inr.inl     =>
    refine .inr <| .inl ⟨row, hr.trans hrow, ?_⟩
    simpa only [World.exec_db, system, hh] using hc
  case inr.inr     => exact .inr <| .inr ⟨t', h.exec hx hh⟩

theorem covers_upserted {row : Option (DeliveryTracking L)} {deliveryCreatedAt : L.Date}
    {pos data : TrackingPosition L} (h : pos.Covers data) :
    (upserted row deliveryCreatedAt pos).Covers data := by
  cases row
  case none => exact h
  case some => exact h.overlay

-- A checkpoint run writes the position that it has read.
theorem settled_upsert {deliveryCreatedAt : L.Date} {pos : TrackingPosition L}
    (st : StepOf (system L CHECKPOINT_BATCH) checkpointsCurrent Cold s t c
      (.upsert D deliveryCreatedAt pos)) (h : Settled s.world D) :
    Settled (s.world.exec (system L CHECKPOINT_BATCH) t c (.upsert D deliveryCreatedAt pos)) D := by
  have hrow : ((system L CHECKPOINT_BATCH).exec (.upsert D deliveryCreatedAt pos) s.db).snd.rows.find? D =
      some (upserted (s.db.rows.find? D) deliveryCreatedAt pos) :=
    Store.find?_upsert.trans <| if_pos rfl
  have other {t'} (hne : t' ≠ t) (hh : Held s.world t' D) :
      Settled (s.world.exec (system L CHECKPOINT_BATCH) t c (.upsert D deliveryCreatedAt pos)) D :=
    .inr <| .inr ⟨t', hh.exec_of_ne hne rfl⟩
  obtain ha | hd | ⟨t', hne, hh⟩ := st.allowed D deliveryCreatedAt pos rfl
  case inr.inl => exact .inl hd
  case inr.inr => exact other hne hh
  case inl     =>
    obtain hd | ⟨row, hr, hc⟩ | ⟨t', hh⟩ := h
    case inl     => exact .inl hd
    case inr.inl =>
      refine .inr <| .inl ⟨_, hrow, ?_⟩
      rw [hr]
      exact ha.overlay hc
    case inr.inr =>
      by_cases hne : t' = t
      case neg => exact other hne hh
      case pos =>
        subst hne
        obtain ho | ⟨pos', ho, hc⟩ := hh
        case inl => exact .inr <| .inr ⟨t', .inl <| Duties.owes_exec.mpr <| .inr ⟨id, ho⟩⟩
        case inr =>
          obtain rfl := fresh_aboutTo (fun _ h => h) st.reachable st.aboutTo pos' ho
          exact .inr <| .inl ⟨_, hrow, covers_upserted hc⟩

theorem settled_step (st : StepOf (system L CHECKPOINT_BATCH) checkpointsCurrent Cold s t c x)
    (h : ∀ D, s.db.hgetall D ≠ {} → Settled s.world D)
    (hD : (s.world.exec (system L CHECKPOINT_BATCH) t c x).db.hgetall D ≠ {}) :
    Settled (s.world.exec (system L CHECKPOINT_BATCH) t c x) D := by
  cases x
  case multi D₀ fields =>
    by_cases he : D = D₀
    case pos => exact .inl <| he ▸ List.mem_insert_self
    case neg =>
      have hh : (Stmt.exec (.multi D₀ fields) s.db).snd.hgetall D = s.db.hgetall D :=
        Store.hgetall_hset.trans <| if_neg he
      exact (h D fun hn => hD <| hh.trans hn).exec trivial hh
        (fun hd => .inl <| List.mem_insert_of_mem hd) rfl
  case hgetall D₀ =>
    by_cases he : D = D₀
    case neg => exact (h D hD).exec (Ne.symm he) rfl .inl rfl
    case pos =>
      subst he
      refine .inr <| .inr ⟨t, .inr ⟨_, Duties.owes_exec.mpr <| .inl ⟨rfl, ?_, rfl⟩, .refl⟩⟩
      exact createdAt_of_hash (fun _ h => h) st.reachable hD
  case spop order count =>
    by_cases hm : D ∈ s.db.drawn order count
    case pos => exact .inr <| .inr ⟨t, .inl <| Duties.owes_exec.mpr <| .inl hm⟩
    case neg =>
      refine (h D hD).exec trivial rfl (fun hd => .inl <| List.mem_filter.mpr ⟨hd, ?_⟩) rfl
      exact decide_eq_true hm
  case sadd         => exact (h D hD).exec trivial rfl (fun hd => .inl <| List.mem_insert_of_mem hd) rfl
  case findTracking => exact (h D hD).exec trivial rfl .inl rfl
  case upsert D₀ at' pos =>
    by_cases he : D = D₀
    case pos => subst he; exact settled_upsert st <| h D hD
    case neg =>
      exact (h D hD).exec (Ne.symm he) rfl .inl <| Store.find?_upsert.trans <| if_neg he
  case expire D₀ =>
    have hh : (Stmt.exec (.expire D₀) s.db).snd.hgetall D = if D = D₀ then {} else s.db.hgetall D :=
      Store.hgetall_expire
    by_cases he : D = D₀
    case pos => exact absurd (hh.trans <| if_pos he) hD
    case neg =>
      rw [if_neg he] at hh
      exact (h D fun hn => hD <| hh.trans hn).exec trivial hh .inl rfl

theorem settled (h : Reachable (system L CHECKPOINT_BATCH) checkpointsCurrent Cold s)
    (hD : s.db.hgetall D ≠ {}) : Settled s.world D := by
  refine h.invariant (I := fun w => ∀ D, w.db.hgetall D ≠ {} → Settled w D) ?_
    (fun st ih D hD => settled_step st ih hD) D hD
  rintro _ ⟨_, rfl⟩ D hD
  exact absurd rfl hD

theorem hgetall_ne_exec {db : Store L} (h : db.hgetall D ≠ {}) (hx : x ≠ .expire D) :
    (Stmt.exec x db).snd.hgetall D ≠ {} := by
  cases x
  case multi D₀ fields =>
    have hh : (Stmt.exec (.multi D₀ fields) db).snd.hgetall D =
        if D = D₀ then (db.hgetall D₀).hset fields else db.hgetall D := Store.hgetall_hset
    rw [hh]
    split
    case isTrue he => exact HotHash.hset_ne <| he ▸ h
    case isFalse   => exact h
  case expire D₀ =>
    have hh : (Stmt.exec (.expire D₀) db).snd.hgetall D = if D = D₀ then {} else db.hgetall D :=
      Store.hgetall_expire
    have hne : D ≠ D₀ := fun he => hx <| congrArg Stmt.expire he.symm
    rw [hh, if_neg hne]
    exact h
  all_goals exact h

-- A hash that has been written exists until it expires.
theorem hash_of_written {newer older : Log L} {e : Entry (Stmt.sig L) (Store L) (Call L)}
    {fields : HotHash} (hP : ∀ c, P.spawn c → c.Reliable)
    (h : Reachable (system L CHECKPOINT_BATCH) P Cold s) (hl : s.log = newer ++ e :: older)
    (he : e.stmt = .multi D fields) (hn : ∀ e' ∈ newer, e'.stmt ≠ .expire D) :
    s.db.hgetall D ≠ {} := by
  refine h.since (I := fun newer db =>
    (∀ e' ∈ newer, e'.stmt ≠ Stmt.expire D) → db.hgetall D ≠ {}) hl (fun _ => ?_) (fun {newer e'} ih hn => ?_) hn
  case refine_1 =>
    have hf : Fresh e.stmt (e.past older) :=
      h.follows_entry (F := fun _ _ => Fresh) (Q := fun _ _ => Within [])
        (fun _ c hc => call_follows <| hP c hc) hl
    rw [he] at hf
    obtain ⟨pos, at', rfl⟩ := hf
    have hh : (e.post (system L CHECKPOINT_BATCH)).hgetall D =
        (e.pre.hgetall D).hset (pos.toFields at') := by
      rw [Entry.post, he]
      exact Store.hgetall_hset.trans <| if_pos rfl
    rw [hh]
    exact HotHash.hset_toFields_ne
  case refine_2 =>
    obtain ⟨hx, hn⟩ := List.forall_mem_cons.mp hn
    exact hgetall_ne_exec (ih hn) hx

-- Only checkpoint runs have duties.
theorem issued_of_binds {e : Entry (Stmt.sig L) (Store L) (Call L)} {i : Duty L}
    (h : Reachable (system L CHECKPOINT_BATCH) P Cold s) (hm : e ∈ s.log)
    (hb : (duties L).binds e.pre i e.stmt) : e.call.Issued := by
  obtain ⟨newer, older, hl⟩ := List.append_of_mem hm
  have hx : ∀ D, e.call = .expire D → e.stmt = .expire D := by
    refine h.follows_entry (F := fun _ c x _ => ∀ D, c = .expire D → x = Stmt.expire D)
      (Q := fun _ _ _ => True) (fun t c _ => ?_) hl
    cases c
    case writePosition    => exact .of_forall (fun _ _ => nofun) fun _ _ => trivial
    case drainCheckpoints => exact .of_forall (fun _ _ => nofun) fun _ _ => trivial
    case expire D         => exact ⟨fun _ hc => Call.expire.inj hc ▸ rfl, fun _ => trivial⟩
  cases hc : e.call
  case writePosition    => trivial
  case drainCheckpoints => trivial
  case expire D         =>
    rw [hx D hc] at hb
    cases i <;> exact hb.elim

end

-- Once all marks have been processed, the row of each delivery has the fields of its hash.
theorem checkpoints_converge {s : Pool (Stmt.sig L) (Store L) (Call L)} {newer older : Log L}
    {e : Entry (Stmt.sig L) (Store L) (Call L)} {D : DeliveryId} {fields : HotHash}
    (h : Reachable (system L CHECKPOINT_BATCH) checkpointsCurrent Cold s) (hi : s.Idle Call.Issued)
    (hd : s.db.dirty = []) (hl : s.log = newer ++ e :: older) (he : e.stmt = .multi D fields)
    (hn : ∀ e' ∈ newer, e'.stmt ≠ .expire D) :
    ∃ row, s.db.rows.find? D = some row ∧ row.Covers (s.db.hgetall D).parsePosition := by
  have hr := hash_of_written (fun _ h => h) h hl he hn
  have clear {t i} : ¬(duties L).Owes i (s.world.own t) := by
    refine Duties.not_owes_of_idle h id hi (fun e hm hb => issued_of_binds h hm hb) fun ht hd i ho => ?_
    obtain ⟨_, hm, _⟩ := h.follows_done (F := fun _ _ => Fresh) (Q := fun _ _ => Within [])
      (fun _ c hc => call_follows hc) ht hd i ho
    exact (List.not_mem_nil hm).elim
  obtain hm | hrow | ⟨t, ho | ⟨_, ho, _⟩⟩ := settled h hr
  case inl         => simp [hd] at hm
  case inr.inl     => exact hrow
  case inr.inr.inl => exact (clear ho).elim
  case inr.inr.inr => exact (clear ho).elim

-- A write of the status of the delivery `0`.
def Call.status (v : String) : Call .digits :=
  .writePosition 0 (⟨0, Nat.succ_pos 9⟩ : Fin 10) { droneStatus := some v } .committed .committed

def Call.drain : Call .digits :=
  .drainCheckpoints [] {}

-- A checkpoint run has read the hash and is slow to write it. Until then, another run has processed
-- the next write.
def overtaken : List (Cmd (Call .digits)) :=
  List.flatten [
    Cmd.run 0 (.status "In transit") 1, Cmd.run 1 .drain 2, Cmd.run 2 (.status "Delivered") 1,
    Cmd.run 3 .drain 3, [.exec 1]]

theorem not_covers {s : Pool (Stmt.sig L) (Store L) (Call L)} {D : DeliveryId} {a b : String}
    (hr : (s.db.rows.find? D).map (·.droneStatus) = some (some a))
    (hh : (s.db.hgetall D).droneStatus = some b) (hne : a ≠ b) :
    ¬∃ row, s.db.rows.find? D = some row ∧ row.Covers (s.db.hgetall D).parsePosition := by
  rintro ⟨row, hrow, hc⟩
  have := hc .droneStatus b hh
  simp only [hrow, Option.map_some, Option.some.injEq] at hr
  simp only [TrackingPosition.get, hr, Option.some.injEq] at this
  exact hne this

def Stmt.writes (D : DeliveryId) : Stmt L → Bool
  | .multi D' _ => D' = D
  | _           => false

def Stmt.expires (D : DeliveryId) : Stmt L → Bool
  | .expire D' => D' = D
  | _          => false

theorem exists_written {log : Log L} {D : DeliveryId} (hw : log.any fun e => Stmt.writes D e.stmt)
    (hx : log.all fun e => !Stmt.expires D e.stmt) :
    ∃ newer older e fields, log = newer ++ e :: older ∧ e.stmt = .multi D fields ∧
      ∀ e' ∈ newer, e'.stmt ≠ .expire D := by
  obtain ⟨e, hm, he⟩ := List.any_eq_true.mp hw
  obtain ⟨newer, older, hl⟩ := List.append_of_mem hm
  obtain ⟨fields, he⟩ : ∃ fields, e.stmt = .multi D fields := by
    obtain ⟨t, c, x, db⟩ := e
    cases x
    case multi D' fields => exact ⟨fields, of_decide_eq_true he ▸ rfl⟩
    all_goals contradiction
  refine ⟨newer, older, e, fields, hl, he, fun e' hm hs => ?_⟩
  have := List.all_eq_true.mp hx e' <| hl ▸ List.mem_append_left _ hm
  simp [hs, Stmt.expires] at this

theorem checkpoints_converge_missed : ∃ (s : Pool (Stmt.sig .digits) (Store .digits) (Call .digits))
    (newer older : Log .digits) (e : Entry (Stmt.sig .digits) (Store .digits) (Call .digits))
    (fields : HotHash),
    Reachable (system .digits 500) { spawn := Call.Reliable, crash := False } Cold s ∧
    s.Idle Call.Issued ∧ s.db.dirty = [] ∧ s.log = newer ++ e :: older ∧
    e.stmt = .multi 0 fields ∧ (∀ e' ∈ newer, e'.stmt ≠ .expire 0) ∧
    ¬∃ row, s.db.rows.find? 0 = some row ∧ row.Covers (s.db.hgetall 0).parsePosition := by
  let s := (Pool.init (.cold .empty)).runCmds (system .digits 500) overtaken
  have hr : Reachable (system .digits 500) { spawn := Call.Reliable, crash := False } Cold s := by
    refine Reachable.runCmds_of_calls overtaken (.init ⟨_, rfl⟩) ?_
    simp [overtaken, Cmd.run, Cmd.Calls, Call.status, Call.drain, Call.Reliable]
  have hq : s.Quiescent := Pool.idle_runCmds (by decide)
  have hrow : (s.db.rows.find? 0).map (·.droneStatus) = some (some "In transit") := by decide
  have hh : (s.db.hgetall 0).droneStatus = some "Delivered" := by decide
  have hn := not_covers hrow hh (by decide)
  have hd : s.db.dirty = [] := by decide
  obtain ⟨newer, older, e, fields, hl, he, hx⟩ := @exists_written _ s.log 0 (by decide) (by decide)
  exact ⟨s, newer, older, e, fields, hr, fun t th ht _ => hq t th ht trivial, hd, hl, he, hx, hn⟩

-- A write and a checkpoint run after it.
def checkpointed : List (Cmd (Call .digits)) :=
  List.flatten [Cmd.run 0 (.status "In transit") 1, Cmd.run 1 .drain 3]

theorem checkpoints_converge_checkpointed :
    ∃ s : Pool (Stmt.sig .digits) (Store .digits) (Call .digits),
      Reachable (system .digits 500) checkpointsCurrent Cold s ∧ s.Idle Call.Issued ∧
      s.db.dirty = [] ∧ (s.db.hgetall 0).droneStatus = some "In transit" ∧
      ∃ row, s.db.rows.find? 0 = some row ∧ row.Covers (s.db.hgetall 0).parsePosition := by
  let s := (Pool.init (.cold .empty)).runCmds (system .digits 500) checkpointed
  have hr : Reachable (system .digits 500) checkpointsCurrent Cold s := by
    refine (Reachable.init ⟨_, rfl⟩).runCmds (.of_calls ?_ ?_)
    case refine_1 =>
      refine ⟨trivial, ?_, trivial, ?_, ?_, ?_, trivial⟩
      all_goals
        rintro p hp D at' pos hx
        obtain rfl := Option.some.inj hp
        cases hx
      exact .inl fun _ _ h => .inr h
    case refine_2 => simp [checkpointed, Cmd.run, Cmd.Calls, Call.status, Call.drain, checkpointsCurrent, Call.Reliable]
  have hq : s.Quiescent := Pool.idle_runCmds (by decide)
  have hi : s.Idle Call.Issued := fun t th ht _ => hq t th ht trivial
  refine ⟨s, hr, hi, by decide, by decide, ?_⟩
  exact @checkpoints_converge _ _ _ [_, _, _] _ _ _ _ hr hi (by decide) (rfl : s.log = _) rfl (by simp)

end Drovery.Tracking
