import Mathlib.Logic.Basic

namespace Concurrency

-- What becomes of a statement: it works, it fails, it takes effect but its caller is told that it
-- failed, or it works but finds that no row matches its condition any more.
inductive Mishap (ε : Type)
  | none
  | failed (e : ε)
  | lost (e : ε)
  | noMatch

-- The store of a session, together with what will become of its next statements. Nothing goes wrong
-- beyond the end of the list.
structure Session.State (σ ε : Type) where
  db      : σ
  mishaps : List (Mishap ε)

-- A program that has its store for itself, whereas each of its statements may go wrong.
abbrev Session (σ ε α : Type) := ExceptT ε (StateM (Session.State σ ε)) α

namespace Session

variable {σ ε α β : Type}

def stmt (f : σ → Except ε α × σ) : Session σ ε α := fun s =>
  match s.mishaps.headD .none with
  | .failed e => (.error e, ⟨s.db, s.mishaps.tail⟩)
  | .lost e   => (.error e, ⟨(f s.db).snd, s.mishaps.tail⟩)
  | _         => ((f s.db).fst, ⟨(f s.db).snd, s.mishaps.tail⟩)

def read (f : σ → α) : Session σ ε α :=
  stmt fun db => (.ok <| f db, db)

-- A statement that either writes or fails without writing anything.
def write (f : σ → Except ε σ) : Session σ ε Unit :=
  stmt fun db => match f db with
    | .ok db'  => (.ok (), db')
    | .error e => (.error e, db)

-- A conditional write, which reports how many rows it has matched.
def cas (f : σ → Nat × σ) : Session σ ε Nat := fun s =>
  match s.mishaps.headD .none with
  | .noMatch => (.ok 0, ⟨s.db, s.mishaps.tail⟩)
  | _        => stmt (fun db => (.ok (f db).fst, (f db).snd)) s

-- Everything that `p` writes takes effect with the commit, or nothing does.
def transaction (p : Session σ ε α) : Session σ ε α := fun s =>
  match p s with
  | (.error e, s') => (.error e, ⟨s.db, s'.mishaps⟩)
  | (.ok a, s')    =>
    match s'.mishaps.headD .none with
    | .failed e => (.error e, ⟨s.db, s'.mishaps.tail⟩)
    | .lost e   => (.error e, ⟨s'.db, s'.mishaps.tail⟩)
    | _         => (.ok a, ⟨s'.db, s'.mishaps.tail⟩)

-- Something whose failures are not up to the session.
def reliably (f : σ → Except ε α × σ) : Session σ ε α := fun s =>
  ((f s.db).fst, { s with db := (f s.db).snd })

-- Runs a session in which nothing goes wrong.
def eval (p : Session σ ε α) (db : σ) : Except ε α × σ :=
  ((p ⟨db, []⟩).fst, (p ⟨db, []⟩).snd.db)

-- The store that a session leaves behind when the given mishaps happen to its statements.
def final (p : Session σ ε α) (ms : List (Mishap ε)) (db : σ) : σ :=
  (p ⟨db, ms⟩).snd.db

-- What holds at the end of a session: `Q` if it has succeeded, and else `E`.
def After (Q : α → σ → Prop) (E : ε → σ → Prop) : Except ε α × State σ ε → Prop
  | (.ok a, s)    => Q a s.db
  | (.error e, s) => E e s.db

-- Whatever goes wrong, the session ends in accordance with `Q` and `E`.
def Wp (p : Session σ ε α) (Q : α → σ → Prop) (E : ε → σ → Prop) (db : σ) : Prop :=
  ∀ ms, After Q E <| p ⟨db, ms⟩

variable {p : Session σ ε α} {Q Q' : α → σ → Prop} {E E' : ε → σ → Prop} {db : σ}
variable {s : State σ ε}

theorem run_bind {f : α → Session σ ε β} : (p >>= f) s = match p s with
    | (.ok a, s')    => f a s'
    | (.error e, s') => (.error e, s') := by
  change (match p s with | (r, s') => ExceptT.bindCont f r s') = _
  cases p s with
  | mk r s' => cases r <;> rfl

theorem run_bind_of_ok {f : α → Session σ ε β} {a : α} {s' : State σ ε} (h : p s = (.ok a, s')) :
    (p >>= f) s = f a s' := by
  rw [run_bind, h]

theorem run_stmt_bind {db db' : σ} {f : σ → Except ε α × σ} {g : α → Session σ ε β} {a : α}
    (h : f db = (.ok a, db')) : (stmt f >>= g) ⟨db, []⟩ = g a ⟨db', []⟩ := by
  refine run_bind_of_ok ?_
  rw [stmt, h]
  rfl

theorem run_read_bind {db : σ} {f : σ → α} {g : α → Session σ ε β} :
    (read f >>= g) ⟨db, []⟩ = g (f db) ⟨db, []⟩ :=
  run_bind_of_ok rfl

theorem run_write_bind {db : σ} {f : σ → Except ε σ} {g : Unit → Session σ ε β} :
    (write f >>= g) ⟨db, []⟩ = match f db with
      | .ok db'  => g () ⟨db', []⟩
      | .error e => (.error e, ⟨db, []⟩) := by
  rw [run_bind]
  simp only [write, stmt, List.headD_nil]
  cases f db <;> rfl

theorem run_cas_bind {db : σ} {f : σ → Nat × σ} {g : Nat → Session σ ε β} :
    (cas f >>= g) ⟨db, []⟩ = g (f db).fst ⟨(f db).snd, []⟩ :=
  run_bind_of_ok rfl

theorem run_tryCatch {h : ε → Session σ ε α} : (tryCatch p h) s = match p s with
    | (.ok a, s')    => (.ok a, s')
    | (.error e, s') => h e s' := by
  simp only [tryCatch, tryCatchThe, MonadExceptOf.tryCatch, ExceptT.tryCatch, ExceptT.mk, bind,
    StateT.bind]
  cases p s with
  | mk r s' => cases r <;> rfl

theorem After.mono {r : Except ε α × State σ ε} (h : After Q E r)
    (hQ : ∀ a db', Q a db' → Q' a db') (hE : ∀ e db', E e db' → E' e db') : After Q' E' r := by
  match r with
  | (.ok _, _)    => exact hQ _ _ h
  | (.error _, _) => exact hE _ _ h

theorem Wp.mono (h : Wp p Q E db) (hQ : ∀ a db', Q a db' → Q' a db')
    (hE : ∀ e db', E e db' → E' e db') : Wp p Q' E' db :=
  fun ms => (h ms).mono hQ hE

theorem wp_pure {a : α} (h : Q a db) : Wp (pure a) Q E db :=
  fun _ => h

theorem wp_throw {e : ε} (h : E e db) : Wp (throw e : Session σ ε α) Q E db :=
  fun _ => h

theorem wp_bind {f : α → Session σ ε β} {Q : β → σ → Prop}
    (h : Wp p (fun a => Wp (f a) Q E) E db) : Wp (p >>= f) Q E db := by
  intro ms
  have := h ms
  rw [run_bind]
  revert this
  match p ⟨db, ms⟩ with
  | (.ok _, s)    => exact fun h => h s.mishaps
  | (.error _, _) => exact id

theorem wp_tryCatch {h : ε → Session σ ε α} (hp : Wp p Q (fun e => Wp (h e) Q E) db) :
    Wp (tryCatch p h) Q E db := by
  intro ms
  have := hp ms
  rw [run_tryCatch]
  revert this
  match p ⟨db, ms⟩ with
  | (.ok _, _)    => exact id
  | (.error _, s) => exact fun h => h s.mishaps

theorem wp_stmt {f : σ → Except ε α × σ} (hf : ∀ e, E e db) (hl : ∀ e, E e (f db).snd)
    (h : match (f db).fst with | .ok a => Q a (f db).snd | .error e => E e (f db).snd) :
    Wp (stmt f) Q E db := by
  intro ms
  have ok : After Q E ((f db).fst, (⟨(f db).snd, ms.tail⟩ : State σ ε)) := by
    revert h
    match (f db).fst with
    | .ok _    => exact id
    | .error _ => exact id
  unfold stmt
  dsimp only
  cases ms.headD .none
  case none     => exact ok
  case failed e => exact hf e
  case lost e   => exact hl e
  case noMatch  => exact ok

theorem wp_read {f : σ → α} (hf : ∀ e, E e db) (h : Q (f db) db) : Wp (read f) Q E db :=
  wp_stmt hf hf h

theorem wp_write {f : σ → Except ε σ} {Q : Unit → σ → Prop} (hf : ∀ e, E e db)
    (h : ∀ db', f db = .ok db' → Q () db' ∧ ∀ e, E e db') : Wp (write f) Q E db := by
  unfold write
  cases hr : f db
  case error e =>
    refine wp_stmt hf ?_ ?_ <;> simp only [hr]
    · exact hf
    · exact hf e
  case ok db'  =>
    have ⟨hQ, hE⟩ := h db' hr
    refine wp_stmt hf ?_ ?_ <;> simp only [hr]
    · exact hE
    · exact hQ

theorem wp_cas {f : σ → Nat × σ} {Q : Nat → σ → Prop} (hf : ∀ e, E e db) (hl : ∀ e, E e (f db).snd)
    (hn : Q 0 db) (h : Q (f db).fst (f db).snd) : Wp (cas f) Q E db := by
  intro ms
  have := wp_stmt (f := fun db => (.ok (f db).fst, (f db).snd)) hf hl h ms
  unfold cas
  dsimp only
  cases ms.headD .none
  case noMatch => exact hn
  all_goals exact this

-- A transaction that fails has no effect. One that succeeds has committed, although its caller may be
-- told that it failed.
theorem wp_transaction (hf : ∀ e, E e db)
    (h : Wp p (fun a db' => Q a db' ∧ ∀ e, E e db') (fun _ _ => True) db) :
    Wp (transaction p) Q E db := by
  intro ms
  have := h ms
  unfold transaction
  dsimp only
  revert this
  match p ⟨db, ms⟩ with
  | (.error e, _) => exact fun _ => hf e
  | (.ok a, s)    =>
    intro ⟨hQ, hE⟩
    dsimp only
    cases s.mishaps.headD .none
    case none     => exact hQ
    case failed e => exact hf e
    case lost e   => exact hE e
    case noMatch  => exact hQ

theorem wp_reliably {f : σ → Except ε α × σ}
    (h : match (f db).fst with | .ok a => Q a (f db).snd | .error e => E e (f db).snd) :
    Wp (reliably f) Q E db := by
  intro ms
  unfold reliably
  revert h
  dsimp only
  match (f db).fst with
  | .ok _    => exact id
  | .error _ => exact id

theorem final_of_wp {R : σ → Prop} {ms : List (Mishap ε)} (h : Wp p (fun _ => R) (fun _ => R) db) :
    R (p.final ms db) := by
  have := h ms
  unfold final
  revert this
  match p ⟨db, ms⟩ with
  | (.ok _, _)    => exact id
  | (.error _, _) => exact id

theorem eval_of_wp {R : σ → Prop} (h : Wp p (fun _ => R) (fun _ => R) db) : R (p.eval db).snd :=
  @final_of_wp _ _ _ _ _ _ [] h

-- The session leaves no mishaps behind if it finds none.
def Calm (p : Session σ ε α) : Prop :=
  ∀ db, (p ⟨db, []⟩).snd.mishaps = []

namespace Calm

theorem throw {e : ε} : Calm (throw e : Session σ ε α) :=
  fun _ => rfl

theorem stmt {f : σ → Except ε α × σ} : Calm (stmt f) :=
  fun _ => rfl

theorem read {f : σ → α} : Calm (read f : Session σ ε α) :=
  fun _ => rfl

theorem write {f : σ → Except ε σ} : Calm (write f) :=
  fun _ => rfl

theorem cas {f : σ → Nat × σ} : Calm (cas f : Session σ ε Nat) :=
  fun _ => rfl

theorem bind {f : α → Session σ ε β} (hp : p.Calm) (hf : ∀ a, (f a).Calm) : (p >>= f).Calm := by
  intro db
  have := hp db
  rw [run_bind]
  revert this
  match p ⟨db, []⟩ with
  | (.ok a, ⟨db, _⟩) => exact fun h => h ▸ hf a db
  | (.error _, _)    => exact id

theorem transaction (hp : p.Calm) : (transaction p).Calm := by
  intro db
  have := hp db
  unfold Session.transaction
  revert this
  match p ⟨db, []⟩ with
  | (.ok _, ⟨_, ms⟩) =>
    intro h
    obtain rfl : ms = [] := h
    rfl
  | (.error _, _)    => exact id

end Calm

end Session

end Concurrency
