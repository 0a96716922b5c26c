import Drovery.Concurrency.Sequential
import Drovery.Concurrency.Session

namespace Concurrency

-- Two runs have the same result, and end in stores that are related.
def Agree {σ τ ε α : Type} (R : σ → τ → Prop) (a : Except ε α × σ) (b : Except ε α × τ) : Prop :=
  a.fst = b.fst ∧ R a.snd b.snd

namespace Agree

variable {σ τ ε α β : Type} {R : σ → τ → Prop} {s : σ} {t : τ}

theorem cases {a : Except ε α × σ} {b : Except ε α × τ} (h : Agree R a b) :
    (∃ r s t, a = (.ok r, s) ∧ b = (.ok r, t) ∧ R s t) ∨
      ∃ e s t, a = (.error e, s) ∧ b = (.error e, t) ∧ R s t := by
  obtain ⟨r, s⟩ := a
  obtain ⟨_, t⟩ := b
  obtain ⟨rfl, hR⟩ := h
  cases r
  case ok r    => exact .inl ⟨r, s, t, rfl, rfl, hR⟩
  case error e => exact .inr ⟨e, s, t, rfl, rfl, hR⟩

-- Two methods, each of which runs on its own.
section Methods

variable {Γ Δ : Signature} {exec : (x : Γ.Stmt) → σ → Γ.Res x × σ}
variable {exec' : (x : Δ.Stmt) → τ → Δ.Res x × τ} {p : Method Γ ε α} {q : Method Δ ε α}

theorem method_bind {f : α → Method Γ ε β} {g : α → Method Δ ε β}
    (h : Agree R (p.eval exec s) (q.eval exec' t))
    (hk : ∀ a s t, R s t → Agree R ((f a).eval exec s) ((g a).eval exec' t)) :
    Agree R ((p >>= f).eval exec s) ((q >>= g).eval exec' t) := by
  rw [Method.eval_bind, Method.eval_bind]
  obtain ⟨a, s, t, hp, hq, hR⟩ | ⟨e, s, t, hp, hq, hR⟩ := h.cases <;> rw [hp, hq]
  case inl => exact hk a s t hR
  case inr => exact ⟨rfl, hR⟩

theorem method_handle {f : ε → Method Γ ε α} {g : ε → Method Δ ε α}
    (h : Agree R (p.eval exec s) (q.eval exec' t))
    (hk : ∀ e s t, R s t → Agree R ((f e).eval exec s) ((g e).eval exec' t)) :
    Agree R ((p.handle f).eval exec s) ((q.handle g).eval exec' t) := by
  rw [Method.eval_handle, Method.eval_handle]
  obtain ⟨a, s, t, hp, hq, hR⟩ | ⟨e, s, t, hp, hq, hR⟩ := h.cases <;> rw [hp, hq]
  case inl => exact ⟨rfl, hR⟩
  case inr => exact hk e s t hR

theorem method_safe (h : Agree R (p.eval exec s) (q.eval exec' t)) :
    Agree R (p.safe.eval exec s) (q.safe.eval exec' t) := by
  rw [Method.eval_safe, Method.eval_safe]
  exact ⟨rfl, h.right⟩

theorem method_attempt {o : Outcome ε} (hR : R s t) (h : Agree R (p.eval exec s) (q.eval exec' t)) :
    Agree R ((p.attempt o).eval exec s) ((q.attempt o).eval exec' t) := by
  cases o
  case committed  => exact h
  case rolledBack => exact ⟨rfl, hR⟩
  case lost       => exact h.method_bind fun _ _ _ hR => ⟨rfl, hR⟩

end Methods

end Agree

-- The store of a session to which nothing will happen, as far as `f` shows it.
def Session.Shows {σ τ ε : Type} (f : σ → τ) (t : τ) (s : State σ ε) : Prop :=
  t = f s.db ∧ s.mishaps = []

namespace Agree

variable {σ τ ε α β : Type} {f : σ → τ} {Γ : Signature} {exec : (x : Γ.Stmt) → τ → Γ.Res x × τ}
variable {p : Method Γ ε α} {q : Session σ ε α} {t : τ} {s : Session.State σ ε} {db : σ}

open Session

theorem session_bind {g : α → Method Γ ε β} {h : α → Session σ ε β}
    (hp : Agree (Shows f) (p.eval exec t) (q s))
    (hk : ∀ a db, q s = (.ok a, ⟨db, []⟩) →
      Agree (Shows f) ((g a).eval exec (f db)) (h a ⟨db, []⟩)) :
    Agree (Shows f) ((p >>= g).eval exec t) ((q >>= h) s) := by
  rw [Method.eval_bind, run_bind]
  obtain ⟨a, t, ⟨db, _⟩, hp, hq, rfl, rfl⟩ | ⟨e, t, s, hp, hq, hR⟩ := hp.cases <;> rw [hp, hq]
  case inl => exact hk a db hq
  case inr => exact ⟨rfl, hR⟩

-- What follows in the method does not matter.
theorem method_then {g : α → Method Γ ε α} (hp : Agree (Shows f) (p.eval exec t) (q s))
    (hk : ∀ a t, (g a).eval exec t = (.ok a, t)) :
    Agree (Shows f) ((p >>= g).eval exec t) (q s) := by
  rw [Method.eval_bind]
  obtain ⟨a, t, s, hp, hq, hR⟩ | ⟨e, t, s, hp, hq, hR⟩ := hp.cases <;> rw [hp, hq]
  case inl =>
    dsimp only
    rw [hk]
    exact ⟨rfl, hR⟩
  case inr => exact ⟨rfl, hR⟩

-- What follows in the session only reads.
theorem session_then {h : α → Session σ ε α} (hp : Agree (Shows f) (p.eval exec t) (q s))
    (hk : ∀ a db, h a ⟨db, []⟩ = (.ok a, ⟨db, []⟩)) :
    Agree (Shows f) (p.eval exec t) ((q >>= h) s) := by
  rw [run_bind]
  obtain ⟨a, t, ⟨db, _⟩, hp, hq, rfl, rfl⟩ | ⟨e, t, s, hp, hq, hR⟩ := hp.cases <;> rw [hp, hq]
  case inl =>
    change Agree _ _ (h a ⟨db, []⟩)
    rw [hk]
    exact ⟨rfl, rfl, rfl⟩
  case inr => exact ⟨rfl, hR⟩

theorem session_tryCatch {g : ε → Method Γ ε α} {h : ε → Session σ ε α}
    (hp : Agree (Shows f) (p.eval exec t) (q s))
    (hk : ∀ e db, Agree (Shows f) ((g e).eval exec (f db)) (h e ⟨db, []⟩)) :
    Agree (Shows f) ((p.handle g).eval exec t) (tryCatch q h s) := by
  rw [Method.eval_handle, run_tryCatch]
  obtain ⟨a, t, s, hp, hq, hR⟩ | ⟨e, t, ⟨db, _⟩, hp, hq, rfl, rfl⟩ := hp.cases <;> rw [hp, hq]
  case inl => exact ⟨rfl, hR⟩
  case inr => exact hk e db

-- A transaction that succeeds leaves the store that its statements have led to.
theorem transaction {a : α} (h : Agree (Shows f) (.ok a, t) (q ⟨db, []⟩)) :
    Agree (Shows f) (.ok a, t) (transaction q ⟨db, []⟩) := by
  obtain ⟨_, _, ⟨db', _⟩, hp, hq, rfl, rfl⟩ | ⟨_, _, _, hp, _, _⟩ := h.cases
  case inl =>
    rw [Session.transaction, hq]
    exact ⟨(Prod.mk.inj hp).left, (Prod.mk.inj hp).right, rfl⟩
  case inr => exact nomatch hp

-- One that fails leaves the store as it was.
theorem transaction_error {e : ε} (h : Agree (Shows f) (.error e, t) (q ⟨db, []⟩)) :
    Agree (Shows f) (.error e, f db) (Session.transaction q ⟨db, []⟩) := by
  obtain ⟨_, _, _, hp, _, _⟩ | ⟨_, _, s, hp, hq, _, hm⟩ := h.cases
  case inl => exact nomatch hp
  case inr =>
    rw [Session.transaction, hq]
    exact ⟨(Prod.mk.inj hp).left, rfl, hm⟩

-- The beginning of the session has already been dealt with.
theorem session_after {a : α} {b : Except ε β × τ} {h : α → Session σ ε β}
    (hq : Agree (Shows f) (.ok a, t) (q s))
    (hk : ∀ db, t = f db → Agree (Shows f) b (h a ⟨db, []⟩)) :
    Agree (Shows f) b ((q >>= h) s) := by
  rw [run_bind]
  obtain ⟨_, _, ⟨db, _⟩, hp, hq, rfl, rfl⟩ | ⟨_, _, _, hp, _, _⟩ := hq.cases
  case inl =>
    obtain rfl := Except.ok.inj (Prod.mk.inj hp).left
    rw [hq]
    exact hk db (Prod.mk.inj hp).right
  case inr => exact nomatch hp

-- The results are the same, and so are the parts of the stores that are shown.
theorem eval_eq (h : Agree (Shows f) (p.eval exec t) (q ⟨db, []⟩)) :
    p.eval exec t = Prod.map id f (q.eval db) :=
  Prod.ext h.left h.right.left

end Agree

end Concurrency
