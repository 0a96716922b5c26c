import Drovery.Concurrency.Method

namespace Concurrency

variable {Γ : Signature} {σ κ ε α β : Type}

-- What a thread knows from its own entries alone, whatever the other threads do in between: after
-- the entries `es`, the program issues each of its statements in accordance with `F`, and it ends
-- in accordance with `Q`.
def Prog.Follows (S : System Γ σ κ) (t : Nat) (c : κ) (F : Γ.Stmt → List (Entry Γ σ κ) → Prop)
    (Q : α → List (Entry Γ σ κ) → Prop) : Prog Γ α → List (Entry Γ σ κ) → Prop
  | .ret a,    es => Q a es
  | .call x k, es =>
    F x es ∧ ∀ db, (k (S.exec x db).fst).Follows S t c F Q (⟨t, c, x, db⟩ :: es)

-- The entries of a log that precede one of its entries and stem from the same thread.
def Entry.past (e : Entry Γ σ κ) (older : List (Entry Γ σ κ)) : List (Entry Γ σ κ) :=
  older.filter (·.tid = e.tid)

section

variable {S : System Γ σ κ} {t : Nat} {c : κ} {F : Γ.Stmt → List (Entry Γ σ κ) → Prop}
variable {es : List (Entry Γ σ κ)}

theorem Prog.follows_bind {p : Prog Γ α} {f : α → Prog Γ β} {Q : β → List (Entry Γ σ κ) → Prop} :
    (p >>= f).Follows S t c F Q es ↔
      p.Follows S t c F (fun a es => (f a).Follows S t c F Q es) es := by
  induction p generalizing es
  case ret     => exact Iff.rfl
  case call ih => exact and_congr_right fun _ => forall_congr' fun _ => ih _

theorem Prog.Follows.mono {p : Prog Γ α} {Q Q' : α → List (Entry Γ σ κ) → Prop}
    (h : p.Follows S t c F Q es) (hQ : ∀ a es, Q a es → Q' a es) : p.Follows S t c F Q' es := by
  induction p generalizing es
  case ret     => exact hQ _ _ h
  case call ih => exact ⟨h.left, fun db => ih _ <| h.right db⟩

theorem Prog.Follows.of_forall {p : Prog Γ α} {Q : α → List (Entry Γ σ κ) → Prop}
    (hF : ∀ x es, F x es) (hQ : ∀ a es, Q a es) : p.Follows S t c F Q es := by
  induction p generalizing es
  case ret     => exact hQ _ _
  case call ih => exact ⟨hF _ _, fun db => ih _⟩

-- The program returns `a` after it has issued the statements of the entries `es'`, given that it has
-- already issued those of the entries `es`.
inductive Prog.Runs (S : System Γ σ κ) (t : Nat) (c : κ) :
    Prog Γ α → List (Entry Γ σ κ) → α → List (Entry Γ σ κ) → Prop
  | ret {a es} : Runs S t c (.ret a) es a es
  | call {x k es db a es'} :
    Runs S t c (k (S.exec x db).fst) (⟨t, c, x, db⟩ :: es) a es' → Runs S t c (.call x k) es a es'

section

variable {p : Prog Γ α} {a : α} {es' : List (Entry Γ σ κ)}

theorem Prog.Follows.of_runs {Q : α → List (Entry Γ σ κ) → Prop} (h : p.Follows S t c F Q es)
    (hr : p.Runs S t c es a es') : Q a es' := by
  induction hr
  case ret     => exact h
  case call ih => exact ih <| h.right _

-- A program only issues statements on behalf of its own call.
theorem Prog.Runs.call_eq (hr : p.Runs S t c es a es') (h : ∀ e ∈ es, e.call = c) :
    ∀ e ∈ es', e.call = c := by
  induction hr
  case ret     => exact h
  case call ih => exact ih <| List.forall_mem_cons.mpr ⟨rfl, h⟩

end

namespace Method

-- The same for a method, with one postcondition for its success and another one for its failure.
def Follows (S : System Γ σ κ) (t : Nat) (c : κ) (F : Γ.Stmt → List (Entry Γ σ κ) → Prop)
    (Q : α → List (Entry Γ σ κ) → Prop) (E : ε → List (Entry Γ σ κ) → Prop) (p : Method Γ ε α)
    (es : List (Entry Γ σ κ)) : Prop :=
  Prog.Follows S t c F (fun | .ok a => Q a | .error e => E e) p.run es

variable {Q : α → List (Entry Γ σ κ) → Prop} {E : ε → List (Entry Γ σ κ) → Prop}

theorem follows_toCall {p : Method Γ ε α} {Q : List (Entry Γ σ κ) → Prop} :
    p.toCall.Follows S t c F (fun _ => Q) es ↔ p.Follows S t c F (fun _ => Q) (fun _ => Q) es := by
  rw [toCall, Prog.follows_bind]
  constructor <;> refine fun h => h.mono fun r es h => ?_ <;> cases r <;> exact h

theorem follows_bind {p : Method Γ ε β} {f : β → Method Γ ε α} :
    (p >>= f).Follows S t c F Q E es ↔
      p.Follows S t c F (fun b => (f b).Follows S t c F Q E) E es := by
  rw [Follows, bind_run, Prog.follows_bind]
  constructor <;> refine fun h => h.mono fun r es h => ?_ <;> cases r <;> exact h

theorem follows_stmt_bind {x : Γ.Stmt} {f : Γ.Res x → Method Γ ε α} :
    (stmt x >>= f).Follows S t c F Q E es ↔
      F x es ∧ ∀ db, (f (S.exec x db).fst).Follows S t c F Q E (⟨t, c, x, db⟩ :: es) :=
  Iff.rfl

theorem follows_tx {x : Γ.Stmt} {f : Γ.Res x → Except ε α} :
    (tx x f).Follows S t c F Q E es ↔
      F x es ∧ ∀ db, match f (S.exec x db).fst with
        | .ok a    => Q a (⟨t, c, x, db⟩ :: es)
        | .error e => E e (⟨t, c, x, db⟩ :: es) := by
  refine and_congr_right fun _ => forall_congr' fun db => ?_
  rw [Prog.Follows]
  split <;> simp_all

theorem Follows.mono {Q' : α → List (Entry Γ σ κ) → Prop} {E' : ε → List (Entry Γ σ κ) → Prop}
    {p : Method Γ ε α} (h : p.Follows S t c F Q E es) (hQ : ∀ a es, Q a es → Q' a es)
    (hE : ∀ e es, E e es → E' e es) : p.Follows S t c F Q' E' es := by
  refine Prog.Follows.mono h fun r es h => ?_
  cases r
  case ok    => exact hQ _ _ h
  case error => exact hE _ _ h

theorem follows_handle {p : Method Γ ε α} {h : ε → Method Γ ε α} :
    (p.handle h).Follows S t c F Q E es ↔
      p.Follows S t c F Q (fun e => (h e).Follows S t c F Q E) es := by
  rw [Follows, handle_run, Prog.follows_bind]
  constructor <;> refine fun h => Prog.Follows.mono h fun r es h => ?_ <;> cases r <;> exact h

theorem follows_safe {p : Method Γ ε α} {Q : Unit → List (Entry Γ σ κ) → Prop} :
    p.safe.Follows S t c F Q E es ↔ p.Follows S t c F (fun _ => Q ()) (fun _ => Q ()) es := by
  rw [safe, follows_handle, follows_bind]
  exact Iff.rfl

theorem follows_attempt {p : Method Γ ε α} {o : Outcome ε}
    (h : p.Follows S t c F (fun _ _ => True) (fun _ _ => True) es) :
    (p.attempt o).Follows S t c F (fun _ _ => True) (fun _ _ => True) es := by
  cases o
  case committed  => exact h
  case rolledBack => trivial
  case lost       => exact follows_bind.mpr h

-- If its blocks follow the rules whenever `R` holds, and keep `R`, then so does a method that is
-- composed of them.
theorem Follows.built {B : (α : Type) → Method Γ ε α → Prop} {p : Method Γ ε α}
    {R : List (Entry Γ σ κ) → Prop} (hp : Built B p)
    (hB : ∀ {α q es}, B α q → R es → Follows S t c F (fun _ => R) (fun _ => R) q es) (h : R es) :
    Follows S t c F (fun _ => R) (fun _ => R) p es := by
  induction hp generalizing es
  case block hb              => exact hB hb h
  case pure                  => exact h
  case throw                 => exact h
  case bind p f _ _ ih₁ ih₂   => exact follows_bind.mpr <| (ih₁ h).mono (fun a _ => ih₂ a) fun _ _ => id
  case handle p f _ _ ih₁ ih₂ => exact follows_handle.mpr <| (ih₁ h).mono (fun _ _ => id) fun e _ => ih₂ e

-- If its blocks follow the rules wherever they stand, then so does a method that is composed of them.
theorem Follows.of_built {B : (α : Type) → Method Γ ε α → Prop} {p : Method Γ ε α}
    (hp : Built B p) (hB : ∀ {α q es}, B α q →
      Follows S t c F (fun _ _ => True) (fun _ _ => True) q es) :
    Follows S t c F (fun _ _ => True) (fun _ _ => True) p es :=
  Follows.built hp (fun hb _ => hB hb) trivial

-- The log of a thread only grows.
theorem follows_suffix {p : Method Γ ε α} :
    p.Follows S t c (fun _ _ => True) (fun _ es' => es <:+ es') (fun _ es' => es <:+ es') es := by
  have suffix {p : Prog Γ (Except ε α)} {es : List (Entry Γ σ κ)} :
      p.Follows S t c (fun _ _ => True) (fun _ es' => es <:+ es') es := by
    induction p generalizing es
    case ret     => exact List.suffix_refl es
    case call ih =>
      exact ⟨trivial, fun _ => (ih _).mono fun _ _ h => (List.suffix_cons _ _).trans h⟩
  exact suffix.mono fun r _ h => by cases r <;> exact h

theorem follows_true {p : Method Γ ε α} :
    p.Follows S t c (fun _ _ => True) (fun _ _ => True) (fun _ _ => True) es :=
  Prog.Follows.of_forall (fun _ _ => trivial) fun r _ => by cases r <;> trivial

end Method

end

-- The entries of a thread are in the log.
theorem World.mem_own {w : World Γ σ κ} {t : Nat} {r : Entry Γ σ κ} (h : r ∈ w.own t) :
    r.tid = t ∧ ∃ newer older, w.log = newer ++ r :: older := by
  obtain ⟨hm, ht⟩ := List.mem_filter.mp h
  exact ⟨of_decide_eq_true ht, List.append_of_mem hm⟩

namespace Reachable

variable {S : System Γ σ κ} {P : Policy Γ σ κ} {init : σ → Prop} {s : Pool Γ σ κ}
variable {F : Nat → κ → Γ.Stmt → List (Entry Γ σ κ) → Prop}
variable {Q : Nat → κ → List (Entry Γ σ κ) → Prop}

-- The pool in which a statement of the log was executed.
theorem before {newer older : List (Entry Γ σ κ)} {e : Entry Γ σ κ} (h : Reachable S P init s)
    (hl : s.log = newer ++ e :: older) :
    ∃ s₀, StepOf S P init s₀ e.tid e.call e.stmt ∧ s₀.db = e.pre ∧ s₀.log = older := by
  obtain ⟨s₀, st, hw, _⟩ := h.entry (R := fun _ _ => True) (fun _ => trivial) (fun _ _ => trivial)
    (fun _ => trivial) hl
  exact ⟨s₀, st, congrArg World.db hw, congrArg World.log hw⟩

-- A policy may be replaced by one that allows each step that is taken.
theorem strengthen {P' : Policy Γ σ κ} (h : Reachable S P init s) (hs : ∀ c, P.spawn c → P'.spawn c)
    (hx : ∀ {s t c x}, StepOf S P init s t c x → P'.step s t c x) (hc : P.crash → P'.crash) :
    Reachable S P' init s := by
  induction h
  case init h => exact .init h
  case step hr st ih =>
    refine ih.step ?_
    cases st
    case spawn h₁ h₂ => exact .spawn h₁ <| hs _ h₂
    case exec h₁ h₂  => exact .exec h₁ <| hx ⟨hr, ⟨_, h₁, rfl, rfl, _, rfl⟩, h₂⟩
    case crash h₁ h₂ => exact .crash h₁ <| hc h₂

-- It does not matter if more is known about the initial store.
theorem of_init {init' : σ → Prop} (h : Reachable S P init s) (hi : ∀ db, init db → init' db) :
    Reachable S P init' s := by
  induction h
  case init h      => exact .init <| hi _ h
  case step st ih  => exact ih.step st

-- What is known about the entries since a given one, and about the store they have led to.
theorem since_step {newer older : List (Entry Γ σ κ)} {r : Entry Γ σ κ}
    {I : List (Entry Γ σ κ) → σ → Prop} (h : Reachable S P init s)
    (hl : s.log = newer ++ r :: older) (h₀ : I [] (r.post S))
    (hs : ∀ {s t c x newer}, StepOf S P init s t c x → s.log = newer ++ r :: older → I newer s.db →
      I (⟨t, c, x, s.db⟩ :: newer) (S.exec x s.db).snd) : I newer s.db := by
  refine h.invariant (I := fun w => ∀ {newer}, w.log = newer ++ r :: older → I newer w.db)
    (by simp) (fun {s t c x} st ih => ?_) hl
  intro newer hl
  cases newer
  case nil =>
    obtain ⟨rfl, _⟩ := List.cons.inj hl
    exact h₀
  case cons e newer =>
    obtain ⟨rfl, hl'⟩ := List.cons.inj hl
    exact hs st hl' <| ih hl'

theorem since {newer older : List (Entry Γ σ κ)} {r : Entry Γ σ κ}
    {I : List (Entry Γ σ κ) → σ → Prop} (h : Reachable S P init s)
    (hl : s.log = newer ++ r :: older) (h₀ : I [] (r.post S))
    (hs : ∀ {newer e}, I newer e.pre → I (e :: newer) (e.post S)) : I newer s.db :=
  h.since_step hl h₀ fun _ _ hi => hs (e := ⟨_, _, _, _⟩) hi

-- What every statement preserves still holds if it has held before some entry.
theorem since_pre {r : Entry Γ σ κ} {I : σ → Prop} (h : Reachable S P init s) (hr : r ∈ s.log)
    (h₀ : I r.pre) (hs : ∀ x db, I db → I (S.exec x db).snd) : I s.db := by
  have ⟨newer, older, hl⟩ := List.append_of_mem hr
  exact h.since (I := fun _ db => I db) hl (hs _ _ h₀) (hs _ _)

-- If each call follows its rules when it is on its own, then so it does in every run.
theorem follows {t : Nat} {th : Thread Γ κ} (h : Reachable S P init s)
    (hp : ∀ t c, P.spawn c → (S.prog t c).Follows S t c (F t c) (fun _ => Q t c) [])
    (ht : s.threads t = some th) :
    th.rest.Follows S t th.call (F t th.call) (fun _ => Q t th.call) (s.world.own t) := by
  induction h generalizing th
  case init => simp [Pool.init] at ht
  case step s s' hs st ih =>
    cases st
    case spawn t' c hn hc =>
      by_cases heq : t = t'
      case pos =>
        subst heq
        simp only [Pool.spawn, Function.update_self, Option.some.injEq] at ht
        subst ht
        have : s.world.own t = [] := World.own_eq_nil fun e he => by
          rintro rfl
          obtain ⟨_, ht, _⟩ := hs.log_thread e he
          simp [hn] at ht
        exact this ▸ hp t c hc
      case neg =>
        simp only [Pool.spawn, Function.update_of_ne heq] at ht
        exact ih ht
    case exec t' c x k ht' _ =>
      by_cases heq : t = t'
      case pos =>
        subst heq
        simp only [Pool.exec, Function.update_self, Option.some.injEq] at ht
        subst ht
        have := (ih ht').right s.db
        rwa [← World.own_exec] at this
      case neg =>
        simp only [Pool.exec, Function.update_of_ne heq] at ht
        have := ih ht
        rwa [← World.own_exec_of_ne heq] at this
    case crash t' c p ht' _ =>
      by_cases heq : t = t'
      case pos =>
        subst heq
        simp only [Pool.crash, Function.update_self, Option.some.injEq] at ht
        subst ht
        have := ih ht'
        exact this
      case neg =>
        simp only [Pool.crash, Function.update_of_ne heq] at ht
        exact ih ht

-- What holds when a thread is about to issue a statement.
theorem follows_aboutTo {t : Nat} {c : κ} {x : Γ.Stmt} (h : Reachable S P init s)
    (hp : ∀ t c, P.spawn c → (S.prog t c).Follows S t c (F t c) (fun _ => Q t c) [])
    (ha : s.AboutTo t c x) : F t c x (s.world.own t) := by
  obtain ⟨⟨c, p, b⟩, ht, rfl, _, k, rfl⟩ := ha
  exact (h.follows hp ht).left

-- What holds when a thread has completed its call.
theorem follows_done {t : Nat} {th : Thread Γ κ} (h : Reachable S P init s)
    (hp : ∀ t c, P.spawn c → (S.prog t c).Follows S t c (F t c) (fun _ => Q t c) [])
    (ht : s.threads t = some th) (hd : th.Done) : Q t th.call (s.world.own t) := by
  have := h.follows hp ht
  rwa [hd.right] at this

-- What held when a statement of the log was issued.
theorem follows_entry {newer older : List (Entry Γ σ κ)} {e : Entry Γ σ κ}
    (h : Reachable S P init s)
    (hp : ∀ t c, P.spawn c → (S.prog t c).Follows S t c (F t c) (fun _ => Q t c) [])
    (hl : s.log = newer ++ e :: older) : F e.tid e.call e.stmt (e.past older) := by
  obtain ⟨s₀, st, _, hw⟩ := h.before hl
  have := st.reachable.follows_aboutTo hp st.aboutTo
  rwa [World.own, hw] at this

end Reachable

end Concurrency
