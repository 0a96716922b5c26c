import Drovery.Concurrency.Local

namespace Concurrency

-- The statements that a program issues when it runs on its own, in their order.
def Prog.trace {Γ : Signature} {α σ : Type} (exec : (x : Γ.Stmt) → σ → Γ.Res x × σ) :
    Prog Γ α → σ → List Γ.Stmt
  | .ret _,    _ => []
  | .call x k, s => x :: (k (exec x s).fst).trace exec (exec x s).snd

theorem Prog.trace_bind {Γ : Signature} {α β σ : Type} {exec : (x : Γ.Stmt) → σ → Γ.Res x × σ}
    (p : Prog Γ α) (f : α → Prog Γ β) (s : σ) :
    (p >>= f).trace exec s =
      p.trace exec s ++ (f (p.run exec s).fst).trace exec (p.run exec s).snd := by
  induction p generalizing s
  case ret     => rfl
  case call ih => exact congrArg (_ :: ·) <| ih ..

-- Each statement of a program that runs on its own satisfies `K` in the store that it finds.
def Prog.Throughout {Γ : Signature} {α σ : Type} (exec : (x : Γ.Stmt) → σ → Γ.Res x × σ)
    (K : Γ.Stmt → σ → Prop) : Prog Γ α → σ → Prop
  | .ret _,    _ => True
  | .call x k, s => K x s ∧ (k (exec x s).fst).Throughout exec K (exec x s).snd

theorem Prog.throughout_bind {Γ : Signature} {α β σ : Type}
    {exec : (x : Γ.Stmt) → σ → Γ.Res x × σ} {K : Γ.Stmt → σ → Prop} {p : Prog Γ α}
    {f : α → Prog Γ β} {s : σ} :
    (p >>= f).Throughout exec K s ↔
      p.Throughout exec K s ∧ (f (p.run exec s).fst).Throughout exec K (p.run exec s).snd := by
  induction p generalizing s
  case ret     => exact (and_iff_right trivial).symm
  case call ih => exact (and_congr_right fun _ => ih _).trans and_assoc.symm

instance {Γ : Signature} : LawfulMonad (Prog Γ) :=
  LawfulMonad.mk' _ Prog.bind_ret (fun _ _ => rfl) Prog.bind_assoc

namespace Method

variable {Γ : Signature} {ε α β σ : Type}

-- Runs a method on its own, that is, with no other program between two of its statements.
def eval (exec : (x : Γ.Stmt) → σ → Γ.Res x × σ) (p : Method Γ ε α) (s : σ) : Except ε α × σ :=
  Prog.run exec p.run s

variable {exec : (x : Γ.Stmt) → σ → Γ.Res x × σ} {s : σ} {p : Method Γ ε α}

theorem run_toCall : (Prog.run exec p.toCall s).snd = (eval exec p s).snd := by
  rw [toCall, Prog.run_bind]
  rfl

@[simp]
theorem eval_pure {a : α} : eval exec (pure a : Method Γ ε α) s = (.ok a, s) :=
  rfl

@[simp]
theorem eval_throw {e : ε} : eval exec (throw e : Method Γ ε α) s = (.error e, s) :=
  rfl

@[simp]
theorem eval_tx {x : Γ.Stmt} {f : Γ.Res x → Except ε α} :
    eval exec (tx x f) s = (f (exec x s).fst, (exec x s).snd) :=
  rfl

@[simp]
theorem eval_stmt {x : Γ.Stmt} :
    eval exec (stmt x : Method Γ ε (Γ.Res x)) s = (.ok (exec x s).fst, (exec x s).snd) :=
  rfl

theorem eval_bind {f : α → Method Γ ε β} :
    eval exec (p >>= f) s = match eval exec p s with
      | (.ok a, s')    => eval exec (f a) s'
      | (.error e, s') => (.error e, s') := by
  rw [eval, bind_run, Prog.run_bind]
  unfold eval
  obtain ⟨r, s'⟩ := Prog.run exec p.run s
  cases r <;> rfl

theorem eval_bind_of_ok {f : α → Method Γ ε β} {a : α} {s' : σ} (h : eval exec p s = (.ok a, s')) :
    eval exec (p >>= f) s = eval exec (f a) s' := by
  rw [eval_bind, h]

theorem eval_bind_of_error {f : α → Method Γ ε β} {e : ε} {s' : σ}
    (h : eval exec p s = (.error e, s')) : eval exec (p >>= f) s = (.error e, s') := by
  rw [eval_bind, h]

-- A sequence succeeds if and only if both of its parts do.
theorem eval_bind_ok_iff {f : α → Method Γ ε β} {b : β} :
    (eval exec (p >>= f) s).fst = .ok b ↔
      ∃ a, (eval exec p s).fst = .ok a ∧
        (eval exec (f a) (eval exec p s).snd).fst = .ok b := by
  rw [eval_bind]
  obtain ⟨r, s'⟩ := eval exec p s
  cases r
  case ok a    => exact ⟨fun h => ⟨a, rfl, h⟩, fun ⟨_, he, h⟩ => Except.ok.inj he ▸ h⟩
  case error e => exact ⟨nofun, fun ⟨_, he, _⟩ => nomatch he⟩

@[simp]
theorem eval_stmt_bind {x : Γ.Stmt} {f : Γ.Res x → Method Γ ε α} :
    eval exec (stmt x >>= f) s = eval exec (f (exec x s).fst) (exec x s).snd :=
  rfl

theorem eval_handle {h : ε → Method Γ ε α} :
    eval exec (p.handle h) s = match eval exec p s with
      | (.ok a, s')    => (.ok a, s')
      | (.error e, s') => eval exec (h e) s' := by
  rw [eval, handle_run, Prog.run_bind]
  unfold eval
  obtain ⟨r, s'⟩ := Prog.run exec p.run s
  cases r <;> rfl

@[simp]
theorem eval_safe : eval exec p.safe s = (.ok (), (eval exec p s).snd) := by
  rw [safe, eval_handle, eval_bind]
  obtain ⟨r, s'⟩ := eval exec p s
  cases r <;> rfl

theorem eval_of_total (exec : (x : Γ.Stmt) → σ → Γ.Res x × σ) (s : σ) (hp : p.Total) :
    ∃ a, eval exec p s = (.ok a, (eval exec p s).snd) := by
  have run {q : Prog Γ (Except ε α)} (hq : q.Returns fun r => r.isOk) (s : σ) :
      (q.run exec s).fst.isOk := by
    induction q generalizing s
    case ret     => exact hq
    case call ih => exact ih _ (hq _) _
  have := run hp s
  unfold eval
  generalize Prog.run exec p.run s = r at this ⊢
  obtain ⟨r, s'⟩ := r
  cases r
  case ok a  => exact ⟨a, rfl⟩
  case error => contradiction

-- A property that every block of a method preserves is preserved by the method.
theorem eval_built {B : (α : Type) → Method Γ ε α → Prop} {I : σ → Prop} (hp : Built B p)
    (hB : ∀ {α} {q : Method Γ ε α} {s}, B α q → I s → I (eval exec q s).snd) (h : I s) :
    I (eval exec p s).snd := by
  induction hp generalizing s
  case block hb => exact hB hb h
  case pure     => exact h
  case throw    => exact h
  case bind p f _ _ ih₁ ih₂ =>
    have := ih₁ h
    rw [eval_bind]
    generalize eval exec p s = r at this
    obtain ⟨r, s'⟩ := r
    cases r
    case ok a  => exact ih₂ a this
    case error => exact this
  case handle p f _ _ ih₁ ih₂ =>
    have := ih₁ h
    rw [eval_handle]
    generalize eval exec p s = r at this
    obtain ⟨r, s'⟩ := r
    cases r
    case ok      => exact this
    case error e => exact ih₂ e this

-- The statements that a method issues when it runs on its own, in their order.
def trace (exec : (x : Γ.Stmt) → σ → Γ.Res x × σ) (p : Method Γ ε α) (s : σ) : List Γ.Stmt :=
  Prog.trace exec p.run s

@[simp]
theorem trace_pure {a : α} : trace exec (pure a : Method Γ ε α) s = [] :=
  rfl

@[simp]
theorem trace_stmt_bind {x : Γ.Stmt} {f : Γ.Res x → Method Γ ε α} :
    trace exec (stmt x >>= f) s = x :: trace exec (f (exec x s).fst) (exec x s).snd :=
  rfl

@[simp]
theorem trace_tx {x : Γ.Stmt} {f : Γ.Res x → Except ε α} : trace exec (tx x f) s = [x] :=
  rfl

theorem trace_bind {f : α → Method Γ ε β} :
    trace exec (p >>= f) s = trace exec p s ++ match eval exec p s with
      | (.ok a, s')   => trace exec (f a) s'
      | (.error _, _) => [] := by
  rw [trace, bind_run, Prog.trace_bind]
  unfold eval trace
  obtain ⟨r, s'⟩ := Prog.run exec p.run s
  cases r <;> rfl

theorem trace_handle {h : ε → Method Γ ε α} :
    trace exec (p.handle h) s = trace exec p s ++ match eval exec p s with
      | (.ok _, _)     => []
      | (.error e, s') => trace exec (h e) s' := by
  rw [trace, handle_run, Prog.trace_bind]
  unfold eval trace
  obtain ⟨r, s'⟩ := Prog.run exec p.run s
  cases r <;> rfl

-- What holds of all statements of the blocks of a method holds of all statements of the method.
theorem trace_built {B : (α : Type) → Method Γ ε α → Prop} {K : Γ.Stmt → Prop} (hp : Built B p)
    (hB : ∀ {α} {q : Method Γ ε α} {s}, B α q → ∀ x ∈ trace exec q s, K x) :
    ∀ x ∈ trace exec p s, K x := by
  induction hp generalizing s
  case block hb => exact hB hb
  case pure     => exact List.forall_mem_nil _
  case throw    => exact List.forall_mem_nil _
  case bind p f _ _ ih₁ ih₂ =>
    rw [trace_bind, List.forall_mem_append]
    refine ⟨ih₁, ?_⟩
    split
    case h_1 => exact ih₂ _
    case h_2 => exact List.forall_mem_nil _
  case handle p h _ _ ih₁ ih₂ =>
    rw [trace_handle, List.forall_mem_append]
    refine ⟨ih₁, ?_⟩
    split
    case h_1 => exact List.forall_mem_nil _
    case h_2 => exact ih₂ _

theorem trace_safe : trace exec p.safe s = trace exec p s := by
  have forget : trace exec (p >>= fun _ => pure ()) s = trace exec p s := by
    rw [trace_bind]
    split <;> exact List.append_nil _
  rw [safe, trace_handle, forget]
  split <;> exact List.append_nil _

-- Each statement of a method that runs on its own satisfies `K` in the store that it finds.
def Throughout (exec : (x : Γ.Stmt) → σ → Γ.Res x × σ) (K : Γ.Stmt → σ → Prop)
    (p : Method Γ ε α) (s : σ) : Prop :=
  Prog.Throughout exec K p.run s

theorem throughout_bind {K : Γ.Stmt → σ → Prop} {f : α → Method Γ ε β} :
    Throughout exec K (p >>= f) s ↔ Throughout exec K p s ∧
      ∀ a, (eval exec p s).fst = .ok a → Throughout exec K (f a) (eval exec p s).snd := by
  rw [Throughout, bind_run, Prog.throughout_bind]
  refine and_congr_right fun _ => ?_
  unfold eval
  obtain ⟨r, s'⟩ := Prog.run exec p.run s
  cases r
  case ok    => exact ⟨fun h _ he => Except.ok.inj he ▸ h, fun h => h _ rfl⟩
  case error => exact ⟨fun _ _ he => (nomatch he), fun _ => trivial⟩

theorem throughout_safe {K : Γ.Stmt → σ → Prop} :
    Throughout exec K p.safe s ↔ Throughout exec K p s := by
  rw [safe, Throughout, handle_run, Prog.throughout_bind]
  change Throughout exec K (p >>= fun _ => pure ()) s ∧ _ ↔ _
  rw [throughout_bind, and_assoc]
  refine and_iff_left ⟨fun _ _ => trivial, ?_⟩
  generalize Prog.run exec _ s = r
  obtain ⟨r, s'⟩ := r
  cases r <;> trivial

theorem throughout_stmt_bind {K : Γ.Stmt → σ → Prop} {x : Γ.Stmt} {f : Γ.Res x → Method Γ ε α} :
    Throughout exec K (stmt x >>= f) s ↔
      K x s ∧ Throughout exec K (f (exec x s).fst) (exec x s).snd :=
  Iff.rfl

end Method

-- What a thread knows from its own entries also applies to a method that runs on its own, where `R`
-- relates the entries to the store that they have led to.
theorem Prog.Follows.throughout {Γ : Signature} {σ κ α : Type} {S : System Γ σ κ} {t : Nat} {c : κ}
    {F : Γ.Stmt → List (Entry Γ σ κ) → Prop} {Q : α → List (Entry Γ σ κ) → Prop}
    {K : Γ.Stmt → σ → Prop} {R : List (Entry Γ σ κ) → σ → Prop} {p : Prog Γ α}
    {es : List (Entry Γ σ κ)} {s : σ} (h : p.Follows S t c F Q es) (hR : R es s)
    (hF : ∀ {x es s}, R es s → F x es → K x s ∧ R (⟨t, c, x, s⟩ :: es) (S.exec x s).snd) :
    p.Throughout S.exec K s := by
  induction p generalizing es s
  case ret => trivial
  case call ih =>
    have ⟨hx, hk⟩ := h
    have ⟨hK, hR'⟩ := hF hR hx
    exact ⟨hK, ih _ (hk s) hR'⟩

end Concurrency
