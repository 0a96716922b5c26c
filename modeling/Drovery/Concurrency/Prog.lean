import Mathlib.Data.Prod.Basic

namespace Concurrency

-- The atomic statements a program may issue against a shared store, together with the type of the
-- answer to each of them.
structure Signature where
  Stmt : Type
  Res  : Stmt → Type

-- A sequential program over the statements of `Γ`. What happens between two statements is local to
-- the program and therefore not visible to any other program. Programs are finite trees: a program
-- in this model always runs to completion when it is left alone.
inductive Prog (Γ : Signature) (α : Type)
  | ret  (a : α)
  | call (x : Γ.Stmt) (k : Γ.Res x → Prog Γ α)

namespace Prog

variable {Γ : Signature} {α β γ σ : Type}

def bind : Prog Γ α → (α → Prog Γ β) → Prog Γ β
  | ret a,    f => f a
  | call x k, f => call x fun r => (k r).bind f

instance : Monad (Prog Γ) where
  pure := ret
  bind := bind

-- The program that consists of the single statement `x`.
def stmt (x : Γ.Stmt) : Prog Γ (Γ.Res x) :=
  call x ret

@[simp]
theorem pure_eq (a : α) : (pure a : Prog Γ α) = ret a :=
  rfl

@[simp]
theorem ret_bind (a : α) (f : α → Prog Γ β) : (ret a >>= f) = f a :=
  rfl

@[simp]
theorem call_bind (x : Γ.Stmt) (k : Γ.Res x → Prog Γ α) (f : α → Prog Γ β) :
    (call x k >>= f) = call x fun r => k r >>= f :=
  rfl

@[simp]
theorem stmt_bind (x : Γ.Stmt) (f : Γ.Res x → Prog Γ β) : (stmt x >>= f) = call x f :=
  rfl

@[simp]
theorem bind_ret (p : Prog Γ α) : p >>= ret = p := by
  induction p
  case ret      => rfl
  case call ih  => simp [ih]

theorem bind_assoc (p : Prog Γ α) (f : α → Prog Γ β) (g : β → Prog Γ γ) :
    (p >>= f) >>= g = p >>= fun a => f a >>= g := by
  induction p
  case ret     => rfl
  case call ih => simp [ih]

-- Whatever the answers that `p` receives, its result satisfies `Q`.
def Returns (Q : α → Prop) : Prog Γ α → Prop
  | ret a    => Q a
  | call _ k => ∀ r, (k r).Returns Q

theorem Returns.of_forall {Q : α → Prop} (p : Prog Γ α) (h : ∀ a, Q a) : p.Returns Q := by
  induction p
  case ret     => exact h _
  case call ih => exact ih

theorem Returns.bind {p : Prog Γ α} {f : α → Prog Γ β} {Q : α → Prop} {Q' : β → Prop}
    (hp : p.Returns Q) (hf : ∀ a, Q a → (f a).Returns Q') : (p >>= f).Returns Q' := by
  induction p
  case ret     => exact hf _ hp
  case call ih => exact fun r => ih r <| hp r

-- Whatever the answers that `p` receives, it only issues statements that satisfy `K`.
def Issues (K : Γ.Stmt → Prop) : Prog Γ α → Prop
  | ret _    => True
  | call x k => K x ∧ ∀ r, (k r).Issues K

theorem Issues.of_forall {K : Γ.Stmt → Prop} (p : Prog Γ α) (h : ∀ x, K x) : p.Issues K := by
  induction p
  case ret     => trivial
  case call ih => exact ⟨h _, ih⟩

theorem Issues.bind {K : Γ.Stmt → Prop} {p : Prog Γ α} {f : α → Prog Γ β} (hp : p.Issues K)
    (hf : ∀ a, (f a).Issues K) : (p >>= f).Issues K := by
  induction p
  case ret     => exact hf _
  case call ih => exact ⟨hp.left, fun r => ih r <| hp.right r⟩

-- Runs a program on its own, that is, with no other program between two of its statements.
def run (exec : (x : Γ.Stmt) → σ → Γ.Res x × σ) : Prog Γ α → σ → α × σ
  | ret a,    s => (a, s)
  | call x k, s => (k (exec x s).fst).run exec (exec x s).snd

section

variable {exec : (x : Γ.Stmt) → σ → Γ.Res x × σ}

@[simp]
theorem run_ret (a : α) (s : σ) : (ret a : Prog Γ α).run exec s = (a, s) :=
  rfl

@[simp]
theorem run_call (x : Γ.Stmt) (k : Γ.Res x → Prog Γ α) (s : σ) :
    (call x k).run exec s = (k (exec x s).fst).run exec (exec x s).snd :=
  rfl

theorem run_bind (p : Prog Γ α) (f : α → Prog Γ β) (s : σ) :
    (p >>= f).run exec s = (f (p.run exec s).fst).run exec (p.run exec s).snd := by
  induction p generalizing s
  case ret     => rfl
  case call ih => simp [ih]

end

end Prog

end Concurrency
