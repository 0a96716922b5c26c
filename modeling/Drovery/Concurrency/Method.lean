import Drovery.Concurrency.Logic

namespace Concurrency

-- A program that may fail with an error `ε`.
abbrev Method (Γ : Signature) (ε α : Type) := ExceptT ε (Prog Γ) α

-- What becomes of a transaction: it commits, it is rolled back, or it commits but its caller is told
-- that it failed, because the connection broke down after the commit.
inductive Outcome (ε : Type)
  | committed
  | rolledBack (e : ε)
  | lost (e : ε)
  deriving DecidableEq

-- The transaction takes effect, whether or not its caller is told so.
def Outcome.applied {ε : Type} : Outcome ε → Bool
  | committed    => true
  | rolledBack _ => false
  | lost _       => true

namespace Method

variable {Γ : Signature} {ε α β σ κ : Type}

-- Issues the statement `x`, where `f` says which of its answers are failures.
def tx (x : Γ.Stmt) (f : Γ.Res x → Except ε α) : Method Γ ε α :=
  ExceptT.mk <| .call x fun r => .ret (f r)

def stmt (x : Γ.Stmt) : Method Γ ε (Γ.Res x) :=
  tx x .ok

-- A check that only depends on what is already known to the program.
def check (r : Except ε α) : Method Γ ε α :=
  ExceptT.mk <| .ret r

def handle (p : Method Γ ε α) (h : ε → Method Γ ε α) : Method Γ ε α :=
  tryCatch p h

-- Runs `p` for its effects only, and ignores failures.
def safe (p : Method Γ ε α) : Method Γ ε Unit :=
  (p >>= fun _ => pure ()).handle fun _ => pure ()

-- Runs the transaction `p` with a given outcome.
def attempt (o : Outcome ε) (p : Method Γ ε α) : Method Γ ε α :=
  match o with
  | .committed    => p
  | .rolledBack e => throw e
  | .lost e       => p >>= fun _ => throw e

-- The call of a system that consists of running `p`, whatever its result.
def toCall (p : Method Γ ε α) : Prog Γ Unit :=
  p.run >>= fun _ => .ret ()

theorem bind_run (p : Method Γ ε α) (f : α → Method Γ ε β) :
    (p >>= f).run = p.run >>= fun
      | .ok a    => (f a).run
      | .error e => .ret (.error e) := by
  refine congrArg (Prog.bind p.run) <| funext fun r => ?_
  cases r <;> rfl

theorem handle_run (p : Method Γ ε α) (h : ε → Method Γ ε α) :
    (p.handle h).run = p.run >>= fun
      | .ok a    => .ret (.ok a)
      | .error e => (h e).run := by
  refine congrArg (Prog.bind p.run) <| funext fun r => ?_
  cases r <;> rfl

-- The method never fails.
def Total (p : Method Γ ε α) : Prop :=
  p.run.Returns fun r => r.isOk

namespace Total

variable {p : Method Γ ε α} {f : α → Method Γ ε β}

theorem pure {a : α} : Total (pure a : Method Γ ε α) :=
  rfl

theorem stmt {x : Γ.Stmt} : Total (Method.stmt x : Method Γ ε (Γ.Res x)) :=
  fun _ => rfl

theorem bind (hp : p.Total) (hf : ∀ a, (f a).Total) : (p >>= f).Total := by
  rw [Total, bind_run]
  refine Prog.Returns.bind hp fun r hr => ?_
  cases r
  case ok a  => exact hf a
  case error => contradiction

theorem safe : p.safe.Total := by
  rw [Total, Method.safe, handle_run]
  refine (Prog.Returns.of_forall (Q := fun _ => True) _ fun _ => trivial).bind fun r _ => ?_
  cases r <;> rfl

end Total

-- The methods that are composed of the blocks `B`.
inductive Built (B : (α : Type) → Method Γ ε α → Prop) : {α : Type} → Method Γ ε α → Prop
  | block {α : Type} {p : Method Γ ε α} : B α p → Built B p
  | pure {α : Type} {a : α} : Built B (pure a)
  | throw {α : Type} {e : ε} : Built B (throw e : Method Γ ε α)
  | bind {α β : Type} {p : Method Γ ε α} {f : α → Method Γ ε β} :
    Built B p → (∀ a, Built B (f a)) → Built B (p >>= f)
  | handle {α : Type} {p : Method Γ ε α} {h : ε → Method Γ ε α} :
    Built B p → (∀ e, Built B (h e)) → Built B (p.handle h)

namespace Built

variable {B B' : (α : Type) → Method Γ ε α → Prop} {p : Method Γ ε α}

theorem safe (hp : Built B p) : Built B p.safe :=
  (hp.bind fun _ => .pure).handle fun _ => .pure

theorem attempt {o : Outcome ε} (hp : Built B p) : Built B (p.attempt o) := by
  cases o
  case committed  => exact hp
  case rolledBack => exact .throw
  case lost       => exact hp.bind fun _ => .throw

-- The blocks may themselves be composed of smaller blocks.
theorem refine (hp : Built B p) (hB : ∀ {α} {q : Method Γ ε α}, B α q → Built B' q) :
    Built B' p := by
  induction hp
  case block h         => exact hB h
  case pure            => exact .pure
  case throw           => exact .throw
  case bind ih₁ ih₂    => exact .bind ih₁ ih₂
  case handle ih₁ ih₂  => exact .handle ih₁ ih₂

theorem mono (hp : Built B p) (hB : ∀ {α} {q : Method Γ ε α}, B α q → B' α q) : Built B' p :=
  hp.refine fun h => .block <| hB h

theorem issues {K : Γ.Stmt → Prop} (hp : Built B p)
    (hB : ∀ {α} {q : Method Γ ε α}, B α q → q.run.Issues K) : p.run.Issues K := by
  induction hp
  case block h => exact hB h
  case pure    => trivial
  case throw   => trivial
  case bind ih₁ ih₂ =>
    rw [bind_run]
    refine ih₁.bind fun r => ?_
    cases r
    case ok    => exact ih₂ _
    case error => trivial
  case handle ih₁ ih₂ =>
    rw [handle_run]
    refine ih₁.bind fun r => ?_
    cases r
    case ok    => trivial
    case error => exact ih₂ _

end Built

end Method

namespace Outline

variable {Γ : Signature} {σ κ ε α β : Type} {O : Outline Γ σ κ} {S : System Γ σ κ} {t : Nat} {c : κ}
variable {w : World Γ σ κ}

-- The weakest precondition of a method, with one postcondition for its success and another one for
-- its failure.
def wpm (O : Outline Γ σ κ) (S : System Γ σ κ) (t : Nat) (c : κ) (p : Method Γ ε α)
    (Q : α → World Γ σ κ → Prop) (E : ε → World Γ σ κ → Prop) (w : World Γ σ κ) : Prop :=
  O.wp S t c p.run (fun | .ok a => Q a | .error e => E e) w

section

variable {Q Q' : α → World Γ σ κ → Prop} {E E' : ε → World Γ σ κ → Prop}

@[simp]
theorem wpm_pure {a : α} : O.wpm S t c (pure a : Method Γ ε α) Q E = Q a :=
  rfl

@[simp]
theorem wpm_throw {e : ε} : O.wpm S t c (throw e : Method Γ ε α) Q E = E e :=
  rfl

theorem wpm_tx {x : Γ.Stmt} {f : Γ.Res x → Except ε α} :
    O.wpm S t c (Method.tx x f) Q E w ↔
      O.pre t c x w ∧ ∀ w', O.rely t w w' → O.inv w' → O.pre t c x w' →
        match f (S.exec x w'.db).fst with
        | .ok a    => Q a (w'.exec S t c x)
        | .error e => E e (w'.exec S t c x) := by
  refine and_congr_right fun _ => forall_congr' fun w' => ?_
  refine imp_congr_right fun _ => imp_congr_right fun _ => imp_congr_right fun _ => ?_
  rw [wp_ret]
  split <;> simp_all

theorem wpm_stmt {x : Γ.Stmt} {Q : Γ.Res x → World Γ σ κ → Prop} :
    O.wpm S t c (Method.stmt x) Q E w ↔
      O.pre t c x w ∧ ∀ w', O.rely t w w' → O.inv w' → O.pre t c x w' →
        Q (S.exec x w'.db).fst (w'.exec S t c x) :=
  wpm_tx

-- A statement whose answer does not matter.
theorem wpm_tx_of {x : Γ.Stmt} {f : Γ.Res x → Except ε α} {F : World Γ σ κ → Prop}
    (hp : O.pre t c x w)
    (hF : ∀ w', O.rely t w w' → O.inv w' → O.pre t c x w' → F (w'.exec S t c x)) :
    O.wpm S t c (Method.tx x f) (fun _ => F) (fun _ => F) w := by
  refine wpm_tx.mpr ⟨hp, fun w' hr hi hp' => ?_⟩
  split <;> exact hF w' hr hi hp'

theorem wpm_mono {p : Method Γ ε α} (h : O.wpm S t c p Q E w) (hQ : ∀ a w, Q a w → Q' a w)
    (hE : ∀ e w, E e w → E' e w) : O.wpm S t c p Q' E' w := by
  refine wp_mono h fun r w h => ?_
  cases r
  case ok    => exact hQ _ _ h
  case error => exact hE _ _ h

theorem wpm_transfer {O' : Outline Γ σ κ} {p : Method Γ ε α} {K : Γ.Stmt → Prop}
    {G : World Γ σ κ → Prop} (hp : p.run.Issues K)
    (hr : ∀ {w w'}, O'.rely t w w' → O.rely t w w') (hi : ∀ {w}, O'.inv w → O.inv w)
    (hpre : ∀ {x w}, K x → O'.pre t c x w → O.pre t c x w)
    (hG : ∀ {x w}, K x → G w → O'.pre t c x w)
    (hG' : ∀ {x w w'}, K x → G w → O'.rely t w w' → O'.pre t c x w' → G (w'.exec S t c x))
    (h : O.wpm S t c p Q E w) (hw : G w) :
    O'.wpm S t c p (fun a w => Q a w ∧ G w) (fun e w => E e w ∧ G w) w := by
  refine wp_mono (wp_transfer hp hr hi hpre hG hG' h hw) fun r w h => ?_
  cases r
  case ok    => exact h
  case error => exact h

-- It does not matter what is required of the failures of a method that never fails.
theorem wpm_of_total {p : Method Γ ε α} (hp : p.Total) (h : O.wpm S t c p Q E w) :
    O.wpm S t c p Q E' w := by
  refine wp_of_returns hp h fun r w hr h => ?_
  cases r
  case ok    => exact h
  case error => contradiction

theorem wpm_bind {p : Method Γ ε β} {f : β → Method Γ ε α} :
    O.wpm S t c (p >>= f) Q E = O.wpm S t c p (fun a => O.wpm S t c (f a) Q E) E := by
  funext w
  rw [wpm, Method.bind_run, wp_bind, wpm, eq_iff_iff]
  constructor <;> refine fun h => wp_mono h fun r w h => ?_ <;> cases r <;> exact h

theorem wpm_handle {p : Method Γ ε α} {h : ε → Method Γ ε α} :
    O.wpm S t c (p.handle h) Q E = O.wpm S t c p Q (fun e => O.wpm S t c (h e) Q E) := by
  funext w
  rw [wpm, Method.handle_run, wp_bind, wpm, eq_iff_iff]
  constructor <;> refine fun h => wp_mono h fun r w h => ?_ <;> cases r <;> exact h

theorem wpm_safe {p : Method Γ ε α} {Q : Unit → World Γ σ κ → Prop} :
    O.wpm S t c p.safe Q E = O.wpm S t c p (fun _ => Q ()) (fun _ => Q ()) := by
  simp only [Method.safe, wpm_handle, wpm_bind, wpm_pure]

theorem wpm_attempt {p : Method Γ ε α} {o : Outcome ε} :
    O.wpm S t c (p.attempt o) Q E w ↔
      (o = .committed → O.wpm S t c p Q E w) ∧ (∀ e, o = .rolledBack e → E e w) ∧
        ∀ e, o = .lost e → O.wpm S t c p (fun _ => E e) E w := by
  cases o <;> simp [Method.attempt, wpm_bind]

theorem wp_toCall {p : Method Γ ε α} {Q : World Γ σ κ → Prop} :
    O.wp S t c p.toCall (fun _ => Q) w ↔ O.wpm S t c p (fun _ => Q) (fun _ => Q) w := by
  rw [Method.toCall, wp_bind, wpm]
  constructor <;> refine fun h => wp_mono h fun r w h => ?_ <;> cases r <;> exact h

theorem wpm_of_stable {p : Method Γ ε α} {F : World Γ σ κ → Prop}
    (hp : ∀ {x w}, F w → O.pre t c x w) (hr : ∀ {w w'}, O.rely t w w' → F w → F w')
    (hx : ∀ {x w}, F w → F (w.exec S t c x)) (h : F w) :
    O.wpm S t c p (fun _ => F) (fun _ => F) w := by
  refine wp_mono (wp_of_stable hp hr hx h) fun r w h => ?_
  cases r <;> exact h

-- An assertion that every block of a method reestablishes holds at the end of the method.
theorem wpm_built {B : (α : Type) → Method Γ ε α → Prop} {p : Method Γ ε α}
    {F : World Γ σ κ → Prop} (hp : Method.Built B p)
    (hB : ∀ {α} {q : Method Γ ε α} {w}, B α q → F w → O.wpm S t c q (fun _ => F) (fun _ => F) w)
    (hF : F w) : O.wpm S t c p (fun _ => F) (fun _ => F) w := by
  induction hp generalizing w
  case block h => exact hB h hF
  case pure    => exact hF
  case throw   => exact hF
  case bind ih₁ ih₂ =>
    rw [wpm_bind]
    exact wpm_mono (ih₁ hF) (fun a _ h => ih₂ a h) (fun _ _ h => h)
  case handle ih₁ ih₂ =>
    rw [wpm_handle]
    exact wpm_mono (ih₁ hF) (fun _ _ h => h) (fun e _ h => ih₂ e h)

end

-- The method meets the assertions of the outline, whatever its result.
def Ok (O : Outline Γ σ κ) (S : System Γ σ κ) (t : Nat) (c : κ) (p : Method Γ ε α)
    (w : World Γ σ κ) : Prop :=
  O.wpm S t c p (fun _ _ => True) (fun _ _ => True) w

namespace Ok

variable {p : Method Γ ε α} {f : α → Method Γ ε β} {o : Outcome ε}

theorem of_wpm {Q : α → World Γ σ κ → Prop} {E : ε → World Γ σ κ → Prop}
    (h : O.wpm S t c p Q E w) : O.Ok S t c p w :=
  wpm_mono h (fun _ _ _ => trivial) (fun _ _ _ => trivial)

@[simp]
theorem pure {a : α} : O.Ok S t c (pure a : Method Γ ε α) w :=
  trivial

@[simp]
theorem throw {e : ε} : O.Ok S t c (throw e : Method Γ ε α) w :=
  trivial

theorem tx {x : Γ.Stmt} {f : Γ.Res x → Except ε α} (h : O.pre t c x w) :
    O.Ok S t c (Method.tx x f) w :=
  wpm_tx_of h fun _ _ _ _ => trivial

theorem wpm_bind {Q : α → World Γ σ κ → Prop} (hp : O.wpm S t c p Q (fun _ _ => True) w)
    (hf : ∀ a w, Q a w → O.Ok S t c (f a) w) : O.Ok S t c (p >>= f) w := by
  rw [Ok, Outline.wpm_bind]
  exact wpm_mono hp hf (fun _ _ h => h)

theorem bind (hp : O.Ok S t c p w) (hf : ∀ a w, O.Ok S t c (f a) w) : O.Ok S t c (p >>= f) w :=
  wpm_bind hp fun a w _ => hf a w

-- What follows a statement may refer to the world in which the statement was executed.
theorem stmt_bind {x : Γ.Stmt} {f : Γ.Res x → Method Γ ε α} (hp : O.pre t c x w)
    (hf : ∀ w', O.rely t w w' → O.inv w' → O.pre t c x w' →
      O.Ok S t c (f (S.exec x w'.db).fst) (w'.exec S t c x)) :
    O.Ok S t c (Method.stmt x >>= f) w := by
  rw [Ok, Outline.wpm_bind]
  exact wpm_stmt.mpr ⟨hp, hf⟩

theorem check_bind {r : Except ε α} (hf : ∀ a, r = .ok a → O.Ok S t c (f a) w) :
    O.Ok S t c (Method.check r >>= f) w := by
  cases r
  case ok a  => exact hf a rfl
  case error => trivial

theorem handle {h : ε → Method Γ ε α} (hp : O.Ok S t c p w) (hh : ∀ e w, O.Ok S t c (h e) w) :
    O.Ok S t c (p.handle h) w := by
  rw [Ok, wpm_handle]
  exact wpm_mono hp (fun _ _ h => h) (fun e w _ => hh e w)

theorem safe (hp : O.Ok S t c p w) : O.Ok S t c p.safe w := by
  rw [Ok, wpm_safe]
  exact hp

theorem attempt (h : O.Ok S t c p w) : O.Ok S t c (p.attempt o) w :=
  wpm_attempt.mpr ⟨fun _ => h, fun _ _ => trivial, fun _ _ => h⟩

theorem ite {q : Prop} [Decidable q] {p' : Method Γ ε α} (h : O.Ok S t c p w)
    (h' : O.Ok S t c p' w) : O.Ok S t c (if q then p else p') w := by
  split
  case isTrue  => exact h
  case isFalse => exact h'

theorem built {B : (α : Type) → Method Γ ε α → Prop} (hp : Method.Built B p)
    (hB : ∀ {α} {q : Method Γ ε α} {w}, B α q → O.Ok S t c q w) : O.Ok S t c p w :=
  wpm_built hp (fun h _ => hB h) trivial

theorem toCall (h : O.Ok S t c p w) : O.wp S t c p.toCall (fun _ _ => True) w :=
  wp_toCall.mpr h

end Ok

end Outline

end Concurrency
