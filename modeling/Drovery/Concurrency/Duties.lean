import Drovery.Concurrency.Logic

namespace Concurrency

-- What the threads of a system may be responsible for. A statement makes its thread responsible for
-- something, or relieves it.
structure Duties (Γ : Signature) (σ ι : Type) where
  binds    : σ → ι → Γ.Stmt → Prop
  relieves : σ → ι → Γ.Stmt → Prop

namespace Duties

variable {Γ : Signature} {σ κ ι : Type} (d : Duties Γ σ ι)

-- What a thread is responsible for after the given entries, where the latest one comes first.
def Owes (i : ι) : List (Entry Γ σ κ) → Prop
  | []      => False
  | e :: es => d.binds e.pre i e.stmt ∨ ¬d.relieves e.pre i e.stmt ∧ Owes i es

-- The thread `t` is responsible for nothing.
def Clear (t : Nat) (w : World Γ σ κ) : Prop :=
  ∀ i, ¬d.Owes i (w.own t)

-- The thread `t` is responsible for `i` at most.
def Owing (t : Nat) (i : ι) (w : World Γ σ κ) : Prop :=
  ∀ j, d.Owes j (w.own t) → j = i

-- An assertion about what the thread is responsible for that does not break when it becomes less.
def Debt (t : Nat) (F : World Γ σ κ → Prop) : Prop :=
  ∀ {w w'}, (∀ i, d.Owes i (w'.own t) → d.Owes i (w.own t)) → F w → F w'

variable {d} {S : System Γ σ κ} {t : Nat} {c : κ} {x : Γ.Stmt} {w w' : World Γ σ κ} {i : ι}
variable {F : World Γ σ κ → Prop}

theorem owes_exec : d.Owes i ((w.exec S t c x).own t) ↔
    d.binds w.db i x ∨ ¬d.relieves w.db i x ∧ d.Owes i (w.own t) := by
  rw [World.own_exec, Owes]

theorem Clear.owing (h : d.Clear t w) : d.Owing t i w :=
  fun j ho => absurd ho (h j)

theorem clear_of_own (h : w.own t = []) : d.Clear t w :=
  fun i ho => by rwa [h] at ho

theorem debt_clear : @Debt Γ σ κ ι d t (d.Clear t) :=
  fun h hc i ho => hc i (h i ho)

theorem debt_owing : @Debt Γ σ κ ι d t (d.Owing t i) :=
  fun h hc j ho => hc j (h j ho)

theorem Debt.of_own (hF : d.Debt t F) (hr : w'.own t = w.own t) (h : F w) : F w' :=
  hF (fun _ ho => by rwa [hr] at ho) h

theorem Debt.exec (hF : d.Debt t F) (hx : ∀ i, ¬d.binds w.db i x) (h : F w) : F (w.exec S t c x) :=
  hF (fun i ho => ((owes_exec.mp ho).resolve_left <| hx i).right) h

-- A thread that is only responsible for `i` is relieved of it.
theorem Owing.relieved (h : d.Owing t i w) (hx : ∀ i, ¬d.binds w.db i x) (hr : d.relieves w.db i x) :
    d.Clear t (w.exec S t c x) := by
  intro j ho
  obtain ⟨hn, ho⟩ := (owes_exec.mp ho).resolve_left <| hx j
  obtain rfl := h j ho
  exact hn hr

-- What a thread becomes responsible for by a single statement.
theorem Clear.binds (h : d.Clear t w) (ho : d.Owes i ((w.exec S t c x).own t)) : d.binds w.db i x :=
  (owes_exec.mp ho).resolve_right fun ho => h i ho.right

-- A thread is only responsible for what one of its entries has bound it to.
theorem Owes.binds {es : List (Entry Γ σ κ)} (h : d.Owes i es) :
    ∃ e ∈ es, d.binds e.pre i e.stmt := by
  induction es
  case nil => exact h.elim
  case cons e es ih =>
    obtain h | ⟨_, h⟩ := h
    case inl => exact ⟨e, .head _, h⟩
    case inr =>
      obtain ⟨e', he, hb⟩ := ih h
      exact ⟨e', .tail _ he, hb⟩

-- Once all calls that may take on a duty have been completed, nobody is responsible for anything.
theorem not_owes_of_idle {P : Policy Γ σ κ} {init : σ → Prop} {s : Pool Γ σ κ} {A : κ → Prop}
    (h : Reachable S P init s) (hc : ¬P.crash) (hq : s.Idle A)
    (hA : ∀ e ∈ s.log, d.binds e.pre i e.stmt → A e.call)
    (hp : ∀ {t th}, s.threads t = some th → th.Done → d.Clear t s.world) :
    ¬d.Owes i (s.world.own t) := by
  intro ho
  -- The thread has issued the statement that has bound it, so that it has been completed.
  obtain ⟨e, he, hb⟩ := ho.binds
  obtain ⟨he, ht⟩ := List.mem_filter.mp he
  obtain ⟨th, hth, hcall⟩ := h.log_thread e he
  rw [of_decide_eq_true ht] at hth
  have hd : th.Done := (hq t th hth <| hcall ▸ hA e he hb).resolve_left <|
    Bool.eq_false_iff.mp <| h.not_crashed hc hth
  exact hp hth hd i ho

theorem not_owes_of_quiescent {P : Policy Γ σ κ} {init : σ → Prop} {s : Pool Γ σ κ}
    (h : Reachable S P init s) (hc : ¬P.crash) (hq : s.Quiescent)
    (hp : ∀ {t th}, s.threads t = some th → th.Done → d.Clear t s.world) :
    ¬d.Owes i (s.world.own t) :=
  not_owes_of_idle h hc hq (fun _ _ _ => trivial) hp

-- While a thread is responsible for `i`, some assertion holds: it is established when the thread is bound,
-- and it only breaks when the thread is relieved.
theorem guards {P : Policy Γ σ κ} {init : σ → Prop} {s : Pool Γ σ κ} {A : κ → Prop} {I : σ → Prop}
    (h : Reachable S P init s) (hb : ∀ {db x}, d.binds db i x → I (S.exec x db).snd)
    (hs : ∀ {s t c x t' c' x'}, StepOf S P init s t c x → s.AboutTo t' c' x' → A c' →
      d.Owes i (s.world.own t') → (t' = t → ¬d.relieves s.db i x) → I s.db → I (S.exec x s.db).snd)
    (ha : s.AboutTo t c x) (hA : A c) (ho : d.Owes i (s.world.own t)) : I s.db := by
  induction h generalizing t c x
  case init => cases ho
  case step s s' hr st ih =>
    obtain ⟨th, ht, hc, hx⟩ := ha
    cases st
    case spawn t' c' hn _ =>
      by_cases heq : t = t'
      case neg =>
        simp only [Pool.spawn, Function.update_of_ne heq] at ht
        exact ih ⟨th, ht, hc, hx⟩ hA ho
      case pos =>
        have hw : s.world.own t = [] := World.own_eq_nil fun e he het => by
          obtain ⟨_, h, _⟩ := hr.log_thread e he
          simp [het, heq, hn] at h
        exact (clear_of_own hw i ho).elim
    case exec t' c' x' k ht' hp =>
      have ha' : s.AboutTo t' c' x' := ⟨_, ht', rfl, rfl, k, rfl⟩
      by_cases heq : t = t'
      case neg =>
        simp only [Pool.exec, Function.update_of_ne heq] at ht
        have ho : d.Owes i (s.world.own t) := World.own_exec_of_ne (S := S) heq ▸ ho
        have ha : s.AboutTo t c x := ⟨th, ht, hc, hx⟩
        exact hs ⟨hr, ha', hp⟩ ha hA ho (fun he => absurd he heq) <| ih ha hA ho
      case pos =>
        subst heq
        simp only [Pool.exec, Function.update_self, Option.some.injEq] at ht
        have hA : A c' := by rwa [show c' = c by rw [← hc, ← ht]]
        cases owes_exec.mp ho
        case inl hbx   => exact hb hbx
        case inr hrest =>
          exact hs ⟨hr, ha', hp⟩ ha' hA hrest.right (fun _ => hrest.left) <| ih ha' hA hrest.right
    case crash t' c' p ht' _ =>
      by_cases heq : t = t'
      case neg =>
        simp only [Pool.crash, Function.update_of_ne heq] at ht
        exact ih ⟨th, ht, hc, hx⟩ hA ho
      case pos =>
        subst heq
        simp only [Pool.crash, Function.update_self, Option.some.injEq] at ht
        exact absurd hx.left <| by simp [← ht]

end Duties

end Concurrency
