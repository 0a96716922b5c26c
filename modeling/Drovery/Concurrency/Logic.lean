import Drovery.Concurrency.Pool

namespace Concurrency

variable {Γ : Signature} {σ κ α β : Type}

-- A proof outline for the calls of a system, in the style of rely-guarantee reasoning:
--
-- * `inv` holds in every world,
-- * `rely t` is all that the threads other than `t` can do to the world,
-- * `pre t c x` holds whenever thread `t` is about to issue the statement `x` of its call `c`,
-- * `post t c` holds once thread `t` has completed its call `c`.
--
-- In contrast to `rely`, the assertions in `pre` only need to survive the steps that other threads
-- take while the thread stands in front of the statement.
structure Outline (Γ : Signature) (σ κ : Type) where
  inv  : World Γ σ κ → Prop
  rely : Nat → World Γ σ κ → World Γ σ κ → Prop  := fun _ _ _ => True
  pre  : Nat → κ → Γ.Stmt → World Γ σ κ → Prop   := fun _ _ _ _ => True
  post : Nat → κ → World Γ σ κ → Prop            := fun _ _ _ => True

namespace Outline

-- The weakest precondition under which thread `t`, running the program `p` for its call `c`, meets
-- all assertions of the outline and ends in `Q`. Before each statement the other threads may have
-- changed the world from `w` to `w'`.
def wp (O : Outline Γ σ κ) (S : System Γ σ κ) (t : Nat) (c : κ) :
    Prog Γ α → (α → World Γ σ κ → Prop) → World Γ σ κ → Prop
  | .ret a,    Q, w => Q a w
  | .call x k, Q, w =>
    O.pre t c x w ∧ ∀ w', O.rely t w w' → O.inv w' → O.pre t c x w' →
      O.wp S t c (k (S.exec x w'.db).fst) Q (w'.exec S t c x)

variable {O : Outline Γ σ κ} {S : System Γ σ κ} {t : Nat} {c : κ} {w : World Γ σ κ}

@[simp]
theorem wp_ret {a : α} {Q : α → World Γ σ κ → Prop} : O.wp S t c (.ret a) Q w ↔ Q a w :=
  Iff.rfl

theorem wp_call {x : Γ.Stmt} {k : Γ.Res x → Prog Γ α} {Q : α → World Γ σ κ → Prop} :
    O.wp S t c (.call x k) Q w ↔
      O.pre t c x w ∧ ∀ w', O.rely t w w' → O.inv w' → O.pre t c x w' →
        O.wp S t c (k (S.exec x w'.db).fst) Q (w'.exec S t c x) :=
  Iff.rfl

theorem wp_mono {p : Prog Γ α} {Q Q' : α → World Γ σ κ → Prop}
    (h : O.wp S t c p Q w) (hQ : ∀ a w, Q a w → Q' a w) : O.wp S t c p Q' w := by
  induction p generalizing w
  case ret     => exact hQ _ _ h
  case call ih => exact ⟨h.left, fun w' hr hi hp => ih _ <| h.right w' hr hi hp⟩

theorem wp_bind {p : Prog Γ α} {f : α → Prog Γ β} {Q : β → World Γ σ κ → Prop} :
    O.wp S t c (p >>= f) Q w ↔ O.wp S t c p (fun a w => O.wp S t c (f a) Q w) w := by
  induction p generalizing w
  case ret     => exact Iff.rfl
  case call ih => simp only [Prog.call_bind, wp_call, ih]

-- What is known about the result of a program in any case may be used at its end.
theorem wp_of_returns {p : Prog Γ α} {R : α → Prop} {Q Q' : α → World Γ σ κ → Prop}
    (hp : p.Returns R) (h : O.wp S t c p Q w) (hQ : ∀ a w, R a → Q a w → Q' a w) :
    O.wp S t c p Q' w := by
  induction p generalizing w
  case ret     => exact hQ _ _ hp h
  case call ih => exact ⟨h.left, fun w' hr hi hp' => ih _ (hp _) <| h.right w' hr hi hp'⟩

-- A program meets the outline if there is an assertion that no step invalidates and that implies all
-- assertions of the outline.
theorem wp_of_stable {p : Prog Γ α} {F : World Γ σ κ → Prop} (hp : ∀ {x w}, F w → O.pre t c x w)
    (hr : ∀ {w w'}, O.rely t w w' → F w → F w') (hx : ∀ {x w}, F w → F (w.exec S t c x)) (h : F w) :
    O.wp S t c p (fun _ => F) w := by
  induction p generalizing w
  case ret     => exact h
  case call ih => exact ⟨hp h, fun w' hr' _ _ => ih _ <| hx <| hr hr' h⟩

-- What is known of a program by one outline carries over to another outline, together with an assertion
-- that takes care of what the latter requires of the statements of the program.
theorem wp_transfer {O' : Outline Γ σ κ} {p : Prog Γ α} {K : Γ.Stmt → Prop}
    {Q : α → World Γ σ κ → Prop} {G : World Γ σ κ → Prop} (hp : p.Issues K)
    (hr : ∀ {w w'}, O'.rely t w w' → O.rely t w w') (hi : ∀ {w}, O'.inv w → O.inv w)
    (hpre : ∀ {x w}, K x → O'.pre t c x w → O.pre t c x w)
    (hG : ∀ {x w}, K x → G w → O'.pre t c x w)
    (hG' : ∀ {x w w'}, K x → G w → O'.rely t w w' → O'.pre t c x w' → G (w'.exec S t c x))
    (h : O.wp S t c p Q w) (hw : G w) : O'.wp S t c p (fun a w => Q a w ∧ G w) w := by
  induction p generalizing w
  case ret => exact ⟨h, hw⟩
  case call x k ih =>
    have ⟨hx, hk⟩ := hp
    refine ⟨hG hx hw, fun w' hr' hi' hp' => ?_⟩
    exact ih _ (hk _) (h.right w' (hr hr') (hi hi') (hpre hx hp')) (hG' hx hw hr' hp')

-- What has to be shown about an outline for it to describe all runs of a system. The obligations
-- are about one statement at a time, except for `spawn`, which is about one call on its own. Facts
-- that are already known about all reachable pools may be used for the former.
structure Valid (O : Outline Γ σ κ) (S : System Γ σ κ) (P : Policy Γ σ κ) (init : σ → Prop) :
    Prop where
  rely_refl   : ∀ t w, O.rely t w w
  rely_trans  : ∀ {t w₁ w₂ w₃}, O.rely t w₁ w₂ → O.rely t w₂ w₃ → O.rely t w₁ w₃
  post_stable : ∀ {t c w w'}, O.rely t w w' → O.post t c w → O.post t c w'
  inv_init    : ∀ {db}, init db → O.inv ⟨db, []⟩
  spawn       : ∀ {t c w}, P.spawn c → O.inv w → (∀ e ∈ w.log, e.tid ≠ t) →
    O.wp S t c (S.prog t c) (fun _ => O.post t c) w
  inv_step    : ∀ {s t c x}, StepOf S P init s t c x → O.inv s.world → O.pre t c x s.world →
    O.inv (s.world.exec S t c x)
  rely_step   : ∀ {s t c x t'}, StepOf S P init s t c x → O.inv s.world → O.pre t c x s.world →
    t' ≠ t → O.rely t' s.world (s.world.exec S t c x)
  pre_step    : ∀ {s t c x t' c' x'}, StepOf S P init s t c x → O.inv s.world →
    O.pre t c x s.world → t' ≠ t → s.AboutTo t' c' x' → O.pre t' c' x' s.world →
    O.pre t' c' x' (s.world.exec S t c x)

-- A pool that meets the outline.
structure Holds (O : Outline Γ σ κ) (S : System Γ σ κ) (s : Pool Γ σ κ) : Prop where
  inv : O.inv s.world
  wp  : ∀ {t th}, s.threads t = some th → th.crashed = false →
    O.wp S t th.call th.rest (fun _ => O.post t th.call) s.world

namespace Holds

variable {s : Pool Γ σ κ} {P : Policy Γ σ κ} {init : σ → Prop}

theorem pre {x : Γ.Stmt} (h : O.Holds S s) (ha : s.AboutTo t c x) : O.pre t c x s.world := by
  obtain ⟨⟨c', p, b⟩, ht, rfl, rfl, k, rfl⟩ := ha
  exact (h.wp ht rfl).left

theorem post {th : Thread Γ κ} (h : O.Holds S s) (ht : s.threads t = some th) (hd : th.Done) :
    O.post t th.call s.world := by
  have := h.wp ht hd.left
  rwa [hd.right] at this

-- The steps of other threads do not invalidate the proof of a thread.
theorem wp_step {x : Γ.Stmt} {th : Thread Γ κ} {t' : Nat} (h : O.Holds S s)
    (hv : O.Valid S P init) (hs : StepOf S P init s t c x) (hne : t' ≠ t)
    (ht : s.threads t' = some th) (hc : th.crashed = false) :
    O.wp S t' th.call th.rest (fun _ => O.post t' th.call) (s.world.exec S t c x) := by
  have hp := h.pre hs.aboutTo
  have hr := hv.rely_step hs h.inv hp hne
  have hw := h.wp ht hc
  cases hrest : th.rest <;> rw [hrest] at hw
  case ret => exact hv.post_stable hr hw
  case call x' k =>
    have ha' : s.AboutTo t' th.call x' := ⟨th, ht, rfl, hc, k, hrest⟩
    refine ⟨hv.pre_step hs h.inv hp hne ha' hw.left, fun w' hr' => ?_⟩
    exact hw.right w' (hv.rely_trans hr hr')

theorem step {s' : Pool Γ σ κ} (h : O.Holds S s) (hv : O.Valid S P init) (hi : Reachable S P init s)
    (st : Step S P s s') : O.Holds S s' := by
  cases st
  case spawn t c hn hs =>
    refine ⟨h.inv, fun {t' th} ht hc => ?_⟩
    by_cases heq : t' = t
    case pos =>
      subst heq
      simp only [Pool.spawn, Function.update_self, Option.some.injEq] at ht
      subst ht
      refine hv.spawn hs h.inv fun e he => ?_
      rintro rfl
      obtain ⟨_, ht, _⟩ := hi.log_thread e he
      simp [hn] at ht
    case neg =>
      simp only [Pool.spawn, Function.update_of_ne heq] at ht
      exact h.wp ht hc
  case exec t c x k ht hp =>
    have ha : s.AboutTo t c x := ⟨_, ht, rfl, rfl, k, rfl⟩
    have hs : StepOf S P init s t c x := ⟨hi, ha, hp⟩
    refine ⟨hv.inv_step hs h.inv (h.pre ha), fun {t' th} ht' hc => ?_⟩
    by_cases heq : t' = t
    case pos =>
      subst heq
      simp only [Pool.exec, Function.update_self, Option.some.injEq] at ht'
      subst ht'
      exact (h.wp ht rfl).right _ (hv.rely_refl ..) h.inv (h.pre ha)
    case neg =>
      simp only [Pool.exec, Function.update_of_ne heq] at ht'
      exact h.wp_step hv hs heq ht' hc
  case crash t c p ht _ =>
    refine ⟨h.inv, fun {t' th} ht' hc => ?_⟩
    by_cases heq : t' = t
    case pos =>
      subst heq
      simp only [Pool.crash, Function.update_self, Option.some.injEq] at ht'
      subst ht'
      contradiction
    case neg =>
      simp only [Pool.crash, Function.update_of_ne heq] at ht'
      exact h.wp ht' hc

end Holds

-- A valid outline describes every reachable pool.
theorem Valid.reachable {s : Pool Γ σ κ} {P : Policy Γ σ κ} {init : σ → Prop}
    (hv : O.Valid S P init) (h : Reachable S P init s) : O.Holds S s := by
  induction h
  case init h     => exact ⟨hv.inv_init h, by simp [Pool.init]⟩
  case step h e ih => exact ih.step hv h e

end Outline

end Concurrency
