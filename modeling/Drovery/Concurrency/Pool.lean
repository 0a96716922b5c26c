import Mathlib.Logic.Function.Basic
import Mathlib.Logic.Relation
import Drovery.Concurrency.Prog

namespace Concurrency

-- A system of calls `κ`. Each call runs a program, and the programs of all calls share one store.
-- A program may depend on the thread that runs it, e.g. for names that are unique to the thread.
structure System (Γ : Signature) (σ κ : Type) where
  exec : (x : Γ.Stmt) → σ → Γ.Res x × σ
  prog : Nat → κ → Prog Γ Unit

-- The record of one executed statement: who ran it, on behalf of which call, and in which store.
structure Entry (Γ : Signature) (σ κ : Type) where
  tid  : Nat
  call : κ
  stmt : Γ.Stmt
  pre  : σ

-- The shared store together with the history of the run, where the latest entry comes first.
structure World (Γ : Signature) (σ κ : Type) where
  db  : σ
  log : List (Entry Γ σ κ)

structure Thread (Γ : Signature) (κ : Type) where
  call    : κ
  rest    : Prog Γ Unit
  crashed : Bool

structure Pool (Γ : Signature) (σ κ : Type) extends World Γ σ κ where
  threads : Nat → Option (Thread Γ κ)

variable {Γ : Signature} {σ κ : Type}

abbrev Pool.world (s : Pool Γ σ κ) : World Γ σ κ :=
  s.toWorld

namespace Entry

variable (S : System Γ σ κ)

-- The store right after the statement.
def post (e : Entry Γ σ κ) : σ :=
  (S.exec e.stmt e.pre).snd

end Entry

namespace World

def exec (S : System Γ σ κ) (w : World Γ σ κ) (t : Nat) (c : κ) (x : Γ.Stmt) : World Γ σ κ where
  db  := (S.exec x w.db).snd
  log := ⟨t, c, x, w.db⟩ :: w.log

-- The entries of a single thread.
def own (w : World Γ σ κ) (t : Nat) : List (Entry Γ σ κ) :=
  w.log.filter (·.tid = t)

variable {S : System Γ σ κ} {w : World Γ σ κ} {t t' : Nat} {c : κ} {x : Γ.Stmt}

@[simp]
theorem exec_db : (w.exec S t c x).db = (S.exec x w.db).snd :=
  rfl

@[simp]
theorem exec_log : (w.exec S t c x).log = ⟨t, c, x, w.db⟩ :: w.log :=
  rfl

@[simp]
theorem own_exec : (w.exec S t c x).own t = ⟨t, c, x, w.db⟩ :: w.own t := by
  simp [own]

theorem own_exec_of_ne (h : t' ≠ t) : (w.exec S t c x).own t' = w.own t' := by
  simp [own, Ne.symm h]

theorem own_eq_nil (h : ∀ e ∈ w.log, e.tid ≠ t) : w.own t = [] :=
  List.filter_eq_nil_iff.mpr fun e he => by simpa using h e he

end World

namespace Thread

-- The thread is about to issue the statement `x`.
def AboutTo (th : Thread Γ κ) (x : Γ.Stmt) : Prop :=
  th.crashed = false ∧ ∃ k, th.rest = .call x k

-- The thread has run its call to completion.
def Done (th : Thread Γ κ) : Prop :=
  th.crashed = false ∧ th.rest = .ret ()

-- The thread can take no further step.
def Stopped (th : Thread Γ κ) : Prop :=
  th.crashed = true ∨ th.Done

theorem AboutTo.not_stopped {th : Thread Γ κ} {x : Γ.Stmt} (h : th.AboutTo x) : ¬th.Stopped := by
  have ⟨hc, k, hr⟩ := h
  rintro (hs | hs)
  case inl => exact absurd hs <| by simp [hc]
  case inr => exact absurd hs.right <| by simp [hr]

end Thread

namespace Pool

variable {s : Pool Γ σ κ} {t : Nat} {c : κ} {x : Γ.Stmt}

def init (db : σ) : Pool Γ σ κ where
  db      := db
  log     := []
  threads := fun _ => none

-- The thread `t` runs the call `c` and is about to issue the statement `x`.
def AboutTo (s : Pool Γ σ κ) (t : Nat) (c : κ) (x : Γ.Stmt) : Prop :=
  ∃ th, s.threads t = some th ∧ th.call = c ∧ th.AboutTo x

-- No call that satisfies `P` is in flight.
def Idle (s : Pool Γ σ κ) (P : κ → Prop) : Prop :=
  ∀ t th, s.threads t = some th → P th.call → th.Stopped

abbrev Quiescent (s : Pool Γ σ κ) : Prop :=
  s.Idle fun _ => True

def spawn (S : System Γ σ κ) (s : Pool Γ σ κ) (t : Nat) (c : κ) : Pool Γ σ κ :=
  { s with threads := Function.update s.threads t (some ⟨c, S.prog t c, false⟩) }

def exec (S : System Γ σ κ) (s : Pool Γ σ κ) (t : Nat) (c : κ) (x : Γ.Stmt)
    (k : Γ.Res x → Prog Γ Unit) : Pool Γ σ κ where
  toWorld := s.world.exec S t c x
  threads := Function.update s.threads t (some ⟨c, k (S.exec x s.db).fst, false⟩)

def crash (s : Pool Γ σ κ) (t : Nat) (c : κ) (p : Prog Γ Unit) : Pool Γ σ κ :=
  { s with threads := Function.update s.threads t (some ⟨c, p, true⟩) }

end Pool

-- Restrictions on the runs of a system: which calls are made, which steps may be taken and which
-- threads may crash.
structure Policy (Γ : Signature) (σ κ : Type) where
  spawn : κ → Prop                                  := fun _ => True
  step  : Pool Γ σ κ → Nat → κ → Γ.Stmt → Prop      := fun _ _ _ _ => True
  crash : Prop                                      := True

inductive Step (S : System Γ σ κ) (P : Policy Γ σ κ) : Pool Γ σ κ → Pool Γ σ κ → Prop
  | spawn {s t c} :
    s.threads t = none → P.spawn c → Step S P s (s.spawn S t c)
  | exec {s t c x k} :
    s.threads t = some ⟨c, .call x k, false⟩ → P.step s t c x → Step S P s (s.exec S t c x k)
  | crash {s t c p} :
    s.threads t = some ⟨c, p, false⟩ → P.crash → Step S P s (s.crash t c p)

-- The pools that arise from an initial store by any interleaving of any number of calls.
inductive Reachable (S : System Γ σ κ) (P : Policy Γ σ κ) (init : σ → Prop) : Pool Γ σ κ → Prop
  | init {db}   : init db → Reachable S P init (.init db)
  | step {s s'} : Reachable S P init s → Step S P s s' → Reachable S P init s'

namespace Reachable

variable {S : System Γ σ κ} {P P' : Policy Γ σ κ} {init : σ → Prop} {s : Pool Γ σ κ}

-- Every entry of the log stems from a thread of the pool that runs the recorded call.
theorem log_thread (h : Reachable S P init s) :
    ∀ e ∈ s.log, ∃ th, s.threads e.tid = some th ∧ th.call = e.call := by
  induction h
  case init => simp [Pool.init]
  case step s s' _ st ih =>
    have keep {t th th'} (ht : s.threads t = some th) (hc : th'.call = th.call) :
        ∀ e ∈ s.log, ∃ th, Function.update s.threads t (some th') e.tid = some th ∧
          th.call = e.call := by
      intro e he
      have ⟨thₑ, h₁, h₂⟩ := ih e he
      by_cases heq : e.tid = t
      case pos =>
        have := Option.some_inj.mp (ht ▸ heq ▸ h₁)
        exact ⟨th', by simp [heq], by simp [hc, this, h₂]⟩
      case neg => exact ⟨thₑ, by simp [Function.update_of_ne heq, h₁], h₂⟩
    cases st
    case spawn t c hn _ =>
      intro e he
      have ⟨th, h₁, h₂⟩ := ih e he
      have hne : e.tid ≠ t := by rintro rfl; simp [hn] at h₁
      exact ⟨th, by simp [Pool.spawn, Function.update_of_ne hne, h₁], h₂⟩
    case exec t c x k ht _ =>
      intro e he
      cases List.mem_cons.mp he
      case inl he => subst he; exact ⟨_, Function.update_self .., rfl⟩
      case inr he => exact keep ht (by rfl) e he
    case crash ht _ => exact keep ht (by rfl)

-- Every thread runs a call that the policy allows.
theorem spawned {t : Nat} {th : Thread Γ κ} (h : Reachable S P init s)
    (ht : s.threads t = some th) : P.spawn th.call := by
  induction h generalizing th
  case init => simp [Pool.init] at ht
  case step s s' _ st ih =>
    have keep {t' th'} (hs : ∀ th, s.threads t' = some th → th'.call = th.call)
        (ht' : (s.threads t').isSome) (he : Function.update s.threads t' (some th') t = some th) :
        P.spawn th.call := by
      by_cases heq : t = t'
      case pos =>
        subst heq
        obtain ⟨th₀, h₀⟩ := Option.isSome_iff_exists.mp ht'
        rw [Function.update_self, Option.some.injEq] at he
        rw [← he, hs _ h₀]
        exact ih h₀
      case neg => exact ih (by rwa [Function.update_of_ne heq] at he)
    cases st
    case spawn t' c _ hp =>
      by_cases heq : t = t'
      case pos =>
        subst heq
        simp only [Pool.spawn, Function.update_self, Option.some.injEq] at ht
        exact ht ▸ hp
      case neg =>
        simp only [Pool.spawn, Function.update_of_ne heq] at ht
        exact ih ht
    case exec hs _  => exact keep (by simp [hs]) (by simp [hs]) ht
    case crash hs _ => exact keep (by simp [hs]) (by simp [hs]) ht

-- Without crashes every thread stays alive.
theorem not_crashed {t : Nat} {th : Thread Γ κ} (h : Reachable S P init s) (hc : ¬P.crash)
    (ht : s.threads t = some th) : th.crashed = false := by
  induction h generalizing th
  case init => simp [Pool.init] at ht
  case step s s' _ st ih =>
    have keep {t' th'} (ha : th'.crashed = false)
        (he : Function.update s.threads t' (some th') t = some th) : th.crashed = false := by
      by_cases heq : t = t'
      case pos =>
        subst heq
        rw [Function.update_self, Option.some.injEq] at he
        exact he ▸ ha
      case neg => exact ih (by rwa [Function.update_of_ne heq] at he)
    cases st
    case spawn    => exact keep (by rfl) ht
    case exec     => exact keep (by rfl) ht
    case crash hp => exact absurd hp hc

theorem mono (h : Reachable S P init s) (hs : ∀ c, P.spawn c → P'.spawn c)
    (hx : ∀ s t c x, P.step s t c x → P'.step s t c x) (hc : P.crash → P'.crash) :
    Reachable S P' init s := by
  induction h
  case init h => exact .init h
  case step st ih =>
    refine ih.step ?_
    cases st
    case spawn h₁ h₂ => exact .spawn h₁ <| hs _ h₂
    case exec h₁ h₂  => exact .exec h₁ <| hx _ _ _ _ h₂
    case crash h₁ h₂ => exact .crash h₁ <| hc h₂

end Reachable

-- The thread `t` may execute its statement `x` in the reachable pool `s`.
structure StepOf (S : System Γ σ κ) (P : Policy Γ σ κ) (init : σ → Prop) (s : Pool Γ σ κ) (t : Nat)
    (c : κ) (x : Γ.Stmt) : Prop where
  reachable : Reachable S P init s
  aboutTo   : s.AboutTo t c x
  allowed   : P.step s t c x

theorem StepOf.spawned {S : System Γ σ κ} {P : Policy Γ σ κ} {init : σ → Prop} {s : Pool Γ σ κ}
    {t : Nat} {c : κ} {x : Γ.Stmt} (h : StepOf S P init s t c x) : P.spawn c := by
  obtain ⟨th, ht, rfl, _⟩ := h.aboutTo
  exact h.reachable.spawned ht

-- The pool after the step.
theorem StepOf.next {S : System Γ σ κ} {P : Policy Γ σ κ} {init : σ → Prop} {s : Pool Γ σ κ}
    {t : Nat} {c : κ} {x : Γ.Stmt} (h : StepOf S P init s t c x) :
    ∃ s', Reachable S P init s' ∧ s'.world = s.world.exec S t c x := by
  obtain ⟨⟨c, p, b⟩, ht, rfl, rfl, k, rfl⟩ := h.aboutTo
  exact ⟨_, h.reachable.step <| .exec ht h.allowed, rfl⟩

namespace Reachable

variable {S : System Γ σ κ} {P : Policy Γ σ κ} {init : σ → Prop} {s : Pool Γ σ κ}

-- An invariant that every single statement preserves holds in every reachable pool.
theorem invariant {I : World Γ σ κ → Prop} (h : Reachable S P init s)
    (hi : ∀ {db}, init db → I ⟨db, []⟩)
    (hs : ∀ {s t c x}, StepOf S P init s t c x → I s.world → I (s.world.exec S t c x)) :
    I s.world := by
  induction h
  case init h => exact hi h
  case step h e ih =>
    cases e
    case spawn      => exact ih
    case exec ht hp => exact hs ⟨h, ⟨_, ht, rfl, rfl, _, rfl⟩, hp⟩ ih
    case crash      => exact ih

-- Every entry of the log stems from a step, and its world has since then developed by further steps.
theorem entry {R : World Γ σ κ → World Γ σ κ → Prop} (h : Reachable S P init s)
    (hr : ∀ w, R w w) (ht : ∀ {w₁ w₂ w₃}, R w₁ w₂ → R w₂ w₃ → R w₁ w₃)
    (hs : ∀ {s t c x}, StepOf S P init s t c x → R s.world (s.world.exec S t c x)) :
    ∀ {newer e older}, s.log = newer ++ e :: older → ∃ s₀,
      StepOf S P init s₀ e.tid e.call e.stmt ∧ s₀.world = ⟨e.pre, older⟩ ∧
        R (s₀.world.exec S e.tid e.call e.stmt) s.world := by
  refine h.invariant (I := fun w => ∀ {newer e older}, w.log = newer ++ e :: older → ∃ s₀,
    StepOf S P init s₀ e.tid e.call e.stmt ∧ s₀.world = ⟨e.pre, older⟩ ∧
      R (s₀.world.exec S e.tid e.call e.stmt) w) (by simp) fun {s t c x} st ih => ?_
  intro newer e older he
  cases newer
  case nil =>
    obtain ⟨rfl, rfl⟩ := List.cons.inj he
    exact ⟨s, st, rfl, hr _⟩
  case cons =>
    obtain ⟨s₀, st₀, hw, hR⟩ := ih (List.cons.inj he).right
    exact ⟨s₀, st₀, hw, ht hR <| hs st⟩

theorem stepOf {e : Entry Γ σ κ} (h : Reachable S P init s) (he : e ∈ s.log) :
    ∃ s₀, StepOf S P init s₀ e.tid e.call e.stmt ∧ s₀.db = e.pre := by
  obtain ⟨_, _, hl⟩ := List.append_of_mem he
  obtain ⟨s₀, st, hw, _⟩ := h.entry (R := fun _ _ => True) (fun _ => trivial) (fun _ _ => trivial)
    (fun _ => trivial) hl
  exact ⟨s₀, st, congrArg World.db hw⟩

-- What only the statements in `K` change has not changed since the last of them.
theorem unchanged {β : Type} {f : σ → β} {K : Γ.Stmt → Prop} (h : Reachable S P init s)
    (hK : ∀ x db, ¬K x → f (S.exec x db).snd = f db) :
    ∀ {newer e older}, s.log = newer ++ e :: older → (∀ e' ∈ newer, ¬K e'.stmt) →
      f s.db = f (e.post S) := by
  refine h.invariant (I := fun w => ∀ {newer e older}, w.log = newer ++ e :: older →
    (∀ e' ∈ newer, ¬K e'.stmt) → f w.db = f (e.post S)) (by simp) fun {s t c x} st ih => ?_
  intro newer e older he hn
  cases newer
  case nil =>
    obtain ⟨rfl, rfl⟩ := List.cons.inj he
    rfl
  case cons =>
    obtain ⟨rfl, hl⟩ := List.cons.inj he
    obtain ⟨hx, hn⟩ := List.forall_mem_cons.mp hn
    exact (hK x s.db hx).trans <| ih hl hn

end Reachable

-- One scheduling decision of a concrete run.
inductive Cmd (κ : Type)
  | spawn (t : Nat) (c : κ)
  | exec  (t : Nat)
  | crash (t : Nat)

namespace Cmd

-- Makes the call `c` in thread `t` and executes its first `n` statements.
def run (t : Nat) (c : κ) (n : Nat) : List (Cmd κ) :=
  .spawn t c :: List.replicate n (.exec t)

def tid : Cmd κ → Nat
  | spawn t _ => t
  | exec t    => t
  | crash t   => t

-- The decision only makes calls that satisfy `A`, and crashes a thread only if `B`.
def Calls (A : κ → Prop) (B : Prop) : Cmd κ → Prop
  | spawn _ c => A c
  | exec _    => True
  | crash _   => B

end Cmd

instance {th : Thread Γ κ} : Decidable th.Done :=
  match th with
  | ⟨_, .ret (), b⟩   => decidable_of_iff (b = false) <| by simp [Thread.Done]
  | ⟨_, .call _ _, _⟩ => .isFalse fun h => by simp [Thread.Done] at h

instance {th : Thread Γ κ} : Decidable th.Stopped :=
  inferInstanceAs (Decidable (_ ∨ _))

namespace Pool

variable (S : System Γ σ κ)

-- What the thread `t` is about to do.
def next? (s : Pool Γ σ κ) (t : Nat) : Option (κ × Γ.Stmt) :=
  match s.threads t with
  | some ⟨c, .call x _, false⟩ => some (c, x)
  | _                          => none

-- Performs a scheduling decision, and does nothing if the decision does not apply.
def apply (s : Pool Γ σ κ) : Cmd κ → Pool Γ σ κ
  | .spawn t c =>
    match s.threads t with
    | none   => s.spawn S t c
    | some _ => s
  | .exec t =>
    match s.threads t with
    | some ⟨c, .call x k, false⟩ => s.exec S t c x k
    | _                          => s
  | .crash t =>
    match s.threads t with
    | some ⟨c, p, false⟩ => s.crash t c p
    | _                  => s

def runCmds (s : Pool Γ σ κ) (cmds : List (Cmd κ)) : Pool Γ σ κ :=
  cmds.foldl (·.apply S) s

variable {S} {s : Pool Γ σ κ} {t : Nat} {cmd : Cmd κ} {cmds : List (Cmd κ)}

theorem threads_apply (h : t ≠ cmd.tid) : (s.apply S cmd).threads t = s.threads t := by
  cases cmd <;> simp only [apply, Cmd.tid] at h ⊢ <;> split <;>
    simp [spawn, exec, crash, Function.update_of_ne h]

-- A schedule only affects the threads that it mentions.
theorem threads_runCmds (h : t ∉ cmds.map Cmd.tid) :
    (s.runCmds S cmds).threads t = s.threads t := by
  induction cmds generalizing s
  case nil => rfl
  case cons cmd cmds ih =>
    simp only [List.map_cons, List.mem_cons, not_or] at h
    exact (ih h.right).trans <| threads_apply h.left

-- A thread runs the same call throughout a schedule.
theorem call_runCmds {th : Thread Γ κ} (cmds : List (Cmd κ)) (h : s.threads t = some th) :
    ∃ th', (s.runCmds S cmds).threads t = some th' ∧ th'.call = th.call := by
  have call_apply {s : Pool Γ σ κ} {th : Thread Γ κ} (cmd : Cmd κ) (h : s.threads t = some th) :
      ∃ th', (s.apply S cmd).threads t = some th' ∧ th'.call = th.call := by
    by_cases ht : t = cmd.tid
    case neg => exact ⟨th, (threads_apply ht).trans h, rfl⟩
    case pos =>
      subst ht
      cases cmd <;> simp only [Cmd.tid] at h <;> simp only [apply, h, Cmd.tid]
      case spawn => exact ⟨th, rfl, rfl⟩
      all_goals
        split
        case h_1 he =>
          obtain rfl := Option.some.inj he
          exact ⟨_, Function.update_self .., rfl⟩
        case h_2 => exact ⟨th, ‹_›, rfl⟩
  induction cmds generalizing s th
  case nil => exact ⟨th, h, rfl⟩
  case cons cmd cmds ih =>
    have ⟨th₁, h₁, hc₁⟩ := call_apply cmd h
    have ⟨th₂, h₂, hc₂⟩ := ih h₁
    exact ⟨th₂, h₂, hc₂.trans hc₁⟩

theorem call_of_spawn {db : σ} {c : κ} {th : Thread Γ κ}
    (h : ((init db).runCmds S (.spawn t c :: cmds)).threads t = some th) : th.call = c := by
  have hs : ((init db).apply S (.spawn t c)).threads t = some ⟨c, S.prog t c, false⟩ :=
    Function.update_self ..
  have ⟨th', h', hc⟩ := call_runCmds (S := S) cmds hs
  obtain rfl := Option.some.inj <| h'.symm.trans h
  exact hc

theorem aboutTo_iff_next? {c : κ} {x : Γ.Stmt} : s.AboutTo t c x ↔ s.next? t = some (c, x) := by
  unfold next?
  constructor
  case mp =>
    rintro ⟨⟨_, _, _⟩, ht, rfl, rfl, k, rfl⟩
    simp [ht]
  case mpr =>
    split
    case h_1 c' x' k ht =>
      intro h
      obtain ⟨rfl, rfl⟩ := Prod.mk.inj <| Option.some.inj h
      exact ⟨_, ht, rfl, rfl, k, rfl⟩
    case h_2 => simp

theorem runCmds_concat : s.runCmds S (cmds ++ [cmd]) = (s.runCmds S cmds).apply S cmd :=
  List.foldl_append

-- It suffices to look at the threads that the schedule mentions.
theorem not_aboutTo_runCmds {A : Γ.Stmt → Prop} {db : σ}
    (h : ∀ t ∈ cmds.map Cmd.tid, ∀ p ∈ ((init db).runCmds S cmds).next? t, ¬A p.snd) {c : κ}
    {x : Γ.Stmt} (hx : A x) : ¬((init db).runCmds S cmds).AboutTo t c x := by
  intro ha
  rw [aboutTo_iff_next?] at ha
  by_cases hm : t ∈ cmds.map Cmd.tid
  case pos => exact h t hm _ ha hx
  case neg => simp [next?, threads_runCmds hm, init] at ha

theorem idle_runCmds {A : κ → Prop} {db : σ}
    (h : ∀ t ∈ cmds.map Cmd.tid, ∀ th ∈ ((init db).runCmds S cmds).threads t,
      A th.call → th.Stopped) : ((init db).runCmds S cmds).Idle A := by
  intro t th ht ha
  by_cases hm : t ∈ cmds.map Cmd.tid
  case pos => exact h t hm th ht ha
  case neg => simp [threads_runCmds hm, init] at ht

end Pool

-- Whether the policy lets the pool take a scheduling decision.
def Policy.Admits (P : Policy Γ σ κ) (s : Pool Γ σ κ) : Cmd κ → Prop
  | .spawn _ c => P.spawn c
  | .exec t    => ∀ p ∈ s.next? t, P.step s t p.fst p.snd
  | .crash _   => P.crash

def Policy.AdmitsAll (P : Policy Γ σ κ) (S : System Γ σ κ) : Pool Γ σ κ → List (Cmd κ) → Prop
  | _, []          => True
  | s, cmd :: cmds => P.Admits s cmd ∧ P.AdmitsAll S (s.apply S cmd) cmds

-- The calls and the crashes of a schedule do not depend on its steps.
theorem Policy.AdmitsAll.of_calls {P : Policy Γ σ κ} {S : System Γ σ κ} {s : Pool Γ σ κ}
    {cmds : List (Cmd κ)} (hs : Policy.AdmitsAll { step := P.step } S s cmds)
    (hc : ∀ cmd ∈ cmds, cmd.Calls P.spawn P.crash) : P.AdmitsAll S s cmds := by
  induction cmds generalizing s
  case nil => trivial
  case cons cmd cmds ih =>
    obtain ⟨hc, hcs⟩ := List.forall_mem_cons.mp hc
    refine ⟨?_, ih hs.right hcs⟩
    cases cmd
    case spawn => exact hc
    case exec  => exact hs.left
    case crash => exact hc

section

variable {P : Policy Γ σ κ} {S : System Γ σ κ} [DecidablePred P.spawn] [Decidable P.crash]
variable [∀ s t c x, Decidable (P.step s t c x)]

instance {s : Pool Γ σ κ} {cmd : Cmd κ} : Decidable (P.Admits s cmd) :=
  match cmd with
  | .spawn _ c => inferInstanceAs (Decidable (P.spawn c))
  | .exec t    => inferInstanceAs (Decidable (∀ p ∈ s.next? t, P.step s t p.fst p.snd))
  | .crash _   => inferInstanceAs (Decidable P.crash)

instance decidableAdmitsAll {s : Pool Γ σ κ} : {cmds : List (Cmd κ)} →
    Decidable (P.AdmitsAll S s cmds)
  | []       => inferInstanceAs (Decidable True)
  | _ :: _   => @instDecidableAnd _ _ inferInstance decidableAdmitsAll

end

namespace Reachable

variable {S : System Γ σ κ} {P : Policy Γ σ κ} {init : σ → Prop} {s : Pool Γ σ κ}

theorem apply {cmd : Cmd κ} (h : Reachable S P init s) (ha : P.Admits s cmd) :
    Reachable S P init (s.apply S cmd) := by
  cases cmd <;> simp only [Pool.apply]
  case spawn =>
    split
    case h_1 hn => exact h.step <| .spawn hn ha
    case h_2    => exact h
  case exec =>
    split
    case h_1 c x k ht => exact h.step <| .exec ht <| ha (c, x) <| by simp [Pool.next?, ht]
    case h_2    => exact h
  case crash =>
    split
    case h_1 ht => exact h.step <| .crash ht ha
    case h_2    => exact h

-- A schedule that the policy admits is a run.
theorem runCmds {cmds : List (Cmd κ)} (h : Reachable S P init s) (ha : P.AdmitsAll S s cmds) :
    Reachable S P init (s.runCmds S cmds) := by
  induction cmds generalizing s
  case nil     => exact h
  case cons ih => exact ih (h.apply ha.left) ha.right

-- If only the calls and the crashes are restricted, then every schedule of admissible calls is a run.
theorem runCmds_of_calls {A : κ → Prop} {B : Prop} (cmds : List (Cmd κ))
    (h : Reachable S { spawn := A, crash := B } init s) (ha : ∀ cmd ∈ cmds, cmd.Calls A B) :
    Reachable S { spawn := A, crash := B } init (s.runCmds S cmds) := by
  refine h.runCmds ?_
  clear h
  induction cmds generalizing s
  case nil => trivial
  case cons cmd cmds ih =>
    obtain ⟨hc, ha⟩ := List.forall_mem_cons.mp ha
    refine ⟨?_, ih ha⟩
    cases cmd
    case spawn => exact hc
    case exec  => exact fun _ _ => trivial
    case crash => exact hc

-- Without restrictions every schedule is a run.
theorem runCmds_of_free (cmds : List (Cmd κ)) (h : Reachable S {} init s) :
    Reachable S {} init (s.runCmds S cmds) :=
  runCmds_of_calls cmds h fun cmd _ => by cases cmd <;> trivial

end Reachable

end Concurrency
