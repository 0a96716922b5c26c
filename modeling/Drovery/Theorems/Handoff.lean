import Mathlib.Data.Finset.Card
import Drovery.Concurrency.Local
import Drovery.Theorems.Lifecycle

namespace Drovery

open Concurrency Method Outline
open DeliveriesService

-- The number of wrong codes that have been counted against a delivery.
def Store.attempts (db : Store) (D : DeliveryId) : Nat :=
  ((db.deliveries.find? D).map (·.handoffAttempts)).getD 0

-- The entry completed the delivery `D`.
def delivers (D : DeliveryId) (e : Entry Stmt.sig Store Call) : Bool :=
  match e.stmt with
  | .delivery (.transition _ E (.deliver _)) =>
    E = D && (e.pre.deliveries.find? D).any (·.status = .awaitingHandoff)
  | _                                        => false

-- The statement counts a wrong code, provided that there are not too many of them.
def Stmt.countsGuess (D : DeliveryId) : Stmt → Bool
  | .delivery (.countWrongGuess E) => E = D
  | _                              => false

def counts (D : DeliveryId) (e : Entry Stmt.sig Store Call) : Bool :=
  e.stmt.countsGuess D

-- The call of the entry presents a code that does not match the row of the delivery as it is then.
def guesses (P : Params) (D : DeliveryId) (e : Entry Stmt.sig Store Call) : Bool :=
  match e.call, e.pre.deliveries.find? D with
  | .confirmHandoff U E code _, some d =>
    E = D ∧ d.userId = U ∧ d.status = .awaitingHandoff ∧ d.handoffAttempts < maxHandoffAttempts ∧
      !handoffCodeMatches P code d.handoffCodeHash
  | _,                          _      => false

-- The thread `t` has tried a wrong code, which it compares with what its first statement reads.
def guessed (P : Params) (D : DeliveryId) (w : History) (t : Nat) : Bool :=
  (w.own t).getLast?.any (guesses P D)

def guessers (P : Params) (D : DeliveryId) (w : History) : Finset Nat :=
  (w.log.map (·.tid)).toFinset.filter (guessed P D w ·)

-- The runs in which no call reads the delivery in order to compare a code while another one is just
-- about to count a wrong code, and in which no handoff is completed by a call that has read a number
-- of attempts which is out of date.
def codesInTurn : Policy Stmt.sig Store Call where
  step s t c x :=
    (∀ U D code faults, c = .confirmHandoff U D code faults → s.world.own t = [] →
      ∀ t' c', ¬s.AboutTo t' c' (.delivery <| .countWrongGuess D)) ∧
    ∀ o D code, x = .delivery (.transition o D <| .deliver code) →
      ∀ r ∈ s.world.own t, r.pre.attempts D = s.db.attempts D
  crash        := False

section Attempts

variable {P : Params} {pol : Policy Stmt.sig Store Call} {s : Pool Stmt.sig Store Call}
variable {t : Nat} {c : Call} {w : History} {x : Stmt} {D : DeliveryId}
variable {e : Entry Stmt.sig Store Call}

-- Only the count of a wrong code changes the number of attempts.
theorem Stmt.Warranted.attempts_eq (hx : x.Warranted P t c w)
    (hn : x ≠ .delivery (.countWrongGuess D)) :
    (x.exec w.db).snd.attempts D = w.db.attempts D := by
  have := x.rowChange w.db D
  unfold Store.attempts
  generalize (x.exec w.db).snd.deliveries.find? D = d' at this ⊢
  cases this
  case same => rfl
  case created he hf _ =>
    subst he
    simp [hf, hx.2.2.handoffAttempts]
  case moved hd _      => simp [hd]
  case guessed he _ _  => exact absurd he hn

theorem attempts_countWrongGuess {db : Store} {d : Delivery} (hd : db.deliveries.find? D = some d) :
    ((Stmt.delivery <| .countWrongGuess D).exec db).snd.attempts D =
      if db.attempts D < maxHandoffAttempts then db.attempts D + 1 else db.attempts D := by
  simp only [Store.attempts, Stmt.exec, DeliveryStmt.exec, Table.find?_cas, if_true, hd,
    Option.map_some, Option.getD_some, DeliveryStmt.guessable, decide_eq_true_eq]
  split <;> rfl

-- What the number of attempts says about the history.
structure Tallied (w : History) (D : DeliveryId) : Prop where
  bounded : w.db.attempts D ≤ maxHandoffAttempts
  -- Below the limit no wrong code has gone uncounted.
  counted : w.db.attempts D < maxHandoffAttempts → w.log.countP (counts D) ≤ w.db.attempts D
  mono    : ∀ e ∈ w.log, e.pre.attempts D ≤ w.db.attempts D

theorem Tallied.exec (h : Tallied w D) (hx : x.Warranted P t c w) :
    Tallied (w.exec (system P) t c x) D := by
  by_cases hc : x = .delivery (.countWrongGuess D)
  case neg =>
    have ha : (w.exec (system P) t c x).db.attempts D = w.db.attempts D := hx.attempts_eq hc
    have hn : ¬counts D ⟨t, c, x, w.db⟩ := by
      unfold counts Stmt.countsGuess
      split
      case h_1 E => simp_all
      case h_2   => simp
    refine ⟨ha ▸ h.bounded, ha ▸ fun hlt => ?_, fun e he => ?_⟩
    case refine_1 =>
      rw [World.exec_log, List.countP_cons_of_neg hn]
      exact h.counted hlt
    case refine_2 =>
      rw [ha]
      obtain rfl | he := List.mem_cons.mp he
      case inl => exact le_rfl
      case inr => exact h.mono e he
  case pos =>
    subst hc
    obtain ⟨_, _, _, d, _, hd, _⟩ := hx
    have ha : (w.exec (system P) t c (.delivery <| .countWrongGuess D)).db.attempts D = _ :=
      attempts_countWrongGuess hd
    have hb := h.bounded
    refine ⟨?_, fun hlt => ?_, fun e he => ?_⟩
    case refine_1 => rw [ha]; split <;> omega
    case refine_2 =>
      rw [World.exec_log, List.countP_cons_of_pos (by simp [counts, Stmt.countsGuess])]
      rw [ha] at hlt ⊢
      split at hlt
      case isTrue hl  => simpa [hl] using h.counted hl
      case isFalse hl => exact absurd hlt hl
    case refine_3 =>
      have hle : e.pre.attempts D ≤ w.db.attempts D := by
        obtain rfl | he := List.mem_cons.mp he
        case inl => exact le_rfl
        case inr => exact h.mono e he
      rw [ha]
      split <;> omega

theorem tallied (h : Reachable (system P) pol Store.Initial s) : Tallied s.world D := by
  refine h.invariant (I := fun w => Tallied w D) (fun hi => ?_) fun st ih =>
    ih.exec (StepOf.warranted st)
  refine ⟨?_, by simp, by simp⟩
  simp [Store.attempts, hi.deliveries]

end Attempts

section Guesses

variable {P : Params} {t : Nat} {c : Call} {w w' : History} {D : DeliveryId} {α : Type}

-- If the thread `t` has tried a wrong code, then it has also counted it.
def NoneLeft (P : Params) (D : DeliveryId) (w : History) (t : Nat) : Prop :=
  guessed P D w t → (w.own t).any (counts D)

theorem NoneLeft.of_own (h : NoneLeft P D w t) (hw : w'.own t = w.own t) : NoneLeft P D w' t := by
  unfold NoneLeft guessed at h ⊢
  rwa [hw]

-- A wrong code that has been tried is going to be counted by the next statement.
def guessOutline (P : Params) (D : DeliveryId) : Outline Stmt.sig Store Call where
  inv _       := True
  rely t w w' := w'.own t = w.own t
  pre t _ x w := x = .delivery (.countWrongGuess D) ∨ NoneLeft P D w t
  post t _ w  := NoneLeft P D w t

namespace guessOutline

-- The thread has issued its first statement and has no wrong code left to count.
def Settled (P : Params) (D : DeliveryId) (t : Nat) (w : History) : Prop :=
  w.own t ≠ [] ∧ NoneLeft P D w t

theorem Settled.rely (hr : (guessOutline P D).rely t w w') (h : Settled P D t w) :
    Settled P D t w' :=
  ⟨fun hn => h.1 <| hr.symm.trans hn, h.2.of_own hr⟩

theorem Settled.exec {x : Stmt} (h : Settled P D t w) :
    Settled P D t (w.exec (system P) t c x) := by
  unfold Settled NoneLeft guessed at h ⊢
  rw [World.own_exec]
  refine ⟨by simp, fun hg => ?_⟩
  rw [List.getLast?_cons_of_ne_nil h.1] at hg
  exact List.any_eq_true.mpr <| (List.any_eq_true.mp (h.2 hg)).imp fun e he => ⟨.tail _ he.1, he.2⟩

theorem settled_wpm {p : App α} (h : Settled P D t w) :
    (guessOutline P D).wpm (system P) t c p (fun _ => Settled P D t) (fun _ => Settled P D t) w :=
  wpm_of_stable (fun h => .inr h.2) Settled.rely Settled.exec h

-- A call that confirms no handoff of the delivery tries no code.
theorem not_guessed (hc : ∀ U code faults, c ≠ .confirmHandoff U D code faults)
    (h : ∀ e ∈ w.own t, e.call = c) : ¬guessed P D w t := by
  simp only [guessed, Option.any_eq_true, not_exists, not_and]
  intro e he hg
  have hm := h e <| List.mem_of_getLast? he
  unfold guesses at hg
  split at hg
  case h_2 => contradiction
  case h_1 U E code faults d hE _ =>
    simp only [decide_eq_true_eq] at hg
    obtain ⟨rfl, _⟩ := hg
    exact hc U code faults <| hm.symm.trans hE

theorem confirmHandoff_wpm {U : UserId} {code : String} {faults : CleanupFaults}
    (hc : c = .confirmHandoff U D code faults) (hw : w.own t = []) :
    (guessOutline P D).wpm (system P) t c (confirmHandoff P U D code faults)
      (fun _ => Settled P D t) (fun _ => Settled P D t) w := by
  rw [confirmHandoff, wpm_bind]
  refine wpm_stmt.mpr ⟨.inr <| by simp [NoneLeft, guessed, hw], fun w' hr _ _ => ?_⟩
  have hw' : w'.own t = [] := hr.trans hw
  let e : Entry Stmt.sig Store Call := ⟨t, c, .delivery <| .find D, w'.db⟩
  have hown : (w'.exec (system P) t c (.delivery <| .find D)).own t = [e] := by simp [hw', e]
  -- The branches in which no wrong code has been presented.
  have settled (hn : ¬guesses P D e) :
      Settled P D t (w'.exec (system P) t c (.delivery <| .find D)) := by
    refine ⟨by simp [hown], fun hg => ?_⟩
    simp only [guessed, hown, List.getLast?_singleton, Option.any_some] at hg
    exact absurd hg hn
  split
  case h_1 hd => 
    refine settled ?_
    have hd : w'.db.deliveries.find? D = none := hd
    simp [guesses, e, hc, hd]
  case h_2 d hd =>
    have hd : w'.db.deliveries.find? D = some d := hd
    split
    case isTrue h => exact settled <| by simp [guesses, e, hc, hd, h]
    case isFalse =>
      split
      case isTrue h => exact settled <| by simp [guesses, e, hc, hd, h]
      case isFalse =>
        split
        case isTrue h => exact settled <| by simp [guesses, e, hc, hd, h]
        case isFalse =>
          split
          case isTrue h => exact settled_wpm <| settled <| by simp [guesses, e, hc, hd, h]
          case isFalse =>
            split
            case isTrue h => exact settled_wpm <| settled <| by simp [guesses, e, hc, hd, h]
            case isFalse =>
              rw [rejectGuess, wpm_bind]
              refine wpm_stmt.mpr ⟨.inl rfl, fun w'' hr' _ _ => ?_⟩
              refine settled_wpm ⟨by simp, fun _ => ?_⟩
              simp [counts, Stmt.countsGuess]

theorem spawn (hf : ∀ e ∈ w.log, e.tid ≠ t) :
    (guessOutline P D).wp (system P) t c ((system P).prog t c)
      (fun _ => (guessOutline P D).post t c) w := by
  have hw := World.own_eq_nil hf
  by_cases hc : ∃ U code faults, c = .confirmHandoff U D code faults
  case pos =>
    obtain ⟨U, code, faults, rfl⟩ := hc
    refine wp_toCall.mpr <| wpm_mono (confirmHandoff_wpm rfl hw) ?_ ?_ <;> exact fun _ _ h => h.2
  case neg =>
    have hc : ∀ U code faults, c ≠ .confirmHandoff U D code faults := by simpa using hc
    refine wp_mono (wp_of_stable (F := fun w => ∀ e ∈ w.own t, e.call = c) ?_ ?_ ?_ (by simp [hw]))
      fun _ w h hg => absurd hg (not_guessed hc h)
    case refine_1 => exact fun h => .inr fun hg => absurd hg (not_guessed hc h)
    case refine_2 => exact fun hr h => hr ▸ h
    case refine_3 => exact fun h => by simpa using h

theorem valid {pol : Policy Stmt.sig Store Call} :
    (guessOutline P D).Valid (system P) pol Store.Initial where
  rely_refl _ _          := rfl
  rely_trans h₁ h₂       := h₂.trans h₁
  post_stable hr h       := h.of_own hr
  inv_init _             := trivial
  spawn _ _ hf           := spawn hf
  inv_step _ _ _         := trivial
  rely_step _ _ _ hn     := World.own_exec_of_ne hn
  pre_step _ _ _ hn _ h  := h.imp_right fun h => h.of_own (World.own_exec_of_ne hn)

end guessOutline

end Guesses

section Reads

variable {P : Params} {t : Nat} {c : Call} {es : List (Entry Stmt.sig Store Call)} {D : DeliveryId}
variable {α : Type}

-- The statement completes the handoff of the delivery `D`.
def Stmt.Delivers (D : DeliveryId) (x : Stmt) : Prop :=
  ∃ o code, x = .delivery (.transition o D <| .deliver code)

-- The thread has read a number of attempts below the limit.
def ReadBelow (D : DeliveryId) (es : List (Entry Stmt.sig Store Call)) : Prop :=
  ∃ r ∈ es, r.pre.attempts D < maxHandoffAttempts

-- A confirmation that completes a handoff has read a number of attempts below the limit.
def DeliverFollows (c : Call) (x : Stmt) (es : List (Entry Stmt.sig Store Call)) : Prop :=
  ∀ U E code faults D, c = .confirmHandoff U E code faults → x.Delivers D → ReadBelow D es

abbrev HandoffFollows (P : Params) (t : Nat) (c : Call) (p : App α)
    (es : List (Entry Stmt.sig Store Call)) : Prop :=
  p.Follows (system P) t c (DeliverFollows c) (fun _ _ => True) (fun _ _ => True) es

theorem handoffFollows_of_deliversNone {p : App α}
    (hp : Built (Single fun x => ∀ D, ¬x.Delivers D) p) : HandoffFollows P t c p es :=
  Follows.of_built hp fun ⟨hx⟩ =>
    follows_tx.mpr ⟨fun _ _ _ _ D _ hd => absurd hd (hx D), fun db => by split <;> trivial⟩

theorem failHandoff_deliversNone {faults : CleanupFaults} :
    Built (Single fun x => ∀ D, ¬x.Delivers D) (failHandoff D faults) := by
  refine .bind (failExceptional_single (fun _ h => ?_) fun _ _ => nofun) fun _ => .throw
  rintro _ ⟨_, _, rfl⟩
  obtain h | h := h <;> exact h.elim

theorem rejectGuess_deliversNone {faults : CleanupFaults} :
    Built (Single fun x => ∀ D, ¬x.Delivers D) (rejectGuess D faults) := by
  refine .bind (Single.stmt nofun) fun _ => .bind (Single.stmt nofun) fun _ => ?_
  split
  case isTrue  => exact failHandoff_deliversNone
  case isFalse => exact .throw

theorem completeHandoff_follows {code : String} {faults : CleanupFaults} (h : ReadBelow D es) :
    HandoffFollows P t c (completeHandoff D code faults) es := by
  refine follows_stmt_bind.mpr ⟨fun _ _ _ _ E _ ⟨_, _, hx⟩ => ?_, fun db => ?_⟩
  case refine_1 =>
    simp only [Stmt.delivery.injEq, DeliveryStmt.transition.injEq] at hx
    exact hx.2.1 ▸ h
  case refine_2 =>
    split
    case isTrue  => trivial
    case isFalse =>
      refine handoffFollows_of_deliversNone <| .bind (release_single nofun) fun _ => ?_
      exact .safe <| Single.stmt nofun

theorem confirmHandoff_handoffFollows {U : UserId} {code : String} {faults : CleanupFaults} :
    HandoffFollows P t c (confirmHandoff P U D code faults) [] := by
  refine follows_stmt_bind.mpr ⟨fun _ _ _ _ _ _ => nofun, fun db => ?_⟩
  split
  case h_1 => trivial
  case h_2 delivery hd =>
    have hd : db.deliveries.find? D = some delivery := hd
    split
    case isTrue  => trivial
    case isFalse =>
      split
      case isTrue  => trivial
      case isFalse =>
        split
        case isTrue  => trivial
        case isFalse =>
          split
          case isTrue       => exact handoffFollows_of_deliversNone failHandoff_deliversNone
          case isFalse hlim =>
            have hr : ReadBelow D [⟨t, c, .delivery <| .find D, db⟩] :=
              ⟨_, .head _, by simpa [Store.attempts, hd] using hlim⟩
            split
            case isTrue  => exact completeHandoff_follows hr
            case isFalse => exact handoffFollows_of_deliversNone rejectGuess_deliversNone

theorem call_deliverFollows :
    ((system P).prog t c).Follows (system P) t c (DeliverFollows c) (fun _ _ => True) [] := by
  cases c
  case confirmHandoff => exact follows_toCall.mpr confirmHandoff_handoffFollows
  all_goals exact Prog.Follows.of_forall (fun _ _ _ _ _ _ _ => nofun) fun _ _ => trivial

-- The number of attempts is below the limit when a handoff is completed, as it is still the one that
-- the call has read.
theorem attempts_lt_of_delivers {s : Pool Stmt.sig Store Call} {x : Stmt}
    (st : StepOf (system P) codesInTurn Store.Initial s t c x) (hx : x.Delivers D) :
    s.db.attempts D < maxHandoffAttempts := by
  obtain ⟨o, code, rfl⟩ := hx
  obtain ⟨_, _, U, faults, _, hc, _⟩ := StepOf.warranted st
  obtain ⟨r, hr, hlt⟩ := st.reachable.follows_aboutTo (fun _ _ _ => call_deliverFollows) st.aboutTo
    U D code faults D hc ⟨o, code, rfl⟩
  rwa [st.allowed.right o D code rfl r hr] at hlt

end Reads

section Turns

variable {P : Params} {s : Pool Stmt.sig Store Call} {t t' : Nat} {c : Call} {x : Stmt}
variable {D : DeliveryId}

-- The thread `t` has tried a wrong code that it has not counted.
def Uncounted (P : Params) (D : DeliveryId) (w : History) (t : Nat) : Prop :=
  guessed P D w t ∧ ¬(w.own t).any (counts D)

-- A thread that has tried a wrong code without counting it is just about to do so.
theorem Uncounted.aboutTo (hu : Uncounted P D s.world t)
    (h : Reachable (system P) codesInTurn Store.Initial s) :
    ∃ c, s.AboutTo t c (.delivery <| .countWrongGuess D) := by
  have ho := (guessOutline.valid (P := P) (D := D)).reachable h
  obtain ⟨hg, hn⟩ := hu
  obtain ⟨e, he, _⟩ := (Option.any_eq_true _ _).mp hg
  obtain ⟨hm, ht⟩ := List.mem_filter.mp <| List.mem_of_getLast? he
  obtain ⟨th, hth, _⟩ := h.log_thread e hm
  rw [of_decide_eq_true ht] at hth
  have hc := h.not_crashed id hth
  cases hr : th.rest
  case ret => exact absurd (ho.post hth ⟨hc, hr⟩ hg) hn
  case call x k =>
    have ha : s.AboutTo t th.call x := ⟨th, hth, rfl, hc, k, hr⟩
    obtain rfl | hl := ho.pre ha
    case inl => exact ⟨_, ha⟩
    case inr => exact absurd (hl hg) hn

-- A wrong code is only tried as long as no other one waits to be counted.
theorem Uncounted.of_exec (st : StepOf (system P) codesInTurn Store.Initial s t c x)
    (h : Uncounted P D (s.world.exec (system P) t c x) t') :
    Uncounted P D s.world t' ∨ t' = t ∧ ∀ t'', ¬Uncounted P D s.world t'' := by
  unfold Uncounted guessed at h
  by_cases ht : t' = t
  case neg =>
    rw [World.own_exec_of_ne ht] at h
    exact .inl h
  case pos =>
    subst ht
    rw [World.own_exec] at h
    cases ho : s.world.own t'
    case cons e es =>
      rw [ho, List.getLast?_cons_of_ne_nil (by simp), List.any_cons] at h
      refine .inl ⟨by simpa [guessed, ho] using h.1, fun hc => h.2 ?_⟩
      rw [ho] at hc
      simp [hc]
    case nil =>
      refine .inr ⟨rfl, fun t'' hu => ?_⟩
      have ⟨c', ha⟩ := hu.aboutTo st.reachable
      have hg : guesses P D ⟨t', c, x, s.db⟩ := by simpa [ho] using h.1
      unfold guesses at hg
      split at hg
      case h_2 => contradiction
      case h_1 U E code faults d hE _ =>
        simp only [decide_eq_true_eq] at hg
        obtain ⟨rfl, _⟩ := hg
        exact st.allowed.left U E code faults hE ho t'' c' ha

-- At any time there is at most one wrong code that has been tried but not counted.
theorem Uncounted.eq (h : Reachable (system P) codesInTurn Store.Initial s)
    (hu : Uncounted P D s.world t) (hu' : Uncounted P D s.world t') : t = t' := by
  refine h.invariant (I := fun w => ∀ t t', Uncounted P D w t → Uncounted P D w t' → t = t')
    (fun _ => ?_) (fun st ih t t' h₁ h₂ => ?_) t t' hu hu'
  case refine_1 => simp [Uncounted, guessed, World.own]
  case refine_2 =>
    obtain h₁ | ⟨ht, hn⟩ := h₁.of_exec st <;> obtain h₂ | ⟨ht', hn'⟩ := h₂.of_exec st
    case inl.inl => exact ih t t' h₁ h₂
    case inl.inr => exact absurd h₁ (hn' t)
    case inr.inl => exact absurd h₂ (hn t')
    case inr.inr => exact ht.trans ht'.symm

-- The wrong codes that have been tried are those that have been counted and at most one more.
theorem card_guessers_le (h : Reachable (system P) codesInTurn Store.Initial s)
    (ha : s.db.attempts D < maxHandoffAttempts) :
    (guessers P D s.world).card ≤ maxHandoffAttempts := by
  let p t := (s.world.own t).any (counts D)
  have hc : ((guessers P D s.world).filter (p ·)).card ≤ s.db.attempts D := by
    refine le_trans ?_ <| (tallied h).counted ha
    rw [List.countP_eq_length_filter, ← List.length_map (·.tid)]
    refine (Finset.card_le_card fun t ht => ?_).trans (List.toFinset_card_le _)
    obtain ⟨e, he, hc⟩ := List.any_eq_true.mp (Finset.mem_filter.mp ht).right
    obtain ⟨hm, ht⟩ := List.mem_filter.mp he
    exact List.mem_toFinset.mpr <|
      List.mem_map.mpr ⟨e, List.mem_filter.mpr ⟨hm, hc⟩, of_decide_eq_true ht⟩
  have hp : ((guessers P D s.world).filter (¬p ·)).card ≤ 1 := by
    refine Finset.card_le_one.mpr fun t ht t' ht' => ?_
    have uncounted {t : Nat} (ht : t ∈ (guessers P D s.world).filter (¬p ·)) :
        Uncounted P D s.world t :=
      have ⟨hm, hn⟩ := Finset.mem_filter.mp ht
      ⟨(Finset.mem_filter.mp hm).right, hn⟩
    exact (uncounted ht).eq h (uncounted ht')
  rw [← Finset.card_filter_add_card_filter_not (p ·)]
  omega

end Turns

-- If the codes are compared one after the other, and handoffs are only completed on a number of
-- attempts that is up to date, then the limit is never exceeded, it has not been reached at any time
-- before a success, and no more wrong codes than that have been tried.
theorem handoff_limit {P : Params} {s : Pool Stmt.sig Store Call}
    (h : Reachable (system P) codesInTurn Store.Initial s) (D : DeliveryId) :
    s.db.attempts D ≤ maxHandoffAttempts ∧
    ∀ newer e older, s.log = newer ++ e :: older → delivers D e →
      (∀ e' ∈ e :: older, e'.pre.attempts D < maxHandoffAttempts) ∧
      (guessers P D ⟨e.pre, older⟩).card ≤ maxHandoffAttempts := by
  refine ⟨(tallied h).bounded, fun newer e older hl hd => ?_⟩
  obtain ⟨s₀, st, hw, _⟩ := h.entry (R := fun _ _ => True) (fun _ => trivial) (fun _ _ => trivial)
    (fun _ => trivial) hl
  unfold delivers at hd
  split at hd
  case h_2 => contradiction
  case h_1 o E code he =>
    simp only [Bool.and_eq_true, decide_eq_true_eq] at hd
    obtain ⟨rfl, _⟩ := hd
    have ha := attempts_lt_of_delivers st ⟨o, code, he⟩
    have hdb : s₀.db = e.pre := congrArg World.db hw
    have hlog : s₀.log = older := congrArg World.log hw
    refine ⟨fun e' he' => ?_, hw ▸ card_guessers_le st.reachable ha⟩
    obtain rfl | he' := List.mem_cons.mp he'
    case inl => exact hdb ▸ ha
    case inr => exact ((tallied st.reachable).mono e' (hlog ▸ he')).trans_lt ha

-- A delivery arrives at its recipient.
def arrivalRun : List (Cmd Call) :=
  List.flatten [Cmd.run 1 (.create .small) 9, Cmd.run 2 (.handleStage 1 4) 5]

-- The runs in which no handoff is confirmed.
def unconfirmed : Policy Stmt.sig Store Call where
  spawn c := ∀ U D code faults, c ≠ .confirmHandoff U D code faults
  crash   := False

theorem codesInTurn_of_unconfirmed {P : Params} {s : Pool Stmt.sig Store Call}
    (h : Reachable (system P) unconfirmed Store.Initial s) :
    Reachable (system P) codesInTurn Store.Initial s := by
  refine h.strengthen (fun _ _ => trivial) (fun st => ⟨?_, ?_⟩) id
  case refine_1 => exact fun U D code faults hc => absurd hc (StepOf.spawned st U D code faults)
  case refine_2 =>
    rintro _ D code rfl
    obtain ⟨_, _, U, faults, _, hc, _⟩ := StepOf.warranted st
    exact absurd hc (StepOf.spawned st U D code faults)

section

variable {P : Params} {db : Store} {cmds : List (Cmd Call)} {t : Nat} {x : Stmt} {U : UserId}
variable {D : DeliveryId} {code : String} {faults : CleanupFaults}

-- A schedule may be continued by the next statement of a confirmation whose turn it is.
theorem codesInTurn_exec
    (h : Reachable (system P) codesInTurn Store.Initial ((Pool.init db).runCmds (system P) cmds))
    (hn : ((Pool.init db).runCmds (system P) cmds).next? t =
      some (.confirmHandoff U D code faults, x))
    (hc : ((Pool.init db).runCmds (system P) cmds).world.own t = [] → ∀ t' ∈ cmds.map Cmd.tid,
      ∀ p ∈ ((Pool.init db).runCmds (system P) cmds).next? t', ¬p.snd.countsGuess D)
    (hd : ∀ E, x.Delivers E → ∀ r ∈ ((Pool.init db).runCmds (system P) cmds).world.own t,
      r.pre.attempts E = ((Pool.init db).runCmds (system P) cmds).db.attempts E) :
    Reachable (system P) codesInTurn Store.Initial
      ((Pool.init db).runCmds (system P) (cmds ++ [.exec t])) := by
  refine Pool.runCmds_concat ▸ h.apply fun p hp => ?_
  obtain rfl := Option.some.inj <| hn.symm.trans hp
  refine ⟨?_, fun o E code hx => hd E ⟨o, code, hx⟩⟩
  rintro _ E _ _ hE ho t' c'
  obtain ⟨rfl, rfl, rfl, rfl⟩ := Call.confirmHandoff.inj hE
  exact Pool.not_aboutTo_runCmds (A := (Stmt.countsGuess D · = true)) (hc ho) <| by
    simp [Stmt.countsGuess]

theorem codesInTurn_spawn {c : Call}
    (h : Reachable (system P) codesInTurn Store.Initial ((Pool.init db).runCmds (system P) cmds)) :
    Reachable (system P) codesInTurn Store.Initial
      ((Pool.init db).runCmds (system P) (cmds ++ [.spawn t c])) := by
  have ha : codesInTurn.Admits ((Pool.init db).runCmds (system P) cmds) (.spawn t c) := trivial
  exact Pool.runCmds_concat ▸ h.apply ha

end

-- A wrong code is presented, and the right one after it has been counted.
theorem handoff_limit_second_try :
    ∃ s, Reachable (system .small) codesInTurn Store.Initial s ∧
      s.db.status 1 = some .delivered ∧ s.db.attempts 1 = 1 ∧
      (guessers .small 1 s.world).card = 1 ∧ s.db.attempts 1 ≤ maxHandoffAttempts := by
  have h₀ := codesInTurn_of_unconfirmed (P := .small) <| Reachable.runCmds_of_calls arrivalRun
    (.init Store.small_initial) (by simp [arrivalRun, Cmd.run, Cmd.Calls])
  have h₁ := codesInTurn_spawn (t := 3) (c := .confirmHandoff 1 1 "0000" {}) h₀
  have h₂ := codesInTurn_exec (t := 3) h₁ rfl (by decide) nofun
  have h₃ := codesInTurn_exec (t := 3) h₂ rfl (by decide) nofun
  have h₄ := codesInTurn_exec (t := 3) h₃ rfl (by decide) nofun
  have h₅ := codesInTurn_spawn (t := 4) (c := .confirmHandoff 1 1 "1234" {}) h₄
  have h₆ := codesInTurn_exec (t := 4) h₅ rfl (by decide) nofun
  have h₇ := codesInTurn_exec (t := 4) h₆ rfl (by decide) (by rintro _ ⟨_, _, ⟨⟩⟩; decide)
  exact ⟨_, h₇, by decide, by decide, by decide, (handoff_limit h₇ 1).left⟩

-- Five wrong codes are presented and counted after the right one has been compared.
def lateRun : List (Cmd Call) :=
  List.flatten [
    arrivalRun, Cmd.run 3 (.confirmHandoff 1 1 "1234" {}) 1,
    Cmd.run 4 (.confirmHandoff 1 1 "0000" {}) 2, Cmd.run 5 (.confirmHandoff 1 1 "0001" {}) 2,
    Cmd.run 6 (.confirmHandoff 1 1 "0002" {}) 2, Cmd.run 7 (.confirmHandoff 1 1 "0003" {}) 2,
    Cmd.run 8 (.confirmHandoff 1 1 "0004" {}) 2, [.exec 3]]

theorem handoff_limit_missed :
    ¬∀ (P : Params) (s : Pool Stmt.sig Store Call),
      Reachable (system P) { crash := False } Store.Initial s → ∀ D,
      s.db.attempts D ≤ maxHandoffAttempts ∧
      ∀ newer e older, s.log = newer ++ e :: older → delivers D e →
        (∀ e' ∈ e :: older, e'.pre.attempts D < maxHandoffAttempts) ∧
        (guessers P D ⟨e.pre, older⟩).card ≤ maxHandoffAttempts := by
  intro h
  let s := (Pool.init .small).runCmds (system .small) lateRun
  have h := (h .small s (Reachable.runCmds_of_calls lateRun (.init Store.small_initial)
    (by simp [lateRun, arrivalRun, Cmd.run, Cmd.Calls])) 1).right
  cases hl : s.log
  case nil => exact absurd (congrArg List.length hl) (by decide)
  case cons e older =>
    have hd : s.log.head?.any (delivers 1) := by decide
    have ha : s.log.head?.any fun e => maxHandoffAttempts ≤ e.pre.attempts 1 := by decide
    simp only [hl, List.head?_cons, Option.any_some, decide_eq_true_eq] at hd ha
    exact absurd ((h [] e older hl hd).left e (.head _)) (by omega)

end Drovery
