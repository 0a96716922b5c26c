import Drovery.Theorems.Sessions

namespace Drovery.Auth

open Concurrency

-- The entry commits a reset of the password of the user `U`.
def Resets (U : UserId) (e : Entry Stmt.sig Store Call) : Prop :=
  ∃ p now, e.stmt = .resetPassword U p now ∧ (e.pre.resetPassword U p now).isOk

-- The runs in which no call acts on a check that a password reset has overtaken. A login does not
-- store its session if the password of its user has been reset since the login began, and a password
-- is not reset by a token that has been used up since the call has read it.
def checksHold : Policy Stmt.sig Store Call where
  step s t c x := match x with
    | .createToken h _   => ∀ newer r older, s.log = newer ++ r :: older → r.tid = t →
      ∀ e ∈ newer, ¬Resets h.token.sub e
    | .resetPassword ..  => ∀ T p, c = .resetPassword T p →
      ∀ row ∈ s.db.resetTokens.find? T, row.usedAt = none
    | _                  => True

-- A password reset ends all sessions that had been started before, and each token makes it once.
structure Evicts (s : Pool Stmt.sig Store Call) : Prop where
  -- All calls that had been started when the password was reset have been completed by the time the
  -- token `T` is exchanged. Then `T` stems from a login that was started after the reset, so that the
  -- new password has been checked.
  session : ∀ {newer e mid r older L T T' e'}, s.log = newer ++ e :: (mid ++ r :: older) →
    Resets T.sub r → (∀ x ∈ older, (∀ y ∈ e :: newer, y.tid ≠ x.tid) ∧
      ∀ th, s.threads x.tid = some th → th.Stopped) →
    e' ∈ s.log → Issues L e' → Descends s.log L T → Exchanges T T' e →
    ∀ x ∈ older, x.tid ≠ e'.tid
  once    : s.log.Pairwise fun e e' => ∀ T p p' U U', e.call = .resetPassword T p →
    e'.call = .resetPassword T p' → Resets U e → ¬Resets U' e'

section

variable {db db' : Store} {U : UserId} {p : String} {now : Time} {x : Stmt} {T : ResetToken}
variable {row : PasswordResetToken}

theorem resetPassword_ok (h : db.resetPassword U p now = .ok db') :
    db'.refreshTokens = db.refreshTokens.deleteMany (fun _ r => r.userId = U) ∧
      db'.resetTokens = db.resetTokens.updateMany (Store.usable U) (·.use now) := by
  unfold Store.resetPassword at h
  split at h
  case h_1 => contradiction
  case h_2 =>
    obtain rfl := Except.ok.inj h
    exact ⟨rfl, rfl⟩

theorem Resets.post {P : Params} {r : Entry Stmt.sig Store Call} (h : Resets U r) :
    ∃ p now, r.pre.resetPassword U p now = .ok (r.post <| system P) := by
  obtain ⟨t, c, x, db⟩ := r
  obtain ⟨p, now, rfl, hok⟩ := h
  cases hr : db.resetPassword U p now
  case error  => rw [hr] at hok; contradiction
  case ok db' => exact ⟨p, now, by simp [Entry.post, system, Stmt.exec, hr, Stmt.commit]⟩

-- A token for a reset stays there, and a used one stays used.
theorem resetToken_exec (hf : db.resetTokens.find? T = some row) :
    ∃ row', (Stmt.exec x db).snd.resetTokens.find? T = some row' ∧ row'.userId = row.userId ∧
      (row.usedAt.isSome → row'.usedAt.isSome) := by
  have keep : ∃ row', db.resetTokens.find? T = some row' ∧ row'.userId = row.userId ∧
      (row.usedAt.isSome → row'.usedAt.isSome) := ⟨row, hf, rfl, id⟩
  have used {U : UserId} {now : Time} :
      ∃ row', (db.resetTokens.updateMany (Store.usable U) (·.use now)).find? T = some row' ∧
        row'.userId = row.userId ∧ (row.usedAt.isSome → row'.usedAt.isSome) := by
    rw [Table.find?_updateMany, hf, Option.map_some]
    refine ⟨_, rfl, ?_⟩
    split
    case isTrue  => exact ⟨rfl, fun _ => rfl⟩
    case isFalse => exact ⟨rfl, id⟩
  cases x <;> simp only [Stmt.exec]
  case createToken h r =>
    cases hc : db.createToken h r
    case error => exact keep
    case ok    =>
      unfold Store.createToken at hc
      split at hc
      case h_1 => contradiction
      case h_2 => exact Except.ok.inj hc ▸ keep
  case rotate old n h r =>
    cases hc : db.rotate old n h r
    case error => exact keep
    case ok    =>
      unfold Store.rotate Store.createToken at hc
      split at hc
      case h_1 => contradiction
      case h_2 =>
        split at hc
        case h_1 => contradiction
        case h_2 => exact Except.ok.inj hc ▸ keep
  case useResetTokens => exact used
  case createResetToken T' r =>
    cases hc : db.createResetToken T' r
    case error => exact keep
    case ok    =>
      unfold Store.createResetToken at hc
      split at hc
      case h_1    => contradiction
      case h_2 hi =>
        obtain rfl := Except.ok.inj hc
        have hne : T ≠ T' := by rintro rfl; rw [Table.find?_of_insert hi] at hf; contradiction
        exact ⟨row, by simp [Stmt.commit, Table.find?_insert hi, hne, hf], rfl, id⟩
  case resetPassword U p n =>
    cases hc : db.resetPassword U p n
    case error => exact keep
    case ok    =>
      simp only [Stmt.commit, (resetPassword_ok hc).right]
      exact used
  all_goals exact keep

end

section

variable {P : Params} {pol : Policy Stmt.sig Store Call} {s : Pool Stmt.sig Store Call}
variable {newer mid older : Log} {e r : Entry Stmt.sig Store Call} {T T' L : Token}

-- A token that was stored before its user's password has been reset is gone for ever.
theorem gone_since (h : Reachable (system P) pol Store.Initial s)
    (hl : s.log = newer ++ r :: older) (hr : Resets T.sub r) (hT : Created older T) :
    s.db.refreshTokens.find? (hashToken T) = none := by
  refine h.since_step (I := fun _ db => db.refreshTokens.find? (hashToken T) = none) hl ?_
    fun {s t c x newer} st hl hn => ?_
  case refine_1 =>
    obtain ⟨p, now, hp⟩ := hr.post (P := P)
    obtain ⟨s₀, st₀, hdb, _⟩ := h.before hl
    rw [(resetPassword_ok hp).left, Table.find?_deleteMany, Option.filter_eq_none_iff]
    intro row hf
    rw [← hdb] at hf
    simp [(known st₀.reachable hf).left]
  case refine_2 =>
    have hT : Created s.log T := hl ▸ hT.mono fun e he => List.mem_append_right _ <| .tail _ he
    cases hf : (Stmt.exec x s.db).snd.refreshTokens.find? (hashToken T)
    case none   => exact hf
    case some row =>
      obtain ⟨row₀, hf₀, _⟩ | hc := token_exec hf
      case inl => rw [hn] at hf₀; contradiction
      case inr => exact absurd hc <| not_creates st hT

theorem not_exchanged_of_reset (h : Reachable (system P) pol Store.Initial s)
    (hl : s.log = newer ++ e :: (mid ++ r :: older)) (hr : Resets T.sub r) (hT : Created older T) :
    ¬Exchanges T T' e := by
  intro he
  obtain ⟨s₀, st₀, hdb, hlog⟩ := h.before hl
  obtain ⟨⟨row, hf⟩, _⟩ := he.revoked (P := P)
  rw [← hdb, gone_since st₀.reachable hlog hr hT] at hf
  contradiction

-- A login that was started before a reset stores its session before the reset, if at all.
theorem issued_before {x : Entry Stmt.sig Store Call}
    (h : Reachable (system P) checksHold Store.Initial s) (hl : s.log = newer ++ r :: older)
    (hr : Resets L.sub r) (he : e ∈ s.log) (hi : Issues L e) (hx : x ∈ older) (ht : x.tid = e.tid) :
    Created older L := by
  obtain ⟨row, hs⟩ := hi
  rw [hl] at he
  obtain he | he := List.mem_append.mp he
  case inl =>
    obtain ⟨a, b, rfl⟩ := List.append_of_mem he
    rw [List.append_assoc, List.cons_append] at hl
    obtain ⟨s₀, st₀, _, hlog⟩ := h.before hl
    obtain ⟨a', b', rfl⟩ := List.append_of_mem hx
    have ha := st₀.allowed
    rw [hs] at ha
    have hm : r ∈ b ++ r :: a' := List.mem_append_right _ List.mem_cons_self
    exact absurd hr <| ha (b ++ r :: a') x b' (by simp [hlog]) ht r hm
  case inr =>
    obtain rfl | he := List.mem_cons.mp he
    case inl =>
      obtain ⟨p, now, hp, _⟩ := hr
      rw [hs] at hp
      contradiction
    case inr => exact ⟨e, he, row, by rw [hs]; exact ⟨rfl, rfl⟩⟩

-- The same holds for all sessions that stem from it.
theorem descendants_before {x e' : Entry Stmt.sig Store Call}
    (h : Reachable (system P) checksHold Store.Initial s) (hl : s.log = newer ++ r :: older)
    (hr : Resets L.sub r) (he' : e' ∈ s.log) (hi : Issues L e') (hx : x ∈ older)
    (ht : x.tid = e'.tid) (hd : Descends s.log L T) : Created older T ∧ T.sub = L.sub := by
  induction hd
  case refl => exact ⟨issued_before h hl hr he' hi hx ht, rfl⟩
  case step T₁ T₂ e _ he hex ih =>
    obtain ⟨hc, hs⟩ := ih
    obtain ⟨row, hcr⟩ := hex.creates
    rw [hl] at he
    obtain he | he := List.mem_append.mp he
    case inl =>
      obtain ⟨a, b, rfl⟩ := List.append_of_mem he
      rw [List.append_assoc, List.cons_append] at hl
      exact absurd hex <| not_exchanged_of_reset h hl (hs ▸ hr) hc
    case inr =>
      obtain rfl | he := List.mem_cons.mp he
      case inl =>
        obtain ⟨p, now, hp, _⟩ := hr
        rw [hp] at hcr
        exact hcr.elim
      case inr =>
        obtain ⟨a, b, rfl⟩ := List.append_of_mem he
        have hle : s.log = (newer ++ r :: a) ++ e :: b := by simp [hl]
        exact ⟨⟨e, he, row, hcr⟩, (hex.sub h hle).trans hs⟩

-- A token that has been used to reset a password is used up.
theorem used_since {T : ResetToken} {p : String} {U : UserId}
    (h : Reachable (system P) pol Store.Initial s) (hl : s.log = newer ++ r :: older)
    (hc : r.call = .resetPassword T p) (hr : Resets U r) :
    ∃ row, s.db.resetTokens.find? T = some row ∧ row.usedAt.isSome := by
  refine h.since_step (I := fun _ db => ∃ row, db.resetTokens.find? T = some row ∧
    row.usedAt.isSome) hl ?_ fun {s t c x newer} _ _ ⟨row, hf, hu⟩ => ?_
  case refine_2 =>
    obtain ⟨row', hf', _, hu'⟩ := resetToken_exec (x := x) hf
    exact ⟨row', hf', hu' hu⟩
  case refine_1 =>
    obtain ⟨p', now, hp⟩ := hr.post (P := P)
    obtain ⟨p₀, now₀, hs, _⟩ := hr
    obtain ⟨s₀, st₀, hdb, _⟩ := h.before hl
    -- The token belongs to the user whose password is reset.
    have hrule := rules_of_step st₀
    rw [hs, hc] at hrule
    obtain ⟨T', _, hT, f, hf, _, row₀, hrow₀, hu₀⟩ := hrule
    obtain ⟨rfl, _⟩ := Call.resetPassword.inj hT
    obtain ⟨_, a, b, hlf⟩ := World.mem_own hf
    let I (db : Store) := ∃ row, db.resetTokens.find? T = some row ∧ row.userId = U
    have step {e : Entry Stmt.sig Store Call} : I e.pre → I (e.post <| system P) := by
      rintro ⟨row, hf, hu⟩
      obtain ⟨row', hf', hu', _⟩ := resetToken_exec (x := e.stmt) hf
      exact ⟨row', hf', hu'.trans hu⟩
    obtain ⟨row, hrow, hu⟩ : I s₀.db :=
      st₀.reachable.since (I := fun _ => I) hlf (step ⟨row₀, hrow₀, hu₀⟩) fun h => step h
    rw [hdb] at hrow
    rw [(resetPassword_ok hp).right, Table.find?_updateMany, hrow]
    refine ⟨_, rfl, ?_⟩
    cases hv : row.usedAt <;> simp [Store.usable, hu, hv, PasswordResetToken.use]

theorem reset_once (h : Reachable (system P) checksHold Store.Initial s) :
    s.log.Pairwise fun e e' => ∀ T p p' U U', e.call = .resetPassword T p →
      e'.call = .resetPassword T p' → Resets U e → ¬Resets U' e' := by
  refine h.invariant (I := fun w => w.log.Pairwise fun e e' => ∀ T p p' U U',
    e.call = .resetPassword T p → e'.call = .resetPassword T p' → Resets U e → ¬Resets U' e')
    (fun _ => .nil) fun {s t c x} st ih => ?_
  refine List.pairwise_cons.mpr ⟨fun e' he' T p p' U U' hc hc' hr hr' => ?_, ih⟩
  obtain ⟨newer, older, hl⟩ := List.append_of_mem he'
  obtain ⟨row, hf, hu⟩ := used_since st.reachable hl hc' hr'
  obtain ⟨p₀, now, rfl, _⟩ := hr
  rw [st.allowed T p hc row hf] at hu
  contradiction

end

-- In a run in which no call acts on an outdated check, a password reset ends all older sessions, and
-- no token resets a password twice.
theorem reset_evicts {P : Params} {s : Pool Stmt.sig Store Call}
    (h : Reachable (system P) checksHold Store.Initial s) : Evicts s where
  once    := reset_once h
  session := by
    intro newer e mid r older L T T' e' hl hr _ he' hi hd hx x hxo ht
    have hT : Created s.log T :=
      (created_of_exchanged h hl hx).mono fun x hx => hl ▸ List.mem_append_right _ (.tail _ hx)
    have hs : L.sub = T.sub := (@Descends.created _ _ _ [] _ _ _ hd h rfl hT).right
    have hl' : s.log = (newer ++ e :: mid) ++ r :: older := by simp [hl]
    have hc := (descendants_before h hl' (hs ▸ hr) he' hi hxo ht hd).left
    exact not_exchanged_of_reset h hl hr hc hx

def resets (U : UserId) (e : Entry Stmt.sig Store Call) : Bool :=
  match e.stmt with
  | .resetPassword U' p now => U' = U ∧ (e.pre.resetPassword U p now).isOk
  | _                       => false

theorem resets_iff {U : UserId} {e : Entry Stmt.sig Store Call} : resets U e ↔ Resets U e := by
  obtain ⟨t, c, x, db⟩ := e
  cases x <;> simp [resets, Resets]

-- The runs in which no password is reset during a login.
def checksUndisturbed : Policy Stmt.sig Store Call where
  step s t c x := match x, c with
    | .createToken h _, _                  =>
      s.log.Pairwise fun e r => r.tid = t → resets h.token.sub e = false
    | .resetPassword .., .resetPassword T _ =>
      ∀ row ∈ s.db.resetTokens.find? T, row.usedAt = none
    | _, _                                  => True

instance {s : Pool Stmt.sig Store Call} {t : Nat} {c : Call} {x : Stmt} :
    Decidable (checksUndisturbed.step s t c x) := by
  unfold checksUndisturbed; dsimp only; split <;> infer_instance

instance : DecidablePred checksUndisturbed.spawn :=
  fun _ => .isTrue trivial

instance : Decidable checksUndisturbed.crash :=
  .isTrue trivial

theorem checksHold_of_undisturbed {s : Pool Stmt.sig Store Call} {t : Nat} {c : Call} {x : Stmt}
    (h : checksUndisturbed.step s t c x) : checksHold.step s t c x := by
  cases x
  case createToken =>
    intro newer r older hl ht e he hr
    have h : s.log.Pairwise _ := h
    rw [hl, List.pairwise_append] at h
    have := h.right.right e he r List.mem_cons_self ht
    rw [resets_iff.mpr hr] at this
    contradiction
  case resetPassword =>
    rintro T p rfl row hf
    exact h row hf
  all_goals trivial

-- A user logs in, resets the password, and logs in with the new one. The old session is refused,
-- and the new one is not.
def resetRun : List (Cmd Call) :=
  List.flatten [
    Cmd.run 1 .small 3, Cmd.run 2 (.forgotPassword "user@drovery.dev") 5,
    Cmd.run 3 (.resetPassword 2 "new") 4, Cmd.run 4 (.refreshTokens ⟨1, 1⟩) 1,
    Cmd.run 5 (.login "user@drovery.dev" "new") 3, Cmd.run 6 (.refreshTokens ⟨1, 5⟩) 5]

theorem reset_evicts_session :
    ∃ s, Reachable (system .small) checksHold Store.Initial s ∧ s.log.any (resets 1) ∧
      s.log.any (exchanges ⟨1, 5⟩ ⟨1, 6⟩) ∧ Evicts s := by
  let s := (Pool.init .small).runCmds (system .small) resetRun
  have h : Reachable (system .small) checksHold Store.Initial s := by
    have h : Reachable (system .small) checksUndisturbed Store.Initial s :=
      (Reachable.init Store.small_initial).runCmds (by decide +kernel)
    exact h.mono (fun _ _ => trivial) (fun _ _ _ _ h => checksHold_of_undisturbed h) id
  exact ⟨s, h, by decide +kernel, by decide +kernel, reset_evicts h⟩

-- A login with the old password has checked it, but stores its session only after the reset.
def survivingRun : List (Cmd Call) :=
  List.flatten [
    Cmd.run 1 .small 1, Cmd.run 2 (.forgotPassword "user@drovery.dev") 5,
    Cmd.run 3 (.resetPassword 2 "new") 4, [.exec 1, .exec 1], Cmd.run 4 (.refreshTokens ⟨1, 1⟩) 5]

def issues (T : Token) (e : Entry Stmt.sig Store Call) : Bool :=
  match e.stmt with
  | .createToken h _ => h = hashToken T
  | _                => false

theorem Issues.of_issues {T : Token} {e : Entry Stmt.sig Store Call} (h : issues T e) :
    Issues T e := by
  obtain ⟨t, c, x, db⟩ := e
  cases x
  case createToken => exact ⟨_, by rw [of_decide_eq_true h]⟩
  all_goals contradiction

-- What it takes for a session to survive a reset, where `rest` is the history up to the reset.
theorem not_evicts {s : Pool Stmt.sig Store Call} {rest : Log} (hidle : s.Quiescent)
    (hrest : rest = s.log.tail.dropWhile (! resets 1 ·))
    (he : s.log.head?.any fun e => exchanges ⟨1, 1⟩ ⟨1, 4⟩ e ∧ e.tid = 4)
    (hr : rest.head?.any (resets 1)) (h₄ : rest.tail.all (·.tid ≠ 4))
    (h₁ : rest.tail.any (·.tid = 1)) (hi : s.log.any fun e => issues ⟨1, 1⟩ e ∧ e.tid = 1) :
    ¬Evicts s := by
  intro h
  obtain ⟨e', he', hi⟩ := List.any_eq_true.mp hi
  obtain ⟨hi, ht'⟩ := of_decide_eq_true hi
  have htail : s.log.tail = s.log.tail.takeWhile (! resets 1 ·) ++ rest :=
    hrest ▸ List.takeWhile_append_dropWhile.symm
  cases hl : s.log
  case nil        => rw [hl] at he; contradiction
  case cons e log =>
    cases rest
    case nil          => contradiction
    case cons r older =>
      rw [hl] at he
      obtain ⟨hx, ht⟩ := of_decide_eq_true he
      obtain ⟨x, hx₁, hx₂⟩ := List.any_eq_true.mp h₁
      have hlog : s.log = [] ++ e :: (s.log.tail.takeWhile (! resets 1 ·) ++ r :: older) := by
        rw [← htail, hl]; rfl
      refine h.session hlog (T := ⟨1, 1⟩) (resets_iff.mp hr) (fun y hy => ⟨?_, fun th hth => ?_⟩) he'
        (.of_issues hi) .refl (.of_exchanges hx) x hx₁ <| (of_decide_eq_true hx₂).trans ht'.symm
      case refine_1 =>
        intro z hz
        obtain rfl := List.mem_singleton.mp hz
        have := of_decide_eq_true <| List.all_eq_true.mp h₄ y hy
        rw [ht]
        exact Ne.symm this
      case refine_2 => exact hidle y.tid th hth trivial

theorem reset_evicts_missed :
    ¬∀ (P : Params) (s : Pool Stmt.sig Store Call),
      Reachable (system P) {} Store.Initial s → Evicts s := by
  intro h
  let s := (Pool.init .small).runCmds (system .small) survivingRun
  have hs : Reachable (system .small) {} Store.Initial s :=
    Reachable.runCmds_of_free survivingRun <| .init Store.small_initial
  exact not_evicts (s := s) (Pool.idle_runCmds (by decide +kernel)) rfl (by decide +kernel)
    (by decide +kernel) (by decide +kernel) (by decide +kernel) (by decide +kernel)
    (h .small s hs)

end Drovery.Auth
