import Drovery.Concurrency.Local
import Drovery.Services.Auth

namespace Drovery.Auth

open Concurrency

abbrev Log := List (Entry Stmt.sig Store Call)

-- The statement stores the token `h` (if it succeeds).
def Creates (h : TokenHash) (row : RefreshToken) : Stmt → Prop
  | .createToken h' row' => h' = h ∧ row' = row
  | .rotate _ _ h' row'  => h' = h ∧ row' = row
  | _                    => False

def Created (log : Log) (T : Token) : Prop :=
  ∃ e ∈ log, ∃ row, Creates (hashToken T) row e.stmt

-- The entry exchanges the token `T` for its successor `T'`.
def Exchanges (T T' : Token) (e : Entry Stmt.sig Store Call) : Prop :=
  ∃ now row, e.stmt = .rotate (hashToken T) now (hashToken T') row ∧
    (e.pre.rotate (hashToken T) now (hashToken T') row).isOk

-- The entry stores the token of a login.
def Issues (T : Token) (e : Entry Stmt.sig Store Call) : Prop :=
  ∃ row, e.stmt = .createToken (hashToken T) row

-- The token `T` stems from the token `L` by a number of exchanges.
inductive Descends (log : Log) (L : Token) : Token → Prop
  | refl : Descends log L L
  | step {T T' e} : Descends log L T → e ∈ log → Exchanges T T' e → Descends log L T'

-- The rules that the calls follow. A call stores at most one token, and its id is that of the thread.
def Rules (t : Nat) (c : Call) (x : Stmt) (es : Log) : Prop :=
  match x with
  | .createToken h row  =>
    h.token.jti = t ∧ row.userId = h.token.sub ∧ ∀ e ∈ es, ∀ h row, ¬Creates h row e.stmt
  | .rotate old _ h row =>
    h.token.jti = t ∧ row.userId = h.token.sub ∧ (∀ e ∈ es, ∀ h row, ¬Creates h row e.stmt) ∧
      h.token.sub = old.token.sub
  | .resetPassword U _ _ => ∃ T p, c = .resetPassword T p ∧ ∃ r ∈ es, r.stmt = .findResetToken T ∧
    ∃ row, r.pre.resetTokens.find? T = some row ∧ row.userId = U
  | _ => True

-- A call that has found a token which had already been rotated ends all sessions of its user.
def Detects (c : Call) (es : Log) : Prop :=
  match c with
  | .refreshTokens T => ∃ r ∈ es, r.stmt = .findToken (hashToken T) ∧
    ∀ row, r.pre.refreshTokens.find? (hashToken T) = some row → row.Replayed T.sub →
      ∃ r' ∈ es, ∃ now, r'.stmt = .revokeAll T.sub now
  | _                => True

section

variable {db db' : Store} {x : Stmt} {h : TokenHash} {row row' : RefreshToken}

theorem find?_createToken {h' : TokenHash} (hc : db.createToken h' row = .ok db') :
    db'.refreshTokens.find? h = if h = h' then some row else db.refreshTokens.find? h := by
  unfold Store.createToken at hc
  split at hc
  case h_1      => contradiction
  case h_2 hi =>
    obtain rfl := Except.ok.inj hc
    exact Table.find?_insert hi

theorem rotate_ok {old h' : TokenHash} {now : Time} (hr : db.rotate old now h' row = .ok db') :
    (∃ r, db.refreshTokens.find? old = some r) ∧ db.refreshTokens.find? h' = none ∧
      ∀ h, db'.refreshTokens.find? h = if h = h' then some row else
        if h = old then (db.refreshTokens.find? old).map (·.revoke now)
        else db.refreshTokens.find? h := by
  unfold Store.rotate at hr
  split at hr
  case h_1       => contradiction
  case h_2 r hf =>
    have hn : db.refreshTokens.find? h' = none := by
      unfold Store.createToken at hr
      split at hr
      case h_1    => contradiction
      case h_2 hi =>
        have := Table.find?_of_insert hi
        rw [Table.find?_modify] at this
        split at this
        case isTrue he => rw [hf] at this; contradiction
        case isFalse   => exact this
    refine ⟨⟨r, hf⟩, hn, fun h => ?_⟩
    rw [find?_createToken hr, Table.find?_modify]

-- Whatever a statement does, a token that is there afterwards either was there before and has not
-- become valid again, or it has just been stored.
theorem token_exec (h' : (Stmt.exec x db).snd.refreshTokens.find? h = some row') :
    (∃ row, db.refreshTokens.find? h = some row ∧ row'.userId = row.userId ∧
      (row.revokedAt.isSome → row'.revokedAt.isSome)) ∨ Creates h row' x := by
  have keep (h' : db.refreshTokens.find? h = some row') :
      (∃ row, db.refreshTokens.find? h = some row ∧ row'.userId = row.userId ∧
        (row.revokedAt.isSome → row'.revokedAt.isSome)) ∨ Creates h row' x :=
    .inl ⟨row', h', rfl, id⟩
  cases x <;> simp only [Stmt.exec] at h'
  case createToken h₁ row₁ =>
    cases hc : db.createToken h₁ row₁ <;> rw [hc] at h'
    case error => exact keep h'
    case ok    =>
      simp only [Stmt.commit, find?_createToken hc] at h'
      split at h'
      case isTrue he => exact .inr ⟨he.symm, Option.some.inj h'⟩
      case isFalse   => exact keep h'
  case rotate old now h₁ row₁ =>
    cases hc : db.rotate old now h₁ row₁ <;> rw [hc] at h'
    case error => exact keep h'
    case ok    =>
      simp only [Stmt.commit, (rotate_ok hc).right.right] at h'
      split at h'
      case isTrue he => exact .inr ⟨he.symm, Option.some.inj h'⟩
      case isFalse   =>
        split at h'
        case isTrue he =>
          subst he
          obtain ⟨r, hr, rfl⟩ := Option.map_eq_some_iff.mp h'
          exact .inl ⟨r, hr, rfl, fun _ => rfl⟩
        case isFalse => exact keep h'
  case revokeAll U now =>
    simp only [Store.revokeAll, Table.find?_updateMany] at h'
    obtain ⟨r, hr, rfl⟩ := Option.map_eq_some_iff.mp h'
    refine .inl ⟨r, hr, ?_, fun hs => ?_⟩ <;> split
    all_goals first | rfl | exact hs
  case deleteToken h₁ => exact keep <| Table.find?_erase_eq_some h'
  case createResetToken T row₁ =>
    cases hc : db.createResetToken T row₁ <;> rw [hc] at h'
    case error => exact keep h'
    case ok    =>
      unfold Store.createResetToken at hc
      split at hc
      case h_1 => contradiction
      case h_2 =>
        obtain rfl := Except.ok.inj hc
        exact keep h'
  case resetPassword U p now =>
    cases hc : db.resetPassword U p now <;> rw [hc] at h'
    case error => exact keep h'
    case ok    =>
      unfold Store.resetPassword at hc
      split at hc
      case h_1 => contradiction
      case h_2 =>
        obtain rfl := Except.ok.inj hc
        simp only [Stmt.commit, Store.deleteTokens, Store.useResetTokens, Table.find?_deleteMany] at h'
        exact keep (Option.filter_eq_some_iff.mp h').left
  all_goals exact keep h'

-- Only a logout or a password reset removes a token.
theorem token_stays (hf : db.refreshTokens.find? h = some row) (hr : row.revokedAt.isSome)
    (hd : x ≠ .deleteToken h) (hp : ∀ U p now, x ≠ .resetPassword U p now) :
    ∃ row', (Stmt.exec x db).snd.refreshTokens.find? h = some row' ∧ row'.revokedAt.isSome := by
  have keep : ∃ row', db.refreshTokens.find? h = some row' ∧ row'.revokedAt.isSome := ⟨row, hf, hr⟩
  cases x <;> simp only [Stmt.exec]
  case createToken h₁ row₁ =>
    cases hc : db.createToken h₁ row₁
    case error  => exact keep
    case ok db' =>
      have hne : h ≠ h₁ := by
        rintro rfl
        unfold Store.createToken at hc
        split at hc
        case h_1    => contradiction
        case h_2 hi => rw [Table.find?_of_insert hi] at hf; contradiction
      exact ⟨row, by simp [Stmt.commit, find?_createToken hc, hne, hf], hr⟩
  case rotate old now h₁ row₁ =>
    cases hc : db.rotate old now h₁ row₁
    case error  => exact keep
    case ok db' =>
      obtain ⟨_, hn, hp⟩ := rotate_ok hc
      have hne : h ≠ h₁ := by rintro rfl; rw [hn] at hf; contradiction
      simp only [Stmt.commit, hp, if_neg hne]
      split
      case isTrue he => exact ⟨row.revoke now, by rw [← he, hf]; rfl, rfl⟩
      case isFalse   => exact keep
  case revokeAll U now =>
    simp only [Store.revokeAll, Table.find?_updateMany, hf, Option.map_some]
    refine ⟨_, rfl, ?_⟩
    split
    case isTrue  => rfl
    case isFalse => exact hr
  case deleteToken h₁ =>
    have hne : h ≠ h₁ := fun he => hd <| by rw [he]
    refine ⟨row, Table.find?_eq_some_iff.mpr <| List.mem_filter.mpr ⟨?_, ?_⟩, hr⟩
    case refine_1 => exact Table.find?_eq_some_iff.mp hf
    case refine_2 => simpa using hne
  case createResetToken T row₁ =>
    cases hc : db.createResetToken T row₁
    case error  => exact keep
    case ok db' =>
      unfold Store.createResetToken at hc
      split at hc
      case h_1 => contradiction
      case h_2 =>
        obtain rfl := Except.ok.inj hc
        exact keep
  case resetPassword U p now => exact absurd rfl <| hp U p now
  all_goals exact keep

end

section

variable {P : Params} {t : Nat} {c : Call} {es : Log}

theorem follows_generateTokens {U : UserId} (he : ∀ e ∈ es, ∀ h row, ¬Creates h row e.stmt)
    {Q : Log → Prop} (hQ : ∀ e es, Q (e :: es)) :
    (AuthService.generateTokens U t).Follows (system P) t c (Rules t c) (fun _ => Q) (fun _ => Q)
      es := by
  refine Method.follows_stmt_bind.mpr ⟨trivial, fun db => ?_⟩
  refine Method.follows_tx.mpr ⟨⟨rfl, rfl, List.forall_mem_cons.mpr ⟨fun _ _ => nofun, he⟩⟩, ?_⟩
  intro db
  split <;> exact hQ _ _

theorem follows_rules (P : Params) (t : Nat) (c : Call) :
    ((system P).prog t c).Follows (system P) t c (Rules t c) (fun _ => Detects c) [] := by
  cases c <;> refine Method.follows_toCall.mpr ?_
  case login email password =>
    refine Method.follows_stmt_bind.mpr ⟨trivial, fun db => ?_⟩
    split
    case h_1 => trivial
    case h_2 =>
      split
      case isTrue  => exact follows_generateTokens (by simp [Creates]) fun _ _ => trivial
      case isFalse => trivial
  case refreshTokens T =>
    refine Method.follows_stmt_bind.mpr ⟨trivial, fun db => ?_⟩
    split
    case h_1 hn =>
      refine ⟨_, List.mem_cons_self, rfl, fun row hr => ?_⟩
      rw [show db.refreshTokens.find? (hashToken T) = none from hn] at hr
      contradiction
    case h_2 record hr =>
      have hr : db.refreshTokens.find? (hashToken T) = some record := hr
      -- Unless the token is replayed, there is nothing to detect.
      have fine {es : Log} (hn : ¬record.Replayed T.sub) :
          Detects (.refreshTokens T) (es ++ [⟨t, .refreshTokens T, .findToken (hashToken T), db⟩]) := by
        refine ⟨_, List.mem_append_right _ List.mem_cons_self, rfl, fun row hr' hp => ?_⟩
        obtain rfl := Option.some.inj <| hr.symm.trans hr'
        exact absurd hp hn
      refine Method.follows_stmt_bind.mpr ⟨trivial, fun _ => ?_⟩
      split
      case isTrue =>
        refine Method.follows_stmt_bind.mpr ⟨trivial, fun _ => ?_⟩
        exact ⟨_, .tail _ <| .tail _ <| List.mem_cons_self, rfl,
          fun _ _ _ => ⟨_, List.mem_cons_self, _, rfl⟩⟩
      case isFalse hn =>
        split
        case isTrue  => exact @fine [_] hn
        case isFalse =>
          refine Method.follows_stmt_bind.mpr ⟨trivial, fun _ => ?_⟩
          split
          case h_1 => exact @fine [_, _] hn
          case h_2 =>
            refine Method.follows_stmt_bind.mpr ⟨trivial, fun _ => ?_⟩
            refine Method.follows_tx.mpr ⟨⟨rfl, rfl, by simp [Creates], rfl⟩, fun _ => ?_⟩
            split <;> exact @fine [_, _, _, _] hn
  case logout => exact ⟨trivial, fun _ => trivial⟩
  case forgotPassword email =>
    refine Method.follows_stmt_bind.mpr ⟨trivial, fun _ => ?_⟩
    split
    case h_1 => trivial
    case h_2 =>
      refine Method.follows_stmt_bind.mpr ⟨trivial, fun _ => ?_⟩
      refine Method.follows_stmt_bind.mpr ⟨trivial, fun _ => ?_⟩
      refine Method.follows_stmt_bind.mpr ⟨trivial, fun _ => ?_⟩
      refine Method.follows_tx.mpr ⟨trivial, fun _ => ?_⟩
      split <;> trivial
  case resetPassword T p =>
    refine Method.follows_stmt_bind.mpr ⟨trivial, fun db => ?_⟩
    split
    case h_1            => trivial
    case h_2 record hr =>
      refine Method.follows_stmt_bind.mpr ⟨trivial, fun _ => ?_⟩
      split
      case isTrue  => trivial
      case isFalse =>
        refine Method.follows_stmt_bind.mpr ⟨trivial, fun _ => ?_⟩
        refine Method.follows_tx.mpr ⟨⟨T, p, rfl, ?_⟩, fun _ => ?_⟩
        case refine_1 =>
          exact ⟨_, .tail _ <| .tail _ <| List.mem_cons_self, rfl, record, hr, rfl⟩
        case refine_2 => split <;> trivial
  case passTime => exact ⟨trivial, fun _ => trivial⟩

end

-- Nobody is logged in at the beginning.
structure Store.Initial (db : Store) : Prop where
  refreshTokens : db.refreshTokens = .empty
  resetTokens   : db.resetTokens = .empty

section

variable {P : Params} {pol : Policy Stmt.sig Store Call} {s : Pool Stmt.sig Store Call}
variable {t : Nat} {c : Call} {x : Stmt} {T : Token} {row : RefreshToken}

theorem rules_of_step (st : StepOf (system P) pol Store.Initial s t c x) :
    Rules t c x (s.world.own t) :=
  st.reachable.follows_aboutTo (fun t c _ => follows_rules P t c) st.aboutTo

theorem rules_of_entry {newer older : Log} {e : Entry Stmt.sig Store Call}
    (h : Reachable (system P) pol Store.Initial s) (hl : s.log = newer ++ e :: older) :
    Rules e.tid e.call e.stmt (e.past older) :=
  h.follows_entry (fun t c _ => follows_rules P t c) hl

theorem jti_of_creates {es : Log} (hr : Rules t c x es) (hc : Creates (hashToken T) row x) :
    T.jti = t ∧ row.userId = T.sub ∧ ∀ e ∈ es, ∀ h row, ¬Creates h row e.stmt := by
  cases x <;> simp only [Creates] at hc
  case createToken =>
    obtain ⟨rfl, rfl⟩ := hc
    exact hr
  case rotate =>
    obtain ⟨rfl, rfl⟩ := hc
    exact ⟨hr.left, hr.right.left, hr.right.right.left⟩

-- No token is stored twice.
theorem not_creates (st : StepOf (system P) pol Store.Initial s t c x) (hT : Created s.log T) :
    ¬Creates (hashToken T) row x := by
  intro hc
  obtain ⟨ht, _, hn⟩ := jti_of_creates (rules_of_step st) hc
  obtain ⟨e, he, row', hc'⟩ := hT
  obtain ⟨newer, older, hl⟩ := List.append_of_mem he
  have ht' := (jti_of_creates (rules_of_entry st.reachable hl) hc').left
  exact hn e (List.mem_filter.mpr ⟨he, decide_eq_true <| ht'.symm.trans ht⟩) _ _ hc'

-- Every token in the store has been stored by some call, for the user it names.
theorem known (h : Reachable (system P) pol Store.Initial s)
    (hf : s.db.refreshTokens.find? (hashToken T) = some row) :
    row.userId = T.sub ∧ Created s.log T := by
  refine h.invariant (I := fun w => ∀ {T row}, w.db.refreshTokens.find? (hashToken T) = some row →
    row.userId = T.sub ∧ Created w.log T) (fun hi => ?_) (fun {s t c x} st ih => ?_) hf
  case refine_1 => simp [hi.refreshTokens]
  case refine_2 =>
    intro T row hf
    obtain ⟨row₀, hf₀, hu, _⟩ | hc := token_exec hf
    case inl =>
      obtain ⟨hu₀, e, he, hc⟩ := ih hf₀
      exact ⟨hu.trans hu₀, e, .tail _ he, hc⟩
    case inr =>
      exact ⟨(jti_of_creates (rules_of_step st) hc).right.left, _, List.mem_cons_self, _, hc⟩

-- A token that has been revoked or deleted.
def Dead (db : Store) (T : Token) : Prop :=
  ∀ row, db.refreshTokens.find? (hashToken T) = some row → row.revokedAt.isSome

theorem Dead.exec (h : Dead s.db T) (st : StepOf (system P) pol Store.Initial s t c x)
    (hT : Created s.log T) : Dead (Stmt.exec x s.db).snd T := by
  intro row hf
  obtain ⟨row₀, hf₀, _, hd⟩ | hc := token_exec hf
  case inl => exact hd <| h row₀ hf₀
  case inr => exact absurd hc <| not_creates st hT

theorem Created.mono {log log' : Log} (h : Created log T) (hl : ∀ e ∈ log, e ∈ log') :
    Created log' T := by
  obtain ⟨e, he, hc⟩ := h
  exact ⟨e, hl e he, hc⟩

-- Such a token stays what it is.
theorem dead_since {newer older : Log} {r : Entry Stmt.sig Store Call}
    (h : Reachable (system P) pol Store.Initial s) (hl : s.log = newer ++ r :: older)
    (hT : Created (r :: older) T) (hd : Dead (r.post <| system P) T) : Dead s.db T := by
  refine h.since_step (I := fun _ db => Dead db T) hl hd fun {s t c x newer} st hl hd => ?_
  exact hd.exec st <| hT.mono fun e he => hl ▸ List.mem_append_right _ he

-- A token that has been exchanged is there, but revoked.
theorem Exchanges.revoked {T' : Token} {e : Entry Stmt.sig Store Call} (h : Exchanges T T' e) :
    (∃ row, e.pre.refreshTokens.find? (hashToken T) = some row) ∧
      ∃ row, (e.post <| system P).refreshTokens.find? (hashToken T) = some row ∧
        row.revokedAt.isSome := by
  obtain ⟨t, c, x, db⟩ := e
  obtain ⟨now, row, rfl, hok⟩ := h
  cases hr : db.rotate (hashToken T) now (hashToken T') row
  case error => rw [hr] at hok; contradiction
  case ok db' =>
    obtain ⟨⟨r, hf⟩, hn, hp⟩ := rotate_ok hr
    refine ⟨⟨r, hf⟩, r.revoke now, ?_, rfl⟩
    have hne : hashToken T ≠ hashToken T' := fun he => by rw [he, hn] at hf; contradiction
    simp [Entry.post, system, Stmt.exec, hr, Stmt.commit, hp, hne, hf]

theorem Exchanges.creates {T' : Token} {e : Entry Stmt.sig Store Call} (h : Exchanges T T' e) :
    ∃ row, Creates (hashToken T') row e.stmt := by
  obtain ⟨now, row, hs, _⟩ := h
  exact ⟨row, hs ▸ ⟨rfl, rfl⟩⟩

end

-- The requests that keep the password.
def Call.Plain : Call → Prop
  | .resetPassword .. => False
  | _                 => True

-- The runs in which a token is only exchanged or deleted as long as it has not been revoked, be it
-- by an exchange or by a detected replay.
def rotatesValid : Policy Stmt.sig Store Call where
  spawn := Call.Plain
  step s _ _ x := match x with
    | .rotate old _ _ _ => ∀ row ∈ s.db.refreshTokens.find? old, row.revokedAt = none
    | .deleteToken h    => ∀ row ∈ s.db.refreshTokens.find? h, row.revokedAt = none
    | _                 => True

-- Each token is exchanged once, and a replay ends the sessions of the login it stems from.
structure SingleUse (s : Pool Stmt.sig Store Call) : Prop where
  once  : s.log.Pairwise fun e e' => ∀ T T₁ T₂, Exchanges T T₁ e → ¬Exchanges T T₂ e'
  -- The token `T` had been exchanged before the thread `t` presented it, and that thread has been
  -- completed before the token `T'` was exchanged.
  reuse : ∀ {newer e mid r older t th L T T₁ T' T''}, s.log = newer ++ e :: (mid ++ r :: older) →
    s.threads t = some th → th.call = .refreshTokens T → th.Done →
    (∀ e' ∈ e :: newer, e'.tid ≠ t) → Exchanges T T₁ r → (∀ e' ∈ r :: older, e'.tid ≠ t) →
    (∃ e' ∈ s.log, Issues L e') → Descends s.log L T → Descends s.log L T' → ¬Exchanges T' T'' e

section

variable {P : Params} {s : Pool Stmt.sig Store Call}

-- A token that has been exchanged had been stored before.
theorem created_of_exchanged {pol : Policy Stmt.sig Store Call} {newer older : Log} {T T' : Token}
    {e : Entry Stmt.sig Store Call} (h : Reachable (system P) pol Store.Initial s)
    (hl : s.log = newer ++ e :: older) (he : Exchanges T T' e) : Created older T := by
  obtain ⟨s₀, st₀, hdb, hlog⟩ := h.before hl
  obtain ⟨⟨row, hf⟩, _⟩ := he.revoked (P := P)
  rw [← hdb] at hf
  exact hlog ▸ (known st₀.reachable hf).right

theorem exchanged_once (h : Reachable (system P) rotatesValid Store.Initial s) :
    s.log.Pairwise fun e e' => ∀ T T₁ T₂, Exchanges T T₁ e → ¬Exchanges T T₂ e' := by
  refine h.invariant (I := fun w => w.log.Pairwise fun e e' =>
    ∀ T T₁ T₂, Exchanges T T₁ e → ¬Exchanges T T₂ e') (fun _ => .nil) fun {s t c x} st ih => ?_
  refine List.pairwise_cons.mpr ⟨fun e' he' T T₁ T₂ h₁ h₂ => ?_, ih⟩
  obtain ⟨newer, older, hl⟩ := List.append_of_mem he'
  -- The token was revoked by the earlier exchange, and it still is.
  obtain ⟨_, row₁, hf₁, hr₁⟩ := h₂.revoked (P := P)
  have hT : Created (e' :: older) T := (created_of_exchanged st.reachable hl h₂).mono fun _ => .tail _
  have hd : Dead s.db T := dead_since st.reachable hl hT fun row hf =>
    Option.some.inj (hf₁.symm.trans hf) ▸ hr₁
  obtain ⟨⟨row, hf⟩, _⟩ := h₁.revoked (P := P)
  obtain ⟨now, row', rfl, _⟩ := h₁
  have hv := st.allowed row hf
  have := hd row hf
  rw [hv] at this
  contradiction

-- No token is stored again after it has been stored.
theorem fresh_since {pol : Policy Stmt.sig Store Call} {newer older : Log} {T : Token}
    {e : Entry Stmt.sig Store Call} {row : RefreshToken}
    (h : Reachable (system P) pol Store.Initial s) (hl : s.log = newer ++ older)
    (hT : Created older T) (he : e ∈ newer) : ¬Creates (hashToken T) row e.stmt := by
  obtain ⟨a, b, rfl⟩ := List.append_of_mem he
  rw [List.append_assoc, List.cons_append] at hl
  obtain ⟨s₀, st₀, _, hlog⟩ := h.before hl
  exact not_creates st₀ <| hlog ▸ hT.mono fun e he => List.mem_append_right _ he

theorem Exchanges.sub {pol : Policy Stmt.sig Store Call} {newer older : Log} {T T' : Token}
    {e : Entry Stmt.sig Store Call} (he : Exchanges T T' e)
    (h : Reachable (system P) pol Store.Initial s) (hl : s.log = newer ++ e :: older) :
    T'.sub = T.sub := by
  obtain ⟨now, row, hs, _⟩ := he
  have hr := rules_of_entry h hl
  rw [hs] at hr
  exact hr.right.right.right

-- The tokens from which a token stems had been stored before it.
theorem Descends.created {pol : Policy Stmt.sig Store Call} {newer older : Log} {L T : Token}
    (hd : Descends s.log L T) (h : Reachable (system P) pol Store.Initial s)
    (hl : s.log = newer ++ older) (hT : Created older T) : Created older L ∧ L.sub = T.sub := by
  induction hd
  case refl => exact ⟨hT, rfl⟩
  case step T₁ T₂ e _ he hx ih =>
    obtain ⟨row, hc⟩ := hx.creates
    have hm : e ∈ older := (List.mem_append.mp <| hl ▸ he).resolve_left fun hm =>
      fresh_since h hl hT hm hc
    obtain ⟨a, b, rfl⟩ := List.append_of_mem hm
    have hl' : s.log = (newer ++ a) ++ e :: b := by rw [hl, List.append_assoc]
    obtain ⟨hL, hs⟩ := ih <| (created_of_exchanged h hl' hx).mono fun e he =>
      List.mem_append_right _ <| .tail _ he
    exact ⟨hL, hs.trans (hx.sub h hl').symm⟩

-- A token that has been exchanged stays there, and stays revoked.
theorem revoked_since {newer older : Log} {T T' : Token} {r : Entry Stmt.sig Store Call}
    (h : Reachable (system P) rotatesValid Store.Initial s) (hl : s.log = newer ++ r :: older)
    (hr : Exchanges T T' r) :
    ∃ row, s.db.refreshTokens.find? (hashToken T) = some row ∧ row.revokedAt.isSome := by
  refine h.since_step (I := fun _ db => ∃ row, db.refreshTokens.find? (hashToken T) = some row ∧
    row.revokedAt.isSome) hl hr.revoked.right fun {s t c x newer} st _ ⟨row, hf, hr⟩ => ?_
  refine token_stays hf hr ?_ ?_
  case refine_1 =>
    rintro rfl
    rw [st.allowed row hf] at hr
    contradiction
  case refine_2 =>
    rintro U p now rfl
    obtain ⟨_, _, hc, _⟩ := rules_of_step st
    have hs := st.spawned
    rw [hc] at hs
    exact hs

-- The tokens of a user are revoked all at once.
theorem dead_of_revokeAll {pol : Policy Stmt.sig Store Call} {newer older : Log} {T : Token}
    {r : Entry Stmt.sig Store Call} {now : Time} (h : Reachable (system P) pol Store.Initial s)
    (hl : s.log = newer ++ r :: older) (hr : r.stmt = .revokeAll T.sub now) :
    Dead (r.post <| system P) T := by
  obtain ⟨s₀, st₀, hdb, _⟩ := h.before hl
  intro row hf
  have hp : r.post (system P) = r.pre.revokeAll T.sub now := by
    obtain ⟨_, _, x, _⟩ := r
    obtain rfl : x = .revokeAll T.sub now := hr
    rfl
  rw [hp, ← hdb, Store.revokeAll, Table.find?_updateMany] at hf
  obtain ⟨row₀, hf₀, rfl⟩ := Option.map_eq_some_iff.mp hf
  have hu := (known st₀.reachable hf₀).left
  cases hv : row₀.revokedAt <;> simp [Store.revocable, hu, hv, RefreshToken.revoke]

-- A token that was stored before its user's tokens have all been revoked is not exchanged after that.
theorem not_exchanged {newer older mid : Log} {T T' : Token} {e r : Entry Stmt.sig Store Call}
    {now : Time} (h : Reachable (system P) rotatesValid Store.Initial s)
    (hl : s.log = newer ++ e :: (mid ++ r :: older)) (hr : r.stmt = .revokeAll T.sub now)
    (hT : Created older T) : ¬Exchanges T T' e := by
  intro he
  obtain ⟨s₀, st₀, hdb, hlog⟩ := h.before hl
  have hd := dead_since st₀.reachable hlog (hT.mono fun _ => .tail _) <|
    dead_of_revokeAll st₀.reachable hlog hr
  obtain ⟨⟨row, hf⟩, _⟩ := he.revoked (P := P)
  obtain ⟨now, row', hs, _⟩ := he
  rw [← hdb] at hf
  have ha := st₀.allowed
  rw [hs] at ha
  have := hd row hf
  rw [ha row hf] at this
  contradiction

-- All tokens of a family had been stored when a replay was detected.
theorem family_created {newer older : Log} {L T T' : Token} {r : Entry Stmt.sig Store Call}
    {now : Time} (h : Reachable (system P) rotatesValid Store.Initial s)
    (hl : s.log = newer ++ r :: older) (hr : r.stmt = .revokeAll T.sub now) (hT : Created older T)
    (hd : Descends s.log L T) (hd' : Descends s.log L T') : Created older T' ∧ T'.sub = T.sub := by
  have hl' : s.log = (newer ++ [r]) ++ older := by rw [hl, List.append_assoc]; rfl
  induction hd'
  case refl => exact hd.created h hl' hT
  case step T₁ T₂ e _ he hx ih =>
    obtain ⟨hc, hs⟩ := ih
    obtain ⟨row, hcr⟩ := hx.creates
    rw [hl] at he
    obtain he | he := List.mem_append.mp he
    case inl =>
      obtain ⟨a, b, rfl⟩ := List.append_of_mem he
      rw [List.append_assoc, List.cons_append] at hl
      exact absurd hx <| not_exchanged h hl (hs ▸ hr) hc
    case inr =>
      obtain rfl | he := List.mem_cons.mp he
      case inl => rw [hr] at hcr; exact hcr.elim
      case inr =>
        obtain ⟨a, b, rfl⟩ := List.append_of_mem he
        have hle : s.log = (newer ++ r :: a) ++ e :: b := by simp [hl]
        exact ⟨⟨e, he, row, hcr⟩, (hx.sub h hle).trans hs⟩

theorem mem_middle {newer mid older : Log} {e r x : Entry Stmt.sig Store Call} {t : Nat}
    (hl : s.log = newer ++ e :: (mid ++ r :: older)) (hn : ∀ e' ∈ e :: newer, e'.tid ≠ t)
    (ho : ∀ e' ∈ r :: older, e'.tid ≠ t) (hx : x ∈ s.world.own t) :
    ∃ a b, mid = a ++ x :: b := by
  obtain ⟨hm, ht⟩ := List.mem_filter.mp hx
  have ht : x.tid = t := of_decide_eq_true ht
  refine List.append_of_mem ?_
  rw [hl] at hm
  obtain hm | hm := List.mem_append.mp hm
  case inl => exact absurd ht <| hn x <| .tail _ hm
  case inr =>
    obtain rfl | hm := List.mem_cons.mp hm
    case inl => exact absurd ht <| hn x List.mem_cons_self
    case inr => exact (List.mem_append.mp hm).resolve_right fun hm => ho x hm ht

end

-- In a run in which only valid tokens are exchanged or deleted, each token is exchanged at most once,
-- and presenting it once more ends the sessions of its family.
theorem rotation_single_use {P : Params} {s : Pool Stmt.sig Store Call}
    (h : Reachable (system P) rotatesValid Store.Initial s) : SingleUse s where
  once  := exchanged_once h
  reuse := by
    intro newer e mid r older t th L T T₁ T' T'' hl ht hc hd hn hr ho _ hL hL'
    have hdet := h.follows_done (fun t c _ => follows_rules P t c) ht hd
    rw [hc] at hdet
    obtain ⟨f, hf, hfs, hdet⟩ := hdet
    -- The thread has found the token revoked.
    obtain ⟨a, b, rfl⟩ := mem_middle hl hn ho hf
    have hlf : s.log = (newer ++ e :: a) ++ f :: (b ++ r :: older) := by simp [hl]
    obtain ⟨s₁, st₁, hdb₁, hlog₁⟩ := h.before hlf
    obtain ⟨row, hrow, hrev⟩ := revoked_since st₁.reachable hlog₁ hr
    have hu := (known st₁.reachable hrow).left
    rw [hdb₁] at hrow
    obtain ⟨f', hf', now, hfs'⟩ := hdet row hrow ⟨hrev, hu⟩
    -- It has then revoked all tokens of the user.
    obtain ⟨a', b', hmid⟩ := mem_middle hl hn ho hf'
    have hl' : s.log = newer ++ e :: (a' ++ f' :: (b' ++ r :: older)) := by
      rw [hl, hmid, List.append_assoc]; rfl
    have hlf' : s.log = (newer ++ e :: a') ++ f' :: (b' ++ r :: older) := by simp [hl']
    have hlr : s.log = (newer ++ e :: (a ++ f :: b)) ++ r :: older := by simp [hl]
    have hT : Created (b' ++ r :: older) T :=
      (created_of_exchanged h hlr hr).mono fun e he => List.mem_append_right _ <| .tail _ he
    obtain ⟨hT', hs⟩ := family_created h hlf' hfs' hT hL hL'
    exact not_exchanged h hl' (hs ▸ hfs') hT'

-- A deployment with a single user, whose password is stored as it is.
def Params.small : Params where
  hash _ password         := password
  compare password stored := password = stored

def Store.small : Store where
  clock         := 0
  users         := ⟨[(1, ⟨"user@drovery.dev", "old"⟩)], by decide⟩
  refreshTokens := .empty
  resetTokens   := .empty

theorem Store.small_initial : Store.small.Initial :=
  ⟨rfl, rfl⟩

def Call.small : Call :=
  .login "user@drovery.dev" "old"

def exchanges (T T' : Token) (e : Entry Stmt.sig Store Call) : Bool :=
  match e.stmt with
  | .rotate old now h row =>
    old = hashToken T ∧ h = hashToken T' ∧ (e.pre.rotate old now h row).isOk
  | _ => false

theorem Exchanges.of_exchanges {T T' : Token} {e : Entry Stmt.sig Store Call}
    (h : exchanges T T' e) : Exchanges T T' e := by
  obtain ⟨t, c, x, db⟩ := e
  cases x
  case rotate =>
    obtain ⟨rfl, rfl, hok⟩ := of_decide_eq_true h
    exact ⟨_, _, rfl, hok⟩
  all_goals contradiction

instance : DecidablePred rotatesValid.spawn := fun c =>
  match c with
  | .resetPassword .. => .isFalse id
  | .login ..         => .isTrue trivial
  | .refreshTokens _  => .isTrue trivial
  | .logout _         => .isTrue trivial
  | .forgotPassword _ => .isTrue trivial
  | .passTime _       => .isTrue trivial

instance {s : Pool Stmt.sig Store Call} {t : Nat} {c : Call} {x : Stmt} :
    Decidable (rotatesValid.step s t c x) := by
  unfold rotatesValid; dsimp only; split <;> infer_instance

instance : Decidable rotatesValid.crash :=
  .isTrue trivial

-- A token is exchanged, and presented again afterwards.
def replayRun : List (Cmd Call) :=
  List.flatten [
    Cmd.run 1 .small 3, Cmd.run 2 (.refreshTokens ⟨1, 1⟩) 5, Cmd.run 3 (.refreshTokens ⟨1, 1⟩) 3]

theorem rotation_single_use_replay :
    ∃ s, Reachable (system .small) rotatesValid Store.Initial s ∧
      s.log.any (exchanges ⟨1, 1⟩ ⟨1, 2⟩) ∧ SingleUse s := by
  let s := (Pool.init .small).runCmds (system .small) replayRun
  have h : Reachable (system .small) rotatesValid Store.Initial s :=
    (Reachable.init Store.small_initial).runCmds (by decide)
  exact ⟨s, h, by decide, rotation_single_use h⟩

-- Two calls present the same token, and both of them read it before either of them revokes it.
def doubleRotationRun : List (Cmd Call) :=
  List.flatten [
    Cmd.run 1 .small 3, Cmd.run 2 (.refreshTokens ⟨1, 1⟩) 3, Cmd.run 3 (.refreshTokens ⟨1, 1⟩) 3,
    [.exec 2, .exec 2, .exec 3, .exec 3]]

theorem rotation_single_use_missed :
    ¬∀ (P : Params) (s : Pool Stmt.sig Store Call),
      Reachable (system P) { spawn := Call.Plain } Store.Initial s → SingleUse s := by
  intro h
  let s := (Pool.init .small).runCmds (system .small) doubleRotationRun
  have hs : Reachable (system .small) { spawn := Call.Plain } Store.Initial s :=
    Reachable.runCmds_of_calls doubleRotationRun (.init Store.small_initial)
      (by simp [doubleRotationRun, Cmd.run, Cmd.Calls, Call.Plain, Call.small])
  have h₁ : s.log.head?.any (exchanges ⟨1, 1⟩ ⟨1, 3⟩) := by decide
  have h₂ : s.log.tail.any (exchanges ⟨1, 1⟩ ⟨1, 2⟩) := by decide
  have ho := (h .small s hs).once
  cases hl : s.log
  case nil          => rw [hl] at h₁; contradiction
  case cons e older =>
    rw [hl] at h₁ h₂ ho
    obtain ⟨e', he', h₂⟩ := List.any_eq_true.mp h₂
    exact (List.pairwise_cons.mp ho).left e' he' _ _ _ (.of_exchanges h₁) (.of_exchanges h₂)

end Drovery.Auth
