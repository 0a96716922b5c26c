import Drovery.Concurrency.Local
import Drovery.Services.Roles

namespace Drovery.Roles

open Concurrency

abbrev Log := List (Entry Stmt.sig Store Call)

def Store.HasAdmin (db : Store) : Prop :=
  ∃ U, db.users.find? U = some .admin

-- The entry takes the role away from an administrator.
def demotes (e : Entry Stmt.sig Store Call) : Bool :=
  match e.stmt with
  | .setRole _ U _ role => role ≠ .admin ∧ e.pre.users.find? U = some .admin
  | _                   => false

-- The entry makes the user `U` an administrator.
def promotes (U : UserId) (e : Entry Stmt.sig Store Call) : Bool :=
  match e.stmt with
  | .setRole _ U' _ role => U' = U ∧ role = .admin
  | _                    => false

-- The runs in which no role is taken away on the basis of an outdated check. Since a call has counted
-- the administrators, no more of them have lost their role than there were besides two. And no user
-- that a call took for anything but an administrator has become one.
def checksCurrent : Policy Stmt.sig Store Call where
  step s t _ x := ∀ actor U before role, x = .setRole actor U before role → role ≠ .admin →
    ∀ newer r older, s.log = newer ++ r :: older → r.tid = t →
      (r.stmt = .countAdmins → newer.countP demotes ≤ r.pre.admins - 2) ∧
      (r.stmt = .findUser U → before ≠ .admin → ∀ e ∈ newer, ¬promotes U e)

-- What a call has found out when it is about to change a role.
def Checked (x : Stmt) (es : Log) : Prop :=
  match x with
  | .setRole _ U before role =>
    (∃ r ∈ es, r.stmt = .findUser U ∧ r.pre.users.find? U = some before) ∧
    (before = .admin → role ≠ .admin → ∃ r ∈ es, r.stmt = .countAdmins ∧ 1 < r.pre.admins)
  | _ => True

namespace Store

variable {db db' : Store} {actor : AuditActor} {U U' : UserId} {before role : Role}

theorem hasAdmin_iff : db.HasAdmin ↔ 0 < db.admins := by
  rw [admins, Table.count, List.countP_pos_iff]
  constructor
  case mp =>
    rintro ⟨U, h⟩
    exact ⟨_, Table.find?_eq_some_iff.mp h, rfl⟩
  case mpr =>
    rintro ⟨⟨U, role⟩, h, hr⟩
    rw [of_decide_eq_true hr] at h
    exact ⟨U, Table.find?_eq_some_iff.mpr h⟩

theorem setRole_ok (h : db.setRole actor U before role = .ok db') :
    ∃ old, db.users.find? U = some old ∧ db'.users = db.users.modify U fun _ => role := by
  unfold setRole at h
  split at h
  case h_1        => contradiction
  case h_2 old ho =>
    obtain rfl := Except.ok.inj h
    exact ⟨old, ho, rfl⟩

theorem find?_setRole (h : db.setRole actor U before role = .ok db') :
    db'.users.find? U' = if U' = U then some role else db.users.find? U' := by
  obtain ⟨old, ho, hu⟩ := setRole_ok h
  rw [hu, Table.find?_modify, ho, Option.map_some]

-- A change of a role costs at most one administrator, which is the one whose role it changes.
theorem admins_setRole (h : db.setRole actor U before role = .ok db') :
    db.admins ≤ db'.admins +
      if role ≠ .admin ∧ db.users.find? U = some .admin then 1 else 0 := by
  obtain ⟨old, ho, hu⟩ := setRole_ok h
  have hc := Table.count_modify (p := isAdmin) (f := fun _ => role) ho
  rw [← hu] at hc
  rw [admins, admins]
  by_cases hr : role = .admin <;> by_cases ha : old = .admin <;> simp_all [isAdmin]

end Store

section

variable {e : Entry Stmt.sig Store Call} {U : UserId}

theorem post_of_read (h : (∃ U, e.stmt = .findUser U) ∨ e.stmt = .countAdmins) :
    e.post system = e.pre := by
  obtain ⟨t, c, x, db⟩ := e
  obtain ⟨U, rfl⟩ | rfl := h <;> rfl

theorem admins_post : e.pre.admins ≤ (e.post system).admins + if demotes e then 1 else 0 := by
  obtain ⟨t, c, x, db⟩ := e
  cases x
  case findUser    => exact Nat.le_add_right ..
  case countAdmins => exact Nat.le_add_right ..
  case setRole actor U before role =>
    simp only [Entry.post, system, Stmt.exec, demotes, decide_eq_true_eq]
    cases h : db.setRole actor U before role
    case error => exact Nat.le_add_right ..
    case ok    => exact Store.admins_setRole h

theorem not_admin_post (h : e.pre.users.find? U ≠ some .admin) (hp : ¬promotes U e) :
    (e.post system).users.find? U ≠ some .admin := by
  obtain ⟨t, c, x, db⟩ := e
  cases x
  case findUser    => exact h
  case countAdmins => exact h
  case setRole actor U' before role =>
    simp only [Entry.post, system, Stmt.exec]
    cases hs : db.setRole actor U' before role
    case error => exact h
    case ok    =>
      simp only [promotes, decide_eq_true_eq, not_and] at hp
      rw [Store.find?_setRole hs]
      split
      case isTrue he => exact fun hr => hp he.symm <| Option.some.inj hr
      case isFalse   => exact h

end

section

variable {P : Policy Stmt.sig Store Call} {init : Store → Prop} {s : Pool Stmt.sig Store Call}
variable {newer older : Log} {r : Entry Stmt.sig Store Call} {U : UserId}

-- The administrators that are missing since an entry have lost their role in the meantime.
theorem admins_since (h : Reachable system P init s) (hl : s.log = newer ++ r :: older) :
    (r.post system).admins ≤ s.db.admins + newer.countP demotes := by
  refine h.since (I := fun newer db => (r.post system).admins ≤ db.admins + newer.countP demotes) hl
    (Nat.le_refl _) fun {newer e} ih => ?_
  have := admins_post (e := e)
  rw [List.countP_cons]
  omega

theorem not_admin_since (h : Reachable system P init s) (hl : s.log = newer ++ r :: older)
    (hr : (r.post system).users.find? U ≠ some .admin) (hn : ∀ e ∈ newer, ¬promotes U e) :
    s.db.users.find? U ≠ some .admin := by
  refine h.since (I := fun newer db => (∀ e ∈ newer, ¬promotes U e) →
    db.users.find? U ≠ some .admin) hl (fun _ => hr) (fun {newer e} ih hn => ?_) hn
  obtain ⟨he, hn⟩ := List.forall_mem_cons.mp hn
  exact not_admin_post (ih hn) he

end

theorem follows_checked (t : Nat) (c : Call) :
    (system.prog t c).Follows system t c Checked (fun _ _ => True) [] := by
  refine Method.follows_toCall.mpr <| Method.follows_stmt_bind.mpr ⟨trivial, fun db => ?_⟩
  split
  case h_1           => trivial
  case h_2 before hb =>
    have hb : db.users.find? c.targetId = some before := hb
    refine Method.follows_bind.mpr ?_
    unfold AdminService.guardLastAdmin
    have found (es : Log) : ∃ r ∈ es ++ [⟨t, c, .findUser c.targetId, db⟩],
        r.stmt = .findUser c.targetId ∧ r.pre.users.find? c.targetId = some before :=
      ⟨_, List.mem_append_right _ List.mem_cons_self, rfl, hb⟩
    split
    case isFalse hn =>
      refine Method.follows_attempt <| Method.follows_tx.mpr ⟨⟨found [], ?_⟩, fun _ => ?_⟩
      case refine_1 => exact fun hb hr => absurd ⟨hb, hr⟩ hn
      case refine_2 => split <;> trivial
    case isTrue =>
      refine Method.follows_stmt_bind.mpr ⟨trivial, fun db' => ?_⟩
      split
      case isTrue     => trivial
      case isFalse hc =>
        refine Method.follows_attempt <| Method.follows_tx.mpr ⟨⟨found [_], ?_⟩, fun _ => ?_⟩
        case refine_1 => exact fun _ _ => ⟨_, List.mem_cons_self, rfl, Nat.lt_of_not_le hc⟩
        case refine_2 => split <;> trivial

-- In a run whose checks are current there is an administrator at any time.
theorem admin_remains {s : Pool Stmt.sig Store Call}
    (h : Reachable system checksCurrent Store.HasAdmin s) : s.db.HasAdmin := by
  refine h.invariant (I := fun w => w.db.HasAdmin) id fun {s t c x} st hi => ?_
  cases x
  case findUser    => exact hi
  case countAdmins => exact hi
  case setRole actor U before role =>
    have ⟨⟨r, hr, hrs, hrb⟩, hc⟩ :=
      st.reachable.follows_aboutTo (fun t c _ => follows_checked t c) st.aboutTo
    rw [Store.hasAdmin_iff] at hi ⊢
    have hp : s.db.admins ≤ _ := admins_post (e := ⟨t, c, .setRole actor U before role, s.db⟩)
    show 0 < (Entry.post system ⟨t, c, .setRole actor U before role, s.db⟩).admins
    by_cases hd : demotes ⟨t, c, .setRole actor U before role, s.db⟩
    case neg =>
      rw [if_neg hd] at hp
      exact Nat.lt_of_lt_of_le hi hp
    case pos =>
      rw [if_pos hd] at hp
      obtain ⟨hrole, hadmin⟩ := of_decide_eq_true hd
      by_cases hb : before = .admin
      case pos =>
        -- The call has counted the administrators, and enough of them are left.
        obtain ⟨r, hr, hrs, hra⟩ := hc hb hrole
        obtain ⟨ht, newer, older, hl⟩ := World.mem_own hr
        have hk := (st.allowed actor U before role rfl hrole newer r older hl ht).left hrs
        have hs := admins_since st.reachable hl
        have hpost := post_of_read (.inr hrs)
        rw [hpost] at hs
        omega
      case neg =>
        -- The user was no administrator when the call looked, and is none now.
        obtain ⟨ht, newer, older, hl⟩ := World.mem_own hr
        have hn := (st.allowed actor U before role rfl hrole newer r older hl ht).right hrs hb
        have hpost := post_of_read (.inl ⟨U, hrs⟩)
        refine absurd hadmin <| not_admin_since st.reachable hl ?_ hn
        rw [hpost, hrb]
        exact fun he => hb <| Option.some.inj he

-- Two administrators.
def Store.two : Store where
  users := ⟨[(1, .admin), (2, .admin)], by decide⟩
  audit := []

theorem Store.two_hasAdmin : Store.two.HasAdmin :=
  ⟨1, rfl⟩

-- The administrator `actor` makes the administrator `target` a plain user.
def demotion (actor target : UserId) : Call where
  actor    := ⟨actor, .admin⟩
  targetId := target
  role     := .user
  fault    := .committed

def isCount (e : Entry Stmt.sig Store Call) : Bool :=
  match e.stmt with
  | .countAdmins => true
  | _            => false

-- The runs in which no administrator loses the role while another call has counted them.
def checksUndisturbed : Policy Stmt.sig Store Call where
  step s t _ x := match x with
    | .setRole _ _ before _ =>
      before = .admin ∧ s.log.Pairwise fun e r => r.tid = t → isCount r → demotes e = false
    | _                     => True

instance {s : Pool Stmt.sig Store Call} {t : Nat} {c : Call} {x : Stmt} :
    Decidable (checksUndisturbed.step s t c x) := by
  unfold checksUndisturbed; dsimp only; split <;> infer_instance

instance : DecidablePred checksUndisturbed.spawn :=
  fun _ => .isTrue trivial

instance : Decidable checksUndisturbed.crash :=
  .isTrue trivial

theorem checksCurrent_of_undisturbed {s : Pool Stmt.sig Store Call} {t : Nat} {c : Call} {x : Stmt}
    (h : checksUndisturbed.step s t c x) : checksCurrent.step s t c x := by
  rintro actor U before role rfl hr newer r older hl ht
  obtain ⟨hb, h⟩ := h
  refine ⟨fun hs => ?_, fun _ hn => absurd hb hn⟩
  rw [hl, List.pairwise_append] at h
  have hz : newer.countP demotes = 0 := List.countP_eq_zero.mpr fun e he => by
    simp [h.right.right e he r List.mem_cons_self ht (by simp [isCount, hs])]
  exact hz ▸ Nat.zero_le _

-- One of the two administrators demotes the other one.
def demotedRun : List (Cmd Call) :=
  Cmd.run 1 (demotion 1 2) 3

theorem admin_remains_demoted :
    ∃ s, Reachable system checksCurrent Store.HasAdmin s ∧ s.db.users.find? 2 = some .user ∧
      s.db.HasAdmin := by
  let s := (Pool.init .two).runCmds system demotedRun
  have h : Reachable system checksCurrent Store.HasAdmin s := by
    have h : Reachable system checksUndisturbed Store.HasAdmin s :=
      (Reachable.init Store.two_hasAdmin).runCmds (by decide)
    exact h.mono (fun _ _ => trivial) (fun _ _ _ _ h => checksCurrent_of_undisturbed h) id
  exact ⟨s, h, by decide, admin_remains h⟩

-- Both administrators demote each other, and each of the two calls counts before the other one
-- writes.
def mutualRun : List (Cmd Call) :=
  List.flatten [Cmd.run 1 (demotion 1 2) 2, Cmd.run 2 (demotion 2 1) 2, [.exec 1, .exec 2]]

theorem admin_remains_missed :
    ¬∀ s, Reachable system {} Store.HasAdmin s → s.db.HasAdmin := by
  intro h
  let s := (Pool.init .two).runCmds system mutualRun
  have hs : Reachable system {} Store.HasAdmin s :=
    Reachable.runCmds_of_free mutualRun <| .init Store.two_hasAdmin
  have hz : s.db.admins = 0 := by decide
  have hp := Store.hasAdmin_iff.mp <| h s hs
  omega

end Drovery.Roles
