import Drovery.Data.Marked
import Drovery.Concurrency.Duties
import Drovery.Concurrency.Local
import Drovery.Services.PaymentMethods

namespace Drovery.PaymentMethods

open Concurrency

abbrev Log := List (Entry Stmt.sig Store Call)

namespace Store

def HasCard (db : Store) (U : UserId) : Prop :=
  ∃ M row, db.methods.find? M = some row ∧ row.userId = U

def IsDefault (db : Store) (U : UserId) (M : MethodId) : Prop :=
  ∃ row, db.methods.find? M = some row ∧ row.userId = U ∧ row.isDefault

def HasDefault (db : Store) (U : UserId) : Prop :=
  ∃ M, db.IsDefault U M

-- Every user with cards has exactly one default card.
structure OneDefault (db : Store) : Prop where
  exist  : ∀ U, db.HasCard U → db.HasDefault U
  unique : db.methods.table.MarkedOnce (·.userId) (·.isDefault)

end Store

-- No other card than `M` has become a default of the user since the last statement of a call.
def NoneAdded (s : Pool Stmt.sig Store Call) (t : Nat) (U : UserId) (M : MethodId) : Prop :=
  ∀ r ∈ (s.world.own t).head?, ∀ M', s.db.IsDefault U M' → M' ≠ M → r.pre.IsDefault U M'

-- The runs without crashes in which no write is based on an outdated read:
-- * the user of a new card has no cards if and only if it had none when the call has counted them,
-- * a card that is deleted has the default flag that it had when the call has read it,
-- * a card that is promoted still exists, and no other card of the user is the default,
-- * no other card has become the default since a transaction that moves the flag has begun.
def readsCurrent : Policy Stmt.sig Store Call where
  step s t _ x := match x with
    | .create row     =>
      ∀ r ∈ (s.world.own t).head?, r.pre.count row.userId = 0 ↔ s.db.count row.userId = 0
    | .delete _ M _   =>
      ∀ r ∈ (s.world.own t).head?, ∀ row row', r.pre.methods.find? M = some row →
        s.db.methods.find? M = some row' → row'.isDefault = row.isDefault
    | .promote U M    =>
      (s.db.methods.find? M).isSome ∧ s.db.methods.table.Unmarked (·.userId) (·.isDefault) U M
    | .setDefault _ M =>
      ∀ row, s.db.methods.find? M = some row → NoneAdded s t row.userId M
    | _               => True
  crash := False

-- What a write has to comply with in order not to leave a user with too many or no defaults.
def Sound (db : Store) : Stmt → Prop
  | .create row            => row.isDefault ↔ db.count row.userId = 0
  | .delete _ M wasDefault => ∀ row, db.methods.find? M = some row → row.isDefault = wasDefault
  | .promote U M           =>
    (db.methods.find? M).isSome ∧ db.methods.table.Unmarked (·.userId) (·.isDefault) U M
  | .setDefault cleared M  =>
    ∀ row, db.methods.find? M = some row →
      db.methods.table.Covers (·.userId) (·.isDefault) row.userId M cleared
  | _                      => True

-- A call that has deleted the default card of a user is responsible for promoting another one,
-- until it has done so or has found out that there is none.
def duties : Duties Stmt.sig Store UserId where
  binds db U x    := ∃ M, x = .delete U M true ∧ (db.methods.find? M).isSome
  relieves db U x := (∃ M, x = .promote U M) ∨ x = .mostRecent U ∧ db.mostRecent U = none

-- The entries show that the card `M` belongs to the user `U`.
def Known (es : Log) (M : MethodId) (U : UserId) : Prop :=
  ∃ r ∈ es, ∃ row, r.pre.methods.find? M = some row ∧ row.userId = U

-- What a call has found out when it is about to write.
def Checked (x : Stmt) (es : Log) : Prop :=
  match x with
  | .create row            => ∃ r ∈ es.head?, row.isDefault ↔ r.pre.count row.userId = 0
  | .delete U M wasDefault =>
    ∃ r ∈ es.head?, ∃ row, r.pre.methods.find? M = some row ∧ row.userId = U ∧
      row.isDefault = wasDefault
  | .promote U M           => Known es M U
  | .setDefault cleared M  =>
    ∃ U, Known es M U ∧ ∃ r ∈ es.head?, cleared = r.pre.defaults U
  | _                      => True

structure Invariant (w : World Stmt.sig Store Call) : Prop where
  unique  : w.db.methods.table.MarkedOnce (·.userId) (·.isDefault)
  -- A user without a default card has no cards at all, or some call still has to promote one.
  covered : ∀ U, w.db.HasCard U → w.db.HasDefault U ∨ ∃ t, duties.Owes U (w.own t)

namespace Store

variable {db db' : Store} {M M' : MethodId} {U V : UserId} {row : PaymentMethod}
variable {cleared : List MethodId}

theorem count_eq_zero_iff : db.count U = 0 ↔ ¬db.HasCard U := by
  rw [count, Table.count_eq_zero_iff]
  constructor
  case mp =>
    intro h ⟨M, row, hr, ho⟩
    exact of_decide_eq_false (h M row hr) ho
  case mpr => exact fun h M row hr => decide_eq_false fun ho => h ⟨M, row, hr, ho⟩

theorem mostRecent_some (h : db.mostRecent U = some M) :
    ∃ row, db.methods.find? M = some row ∧ row.userId = U := by
  have ⟨⟨M', row⟩, hm, he⟩ := Option.map_eq_some_iff.mp h
  have hm := List.argmax_mem hm
  simp only at he
  subst he
  have ⟨hm, ho⟩ := List.mem_filter.mp hm
  exact ⟨row, Table.find?_eq_some_iff.mpr hm, of_decide_eq_true ho⟩

theorem mostRecent_none (h : db.mostRecent U = none) : ¬db.HasCard U := by
  intro ⟨M, row, hr, ho⟩
  have none := List.argmax_eq_none.mp <| Option.map_eq_none_iff.mp h
  have mem : (M, row) ∈ db.methods.table.findMany fun _ row => row.userId = U :=
    List.mem_filter.mpr ⟨Table.find?_eq_some_iff.mp hr, decide_eq_true ho⟩
  rw [none] at mem
  exact List.not_mem_nil mem

theorem mem_defaults (h : db.IsDefault U M) : M ∈ db.defaults U := by
  have ⟨row, hr, ho⟩ := h
  exact List.mem_map.mpr
    ⟨(M, row), List.mem_filter.mpr ⟨Table.find?_eq_some_iff.mp hr, decide_eq_true ho⟩, rfl⟩

theorem owner_of_mem_defaults (h : M ∈ db.defaults U) :
    ∃ row, db.methods.find? M = some row ∧ row.userId = U := by
  have ⟨⟨M', row⟩, hm, he⟩ := List.mem_map.mp h
  simp only at he
  subst he
  have ⟨hm, ho⟩ := List.mem_filter.mp hm
  exact ⟨row, Table.find?_eq_some_iff.mpr hm, (of_decide_eq_true ho).left⟩

theorem find?_clear (h : (db.clear cleared).methods.find? M = some row) :
    ∃ row', db.methods.find? M = some row' ∧ row'.userId = row.userId := by
  rw [clear, Serial.find?_updateMany] at h
  have ⟨row', hr, he⟩ := Option.map_eq_some_iff.mp h
  refine ⟨row', hr, ?_⟩
  split at he <;> exact he ▸ rfl

theorem delete_ok (h : db.delete M = .ok db') :
    ∃ row, db.methods.find? M = some row ∧ db' = { db with methods := db.methods.erase M } := by
  unfold delete at h
  split at h
  case h_1        => contradiction
  case h_2 row hr => exact ⟨row, hr, (Except.ok.inj h).symm⟩

theorem mark_ok (h : db.mark M = .ok db') :
    ∃ row, db.methods.find? M = some row ∧
      db' = { db with methods := db.methods.modify M ({ · with isDefault := true }) } := by
  unfold mark at h
  split at h
  case h_1        => contradiction
  case h_2 row hr => exact ⟨row, hr, (Except.ok.inj h).symm⟩

theorem descends_commit {r : Except AppError Store}
    (h : ∀ db', r = .ok db' → Serial.Descends (·.userId) db.methods db'.methods) :
    Serial.Descends (·.userId) db.methods (commit db r).snd.methods :=
  commit_preserves (I := fun db' : Store => Serial.Descends (·.userId) db.methods db'.methods)
    .refl h

theorem descends_delete (h : db.delete M = .ok db') :
    Serial.Descends (·.userId) db.methods db'.methods := by
  have ⟨_, _, he⟩ := delete_ok h
  exact he ▸ .erase

theorem descends_mark (h : db.mark M = .ok db') :
    Serial.Descends (·.userId) db.methods db'.methods := by
  have ⟨_, _, he⟩ := mark_ok h
  exact he ▸ .updateMany fun _ => rfl

-- No statement moves a card to another user.
theorem descends_exec (x : Stmt) :
    Serial.Descends (·.userId) db.methods (Stmt.exec x db).snd.methods := by
  cases x
  case create row   => exact .create
  case delete U M b => exact descends_commit fun _ => descends_delete
  case promote U M  => exact descends_commit fun _ => descends_mark
  case setDefault cleared M =>
    have clear : Serial.Descends (·.userId) db.methods (db.clear cleared).methods :=
      .updateMany fun _ => rfl
    exact descends_commit fun db' h => clear.trans (descends_mark h) rfl
  all_goals exact .refl

theorem HasCard.of_descends (h : db'.HasCard U)
    (hd : Serial.Descends (·.userId) db.methods db'.methods)
    (hn : db'.methods.next = db.methods.next) : db.HasCard U := by
  have ⟨M, row, hr, ho⟩ := h
  cases hd.rows M row hr
  case inl hold =>
    have ⟨row', hr', ho'⟩ := hold
    exact ⟨M, row', hr', ho'.trans ho⟩
  case inr hnew => exact absurd (hn ▸ hnew.right) (hnew.left ▸ lt_irrefl _)

theorem next_delete (h : db.delete M = .ok db') : db'.methods.next = db.methods.next := by
  have ⟨_, _, he⟩ := delete_ok h
  exact he ▸ rfl

theorem next_mark (h : db.mark M = .ok db') : db'.methods.next = db.methods.next := by
  have ⟨_, _, he⟩ := mark_ok h
  exact he ▸ rfl

theorem find?_create : (db.create row).methods.find? M =
    if M = db.methods.next then some row else db.methods.find? M :=
  Table.find?_insert Serial.insert_next

theorem HasDefault.create (h : db.HasDefault U) : (db.create row).HasDefault U := by
  have ⟨M, row', hr, hd⟩ := h
  refine ⟨M, row', ?_, hd⟩
  rw [find?_create, if_neg (db.methods.fresh M row' hr).ne, hr]

theorem hasDefault_created (hd : row.isDefault) : (db.create row).HasDefault row.userId :=
  ⟨db.methods.next, row, by rw [find?_create, if_pos rfl], rfl, hd⟩

theorem hasCard_create (h : (db.create row).HasCard U) : U = row.userId ∨ db.HasCard U := by
  have ⟨M, row', hr, ho⟩ := h
  rw [find?_create] at hr
  split at hr
  case isTrue  => exact .inl <| ho ▸ Option.some.inj hr ▸ rfl
  case isFalse => exact .inr ⟨M, row', hr, ho⟩

-- The default card of a user is still there, unless it is the one that has been deleted.
theorem HasDefault.delete (h : db.HasDefault U) (hd : db.delete M = .ok db') :
    db'.HasDefault U ∨
      ∃ row, db.methods.find? M = some row ∧ row.userId = U ∧ row.isDefault := by
  have ⟨_, _, he⟩ := delete_ok hd
  have ⟨M', row, hr, hrow⟩ := h
  subst he
  by_cases hM : M' = M
  case pos => exact .inr ⟨row, hM ▸ hr, hrow⟩
  case neg => exact .inl ⟨M', row, by rw [Serial.find?_erase, if_neg hM, hr], hrow⟩

theorem HasDefault.mark (h : db.HasDefault U) (hm : db.mark M = .ok db') : db'.HasDefault U := by
  have ⟨row, hrow, he⟩ := mark_ok hm
  have ⟨M', row', hr, ho, hd⟩ := h
  subst he
  by_cases hM : M' = M
  case pos =>
    subst hM
    refine ⟨M', { row' with isDefault := true }, ?_, ho, rfl⟩
    rw [Serial.find?_modify, if_pos rfl, hr]
    rfl
  case neg => exact ⟨M', row', by rw [Serial.find?_modify, if_neg hM, hr], ho, hd⟩

theorem hasDefault_marked (hm : db.mark M = .ok db') (hr : db.methods.find? M = some row) :
    db'.HasDefault row.userId := by
  have ⟨_, _, he⟩ := mark_ok hm
  subst he
  refine ⟨M, { row with isDefault := true }, ?_, rfl, rfl⟩
  rw [Serial.find?_modify, if_pos rfl, hr]
  rfl

theorem HasDefault.clear (h : db.HasDefault U)
    (hc : ∀ M ∈ cleared, ∀ row, db.methods.find? M = some row → row.userId ≠ U) :
    (db.clear cleared).HasDefault U := by
  have ⟨M, row, hr, ho, hd⟩ := h
  refine ⟨M, row, ?_, ho, hd⟩
  rw [Store.clear, Serial.find?_updateMany, hr, Option.map_some, if_neg]
  exact fun hM => hc M (of_decide_eq_true hM) row hr ho

end Store

section

variable {P : Policy Stmt.sig Store Call} {s : Pool Stmt.sig Store Call} {t : Nat} {c : Call}
variable {M : MethodId} {U : UserId} {row : PaymentMethod} {x : Stmt} {es : Log}

-- What a call knows about the owner of a card remains true.
theorem owned_of_known {init : Store → Prop} (h : Reachable system P init s)
    (hk : Known (s.world.own t) M U) : s.db.methods.Owned (·.userId) M U := by
  have ⟨r, hr, row, hrow, ho⟩ := hk
  exact h.since_pre (I := fun db => db.methods.Owned (·.userId) M U) (List.mem_filter.mp hr).left
    (ho ▸ .of_find? hrow) fun x _ ih => ih.descends <| Store.descends_exec x

-- The call is responsible for nothing.
def Calm (es : Log) : Prop :=
  ∀ U, ¬duties.Owes U es

-- Only a deletion makes a call responsible for something.
theorem owes_cons {e : Entry Stmt.sig Store Call} (h : duties.Owes U (e :: es))
    (hx : ∀ U M, e.stmt ≠ .delete U M true) :
    ¬duties.relieves e.pre U e.stmt ∧ duties.Owes U es :=
  h.resolve_left fun hb => hx U _ hb.choose_spec.left

theorem Calm.cons {e : Entry Stmt.sig Store Call} (h : Calm es)
    (hx : ∀ U M, e.stmt ≠ .delete U M true) : Calm (e :: es) :=
  fun U ho => h U (owes_cons ho hx).right

theorem Calm.nil : Calm [] :=
  fun _ => id

-- The program keeps to what it has found out, and is responsible for nothing at its end.
abbrev Orderly {α : Type} (t : Nat) (c : Call) (p : App α) (es : Log) : Prop :=
  p.Follows system t c Checked (fun _ => Calm) (fun _ => Calm) es

theorem orderly_tx {f : x.Res → Except AppError Unit} (h : Calm es) (hc : Checked x es)
    (hx : ∀ U M, x ≠ .delete U M true) : Orderly t c (App.tx x f) es :=
  Method.follows_tx.mpr ⟨hc, fun _ => by split <;> exact h.cons hx⟩

theorem orderly_findOwned {α : Type} {f : PaymentMethod → App α}
    (h : ∀ r row, r.pre.methods.find? M = some row → row.userId = U → Calm [r] →
      Orderly t c (f row) [r]) :
    Orderly t c (PaymentsService.findOwned U M >>= f) [] := by
  refine Method.follows_bind.mpr <| Method.follows_stmt_bind.mpr ⟨trivial, fun db => ?_⟩
  have calm : Calm [⟨t, c, .find M, db⟩] := Calm.nil.cons nofun
  split
  case h_1        => exact calm
  case h_2 row hr =>
    split
    case isTrue     => exact calm
    case isFalse ho => exact h _ row hr (not_not.mp ho) calm

theorem orderly_addPaymentMethod {dto : AddPaymentMethodDto} {now : Time} :
    Orderly t c (PaymentsService.addPaymentMethod U dto now) [] :=
  Method.follows_stmt_bind.mpr ⟨trivial, fun _ =>
    orderly_tx (Calm.nil.cons nofun) ⟨_, rfl, decide_eq_true_iff⟩ nofun⟩

theorem orderly_setDefault : Orderly t c (PaymentsService.setDefault U M) [] := by
  refine orderly_findOwned fun r row hr ho calm => ?_
  refine Method.follows_stmt_bind.mpr ⟨trivial, fun db => ?_⟩
  refine orderly_tx (calm.cons nofun) ⟨U, ?_, _, rfl, rfl⟩ (fun _ _ => nofun)
  exact ⟨r, List.mem_cons_of_mem _ <| List.mem_singleton_self r, row, hr, ho⟩

theorem orderly_syncCard {holderName : String} {now : Time} {card : Card} (h : Calm es) :
    Orderly t c (PaymentsService.syncCard U holderName now card) es := by
  refine Method.follows_stmt_bind.mpr ⟨trivial, fun db => ?_⟩
  have calm : Calm (⟨t, c, .findCard U card.id, db⟩ :: es) := h.cons nofun
  split
  case h_1 => exact calm
  case h_2 =>
    refine Method.follows_stmt_bind.mpr ⟨trivial, fun db' => ?_⟩
    exact orderly_tx (calm.cons nofun) ⟨_, rfl, decide_eq_true_iff⟩ fun _ _ => nofun

theorem orderly_syncAll {holderName : String} {now : Time} {cards : List Card} (h : Calm es) :
    Orderly t c (PaymentsService.syncAll U holderName now cards) es := by
  induction cards generalizing es
  case nil => exact h
  case cons card cards ih =>
    exact Method.follows_bind.mpr <| (orderly_syncCard h).mono (fun _ _ => ih) (fun _ _ => id)

theorem orderly_syncCards {cards : List Card} {now : Time} :
    Orderly t c (PaymentsService.syncCards U cards now) [] := by
  refine Method.follows_stmt_bind.mpr ⟨trivial, fun db => ?_⟩
  have calm : Calm [⟨t, c, .findUser U, db⟩] := Calm.nil.cons nofun
  split
  case h_1 => exact calm
  case h_2 =>
    split
    case isTrue  => exact orderly_syncAll calm
    case isFalse => exact calm

-- The promotion relieves a call of the only duty that it has.
theorem orderly_promoteMostRecent (h : ∀ V, duties.Owes V es → V = U) :
    Orderly t c (PaymentsService.promoteMostRecent U) es := by
  refine Method.follows_stmt_bind.mpr ⟨trivial, fun db => ?_⟩
  split
  case h_1 hn =>
    intro V ho
    have ⟨hr, ho⟩ := owes_cons ho nofun
    have := h V ho
    subst this
    exact hr <| .inr ⟨rfl, hn⟩
  case h_2 M hM =>
    have ⟨row, hr, ho⟩ := Store.mostRecent_some hM
    refine Method.follows_tx.mpr ⟨⟨_, List.mem_cons_self, row, hr, ho⟩, fun db' => ?_⟩
    have calm : Calm (⟨t, c, .promote U M, db'⟩ :: ⟨t, c, .mostRecent U, db⟩ :: es) := by
      intro V ho
      have ⟨hr, ho⟩ := owes_cons ho nofun
      exact hr <| h V (owes_cons ho nofun).right ▸ .inl ⟨M, rfl⟩
    split <;> exact calm

theorem orderly_remove : Orderly t c (PaymentsService.remove U M) [] := by
  refine orderly_findOwned fun r row hr ho calm => ?_
  refine Method.follows_bind.mpr <| Method.follows_tx.mpr ⟨?_, fun db => ?_⟩
  case refine_1 => exact ⟨r, rfl, row, hr, ho, rfl⟩
  case refine_2 =>
    have owes (V : UserId) (h : duties.Owes V [⟨t, c, .delete U M row.isDefault, db⟩, r]) :
        V = U ∧ row.isDefault ∧ (db.methods.find? M).isSome := by
      cases h
      case inr h => exact (calm V h.right).elim
      case inl h =>
        have ⟨_, he, hs⟩ := h
        have ⟨hU, hM, hd⟩ := Stmt.delete.inj he
        exact ⟨hU.symm, hd, hM ▸ hs⟩
    split
    case h_1 =>
      split
      case isTrue     => exact orderly_promoteMostRecent fun V h => (owes V h).left
      case isFalse hd => exact fun V h => hd (owes V h).right.left
    case h_2 e he =>
      -- A card that could not be deleted does not exist.
      intro V h
      have ⟨row', hr'⟩ := Option.isSome_iff_exists.mp (owes V h).right.right
      simp [system, Stmt.exec, Store.delete, hr', commit] at he

theorem orderly (t : Nat) (c : Call) :
    (system.prog t c).Follows system t c Checked (fun _ => Calm) [] := by
  cases c <;> refine Method.follows_toCall.mpr ?_
  case addPaymentMethod => exact orderly_addPaymentMethod
  case remove           => exact orderly_remove
  case setDefault       => exact orderly_setDefault
  case syncCards        => exact orderly_syncCards

-- What a call owes, it still owes after any other statement.
theorem owed_exec {w : World Stmt.sig Store Call} (h : ∃ t', duties.Owes U (w.own t'))
    (hr : ¬duties.relieves w.db U x) : ∃ t', duties.Owes U ((w.exec system t c x).own t') := by
  have ⟨t', ho⟩ := h
  refine ⟨t', ?_⟩
  by_cases ht : t' = t
  case pos =>
    subst ht
    exact Duties.owes_exec.mpr <| .inr ⟨hr, ho⟩
  case neg => rwa [World.own_exec_of_ne ht]

section

variable {w : World Stmt.sig Store Call} {db' : Store} {b : Bool} {cleared : List MethodId}

end

theorem sound_of_current {init : Store → Prop} (h : Reachable system P init s)
    (ha : readsCurrent.step s t c x) (hc : Checked x (s.world.own t)) : Sound s.db x := by
  cases x
  case create row =>
    have ⟨r, hr, hd⟩ := hc
    exact hd.trans <| ha r hr
  case delete U M b =>
    have ⟨r, hr, row, hrow, _, hb⟩ := hc
    exact fun row' hrow' => (ha r hr row row' hrow hrow').trans hb
  case promote => exact ha
  case setDefault cleared M =>
    have ⟨U, hk, r, hr, hcleared⟩ := hc
    intro row hrow M' row' hrow' ho hd hne
    have hU : row.userId = U := (owned_of_known h hk).owner row hrow
    subst hU hcleared
    exact Store.mem_defaults <| ha row hrow r hr M' ⟨row', hrow', ho, hd⟩ hne
  all_goals trivial

theorem unique_exec (h : Invariant s.world) (ha : Sound s.db x)
    (hc : Checked x (s.world.own t))
    (howned : ∀ M U, Known (s.world.own t) M U → s.db.methods.Owned (·.userId) M U) :
    (Stmt.exec x s.db).snd.methods.table.MarkedOnce (·.userId) (·.isDefault) := by
  have commit {r : Except AppError Store} (hr : ∀ db', r = .ok db' →
      db'.methods.table.MarkedOnce (·.userId) (·.isDefault)) :=
    commit_preserves (I := fun db : Store => db.methods.table.MarkedOnce (·.userId) (·.isDefault))
      h.unique hr
  cases x
  case create row =>
    refine h.unique.insert Serial.insert_next fun hd M' row' hr' ho _ => ?_
    exact absurd ⟨M', row', hr', ho⟩ <| Store.count_eq_zero_iff.mp <| ha.mp hd
  case delete U M b =>
    refine commit fun db' hr => ?_
    have ⟨_, _, he⟩ := Store.delete_ok hr
    exact he ▸ h.unique.erase
  case promote U M =>
    refine commit fun db' hr => ?_
    have ⟨row, hrow, he⟩ := Store.mark_ok hr
    subst he
    exact h.unique.modify hrow rfl <| (howned M U hc).owner row hrow ▸ ha.right
  case setDefault cleared M =>
    refine commit fun db' hr => ?_
    have ⟨row, hrow, he⟩ := Store.mark_ok hr
    have ⟨row', hrow', ho⟩ := Store.find?_clear hrow
    have cleared : (s.db.clear cleared).methods.table.MarkedOnce (·.userId) (·.isDefault) :=
      h.unique.updateMany (fun _ => rfl) nofun
    subst he
    exact cleared.modify hrow rfl <| ho ▸ (ha row' hrow').unmarked fun _ => rfl
  all_goals exact h.unique

theorem covered_exec (h : Invariant s.world) (ha : Sound s.db x)
    (hc : Checked x (s.world.own t))
    (howned : ∀ M U, Known (s.world.own t) M U → s.db.methods.Owned (·.userId) M U) {V : UserId}
    (hcard : (Stmt.exec x s.db).snd.HasCard V) :
    (Stmt.exec x s.db).snd.HasDefault V ∨
      ∃ t', duties.Owes V ((s.world.exec system t c x).own t') := by
  cases x
  case create row =>
    have keep {V : UserId} (ho : ∃ t', duties.Owes V (s.world.own t')) :=
      @owed_exec t c V (.create row) s.world ho nofun
    by_cases hd : row.isDefault ∧ V = row.userId
    case pos => exact .inl <| hd.right ▸ Store.hasDefault_created hd.left
    case neg =>
      have old : s.db.HasCard V := by
        cases Store.hasCard_create hcard
        case inr old => exact old
        case inl hV =>
          by_contra hn
          exact hd ⟨ha.mpr <| Store.count_eq_zero_iff.mpr <| hV ▸ hn, hV⟩
      exact (h.covered V old).imp (·.create) keep
  case delete U M b =>
    have keep {V : UserId} (ho : ∃ t', duties.Owes V (s.world.own t')) :=
      @owed_exec t c V (.delete U M b) s.world ho nofun
    simp only [Stmt.exec] at hcard ⊢
    cases hr : s.db.delete M <;> rw [hr] at hcard
    case error => exact (h.covered V hcard).imp_right keep
    case ok db' =>
      have old := hcard.of_descends (Store.descends_delete hr) (Store.next_delete hr)
      cases h.covered V old
      case inr ho => exact .inr <| keep ho
      case inl hd =>
        refine (hd.delete hr).imp_right fun ⟨row, hrow, ho, hd⟩ => ⟨t, ?_⟩
        -- It is this call that is responsible for promoting another card.
        have hb : b = true := (ha row hrow).symm.trans hd
        have ⟨r, hr', row', hrow', ho', _⟩ := hc
        have known : Known (s.world.own t) M U := ⟨r, List.mem_of_mem_head? hr', row', hrow', ho'⟩
        have hU : U = V := ((howned M U known).owner row hrow).symm.trans ho
        subst hb hU
        exact Duties.owes_exec.mpr <| .inl ⟨M, rfl, by rw [hrow]; rfl⟩
  case mostRecent U =>
    by_cases hr : duties.relieves s.db V (.mostRecent U)
    case neg => exact (h.covered V hcard).imp_right fun ho => owed_exec ho hr
    case pos =>
      cases hr
      case inl hr => exact nomatch hr.choose_spec
      case inr hr =>
        have hU := Stmt.mostRecent.inj hr.left
        exact absurd hcard <| Store.mostRecent_none hr.right
  case promote U M =>
    have ⟨row, hrow⟩ := Option.isSome_iff_exists.mp ha.left
    have hU : row.userId = U := (howned M U hc).owner row hrow
    simp only [Stmt.exec] at hcard ⊢
    cases hr : s.db.mark M <;> rw [hr] at hcard
    case error e => simp [Store.mark, hrow] at hr
    case ok db' =>
      have old := hcard.of_descends (Store.descends_mark hr) (Store.next_mark hr)
      by_cases hV : V = U
      case pos =>
        subst hV hU
        exact .inl <| Store.hasDefault_marked hr hrow
      case neg =>
        refine (h.covered V old).imp (·.mark hr) fun ho => owed_exec ho fun hrel => ?_
        cases hrel
        case inl hrel => exact hV (Stmt.promote.inj hrel.choose_spec).left.symm
        case inr hrel => exact nomatch hrel.left
  case setDefault cleared M =>
    have keep {V : UserId} (ho : ∃ t', duties.Owes V (s.world.own t')) :=
      @owed_exec t c V (.setDefault cleared M) s.world ho nofun
    simp only [Stmt.exec] at hcard ⊢
    cases hr : (s.db.clear cleared).mark M <;> rw [hr] at hcard
    case error => exact (h.covered V hcard).imp_right keep
    case ok db' =>
      have ⟨U, hM, r, hr', hcleared⟩ := hc
      have ⟨row, hrow, _⟩ := Store.mark_ok hr
      have ⟨row', hrow', ho⟩ := Store.find?_clear hrow
      have hU : row.userId = U := ho.symm.trans <| (howned M U hM).owner row' hrow'
      have old : s.db.HasCard V := by
        have ⟨M', row, hr, ho⟩ := hcard.of_descends (Store.descends_mark hr) (Store.next_mark hr)
        have ⟨row', hr', ho'⟩ := Store.find?_clear hr
        exact ⟨M', row', hr', ho'.trans ho⟩
      by_cases hV : V = U
      case pos =>
        subst hV hU
        exact .inl <| Store.hasDefault_marked hr hrow
      case neg =>
        refine (h.covered V old).imp (fun hd => (hd.clear fun M' hM' row hr => ?_).mark hr) keep
        have ⟨row', hrow', ho'⟩ := Store.owner_of_mem_defaults (hcleared ▸ hM')
        have known : Known (s.world.own t) M' U :=
          ⟨_, List.mem_of_mem_head? hr', row', hrow', ho'⟩
        exact (howned M' U known).owner row hr ▸ Ne.symm hV
  all_goals exact (h.covered V hcard).imp_right fun ho => owed_exec ho nofun

theorem invariant_of_reachable (h : Reachable system readsCurrent Store.OneDefault s) :
    Invariant s.world := by
  refine h.invariant (I := Invariant) (fun hi => ?_) fun {s t c x} st ih => ?_
  case refine_1 => exact ⟨hi.unique, fun U hU => .inl <| hi.exist U hU⟩
  case refine_2 =>
    have checked := st.reachable.follows_aboutTo (fun t c _ => orderly t c) st.aboutTo
    have sound := sound_of_current st.reachable st.allowed checked
    have owned (M : MethodId) (U : UserId) (hk : Known (s.world.own t) M U) :=
      owned_of_known st.reachable hk
    exact ⟨unique_exec ih sound checked owned, fun _ => covered_exec ih sound checked owned⟩

end

-- Once all calls have been completed, every user with cards has exactly one default card.
theorem oneDefault_of_quiescent {s : Pool Stmt.sig Store Call}
    (h : Reachable system readsCurrent Store.OneDefault s) (hq : s.Quiescent) :
    s.db.OneDefault where
  unique := (invariant_of_reachable h).unique
  exist U hU := by
    refine ((invariant_of_reachable h).covered U hU).resolve_right fun ⟨t, ho⟩ => ?_
    refine duties.not_owes_of_quiescent h id hq (fun {t th} ht hd => ?_) ho
    exact h.follows_done (fun t c _ => orderly t c) ht hd

-- A user without cards.
def Store.cardless : Store where
  users   := ⟨[(1, ⟨"Ayu", none⟩)], by decide⟩
  methods := .empty

theorem Store.cardless_oneDefault : Store.cardless.OneDefault where
  exist  := fun _ ⟨_, _, h, _⟩ => (nomatch h)
  unique := fun _ _ _ _ h => (nomatch h)

def addition : Call :=
  .addPaymentMethod 1 ⟨"visa", "4242", "Ayu", "01/30"⟩ 5

-- The runs in which cards are only added.
def addsCurrent : Policy Stmt.sig Store Call where
  step s t _ x := match x with
    | .create row    =>
      ∀ r ∈ (s.world.own t).head?, r.pre.count row.userId = 0 ↔ s.db.count row.userId = 0
    | .delete ..     => False
    | .promote ..    => False
    | .setDefault .. => False
    | _              => True
  crash := False

instance {s : Pool Stmt.sig Store Call} {t : Nat} {c : Call} {x : Stmt} :
    Decidable (addsCurrent.step s t c x) := by
  cases x <;> dsimp only [addsCurrent] <;> infer_instance

instance : DecidablePred addsCurrent.spawn :=
  fun _ => .isTrue trivial

instance : Decidable addsCurrent.crash :=
  .isFalse id

theorem readsCurrent_of_adds {s : Pool Stmt.sig Store Call} {t : Nat} {c : Call} {x : Stmt}
    (h : addsCurrent.step s t c x) : readsCurrent.step s t c x := by
  cases x
  case create     => exact h
  case delete     => exact h.elim
  case promote    => exact h.elim
  case setDefault => exact h.elim
  all_goals trivial

-- Two cards that are added one after the other.
theorem oneDefault_of_quiescent_added :
    ∃ s, Reachable system readsCurrent Store.OneDefault s ∧ s.db.count 1 = 2 ∧ s.db.OneDefault := by
  let s := (Pool.init .cardless).runCmds system <| Cmd.run 1 addition 2 ++ Cmd.run 2 addition 2
  have h : Reachable system readsCurrent Store.OneDefault s := by
    have h : Reachable system addsCurrent Store.OneDefault s :=
      (Reachable.init Store.cardless_oneDefault).runCmds (by decide)
    exact h.mono (fun _ _ => trivial) (fun _ _ _ _ h => readsCurrent_of_adds h) id
  have hq : s.Quiescent := Pool.idle_runCmds (by decide)
  exact ⟨s, h, by decide, oneDefault_of_quiescent h hq⟩

-- Two calls find no cards before either of them adds one.
theorem oneDefault_of_quiescent_missed :
    ¬∀ s, Reachable system {} Store.OneDefault s → s.Quiescent → s.db.OneDefault := by
  intro h
  let s := (Pool.init .cardless).runCmds system <|
    Cmd.run 1 addition 1 ++ Cmd.run 2 addition 1 ++ [.exec 1, .exec 2]
  have hs : Reachable system {} Store.OneDefault s :=
    Reachable.runCmds_of_free _ <| .init Store.cardless_oneDefault
  have hq : s.Quiescent := Pool.idle_runCmds (by decide)
  have hd (M : MethodId) (hM : M = 0 ∨ M = 1) :
      (s.db.methods.find? M).any fun row => row.userId = 1 ∧ row.isDefault := by
    cases hM <;> subst M <;> decide
  have ⟨row, hr, hd₀⟩ := Option.any_eq_true .. |>.mp (hd 0 (.inl rfl))
  have ⟨row', hr', hd₁⟩ := Option.any_eq_true .. |>.mp (hd 1 (.inr rfl))
  have ⟨ho, hd₀⟩ := of_decide_eq_true hd₀
  have ⟨ho', hd₁⟩ := of_decide_eq_true hd₁
  exact absurd ((h s hs hq).unique 0 1 row row' hr hr' hd₀ hd₁ (ho.trans ho'.symm)) (by decide)

end Drovery.PaymentMethods
