import Drovery.Data.Marked
import Drovery.Concurrency.Local
import Drovery.Services.SavedAddresses

namespace Drovery.SavedAddresses

open Concurrency

abbrev Log := List (Entry Stmt.sig Store Call)

namespace Store

-- No user has more addresses than allowed, or more than one default.
structure Within (db : Store) : Prop where
  limit   : ∀ U, db.count U ≤ maxAddressesPerUser
  default : db.addresses.table.MarkedOnce (·.userId) (·.isDefault)

def IsDefault (db : Store) (U : UserId) (A : AddressId) : Prop :=
  ∃ row, db.addresses.find? A = some row ∧ row.userId = U ∧ row.isDefault

end Store

-- The check that a call has passed when it counted the addresses of a user would still be passed.
def StillBelow (s : Pool Stmt.sig Store Call) (t : Nat) (U : UserId) : Prop :=
  ∀ r ∈ s.world.own t, r.stmt = .count U → r.pre.count U < maxAddressesPerUser →
    s.db.count U < maxAddressesPerUser

-- No other address than `A` has become a default of the user since the last statement of a call.
def NoneAdded (s : Pool Stmt.sig Store Call) (t : Nat) (U : UserId) (A : AddressId) : Prop :=
  ∀ r ∈ (s.world.own t).head?, ∀ A', s.db.IsDefault U A' → A' ≠ A → r.pre.IsDefault U A'

-- The runs in which no write is based on an outdated read.
def readsCurrent : Policy Stmt.sig Store Call where
  step s t _ x := match x with
    | .create row            => StillBelow s t row.userId
    | .createDefault _ row   =>
      StillBelow s t row.userId ∧ NoneAdded s t row.userId s.db.addresses.next
    | .updateDefault U _ A _ => NoneAdded s t U A
    | _                      => True

-- What a call has found out when it is about to write.
def Checked (x : Stmt) (es : Log) : Prop :=
  match x with
  | .create row =>
    row.isDefault = false ∧
      ∃ r ∈ es, r.stmt = .count row.userId ∧ r.pre.count row.userId < maxAddressesPerUser
  | .createDefault cleared row =>
    (∃ r ∈ es.head?, cleared = r.pre.defaults row.userId none) ∧
      ∃ r ∈ es, r.stmt = .count row.userId ∧ r.pre.count row.userId < maxAddressesPerUser
  | .updateDefault U cleared A _ =>
    (∃ r ∈ es.head?, cleared = r.pre.defaults U (some A)) ∧
      ∃ r ∈ es, ∃ row, r.pre.addresses.find? A = some row ∧ row.userId = U
  | _ => True

namespace Store

variable {db db' : Store} {A : AddressId} {U : UserId} {row : SavedAddress}
variable {cleared : List AddressId} {keep : Option AddressId} {f : SavedAddress → SavedAddress}

theorem mem_defaults (h : db.IsDefault U A) (hk : keep ≠ some A) : A ∈ db.defaults U keep := by
  have ⟨row, hr, ho, hd⟩ := h
  refine List.mem_map.mpr ⟨(A, row), List.mem_filter.mpr ⟨Table.find?_eq_some_iff.mp hr, ?_⟩, rfl⟩
  exact decide_eq_true ⟨ho, hd, hk⟩

theorem count_clear : (db.clear cleared).count U = db.count U := by
  rw [count, clear, Serial.updateMany, Table.count_updateMany]
  · rfl
  · exact fun _ _ => rfl

theorem find?_clear (h : (db.clear cleared).addresses.find? A = some row) :
    ∃ row', db.addresses.find? A = some row' ∧ row'.userId = row.userId := by
  rw [clear, Serial.find?_updateMany] at h
  have ⟨row', hr, he⟩ := Option.map_eq_some_iff.mp h
  refine ⟨row', hr, ?_⟩
  split at he <;> exact he ▸ rfl

theorem update_ok (h : db.update A f = .ok db') :
    ∃ row, db.addresses.find? A = some row ∧ db' = ⟨db.addresses.modify A f⟩ := by
  unfold update at h
  split at h
  case h_1        => contradiction
  case h_2 row hr => exact ⟨row, hr, (Except.ok.inj h).symm⟩

theorem delete_ok (h : db.delete A = .ok db') : db' = ⟨db.addresses.erase A⟩ := by
  unfold delete at h
  split at h
  case h_1 => contradiction
  case h_2 => exact (Except.ok.inj h).symm

namespace Within

theorem clear (h : db.Within) : (db.clear cleared).Within where
  limit U := by
    rw [count_clear]
    exact h.limit U
  default := h.default.updateMany (fun _ => rfl) nofun

theorem create (h : db.Within) (hl : db.count row.userId < maxAddressesPerUser)
    (hm : row.isDefault → db.addresses.table.Unmarked (·.userId) (·.isDefault) row.userId
      db.addresses.next) : (db.create row).Within := by
  refine ⟨fun U => ?_, h.default.insert Serial.insert_next hm⟩
  have := h.limit U
  rw [count, Store.create, Table.count_insert Serial.insert_next]
  split
  case isTrue ho =>
    rw [decide_eq_true_eq] at ho
    exact ho ▸ hl
  case isFalse => exact this

theorem update (h : db.Within) (hu : db.update A f = .ok db')
    (ho : ∀ row, (f row).userId = row.userId)
    (hm : (∀ row, (f row).isDefault → row.isDefault) ∨ ∀ row, db.addresses.find? A = some row →
      db.addresses.table.Unmarked (·.userId) (·.isDefault) row.userId A) : db'.Within := by
  have ⟨row, hr, he⟩ := update_ok hu
  subst he
  refine ⟨fun U => ?_, ?_⟩
  · rw [count, Serial.modify, Serial.updateMany, Table.count_updateMany]
    · exact h.limit U
    · exact fun _ row => by rw [ho]
  · cases hm
    case inl hm => exact h.default.updateMany ho hm
    case inr hm => exact h.default.modify hr (ho row) (hm row hr)

theorem delete (h : db.Within) (hd : db.delete A = .ok db') : db'.Within :=
  delete_ok hd ▸ ⟨fun U => Table.count_erase_le.trans <| h.limit U, h.default.erase⟩

end Within

theorem descends_commit {r : Except AppError Store}
    (h : ∀ db', r = .ok db' → Serial.Descends (·.userId) db.addresses db'.addresses) :
    Serial.Descends (·.userId) db.addresses (commit db r).snd.addresses :=
  commit_preserves (I := fun db' : Store => Serial.Descends (·.userId) db.addresses db'.addresses)
    .refl h

-- No statement moves an address to another user.
theorem descends_exec (x : Stmt) :
    Serial.Descends (·.userId) db.addresses (Stmt.exec x db).snd.addresses := by
  have clear {cleared : List AddressId} :
      Serial.Descends (·.userId) db.addresses (db.clear cleared).addresses :=
    .updateMany fun _ => rfl
  cases x
  case create row                => exact .create
  case createDefault cleared row => exact clear.trans .create rfl
  case updateDefault =>
    refine descends_commit fun db' h => ?_
    have ⟨_, _, he⟩ := update_ok h
    exact he ▸ clear.trans (.updateMany fun _ => rfl) rfl
  case update =>
    refine descends_commit fun db' h => ?_
    have ⟨_, _, he⟩ := update_ok h
    exact he ▸ .updateMany fun _ => rfl
  case delete => exact descends_commit fun db' h => delete_ok h ▸ .erase
  all_goals exact .refl

end Store

section

variable {P : Policy Stmt.sig Store Call} {init : Store → Prop} {s : Pool Stmt.sig Store Call}
variable {t : Nat} {c : Call} {x : Stmt} {A : AddressId} {U : UserId} {data : AddressData}
variable {es : Log}

abbrev Follows {α : Type} (t : Nat) (c : Call) (p : App α) (es : Log) : Prop :=
  p.Follows system t c Checked (fun _ _ => True) (fun _ _ => True) es

theorem follows_tx {f : x.Res → Except AppError Unit} (h : Checked x es) :
    Follows t c (App.tx x f) es :=
  Method.follows_tx.mpr ⟨h, fun _ => by split <;> trivial⟩

theorem follows_findOne {α : Type} {f : SavedAddress → App α}
    (h : ∀ r row, r.pre.addresses.find? A = some row → row.userId = U → Follows t c (f row) [r]) :
    Follows t c (SavedAddressesService.findOne U A >>= f) [] := by
  refine Method.follows_bind.mpr <| Method.follows_stmt_bind.mpr ⟨trivial, fun db => ?_⟩
  split
  case h_1        => trivial
  case h_2 row hr =>
    split
    case isTrue     => trivial
    case isFalse ho => exact h _ row hr (not_not.mp ho)

theorem follows_moveDefault {r : Entry Stmt.sig Store Call} {row : SavedAddress}
    (hr : r.pre.addresses.find? A = some row) (ho : row.userId = U) :
    Follows t c (SavedAddressesService.moveDefault U A data) [r] := by
  refine Method.follows_stmt_bind.mpr ⟨trivial, fun db => follows_tx ⟨⟨_, rfl, rfl⟩, ?_⟩⟩
  exact ⟨r, List.mem_cons_of_mem _ <| List.mem_singleton_self r, row, hr, ho⟩

theorem follows_checked (t : Nat) (c : Call) :
    (system.prog t c).Follows system t c Checked (fun _ _ => True) [] := by
  cases c <;> refine Method.follows_toCall.mpr ?_
  case create U dto geo =>
    refine Method.follows_stmt_bind.mpr ⟨trivial, fun db => ?_⟩
    split
    case isTrue     => trivial
    case isFalse hl =>
      have hl : db.count U < maxAddressesPerUser := Nat.lt_of_not_le hl
      dsimp only
      split
      case isTrue =>
        refine Method.follows_stmt_bind.mpr ⟨trivial, fun db' => ?_⟩
        refine Method.follows_tx.mpr ⟨⟨⟨_, rfl, rfl⟩, _, .tail _ <| .head _, rfl, hl⟩, ?_⟩
        exact fun _ => trivial
      case isFalse hd =>
        refine Method.follows_tx.mpr ⟨⟨Bool.eq_false_iff.mpr hd, _, .head _, rfl, hl⟩, ?_⟩
        exact fun _ => trivial
  case update U A dto geo =>
    refine follows_findOne fun r row hr ho => ?_
    split
    case isTrue  => exact follows_moveDefault hr ho
    case isFalse => exact follows_tx trivial
  case setDefault U A => exact follows_findOne fun _ _ hr ho => follows_moveDefault hr ho
  case remove U A     => exact follows_findOne fun _ _ _ _ => follows_tx trivial

-- An address that a call has found to be one of the user still is.
theorem owner_of_found {r : Entry Stmt.sig Store Call} {row row' : SavedAddress}
    (h : Reachable system P init s) (hr : r ∈ s.world.own t)
    (hrow : r.pre.addresses.find? A = some row) (hrow' : s.db.addresses.find? A = some row') :
    row'.userId = row.userId := by
  have owned : s.db.addresses.Owned (·.userId) A row.userId :=
    h.since_pre (I := fun db => db.addresses.Owned (·.userId) A row.userId)
      (List.mem_filter.mp hr).left (.of_find? hrow) fun x _ ih =>
        ih.descends <| Store.descends_exec x
  exact owned.owner row' hrow'

-- A transaction clears all defaults of the user, if none has been added in the meantime.
theorem covers_of_noneAdded {keep : Option AddressId} {r : Entry Stmt.sig Store Call}
    (hr : r ∈ (s.world.own t).head?) (h : NoneAdded s t U A) (hk : keep = none ∨ keep = some A) :
    s.db.addresses.table.Covers (·.userId) (·.isDefault) U A (r.pre.defaults U keep) := by
  intro A' row hrow ho hd hne
  refine Store.mem_defaults (h r hr A' ⟨row, hrow, ho, hd⟩ hne) ?_
  cases hk
  case inl hk => exact hk ▸ nofun
  case inr hk => exact hk ▸ fun he => hne (Option.some.inj he).symm

end

-- In a run whose reads are current every user stays within the limits, at any time.
theorem within_of_current {s : Pool Stmt.sig Store Call}
    (h : Reachable system readsCurrent Store.Within s) : s.db.Within := by
  refine h.invariant (I := fun w => w.db.Within) id fun {s t c x} st ih => ?_
  have checked := st.reachable.follows_aboutTo (fun t c _ => follows_checked t c) st.aboutTo
  have allowed := st.allowed
  cases x
  case count         => exact ih
  case find          => exact ih
  case clearDefaults => exact ih
  case create row    =>
    have ⟨plain, r, hr, hs, hl⟩ := checked
    exact ih.create (allowed r hr hs hl) fun hd => nomatch plain.symm.trans hd
  case createDefault cleared row =>
    have ⟨⟨r, hr, hc⟩, r', hr', hs, hl⟩ := checked
    subst hc
    refine ih.clear.create ?_ fun _ => ?_
    case refine_1 =>
      rw [Store.count_clear]
      exact allowed.left r' hr' hs hl
    case refine_2 => exact (covers_of_noneAdded hr allowed.right (.inl rfl)).unmarked fun _ => rfl
  case updateDefault U cleared A data =>
    have ⟨⟨r, hr, hc⟩, r', hr', row', hrow', ho⟩ := checked
    subst hc
    refine commit_preserves ih fun db' hu => ?_
    refine ih.clear.update hu (fun _ => rfl) <| .inr fun row hrow => ?_
    have ⟨row₀, hrow₀, ho₀⟩ := Store.find?_clear hrow
    have hU : row.userId = U :=
      ho₀.symm.trans <| (owner_of_found st.reachable hr' hrow' hrow₀).trans ho
    exact hU ▸ (covers_of_noneAdded hr allowed (.inr rfl)).unmarked fun _ => rfl
  case update A data =>
    exact commit_preserves ih fun db' hu => ih.update hu (fun _ => rfl) <| .inl fun _ => id
  case delete A      => exact commit_preserves ih fun db' hd => ih.delete hd

-- A user with nineteen addresses.
def Store.nineteen : Store where
  addresses := {
    table := {
      rows  := (List.range 19).map fun k => (k, ⟨1, "Home", "Jl. Sudirman", none, none, k = 0⟩)
      nodup := by decide
    }
    next  := 19
    fresh := by
      intro A row h
      have ⟨k, hk, he⟩ := List.mem_map.mp <| Table.find?_eq_some_iff.mp h
      exact (Prod.mk.inj he).left ▸ List.mem_range.mp hk
  }

theorem Store.nineteen_within : Store.nineteen.Within where
  limit U := List.countP_le_length.trans (by decide)
  default A A' row row' hr hr' hd hd' _ := by
    have first {A : AddressId} {row : SavedAddress} (hr : nineteen.addresses.find? A = some row)
        (hd : row.isDefault) : A = 0 := by
      have ⟨k, _, he⟩ := List.mem_map.mp <| Table.find?_eq_some_iff.mp hr
      have ⟨hA, hrow⟩ := Prod.mk.inj he
      subst hrow
      exact hA ▸ of_decide_eq_true hd
    rw [first hr hd, first hr' hd']

def addition : Call :=
  .create 1 ⟨"Office", "Jl. Thamrin", none, none, none⟩ none

-- The runs in which addresses are only added below the limit, and no default is moved.
def addsBelow : Policy Stmt.sig Store Call where
  step s _ _ x := match x with
    | .create row       => s.db.count row.userId < maxAddressesPerUser
    | .createDefault .. => False
    | .updateDefault .. => False
    | _                 => True

instance {s : Pool Stmt.sig Store Call} {t : Nat} {c : Call} {x : Stmt} :
    Decidable (addsBelow.step s t c x) := by
  cases x <;> dsimp only [addsBelow] <;> infer_instance

instance : DecidablePred addsBelow.spawn :=
  fun _ => .isTrue trivial

instance : Decidable addsBelow.crash :=
  .isTrue trivial

theorem readsCurrent_of_below {s : Pool Stmt.sig Store Call} {t : Nat} {c : Call} {x : Stmt}
    (h : addsBelow.step s t c x) : readsCurrent.step s t c x := by
  cases x
  case create        => exact fun _ _ _ _ => h
  case createDefault => exact h.elim
  case updateDefault => exact h.elim
  all_goals trivial

-- The twentieth address.
theorem within_of_current_added :
    ∃ s, Reachable system readsCurrent Store.Within s ∧ s.db.count 1 = 20 ∧ s.db.Within := by
  let s := (Pool.init .nineteen).runCmds system <| Cmd.run 1 addition 2
  have h : Reachable system readsCurrent Store.Within s := by
    have h : Reachable system addsBelow Store.Within s :=
      (Reachable.init Store.nineteen_within).runCmds (by decide)
    exact h.mono (fun _ _ => trivial) (fun _ _ _ _ h => readsCurrent_of_below h) id
  exact ⟨s, h, by decide, within_of_current h⟩

-- Two calls count the nineteen addresses before either of them adds another one.
theorem within_of_current_missed :
    ¬∀ s, Reachable system {} Store.Within s → s.Quiescent → s.db.Within := by
  intro h
  let s := (Pool.init .nineteen).runCmds system <|
    Cmd.run 1 addition 1 ++ Cmd.run 2 addition 1 ++ [.exec 1, .exec 2]
  have hs : Reachable system {} Store.Within s :=
    Reachable.runCmds_of_free _ <| .init Store.nineteen_within
  have hq : s.Quiescent := Pool.idle_runCmds (by decide)
  have hc : s.db.count 1 = 21 := by decide
  have hl := (h s hs hq).limit 1
  rw [hc] at hl
  exact absurd hl (by decide)

end Drovery.SavedAddresses
