import Mathlib.Algebra.Order.Group.Int
import Drovery.Concurrency.Local
import Drovery.Services.Airspace

namespace Drovery

-- The lower bound lies strictly below the upper one, where both of them are given.
def Ordered {α : Type} [LinearOrder α] (lower upper : Option α) : Prop :=
  ∀ a ∈ lower, ∀ b ∈ upper, a < b

-- A patch overwrites any of two bounds. The result is in order if it was in order for the bounds
-- that were merged with the patch before, and these are still those that the patch leaves alone.
theorem Ordered.merge {α : Type} [LinearOrder α] {p q : Option (Option α)} {a b a' b' : Option α}
    (h : Ordered a b) (hm : Ordered (p.getD a') (q.getD b')) (ha : q.isSome → p = none → a = a')
    (hb : p.isSome → q = none → b = b') : Ordered (p.getD a) (q.getD b) := by
  cases p <;> cases q
  case none.none => exact h
  case none.some => exact ha rfl rfl ▸ hm
  case some.none => exact hb rfl rfl ▸ hm
  case some.some => exact hm

theorem ordered_of_not_any {α : Type} [LinearOrder α] {a b : Option α}
    (h : ¬a.any fun x => b.any (· ≤ x)) : Ordered a b := by
  intro x hx y hy
  by_contra hle
  exact h <| by simp [Option.mem_def.mp hx, Option.mem_def.mp hy, not_lt.mp hle]

namespace AirspaceZone

-- A zone that is in force at some time and in some altitude.
structure Upright (z : AirspaceZone) : Prop where
  window   : Ordered z.activeFrom z.activeUntil
  altitude : Ordered z.floorM z.ceilingM

theorem upright_of_check {z : AirspaceZone} {windowWritten : Bool} {now : Time}
    (h : assertZoneBounds z windowWritten now = .ok ()) : z.Upright := by
  unfold assertZoneBounds at h
  split at h
  case isTrue => contradiction
  case isFalse hw =>
    split at h
    case isTrue => contradiction
    case isFalse =>
      split at h
      case isTrue => contradiction
      case isFalse ha => exact ⟨ordered_of_not_any hw, ordered_of_not_any ha⟩

end AirspaceZone

namespace AirspaceZonePatch

-- The patch writes a bound but not its counterpart, which is what the other patch writes.
def Crosses (patch patch' : AirspaceZonePatch) : Prop :=
  (patch.activeFrom.isSome ∧ patch.activeUntil = none ∧ patch'.activeUntil.isSome) ∨
  (patch.activeUntil.isSome ∧ patch.activeFrom = none ∧ patch'.activeFrom.isSome) ∨
  (patch.floorM.isSome ∧ patch.ceilingM = none ∧ patch'.ceilingM.isSome) ∨
  (patch.ceilingM.isSome ∧ patch.floorM = none ∧ patch'.floorM.isSome)

end AirspaceZonePatch

namespace Airspace

open Concurrency

def Store.Upright (db : Store) : Prop :=
  ∀ Z z, db.zones.find? Z = some z → z.Upright

-- The runs in which no patch is written to a zone between the read of the zone by another call and
-- the write of a patch by that call which crosses the first one.
def patchesApart : Policy Stmt.sig Store Call where
  step s t _ x := ∀ Z patch, x = .update Z patch → ∀ newer r older, s.log = newer ++ r :: older →
    r.tid = t → r.stmt = .find Z → ∀ e ∈ newer, ∀ patch', e.stmt = .update Z patch' →
      ¬patch.Crosses patch'

-- What a call has found out when it is about to write a zone.
def Checked (x : Stmt) (es : List (Entry Stmt.sig Store Call)) : Prop :=
  match x with
  | .create _ zone  => zone.Upright
  | .update Z patch =>
    patch = { active := some (some false) } ∨
      ∃ r ∈ es, r.stmt = .find Z ∧ ∃ before, r.pre.zones.find? Z = some before ∧
        (patch.apply before).Upright
  | _ => True

section

variable {P : Policy Stmt.sig Store Call} {init : Store → Prop} {s : Pool Stmt.sig Store Call}
variable {raw : Option ℚ} {ttl : ℚ} {t : Nat} {c : Call} {Z : ZoneId} {patch : AirspaceZonePatch}
variable {newer older : List (Entry Stmt.sig Store Call)} {r e : Entry Stmt.sig Store Call}
variable {before : AirspaceZone} {now : Time} {fault : Outcome AppError}

theorem follows_findZone {α : Type} {f : AirspaceZone → App α}
    (h : ∀ r before, r.stmt = .find Z → r.pre.zones.find? Z = some before →
      (f before).Follows (system raw) t c (fun x => Checked x) (fun _ _ => True) (fun _ _ => True)
        [r]) :
    (AdminService.findZoneOr404 Z >>= f).Follows (system raw) t c (fun x => Checked x)
      (fun _ _ => True) (fun _ _ => True) [] := by
  refine Method.follows_bind.mpr <| Method.follows_stmt_bind.mpr ⟨trivial, fun db => ?_⟩
  split
  case h_1           => trivial
  case h_2 before hb => exact h ⟨t, c, .find Z, db⟩ before rfl hb

theorem follows_write {x : Stmt} {f : x.Res → Except AppError Unit}
    {es : List (Entry Stmt.sig Store Call)} (h : Checked x es) :
    ((App.tx x f).attempt fault >>= fun _ => AdminService.dropZoneCacheAfterCommit).Follows
      (system raw) t c (fun x => Checked x) (fun _ _ => True) (fun _ _ => True) es := by
  refine Method.follows_bind.mpr ?_
  have free {es} : AdminService.dropZoneCacheAfterCommit.Follows (system raw) t c
      (fun x => Checked x) (fun _ _ => True) (fun _ _ => True) es :=
    Method.follows_tx.mpr ⟨trivial, fun _ => trivial⟩
  have write : (App.tx x f).Follows (system raw) t c (fun x => Checked x) (fun _ _ => True)
      (fun _ _ => True) es :=
    Method.follows_tx.mpr ⟨h, fun _ => by split <;> trivial⟩
  exact (Method.follows_attempt write).mono (fun _ _ _ => free) (fun _ _ h => h)

theorem follows_checked (t : Nat) (c : Call) :
    ((system raw).prog t c).Follows (system raw) t c Checked (fun _ _ => True) [] := by
  cases c
  case inForceZones =>
    refine Method.follows_toCall.mpr <| Method.follows_stmt_bind.mpr ⟨trivial, fun _ => ?_⟩
    split
    case h_1 => exact Method.follows_tx.mpr ⟨trivial, fun _ => trivial⟩
    case h_2 =>
      refine Method.follows_bind.mpr <| Method.follows_tx.mpr ⟨trivial, fun _ => ?_⟩
      split
      case h_2 => trivial
      case h_1 =>
        refine Method.follows_stmt_bind.mpr ⟨trivial, fun _ => ?_⟩
        exact Method.follows_tx.mpr ⟨trivial, fun _ => trivial⟩
  case createAirspaceZone dto now fault =>
    refine Method.follows_toCall.mpr <| Method.follows_bind.mpr ?_
    cases h : assertZoneBounds dto.zone true now
    case error => trivial
    case ok    => exact follows_write <| AirspaceZone.upright_of_check h
  case updateAirspaceZone Z patch now fault =>
    refine Method.follows_toCall.mpr <| follows_findZone fun r before hr hb => ?_
    refine Method.follows_bind.mpr ?_
    cases assertNoNullOnRequiredFields patch
    case error => trivial
    case ok    =>
      refine Method.follows_bind.mpr ?_
      cases h : assertZoneBounds (patch.apply before) patch.writesWindow now
      case error => trivial
      case ok    =>
        refine follows_write <| .inr ⟨r, List.mem_singleton_self r, hr, before, hb, ?_⟩
        exact AirspaceZone.upright_of_check h
  case deactivateAirspaceZone Z fault =>
    refine Method.follows_toCall.mpr <| follows_findZone fun r before hr hb => ?_
    exact follows_write <| .inl rfl

-- What a column of a zone is since the zone has been read, unless a patch has written the column.
theorem column_since {β : Type} {column : AirspaceZone → β} {writes : AirspaceZonePatch → Prop}
    (hw : ∀ patch z, ¬writes patch → column (patch.apply z) = column z)
    (h : Reachable (system raw) P init s) (hl : s.log = newer ++ r :: older) (hr : r.stmt = .find Z)
    (hb : r.pre.zones.find? Z = some before)
    (hn : ∀ e ∈ newer, ∀ patch, e.stmt = .update Z patch → ¬writes patch) :
    (s.db.zones.find? Z).map column = some (column before) := by
  refine h.since (I := fun newer db => (∀ e ∈ newer, ∀ patch, e.stmt = Stmt.update Z patch →
    ¬writes patch) → (db.zones.find? Z).map column = some (column before)) hl (fun _ => ?_)
    (fun {newer e} ih hn => ?_) hn
  case refine_1 =>
    have : r.post (system raw) = r.pre := by
      obtain ⟨_, _, x, _⟩ := r
      cases hr
      rfl
    rw [this, hb, Option.map_some]
  case refine_2 =>
    have ⟨he, hn'⟩ := List.forall_mem_cons.mp hn
    replace ih := ih hn'
    clear hn hn'
    obtain ⟨_, _, x, db⟩ := e
    cases x
    case readCache        => exact ih
    case storeCache       => exact ih
    case invalidate       => exact ih
    case find             => exact ih
    case respond          => exact ih
    case fetchActiveRows fault => cases fault <;> exact ih
    case create Z' zone   =>
      simp only [Entry.post, system, Stmt.exec, Store.create]
      split
      case h_1 => exact ih
      case h_2 zones hz =>
        simp only [Stmt.commit, Table.find?_insert hz]
        split
        case isTrue he =>
          subst he
          simp [Table.find?_of_insert hz] at ih
        case isFalse   => exact ih
    case update Z' patch =>
      simp only [Entry.post, system, Stmt.exec, Store.update]
      split
      case h_1 => exact ih
      case h_2 z hz =>
        simp only [Stmt.commit, Table.find?_modify]
        split
        case isFalse => exact ih
        case isTrue heq =>
          subst heq
          rw [hz, Option.map_some, Option.some.injEq] at ih
          rw [hz, Option.map_some, Option.map_some, hw patch z <| he patch rfl, ih]

-- The other bound is that of the zone as it has been read.
theorem upright_apply (h : Reachable (system raw) patchesApart init s)
    (ha : s.AboutTo t c (.update Z patch)) (hp : patchesApart.step s t c (.update Z patch))
    {z : AirspaceZone} (hz : s.db.zones.find? Z = some z) (hu : z.Upright) :
    (patch.apply z).Upright := by
  cases h.follows_aboutTo (fun t c _ => follows_checked t c) ha
  case inl hc => exact hc ▸ ⟨hu.window, hu.altitude⟩
  case inr hc =>
    have ⟨r, hr, hrs, before, hb, hm⟩ := hc
    have ⟨ht, newer, older, hl⟩ := World.mem_own hr
    have apart := hp Z patch rfl newer r older hl ht hrs
    have column {β : Type} {f : AirspaceZone → β} (field : AirspaceZonePatch → Option β)
        (hw : ∀ patch z, ¬(field patch).isSome → f (patch.apply z) = f z)
        (hc : ∀ patch', (field patch').isSome → patch.Crosses patch') : f z = f before := by
      have := column_since hw h hl hrs hb fun e he patch' hs =>
        mt (hc patch') <| apart e he patch' hs
      rw [hz, Option.map_some] at this
      exact Option.some.inj this
    have field {β : Type} {q : Option β} {b : β} (h : ¬q.isSome) : q.getD b = b := by
      rw [Option.not_isSome_iff_eq_none.mp h, Option.getD_none]
    constructor
    case window =>
      refine hu.window.merge hm.window (fun hq hp => ?_) (fun hp hq => ?_)
      case refine_1 =>
        exact column (·.activeFrom) (fun _ _ => field) fun _ h => .inr <| .inl ⟨hq, hp, h⟩
      case refine_2 =>
        exact column (·.activeUntil) (fun _ _ => field) fun _ h => .inl ⟨hp, hq, h⟩
    case altitude =>
      refine hu.altitude.merge hm.altitude (fun hq hp => ?_) (fun hp hq => ?_)
      case refine_1 =>
        exact column (·.floorM) (fun _ _ => field) fun _ h => .inr <| .inr <| .inr ⟨hq, hp, h⟩
      case refine_2 =>
        exact column (·.ceilingM) (fun _ _ => field) fun _ h => .inr <| .inr <| .inl ⟨hp, hq, h⟩

end

-- In a run whose patches are apart no zone is ever inverted.
theorem upright_of_apart {raw : Option ℚ} {s : Pool Stmt.sig Store Call}
    (h : Reachable (system raw) patchesApart Store.Upright s) : s.db.Upright := by
  refine h.invariant (I := fun w => w.db.Upright) id fun {s t c x} st ih => ?_
  have checked := st.reachable.follows_aboutTo (fun t c _ => follows_checked t c) st.aboutTo
  cases x
  case readCache             => exact ih
  case storeCache            => exact ih
  case invalidate            => exact ih
  case find                  => exact ih
  case respond               => exact ih
  case fetchActiveRows fault => cases fault <;> exact ih
  case create Z zone =>
    simp only [World.exec_db, system, Stmt.exec, Store.create]
    split
    case h_1          => exact ih
    case h_2 zones hz =>
      intro Z' z h
      simp only [Stmt.commit, Table.find?_insert hz] at h
      split at h
      case isTrue  => exact Option.some.inj h ▸ checked
      case isFalse => exact ih Z' z h
  case update Z patch =>
    simp only [World.exec_db, system, Stmt.exec, Store.update]
    split
    case h_1         => exact ih
    case h_2 z hz    =>
      intro Z' z' h
      simp only [Stmt.commit, Table.find?_modify] at h
      split at h
      case isFalse => exact ih Z' z' h
      case isTrue  =>
        rw [hz, Option.map_some, Option.some.injEq] at h
        exact h ▸ upright_apply st.reachable st.aboutTo st.allowed hz (ih Z z hz)

-- A zone that is in force from time 10 until time 100.
def Store.windowed : Store where
  zones := ⟨[(1, ⟨"CGK", .airport, 0, 0, 1, none, none, some 10, some 100, true, none⟩)], by decide⟩
  cache := none

theorem Store.windowed_upright : Store.windowed.Upright := by
  intro Z z h
  have hm := Table.find?_eq_some_iff.mp h
  simp only [windowed, List.mem_singleton, Prod.mk.injEq] at hm
  rw [hm.right]
  refine ⟨fun f hf u hu => ?_, fun f hf => by cases hf⟩
  obtain rfl := Option.some.inj hf
  obtain rfl := Option.some.inj hu
  decide

def opensAt (from' : Time) : Call :=
  .updateAirspaceZone 1 { activeFrom := some (some from') } 5 .committed

def closesAt (until' : Time) : Call :=
  .updateAirspaceZone 1 { activeUntil := some (some until') } 5 .committed

def isUpdate : Stmt → Bool
  | .update .. => true
  | _          => false

-- The runs in which a single patch is written.
def singlePatch : Policy Stmt.sig Store Call where
  step s _ _ x := isUpdate x → s.log.all (!isUpdate ·.stmt)

instance {s : Pool Stmt.sig Store Call} {t : Nat} {c : Call} {x : Stmt} :
    Decidable (singlePatch.step s t c x) :=
  inferInstanceAs (Decidable (_ → _))

instance : DecidablePred singlePatch.spawn :=
  fun _ => .isTrue trivial

instance : Decidable singlePatch.crash :=
  .isTrue trivial

theorem patchesApart_of_single {s : Pool Stmt.sig Store Call} {t : Nat} {c : Call} {x : Stmt}
    (h : singlePatch.step s t c x) : patchesApart.step s t c x := by
  rintro Z patch rfl newer r older hl _ _ e he patch' hs
  have := List.all_eq_true.mp (h rfl) e (hl ▸ List.mem_append_left _ he)
  simp [hs, isUpdate] at this

theorem upright_of_apart_opened :
    ∃ s, Reachable (system none) patchesApart Store.Upright s ∧
      (s.db.zones.find? 1).map (·.activeFrom) = some (some 50) ∧ s.db.Upright := by
  let s := (Pool.init .windowed).runCmds (system none) <| Cmd.run 1 (opensAt 50) 3
  have h : Reachable (system none) patchesApart Store.Upright s := by
    have h : Reachable (system none) singlePatch Store.Upright s :=
      (Reachable.init Store.windowed_upright).runCmds (by decide)
    exact h.mono (fun _ _ => trivial) (fun _ _ _ _ h => patchesApart_of_single h) id
  exact ⟨s, h, by decide, upright_of_apart h⟩

-- One call lets the zone come into force later while another one lets it end earlier. Both of them
-- have read the zone before.
theorem upright_of_apart_missed :
    ¬∀ s, Reachable (system none) {} Store.Upright s → s.db.Upright := by
  intro h
  let s := (Pool.init .windowed).runCmds (system none) <|
    Cmd.run 1 (opensAt 50) 1 ++ Cmd.run 2 (closesAt 20) 1 ++ [.exec 1, .exec 2]
  have hs : Reachable (system none) {} Store.Upright s :=
    Reachable.runCmds_of_free _ <| .init Store.windowed_upright
  have hz : (s.db.zones.find? 1).map (fun z => (z.activeFrom, z.activeUntil)) =
      some (some 50, some 20) := by decide
  have ⟨z, hf, he⟩ := Option.map_eq_some_iff.mp hz
  have ⟨h₁, h₂⟩ := Prod.mk.inj he
  exact absurd ((h s hs 1 z hf).window 50 h₁ 20 h₂) (by decide)

end Airspace

end Drovery
