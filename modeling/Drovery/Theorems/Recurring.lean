import Drovery.Services.Recurring

namespace Drovery.Recurring

open Concurrency

abbrev History := World Stmt.sig Store Call

-- The entry moved the cursor of the schedule `S` past its occurrence `o`, in order to create a
-- delivery for `o`.
def claims (S : ScheduleId) (o : Instant) (e : Entry Stmt.sig Store Call) : Bool :=
  match e.stmt with
  | .claim S' cursor missed _ =>
    S' = S ∧ cursor = o ∧ missed = false ∧ (e.pre.schedules.find? S').any (·.isAt cursor)
  | _ => false

-- The entry tried to create a delivery for the occurrence `o` of the schedule `S`.
def attempts (S : ScheduleId) (o : Instant) (e : Entry Stmt.sig Store Call) : Bool :=
  match e.stmt with
  | .createDelivery S' _ o' _ _ => S' = S ∧ o' = o
  | _                           => false

-- The entry created a delivery for the occurrence `o` of the schedule `S`.
def creates (S : ScheduleId) (o : Instant) (e : Entry Stmt.sig Store Call) : Bool :=
  match e.stmt with
  | .createDelivery S' _ o' _ result => S' = S ∧ o' = o ∧ result.isOk
  | _                                => false

def inserts (e : Entry Stmt.sig Store Call) : Bool :=
  match e.stmt with
  | .insert .. => true
  | _          => false

def Claimed (w : History) (S : ScheduleId) (o : Instant) : Prop :=
  ∃ e ∈ w.log, claims S o e

-- The runs in which no schedule is resumed at or before an occurrence that has already been claimed.
def resumesAhead : Policy Stmt.sig Store Call where
  step s _ _ x := ∀ U S next, x = .resume U S next → ∀ o, Claimed s.world S o → o < next

-- A store before the first call, with any schedules.
def Store.Initial (P : Params) (db : Store) : Prop :=
  ∀ t, db.schedules.find? (P.uuid t) = none

structure Invariant (P : Params) (w : History) : Prop where
  -- Every occurrence that has been claimed lies before the cursor.
  cursor : ∀ S row cur, w.db.schedules.find? S = some row → row.nextRunAt = some cur →
    ∀ o, Claimed w S o → o < cur
  once   : ∀ S o, w.log.countP (claims S o) ≤ 1
  -- A thread tries to create no more deliveries for an occurrence than it has claims for it.
  paired : ∀ t S o, (w.own t).countP (attempts S o) ≤ (w.own t).countP (claims S o)
  -- The schedules that a thread may create do not exist before.
  fresh  : ∀ t, (∃ e ∈ w.own t, inserts e) ∨
    w.db.schedules.find? (P.uuid t) = none ∧ ∀ o, ¬Claimed w (P.uuid t) o

-- All that a thread has to know is in its own part of the history.
def Before (P : Params) (t : Nat) (own : List (Entry Stmt.sig Store Call)) : Stmt → Prop
  | .claim _ cursor _ advanceTo   => ∀ next, advanceTo = some next → cursor < next
  | .createDelivery S _ o _ _     => own.countP (attempts S o) < own.countP (claims S o)
  | .insert S _                   => S = P.uuid t ∧ ∀ e ∈ own, ¬inserts e
  | _                             => True

def outline (P : Params) : Outline Stmt.sig Store Call where
  inv            := Invariant P
  rely t w w'    := w'.own t = w.own t
  pre t _ x w    := Before P t (w.own t) x

section

variable {P : Params} {db : Store} {x : Stmt} {S : ScheduleId} {row : RecurringDelivery}
variable {cur o : Instant} {w : History} {t : Nat} {c : Call}

theorem find?_updateMany {S' : ScheduleId} {guard : RecurringDelivery → Bool}
    {f : RecurringDelivery → RecurringDelivery}
    (h : (db.updateMany S' guard f).snd.schedules.find? S = some row) :
    ∃ row', db.schedules.find? S = some row' ∧
      ((row = row' ∧ (S = S' → guard row' = false)) ∨ (S = S' ∧ guard row' ∧ row = f row')) := by
  simp only [Store.updateMany, Table.find?_cas] at h
  split at h
  case isFalse he => exact ⟨row, h, .inl ⟨rfl, fun he' => absurd he' he⟩⟩
  case isTrue he  =>
    subst he
    obtain ⟨row', hr, hf⟩ := Option.map_eq_some_iff.mp h
    refine ⟨row', hr, ?_⟩
    split at hf
    case isTrue hg  => exact .inr ⟨rfl, hg, hf.symm⟩
    case isFalse hg => exact .inl ⟨hf.symm, fun _ => Bool.not_eq_true _ |>.mp hg⟩

-- How a schedule comes to its cursor.
theorem cursor_cases (h : (Stmt.exec x db).snd.schedules.find? S = some row)
    (hc : row.nextRunAt = some cur) :
    (∃ row', db.schedules.find? S = some row' ∧ row'.nextRunAt = some cur ∧
      ∀ cursor missed advanceTo, x = .claim S cursor missed advanceTo → row'.isAt cursor = false) ∨
    (∃ cursor missed row', x = .claim S cursor missed (some cur) ∧
      db.schedules.find? S = some row' ∧ row'.isAt cursor) ∨
    (∃ U, x = .resume U S cur) ∨
    (∃ row', x = .insert S row' ∧ db.schedules.find? S = none) := by
  have keep (h : db.schedules.find? S = some row)
      (hx : ∀ cursor missed advanceTo, x ≠ .claim S cursor missed advanceTo) :
      ∃ row', db.schedules.find? S = some row' ∧ row'.nextRunAt = some cur ∧
        ∀ cursor missed advanceTo, x = .claim S cursor missed advanceTo →
          row'.isAt cursor = false :=
    ⟨row, h, hc, fun cursor missed advanceTo he => absurd he <| hx cursor missed advanceTo⟩
  cases x
  case dateNow        => exact .inl <| keep h nofun
  case passTime       => exact .inl <| keep h nofun
  case findDue        => exact .inl <| keep h nofun
  case createDelivery => exact .inl <| keep h nofun
  case find           => exact .inl <| keep h nofun
  case delete U S' =>
    simp only [Stmt.exec, Store.delete] at h
    split at h
    case isFalse => exact .inl <| keep h nofun
    case isTrue  => exact .inl <| keep (Table.find?_erase_eq_some h) nofun
  case insert S' row' =>
    simp only [Stmt.exec, Store.insert] at h
    split at h
    case h_1 => exact .inl <| keep h nofun
    case h_2 schedules hi =>
      rw [Table.find?_insert hi] at h
      split at h
      case isTrue he  =>
        subst he
        exact .inr <| .inr <| .inr ⟨row', rfl, Table.find?_of_insert hi⟩
      case isFalse he => exact .inl <| keep h nofun
  case claim S' cursor missed advanceTo =>
    obtain ⟨row', hr, ⟨rfl, hg⟩ | ⟨rfl, hg, rfl⟩⟩ := find?_updateMany h
    case inl =>
      refine .inl ⟨row, hr, hc, fun cursor' _ _ he => ?_⟩
      obtain ⟨rfl, rfl, _⟩ := Stmt.claim.inj he
      exact hg rfl
    case inr =>
      have hc : advanceTo = some cur := hc
      exact .inr <| .inl ⟨cursor, missed, row', hc ▸ rfl, hr, hg⟩
  case recordMaterialized S' now D =>
    obtain ⟨row', hr, ⟨rfl, _⟩ | ⟨_, _, rfl⟩⟩ := find?_updateMany h <;>
      exact .inl ⟨_, hr, hc, nofun⟩
  case pause U S' =>
    obtain ⟨row', hr, ⟨rfl, _⟩ | ⟨_, _, rfl⟩⟩ := find?_updateMany h <;>
      exact .inl ⟨_, hr, hc, nofun⟩
  case resume U S' next =>
    obtain ⟨row', hr, ⟨rfl, _⟩ | ⟨rfl, _, rfl⟩⟩ := find?_updateMany h
    case inl => exact .inl ⟨_, hr, hc, nofun⟩
    case inr => exact .inr <| .inr <| .inl ⟨U, by rw [← Option.some.inj hc]⟩

-- No statement other than an insertion makes a schedule appear.
theorem find?_exec_eq_none (h : db.schedules.find? S = none) (hx : ∀ row, x ≠ .insert S row) :
    (Stmt.exec x db).snd.schedules.find? S = none := by
  have absent {S' guard f} : (db.updateMany S' guard f).snd.schedules.find? S = none := by
    refine Option.eq_none_iff_forall_ne_some.mpr fun row hr => ?_
    obtain ⟨row', hr', _⟩ := find?_updateMany hr
    exact nomatch h.symm.trans hr'
  cases x
  case dateNow        => exact h
  case passTime       => exact h
  case findDue        => exact h
  case createDelivery => exact h
  case find           => exact h
  case insert S' row =>
    simp only [Stmt.exec, Store.insert]
    split
    case h_1    => exact h
    case h_2 hi =>
      refine (Table.find?_insert hi).trans <| (if_neg ?_).trans h
      rintro rfl
      exact hx row rfl
  case delete U S' =>
    simp only [Stmt.exec, Store.delete]
    split
    case isFalse => exact h
    case isTrue  =>
      refine Option.eq_none_iff_forall_ne_some.mpr fun row hr => ?_
      exact nomatch h.symm.trans <| Table.find?_erase_eq_some hr
  case claim              => exact absent
  case recordMaterialized => exact absent
  case pause              => exact absent
  case resume             => exact absent

theorem claims_iff : claims S o ⟨t, c, x, db⟩ ↔ ∃ advanceTo row, x = .claim S o false advanceTo ∧
    db.schedules.find? S = some row ∧ row.isAt o := by
  unfold claims
  constructor
  case mp =>
    intro h
    split at h
    case h_2 => contradiction
    case h_1 S' cursor missed advanceTo hx =>
      obtain ⟨rfl, rfl, rfl, hm⟩ := of_decide_eq_true h
      obtain ⟨row, hr, ha⟩ := (Option.any_eq_true _ _).mp hm
      exact ⟨advanceTo, row, hx, hr, ha⟩
  case mpr =>
    rintro ⟨advanceTo, row, rfl, hr, ha⟩
    simp [hr, ha]

theorem claimed_exec (h : Claimed (w.exec (system P) t c x) S o) :
    Claimed w S o ∨ claims S o ⟨t, c, x, w.db⟩ := by
  obtain ⟨e, he, hc⟩ := h
  obtain rfl | he := List.mem_cons.mp he
  case inl => exact .inr hc
  case inr => exact .inl ⟨e, he, hc⟩

theorem own_exec_cases (t' : Nat) : (w.exec (system P) t c x).own t' = w.own t' ∨
    t' = t ∧ (w.exec (system P) t c x).own t' = ⟨t, c, x, w.db⟩ :: w.own t' := by
  by_cases he : t' = t
  case pos => subst he; exact .inr ⟨rfl, World.own_exec⟩
  case neg => exact .inl <| World.own_exec_of_ne he

namespace Invariant

variable {s : Pool Stmt.sig Store Call}

-- The cursor only moves forward.
theorem exec_cursor (hi : Invariant P s.world)
    (st : StepOf (system P) resumesAhead (Store.Initial P) s t c x)
    (hp : Before P t (s.world.own t) x)
    (h : (Stmt.exec x s.db).snd.schedules.find? S = some row) (hc : row.nextRunAt = some cur)
    (ho : Claimed (s.world.exec (system P) t c x) S o) : o < cur := by
  obtain ⟨row', hr, hc', hx⟩ | ⟨cursor, missed, row', rfl, hr, ha⟩ | ⟨U, rfl⟩ | ⟨row', rfl, _⟩ :=
    cursor_cases h hc
  case inl =>
    cases claimed_exec ho
    case inl ho => exact hi.cursor S row' cur hr hc' o ho
    case inr ho =>
      obtain ⟨advanceTo, row₀, rfl, hr₀, ha₀⟩ := claims_iff.mp ho
      obtain rfl := Option.some.inj <| hr.symm.trans hr₀
      exact absurd (hx _ _ _ rfl) (by simp [ha₀])
  case inr.inl =>
    have hlt : cursor < cur := hp cur rfl
    cases claimed_exec ho
    case inl ho => exact (hi.cursor S row' cursor hr (of_decide_eq_true ha).right o ho).trans hlt
    case inr ho =>
      obtain ⟨advanceTo, row₀, he, _⟩ := claims_iff.mp ho
      obtain ⟨_, rfl, _⟩ := Stmt.claim.inj he
      exact hlt
  case inr.inr.inl =>
    cases claimed_exec ho
    case inl ho => exact st.allowed U S cur rfl o ho
    case inr ho => obtain ⟨_, _, he, _⟩ := claims_iff.mp ho; exact nomatch he
  case inr.inr.inr =>
    obtain ⟨rfl, hn⟩ := hp
    cases claimed_exec ho
    case inr ho => obtain ⟨_, _, he, _⟩ := claims_iff.mp ho; exact nomatch he
    case inl ho =>
      obtain ⟨e, he, hins⟩ | ⟨_, hf⟩ := hi.fresh t
      case inl => exact absurd hins <| hn e he
      case inr => exact absurd ho <| hf o

-- An occurrence that is claimed lies at the cursor, so it has not been claimed before.
theorem exec_once (hi : Invariant P w) :
    (w.exec (system P) t c x).log.countP (claims S o) ≤ 1 := by
  rw [World.exec_log, List.countP_cons]
  split
  case isFalse => simpa using hi.once S o
  case isTrue hc =>
    obtain ⟨advanceTo, row, _, hr, ha⟩ := claims_iff.mp hc
    have hz : w.log.countP (claims S o) = 0 := by
      refine List.countP_eq_zero.mpr fun e he hc' => ?_
      exact lt_irrefl o <| hi.cursor S row o hr (of_decide_eq_true ha).right o ⟨e, he, hc'⟩
    simp [hz]

theorem exec_paired (hi : Invariant P w) (hp : Before P t (w.own t) x) (t' : Nat) :
    ((w.exec (system P) t c x).own t').countP (attempts S o) ≤
      ((w.exec (system P) t c x).own t').countP (claims S o) := by
  obtain he | ⟨rfl, he⟩ := own_exec_cases (P := P) (w := w) (t := t) (c := c) (x := x) t' <;> rw [he]
  case inl => exact hi.paired t' S o
  case inr =>
    simp only [List.countP_cons]
    by_cases ha : attempts S o ⟨t', c, x, w.db⟩
    case neg => simpa [ha] using (hi.paired t' S o).trans (Nat.le_add_right ..)
    case pos =>
      have hlt : (w.own t').countP (attempts S o) < (w.own t').countP (claims S o) := by
        unfold attempts at ha
        split at ha
        case h_2 => contradiction
        case h_1 hx =>
          obtain ⟨rfl, rfl⟩ := of_decide_eq_true ha
          simp only at hx
          subst hx
          exact hp
      simp only [ha, if_true]
      exact (Nat.succ_le_of_lt hlt).trans (Nat.le_add_right ..)

theorem exec_fresh (hi : Invariant P w) (hp : Before P t (w.own t) x) (t' : Nat) :
    (∃ e ∈ (w.exec (system P) t c x).own t', inserts e) ∨
      (w.exec (system P) t c x).db.schedules.find? (P.uuid t') = none ∧
        ∀ o, ¬Claimed (w.exec (system P) t c x) (P.uuid t') o := by
  by_cases hx : ∃ row, x = .insert (P.uuid t') row
  case pos =>
    obtain ⟨row, rfl⟩ := hx
    obtain rfl := P.uuid_injective hp.left
    exact .inl ⟨_, World.own_exec ▸ List.mem_cons_self, rfl⟩
  case neg =>
    obtain ⟨e, he, hins⟩ | ⟨hn, hf⟩ := hi.fresh t'
    case inl =>
      refine .inl ⟨e, ?_, hins⟩
      obtain he' | ⟨_, he'⟩ := own_exec_cases (P := P) (w := w) (t := t) (c := c) (x := x) t'
      case inl => exact he' ▸ he
      case inr => exact he' ▸ List.mem_cons_of_mem _ he
    case inr =>
      refine .inr ⟨find?_exec_eq_none hn fun row he => hx ⟨row, he⟩, fun o ho => ?_⟩
      cases claimed_exec ho
      case inl ho => exact hf o ho
      case inr ho =>
        obtain ⟨_, _, _, hr, _⟩ := claims_iff.mp ho
        exact nomatch hn.symm.trans hr

theorem exec (hi : Invariant P s.world)
    (st : StepOf (system P) resumesAhead (Store.Initial P) s t c x)
    (hp : Before P t (s.world.own t) x) : Invariant P (s.world.exec (system P) t c x) where
  cursor _ _ _ hr hc _ ho := hi.exec_cursor st hp hr hc ho
  once _ _                := hi.exec_once
  paired t' _ _           := hi.exec_paired hp t'
  fresh t'                := hi.exec_fresh hp t'

end Invariant

section

variable {tz : TimeZone} {schedule : RecurringDelivery} {now horizon : Instant}
variable {creations : Creations}

theorem ok_createInstance
    (h : (w.own t).countP (attempts S o) < (w.own t).countP (claims S o)) :
    (outline P).Ok (system P) t c
      (RecurringMaterializer.createInstance tz S schedule o now creations) w :=
  .safe <| .bind (.tx h) fun _ _ => .tx trivial

-- The claim of an occurrence, which the thread may now create a delivery for.
theorem attempts_lt_claims {advanceTo : Option Instant} (hi : Invariant P w)
    (hc : ((system P).exec (.claim S o false advanceTo) w.db).fst ≠ 0) :
    ((w.exec (system P) t c (.claim S o false advanceTo)).own t).countP (attempts S o) <
      ((w.exec (system P) t c (.claim S o false advanceTo)).own t).countP (claims S o) := by
  have hc : claims S o ⟨t, c, .claim S o false advanceTo, w.db⟩ := by
    have hm : ∃ row, w.db.schedules.find? S = some row ∧ row.isAt o := by
      by_contra hn
      refine hc <| Table.cas_count_eq_zero_iff.mpr fun row hr ha => hn ⟨row, hr, ha⟩
    obtain ⟨row, hr, ha⟩ := hm
    exact claims_iff.mpr ⟨advanceTo, row, rfl, hr, ha⟩
  have ha : attempts S o ⟨t, c, .claim S o false advanceTo, w.db⟩ = false := rfl
  simp only [World.own_exec, List.countP_cons, hc, ha, if_true]
  exact Nat.lt_succ_of_le <| hi.paired t S o

-- A claim moves the cursor forward, also if its occurrence has been missed.
theorem lt_advanceTo {cursor next : Instant} (h : computeNextOccurrence schedule.toRecurrenceRule
    (if decide (cursor < now - missedGraceMs) then now else cursor) tz = some next) :
    cursor < next := by
  have hlt := lt_of_computeNextOccurrence h
  by_cases hm : cursor < now - missedGraceMs
  case neg => simpa [hm] using hlt
  case pos =>
    simp only [hm, decide_true, if_true] at hlt
    calc
      cursor < now - missedGraceMs := hm
      _      ≤ now                 := Int.sub_le_self _ (by decide)
      _      < next                := hlt

theorem ok_advance (n : Nat) (cursor : Option Instant) :
    (outline P).Ok (system P) t c
      (RecurringMaterializer.advance tz S schedule now horizon creations n cursor) w := by
  induction n generalizing cursor w
  case zero => exact .pure
  case succ n ih =>
    cases cursor
    case none => exact .pure
    case some cursor =>
      refine .ite .pure ?_
      dsimp only
      have hadv := fun next => @lt_advanceTo tz schedule now cursor next
      generalize (decide (cursor < now - missedGraceMs)) = missed at hadv ⊢
      generalize computeNextOccurrence schedule.toRecurrenceRule (if missed then now else cursor) tz
        = advanceTo at hadv ⊢
      refine .stmt_bind hadv fun w' _ hi _ => ?_
      split
      case isTrue     => exact .pure
      case isFalse hc =>
        cases missed
        case true  => exact ih _
        case false => exact .bind (ok_createInstance <| attempts_lt_claims hi hc) fun _ _ => ih _

theorem ok_materializeAll (due : List (ScheduleId × RecurringDelivery)) :
    (outline P).Ok (system P) t c
      (RecurringMaterializer.materializeAll tz now horizon creations due) w := by
  induction due generalizing w
  case nil     => exact .pure
  case cons ih => exact .bind (.safe <| ok_advance ..) fun _ _ => ih

end

-- A new schedule is inserted only once, at the very end.
theorem ok_create {tz : TimeZone} {U : UserId} {dto : CreateRecurringDeliveryDto}
    (hw : ∀ e ∈ w.own t, ¬inserts e) :
    (outline P).Ok (system P) t c
      (RecurringDeliveriesService.create tz (P.uuid t) U dto) w := by
  have now {w w' : History} (hr : (outline P).rely t w w') (hw : ∀ e ∈ w.own t, ¬inserts e) :
      ∀ e ∈ (w'.exec (system P) t c .dateNow).own t, ¬inserts e := by
    have hr : w'.own t = w.own t := hr
    rw [World.own_exec, hr]
    exact List.forall_mem_cons.mpr ⟨nofun, hw⟩
  have start : (outline P).wpm (system P) t c (RecurringDeliveriesService.startDate dto)
      (fun _ w => ∀ e ∈ w.own t, ¬inserts e) (fun _ _ => True) w := by
    unfold RecurringDeliveriesService.startDate
    split
    case h_1 => exact hw
    case h_2 =>
      rw [Outline.wpm_bind]
      exact Outline.wpm_stmt.mpr ⟨trivial, fun w' hr _ _ => now hr hw⟩
  refine .check_bind fun _ _ => .wpm_bind start fun startDate w hw => ?_
  refine .check_bind fun rule _ => .stmt_bind trivial fun w' hr _ _ => ?_
  split
  case h_1 => exact .throw
  case h_2 => exact .tx ⟨rfl, now hr hw⟩

theorem ok_findOne {U : UserId} :
    (outline P).Ok (system P) t c (RecurringDeliveriesService.findOne U S) w := by
  refine .stmt_bind trivial fun w' _ _ _ => ?_
  split
  case h_1 => exact .throw
  case h_2 => exact .pure

theorem ok_resume {tz : TimeZone} {U : UserId} :
    (outline P).Ok (system P) t c (RecurringDeliveriesService.resume tz U S) w := by
  refine .bind ok_findOne fun row w => .stmt_bind trivial fun w' _ _ _ => ?_
  split
  case h_1 => exact .throw
  case h_2 => exact .bind (.tx trivial) fun _ _ => .bind ok_findOne fun _ _ => .pure

theorem ok_pause {U : UserId} :
    (outline P).Ok (system P) t c (RecurringDeliveriesService.pause U S) w := by
  refine .stmt_bind trivial fun w' _ _ _ => ?_
  split
  case isTrue  => exact .throw
  case isFalse => exact .bind ok_findOne fun _ _ => .pure

theorem ok_remove {U : UserId} :
    (outline P).Ok (system P) t c (RecurringDeliveriesService.remove U S) w :=
  .stmt_bind trivial fun _ _ _ _ => .ite .throw .pure

theorem ok_prog (hw : ∀ e ∈ w.log, e.tid ≠ t) :
    (outline P).wp (system P) t c ((system P).prog t c) (fun _ _ => True) w := by
  cases c
  case scanAndMaterialize =>
    refine (Outline.Ok.stmt_bind trivial fun _ _ _ _ => ?_).toCall
    exact .stmt_bind trivial fun _ _ _ _ => ok_materializeAll _
  case create   =>
    refine (ok_create ?_).toCall
    simp [World.own_eq_nil hw]
  case pause    => exact ok_pause.toCall
  case resume   => exact ok_resume.toCall
  case remove   => exact ok_remove.toCall
  case passTime => exact (Outline.Ok.tx trivial).toCall

end

theorem outline_valid {P : Params} :
    (outline P).Valid (system P) resumesAhead (Store.Initial P) where
  rely_refl _ _       := rfl
  rely_trans h h'     := h'.trans h
  post_stable _ _     := trivial
  inv_init h          := ⟨by simp [Claimed], by simp, by simp [World.own], fun t => .inr ⟨h t, by simp [Claimed]⟩⟩
  spawn _ _ hw        := ok_prog hw
  inv_step st hi hp   := hi.exec st hp
  rely_step _ _ _ hne := World.own_exec_of_ne hne
  pre_step _ _ _ hne _ h := by
    simp only [outline, World.own_exec_of_ne hne]
    exact h

-- The claim of an occurrence belongs to a single thread, and so do the attempts.
theorem Invariant.attempts_le_one {P : Params} {w : History} (hi : Invariant P w) (S : ScheduleId)
    (o : Instant) : w.log.countP (attempts S o) ≤ 1 := by
  have claims_pos {e} (he : e ∈ w.log) (ha : attempts S o e) :
      0 < (w.own e.tid).countP (claims S o) :=
    (List.countP_pos_iff.mpr ⟨e, List.mem_filter.mpr ⟨he, by simp⟩, ha⟩).trans_le <|
      hi.paired e.tid S o
  by_cases ha : ∃ e ∈ w.log, attempts S o e
  case neg =>
    have hz : w.log.countP (attempts S o) = 0 :=
      List.countP_eq_zero.mpr fun e he h => ha ⟨e, he, h⟩
    exact hz ▸ Nat.zero_le 1
  case pos =>
    obtain ⟨e, he, ha⟩ := ha
    have split := List.countP_eq_countP_filter_add w.log (q := (·.tid = e.tid))
    have hpos := claims_pos he ha
    have hone := split (claims S o) ▸ hi.once S o
    -- No other thread has claimed the occurrence, so no other thread has tried to create a delivery.
    have hz : (w.log.filter fun e' => !decide (e'.tid = e.tid)).countP (attempts S o) = 0 := by
      refine List.countP_eq_zero.mpr fun e' he' ha' => ?_
      obtain ⟨he', hne⟩ := List.mem_filter.mp he'
      obtain ⟨e₂, he₂, hc₂⟩ := List.countP_pos_iff.mp <| claims_pos he' ha'
      obtain ⟨he₂, ht₂⟩ := List.mem_filter.mp he₂
      have hother : 0 < (w.log.filter fun e' => !decide (e'.tid = e.tid)).countP (claims S o) := by
        refine List.countP_pos_iff.mpr ⟨e₂, List.mem_filter.mpr ⟨he₂, ?_⟩, hc₂⟩
        rwa [of_decide_eq_true ht₂]
      unfold World.own at hpos
      omega
    have hle := hi.paired e.tid S o
    rw [split (attempts S o), hz]
    unfold World.own at hle
    omega

theorem attempts_of_creates {S : ScheduleId} {o : Instant} {e : Entry Stmt.sig Store Call}
    (h : creates S o e) : attempts S o e := by
  unfold creates at h
  unfold attempts
  split at h
  case h_2 => contradiction
  case h_1 hx =>
    obtain ⟨rfl, rfl, _⟩ := of_decide_eq_true h
    simp

-- For every occurrence of a schedule at most one delivery is created.
theorem occurrence_once {P : Params} {s : Pool Stmt.sig Store Call}
    (h : Reachable (system P) resumesAhead (Store.Initial P) s) (S : ScheduleId) (o : Instant) :
    s.log.countP (creates S o) ≤ 1 :=
  (List.countP_mono_left fun _ _ h => attempts_of_creates h).trans <|
    (outline_valid.reachable h).inv.attempts_le_one S o

-- A schedule with one delivery a day, at six o'clock, and the first one of these instants.
def RecurringDelivery.small : RecurringDelivery where
  freq               := .daily
  daysOfWeek         := []
  timeOfDay          := "06:00"
  startDate          := 0
  endDate            := none
  fromAddress        := "Jl. Sudirman 1"
  toAddress          := "Jl. Thamrin 2"
  receiver           := "Sari"
  packages           := "1"
  packageSize        := "Small"
  packageWeight      := 0
  packageTypes       := ["Documents"]
  userId             := 1
  active             := true
  nextRunAt          := some 21600000
  lastMaterializedAt := none
  lastDeliveryId     := none

def Store.small : Store where
  clock     := 0
  schedules := ⟨[(1, .small)], by decide⟩

def Params.small : Params where
  tz             := .fixed 0
  uuid t         := t + 2
  uuid_injective := fun _ _ h => Nat.add_right_cancel h

theorem Store.small_initial : Store.small.Initial .small := by
  intro t
  refine Table.find?_eq_none_iff.mpr ?_
  simp [Store.small, Params.small]

-- The runs in which every schedule is resumed after all of its claims, be it of missed occurrences.
def resumesLater : Policy Stmt.sig Store Call where
  step s _ _ x := match x with
    | .resume _ S next => ∀ e ∈ s.log, claimsBefore S next e
    | _                => True
where
  claimsBefore (S : ScheduleId) (next : Instant) (e : Entry Stmt.sig Store Call) : Bool :=
    match e.stmt with
    | .claim S' cursor _ _ => S' = S → cursor < next
    | _                    => true

instance {s : Pool Stmt.sig Store Call} {t : Nat} {c : Call} {x : Stmt} :
    Decidable (resumesLater.step s t c x) := by
  unfold resumesLater; dsimp only; split <;> infer_instance

instance : DecidablePred resumesLater.spawn :=
  fun _ => .isTrue trivial

instance : Decidable resumesLater.crash :=
  .isTrue trivial

theorem resumesAhead_of_later {s : Pool Stmt.sig Store Call} {t : Nat} {c : Call} {x : Stmt}
    (h : resumesLater.step s t c x) : resumesAhead.step s t c x := by
  rintro U S next rfl o ⟨e, he, hc⟩
  obtain ⟨_, _, hx, _⟩ := claims_iff.mp hc
  have hb : resumesLater.claimsBefore S next e := h e he
  simp only [resumesLater.claimsBefore, hx] at hb
  exact of_decide_eq_true hb trivial

-- Every delivery is created under the same number.
def creations : Creations :=
  fun _ _ => .ok 1

-- The schedule is scanned, and resumed only when its first occurrence has passed.
def resumedLaterRun : List (Cmd Call) :=
  List.flatten [
    Cmd.run 1 (.scanAndMaterialize creations) 5, Cmd.run 2 (.passTime 25200000) 1,
    Cmd.run 3 (.resume 1 1) 4, Cmd.run 4 (.scanAndMaterialize creations) 5]

theorem occurrence_once_resumed :
    ∃ s, Reachable (system .small) resumesAhead (Store.Initial .small) s ∧
      s.log.countP (creates 1 21600000) = 1 := by
  let s := (Pool.init .small).runCmds (system .small) resumedLaterRun
  have h : Reachable (system .small) resumesAhead (Store.Initial .small) s := by
    have h : Reachable (system .small) resumesLater (Store.Initial .small) s :=
      (Reachable.init Store.small_initial).runCmds (by decide +kernel)
    exact h.mono (fun _ _ => trivial) (fun _ _ _ _ h => resumesAhead_of_later h) id
  have hpos : 0 < s.log.countP (creates 1 21600000) := by decide +kernel
  exact ⟨s, h, le_antisymm (occurrence_once h 1 21600000) hpos⟩

-- The schedule is resumed right after its first occurrence has been claimed. The cursor moves back to
-- that occurrence, and the next scan claims it once more.
def resumedEarlyRun : List (Cmd Call) :=
  List.flatten [
    Cmd.run 1 (.scanAndMaterialize creations) 5, Cmd.run 2 (.pause 1 1) 2,
    Cmd.run 3 (.resume 1 1) 4, Cmd.run 4 (.scanAndMaterialize creations) 5]

theorem occurrence_once_missed :
    ¬∀ (P : Params) (s : Pool Stmt.sig Store Call),
      Reachable (system P) { crash := False } (Store.Initial P) s → ∀ S o,
        s.log.countP (creates S o) ≤ 1 := by
  intro h
  let s := (Pool.init .small).runCmds (system .small) resumedEarlyRun
  have hs : Reachable (system .small) { crash := False } (Store.Initial .small) s :=
    Reachable.runCmds_of_calls resumedEarlyRun (.init Store.small_initial)
      (by simp [resumedEarlyRun, Cmd.run, Cmd.Calls])
  have htwo : s.log.countP (creates 1 21600000) = 2 := by decide +kernel
  exact absurd (htwo ▸ h .small s hs 1 21600000) (by decide)

end Drovery.Recurring
