import Drovery.Concurrency.Sequential
import Drovery.Services.Recurring
import Drovery.Objects.Theorems.Recurrence

namespace Drovery.Recurring

open Concurrency Method Calendar RecurringMaterializer

-- The occurrences that a scan at the time `now` has not yet reached.
def later (rule : RecurrenceRule) (z : FixedOffset) (cursor now : Instant) : Set Instant :=
  { o ∈ rule.schedule z | cursor ≤ o ∧ now + lookaheadMs < o }

-- The deliveries have been created for exactly the due occurrences from the cursor on, and the
-- cursor has been left at the first of the later ones.
structure Exact (rule : RecurrenceRule) (z : FixedOffset) (cursor now : Instant)
    (os : List Instant) (next : Option Instant) : Prop where
  sorted : os.Pairwise (· < ·)
  due    : ∀ o, o ∈ os ↔
    o ∈ rule.schedule z ∧ cursor ≤ o ∧ now - missedGraceMs ≤ o ∧ o ≤ now + lookaheadMs
  some   : ∀ t, next = some t ↔ IsLeast (later rule z cursor now) t
  none   : next = none ↔ later rule z cursor now = ∅

-- The schedule is active, and its cursor is `next`.
def Store.At (db : Store) (S : ScheduleId) (next : Option Instant) : Prop :=
  ∃ row, db.schedules.find? S = some row ∧ row.active ∧ row.nextRunAt = next

def isCreate : Stmt → Bool
  | .createDelivery .. => true
  | _                  => false

-- The order of a delivery for an occurrence of a schedule.
def createStmt (tz : TimeZone) (S : ScheduleId) (schedule : RecurringDelivery)
    (creations : Creations) (o : Instant) : Stmt :=
  .createDelivery S schedule.userId o (toCreateDto schedule o tz) (creations S o)

-- A method orders deliveries for exactly the occurrences `os`, and leaves the schedule `S` with the
-- cursor `next`.
structure Yields (p : App Unit) (db : Store) (tz : TimeZone) (S : ScheduleId)
    (schedule : RecurringDelivery) (creations : Creations) (os : List Instant)
    (next : Option Instant) : Prop where
  creates : (trace Stmt.exec p db).filter isCreate = os.map (createStmt tz S schedule creations)
  cursor  : (eval Stmt.exec p db).snd.At S next

section

variable {rule : RecurrenceRule} {z : FixedOffset} {cursor now o o' t : Instant}
variable {os : List Instant} {next : Option Instant} {db : Store} {S : ScheduleId} {n : Nat}
variable {schedule : RecurringDelivery} {creations : Creations} {tz : TimeZone} {horizon : Instant}

-- Two occurrences are at least a day apart.
theorem schedule_gap (ho : o ∈ rule.schedule z) (ho' : o' ∈ rule.schedule z) (h : o < o') :
    o + msPerDay ≤ o' := by
  have ⟨hh, mm, day, hp, he, _⟩      := ho
  have ⟨hh', mm', day', hp', he', _⟩ := ho'
  have ⟨h₁, h₂⟩ := Prod.mk.inj <| Option.some.inj <| hp.symm.trans hp'
  subst h₁ h₂ he he'
  rw [← FixedOffset.instant_add_one, FixedOffset.instant_le_iff]
  exact lt_of_not_ge fun hle => h.not_ge <| FixedOffset.instant_le_iff.mpr hle

-- The claim succeeds if the schedule is still at the cursor.
theorem exec_claim {missed : Bool} (h : db.At S (some cursor)) :
    (Stmt.exec (.claim S cursor missed next) db).fst = 1 ∧
      (Stmt.exec (.claim S cursor missed next) db).snd.At S next := by
  have ⟨row, hr, ha, hn⟩ := h
  have guard : row.isAt cursor := by simp [RecurringDelivery.isAt, ha, hn]
  refine ⟨?_, { row with nextRunAt := next }, ?_, ha, rfl⟩
  · simp [Stmt.exec, Store.updateMany, Table.cas_of_guard hr guard]
  · simp [Stmt.exec, Store.updateMany, Table.find?_cas, hr, guard]

theorem trace_createInstance :
    trace Stmt.exec (createInstance tz S schedule o now creations) db =
      createStmt tz S schedule creations o :: match creations S o with
        | .ok D    => [.recordMaterialized S now D]
        | .error _ => [] := by
  rw [createInstance, trace_safe, trace_bind, createStmt]
  cases creations S o <;> rfl

theorem eval_createInstance :
    (eval Stmt.exec (createInstance tz S schedule o now creations) db).snd =
      match creations S o with
        | .ok D    => (Stmt.exec (.recordMaterialized S now D) db).snd
        | .error _ => db := by
  rw [createInstance, eval_safe, eval_bind]
  cases creations S o <;> rfl

-- Whether or not the creation succeeds, it is tried once, and the cursor stays where it is.
theorem createInstance_yields (h : db.At S next) :
    Yields (createInstance tz S schedule o now creations) db tz S schedule creations [o] next where
  creates := by
    rw [trace_createInstance]
    cases creations S o <;> rfl
  cursor := by
    rw [eval_createInstance]
    have ⟨row, hr, ha, hn⟩ := h
    cases creations S o
    case error => exact h
    case ok D  =>
      refine ⟨{ row with lastMaterializedAt := some now, lastDeliveryId := some D }, ?_, ha, hn⟩
      simp [Stmt.exec, Store.updateMany, Table.find?_cas, hr]

-- What a method has ordered is determined by its statements.
theorem Yields.unique {p : App Unit} {os' : List Instant} {next' : Option Instant}
    (h : Yields p db tz S schedule creations os next)
    (h' : Yields p db tz S schedule creations os' next') : os = os' := by
  have inj : Function.Injective (createStmt tz S schedule creations) := fun o o' he => by
    simp only [createStmt, Stmt.createDelivery.injEq] at he
    exact he.right.right.left
  exact List.map_injective_iff.mpr inj <| h.creates.symm.trans h'.creates

theorem yields_nil (h : db.At S next) :
    Yields (pure ()) db tz S schedule creations [] next where
  creates := rfl
  cursor  := h

-- What follows a claim.
def afterClaim (tz : TimeZone) (S : ScheduleId) (schedule : RecurringDelivery)
    (now horizon : Instant) (creations : Creations) (n : Nat) (cursor : Instant) (missed : Bool)
    (advanceTo : Option Instant) (count : Nat) : App Unit :=
  if count = 0 then
    pure ()
  else if missed then
    advance tz S schedule now horizon creations n advanceTo
  else do
    createInstance tz S schedule cursor now creations
    advance tz S schedule now horizon creations n advanceTo

theorem advance_eq (hh : cursor ≤ horizon) {missed : Bool}
    (hm : decide (cursor < now - missedGraceMs) = missed) :
    advance tz S schedule now horizon creations (n + 1) (some cursor) =
      App.stmt (.claim S cursor missed <|
        computeNextOccurrence schedule.toRecurrenceRule (if missed then now else cursor) tz) >>=
      afterClaim tz S schedule now horizon creations n cursor missed
        (computeNextOccurrence schedule.toRecurrenceRule (if missed then now else cursor) tz) := by
  rw [advance, if_neg <| not_lt.mpr hh]
  exact hm ▸ rfl

-- The claim succeeds, since no one else moves the cursor.
theorem advance_yields {missed : Bool} (h : db.At S (some cursor)) (hh : cursor ≤ horizon)
    (hm : decide (cursor < now - missedGraceMs) = missed)
    (rest : ∀ db, db.At S
        (computeNextOccurrence schedule.toRecurrenceRule (if missed then now else cursor) tz) →
      Yields (afterClaim tz S schedule now horizon creations n cursor missed
        (computeNextOccurrence schedule.toRecurrenceRule (if missed then now else cursor) tz) 1) db
        tz S schedule creations os next) :
    Yields (advance tz S schedule now horizon creations (n + 1) (some cursor)) db tz S schedule
      creations os next := by
  have ⟨hc, hat⟩ := @exec_claim cursor
    (computeNextOccurrence schedule.toRecurrenceRule (if missed then now else cursor) tz) db S
    missed h
  rw [advance_eq hh hm]
  constructor
  case creates =>
    rw [trace_stmt_bind, hc]
    exact (rest _ hat).creates
  case cursor =>
    rw [eval_stmt_bind, hc]
    exact (rest _ hat).cursor

theorem createInstance_bind_yields {p : App Unit} (h : db.At S next)
    (rest : ∀ db, db.At S next → Yields p db tz S schedule creations os next) :
    Yields (createInstance tz S schedule o now creations >>= fun _ => p) db tz S schedule creations
      (o :: os) next := by
  have create := @createInstance_yields now o next db S schedule creations tz h
  have rest := rest _ create.cursor
  have run : eval Stmt.exec (createInstance tz S schedule o now creations) db =
      (.ok (), (eval Stmt.exec (createInstance tz S schedule o now creations) db).snd) :=
    eval_safe.trans <| by rw [createInstance, eval_safe]
  constructor
  case creates =>
    rw [trace_bind, run, List.filter_append, create.creates, rest.creates]
    rfl
  case cursor =>
    rw [eval_bind_of_ok run]
    exact rest.cursor

theorem advance_stop (h : ∀ c ∈ next, horizon < c) :
    advance tz S schedule now horizon creations n next = pure () := by
  cases n
  case zero   => rfl
  case succ n =>
    cases next
    case none   => rfl
    case some c => exact if_pos <| h c rfl

theorem exact_beyond (hc : cursor ∈ rule.schedule z) (hh : now + lookaheadMs < cursor) :
    Exact rule z cursor now [] (some cursor) where
  sorted := .nil
  due o  := ⟨nofun, fun ⟨_, h₁, _, h₂⟩ => absurd (hh.trans_le h₁) (not_lt.mpr h₂)⟩
  some t := by
    have least : IsLeast (later rule z cursor now) cursor :=
      ⟨⟨hc, le_rfl, hh⟩, fun _ h => h.right.left⟩
    exact ⟨fun h => Option.some.inj h ▸ least, fun h => congrArg some <| least.unique h⟩
  none   := ⟨nofun, fun h => absurd (h ▸ ⟨hc, le_rfl, hh⟩ : cursor ∈ (∅ : Set Instant)) id⟩

-- The next occurrence comes more than the length of a look-ahead later.
theorem later_of_due (hc : cursor ∈ rule.schedule z) (hm : now - missedGraceMs ≤ cursor)
    (hh : cursor ≤ now + lookaheadMs) :
    later rule z cursor now = rule.schedule z ∩ Set.Ioi cursor := by
  ext o
  constructor
  case mp => exact fun ⟨ho, _, h⟩ => ⟨ho, hh.trans_lt h⟩
  case mpr =>
    intro ⟨ho, h⟩
    refine ⟨ho, le_of_lt h, ?_⟩
    have := schedule_gap hc ho h
    simp only [lookaheadMs, missedGraceMs, scanIntervalMs, msPerDay, Instant] at *
    omega

theorem exact_due (hd : rule.Dated z) (hy : 1000 ≤ yearFromDay (z.localDay cursor))
    (hc : cursor ∈ rule.schedule z) (hm : now - missedGraceMs ≤ cursor)
    (hh : cursor ≤ now + lookaheadMs) :
    Exact rule z cursor now [cursor] (computeNextOccurrence rule cursor z.zone) where
  sorted := List.pairwise_singleton ..
  due o  := by
    rw [List.mem_singleton]
    constructor
    case mp =>
      intro h
      subst h
      exact ⟨hc, le_rfl, hm, hh⟩
    case mpr =>
      intro ⟨ho, hle, _, hl⟩
      by_contra hne
      have : o ∈ later rule z cursor now :=
        later_of_due hc hm hh ▸ ⟨ho, lt_of_le_of_ne hle <| Ne.symm hne⟩
      exact absurd this.right.right <| not_lt.mpr hl
  some   := later_of_due hc hm hh ▸ (computeNextOccurrence_isLeast hd hy).left
  none   := later_of_due hc hm hh ▸ (computeNextOccurrence_isLeast hd hy).right

-- A schedule whose cursor has not been missed.
theorem yields_of_not_missed (hd : schedule.Dated z) (hy : 1000 ≤ yearFromDay (z.localDay cursor))
    (hc : cursor ∈ schedule.schedule z) (hm : now - missedGraceMs ≤ cursor) :
    ∃ os next, Exact schedule.toRecurrenceRule z cursor now os next ∧
      ∀ db : Store, db.At S (some cursor) →
        Yields (advance z.zone S schedule now (now + lookaheadMs) creations (n + 1)
          (some cursor)) db z.zone S schedule creations os next := by
  by_cases hh : cursor ≤ now + lookaheadMs
  case neg =>
    have hh := not_le.mp hh
    refine ⟨[], some cursor, exact_beyond hc hh, fun db h => ?_⟩
    rw [advance_stop <| by simpa using hh]
    exact yields_nil h
  case pos =>
    refine ⟨[cursor], computeNextOccurrence schedule.toRecurrenceRule cursor z.zone,
      exact_due hd hy hc hm hh, fun db h => ?_⟩
    have beyond : ∀ c ∈ computeNextOccurrence schedule.toRecurrenceRule cursor z.zone,
        now + lookaheadMs < c := by
      intro c hn
      have := (computeNextOccurrence_isLeast hd hy).left c |>.mp hn
      rw [← later_of_due hc hm hh] at this
      exact this.left.right.right
    refine advance_yields h hh (decide_eq_false <| not_lt.mpr hm) fun db hat => ?_
    refine createInstance_bind_yields hat fun db hat => ?_
    rw [if_neg Bool.false_ne_true, advance_stop beyond]
    exact yields_nil hat

-- The occurrence is late, but still within the tolerance.
def BarelyLate (rule : RecurrenceRule) (z : FixedOffset) (now o : Instant) : Prop :=
  o ∈ rule.schedule z ∧ now - missedGraceMs ≤ o ∧ o ≤ now

theorem exact_jump_none (hn : rule.schedule z ∩ Set.Ioi now = ∅)
    (hb : ∀ o, ¬BarelyLate rule z now o) : Exact rule z cursor now [] none := by
  have void {o : Instant} (ho : o ∈ rule.schedule z) (hg : now - missedGraceMs ≤ o) : False := by
    by_cases hl : now < o
    case pos => exact Set.notMem_empty o <| hn ▸ ⟨ho, hl⟩
    case neg => exact hb o ⟨ho, hg, not_lt.mp hl⟩
  have empty : later rule z cursor now = ∅ := by
    refine Set.eq_empty_of_forall_notMem fun o ⟨ho, _, h⟩ => void ho ?_
    simp only [lookaheadMs, missedGraceMs, scanIntervalMs, Instant] at *
    omega
  refine ⟨.nil, fun o => ⟨nofun, fun ⟨ho, _, hg, _⟩ => (void ho hg).elim⟩, fun t => ?_, ?_⟩
  · exact ⟨nofun, fun h => absurd h.left <| empty ▸ Set.notMem_empty t⟩
  · exact iff_of_true rfl empty

-- A missed cursor is moved to the first occurrence after the time of the scan.
theorem exact_jump (hm : cursor < now - missedGraceMs)
    (hn : IsLeast (rule.schedule z ∩ Set.Ioi now) o) (hb : ∀ o, ¬BarelyLate rule z now o)
    (h : Exact rule z o now os next) : Exact rule z cursor now os next := by
  have after {o' : Instant} (ho : o' ∈ rule.schedule z) (hg : now - missedGraceMs ≤ o') :
      cursor ≤ o' ↔ o ≤ o' := by
    have hl : now < o' := by
      by_contra hle
      exact hb o' ⟨ho, hg, not_lt.mp hle⟩
    exact iff_of_true (hm.le.trans hg) <| hn.right ⟨ho, hl⟩
  have same : later rule z cursor now = later rule z o now := by
    ext o'
    refine and_congr_right fun ho => and_congr_left fun hl => after ho ?_
    simp only [lookaheadMs, missedGraceMs, scanIntervalMs, Instant] at *
    omega
  refine ⟨h.sorted, fun o' => (h.due o').trans ?_, same ▸ h.some, same ▸ h.none⟩
  exact and_congr_right fun ho => ⟨fun ⟨h₁, h₂⟩ => ⟨after ho h₂.left |>.mpr h₁, h₂⟩,
    fun ⟨h₁, h₂⟩ => ⟨after ho h₂.left |>.mp h₁, h₂⟩⟩

-- A schedule whose cursor has been missed: nothing is ordered for the time up to that of the scan.
theorem yields_of_missed (hd : schedule.Dated z) (hy : 1000 ≤ yearFromDay (z.localDay now))
    (hm : cursor < now - missedGraceMs) (h : db.At S (some cursor)) :
    ∃ os next, Yields (advance z.zone S schedule now (now + lookaheadMs) creations (n + 2)
      (some cursor)) db z.zone S schedule creations os next ∧ (∀ o ∈ os, now < o) ∧
      ((∀ o, ¬BarelyLate schedule.toRecurrenceRule z now o) →
        Exact schedule.toRecurrenceRule z cursor now os next) := by
  have spec := computeNextOccurrence_isLeast hd hy
  have hh : cursor ≤ now + lookaheadMs := by
    simp only [lookaheadMs, missedGraceMs, scanIntervalMs, Instant] at *
    omega
  have jump {os : List Instant} {next : Option Instant} (rest : ∀ db,
      db.At S (computeNextOccurrence schedule.toRecurrenceRule now z.zone) →
      Yields (advance z.zone S schedule now (now + lookaheadMs) creations (n + 1)
        (computeNextOccurrence schedule.toRecurrenceRule now z.zone)) db z.zone S schedule
        creations os next) :=
    @advance_yields cursor now os next db S (n + 1) schedule creations z.zone (now + lookaheadMs)
      true h hh (decide_eq_true hm) rest
  cases hn : computeNextOccurrence schedule.toRecurrenceRule now z.zone
  case none =>
    refine ⟨[], none, jump fun db hat => ?_, nofun, exact_jump_none <| spec.right.mp hn⟩
    rw [hn] at hat ⊢
    exact yields_nil hat
  case some c =>
    have least := spec.left c |>.mp hn
    have hlt : now < c := least.left.right
    have late : now - missedGraceMs ≤ c := by
      simp only [missedGraceMs, scanIntervalMs, Instant] at *
      omega
    have ⟨os, next, exact', rest⟩ := @yields_of_not_missed z c now S n schedule creations hd
      (hy.trans <| yearFromDay_mono <| FixedOffset.localDay_mono hlt.le) least.left.left late
    refine ⟨os, next, jump fun db hat => ?_, fun o ho => ?_,
      fun hb => exact_jump hm least hb exact'⟩
    · rw [hn] at hat ⊢
      exact rest db hat
    · exact hlt.trans_le <| (exact'.due o |>.mp ho).right.left

theorem not_exact_of_barelyLate (hd : schedule.Dated z)
    (hy : 1000 ≤ yearFromDay (z.localDay now)) (hm : cursor < now - missedGraceMs)
    (h : db.At S (some cursor)) (ho : BarelyLate schedule.toRecurrenceRule z now o)
    (hyield : Yields (advance z.zone S schedule now (now + lookaheadMs) creations maxCursorAdvances
      (some cursor)) db z.zone S schedule creations os next) :
    ¬Exact schedule.toRecurrenceRule z cursor now os next := by
  intro exact'
  have ⟨os', next', hyield', hafter, _⟩ :=
    @yields_of_missed z cursor now db S 398 schedule creations hd hy hm h
  have ⟨ho, hg, hl⟩ := ho
  refine absurd (hafter o ?_) <| not_lt.mpr hl
  rw [hyield'.unique hyield, exact'.due]
  refine ⟨ho, hm.le.trans hg, hg, ?_⟩
  simp only [lookaheadMs, Instant] at *
  omega

-- A scan works off a schedule correctly if and only if its cursor has not been missed or no
-- occurrence is barely late.
theorem materializeSchedule_exact_iff (hd : schedule.Dated z)
    (hy : 1000 ≤ yearFromDay (z.localDay cursor)) (hy' : 1000 ≤ yearFromDay (z.localDay now))
    (hs : db.schedules.find? S = some schedule) (ha : schedule.active)
    (hn : schedule.nextRunAt = some cursor) (hc : cursor ∈ schedule.schedule z) :
    (∃ os next, Yields (materializeSchedule z.zone S schedule now (now + lookaheadMs) creations) db
        z.zone S schedule creations os next ∧
      Exact schedule.toRecurrenceRule z cursor now os next) ↔
    (cursor < now - missedGraceMs → ∀ o, ¬BarelyLate schedule.toRecurrenceRule z now o) := by
  have hat : db.At S (some cursor) := ⟨schedule, hs, ha, hn⟩
  rw [materializeSchedule, hn]
  by_cases hm : cursor < now - missedGraceMs
  case neg =>
    have ⟨os, next, exact', yields⟩ :=
      @yields_of_not_missed z cursor now S 399 schedule creations hd hy hc (not_lt.mp hm)
    exact iff_of_true ⟨os, next, yields db hat, exact'⟩ fun h => absurd h hm
  case pos =>
    constructor
    case mp =>
      intro ⟨os, next, hyield, exact'⟩ _ o ho
      exact not_exact_of_barelyLate hd hy' hm hat ho hyield exact'
    case mpr =>
      intro h
      have ⟨os, next, hyield, _, exact'⟩ :=
        @yields_of_missed z cursor now db S 398 schedule creations hd hy' hm hat
      exact ⟨os, next, hyield, exact' <| h hm⟩

end

-- A delivery at nine o'clock every day, seven hours ahead of UTC.
def daily : RecurringDelivery where
  freq               := .daily
  daysOfWeek         := []
  timeOfDay          := "09:00"
  startDate          := 1782777600000
  endDate            := none
  fromAddress        := "Jl. Sudirman 1"
  toAddress          := "Jl. Thamrin 2"
  receiver           := "Ayu"
  packages           := "Documents"
  packageSize        := "Small"
  packageWeight      := 0
  packageTypes       := []
  userId             := 1
  active             := true
  nextRunAt          := some 1782784800000
  lastMaterializedAt := none
  lastDeliveryId     := none

def jakarta : FixedOffset where
  seconds := 7 * 3600
  lt_day  := by decide

def Store.daily : Store where
  clock     := 0
  schedules := ⟨[(1, Recurring.daily)], by decide⟩

theorem daily_mem (k : Nat) : 1782784800000 + k * msPerDay ∈ daily.schedule jakarta := by
  refine ⟨9, 0, 20634 + k, by decide +kernel, ?_, ?_, nofun, ?_⟩
  · simp only [FixedOffset.instant, FixedOffset.ms, jakarta, msPerDay, Instant]
    omega
  · simp only [FixedOffset.localDay, FixedOffset.ms, jakarta, msPerDay, daily, Instant]
    omega
  · simp only [weekday, RecurrenceRule.days, daily, List.mem_cons, List.not_mem_nil, or_false]
    omega

theorem daily_dated : daily.Dated jakarta where
  start := by decide
  stop  := nofun

theorem materializeSchedule_exact_on_time :
    ∃ os next, Yields (materializeSchedule jakarta.zone 1 daily 1782784800000
        (1782784800000 + lookaheadMs) fun _ _ => .ok 7) .daily jakarta.zone 1 daily
        (fun _ _ => .ok 7) os next ∧
      Exact daily.toRecurrenceRule jakarta 1782784800000 1782784800000 os next := by
  have hc : 1782784800000 ∈ daily.schedule jakarta := daily_mem 0
  exact materializeSchedule_exact_iff daily_dated (by decide) (by decide) rfl rfl rfl hc |>.mpr
    fun h => absurd h (by decide)

-- The worker was down for a day, and comes back one minute after an occurrence.
theorem materializeSchedule_exact_missed :
    ¬∀ (z : FixedOffset) (schedule : RecurringDelivery) (db : Store) (S : ScheduleId)
      (cursor now : Instant) (creations : Creations), schedule.Dated z →
      1000 ≤ yearFromDay (z.localDay cursor) → 1000 ≤ yearFromDay (z.localDay now) →
      db.schedules.find? S = some schedule → schedule.active → schedule.nextRunAt = some cursor →
      cursor ∈ schedule.schedule z →
      ∃ os next, Yields (materializeSchedule z.zone S schedule now (now + lookaheadMs) creations) db
          z.zone S schedule creations os next ∧
        Exact schedule.toRecurrenceRule z cursor now os next := by
  intro h
  have hc : 1782784800000 ∈ daily.schedule jakarta := daily_mem 0
  have ho : 1782871200000 ∈ daily.schedule jakarta := daily_mem 1
  have ⟨os, next, hyield, exact'⟩ := h jakarta daily .daily 1 1782784800000 1782871260000
    (fun _ _ => .ok 7) daily_dated (by decide) (by decide) rfl rfl rfl hc
  exact not_exact_of_barelyLate daily_dated (by decide) (by decide) ⟨daily, rfl, rfl, rfl⟩
    ⟨ho, by decide, by decide⟩ hyield exact'

end Drovery.Recurring
