import Mathlib.Data.List.DropRight
import Drovery.Services.Airspace

namespace Drovery.Airspace

open Concurrency

abbrev Log := List (Entry Stmt.sig Store Call)

-- The entry committed a write to a zone.
def commits (e : Entry Stmt.sig Store Call) : Bool :=
  match e.stmt with
  | .create Z zone  => (e.pre.create Z zone).isOk
  | .update Z patch => (e.pre.update Z patch).isOk
  | _               => false

def Committed (log : Log) (t : Nat) : Prop :=
  ∃ e ∈ log, e.tid = t ∧ commits e

-- The thread `t` has dropped the cache.
def Invalidated (log : Log) (t : Nat) : Prop :=
  ∃ e ∈ log, e.tid = t ∧ e.stmt = .invalidate

-- The history up to the first statement of the thread `t`.
def before (log : Log) (t : Nat) : Log :=
  log.rtakeWhile (·.tid ≠ t)

-- The rows stem from a successful read of the database, which observed the writes of the threads `W`.
def Observes (log : Log) (rows : List ZoneRow) (W : Nat → Prop) : Prop :=
  ∃ newer r older, log = newer ++ r :: older ∧ r.stmt = .fetchActiveRows none ∧
    rows = r.pre.activeRows ∧ ∀ u, W u → Committed older u

-- The thread `t` has read the rows from the database.
def ReadBy (log : Log) (t : Nat) (rows : List ZoneRow) : Prop :=
  ∃ newer r older, log = newer ++ r :: older ∧ r.tid = t ∧ r.stmt = .fetchActiveRows none ∧
    rows = r.pre.activeRows

-- What is known about a call that is about to answer with `zones`.
structure Answers (t : Nat) (c : Call) (zones : List GeoCircle) (log : Log) : Prop where
  started  : ∃ e ∈ log, e.tid = t
  -- A call whose read failed does not answer.
  read     : ∀ e ∈ log, e.tid = t → ∀ err, e.stmt ≠ .fetchActiveRows (some err)
  observes : ∃ now fault rows, c = .inForceZones now fault ∧ zones = inForce rows now ∧
    Observes log rows (Invalidated <| before log t)

-- The runs in which no call fills the cache with rows that were read before a write which has since
-- then been committed and followed by its `invalidate`.
def fillsCurrent : Policy Stmt.sig Store Call where
  step s t _ x := ∀ cache, x = .storeCache cache → ∀ newer r older, s.log = newer ++ r :: older →
    r.tid = t → r.stmt = .fetchActiveRows none → ∀ e ∈ newer, commits e → ¬Invalidated s.log e.tid

-- A fresh instance, with any zones in the database.
def Store.Initial (db : Store) : Prop :=
  db.cache = none

section

variable {log newer : Log} {e : Entry Stmt.sig Store Call} {t u : Nat} {rows : List ZoneRow}

theorem before_suffix : before log t <:+ log :=
  List.rtakeWhile_suffix ..

theorem before_cons_of_started (h : ∃ e ∈ log, e.tid = t) : before (e :: log) t = before log t := by
  have hne : (log.reverse.takeWhile (·.tid ≠ t)).length ≠ log.reverse.length := by
    intro hl
    have ha := (List.takeWhile_prefix _).eq_of_length hl
    obtain ⟨e, he, ht⟩ := h
    have := List.takeWhile_eq_self_iff.mp ha e (List.mem_reverse.mpr he)
    simp [ht] at this
  simp only [before, List.rtakeWhile, List.reverse_cons, List.takeWhile_append, if_neg hne]

theorem before_append (h : ∃ e ∈ log, e.tid = t) : before (newer ++ log) t = before log t := by
  induction newer
  case nil          => rfl
  case cons e _ ih =>
    refine (before_cons_of_started ?_).trans ih
    obtain ⟨e, he, ht⟩ := h
    exact ⟨e, List.mem_append_right _ he, ht⟩

theorem before_cons_self (he : e.tid = t) (h : ∀ e ∈ log, e.tid ≠ t) :
    before (e :: log) t = log := by
  have ha : log.reverse.takeWhile (·.tid ≠ t) = log.reverse :=
    List.takeWhile_eq_self_iff.mpr fun e he => by simpa using h e (List.mem_reverse.mp he)
  simp only [before, List.rtakeWhile, List.reverse_cons, List.takeWhile_append, ha, if_pos]
  simp [he]

theorem Committed.append (newer : Log) (h : Committed log u) : Committed (newer ++ log) u := by
  obtain ⟨e, he, hc⟩ := h
  exact ⟨e, List.mem_append_right _ he, hc⟩

theorem Invalidated.of_suffix {log' : Log} (h : Invalidated log u) (hs : log <:+ log') :
    Invalidated log' u := by
  obtain ⟨e, he, hi⟩ := h
  exact ⟨e, hs.mem he, hi⟩

theorem Observes.append (newer : Log) {W : Nat → Prop} (h : Observes log rows W) :
    Observes (newer ++ log) rows W := by
  obtain ⟨newer', r, older, rfl, hr⟩ := h
  exact ⟨newer ++ newer', r, older, by simp, hr⟩

theorem Observes.mono {W W' : Nat → Prop} (h : Observes log rows W) (hW : ∀ u, W' u → W u) :
    Observes log rows W' := by
  obtain ⟨newer, r, older, hl, hs, hr, ho⟩ := h
  exact ⟨newer, r, older, hl, hs, hr, fun u hu => ho u <| hW u hu⟩

theorem ReadBy.append (newer : Log) (h : ReadBy log t rows) :
    ReadBy (newer ++ log) t rows := by
  obtain ⟨newer', r, older, rfl, hr⟩ := h
  exact ⟨newer ++ newer', r, older, by simp, hr⟩

theorem Answers.append (newer : Log) {c : Call} {zones : List GeoCircle} (h : Answers t c zones log)
    (hn : ∀ e ∈ newer, e.tid = t → ∀ err, e.stmt ≠ .fetchActiveRows (some err)) :
    Answers t c zones (newer ++ log) where
  started := by
    obtain ⟨e, he, ht⟩ := h.started
    exact ⟨e, List.mem_append_right _ he, ht⟩
  read e he ht := by
    cases List.mem_append.mp he
    case inl he => exact hn e he ht
    case inr he => exact h.read e he ht
  observes := by
    obtain ⟨now, fault, rows, hc, hz, ho⟩ := h.observes
    rw [before_append h.started]
    exact ⟨now, fault, rows, hc, hz, ho.append newer⟩

end

-- * The cache holds rows whose read observed every write that has been followed by its `invalidate`.
-- * A thread drops the cache only after it has committed a write.
-- * A thread fills the cache with what it has read itself.
def outline : Outline Stmt.sig Store Call where
  inv w := (∀ u, Invalidated w.log u → Committed w.log u) ∧
    ∀ cache, w.db.cache = some cache → Observes w.log cache.rows (Invalidated w.log)
  rely t w w' := ∃ newer, w'.log = newer ++ w.log ∧ ∀ e ∈ newer, e.tid ≠ t
  pre t c x w := match x with
    | .invalidate       => Committed w.log t
    | .storeCache cache => ReadBy w.log t cache.rows
    | .respond zones    => Answers t c zones w.log
    | _                 => True

section

variable {raw : Option ℚ} {s : Pool Stmt.sig Store Call} {t : Nat} {c : Call} {x : Stmt}
variable {w w' : World Stmt.sig Store Call}

-- Only these statements touch the cache.
theorem cache_exec (db : Store) (hs : ∀ cache, x ≠ .storeCache cache) (hi : x ≠ .invalidate) :
    (Stmt.exec x db).snd.cache = db.cache := by
  cases x <;> simp only [Stmt.exec]
  case storeCache cache      => exact absurd rfl <| hs cache
  case invalidate            => exact absurd rfl hi
  case fetchActiveRows fault => cases fault <;> rfl
  case create Z zone =>
    unfold Store.create
    cases db.zones.insert Z zone <;> rfl
  case update Z patch =>
    unfold Store.update
    cases db.zones.find? Z <;> rfl

theorem invalidated_exec {u : Nat} (hi : x ≠ .invalidate)
    (h : Invalidated (w.exec (system raw) t c x).log u) : Invalidated w.log u := by
  obtain ⟨e, he, ht, hs⟩ := h
  cases List.mem_cons.mp he
  case inl he => subst he; exact absurd hs hi
  case inr he => exact ⟨e, he, ht, hs⟩

-- Rows that are stored in the cache have observed every write that has been followed by its
-- `invalidate`.
theorem observes_of_readBy {rows : List ZoneRow} (h : ReadBy w.log t rows)
    (hi : ∀ u, Invalidated w.log u → Committed w.log u)
    (hp : ∀ newer r older, w.log = newer ++ r :: older → r.tid = t →
      r.stmt = .fetchActiveRows none → ∀ e ∈ newer, commits e → ¬Invalidated w.log e.tid) :
    Observes w.log rows (Invalidated w.log) := by
  obtain ⟨newer, r, older, hl, ht, hs, hr⟩ := h
  refine ⟨newer, r, older, hl, hs, hr, fun u hu => ?_⟩
  obtain ⟨e, he, rfl, hc⟩ := hi u hu
  rw [hl, List.mem_append, List.mem_cons] at he
  obtain he | rfl | he := he
  case inl      => exact absurd hu <| hp newer r older hl ht hs e he hc
  case inr.inl  => simp [commits, hs] at hc
  case inr.inr  => exact ⟨e, he, rfl, hc⟩

theorem inv_exec (st : StepOf (system raw) fillsCurrent Store.Initial s t c x)
    (hi : outline.inv s.world) (hp : outline.pre t c x s.world) :
    outline.inv (s.world.exec (system raw) t c x) := by
  have ⟨hc, ho⟩ := hi
  have old {u} (h : Committed s.log u) : Committed (s.world.exec (system raw) t c x).log u :=
    h.append [_]
  by_cases hx : x = .invalidate
  case pos =>
    subst hx
    refine ⟨?_, fun _ h => nomatch h⟩
    rintro u ⟨e, he, rfl, hs⟩
    cases List.mem_cons.mp he
    case inl he => subst he; exact old hp
    case inr he => exact old <| hc _ ⟨e, he, rfl, hs⟩
  case neg =>
    refine ⟨fun u hu => old <| hc u <| invalidated_exec hx hu, fun cache h => ?_⟩
    have ho : Observes s.log cache.rows (Invalidated s.log) := by
      by_cases hs : ∃ cache, x = .storeCache cache
      case neg =>
        refine ho cache <| Eq.trans (cache_exec s.db (fun cache he => hs ⟨cache, he⟩) hx).symm h
      case pos =>
        obtain ⟨cache', rfl⟩ := hs
        obtain rfl := Option.some.inj h
        exact observes_of_readBy hp hc <| st.allowed cache' rfl
    exact (ho.append [_]).mono fun u hu => invalidated_exec hx hu

theorem pre_exec {t' : Nat} {c' : Call} {x' : Stmt} (hne : t' ≠ t)
    (h : outline.pre t' c' x' w) : outline.pre t' c' x' (w.exec (system raw) t c x) := by
  cases x' <;> try trivial
  case storeCache => exact ReadBy.append [_] h
  case invalidate => exact Committed.append [_] h
  case respond    =>
    refine Answers.append [_] h fun e he ht => ?_
    exact absurd (ht.symm.trans <| congrArg Entry.tid <| List.mem_singleton.mp he) hne

-- The cache is dropped only if the write has been committed.
theorem ok_write {f : x.Res → Except AppError Unit} {fault : Outcome AppError}
    (hp : ∀ w, outline.pre t c x w)
    (hf : ∀ db, f (Stmt.exec x db).fst = .ok () → commits ⟨t, c, x, db⟩) :
    outline.Ok (system raw) t c (do
      (App.tx x f).attempt fault
      AdminService.dropZoneCacheAfterCommit) w := by
  have drop : ∀ w, Committed w.log t →
      outline.Ok (system raw) t c AdminService.dropZoneCacheAfterCommit w :=
    fun w h => .tx h
  refine Outline.Ok.wpm_bind (Q := fun _ w => Committed w.log t) ?_ fun _ w h => drop w h
  refine Outline.wpm_attempt.mpr ⟨fun _ => ?_, fun _ _ => trivial, fun _ _ => Outline.Ok.tx (hp w)⟩
  refine Outline.wpm_tx.mpr ⟨hp w, fun w' _ _ _ => ?_⟩
  split
  case h_2   => trivial
  case h_1 h => exact ⟨_, List.mem_cons_self, rfl, hf w'.db h⟩

theorem ok_create {Z : ZoneId} {zone : AirspaceZone} {fault : Outcome AppError} :
    outline.Ok (system raw) t c (do
      (App.tx (.create Z zone) id).attempt fault
      AdminService.dropZoneCacheAfterCommit) w := by
  refine ok_write (fun _ => trivial) fun db h => ?_
  simp only [Stmt.exec, commits, id_eq] at h ⊢
  cases he : db.create Z zone <;> simp_all [Stmt.commit, Except.isOk, Except.toBool]

theorem ok_update {Z : ZoneId} {patch : AirspaceZonePatch} {fault : Outcome AppError} :
    outline.Ok (system raw) t c (do
      (App.tx (.update Z patch) id).attempt fault
      AdminService.dropZoneCacheAfterCommit) w := by
  refine ok_write (fun _ => trivial) fun db h => ?_
  simp only [Stmt.exec, commits, id_eq] at h ⊢
  cases he : db.update Z patch <;> simp_all [Stmt.commit, Except.isOk, Except.toBool]

theorem ok_findZoneOr404 {Z : ZoneId} :
    outline.Ok (system raw) t c (AdminService.findZoneOr404 Z) w := by
  refine .stmt_bind trivial fun w' _ _ _ => ?_
  split
  case h_1 => exact .throw
  case h_2 => exact .pure

theorem Answers.intro {now : Time} {fault : Option AppError} {rows : List ZoneRow} {log : Log}
    (hs : ∃ e ∈ log, e.tid = t)
    (hr : ∀ e ∈ log, e.tid = t → ∀ err, e.stmt ≠ .fetchActiveRows (some err))
    (ho : Observes log rows (Invalidated <| before log t)) :
    Answers t (.inForceZones now fault) (inForce rows now) log :=
  ⟨hs, hr, now, fault, rows, rfl, rfl, ho⟩

theorem not_mem_of_rely (h : outline.rely t w w') (hw : ∀ e ∈ w.log, e.tid ≠ t) :
    ∀ e ∈ w'.log, e.tid ≠ t := by
  obtain ⟨newer, hl, hn⟩ := h
  intro e he
  rw [hl] at he
  cases List.mem_append.mp he
  case inl he => exact hn e he
  case inr he => exact hw e he

theorem ok_inForceZones {ttl : ℚ} {now : Time} {fault : Option AppError}
    (hc : c = .inForceZones now fault) (hw : ∀ e ∈ w.log, e.tid ≠ t) :
    outline.Ok (system raw) t c (AirspaceService.inForceZones ttl now fault) w := by
  subst hc
  refine .stmt_bind trivial fun w₁ hr₁ hi₁ _ => ?_
  have hw₁ := not_mem_of_rely hr₁ hw
  split
  -- The cache holds rows that may be served, and the call starts with reading them.
  case h_1 cached h =>
    have hcache := (Option.filter_eq_some_iff.mp h).left
    refine .tx <| .intro ⟨_, List.mem_cons_self, rfl⟩ (fun e he ht => ?_) ?_
    case refine_1 =>
      cases List.mem_cons.mp he
      case inl he => subst he; exact fun _ => nofun
      case inr he => exact absurd ht <| hw₁ e he
    case refine_2 =>
      rw [World.exec_log, before_cons_self rfl hw₁]
      exact (hi₁.right cached hcache).append [_]
  case h_2 =>
    refine .wpm_bind (Q := fun rows w => ReadBy w.log t rows ∧
      Answers t (.inForceZones now fault) (inForce rows now) w.log) ?_ fun rows w₃ ⟨hr, ha⟩ => ?_
    case refine_1 =>
      refine Outline.wpm_tx.mpr ⟨trivial, fun w₂ ⟨newer, hl, hn⟩ hi₂ _ => ?_⟩
      cases fault
      case some => trivial
      case none =>
        refine ⟨⟨[], _, w₂.log, rfl, rfl, rfl, rfl⟩, .intro ⟨_, List.mem_cons_self, rfl⟩ ?_ ?_⟩
        case refine_1 =>
          intro e he ht err hs
          rw [World.exec_log, hl] at he
          obtain rfl | he := List.mem_cons.mp he
          case inl => nomatch hs
          case inr =>
            obtain he | he := List.mem_append.mp he
            case inl => exact hn e he ht
            case inr =>
              obtain rfl | he := List.mem_cons.mp he
              case inl => nomatch hs
              case inr => exact hw₁ e he ht
        case refine_2 =>
          have hst : ∃ e ∈ w₂.log, e.tid = t :=
            ⟨_, hl ▸ List.mem_append_right _ List.mem_cons_self, rfl⟩
          rw [World.exec_log, before_cons_of_started hst]
          exact ⟨[], _, w₂.log, rfl, rfl, rfl, fun u hu => hi₂.left u <| hu.of_suffix before_suffix⟩
    case refine_2 =>
      refine .stmt_bind hr fun w₄ ⟨newer, hl, hn⟩ _ _ => .tx ?_
      show Answers t _ _ (_ :: w₄.log)
      rw [hl]
      refine ha.append (_ :: newer) fun e he ht => ?_
      obtain rfl | he := List.mem_cons.mp he
      case inl => exact fun _ => nofun
      case inr => exact absurd ht <| hn e he

theorem ok_prog (hw : ∀ e ∈ w.log, e.tid ≠ t) :
    outline.wp (system raw) t c ((system raw).prog t c) (fun _ _ => True) w := by
  cases c
  case inForceZones           => exact (ok_inForceZones rfl hw).toCall
  case createAirspaceZone     => exact (Outline.Ok.check_bind fun _ _ => ok_create).toCall
  case updateAirspaceZone     =>
    refine (Outline.Ok.bind ok_findZoneOr404 fun _ _ => ?_).toCall
    exact .check_bind fun _ _ => .check_bind fun _ _ => ok_update
  case deactivateAirspaceZone =>
    exact (Outline.Ok.bind ok_findZoneOr404 fun _ _ => ok_update).toCall

end

theorem outline_valid {raw : Option ℚ} :
    outline.Valid (system raw) fillsCurrent Store.Initial where
  rely_refl _ _ := ⟨[], rfl, by simp⟩
  rely_trans := by
    rintro t w₁ w₂ w₃ ⟨newer₁, hl₁, hn₁⟩ ⟨newer₂, hl₂, hn₂⟩
    refine ⟨newer₂ ++ newer₁, by simp [hl₁, hl₂], fun e he => ?_⟩
    cases List.mem_append.mp he
    case inl he => exact hn₂ e he
    case inr he => exact hn₁ e he
  post_stable _ _ := trivial
  inv_init h := ⟨by simp [Invalidated], fun cache hc => absurd (h.symm.trans hc) nofun⟩
  spawn _ _ hw := ok_prog hw
  inv_step st hi hp := inv_exec st hi hp
  rely_step _ _ _ hne := ⟨[_], rfl, by simpa using hne.symm⟩
  pre_step _ _ _ hne _ h := pre_exec hne h

-- The answer of a call stems from a successful read of the database. That read observed every write
-- whose `invalidate` had returned when the call started.
theorem airspace_coherent {raw : Option ℚ} {s : Pool Stmt.sig Store Call}
    (h : Reachable (system raw) fillsCurrent Store.Initial s) {newer older : Log}
    {e : Entry Stmt.sig Store Call} {zones : List GeoCircle} (he : s.log = newer ++ e :: older)
    (hr : e.stmt = .respond zones) : Answers e.tid e.call zones older := by
  obtain ⟨s₀, st, hw, _⟩ := h.entry (R := fun _ _ => True) (fun _ => trivial) (fun _ _ => trivial)
    (fun _ => trivial) he
  have hp := (outline_valid.reachable st.reachable).pre st.aboutTo
  rw [hr, hw] at hp
  exact hp

-- An instance that knows no zones yet, and the declaration of a zone.
def Store.small : Store where
  zones := .empty
  cache := none

theorem Store.small_initial : Store.small.Initial :=
  rfl

def declaration : CreateAirspaceZoneDto where
  name     := "Soekarno-Hatta"
  kind     := .airport
  lat      := 0
  lng      := 0
  radiusKm := 5

def isRead (e : Entry Stmt.sig Store Call) : Bool :=
  match e.stmt with
  | .fetchActiveRows none => true
  | _                     => false

theorem isRead_of_stmt {e : Entry Stmt.sig Store Call} (h : e.stmt = .fetchActiveRows none) :
    isRead e := by
  simp [isRead, h]

def isInvalidate (e : Entry Stmt.sig Store Call) : Bool :=
  match e.stmt with
  | .invalidate => true
  | _           => false

theorem stmt_of_isInvalidate {e : Entry Stmt.sig Store Call} (h : isInvalidate e) :
    e.stmt = .invalidate := by
  unfold isInvalidate at h
  split at h
  case h_1 hs => exact hs
  case h_2    => contradiction

def isRespond (e : Entry Stmt.sig Store Call) : Bool :=
  match e.stmt with
  | .respond _ => true
  | _          => false

theorem respond_of_isRespond {e : Entry Stmt.sig Store Call} (h : isRespond e) :
    ∃ zones, e.stmt = .respond zones := by
  unfold isRespond at h
  split at h
  case h_1 zones hs => exact ⟨zones, hs⟩
  case h_2          => contradiction

-- The runs in which nothing is written while a call fills the cache.
def fillsUndisturbed : Policy Stmt.sig Store Call where
  step s t _ x := match x with
    | .storeCache _ => s.log.Pairwise fun e r => r.tid = t → isRead r → commits e = false
    | _             => True

instance {s : Pool Stmt.sig Store Call} {t : Nat} {c : Call} {x : Stmt} :
    Decidable (fillsUndisturbed.step s t c x) := by
  unfold fillsUndisturbed; dsimp only; split <;> infer_instance

instance : DecidablePred fillsUndisturbed.spawn :=
  fun _ => .isTrue trivial

instance : Decidable fillsUndisturbed.crash :=
  .isTrue trivial

theorem fillsCurrent_of_undisturbed {s : Pool Stmt.sig Store Call} {t : Nat} {c : Call} {x : Stmt}
    (h : fillsUndisturbed.step s t c x) : fillsCurrent.step s t c x := by
  rintro cache rfl newer r older hl ht hs e he hc
  have h : s.log.Pairwise fun e r => r.tid = t → isRead r → commits e = false := h
  rw [hl, List.pairwise_append] at h
  have hn := h.right.right e he r List.mem_cons_self ht (isRead_of_stmt hs)
  exact absurd (hn.symm.trans hc) (by decide)

-- A zone is declared, and then a call asks for the zones in force.
def declaredFirstRun : List (Cmd Call) :=
  List.flatten [
    Cmd.run 1 (.createAirspaceZone declaration 0 .committed) 2, Cmd.run 2 (.inForceZones 0 none) 4]

theorem airspace_coherent_declared :
    ∃ s, Reachable (system none) fillsCurrent Store.Initial s ∧ ∃ e older zones,
      s.log = e :: older ∧ e.stmt = .respond zones ∧ Answers e.tid e.call zones older := by
  let s := (Pool.init .small).runCmds (system none) declaredFirstRun
  have h : Reachable (system none) fillsCurrent Store.Initial s := by
    have h : Reachable (system none) fillsUndisturbed Store.Initial s :=
      (Reachable.init Store.small_initial).runCmds (by decide)
    exact h.mono (fun _ _ => trivial) (fun _ _ _ _ h => fillsCurrent_of_undisturbed h) id
  cases hl : s.log
  case nil => exact absurd (congrArg List.length hl) (by decide)
  case cons e older =>
    have hr : s.log.head?.any isRespond := by decide
    simp only [hl, List.head?_cons, Option.any_some] at hr
    obtain ⟨zones, hr⟩ := respond_of_isRespond hr
    exact ⟨s, h, e, older, zones, hl, hr, @airspace_coherent none s h [] older e zones hl hr⟩

-- A call has read the database but not yet filled the cache when a zone is declared. Its rows end up
-- in the cache after the cache has been dropped, and the next call answers from them.
def staleFillRun : List (Cmd Call) :=
  List.flatten [
    Cmd.run 1 (.inForceZones 0 none) 2, Cmd.run 2 (.createAirspaceZone declaration 0 .committed) 2,
    [.exec 1, .exec 1], Cmd.run 3 (.inForceZones 0 none) 2]

theorem airspace_coherent_missed :
    ¬∀ (raw : Option ℚ) (s : Pool Stmt.sig Store Call), Reachable (system raw) {} Store.Initial s →
      ∀ newer e older zones, s.log = newer ++ e :: older → e.stmt = .respond zones →
        Answers e.tid e.call zones older := by
  intro h
  let s := (Pool.init .small).runCmds (system none) staleFillRun
  have hs : Reachable (system none) {} Store.Initial s :=
    Reachable.runCmds_of_free staleFillRun <| .init Store.small_initial
  cases hl : s.log
  case nil => exact absurd (congrArg List.length hl) (by decide)
  case cons e older =>
    have hr : s.log.head?.any isRespond := by decide
    have ht : s.log.head?.map (·.tid) = some 3 := by decide
    have hb : (before s.log.tail 3).any fun e => e.tid = 2 ∧ isInvalidate e := by decide
    have ho : s.log.tail.Pairwise fun r e => isRead r → ¬(e.tid = 2 ∧ commits e) := by decide
    simp only [hl, List.head?_cons, Option.any_some, Option.map_some, Option.some.injEq,
      List.tail_cons] at hr ht hb ho
    obtain ⟨zones, hr⟩ := respond_of_isRespond hr
    obtain ⟨_, _, rows, _, _, newer, r, older', hl', hs', _, hw⟩ :=
      (h none s hs [] e older zones hl hr).observes
    have hi : Invalidated (before older e.tid) 2 := by
      obtain ⟨e', he', hi⟩ := List.any_eq_true.mp hb
      obtain ⟨ht', hi⟩ := of_decide_eq_true hi
      exact ⟨e', ht ▸ he', ht', stmt_of_isInvalidate hi⟩
    obtain ⟨e', he', ht', hc'⟩ := hw 2 hi
    rw [hl', List.pairwise_append, List.pairwise_cons] at ho
    exact ho.right.left.left e' he' (isRead_of_stmt hs') ⟨ht', hc'⟩

end Drovery.Airspace
