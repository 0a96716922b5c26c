import Drovery.Concurrency.Local
import Drovery.Services.Outbox

namespace Drovery.Outbox

open Concurrency

abbrev Log := List (Entry Stmt.sig Store Call)

-- Everything that a statement can do to an event.
inductive Moves (db : Store) (E : OutboxEventId) : Stmt → OutboxEvent → OutboxEvent → Prop
  | keep {x e e'} : e'.status = e.status → e'.attempts = e.attempts → e'.claimedAt = e.claimedAt →
    e'.eventType = e.eventType → e'.payload = e.payload → Moves db E x e e'
  | claim {now e} : e.status = .pending → Moves db E (.claim E now) e (e.claim now)
  | apply {type payload now outcome e} : (∀ err, outcome ≠ .rolledBack err) →
    (db.applyAndMark E type payload now).isOk →
    Moves db E (.applyAndMark E type payload now outcome) e (e.markProcessed now)
  | mark {now e} : Moves db E (.markProcessed E now) e (e.markProcessed now)
  | fail {cutoff n e} : e.status = .processing → n ≤ e.attempts →
    Moves db E (.failExhausted cutoff n) e e.fail
  | reap {cutoff n e} : e.status = .processing → e.attempts < n →
    Moves db E (.requeueStale cutoff n) e e.requeue
  | recover {retryBefore n e} : e.status = .failed → e.attempts < n →
    Moves db E (.requeueFailed retryBefore n) e e.requeue

theorem Moves.refl {db : Store} {E : OutboxEventId} {x : Stmt} {e : OutboxEvent} : Moves db E x e e :=
  .keep rfl rfl rfl rfl rfl

-- The kind of an event does not change.
theorem Moves.kind {db : Store} {E : OutboxEventId} {x : Stmt} {e e' : OutboxEvent}
    (h : Moves db E x e e') : e'.eventType = e.eventType ∧ e'.payload = e.payload := by
  cases h
  case keep ht hp => exact ⟨ht, hp⟩
  all_goals exact ⟨rfl, rfl⟩

namespace Store

variable {db db' : Store} {E E' : OutboxEventId} {e e' : OutboxEvent}
variable {f : OutboxEvent → OutboxEvent} {type : OutboxEventType} {payload : OutboxPayload}
variable {now : Time}

theorem find?_update (h : db.update E f = .ok db') :
    db'.events.find? E' = if E' = E then (db.events.find? E).map f else db.events.find? E' := by
  unfold update at h
  split at h
  case h_1 => contradiction
  case h_2 =>
    obtain rfl := Except.ok.inj h
    exact Table.find?_modify

theorem applyAndMark_ok (h : db.applyAndMark E type payload now = .ok db') :
    ∃ w, applyHandler db.wallet type payload = .ok w ∧
      { db with wallet := w }.update E (·.markProcessed now) = .ok db' := by
  unfold applyAndMark at h
  cases hw : applyHandler db.wallet type payload <;> rw [hw] at h
  case error => contradiction
  case ok w  => exact ⟨w, rfl, h⟩

theorem update_wallet (h : db.update E f = .ok db') : db'.wallet = db.wallet := by
  unfold update at h
  split at h
  case h_1 => contradiction
  case h_2 => exact (Except.ok.inj h) ▸ rfl

theorem find?_applyAndMark (h : db.applyAndMark E type payload now = .ok db') :
    db'.events.find? E' =
      if E' = E then (db.events.find? E).map (·.markProcessed now) else db.events.find? E' := by
  have ⟨w, _, hu⟩ := applyAndMark_ok h
  exact @find?_update { db with wallet := w } _ _ _ _ hu

theorem find?_enqueue {event : OutboxEnqueue} (h : db.enqueue E event = .ok db') :
    db.events.find? E = none ∧ ∃ e, e.status = .pending ∧ e.attempts = 0 ∧
      ∀ E', db'.events.find? E' = if E' = E then some e else db.events.find? E' := by
  unfold enqueue at h
  split at h
  case isTrue  => contradiction
  case isFalse =>
    split at h
    case h_1 => contradiction
    case h_2 events hi =>
      obtain rfl := Except.ok.inj h
      exact ⟨Table.find?_of_insert hi, _, rfl, rfl, fun _ => Table.find?_insert hi⟩

end Store

section

variable {x : Stmt} {db : Store} {E : OutboxEventId} {e e' : OutboxEvent}

theorem moves_update {E' : OutboxEventId} {f : OutboxEvent → OutboxEvent} {db' : Store}
    (h : db.events.find? E = some e)
    (hu : db'.events.find? E = if E = E' then (db.events.find? E').map f else db.events.find? E)
    (hf : E' = E → Moves db E x e (f e)) : ∃ e', db'.events.find? E = some e' ∧ Moves db E x e e' := by
  rw [hu]
  split
  case isTrue he =>
    subst he
    exact ⟨f e, by rw [h]; rfl, hf rfl⟩
  case isFalse => exact ⟨e, h, .refl⟩

theorem moves_updateMany {p : OutboxEventId → OutboxEvent → Bool} {f : OutboxEvent → OutboxEvent}
    (h : db.events.find? E = some e) (hf : p E e → Moves db E x e (f e)) :
    ∃ e', (db.events.updateMany p f).find? E = some e' ∧ Moves db E x e e' := by
  rw [Table.find?_updateMany, h, Option.map_some]
  by_cases hp : p E e
  case pos => exact ⟨f e, by rw [if_pos hp], hf hp⟩
  case neg => exact ⟨e, by rw [if_neg hp], .refl⟩

theorem moves_apply {type : OutboxEventType} {payload : OutboxPayload} {now : Time}
    {outcome : Outcome AppError} {E' : OutboxEventId} (h : db.events.find? E = some e)
    (ho : ∀ err, outcome ≠ .rolledBack err) :
    ∃ e', (Stmt.commit db <| db.applyAndMark E' type payload now).snd.events.find? E = some e' ∧
      Moves db E (.applyAndMark E' type payload now outcome) e e' := by
  cases hr : db.applyAndMark E' type payload now
  case error => exact ⟨e, h, .refl⟩
  case ok    => exact moves_update h (Store.find?_applyAndMark hr) fun he => he ▸ .apply ho (by rw [hr]; rfl)

theorem moves_exec (h : db.events.find? E = some e) :
    ∃ e', (Stmt.exec x db).snd.events.find? E = some e' ∧ Moves db E x e e' := by
  cases x <;> simp only [Stmt.exec]
  case enqueue E' event =>
    cases hr : db.enqueue E' event
    case error => exact ⟨e, h, .refl⟩
    case ok db' =>
      obtain ⟨hn, _, _, _, hf⟩ := Store.find?_enqueue hr
      have hne : E ≠ E' := by rintro rfl; rw [h] at hn; contradiction
      exact ⟨e, by simp [Stmt.commit, hf, hne, h], .refl⟩
  case claim E' now =>
    obtain hs | ⟨r, rfl, hr, hg, hs⟩ :=
      Table.find?_cas_cases db.events E' E (·.status = .pending) (·.claim now)
    case inl => exact ⟨e, hs.trans h, .refl⟩
    case inr =>
      obtain rfl := Option.some.inj <| h.symm.trans hr
      exact ⟨_, hs, .claim <| of_decide_eq_true hg⟩
  case applyAndMark E' type payload now outcome =>
    cases outcome
    case committed  => exact moves_apply h nofun
    case rolledBack => exact ⟨e, h, .refl⟩
    case lost       => exact moves_apply h nofun
  case markProcessed E' now =>
    cases hr : db.update E' (·.markProcessed now)
    case error => exact ⟨e, h, .refl⟩
    case ok    => exact moves_update h (Store.find?_update hr) fun he => he ▸ .mark
  case noteError E' err =>
    cases hr : db.update E' ({ · with lastError := some err })
    case error => exact ⟨e, h, .refl⟩
    case ok    => exact moves_update h (Store.find?_update hr) fun _ => .keep rfl rfl rfl rfl rfl
  case failExhausted =>
    refine moves_updateMany h fun hp => ?_
    obtain ⟨hs, _, hn⟩ := of_decide_eq_true hp
    exact .fail hs hn
  case requeueStale =>
    refine moves_updateMany h fun hp => ?_
    obtain ⟨hs, _, hn⟩ := of_decide_eq_true hp
    exact .reap hs hn
  case requeueFailed =>
    refine moves_updateMany h fun hp => ?_
    obtain ⟨hs, hn, _⟩ := of_decide_eq_true hp
    exact .recover hs hn
  all_goals exact ⟨e, h, .refl⟩

-- What a transaction that is not rolled back leaves behind is the wallet of the handler.
theorem applyHandler_of_isOk {type : OutboxEventType} {payload : OutboxPayload} {now : Time}
    {outcome : Outcome AppError} (ho : ∀ err, outcome ≠ .rolledBack err)
    (h : (db.applyAndMark E type payload now).isOk) : applyHandler db.wallet type payload =
      .ok (Stmt.exec (.applyAndMark E type payload now outcome) db).snd.wallet := by
  cases hr : db.applyAndMark E type payload now
  case error => rw [hr] at h; contradiction
  case ok db' =>
    have ⟨wallet, hw, hu⟩ := Store.applyAndMark_ok hr
    have hdb : db'.wallet = wallet := Store.update_wallet hu
    cases outcome
    case rolledBack err => exact absurd rfl <| ho err
    all_goals rw [Stmt.exec, hr, hw, ← hdb]; rfl

-- An event that has not been there before is a new one.
theorem fresh_of_exec (h : db.events.find? E = none)
    (h' : (Stmt.exec x db).snd.events.find? E = some e') :
    e'.status = .pending ∧ e'.attempts = 0 := by
  have absent {f : OutboxEvent → OutboxEvent} {E' : OutboxEventId} {db' : Store}
      (hu : db'.events.find? E = if E = E' then (db.events.find? E').map f else db.events.find? E) :
      db'.events.find? E ≠ some e' := by
    rw [hu]
    split
    case isTrue he => rw [← he, h]; exact nofun
    case isFalse   => rw [h]; exact nofun
  have gone {p : OutboxEventId → OutboxEvent → Bool} {f : OutboxEvent → OutboxEvent} :
      (db.events.updateMany p f).find? E ≠ some e' := by
    rw [Table.find?_updateMany, h]; exact nofun
  have kept : db.events.find? E ≠ some e' := by rw [h]; exact nofun
  cases x <;> simp only [Stmt.exec] at h'
  case enqueue E' event =>
    cases hr : db.enqueue E' event <;> rw [hr] at h'
    case error => exact absurd h' kept
    case ok    =>
      obtain ⟨_, e, hs, ha, hf⟩ := Store.find?_enqueue hr
      simp only [Stmt.commit, hf, h] at h'
      split at h'
      case isTrue  => obtain rfl := Option.some.inj h'; exact ⟨hs, ha⟩
      case isFalse => contradiction
  case claim E' now =>
    rw [Table.find?_cas] at h'
    split at h'
    case isTrue he => subst he; rw [h] at h'; contradiction
    case isFalse   => exact absurd h' kept
  case applyAndMark E' type payload now outcome =>
    have marked : (Stmt.commit db <| db.applyAndMark E' type payload now).snd.events.find? E ≠
        some e' := by
      cases hr : db.applyAndMark E' type payload now
      case error => exact kept
      case ok    => exact absent <| Store.find?_applyAndMark hr
    cases outcome
    case committed  => exact absurd h' marked
    case rolledBack => exact absurd h' kept
    case lost       => exact absurd h' marked
  case markProcessed E' now =>
    cases hr : db.update E' (·.markProcessed now) <;> rw [hr] at h'
    case error => exact absurd h' kept
    case ok    => exact absurd h' <| absent <| Store.find?_update hr
  case noteError E' err =>
    cases hr : db.update E' ({ · with lastError := some err }) <;> rw [hr] at h'
    case error => exact absurd h' kept
    case ok    => exact absurd h' <| absent <| Store.find?_update hr
  case failExhausted => exact absurd h' gone
  case requeueStale  => exact absurd h' gone
  case requeueFailed => exact absurd h' gone
  all_goals exact absurd h' kept

end

-- What an event satisfies at any time.
structure Sound (L : OutboxLimits) (e : OutboxEvent) : Prop where
  attempts : e.attempts ≤ L.maxRecoveryAttempts
  pending  : e.status = .pending → e.attempts < L.maxRecoveryAttempts
  claimed  : e.status = .processing ∨ e.status = .failed → e.claimedAt.isSome

-- The entry has applied the handler to an event of the given kind: its transaction has been
-- committed, and the wallet is what the handler has made of it, or the handler has run into a key that
-- it had used before.
def Applies (E : OutboxEventId) (type : OutboxEventType) (payload : OutboxPayload)
    (r : Entry Stmt.sig Store Call) : Prop :=
  ∃ now outcome, r.stmt = .applyAndMark E type payload now outcome ∧
    let (answer, db) := Stmt.exec (.applyAndMark E type payload now outcome) r.pre
    ((∀ err, outcome ≠ .rolledBack err) ∧ (r.pre.applyAndMark E type payload now).isOk ∧
        applyHandler r.pre.wallet type payload = .ok db.wallet ∨
      ∃ c, answer = .error (.p2002 c))

-- The thread has read an event of the given kind.
def Found (E : OutboxEventId) (type : OutboxEventType) (payload : OutboxPayload) (es : Log) : Prop :=
  ∃ r ∈ es, r.stmt = .find E ∧
    ∃ e, r.pre.events.find? E = some e ∧ e.eventType = type ∧ e.payload = payload

-- The rules that the calls follow.
def Rules (L : OutboxLimits) (x : Stmt) (es : Log) : Prop :=
  match x with
  | .requeueStale _ n              => n = L.maxAttempts
  | .requeueFailed _ n             => n = L.maxRecoveryAttempts
  | .applyAndMark E type payload _ _ => Found E type payload es
  | .markProcessed E _             =>
    ∃ type payload, Found E type payload es ∧ ∃ r ∈ es, Applies E type payload r
  | _                              => True

section

variable {L : OutboxLimits} {t : Nat} {c : Call} {es : Log} {E : OutboxEventId}

theorem Found.cons {type : OutboxEventType} {payload : OutboxPayload}
    {r : Entry Stmt.sig Store Call} (h : Found E type payload es) :
    Found E type payload (r :: es) := by
  obtain ⟨r', hr, h⟩ := h
  exact ⟨r', .tail _ hr, h⟩

-- A call that follows the rules, whatever its result.
abbrev Obeys (L : OutboxLimits) (t : Nat) (c : Call) (p : App Unit) (es : Log) : Prop :=
  p.Follows (system L) t c (Rules L) (fun _ _ => True) (fun _ _ => True) es

theorem obeys_update {x : Stmt} {f : x.Res → Except AppError Unit} {o : Outcome AppError}
    (h : Rules L x es) : Obeys L t c (((App.tx x f).attempt o).safe) es := by
  refine Method.follows_safe.mpr <| Method.follows_attempt <| Method.follows_tx.mpr ⟨h, fun _ => ?_⟩
  split <;> trivial

-- A failure of the handler that is due to a used key is the only one after which the event is marked.
theorem obeys_processFailed {faults : ProcessFaults} {type : OutboxEventType}
    {payload : OutboxPayload} {err : AppError} (hf : Found E type payload es)
    (hr : ∀ c, err = .p2002 c → ∃ r ∈ es, Applies E type payload r) :
    Obeys L t c (OutboxService.processFailed E faults err) es := by
  unfold OutboxService.processFailed
  split
  case isTrue h =>
    obtain ⟨c, rfl⟩ : ∃ c, err = .p2002 c := by cases err <;> simp_all [AppError.isUniqueViolation]
    refine Method.follows_stmt_bind.mpr ⟨trivial, fun _ => obeys_update ?_⟩
    obtain ⟨r, hr, ha⟩ := hr c rfl
    exact ⟨type, payload, hf.cons, r, .tail _ hr, ha⟩
  case isFalse => exact obeys_update trivial

theorem obeys_processOne {faults : ProcessFaults} :
    Obeys L t c (OutboxService.processOne E faults) es := by
  refine Method.follows_stmt_bind.mpr ⟨trivial, fun _ => ?_⟩
  refine Method.follows_stmt_bind.mpr ⟨trivial, fun _ => ?_⟩
  split
  case isTrue  => trivial
  case isFalse =>
    refine Method.follows_stmt_bind.mpr ⟨trivial, fun db => ?_⟩
    split
    case h_1          => trivial
    case h_2 event he =>
      refine Method.follows_stmt_bind.mpr ⟨trivial, fun _ => ?_⟩
      have hf {es : Log} : Found E event.eventType event.payload (⟨t, c, .find E, db⟩ :: es) :=
        ⟨_, List.mem_cons_self, rfl, event, he, rfl, rfl⟩
      refine Method.follows_handle.mpr <| Method.follows_tx.mpr ⟨hf.cons, fun db' => ?_⟩
      split
      case h_1          => trivial
      case h_2 err herr =>
        refine obeys_processFailed hf.cons.cons fun c hc => ?_
        exact ⟨_, List.mem_cons_self, _, _, rfl, .inr ⟨c, herr.trans <| by rw [hc]⟩⟩

theorem obeys_processAll {faults : OutboxEventId → ProcessFaults} {Es : List OutboxEventId} :
    Obeys L t c (OutboxService.processAll faults Es) es := by
  induction Es generalizing es
  case nil        => trivial
  case cons E Es ih =>
    exact Method.follows_bind.mpr <| obeys_processOne.mono (fun _ _ _ => ih) fun _ _ _ => trivial

theorem follows_rules (L : OutboxLimits) (t : Nat) (c : Call) :
    ((system L).prog t c).Follows (system L) t c (Rules L) (fun _ _ => True) [] := by
  cases c <;> refine Method.follows_toCall.mpr ?_
  case enqueue =>
    refine Method.follows_attempt <| Method.follows_tx.mpr ⟨trivial, fun _ => ?_⟩
    split <;> trivial
  case dispatchDue =>
    refine Method.follows_bind.mpr <| Method.follows_stmt_bind.mpr ⟨trivial, fun _ => ?_⟩
    refine Method.follows_stmt_bind.mpr ⟨trivial, fun _ => ⟨rfl, fun _ => ?_⟩⟩
    refine Method.follows_bind.mpr <| Method.follows_stmt_bind.mpr ⟨trivial, fun _ => ⟨rfl, fun _ => ?_⟩⟩
    exact Method.follows_stmt_bind.mpr ⟨trivial, fun _ => obeys_processAll⟩
  case passTime => exact ⟨trivial, fun _ => trivial⟩

end

section

variable {L : OutboxLimits} {db : Store} {E : OutboxEventId} {x : Stmt} {e e' : OutboxEvent}
variable {es : Log} {P : Policy Stmt.sig Store Call} {init : Store → Prop}
variable {s : Pool Stmt.sig Store Call}

theorem Sound.move (h : Sound L e) (hL : L.maxAttempts ≤ L.maxRecoveryAttempts)
    (hm : Moves db E x e e') (hr : Rules L x es) : Sound L e' := by
  cases hm
  case keep hs ha hc _ _ =>
    exact ⟨ha ▸ h.attempts, by rw [hs, ha]; exact h.pending, by rw [hs, hc]; exact h.claimed⟩
  case claim hs   => exact ⟨h.pending hs, nofun, fun _ => rfl⟩
  case apply      => exact ⟨h.attempts, nofun, nofun⟩
  case mark       => exact ⟨h.attempts, nofun, nofun⟩
  case fail hs _  => exact ⟨h.attempts, nofun, fun _ => h.claimed <| .inl hs⟩
  case reap ha    =>
    obtain rfl : _ = L.maxAttempts := hr
    exact ⟨h.attempts, fun _ => Nat.lt_of_lt_of_le ha hL, nofun⟩
  case recover ha =>
    obtain rfl : _ = L.maxRecoveryAttempts := hr
    exact ⟨h.attempts, fun _ => ha, nofun⟩

theorem Moves.processed (h : Moves db E x e e') (hs : e.status = .processed) :
    e'.status = .processed := by
  cases h
  case keep hk _ _ _ _ => exact hk.trans hs
  case apply           => rfl
  case mark            => rfl
  all_goals simp_all

-- The kind of an event is the one that a thread has read.
theorem kind_of_found {type : OutboxEventType} {payload : OutboxPayload} {t : Nat}
    (h : Reachable (system L) P init s) (hf : Found E type payload (s.world.own t))
    (he : s.db.events.find? E = some e) : e.eventType = type ∧ e.payload = payload := by
  obtain ⟨r, hr, hs, e₀, he₀, ht, hp⟩ := hf
  obtain ⟨_, newer, older, hl⟩ := World.mem_own hr
  let I (db : Store) := ∃ e, db.events.find? E = some e ∧ e.eventType = type ∧ e.payload = payload
  have step {r : Entry Stmt.sig Store Call} : I r.pre → I (r.post <| system L) := by
    rintro ⟨e, he, ht, hp⟩
    obtain ⟨e', he', hm⟩ := moves_exec (x := r.stmt) he
    exact ⟨e', he', hm.kind.left.trans ht, hm.kind.right.trans hp⟩
  obtain ⟨e', he', hk⟩ : I s.db :=
    h.since (I := fun _ => I) hl (step ⟨e₀, he₀, ht, hp⟩) fun h => step h
  obtain rfl := Option.some.inj <| he.symm.trans he'
  exact hk

end

-- There may be new events at the beginning.
def Store.Initial (db : Store) : Prop :=
  ∀ E e, db.events.find? E = some e → e.status = .pending ∧ e.attempts = 0

-- The store in which a dispatcher that runs alone looks for events.
def recovered (L : OutboxLimits) (db : Store) : Store :=
  let recover : App Unit := do
    OutboxService.reapStaleClaims L
    OutboxService.requeueRecoverableFailed L
  (recover.eval Stmt.exec db).snd

-- No event is lost, stuck or retried for ever.
structure Accounted (L : OutboxLimits) (s : Pool Stmt.sig Store Call) : Prop where
  attempts : ∀ E e, s.db.events.find? E = some e → e.attempts ≤ L.maxRecoveryAttempts
  claimed  : ∀ E e, s.db.events.find? E = some e → e.status = .processing ∨ e.status = .failed →
    e.claimedAt.isSome
  -- An event that may still be retried is due, or it will be once its latest claim is old enough.
  recovers : ∀ E e, s.db.events.find? E = some e → e.status ≠ .processed →
    e.attempts < L.maxRecoveryAttempts → e.status = .pending ∨
      ∃ claimedAt, e.claimedAt = some claimedAt ∧
        ∀ now, claimedAt + L.claimLeaseMs < now → claimedAt + L.recoveryBackoffMs < now →
          ∃ e', (recovered L { s.db with clock := now }).events.find? E = some e' ∧
            e'.status = .pending
  final    : ∀ newer r older E e, s.log = newer ++ r :: older → r.pre.events.find? E = some e →
    e.status = .processed → ∃ e', s.db.events.find? E = some e' ∧ e'.status = .processed
  applied  : ∀ E e, s.db.events.find? E = some e → e.status = .processed →
    ∃ r ∈ s.log, Applies E e.eventType e.payload r

section

variable {L : OutboxLimits} {s : Pool Stmt.sig Store Call}

theorem sound_of_fresh {e : OutboxEvent} (hL : L.maxAttempts ≤ L.maxRecoveryAttempts)
    (h : e.status = .pending ∧ e.attempts = 0) : Sound L e := by
  have hpos : 0 < L.maxRecoveryAttempts := Nat.lt_of_lt_of_le L.maxAttempts_pos hL
  refine ⟨h.right ▸ Nat.zero_le _, fun _ => h.right ▸ hpos, ?_⟩
  rw [h.left]
  exact nofun

theorem all_sound (hL : L.maxAttempts ≤ L.maxRecoveryAttempts)
    (h : Reachable (system L) {} Store.Initial s) :
    ∀ E e, s.db.events.find? E = some e → Sound L e := by
  refine h.invariant (I := fun w => ∀ E e, w.db.events.find? E = some e → Sound L e)
    (fun hi E e he => sound_of_fresh hL <| hi E e he) fun {s t c x} st ih E e' he' => ?_
  cases he : s.db.events.find? E
  case none   => exact sound_of_fresh hL <| fresh_of_exec he he'
  case some e =>
    obtain ⟨e'', he'', hm⟩ := moves_exec (x := x) he
    obtain rfl := Option.some.inj <| he'.symm.trans he''
    exact (ih E e he).move hL hm <|
      st.reachable.follows_aboutTo (fun t c _ => follows_rules L t c) st.aboutTo

theorem all_applied (h : Reachable (system L) {} Store.Initial s) :
    ∀ E e, s.db.events.find? E = some e → e.status = .processed →
      ∃ r ∈ s.log, Applies E e.eventType e.payload r := by
  refine h.invariant (I := fun w => ∀ E e, w.db.events.find? E = some e → e.status = .processed →
    ∃ r ∈ w.log, Applies E e.eventType e.payload r) (fun hi E e he hs => ?_)
    fun {s t c x} st ih E e' he' hs => ?_
  case refine_1 =>
    rw [(hi E e he).left] at hs
    contradiction
  case refine_2 =>
    have hr := st.reachable.follows_aboutTo (fun t c _ => follows_rules L t c) st.aboutTo
    cases he : s.db.events.find? E
    case none   =>
      rw [(fresh_of_exec he he').left] at hs
      contradiction
    case some e =>
      obtain ⟨e'', he'', hm⟩ := moves_exec (x := x) he
      obtain rfl := Option.some.inj <| he'.symm.trans he''
      have keep (hs : e.status = .processed) :
          ∃ r ∈ (s.world.exec (system L) t c x).log, Applies E e'.eventType e'.payload r := by
        obtain ⟨r, hr, ha⟩ := ih E e he hs
        rw [hm.kind.left, hm.kind.right]
        exact ⟨r, .tail _ hr, ha⟩
      cases hm
      case keep hk _ _ _ _ => exact keep <| hk.symm.trans hs
      case apply type payload now outcome ho hok =>
        obtain ⟨rfl, rfl⟩ := kind_of_found st.reachable hr he
        exact ⟨_, List.mem_cons_self, now, outcome, rfl, .inl ⟨ho, hok, applyHandler_of_isOk ho hok⟩⟩
      case mark =>
        obtain ⟨type, payload, hf, r, hr, ha⟩ := hr
        obtain ⟨rfl, rfl⟩ := kind_of_found st.reachable hf he
        exact ⟨r, .tail _ (List.mem_filter.mp hr).left, ha⟩
      all_goals contradiction

-- A processed event stays as it is.
theorem processed_since {P : Policy Stmt.sig Store Call} {init : Store → Prop} {newer older : Log}
    {r : Entry Stmt.sig Store Call} {E : OutboxEventId} {e : OutboxEvent}
    (h : Reachable (system L) P init s) (hl : s.log = newer ++ r :: older)
    (he : r.pre.events.find? E = some e) (hs : e.status = .processed) :
    ∃ e', s.db.events.find? E = some e' ∧ e'.status = .processed := by
  let I (db : Store) := ∃ e, db.events.find? E = some e ∧ e.status = .processed
  have step {r : Entry Stmt.sig Store Call} : I r.pre → I (r.post <| system L) := by
    rintro ⟨e, he, hs⟩
    obtain ⟨e', he', hm⟩ := moves_exec (x := r.stmt) he
    exact ⟨e', he', hm.processed hs⟩
  exact h.since (I := fun _ => I) hl (step ⟨e, he, hs⟩) fun h => step h

theorem events_recovered {db : Store} : (recovered L db).events =
    ((db.events.updateMany (Stmt.exhausted (db.clock - L.claimLeaseMs) L.maxAttempts) (·.fail)
      |>.updateMany (Stmt.stale (db.clock - L.claimLeaseMs) L.maxAttempts) (·.requeue))
      |>.updateMany (Stmt.recoverable (db.clock - L.recoveryBackoffMs) L.maxRecoveryAttempts)
        (·.requeue)) :=
  rfl

-- A dispatcher requeues every event that may be retried once its latest claim is old enough.
theorem requeued {db : Store} {E : OutboxEventId} {e : OutboxEvent} {claimedAt : Time}
    (he : db.events.find? E = some e)
    (hs : e.status = .processing ∨ e.status = .failed) (ha : e.attempts < L.maxRecoveryAttempts)
    (hc : e.claimedAt = some claimedAt) (hl : claimedAt + L.claimLeaseMs < db.clock)
    (hb : claimedAt + L.recoveryBackoffMs < db.clock) :
    ∃ e', (recovered L db).events.find? E = some e' ∧ e'.status = .pending := by
  have hl : claimedAt < db.clock - L.claimLeaseMs := by simp only [Time] at *; omega
  have hb : claimedAt < db.clock - L.recoveryBackoffMs := by simp only [Time] at *; omega
  rw [events_recovered, Table.find?_updateMany, Table.find?_updateMany, Table.find?_updateMany, he]
  refine ⟨_, rfl, ?_⟩
  -- The claim is either returned at once, or the event passes through `failed`.
  by_cases hm : e.attempts < L.maxAttempts <;> obtain hs | hs := hs
  case pos.inl => simp [Stmt.exhausted, Stmt.stale, OutboxEvent.claimedBefore,
    OutboxEvent.requeue, Stmt.recoverable, hs, hc, hl, hm, Nat.not_le.mpr hm]
  case pos.inr => simp [Stmt.exhausted, Stmt.stale, OutboxEvent.claimedBefore,
    OutboxEvent.requeue, Stmt.recoverable, hs, hc, hb, ha]
  case neg.inl => simp [Stmt.exhausted, Stmt.stale, OutboxEvent.claimedBefore, OutboxEvent.fail,
    OutboxEvent.requeue, Stmt.recoverable, hs, hc, hl, hb, ha, Nat.not_lt.mp hm]
  case neg.inr => simp [Stmt.exhausted, Stmt.stale, OutboxEvent.claimedBefore,
    OutboxEvent.requeue, Stmt.recoverable, hs, hc, hb, ha]

end

theorem outbox_accounted {L : OutboxLimits} {s : Pool Stmt.sig Store Call}
    (hL : L.maxAttempts ≤ L.maxRecoveryAttempts)
    (h : Reachable (system L) {} Store.Initial s) : Accounted L s where
  attempts E e he    := (all_sound hL h E e he).attempts
  claimed E e he hs  := (all_sound hL h E e he).claimed hs
  recovers E e he hs ha := by
    by_cases hp : e.status = .pending
    case pos => exact .inl hp
    case neg =>
      have hs : e.status = .processing ∨ e.status = .failed := by cases hc : e.status <;> simp_all
      obtain ⟨claimedAt, hc⟩ := Option.isSome_iff_exists.mp <| (all_sound hL h E e he).claimed hs
      refine .inr ⟨claimedAt, hc, fun now hl hb => ?_⟩
      exact @requeued _ { s.db with clock := now } _ _ _ he hs ha hc hl hb
  final _ _ _ _ _ hl he hs := processed_since h hl he hs
  applied               := all_applied h

-- An outbox without events, and a user who was referred by another one.
theorem Store.users : ([1, 2] : List UserId).Nodup := by
  decide

theorem Store.referees : ([1] : List UserId).Nodup := by
  decide

def Store.small : Store where
  clock  := 0
  events := .empty
  wallet := {
    balances  := ⟨[(1, 0), (2, 0)], Store.users⟩
    ledger    := .empty
    referrals := ⟨[(1, { id := 1, referrerId := 2, status := .pending })], Store.referees⟩
  }

theorem Store.small_initial : Store.small.Initial :=
  fun _ _ => nofun

def referralEvent : OutboxEnqueue where
  eventType      := .referralReward
  payload        := { refereeUserId := some 1 }
  idempotencyKey := "referral:1"

-- The first attempt to apply an event fails. It is retried after the lease, and succeeds.
def retriedRun : List (Cmd Call) :=
  List.flatten [
    Cmd.run 1 (.enqueue referralEvent .committed) 1,
    Cmd.run 2 (.dispatchDue fun _ => { apply := .rolledBack .connectionLost }) 12,
    Cmd.run 3 (.passTime 60001) 1, Cmd.run 4 (.dispatchDue fun _ => {}) 11]

theorem outbox_accounted_retried :
    ∃ s e, Reachable (system .default) {} Store.Initial s ∧ s.db.events.find? 1 = some e ∧
      e.status = .processed ∧ e.attempts = 2 ∧ Accounted .default s := by
  let s := (Pool.init .small).runCmds (system .default) retriedRun
  have h : Reachable (system .default) {} Store.Initial s :=
    Reachable.runCmds_of_free retriedRun <| .init Store.small_initial
  have hs : (s.db.events.find? 1).any fun e => e.status = .processed ∧ e.attempts = 2 := by
    decide +kernel
  cases he : s.db.events.find? 1
  case none   => rw [he] at hs; contradiction
  case some e =>
    rw [he] at hs
    obtain ⟨hs, ha⟩ := of_decide_eq_true hs
    exact ⟨s, e, h, he, hs, ha, outbox_accounted (by decide) h⟩

end Drovery.Outbox
