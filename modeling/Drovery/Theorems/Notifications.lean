import Drovery.Concurrency.Local
import Drovery.Services.Notifications

namespace Drovery.Notifications

open Concurrency NotificationsService

abbrev Log := List (Entry Stmt.sig Store Call)

section

variable {α : Type} {xs : List α}

theorem flatten_slices (n k : Nat) :
    ((List.range k).map fun i => (xs.drop (n * i)).take n).flatten = xs.take (n * k) := by
  induction k
  case zero => simp
  case succ k ih => simp [List.range_succ, ih, Nat.mul_succ, List.take_add]

-- The chunks are what they have been cut out of.
theorem flatten_chunks (xs : List α) : (chunks xs).flatten = xs := by
  rw [chunks, flatten_slices]
  apply List.take_of_length_le
  simp only [expoPushChunkSize]
  omega

theorem length_of_mem_chunks {chunk : List α} (h : chunk ∈ chunks xs) :
    0 < chunk.length ∧ chunk.length ≤ expoPushChunkSize := by
  obtain ⟨i, hi, he⟩ := List.mem_map.mp h
  have hi := List.mem_range.mp hi
  subst he
  simp only [List.length_take, List.length_drop, expoPushChunkSize] at hi ⊢
  omega

end

section

variable (e : Entry Stmt.sig Store Call) (db : Store) (U : UserId)

-- The tokens that an entry has sent a message to, and those that are said to be dead in return.
def addressed : List String :=
  match e.stmt with
  | .push messages _ => messages.map (·.pushToken)
  | _                => []

def died : List String :=
  match e.stmt with
  | .push messages response => deadTokens (messages.map (·.pushToken)) response
  | _                       => []

def expoTokens : List String :=
  (db.tokensOf U).filter isExpoToken

def preferencesOf : NotificationPreference :=
  (db.preferences.find? U).getD .default

end

-- The same for a whole log, in the order of time.
def sent : Log → List String
  | []      => []
  | e :: es => sent es ++ addressed e

def dead : Log → List String
  | []      => []
  | e :: es => dead es ++ died e

-- The call has read from the database that its message may be sent.
def Allowed (U : UserId) (category : NotificationCategory) (hour : Nat) (es : Log) : Prop :=
  ∃ f ∈ es, f.stmt = .findPreferences U none ∧ shouldSendPush (preferencesOf f.pre U) category hour

-- The call continues with some messages where it has left off.
structure Continues (U : UserId) (title body : String) (data : Option Json)
    (ms : List PushMessage) (es : Log) : Prop where
  messages : ms = messages title body data (ms.map (·.pushToken))
  nonempty : 0 < ms.length
  bounded  : ms.length ≤ expoPushChunkSize
  tokens   : ∃ d ∈ es, d.stmt = .findDevices U none ∧
    sent es ++ ms.map (·.pushToken) <+: expoTokens d.pre U

-- A window of quiet hours has two ends, or none.
def Paired (p : NotificationPreference) : Prop :=
  p.quietHoursStart.isNone = p.quietHoursEnd.isNone

-- What a call has done before it issues a statement.
def Earlier (c : Call) (x : Stmt) (es : Log) : Prop :=
  match x with
  | .push ms _               => ∃ U title body data category hour faults,
    c = .create U title body data category hour faults ∧ Allowed U category hour es ∧
      Continues U title body data ms es
  | .deleteDevices U tokens  => ∃ title body data category hour faults,
    c = .create U title body data category hour faults ∧ tokens = dead es
  | .upsertPreferences U dto => ∃ f ∈ es, f.stmt = .findPreferences U none ∧
    Paired ((preferencesOf f.pre U).update dto)
  | _                        => True

-- Once a call has read the devices, it has addressed all of them, unless a request was not
-- answered.
def Complete (U : UserId) (es : Log) : Prop :=
  ∀ d ∈ es, d.stmt = .findDevices U none →
    (∃ p ∈ es, ∃ ms, p.stmt = .push ms .error) ∨ sent es = expoTokens d.pre U

section

variable {t : Nat} {c : Call} {es : Log} {U : UserId} {title body : String} {data : Option Json}
variable {category : NotificationCategory} {hour : Nat} {faults : Faults}

-- A device is identified by its user and its token.
theorem expoTokens_nodup (db : Store) (U : UserId) : (expoTokens db U).Nodup := by
  have hk : ((db.devices.findMany fun d _ => d.fst = U).map Prod.fst).Nodup :=
    db.devices.nodup.sublist <| List.filter_sublist.map _
  have tokens : db.tokensOf U =
      ((db.devices.findMany fun d _ => d.fst = U).map Prod.fst).map Prod.snd := by
    rw [List.map_map]
    rfl
  rw [expoTokens, tokens]
  refine List.Nodup.filter _ <| List.Nodup.map_on (fun d hd e he h => ?_) hk
  have owned {d : UserId × String}
      (hd : d ∈ (db.devices.findMany fun d _ => d.fst = U).map Prod.fst) : d.fst = U := by
    obtain ⟨r, hr, rfl⟩ := List.mem_map.mp hd
    exact of_decide_eq_true (List.mem_filter.mp hr).right
  exact Prod.ext ((owned hd).trans (owned he).symm) h

theorem map_messages {chunk : List String} :
    (messages title body data chunk).map (·.pushToken) = chunk := by
  simp [messages, Function.comp_def]

theorem sendChunks_follows {responses : Nat → Response} {cs : List (List String)} {i : Nat}
    {d : Entry Stmt.sig Store Call}
    (hc : c = .create U title body data category hour faults) (ha : Allowed U category hour es)
    (hd : d ∈ es) (hx : d.stmt = .findDevices U none)
    (ht : sent es ++ cs.flatten <+: expoTokens d.pre U)
    (hl : ∀ chunk ∈ cs, 0 < chunk.length ∧ chunk.length ≤ expoPushChunkSize) :
    (sendChunks title body data responses i cs).Follows system t c (Earlier c)
      (fun ts es' => es <:+ es' ∧ dead es' = dead es ++ ts ∧ sent es' = sent es ++ cs.flatten ∧
        ∀ e ∈ es', e ∈ es ∨ ∃ ms response, e.stmt = .push ms response)
      (fun _ es' => (∃ p ∈ es', ∃ ms, p.stmt = .push ms .error)) es := by
  induction cs generalizing i es
  case nil => exact ⟨List.suffix_refl _, by simp, by simp, fun e he => .inl he⟩
  case cons chunk cs ih =>
    have hb := hl chunk <| .head _
    rw [List.flatten_cons, ← List.append_assoc] at ht
    apply Method.follows_bind.mpr
    apply Method.follows_tx.mpr
    constructor
    case left =>
      refine ⟨U, title, body, data, category, hour, faults, hc, ha, ?_⟩
      constructor
      case messages => rw [map_messages]
      case nonempty => simpa [messages] using hb.left
      case bounded  => simpa [messages] using hb.right
      case tokens   => exact ⟨d, hd, hx, map_messages ▸ (List.prefix_append ..).trans ht⟩
    case right =>
      intro db
      simp only [system, Stmt.exec]
      generalize responses i = response
      cases response
      case error => exact ⟨_, .head _, _, rfl⟩
      case answered ok json =>
        apply Method.follows_bind.mpr
        have hs : sent (⟨t, c, .push (messages title body data chunk) (.answered ok json), db⟩ ::
            es) = sent es ++ chunk := by simp [sent, addressed, map_messages]
        have ⟨f, hf, hfx⟩ := ha
        apply (ih ⟨f, .tail _ hf, hfx⟩ (.tail _ hd) (by rwa [hs]) fun _ h => hl _ <| .tail _ h).mono
        case hE => exact fun _ _ => id
        case hQ =>
          intro ts es' ⟨hsuf, hdead, hsent, hold⟩
          refine ⟨(List.suffix_cons _ _).trans hsuf, ?_, ?_, ?_⟩
          case refine_1 => simp [hdead, dead, died, map_messages]
          case refine_2 => rw [hsent, hs, List.append_assoc, List.flatten_cons]
          case refine_3 =>
            intro e he
            cases hold e he
            case inr h => exact .inr h
            case inl h =>
              cases h
              case head => exact .inr ⟨_, _, rfl⟩
              case tail h => exact .inl h

-- What a call has done by the time at which it is about to read the devices.
structure Fresh (es : Log) : Prop where
  devices : ∀ e ∈ es, ∀ U fault, e.stmt ≠ .findDevices U fault
  sent    : sent es = []
  dead    : dead es = []

-- Until a call has read the devices, there is nothing that it would have to send.
theorem Fresh.complete {x : Stmt} {db : Store} (h : Fresh es)
    (hx : x ≠ .findDevices U none) : Complete U (⟨t, c, x, db⟩ :: es) := by
  intro e he hd
  cases he
  case head    => exact (hx hd).elim
  case tail hm => exact (h.devices e hm U none hd).elim

theorem sendPushToUser_follows (hc : c = .create U title body data category hour faults)
    (ha : Allowed U category hour es) (hf : Fresh es) :
    (sendPushToUser U title body data faults).Follows system t c (Earlier c)
      (fun _ => Complete U) (fun _ => Complete U) es := by
  unfold sendPushToUser
  apply Method.follows_safe.mpr
  apply Method.follows_bind.mpr
  apply Method.follows_tx.mpr
  constructor
  case left => trivial
  case right =>
    intro db
    cases faults.devices
    case some error => exact hf.complete (by simp)
    case none =>
      let d : Entry Stmt.sig Store Call := ⟨t, c, .findDevices U none, db⟩
      have hsent : sent (d :: es) = [] := by simp [sent, addressed, hf.sent, d]
      have hdead : dead (d :: es) = [] := by simp [dead, died, hf.dead, d]
      have complete {es' : Log}
          (hold : ∀ e ∈ es', e ∈ d :: es ∨ ∀ fault, e.stmt ≠ .findDevices U fault)
          (hs : (∃ p ∈ es', ∃ ms, p.stmt = .push ms .error) ∨ sent es' = expoTokens db U) :
          Complete U es' := by
        intro e he hx
        cases hold e he
        case inr h => exact (h none hx).elim
        case inl h =>
          cases h
          case head   => exact hs
          case tail h => exact (hf.devices e h U none hx).elim
      simp only [system, Stmt.exec, id_eq]
      split
      case isTrue ht => exact complete (fun _ he => .inl he) <| .inr <| hsent.trans ht.symm
      case isFalse =>
        apply Method.follows_bind.mpr
        have ha' : Allowed U category hour (d :: es) := by
          have ⟨f, hm, hx⟩ := ha
          exact ⟨f, .tail _ hm, hx⟩
        have hpre : sent (d :: es) ++ (chunks <| expoTokens db U).flatten <+:
            expoTokens d.pre U := by
          rw [hsent, flatten_chunks]
          exact List.prefix_refl _
        apply (sendChunks_follows hc ha' (.head _) rfl hpre fun _ => length_of_mem_chunks).mono
        case hE => exact fun _ es' h _ _ _ => .inl h
        case hQ =>
          intro ts es' ⟨_, hts, hs, hold⟩
          rw [hsent, List.nil_append, flatten_chunks] at hs
          rw [hdead, List.nil_append] at hts
          have hold' : ∀ e ∈ es', e ∈ d :: es ∨ ∀ fault, e.stmt ≠ .findDevices U fault := by
            intro e he
            apply (hold e he).imp id
            intro ⟨ms, response, hx⟩ fault
            simp [hx]
          split
          case isFalse => exact complete hold' <| .inr hs
          case isTrue =>
            apply Method.follows_safe.mpr
            have reap {Q : Unit → Log → Prop} {E : AppError → Log → Prop}
                (h : ∀ db', Q () (⟨t, c, .deleteDevices U ts, db'⟩ :: es')) :
                (App.stmt <| .deleteDevices U ts).Follows system t c (Earlier c) (fun _ => Q ()) E
                  es' :=
              Method.follows_tx.mpr
                ⟨⟨title, body, data, category, hour, faults, hc, hts.symm⟩, fun db' => h db'⟩
            have after (db' : Store) : Complete U (⟨t, c, .deleteDevices U ts, db'⟩ :: es') := by
              apply complete
              case hold =>
                intro e he
                cases he
                case head   => exact .inr fun _ hx => by cases hx
                case tail h => exact hold' e h
              case hs => exact .inr <| by simpa [sent, addressed] using hs
            cases faults.reap
            case committed  => exact reap (Q := fun _ => Complete U) after
            case rolledBack => exact complete hold' <| .inr hs
            case lost =>
              exact Method.follows_bind.mpr <| reap (Q := fun _ => Complete U) after

theorem maybeSendPush_follows (hc : c = .create U title body data category hour faults)
    (hf : Fresh es) :
    (maybeSendPush U title body data category hour faults).Follows system t c (Earlier c)
      (fun _ => Complete U) (fun _ => Complete U) es := by
  apply Method.follows_safe.mpr
  apply Method.follows_bind.mpr
  apply Method.follows_tx.mpr
  constructor
  case left => trivial
  case right =>
    intro db
    cases faults.preferences
    case some error => exact hf.complete (by simp)
    case none =>
      simp only [system, Stmt.exec, Except.map]
      split
      case isFalse => exact hf.complete (by simp)
      case isTrue hs =>
        have ha : Allowed U category hour (⟨t, c, .findPreferences U none, db⟩ :: es) :=
          ⟨_, .head _, rfl, hs⟩
        apply sendPushToUser_follows hc ha
        constructor
        case devices =>
          intro e he U' fault hx
          cases he
          case head   => cases hx
          case tail h => exact hf.devices e h U' fault hx
        case sent => simp [sent, addressed, hf.sent]
        case dead => simp [dead, died, hf.dead]

theorem call_follows : (c.prog t).Follows system t c (Earlier c)
    (fun _ es => ∀ U title body data category hour faults,
      c = .create U title body data category hour faults → Complete U es) [] := by
  cases c <;> apply Method.follows_toCall.mpr
  case create U title body data category hour faults =>
    apply Method.follows_stmt_bind.mpr
    constructor
    case left => trivial
    case right =>
      intro db
      have hf : Fresh [⟨t, .create U title body data category hour faults,
          .createNotification t { userId := U, title, body, data }, db⟩] := ⟨by simp, rfl, rfl⟩
      have done {es : Log} (h : Complete U es) : ∀ U' title' body' data' category' hour' faults',
          Call.create U title body data category hour faults =
            .create U' title' body' data' category' hour' faults' → Complete U' es := by
        intro _ _ _ _ _ _ _ he
        cases he
        exact h
      exact (maybeSendPush_follows rfl hf).mono (fun _ _ => done) fun _ _ => done
  case updatePreferences U dto fault =>
    apply Method.follows_bind.mpr
    apply Method.follows_tx.mpr
    constructor
    case left => trivial
    case right =>
      intro db
      cases fault
      case some error => exact fun _ _ _ _ _ _ _ he => by cases he
      case none =>
        simp only [system, Stmt.exec, Except.map]
        split
        case isTrue => exact fun _ _ _ _ _ _ _ he => by cases he
        case isFalse hp =>
          apply Method.follows_tx.mpr
          exact ⟨⟨_, .head _, rfl, not_not.mp hp⟩, fun _ _ _ _ _ _ _ _ he => by cases he⟩
  case registerDevice =>
    apply Method.follows_tx.mpr
    exact ⟨trivial, fun _ _ _ _ _ _ _ _ he => by cases he⟩

end

section

variable {P : Policy Stmt.sig Store Call} {init : Store → Prop} {s : Pool Stmt.sig Store Call}
variable {p r : Entry Stmt.sig Store Call} {newer older : Log} {ms : List PushMessage}
variable {response : Response} {U : UserId} {token : String} {n : Nat}

theorem earlier (h : Reachable system P init s) (hl : s.log = newer ++ p :: older) :
    Earlier p.call p.stmt (p.past older) :=
  h.follows_entry (F := fun _ c => Earlier c) (Q := fun _ c es =>
    ∀ U title body data category hour faults,
      c = .create U title body data category hour faults → Complete U es)
    (fun _ _ _ => call_follows) hl

-- A notification is sent to the devices of its user in the order in which they have been read, in
-- chunks of a hundred, to each of them once, and to all of them unless a request is not answered.
theorem pushed_once (h : Reachable system P init s) :
    (∀ newer p older ms response, s.log = newer ++ p :: older → p.stmt = .push ms response →
      ∃ U title body data category hour faults,
        p.call = .create U title body data category hour faults ∧
          Continues U title body data ms (p.past older)) ∧
    (∀ t th U title body data category hour faults, s.threads t = some th → th.Done →
      th.call = .create U title body data category hour faults → Complete U (s.world.own t)) ∧
    ∀ db U, (expoTokens db U).Nodup := by
  refine ⟨?pushed, ?ended, expoTokens_nodup⟩
  case pushed =>
    intro newer p older ms response hl hx
    have hf := earlier h hl
    rw [hx] at hf
    have ⟨U, title, body, data, category, hour, faults, hc, _, hk⟩ := hf
    exact ⟨U, title, body, data, category, hour, faults, hc, hk⟩
  case ended =>
    intro t th U title body data category hour faults ht hd hc
    exact h.follows_done (F := fun _ c => Earlier c) (Q := fun _ c es =>
      ∀ U title body data category hour faults,
        c = .create U title body data category hour faults → Complete U es)
      (fun _ _ _ => call_follows) ht hd U title body data category hour faults hc

theorem toNat_ofNat {n : Nat} (h : n < 0xd800) : (Char.ofNat n).toNat = n := by
  rw [Char.ofNat, dif_pos (.inl h)]
  rfl

def tokenOf (n : Nat) : String :=
  .ofList <| "ExpoPushToken".toList ++ [Char.ofNat (0x100 + n)]

theorem tokenOf_inj {m n : Nat} (hm : m < 1000) (hn : n < 1000) (h : tokenOf m = tokenOf n) :
    m = n := by
  have h := List.append_cancel_left <| String.ofList_injective h
  have h := congrArg Char.toNat (List.cons.inj h).left
  rw [toNat_ofNat (by omega), toNat_ofNat (by omega)] at h
  exact Nat.add_left_cancel h

-- The user `1` has more devices than fit into one chunk.
def Store.stocked : Store where
  notifications := .empty
  preferences   := .empty
  devices       := {
    rows  := (List.range 101).map fun n => ((1, tokenOf n), "ios")
    nodup := by
      rw [List.map_map]
      refine List.Nodup.map_on (fun m hm n hn h => ?_) List.nodup_range
      have hm := List.mem_range.mp hm
      have hn := List.mem_range.mp hn
      exact tokenOf_inj (by omega) (by omega) (Prod.mk.inj h).right }

-- The provider declares the device dead that the first message of a request is for.
def deadFaults : Faults where
  responses _ := .answered true <| some <| .object [("data", .array [.object [
    ("status", .string "error"),
    ("details", .object [("error", .string "DeviceNotRegistered")])]])]
  reap        := .committed

def chunked : Pool Stmt.sig Store Call :=
  (Pool.init .stocked).runCmds system <|
    Cmd.run 1 (.create 1 "Delivered" "" none .delivery 12 deadFaults) 6

theorem chunked_reachable : Reachable system {} (fun _ => True) chunked :=
  Reachable.runCmds_of_free _ <| .init trivial

theorem push_of_addressed (h : addressed p ≠ []) : ∃ ms response, p.stmt = .push ms response ∧
    addressed p = ms.map (·.pushToken) := by
  unfold addressed at h ⊢
  split at h
  case h_1 ms response hx => exact ⟨ms, response, hx, rfl⟩
  case h_2 => contradiction

def Call.notifies (U : UserId) : Call → Bool
  | create U' .. => U' = U
  | _            => false

theorem Call.create_of_notifies {c : Call} (h : c.notifies U) :
    ∃ title body data category hour faults, c = .create U title body data category hour faults := by
  cases c
  case create =>
    obtain rfl := of_decide_eq_true h
    exact ⟨_, _, _, _, _, _, rfl⟩
  all_goals contradiction

-- The second request continues with the token that the first one has left over.
theorem pushed_once_chunked : ∃ newer p older ms response th U title body data,
    chunked.log = newer ++ p :: older ∧ p.stmt = .push ms response ∧ ms.length = 1 ∧
      Continues U title body data ms (p.past older) ∧ chunked.threads 1 = some th ∧
      Complete 1 (chunked.world.own 1) ∧ (sent (chunked.world.own 1)).length = 101 := by
  have hx : (∃ p ∈ chunked.log, (addressed p).length = 1) ∧
      ((chunked.threads 1).any fun th => th.Done ∧ th.call.notifies 1) ∧
      (sent (chunked.world.own 1)).length = 101 := by
    decide +kernel
  have hr := chunked_reachable
  generalize chunked = s at hr hx ⊢
  obtain ⟨⟨p, hp, ha⟩, ht, hs⟩ := hx
  obtain ⟨pushed, ended, _⟩ := pushed_once hr
  obtain ⟨newer, older, hl⟩ := List.append_of_mem hp
  obtain ⟨ms, response, hx, he⟩ := push_of_addressed <| List.ne_nil_of_length_eq_add_one ha
  obtain ⟨U, title, body, data, _, _, _, _, hk⟩ := pushed _ _ _ _ _ hl hx
  obtain ⟨th, ht, hd⟩ := (Option.any_eq_true _ _).mp ht
  obtain ⟨hd, hc⟩ := of_decide_eq_true hd
  obtain ⟨_, _, _, _, _, _, hc⟩ := Call.create_of_notifies hc
  have hm : ms.length = 1 := by rwa [he, List.length_map] at ha
  exact ⟨newer, p, older, ms, response, th, U, title, body, data, hl, hx, hm, hk, ht,
    ended 1 th _ _ _ _ _ _ _ ht hd hc, hs⟩

theorem mem_dead {es : Log} (h : token ∈ dead es) : ∃ e ∈ es, token ∈ died e := by
  induction es
  case nil => cases h
  case cons e es ih =>
    cases List.mem_append.mp h
    case inr h => exact ⟨e, .head _, h⟩
    case inl h =>
      have ⟨e', he, ht⟩ := ih h
      exact ⟨e', .tail _ he, ht⟩

-- The provider has declared a device dead in return to a message to it.
def DeclaredDead (e : Entry Stmt.sig Store Call) (token : String) : Prop :=
  ∃ ms body, ∃ j : Nat, ∃ ticket, e.stmt = .push ms (.answered true body) ∧
    (ms.map (·.pushToken))[j]? = some token ∧
    (parseExpoTickets <| .answered true body)[j]? = some ticket ∧ isDead ticket

theorem declaredDead_of_mem (h : token ∈ died p) : DeclaredDead p token := by
  obtain ⟨t, c, x, db⟩ := p
  unfold died at h
  split at h
  case h_2 => cases h
  case h_1 ms response hx =>
    cases hx
    unfold deadTokens at h
    split at h
    case h_1 => cases h
    case h_2 => cases h
    case h_3 body =>
      obtain ⟨⟨ticket, j⟩, hm, he⟩ := List.mem_filterMap.mp h
      have ht := List.mem_zipIdx_iff_getElem?.mp hm
      dsimp only at he ht
      split at he
      case isFalse => cases he
      case isTrue hd =>
        exact ⟨ms, body, j, ticket, rfl, (Option.filter_eq_some_iff.mp he).left, ht, hd⟩

-- A device only disappears when the provider has declared it dead, in return to a message that the
-- same call has sent to it.
theorem device_reaped (h : Reachable system P init s) (hl : s.log = newer ++ r :: older)
    (hp : r.pre.devices.find? (U, token) ≠ none)
    (hn : (r.post system).devices.find? (U, token) = none) :
    (∃ title body data category hour faults,
      r.call = .create U title body data category hour faults) ∧
    ∃ p ∈ r.past older, DeclaredDead p token := by
  have hf := earlier h hl
  obtain ⟨t, c, x, db⟩ := r
  simp only [Entry.post] at hn
  cases x
  case deleteDevices U' tokens =>
    have ⟨title, body, data, category, hour, faults, hc, ht⟩ := hf
    simp only [Stmt.exec, Table.find?_deleteMany] at hn
    have ⟨platform, hd⟩ := Option.ne_none_iff_exists'.mp hp
    have ⟨hU, hm⟩ : U = U' ∧ token ∈ tokens := by simpa [hd] using hn
    subst hU
    have ⟨p, hpm, hd⟩ := mem_dead (ht ▸ hm)
    exact ⟨⟨title, body, data, category, hour, faults, hc⟩, p, hpm, declaredDead_of_mem hd⟩
  case upsertDevice U' pushToken platform =>
    simp only [Stmt.exec, Table.find?_upsert] at hn
    split at hn
    case isTrue  => cases hn
    case isFalse => exact (hp hn).elim
  case findPreferences U fault => cases fault <;> exact (hp hn).elim
  case findDevices U fault     => cases fault <;> exact (hp hn).elim
  all_goals exact (hp hn).elim

-- A user who wants quiet nights is notified at noon, on a device that turns out to be dead.
def noon : Pool Stmt.sig Store Call :=
  (Pool.init { notifications := .empty, preferences := .empty, devices := .empty }).runCmds system <|
    List.flatten [
      Cmd.run 1 (.registerDevice 1 "ExpoPushToken[1]" "ios") 1,
      Cmd.run 2 (.updatePreferences 1 {
        quietHoursStart := some <| some 22
        quietHoursEnd   := some <| some 7 } none) 2,
      Cmd.run 3 (.create 1 "Delivered" "" none .delivery 12 deadFaults) 5]

theorem noon_reachable : Reachable system {} (fun _ => True) noon :=
  Reachable.runCmds_of_free _ <| .init trivial

theorem device_reaped_dead : ∃ newer r older, noon.log = newer ++ r :: older ∧
    ∃ p ∈ r.past older, DeclaredDead p "ExpoPushToken[1]" := by
  have hr : ∃ r ∈ noon.log, r.pre.devices.find? (1, "ExpoPushToken[1]") ≠ none ∧
      (r.post system).devices.find? (1, "ExpoPushToken[1]") = none := by
    decide +kernel
  obtain ⟨r, hr, hp, hn⟩ := hr
  obtain ⟨newer, older, hl⟩ := List.append_of_mem hr
  exact ⟨newer, r, older, hl, (device_reaped noon_reachable hl hp hn).right⟩

-- The hours of the day outside of a window are those that come no earlier than its end.
theorem inQuietHours_eq_false {start stop hour : Nat} (hs : start < 24) (ht : stop < 24)
    (hh : hour < 24) : inQuietHours (some start) (some stop) hour = false ↔
      start = stop ∨ (stop + 24 - start) % 24 ≤ (hour + 24 - start) % 24 := by
  unfold inQuietHours
  dsimp only
  split
  case isTrue => simp_all
  case isFalse =>
    split <;> simp only [decide_eq_false_iff_not] <;> omega

-- The statement reads the preferences of the user `U`.
def Stmt.reads (U : UserId) : Stmt → Bool
  | findPreferences U' none => U' = U
  | _                       => false

-- A message is only sent if the user, by the preferences that the call has read, wants it at this
-- hour.
theorem pushed_if_wanted (h : Reachable system P init s) (hl : s.log = newer ++ p :: older)
    (hx : p.stmt = .push ms response) : ∃ U title body data category hour faults,
      p.call = .create U title body data category hour faults ∧
      ∃ f ∈ p.past older, f.stmt = .findPreferences U none ∧
        (preferencesOf f.pre U).pushEnabled ∧
        (category = .delivery → (preferencesOf f.pre U).deliveryUpdates) ∧
        (category = .promotion → (preferencesOf f.pre U).promotions) ∧
        ∀ start stop, (preferencesOf f.pre U).quietHoursStart = some start →
          (preferencesOf f.pre U).quietHoursEnd = some stop → start < 24 → stop < 24 → hour < 24 →
            start = stop ∨ (stop + 24 - start) % 24 ≤ (hour + 24 - start) % 24 := by
  have hf := earlier h hl
  rw [hx] at hf
  have ⟨U, title, body, data, category, hour, faults, hc, ⟨f, hm, hfx, hs⟩, _⟩ := hf
  refine ⟨U, title, body, data, category, hour, faults, hc, f, hm, hfx, ?_⟩
  generalize preferencesOf f.pre U = q at hs ⊢
  simp only [shouldSendPush, Bool.and_eq_true, Bool.not_eq_true'] at hs
  have ⟨⟨⟨he, hd⟩, hp⟩, hq⟩ := hs
  refine ⟨he, ?_, ?_, ?_⟩
  case refine_1 => simpa using hd
  case refine_2 => simpa using hp
  case refine_3 =>
    intro start stop hstart hstop hs ht hh
    rw [hstart, hstop] at hq
    exact (inQuietHours_eq_false hs ht hh).mp hq

-- The hour is outside of the window that the call has read.
theorem pushed_if_wanted_noon : ∃ newer p older ms response, noon.log = newer ++ p :: older ∧
    p.stmt = .push ms response ∧ ∃ f ∈ p.past older, f.stmt = .findPreferences 1 none ∧
      (preferencesOf f.pre 1).quietHoursStart = some 22 ∧ (preferencesOf f.pre 1).pushEnabled := by
  have hp : ∃ p ∈ noon.log, addressed p ≠ [] ∧ p.tid = 3 ∧ p.call.notifies 1 := by decide +kernel
  have quiet : ∀ f ∈ noon.log, f.tid = 3 → f.stmt.reads 1 →
      (preferencesOf f.pre 1).quietHoursStart = some 22 := by
    decide +kernel
  obtain ⟨p, hp, ha, ht, hn⟩ := hp
  obtain ⟨newer, older, hl⟩ := List.append_of_mem hp
  obtain ⟨ms, response, hx, _⟩ := push_of_addressed ha
  obtain ⟨_, _, _, _, _, _, hn⟩ := Call.create_of_notifies hn
  obtain ⟨U, _, _, _, _, _, _, hc, f, hf, hfx, he, _⟩ := pushed_if_wanted noon_reachable hl hx
  obtain rfl : U = 1 := by
    rw [hn] at hc
    cases hc
    rfl
  have ⟨hm, hft⟩ := List.mem_filter.mp hf
  have hm : f ∈ noon.log := hl ▸ List.mem_append_right _ (.tail _ hm)
  have hq := quiet f hm ((of_decide_eq_true hft).trans ht) (by rw [hfx]; rfl)
  exact ⟨newer, p, older, ms, response, hl, hx, f, hf, hfx, hq, he⟩

end

-- The runs in which no preferences are updated that have changed since the update has read them.
def updatesCurrent : Policy Stmt.sig Store Call where
  step s t _ x :=
    match x with
    | .upsertPreferences U _ => ∀ e ∈ s.world.own t, e.stmt.reads U →
      e.pre.preferences.find? U = s.db.preferences.find? U
    | _                      => True

instance {s : Pool Stmt.sig Store Call} {t : Nat} {c : Call} {x : Stmt} :
    Decidable (updatesCurrent.step s t c x) := by
  unfold updatesCurrent
  dsimp only
  split <;> infer_instance

instance : DecidablePred updatesCurrent.spawn :=
  fun _ => .isTrue trivial

instance : Decidable updatesCurrent.crash :=
  .isTrue trivial

def AllPaired (db : Store) : Prop :=
  ∀ U p, db.preferences.find? U = some p → Paired p

theorem AllPaired.upsert {db : Store} {U : UserId} {dto : UpdateNotificationPreferencesDto}
    (h : AllPaired db) (hp : Paired ((preferencesOf db U).update dto)) :
    AllPaired (Stmt.exec (.upsertPreferences U dto) db).snd := by
  intro U' p hf
  simp only [Stmt.exec, Table.find?_upsert] at hf
  split at hf
  case isFalse => exact h U' p hf
  case isTrue =>
    cases hd : db.preferences.find? U <;> rw [hd] at hf <;> cases hf
    all_goals simpa [preferencesOf, hd] using hp

-- No user ends up with half a window of quiet hours.
theorem quiet_hours_paired {s : Pool Stmt.sig Store Call}
    (h : Reachable system updatesCurrent AllPaired s) : AllPaired s.db := by
  apply h.invariant (I := fun w => AllPaired w.db)
  case hi => exact fun hi => hi
  case hs =>
    intro s t c x st ih
    cases x
    case upsertPreferences U dto =>
      have hf : Earlier c _ _ := st.reachable.follows_aboutTo (F := fun _ c => Earlier c)
        (Q := fun _ c es => ∀ U title body data category hour faults,
          c = .create U title body data category hour faults → Complete U es)
        (fun _ _ _ => call_follows) st.aboutTo
      have ⟨f, hm, hfx, hp⟩ := hf
      apply ih.upsert
      rwa [preferencesOf, ← st.allowed f hm <| by simp [hfx, Stmt.reads]]
    case findPreferences U fault => cases fault <;> exact ih
    case findDevices U fault     => cases fault <;> exact ih
    all_goals exact ih

-- One end of a window is moved.
theorem quiet_hours_paired_moved : ∃ s : Pool Stmt.sig Store Call, AllPaired s.db ∧
    (s.db.preferences.find? 1).any fun p =>
      p.quietHoursStart = some 22 ∧ p.quietHoursEnd = some 6 := by
  let s := (Pool.init { notifications := .empty, preferences := .empty, devices := .empty }).runCmds
    system <| List.flatten [
      Cmd.run 1 (.updatePreferences 1 {
        quietHoursStart := some <| some 22
        quietHoursEnd   := some <| some 7 } none) 2,
      Cmd.run 2 (.updatePreferences 1 { quietHoursEnd := some <| some 6 } none) 2]
  have hr : Reachable system updatesCurrent AllPaired s :=
    (Reachable.init fun U p hf => by cases hf).runCmds (by decide +kernel)
  exact ⟨s, quiet_hours_paired hr, by decide +kernel⟩

end Drovery.Notifications
