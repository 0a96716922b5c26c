import Drovery.Concurrency.Local
import Drovery.Services.Caching

namespace Drovery.Caching

open Concurrency GeoService WeatherService UsersService

abbrev Log := List (Entry Stmt.sig Store Call)

-- The key under which the answer to a call is cached.
def Call.key (P : Params) : Call → Option String
  | geocode query ..          => some <| forwardKey P query
  | reverseGeocode lat lng .. => some <| reverseKey lat lng
  | getConditions lat lng ..  => some <| weatherKey lat lng
  | getProfile U ..           => some <| profileKey P U
  | updateProfile U ..        => some <| profileKey P U
  | _                         => none

-- What the provider responds to a call, if it is asked.
def Call.response (P : Params) : Call → Option Response
  | geocode _ response _          => some response
  | reverseGeocode _ _ response _ => some response
  | getConditions _ _ response _  => if mockMode P then none else some response
  | _                             => none

-- The user whose profile is read.
def Call.user : Call → Option UserId
  | getProfile U ..    => some U
  | updateProfile U .. => some U
  | _                  => none

-- What a cached value is turned into.
def Call.decode : Call → Json → Json
  | geocode ..        => GeoService.decode
  | reverseGeocode .. => fun cached => (cached.get "address").getD .null
  | _                 => id

def tellConditions (conditions : WeatherService.WeatherConditions) : Json × Option (Json × Nat) :=
  (conditions.toJson, some (conditions.toJson, weatherTtl))

-- The answer that an entry has brought in, and what may be kept of it. Weather that is made up is known
-- from the outset.
def told (P : Params) (e : Entry Stmt.sig Store Call) : Option (Json × Option (Json × Nat)) :=
  match e.call, e.stmt with
  | .geocode .., .ask response        =>
    some ((fetchGeocode P response).answer, (fetchGeocode P response).keep)
  | .reverseGeocode .., .ask response =>
    some (fetchReverse response, some <| keepAddress <| fetchReverse response)
  | .getConditions .., .ask response  => some <| tellConditions <| fetchConditions P response
  | .getProfile .., .findUser U       =>
    (e.pre.users.find? U).map fun user => (.object user, some (.object user, profileTtl))
  | .updateProfile .., .findUser U    =>
    (e.pre.users.find? U).map fun user => (.object user, some (.object user, profileTtl))
  | .getConditions lat lng .., .get .. =>
    if mockMode P then some <| tellConditions <| mockConditions P (cell lat) (cell lng) else none
  | _, _                              => none

-- What a call has done before it issues a statement.
def Earlier (P : Params) (c : Call) (x : Stmt) (es : Log) : Prop :=
  match x with
  | .get key _           => c.key P = some key
  | .set key value ttl _ =>
    c.key P = some key ∧ ∃ e ∈ es, ∃ a, told P e = some (a, some (value, ttl))
  | .ask response        => c.response P = some response
  | .findUser U          => c.user = some U
  | .respond a           => (∃ e ∈ es, ∃ keep, told P e = some (a, keep)) ∨
    ∃ g ∈ es, ∃ key value, g.stmt = .get key false ∧ g.pre.cache.get key = some value ∧
      a = c.decode value
  | _                    => True

section

variable {P : Params} {t : Nat} {c : Call} {es : Log}

-- What is known about the result of a call before it answers.
def Found (P : Params) (c : Call) (a : Json) (es : Log) : Prop :=
  (∃ e ∈ es, ∃ keep, told P e = some (a, keep)) ∨
    ∃ g ∈ es, ∃ key value, g.stmt = .get key false ∧ g.pre.cache.get key = some value ∧
      a = c.decode value

theorem readThrough_follows {α : Type} {key : String} {faults : Faults} {decode : Json → Json}
    {ask : App α} {answer : α → Json} {keep : α → Option (Json × Nat)} (hk : c.key P = some key)
    (hd : decode = c.decode)
    (ha : ∀ es db, ask.Follows (system P) t c (Earlier P c)
      (fun a es => ∃ e ∈ es, told P e = some (answer a, keep a)) (fun _ _ => True)
      (⟨t, c, .get key faults.get, db⟩ :: es)) :
    (readThrough key faults decode ask answer keep).Follows (system P) t c (Earlier P c)
      (Found P c) (fun _ _ => True) es := by
  apply Method.follows_stmt_bind.mpr
  constructor
  case left => exact hk
  case right =>
    intro db
    split
    case h_1 cached hc =>
      have hg := (Option.filter_eq_some_iff.mp hc).left
      cases hf : faults.get
      case true => simp [hf, system, Stmt.exec] at hg
      case false =>
        rw [hf] at hg
        exact .inr ⟨_, .head _, key, cached, rfl, hg, by rw [hd]⟩
    case h_2 =>
      apply Method.follows_bind.mpr
      apply (ha es db).mono _ fun _ _ => id
      intro a es' he
      have ⟨e, hm, ht⟩ := he
      cases hkeep : keep a
      case none => exact .inl ⟨e, hm, _, ht⟩
      case some kept =>
        rw [hkeep] at ht
        apply Method.follows_stmt_bind.mpr
        exact ⟨⟨hk, e, hm, _, ht⟩, fun _ => .inl ⟨e, .tail _ hm, _, ht⟩⟩

theorem ask_follows {response : Response} {Q : Response → Log → Prop}
    (hc : c.response P = some response) (hQ : ∀ es db, Q response (⟨t, c, .ask response, db⟩ :: es)) :
    (App.stmt <| .ask response).Follows (system P) t c (Earlier P c) Q (fun _ _ => True) es :=
  Method.follows_tx.mpr ⟨hc, fun db => hQ es db⟩

theorem findProfile_follows {U : UserId} {Q : Profile → Log → Prop} (hc : c.user = some U)
    (hQ : ∀ es db user, db.users.find? U = some user → Q user (⟨t, c, .findUser U, db⟩ :: es)) :
    (findProfile U).Follows (system P) t c (Earlier P c) Q (fun _ _ => True) es := by
  apply Method.follows_tx.mpr
  constructor
  case left => exact hc
  case right =>
    intro db
    cases hf : db.users.find? U <;> simp only [system, Stmt.exec, hf, Option.elim]
    case some user => exact hQ es db user hf

theorem respond_follows {p : App Json}
    (h : p.Follows (system P) t c (Earlier P c) (Found P c) (fun _ _ => True) es) :
    (respond p).Follows (system P) t c (Earlier P c) (fun _ _ => True) (fun _ _ => True) es := by
  apply Method.follows_bind.mpr
  apply h.mono _ fun _ _ => id
  exact fun a es ha => Method.follows_tx.mpr ⟨ha, fun _ => trivial⟩

theorem getProfile_follows {U : UserId} {faults : Faults} (hk : c.key P = some (profileKey P U))
    (hc : c.user = some U) (hd : id = c.decode) (ht : ∀ db, told P ⟨t, c, .findUser U, db⟩ =
      (db.users.find? U).map fun user => (.object user, some (.object user, profileTtl))) :
    (getProfile P U faults).Follows (system P) t c (Earlier P c) (Found P c) (fun _ _ => True)
      es := by
  apply readThrough_follows hk hd
  intro es _
  apply findProfile_follows hc
  intro es db user hu
  exact ⟨_, .head _, by rw [ht, hu, Option.map_some]⟩

theorem getConditions_follows {lat lng : ℚ} {response : Response} {faults : Faults}
    (hc : c = .getConditions lat lng response faults) :
    (getConditions P lat lng response faults).Follows (system P) t c (Earlier P c) (Found P c)
      (fun _ _ => True) es := by
  subst hc
  apply readThrough_follows rfl rfl
  intro es db
  unfold findConditions
  split
  case isTrue hm  => exact ⟨_, .head _, by simp [told, hm, tellConditions]⟩
  case isFalse hm =>
    apply Method.follows_stmt_bind.mpr
    exact ⟨by simp [Earlier, Call.response, hm], fun _ => ⟨_, .head _, rfl⟩⟩

theorem call_follows :
    (c.prog P).Follows (system P) t c (Earlier P c) (fun _ _ => True) [] := by
  cases c <;> apply Method.follows_toCall.mpr
  case geocode =>
    apply respond_follows
    apply readThrough_follows rfl rfl
    exact fun es _ => ask_follows rfl fun es db => ⟨_, .head _, rfl⟩
  case reverseGeocode =>
    apply respond_follows
    apply readThrough_follows rfl rfl
    exact fun es _ => ask_follows rfl fun es db => ⟨_, .head _, rfl⟩
  case getConditions => exact respond_follows <| getConditions_follows rfl
  case getProfile => exact respond_follows <| getProfile_follows rfl rfl rfl fun _ => rfl
  case updateProfile U dto fault faults =>
    apply Method.follows_bind.mpr
    apply (getProfile_follows rfl rfl rfl fun _ => rfl).mono _ fun _ _ => id
    intro _ es _
    apply Method.follows_bind.mpr
    have update {Q : Unit → Log → Prop} (hQ : ∀ es, Q () es) :
        (App.tx (.updateUser U dto) id).Follows (system P) t (.updateProfile U dto fault faults)
        (Earlier P <| .updateProfile U dto fault faults) Q (fun _ _ => True) es := by
      apply Method.follows_tx.mpr
      constructor
      case left => trivial
      case right =>
        intro db
        split
        case h_1 => exact hQ _
        case h_2 => trivial
    cases fault
    case committed  => exact update fun _ => Method.follows_tx.mpr ⟨trivial, fun _ => trivial⟩
    case rolledBack => trivial
    case lost       => exact Method.follows_bind.mpr <| update fun _ => trivial
  case createUser => exact Method.follows_tx.mpr ⟨trivial, fun _ => trivial⟩
  case changeUser =>
    apply Method.follows_tx.mpr
    constructor
    case left => trivial
    case right =>
      intro db
      split <;> trivial
  case evict => exact Method.follows_tx.mpr ⟨trivial, fun _ => trivial⟩
  case tick => exact Method.follows_tx.mpr ⟨trivial, fun _ => trivial⟩

end

section

variable {P : Params} {p : Policy Stmt.sig Store Call} {s : Pool Stmt.sig Store Call}
variable {e r : Entry Stmt.sig Store Call} {newer older : Log} {key : String} {value : Json}

-- The cache is what its operations have made of it.
def ops (log : Log) : List (Cache.Op String Json) :=
  log.filterMap (·.stmt.op)

theorem cache_exec (x : Stmt) (db : Store) :
    (x.exec db).snd.cache = (x.op.map db.cache.exec).getD db.cache := by
  cases x
  case updateUser U dto =>
    simp only [Stmt.exec]
    split <;> rfl
  all_goals rfl

theorem cache_eq (h : Reachable (system P) p Store.Initial s) :
    s.db.cache = .after (ops s.log) := by
  apply h.invariant (I := fun w => w.db.cache = .after (ops w.log))
  case hi => exact fun hi => hi
  case hs =>
    intro s t c x _ ih
    simp only [World.exec, system, cache_exec, ops, List.filterMap_cons]
    cases x.op
    case none    => exact ih
    case some op => exact congrArg (·.exec op) ih

theorem earlier (h : Reachable (system P) p Store.Initial s) (hl : s.log = newer ++ r :: older) :
    Earlier P r.call r.stmt (r.past older) :=
  h.follows_entry (F := fun _ c => Earlier P c) (Q := fun _ _ _ => True)
    (fun _ _ _ => call_follows) hl

theorem call_eq (h : Reachable (system P) p Store.Initial s) (he : e ∈ s.log) (hr : r ∈ s.log)
    (ht : e.tid = r.tid) : e.call = r.call := by
  have ⟨th, hth, hc⟩ := h.log_thread e he
  have ⟨th', hth', hc'⟩ := h.log_thread r hr
  rw [← hc, ← hc', Option.some.inj <| hth.symm.trans <| ht ▸ hth']

theorem op_eq_set {x : Stmt} {ttl : Nat} (h : x.op = some (.set key value ttl)) :
    ∃ ttlSeconds, x = .set key value ttlSeconds false ∧ ttl = ttlSeconds * 1000 := by
  unfold Stmt.op at h
  split at h
  case h_1 =>
    cases h
    exact ⟨_, rfl, rfl⟩
  all_goals cases h

-- What has been stored under a key, and is still alive, when it is read.
structure Alive (log : Log) (key : String) (value : Json) (ttlSeconds : Nat)
    (g st : Entry Stmt.sig Store Call) (mid older : Log) : Prop where
  split     : log = mid ++ st :: older
  stored    : st.stmt = .set key value ttlSeconds false
  fresh     : g.pre.cache.now < st.pre.cache.now + ttlSeconds * 1000
  untouched : ∀ x ∈ mid, ∀ op ∈ x.stmt.op, ¬op.Overwrites key

theorem alive_of_get {g : Entry Stmt.sig Store Call} (h : Reachable (system P) p Store.Initial s)
    (hl : s.log = newer ++ g :: older) (hg : g.pre.cache.get key = some value) :
    ∃ ttlSeconds st mid rest, Alive older key value ttlSeconds g st mid rest := by
  have pre {newer older : Log} {e} (hl : s.log = newer ++ e :: older) :
      e.pre.cache = .after (ops older) := by
    have ⟨s₀, st, hdb, hlog⟩ := h.before hl
    rw [← hdb, ← hlog]
    exact cache_eq st.reachable
  rw [pre hl] at hg
  have ⟨newer', ttl, older', ho, hlt, hn⟩ := Cache.get_after hg
  obtain ⟨mid₁, rest₁, hm, hm₁, hr⟩ := List.filterMap_eq_append_iff.mp ho
  obtain ⟨mid₂, st, rest, hs, hm₂, hst, hrest⟩ := List.filterMap_eq_cons_iff.mp hr
  obtain ⟨ttlSeconds, hx, ht⟩ := op_eq_set hst
  refine ⟨ttlSeconds, st, mid₁ ++ mid₂, rest, ?_⟩
  have hsplit : older = (mid₁ ++ mid₂) ++ st :: rest := by rw [hm, hs, List.append_assoc]
  constructor
  case split  => exact hsplit
  case stored => exact hx
  case fresh =>
    have hl' : s.log = (newer ++ g :: (mid₁ ++ mid₂)) ++ st :: rest := by simp [hl, hsplit]
    rw [pre hl, pre hl', ho, Cache.now_after, Cache.now_after, ← ht, ops, hrest]
    simp [Cache.elapsed, Cache.Op.duration] at hlt ⊢
    omega
  case untouched =>
    intro x hx op hop
    cases List.mem_append.mp hx
    case inl hx => exact hn op <| hm₁ ▸ List.mem_filterMap.mpr ⟨x, hx, hop⟩
    case inr hx => cases (hm₂ x hx).symm.trans hop

end

section

variable {P : Params} {c c' : Call} {e : Entry Stmt.sig Store Call} {key : String} {a value : Json}

-- How the keys of a kind of calls begin.
def Call.mark : Call → List Char
  | geocode ..        => ['g', 'e', 'o', ':', 'f']
  | reverseGeocode .. => ['g', 'e', 'o', ':', 'r']
  | getConditions ..  => ['w', 'e', 'a', 't', 'h']
  | _                 => ['u', 's', 'e', 'r', ':']

theorem take_key (h : c.key P = some key) : key.toList.take 5 = c.mark := by
  have take {p s : List Char} (hp : 5 ≤ p.length) : (p ++ s).take 5 = p.take 5 :=
    List.take_append_of_le_length hp
  cases c <;> cases h
  all_goals
    simp only [forwardKey, reverseKey, weatherKey, profileKey, String.toList_append, List.append_assoc]
    exact take (by decide)

theorem mark_eq_of_key (h : c.key P = some key) (h' : c'.key P = some key) : c.mark = c'.mark :=
  (take_key h).symm.trans <| take_key h'

theorem decode_eq_of_mark (h : c.mark = c'.mark) : c.decode = c'.decode := by
  cases c <;> cases c' <;> first | rfl | simp [Call.mark] at h

theorem decode_keep {o : GeocodeOutcome} {ttl : Nat} (h : o.keep = some (value, ttl)) :
    GeoService.decode value = o.answer := by
  cases o
  case found result =>
    cases h
    rfl
  case notFound =>
    cases h
    rfl
  case failed => cases h

-- What is kept of an answer is turned into this answer again.
theorem decode_told {ttl : Nat} (h : told P e = some (a, some (value, ttl))) :
    e.call.decode value = a := by
  obtain ⟨t, c, x, db⟩ := e
  unfold told at h
  split at h
  case h_1 hc _ =>
    cases hc
    have ⟨ha, hk⟩ := Prod.mk.inj <| Option.some.inj h
    exact (decode_keep hk).trans ha
  case h_2 hc _ =>
    cases hc
    cases h
    rfl
  case h_3 hc _ =>
    cases hc
    cases h
    rfl
  case h_4 hc _ =>
    cases hc
    have ⟨user, _, hu⟩ := Option.map_eq_some_iff.mp h
    cases hu
    rfl
  case h_5 hc _ =>
    cases hc
    have ⟨user, _, hu⟩ := Option.map_eq_some_iff.mp h
    cases hu
    rfl
  case h_6 hc _ =>
    cases hc
    split at h
    case isTrue =>
      cases h
      rfl
    case isFalse => cases h
  case h_7 => cases h

end

-- The thread of `r` has read from the cache what the thread of `e` has stored after `e`, before its
-- time to live was over, and nobody has replaced or dropped it in between.
def Kept (log : Log) (e r : Entry Stmt.sig Store Call) (key : String) (ttlSeconds : Nat) : Prop :=
  ∃ (newer : Log) (g : _) (mid : Log) (st : _) (older : Log) (value : Json),
    log = newer ++ g :: mid ++ st :: older ∧ e ∈ older ∧
      g.tid = r.tid ∧ g.stmt = .get key false ∧
      st.tid = e.tid ∧ st.stmt = .set key value ttlSeconds false ∧
      g.pre.cache.now < st.pre.cache.now + ttlSeconds * 1000 ∧
      ∀ x ∈ mid, ∀ op ∈ x.stmt.op, ¬op.Overwrites key

section

variable {P : Params} {p : Policy Stmt.sig Store Call} {s : Pool Stmt.sig Store Call}
variable {e r : Entry Stmt.sig Store Call} {a : Json}

theorem isSome_key_of_told (h : (told P e).isSome) : ∃ key, e.call.key P = some key := by
  obtain ⟨t, c, x, db⟩ := e
  unfold told at h
  split at h
  case h_7 => cases h
  all_goals
    rename_i hc _
    cases hc
    exact ⟨_, rfl⟩

-- Each answer is one that a call of the same key has been told, either the call that answers or one
-- from which it has been taken over by way of the cache.
theorem served (h : Reachable (system P) p Store.Initial s) (hr : r ∈ s.log)
    (hx : r.stmt = .respond a) : ∃ e ∈ s.log, ∃ keep key, told P e = some (a, keep) ∧
      r.call.key P = some key ∧ e.call.key P = some key ∧
      (e.tid = r.tid ∨ ∃ value ttl, keep = some (value, ttl) ∧ Kept s.log e r key ttl) := by
  have ⟨newer, older, hl⟩ := List.append_of_mem hr
  have hf := earlier h hl
  rw [hx] at hf
  cases hf
  case inl ho =>
    have ⟨e, he, keep, ht⟩ := ho
    have ⟨hm, htid⟩ := List.mem_filter.mp he
    have hm : e ∈ s.log := hl ▸ List.mem_append_right _ (.tail _ hm)
    have hc : e.call = r.call := call_eq h hm hr (of_decide_eq_true htid)
    have ⟨key, hk⟩ := isSome_key_of_told (by simp [ht] : (told P e).isSome)
    exact ⟨e, hm, keep, key, ht, hc ▸ hk, hk, .inl <| of_decide_eq_true htid⟩
  case inr ho =>
    have ⟨g, hg, key, value, hgx, hgv, ha⟩ := ho
    have ⟨hgm, hgt⟩ := List.mem_filter.mp hg
    have ⟨mid₀, rest₀, hs⟩ := List.append_of_mem hgm
    have hl' : s.log = (newer ++ r :: mid₀) ++ g :: rest₀ := by simp [hl, hs]
    have hgl : g ∈ s.log := hl' ▸ List.mem_append_right _ (.head _)
    have hkr : r.call.key P = some key := by
      have hk := earlier h hl'
      rw [hgx] at hk
      exact call_eq h hgl hr (of_decide_eq_true hgt) ▸ hk
    have ⟨ttl, st, mid, rest, al⟩ := alive_of_get h hl' hgv
    have hl'' : s.log = (newer ++ r :: mid₀ ++ g :: mid) ++ st :: rest := by
      rw [hl', al.split]
      simp
    have hst := earlier h hl''
    rw [al.stored] at hst
    have ⟨hks, e, he, b, ht⟩ := hst
    have ⟨hem, het⟩ := List.mem_filter.mp he
    have hel : e ∈ s.log := hl'' ▸ List.mem_append_right _ (.tail _ hem)
    have hstl : st ∈ s.log := hl'' ▸ List.mem_append_right _ (.head _)
    have hke : e.call.key P = some key := call_eq h hel hstl (of_decide_eq_true het) ▸ hks
    have hb : b = a := by
      rw [ha, decode_eq_of_mark <| mark_eq_of_key hkr hke]
      exact (decode_told ht).symm
    refine ⟨e, hel, _, key, hb ▸ ht, hkr, hke, .inr ⟨value, ttl, rfl, ?_⟩⟩
    exact ⟨newer ++ r :: mid₀, g, mid, st, rest, value, by rw [hl''], hem,
      of_decide_eq_true hgt, hgx, (of_decide_eq_true het).symm, al.stored, al.fresh, al.untouched⟩

-- The entry has brought in an answer to its call, of which something may be kept.
inductive Source (P : Params) (e : Entry Stmt.sig Store Call) : Json → Option (Json × Nat) → Prop
  | geocode {query response faults} :
    e.call = .geocode query response faults → e.stmt = .ask response →
    Source P e (fetchGeocode P response).answer (fetchGeocode P response).keep
  | reverseGeocode {lat lng response faults} :
    e.call = .reverseGeocode lat lng response faults → e.stmt = .ask response →
    Source P e (fetchReverse response) (some <| keepAddress <| fetchReverse response)
  | getConditions {lat lng response faults conditions} :
    e.call = .getConditions lat lng response faults →
    (mockMode P ∧ conditions = mockConditions P (cell lat) (cell lng) ∨
      ¬mockMode P ∧ e.stmt = .ask response ∧ conditions = fetchConditions P response) →
    Source P e conditions.toJson (some (conditions.toJson, weatherTtl))
  | profile {U user} :
    e.call.key P = some (profileKey P U) → e.call.mark = ['u', 's', 'e', 'r', ':'] →
    e.stmt = .findUser U → e.pre.users.find? U = some user →
    Source P e (.object user) (some (.object user, profileTtl))

theorem source_of_told {es : Log} {keep : Option (Json × Nat)} (h : told P e = some (a, keep))
    (hf : Earlier P e.call e.stmt es) : Source P e a keep := by
  obtain ⟨t, c, x, db⟩ := e
  unfold told at h
  split at h
  case h_1 hc hx =>
    cases hc
    cases hx
    cases hf
    cases h
    exact .geocode rfl rfl
  case h_2 hc hx =>
    cases hc
    cases hx
    cases hf
    cases h
    exact .reverseGeocode rfl rfl
  case h_3 hc hx =>
    cases hc
    cases hx
    cases h
    have hf : (if mockMode P then none else some _) = some _ := hf
    split at hf
    case isTrue => cases hf
    case isFalse hm =>
      cases hf
      exact .getConditions rfl <| .inr ⟨hm, rfl, rfl⟩
  case h_4 hc hx =>
    cases hc
    cases hx
    cases hf
    have ⟨user, hu, he⟩ := Option.map_eq_some_iff.mp h
    cases he
    exact .profile rfl rfl rfl hu
  case h_5 hc hx =>
    cases hc
    cases hx
    cases hf
    have ⟨user, hu, he⟩ := Option.map_eq_some_iff.mp h
    cases he
    exact .profile rfl rfl rfl hu
  case h_6 hc _ =>
    cases hc
    split at h
    case isTrue hm =>
      cases h
      exact .getConditions rfl <| .inl ⟨hm, rfl⟩
    case isFalse => cases h
  case h_7 => cases h

theorem source_of_respond (h : Reachable (system P) p Store.Initial s) (hr : r ∈ s.log)
    (hx : r.stmt = .respond a) : ∃ e ∈ s.log, ∃ keep key, Source P e a keep ∧
      r.call.key P = some key ∧ e.call.key P = some key ∧ e.call.mark = r.call.mark ∧
      (e.tid = r.tid ∨ ∃ value ttl, keep = some (value, ttl) ∧ Kept s.log e r key ttl) := by
  have ⟨e, he, keep, key, ht, hkr, hke, ho⟩ := served h hr hx
  have ⟨newer, older, hl⟩ := List.append_of_mem he
  exact ⟨e, he, keep, key, source_of_told ht <| earlier h hl, hkr, hke, mark_eq_of_key hke hkr, ho⟩

-- The ids are the numerals of twelve digits or more.
def numbered : Params where
  depth         := 4000
  toLowerCase   := id
  text U        := .ofList <| Decimal.pad 12 U
  injective     :=
    (Function.LeftInverse.injective fun _ => String.toList_ofList).comp Decimal.pad_injective
  weatherApiKey := some "key"
  rand _ _      := none

-- A call, and another one a second later that is answered from the cache.
def cachedPool (c c' : Call) : Pool Stmt.sig Store Call :=
  (Pool.init { users := (Table.empty.insert 1 [("name", .string "Ani")]).getD .empty, cache := {} })
    |>.runCmds (system numbered) <|
      List.flatten [Cmd.run 1 c 4, Cmd.run 2 (.tick 1000) 1, Cmd.run 3 c' 2]

theorem cachedPool_reachable (c c' : Call) :
    Reachable (system numbered) {} Store.Initial (cachedPool c c') :=
  Reachable.runCmds_of_free _ <| .init rfl

-- The statement brings in an answer.
def Stmt.tells : Stmt → Bool
  | ask _      => true
  | findUser _ => true
  | _          => false

-- What has been found out about an address is used as long as it is kept, and what the geocoder has
-- failed to answer is never used by another call.
theorem geocode_served {query : String} {response : Response} {faults : Faults}
    (h : Reachable (system P) p Store.Initial s) (hr : r ∈ s.log)
    (hc : r.call = .geocode query response faults) (hx : r.stmt = .respond a) :
    ∃ e ∈ s.log, ∃ query' response' faults', e.call = .geocode query' response' faults' ∧
      e.stmt = .ask response' ∧ forwardKey P query' = forwardKey P query ∧
      a = (fetchGeocode P response').answer ∧
      (e.tid = r.tid ∨ fetchGeocode P response' ≠ .failed ∧ Kept s.log e r (forwardKey P query)
        (if fetchGeocode P response' = .notFound then geoMissTtl else geoTtl)) := by
  have ⟨e, he, keep, key, hs, hkr, hke, hm, ho⟩ := source_of_respond h hr hx
  rw [hc] at hkr hm
  cases hkr
  cases hs
  case geocode query' response' faults' hc' hx' =>
    rw [hc'] at hke
    refine ⟨e, he, query', response', faults', hc', hx', Option.some.inj hke, rfl, ho.imp id ?_⟩
    intro ⟨value, ttl, hkeep, hk⟩
    generalize fetchGeocode P response' = o at hkeep ⊢
    cases o <;> cases hkeep
    all_goals exact ⟨by simp, by simpa using hk⟩
  case reverseGeocode hc' _ => simp [hc', Call.mark] at hm
  case getConditions hc' _  => simp [hc', Call.mark] at hm
  case profile hm' _ _ =>
    rw [hm'] at hm
    simp [Call.mark] at hm

def located : Response :=
  .answered true <| some <| .array [.object [("lat", .string "-6.9"), ("lon", .string "107.6")]]

def located.place : Json :=
  (fetchGeocode numbered located).answer

-- The place is looked up once, however its name is padded.
theorem geocode_served_cached : ∃ s r, Reachable (system numbered) {} Store.Initial s ∧ r ∈ s.log ∧
    r.call = .geocode " Bandung" .error {} ∧ r.stmt = .respond located.place ∧
    ∃ e ∈ s.log, e.stmt = .ask located ∧
      Kept s.log e r (forwardKey numbered " Bandung") geoTtl := by
  let c : Call := .geocode "Bandung " located {}
  have hs := cachedPool_reachable c (.geocode " Bandung" .error {})
  have hl : ∃ r ∈ (cachedPool c (.geocode " Bandung" .error {})).log, r.tid = 3 ∧
      r.call = .geocode " Bandung" .error {} ∧ r.stmt = .respond located.place := by decide +kernel
  have asked : ∀ e ∈ (cachedPool c (.geocode " Bandung" .error {})).log, e.stmt.tells →
      e.tid = 1 ∧ e.stmt = .ask located := by decide +kernel
  have found : fetchGeocode numbered located ≠ .notFound := by decide +kernel
  generalize cachedPool c _ = s at hs hl asked
  obtain ⟨r, hr, ht, hc, hx⟩ := hl
  obtain ⟨e, he, _, response, _, _, hex, _, _, ho⟩ := geocode_served hs hr hc hx
  obtain ⟨het, hel⟩ := asked e he (hex ▸ rfl)
  obtain rfl : response = located := Stmt.ask.inj <| hex.symm.trans hel
  have hn : e.tid ≠ r.tid := by rw [het, ht]; decide
  have hk := (ho.resolve_left hn).right
  rw [if_neg found] at hk
  exact ⟨s, r, hs, hr, hc, hx, e, he, hel, hk⟩

-- An address is used as long as it is kept, and so is its absence, even if the provider has failed.
theorem address_served {lat lng : ℚ} {response : Response} {faults : Faults}
    (h : Reachable (system P) p Store.Initial s) (hr : r ∈ s.log)
    (hc : r.call = .reverseGeocode lat lng response faults) (hx : r.stmt = .respond a) :
    ∃ e ∈ s.log, ∃ lat' lng' response' faults',
      e.call = .reverseGeocode lat' lng' response' faults' ∧
      e.stmt = .ask response' ∧ reverseKey lat' lng' = reverseKey lat lng ∧
      a = fetchReverse response' ∧ (e.tid = r.tid ∨ Kept s.log e r (reverseKey lat lng)
        (if Json.truthy (some a) then geoTtl else geoMissTtl)) := by
  have ⟨e, he, keep, key, hs, hkr, hke, hm, ho⟩ := source_of_respond h hr hx
  rw [hc] at hkr hm
  cases hkr
  cases hs
  case reverseGeocode lat' lng' response' faults' hc' hx' =>
    rw [hc'] at hke
    refine ⟨e, he, lat', lng', response', faults', hc', hx', Option.some.inj hke, rfl, ho.imp id ?_⟩
    intro ⟨value, ttl, hkeep, hk⟩
    cases hkeep
    exact hk
  case geocode hc' _       => simp [hc', Call.mark] at hm
  case getConditions hc' _ => simp [hc', Call.mark] at hm
  case profile hm' _ _ =>
    rw [hm'] at hm
    simp [Call.mark] at hm

-- That there is no address is known for a second call, although the provider could tell by then.
theorem address_served_cached : ∃ s r, Reachable (system numbered) {} Store.Initial s ∧ r ∈ s.log ∧
    r.call = .reverseGeocode (-690001 / 100000) (1076 / 10) located {} ∧ r.stmt = .respond .null ∧
    ∃ e ∈ s.log, e.stmt = .ask .error ∧
      Kept s.log e r (reverseKey (-69 / 10) (1076 / 10)) geoMissTtl := by
  let c : Call := .reverseGeocode (-69 / 10) (1076 / 10) .error {}
  let c' : Call := .reverseGeocode (-690001 / 100000) (1076 / 10) located {}
  have hs := cachedPool_reachable c c'
  have hl : ∃ r ∈ (cachedPool c c').log, r.tid = 3 ∧ r.call = c' ∧ r.stmt = .respond .null := by
    decide +kernel
  have asked : ∀ e ∈ (cachedPool c c').log, e.stmt.tells → e.tid = 1 ∧ e.stmt = .ask .error := by
    decide +kernel
  have same : reverseKey (-690001 / 100000) (1076 / 10) = reverseKey (-69 / 10) (1076 / 10) := by
    decide +kernel
  generalize cachedPool c c' = s at hs hl asked
  obtain ⟨r, hr, ht, hc, hx⟩ := hl
  obtain ⟨e, he, _, _, response, _, _, hex, _, _, ho⟩ := address_served hs hr hc hx
  obtain ⟨het, hel⟩ := asked e he (hex ▸ rfl)
  have hn : e.tid ≠ r.tid := by rw [het, ht]; decide
  have hk := ho.resolve_left hn
  rw [same] at hk
  exact ⟨s, r, hs, hr, hc, hx, e, he, hel, hk⟩

theorem isNumberChar_of_mem_text {x : JsNumber} {c : Char} (h : c ∈ x.text.toList) :
    Numeral.IsNumberChar c := by
  rw [JsNumber.text, String.toList_ofList] at h
  exact Numeral.isNumberChar_of_mem h

theorem comma_notMem (x : Json.Numeric) : ',' ∉ x.text.toList := by
  cases x
  case nan        => decide
  case infinite b => cases b <;> decide
  case finite x   =>
    intro h
    have := isNumberChar_of_mem_text h
    simp [Numeral.IsNumberChar] at this

theorem text_injective : Function.Injective Json.Numeric.text := by
  have ne {x : JsNumber} {s : String} {c : Char} (hc : c ∈ s.toList) (hn : ¬Numeral.IsNumberChar c) :
      x.text ≠ s := fun h => hn <| isNumberChar_of_mem_text (h ▸ hc)
  have hn : ¬Numeral.IsNumberChar 'N' := by unfold Numeral.IsNumberChar; decide
  have hi : ¬Numeral.IsNumberChar 'I' := by unfold Numeral.IsNumberChar; decide
  have mem (b : Bool) : 'I' ∈ (Json.infinity b).toList := by cases b <;> decide
  intro x y h
  cases x <;> cases y
  case nan.nan           => rfl
  case nan.infinite b    => cases b <;> exact absurd h (by decide)
  case nan.finite        => exact absurd h.symm <| ne (by decide) hn
  case infinite.nan b    => cases b <;> exact absurd h (by decide)
  case infinite.infinite b c => cases b <;> cases c <;> first | rfl | exact absurd h (by decide)
  case infinite.finite b x => exact absurd h.symm <| ne (mem b) hi
  case finite.nan        => exact absurd h <| ne (by decide) hn
  case finite.infinite x b => exact absurd h <| ne (mem b) hi
  case finite.finite     => exact congrArg Json.Numeric.finite <| JsNumber.text_injective h

theorem weatherKey_inj {lat lng lat' lng' : ℚ} (h : weatherKey lat' lng' = weatherKey lat lng) :
    cell lat' = cell lat ∧ cell lng' = cell lng := by
  have h := congrArg String.toList h
  simp only [weatherKey, String.toList_append, List.append_assoc, List.append_cancel_left_eq] at h
  simp only [String.reduceToList, List.cons_append, List.nil_append] at h
  have ⟨h₁, _, h₂⟩ := (List.append_cons_inj_of_notMem (comma_notMem _) (comma_notMem _)).mp h
  exact ⟨text_injective <| String.toList_injective h₁, text_injective <| String.toList_injective h₂⟩

-- The weather is that of the same cell, at most five minutes after it has been kept. It is made up if
-- and only if there is no key for the provider.
theorem conditions_served {lat lng : ℚ} {response : Response} {faults : Faults}
    (h : Reachable (system P) p Store.Initial s) (hr : r ∈ s.log)
    (hc : r.call = .getConditions lat lng response faults) (hx : r.stmt = .respond a) :
    ∃ e ∈ s.log, ∃ lat' lng' response' faults',
      e.call = .getConditions lat' lng' response' faults' ∧
      cell lat' = cell lat ∧ cell lng' = cell lng ∧
      (mockMode P ∧ a = (mockConditions P (cell lat) (cell lng)).toJson ∨
        ¬mockMode P ∧ e.stmt = .ask response' ∧ a = (fetchConditions P response').toJson) ∧
      (e.tid = r.tid ∨ Kept s.log e r (weatherKey lat lng) weatherTtl) := by
  have ⟨e, he, keep, key, hs, hkr, hke, hm, ho⟩ := source_of_respond h hr hx
  rw [hc] at hkr hm
  cases hkr
  cases hs
  case getConditions lat' lng' response' faults' conditions hc' hw =>
    rw [hc'] at hke
    have ⟨hlat, hlng⟩ := weatherKey_inj <| Option.some.inj hke
    refine ⟨e, he, lat', lng', response', faults', hc', hlat, hlng, hw.imp ?_ ?_, ho.imp id ?_⟩
    case refine_1 => exact fun ⟨hm, hw⟩ => ⟨hm, by rw [hw, hlat, hlng]⟩
    case refine_2 => exact fun ⟨hm, hx, hw⟩ => ⟨hm, hx, by rw [hw]⟩
    case refine_3 =>
      intro ⟨value, ttl, hkeep, hk⟩
      cases hkeep
      exact hk
  case geocode hc' _        => simp [hc', Call.mark] at hm
  case reverseGeocode hc' _ => simp [hc', Call.mark] at hm
  case profile hm' _ _ =>
    rw [hm'] at hm
    simp [Call.mark] at hm

def cloudy : Response :=
  .answered true <| some <| .object [
    ("wind", .object [("speed", .number <| .ofNat 5 (by decide))]),
    ("weather", .array [.object [("main", .string "Clouds")]])
  ]

def cloudy.conditions : Json :=
  (fetchConditions numbered cloudy).toJson

-- The weather is that of another place in the cell.
theorem conditions_served_cached : ∃ s r, Reachable (system numbered) {} Store.Initial s ∧
    r ∈ s.log ∧ r.call = .getConditions (-696 / 100) (10758 / 100) .error {} ∧
    r.stmt = .respond cloudy.conditions ∧ ∃ e ∈ s.log, e.stmt = .ask cloudy ∧
      Kept s.log e r (weatherKey (-696 / 100) (10758 / 100)) weatherTtl := by
  let c : Call := .getConditions (-704 / 100) (10762 / 100) cloudy {}
  let c' : Call := .getConditions (-696 / 100) (10758 / 100) .error {}
  have hs := cachedPool_reachable c c'
  have hl : ∃ r ∈ (cachedPool c c').log, r.tid = 3 ∧ r.call = c' ∧
      r.stmt = .respond cloudy.conditions := by decide +kernel
  have asked : ∀ e ∈ (cachedPool c c').log, e.stmt.tells → e.tid = 1 ∧ e.stmt = .ask cloudy := by
    decide +kernel
  have real : ¬mockMode numbered := by decide
  generalize cachedPool c c' = s at hs hl asked
  obtain ⟨r, hr, ht, hc, hx⟩ := hl
  obtain ⟨e, he, _, _, response, _, _, _, _, hw, ho⟩ := conditions_served hs hr hc hx
  obtain ⟨_, hex, _⟩ := hw.resolve_left fun hw => real hw.left
  obtain ⟨het, hel⟩ := asked e he (hex ▸ rfl)
  have hn : e.tid ≠ r.tid := by rw [het, ht]; decide
  exact ⟨s, r, hs, hr, hc, hx, e, he, hel, ho.resolve_left hn⟩

-- A profile is the row of its user at some time. If it has been taken from the cache, it has been
-- stored there less than a minute ago, and no update has dropped it since.
theorem profile_served {U : UserId} {faults : Faults} (h : Reachable (system P) p Store.Initial s)
    (hr : r ∈ s.log) (hc : r.call = .getProfile U faults) (hx : r.stmt = .respond a) :
    ∃ e ∈ s.log, e.stmt = .findUser U ∧ ∃ user, e.pre.users.find? U = some user ∧
      a = .object user ∧ (e.tid = r.tid ∨ Kept s.log e r (profileKey P U) profileTtl) := by
  have ⟨e, he, keep, key, hs, hkr, hke, hm, ho⟩ := source_of_respond h hr hx
  rw [hc] at hkr hm
  cases hkr
  cases hs
  case profile U' user hk _ hx' hu =>
    have hU : U' = U := by
      have h := congrArg String.toList <| Option.some.inj <| hk.symm.trans hke
      simp only [profileKey, String.toList_append] at h
      exact P.injective <| String.toList_injective <| List.append_cancel_left h
    subst hU
    refine ⟨e, he, hx', user, hu, rfl, ho.imp id ?_⟩
    intro ⟨value, ttl, hkeep, hk⟩
    cases hkeep
    exact hk
  case geocode hc' _        => simp [hc', Call.mark] at hm
  case reverseGeocode hc' _ => simp [hc', Call.mark] at hm
  case getConditions hc' _  => simp [hc', Call.mark] at hm

theorem profile_served_cached : ∃ s r, Reachable (system numbered) {} Store.Initial s ∧ r ∈ s.log ∧
    r.call = .getProfile 1 {} ∧ r.stmt = .respond (.object [("name", .string "Ani")]) ∧
    ∃ e ∈ s.log, e.stmt = .findUser 1 ∧ Kept s.log e r (profileKey numbered 1) profileTtl := by
  let c : Call := .getProfile 1 {}
  have hs := cachedPool_reachable c c
  have hl : ∃ r ∈ (cachedPool c c).log, r.tid = 3 ∧ r.call = c ∧
      r.stmt = .respond (.object [("name", .string "Ani")]) := by decide +kernel
  have read : ∀ e ∈ (cachedPool c c).log, e.stmt.tells → e.tid = 1 := by decide +kernel
  generalize cachedPool c c = s at hs hl read
  obtain ⟨r, hr, ht, hc, hx⟩ := hl
  obtain ⟨e, he, hex, user, hu, ha, ho⟩ := profile_served hs hr hc hx
  have hn : e.tid ≠ r.tid := by rw [read e he (hex ▸ rfl), ht]; decide
  exact ⟨s, r, hs, hr, hc, hx, e, he, hex, ho.resolve_left hn⟩

end

end Drovery.Caching
