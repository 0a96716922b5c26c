import Drovery.Concurrency.Local
import Drovery.Services.Gateway

namespace Drovery.Gateway

open Concurrency TrackingGateway

abbrev Log := List (Entry Stmt.sig Store Call)

namespace Store

-- The user that a socket belongs to.
def userOf (db : Store) (S : SocketId) : Option UserId :=
  (db.sockets.find? S).bind (·.userId)

def Registered (db : Store) (S : SocketId) (D : DeliveryId) : Prop :=
  ∃ clients, db.subscriptions.find? D = some clients ∧ S ∈ clients

-- The map has no empty sets, and there is a channel for each of its deliveries and for no other.
structure Exact (db : Store) : Prop where
  nonempty : ∀ D, db.subscriptions.find? D ≠ some []
  desired  : ∀ D, trackingChannel D ∈ db.desired ↔ (db.subscriptions.find? D).isSome

variable {db db' : Store} {S S' : SocketId} {D D' : DeliveryId} {U : UserId}

-- What becomes of the subscribers of a delivery when one of them leaves.
theorem leave_cases (db : Store) (S : SocketId) (D : DeliveryId) :
    (¬db.Registered S D ∧ db.leave S D = db) ∨
    ∃ clients, db.subscriptions.find? D = some clients ∧ S ∈ clients ∧
      ((clients.filter (· ≠ S) = [] ∧ db.leave S D =
        { db with
          subscriptions := db.subscriptions.erase D
          desired       := db.desired.filter (· ≠ trackingChannel D) }) ∨
      (clients.filter (· ≠ S) ≠ [] ∧ db.leave S D =
        { db with
          subscriptions := db.subscriptions.modify D fun _ => clients.filter (· ≠ S) })) := by
  unfold leave Registered
  cases hf : db.subscriptions.find? D
  case none => exact .inl ⟨by simp, rfl⟩
  case some clients =>
    by_cases hm : S ∈ clients
    case neg => exact .inl ⟨by simpa using hm, if_neg hm⟩
    case pos =>
      refine .inr ⟨clients, rfl, hm, ?_⟩
      simp only [if_pos hm]
      by_cases hr : clients.filter (· ≠ S) = []
      case pos => exact .inl ⟨hr, if_pos hr⟩
      case neg => exact .inr ⟨hr, if_neg hr⟩

theorem Exact.leave (h : db.Exact) : (db.leave S D).Exact := by
  obtain ⟨_, he⟩ | ⟨clients, hf, hm, ⟨hr, he⟩ | ⟨hr, he⟩⟩ := db.leave_cases S D <;> rw [he]
  case inl             => exact h
  case inr.inl =>
    refine ⟨fun D' => ?_, fun D' => ?_⟩
    case refine_1 =>
      simp only [Table.find?_erase]
      split
      case isTrue  => exact nofun
      case isFalse => exact h.nonempty D'
    case refine_2 =>
      simp only [Table.find?_erase, List.mem_filter, h.desired D', decide_eq_true_eq]
      by_cases hD : D' = D <;> simp [hD, trackingChannel]
  case inr.inr =>
    refine ⟨fun D' => ?_, fun D' => ?_⟩
    case refine_1 =>
      simp only [Table.find?_modify, hf, Option.map_some]
      split
      case isTrue  => simpa using hr
      case isFalse => exact h.nonempty D'
    case refine_2 =>
      simp only [Table.find?_modify, hf, Option.map_some, h.desired D']
      split
      case isTrue hD => simp [hD, hf]
      case isFalse   => rfl

-- Nobody else is affected by a client that leaves.
structure Shrunk (db db' : Store) : Prop where
  sockets    : db'.sockets = db.sockets
  owners     : db'.owners = db.owners
  registered : ∀ S D, db'.Registered S D → db.Registered S D

theorem Shrunk.refl : Shrunk db db :=
  ⟨rfl, rfl, fun _ _ h => h⟩

theorem Shrunk.trans {db₁ db₂ db₃ : Store} (h₁ : Shrunk db₁ db₂) (h₂ : Shrunk db₂ db₃) :
    Shrunk db₁ db₃ where
  sockets          := h₂.sockets.trans h₁.sockets
  owners           := h₂.owners.trans h₁.owners
  registered S D h := h₁.registered S D <| h₂.registered S D h

theorem leave_shrunk : Shrunk db (db.leave S D) := by
  obtain ⟨_, he⟩ | ⟨clients, hf, hm, ⟨hr, he⟩ | ⟨hr, he⟩⟩ := db.leave_cases S D <;> rw [he]
  case inl     => exact .refl
  case inr.inl =>
    refine ⟨rfl, rfl, fun S' D' ⟨clients', hf', hm'⟩ => ⟨clients', ?_, hm'⟩⟩
    exact Table.find?_erase_eq_some hf'
  case inr.inr =>
    refine ⟨rfl, rfl, fun S' D' ⟨clients', hf', hm'⟩ => ?_⟩
    simp only [Table.find?_modify, hf, Option.map_some] at hf'
    split at hf'
    case isTrue hD =>
      obtain rfl := Option.some.inj hf'
      exact ⟨clients, hD ▸ hf, List.mem_of_mem_filter hm'⟩
    case isFalse => exact ⟨clients', hf', hm'⟩

theorem not_registered_leave : ¬(db.leave S D).Registered S D := by
  rintro ⟨clients', hf', hm'⟩
  obtain ⟨hn, he⟩ | ⟨clients, hf, hm, ⟨hr, he⟩ | ⟨hr, he⟩⟩ := db.leave_cases S D <;> rw [he] at hf'
  case inl     => exact hn ⟨clients', hf', hm'⟩
  case inr.inl => simp [Table.find?_erase] at hf'
  case inr.inr =>
    simp only [Table.find?_modify_self, hf, Option.map_some, Option.some.injEq] at hf'
    simp [← hf'] at hm'

section

variable {keys : List DeliveryId}

theorem Exact.foldl_leave (h : db.Exact) : (keys.foldl (·.leave S ·) db).Exact := by
  induction keys generalizing db
  case nil     => exact h
  case cons ih => exact ih h.leave

theorem foldl_leave_shrunk : Shrunk db (keys.foldl (·.leave S ·) db) := by
  induction keys generalizing db
  case nil     => exact .refl
  case cons ih => exact leave_shrunk.trans ih

theorem not_registered_foldl_leave (h : D ∈ keys) :
    ¬(keys.foldl (·.leave S ·) db).Registered S D := by
  induction keys generalizing db
  case nil => cases h
  case cons key keys ih =>
    cases List.mem_cons.mp h
    case inr h => exact ih h
    case inl h =>
      subst h
      exact fun hr => not_registered_leave <| foldl_leave_shrunk.registered _ _ hr

end

theorem registered_handleDisconnect (h : (db.handleDisconnect S).Registered S' D) :
    db.Registered S' D := by
  obtain ⟨clients, hf, hm⟩ := foldl_leave_shrunk.registered S' D h
  exact ⟨clients, hf, hm⟩

-- A socket that is closed leaves all deliveries.
theorem not_registered_handleDisconnect : ¬(db.handleDisconnect S).Registered S D := by
  intro hr
  by_cases hm : D ∈ db.subscriptions.rows.map Prod.fst
  case pos => exact not_registered_foldl_leave hm hr
  case neg =>
    obtain ⟨clients, hf, _⟩ := foldl_leave_shrunk.registered S D hr
    have : db.subscriptions.find? D = none := Table.find?_eq_none_iff.mpr hm
    simp [this] at hf

theorem Exact.register (h : db.Exact) : (db.register S D).Exact := by
  unfold Store.register
  cases hf : db.subscriptions.find? D
  case some clients =>
    refine ⟨fun D' => ?_, fun D' => ?_⟩
    case refine_1 =>
      simp only [Table.find?_modify, hf, Option.map_some]
      split
      case isTrue  => simpa using List.ne_nil_of_mem (List.mem_insert_self (a := S) (l := clients))
      case isFalse => exact h.nonempty D'
    case refine_2 =>
      simp only [Table.find?_modify, hf, Option.map_some, h.desired D']
      split
      case isTrue hD => simp [hD, hf]
      case isFalse   => rfl
  case none =>
    obtain ⟨t, ht⟩ : ∃ t, db.subscriptions.insert D [S] = some t := by
      cases hi : db.subscriptions.insert D [S]
      case some t => exact ⟨t, rfl⟩
      case none   => simp [Table.insert_eq_none_iff, hf] at hi
    simp only [ht, Option.getD_some, subscribeToDelivery]
    refine ⟨fun D' => ?_, fun D' => ?_⟩
    case refine_1 =>
      rw [Table.find?_insert ht]
      split
      case isTrue  => simp
      case isFalse => exact h.nonempty D'
    case refine_2 =>
      simp only [Table.find?_insert ht, List.mem_insert_iff, h.desired D']
      by_cases hD : D' = D <;> simp [hD, trackingChannel]

theorem registered_register (h : (db.register S D).Registered S' D') :
    (S' = S ∧ D' = D) ∨ db.Registered S' D' := by
  obtain ⟨clients', hf', hm⟩ := h
  unfold register at hf'
  cases hf : db.subscriptions.find? D <;> rw [hf] at hf'
  case some clients =>
    simp only [Table.find?_modify, hf, Option.map_some] at hf'
    split at hf'
    case isFalse => exact .inr ⟨clients', hf', hm⟩
    case isTrue hD =>
      obtain rfl := Option.some.inj hf'
      obtain he | hm := List.mem_insert_iff.mp hm
      case inl => exact .inl ⟨he, hD⟩
      case inr => exact .inr ⟨clients, hD ▸ hf, hm⟩
  case none =>
    simp only [subscribeToDelivery] at hf'
    cases hi : db.subscriptions.insert D [S] <;> rw [hi] at hf'
    case none   => exact .inr ⟨clients', hf', hm⟩
    case some t =>
      rw [Option.getD_some, Table.find?_insert hi] at hf'
      split at hf'
      case isFalse => exact .inr ⟨clients', hf', hm⟩
      case isTrue hD =>
        obtain rfl := Option.some.inj hf'
        exact .inl ⟨List.mem_singleton.mp hm, hD⟩

theorem sockets_register : (db.register S D).sockets = db.sockets := by
  unfold register
  cases db.subscriptions.find? D <;> rfl

theorem sockets_handleDisconnect : (db.handleDisconnect S).sockets =
    db.sockets.modify S ({ · with readyState := .closed }) :=
  foldl_leave_shrunk.sockets

end Store

section

variable {db : Store} {S : SocketId} {D : DeliveryId} {U : UserId} {x : Stmt}

theorem Store.Exact.exec (h : db.Exact) : (Stmt.exec x db).snd.Exact := by
  cases x
  case disconnect S =>
    simp only [Stmt.exec]
    split
    case isTrue  => exact Store.Exact.foldl_leave ⟨h.nonempty, h.desired⟩
    case isFalse => exact h
  case findOne =>
    simp only [Stmt.exec]
    split <;> exact h
  case register => exact h.register
  case unsubscribe S D =>
    simp only [Stmt.exec]
    split
    case isTrue  => exact h.leave
    case isFalse => exact h
  all_goals exact ⟨h.nonempty, h.desired⟩

-- Who is registered has just been registered, or was registered before and has not been closed.
theorem registered_exec (h : (Stmt.exec x db).snd.Registered S D) :
    x = .register S D ∨
      db.Registered S D ∧ (x = .disconnect S → (db.connected? S).isSome = false) := by
  cases x
  case disconnect S' =>
    simp only [Stmt.exec] at h
    split at h
    case isFalse hn =>
      refine .inr ⟨h, fun he => ?_⟩
      obtain rfl := Stmt.disconnect.inj he
      exact Bool.eq_false_iff.mpr hn
    case isTrue =>
      refine .inr ⟨Store.registered_handleDisconnect h, fun he => ?_⟩
      obtain rfl := Stmt.disconnect.inj he
      exact (Store.not_registered_handleDisconnect h).elim
  case register S' D' =>
    obtain ⟨rfl, rfl⟩ | h := Store.registered_register h
    case inl => exact .inl rfl
    case inr => exact .inr ⟨h, nofun⟩
  case findOne =>
    simp only [Stmt.exec] at h
    split at h <;> exact .inr ⟨h, nofun⟩
  case unsubscribe S' D' =>
    simp only [Stmt.exec] at h
    split at h
    case isTrue  => exact .inr ⟨Store.leave_shrunk.registered _ _ h, nofun⟩
    case isFalse => exact .inr ⟨h, nofun⟩
  all_goals exact .inr ⟨h, nofun⟩

-- What a statement does to a socket that exists.
theorem find?_exec {client : Socket} (h : db.sockets.find? S = some client) :
    ∃ client', (Stmt.exec x db).snd.sockets.find? S = some client' ∧
      (x ≠ .disconnect S → client.readyState ≠ .closed → client'.readyState ≠ .closed) ∧
      ((∀ U, x ≠ .authenticate S U) → client'.userId = client.userId) := by
  have same : ∃ client', db.sockets.find? S = some client' ∧
      (x ≠ .disconnect S → client.readyState ≠ .closed → client'.readyState ≠ .closed) ∧
      ((∀ U, x ≠ .authenticate S U) → client'.userId = client.userId) :=
    ⟨client, h, fun _ hc => hc, fun _ => rfl⟩
  cases x
  case accept S' =>
    simp only [Stmt.exec, Store.accept]
    cases hi : db.sockets.insert S' {}
    case none   => exact same
    case some t =>
      have hne : S ≠ S' := by
        rintro rfl
        simp [Table.find?_of_insert hi] at h
      rw [Option.getD_some, Table.find?_insert hi, if_neg hne]
      exact same
  case close S' =>
    simp only [Stmt.exec, Store.close, Table.find?_modify]
    split
    case isFalse   => exact same
    case isTrue he =>
      rw [← he, h]
      refine ⟨_, rfl, fun _ hc => ?_, fun _ => ?_⟩
      case refine_1 => by_cases ho : client.readyState = .open' <;> simp [ho, hc]
      case refine_2 => by_cases ho : client.readyState = .open' <;> simp [ho]
  case authenticate S' U =>
    simp only [Stmt.exec, Store.authenticate, Table.find?_modify]
    split
    case isFalse   => exact same
    case isTrue he =>
      subst he
      rw [h]
      refine ⟨_, rfl, fun _ hc => ?_, fun hn => absurd rfl <| hn U⟩
      by_cases ho : client.readyState = .open' <;> simp [ho, hc]
  case disconnect S' =>
    simp only [Stmt.exec]
    split
    case isFalse => exact same
    case isTrue  =>
      rw [Store.sockets_handleDisconnect, Table.find?_modify]
      split
      case isFalse   => exact same
      case isTrue he =>
        subst he
        rw [h]
        exact ⟨_, rfl, fun hn => absurd rfl hn, fun _ => rfl⟩
  case findOne =>
    simp only [Stmt.exec]
    split <;> exact same
  case register =>
    simp only [Stmt.exec, Store.sockets_register]
    exact same
  case unsubscribe =>
    simp only [Stmt.exec]
    split
    case isTrue  => rw [Store.leave_shrunk.sockets]; exact same
    case isFalse => exact same
  all_goals exact same

theorem connected?_exec (h : (db.connected? S).isSome) (hx : x ≠ .disconnect S) :
    ((Stmt.exec x db).snd.connected? S).isSome := by
  obtain ⟨client, hc⟩ := Option.isSome_iff_exists.mp h
  obtain ⟨hf, hr⟩ := Option.filter_eq_some_iff.mp hc
  obtain ⟨client', hf', hr', _⟩ := find?_exec (x := x) hf
  rw [Store.connected?, hf', Option.filter_some]
  simp [hr' hx <| of_decide_eq_true hr]

theorem find?_exec_none (h : db.sockets.find? S = none) :
    (Stmt.exec x db).snd.userOf S = none := by
  have same : db.userOf S = none := by rw [Store.userOf, h, Option.bind_none]
  have modified {S' f} : ((db.sockets.modify S' f).find? S).bind (·.userId) = none := by
    rw [Table.find?_modify]
    split
    case isTrue he => simp [← he, h]
    case isFalse   => exact same
  cases x
  case accept S' =>
    simp only [Stmt.exec, Store.accept, Store.userOf]
    cases hi : db.sockets.insert S' {}
    case none   => exact same
    case some t =>
      rw [Option.getD_some, Table.find?_insert hi]
      split
      case isTrue  => rfl
      case isFalse => exact same
  case close        => exact modified
  case authenticate => exact modified
  case disconnect S' =>
    simp only [Stmt.exec]
    split
    case isFalse => exact same
    case isTrue  => rw [Store.userOf, Store.sockets_handleDisconnect]; exact modified
  case findOne =>
    simp only [Stmt.exec]
    split <;> exact same
  case register => rw [Store.userOf, Stmt.exec, Store.sockets_register]; exact same
  case unsubscribe =>
    simp only [Stmt.exec]
    split
    case isTrue  => rw [Store.userOf, Store.leave_shrunk.sockets]; exact same
    case isFalse => exact same
  all_goals exact same

-- The user of a socket only changes when the socket is authenticated.
theorem userOf_exec (hx : ∀ U, x ≠ .authenticate S U) :
    (Stmt.exec x db).snd.userOf S = db.userOf S := by
  cases hf : db.sockets.find? S
  case none => rw [find?_exec_none hf, Store.userOf, hf, Option.bind_none]
  case some =>
    obtain ⟨client', hf', _, hu'⟩ := find?_exec (x := x) hf
    rw [Store.userOf, Store.userOf, hf', hf, Option.bind_some, Option.bind_some, hu' hx]

end

-- Which user a message came from, and which delivery it is allowed to subscribe to.
def Authorized (S : SocketId) (D : DeliveryId) (es : Log) : Prop :=
  ∃ U, (∃ e ∈ es, e.pre.userOf S = some U) ∧
    ∃ e ∈ es, e.stmt = .findOne U D ∧ e.pre.owners.find? D = some U

-- What a handler has done before. A socket is authenticated by its own connection, and only once.
def Earlier (t : Nat) (x : Stmt) (es : Log) : Prop :=
  match x with
  | .authenticate S _ => S = t ∧ ∀ e ∈ es, ∀ U, e.stmt ≠ .authenticate S U
  | .register S D     => Authorized S D es
  | _                 => True

section

variable {t : Nat} {c : Call}

theorem handleConnection_follows {token : Option (Except AppError UserId)} :
    (handleConnection t token).Follows system t c (Earlier t) (fun _ _ => True) (fun _ _ => True)
      [] := by
  refine Method.follows_stmt_bind.mpr ⟨trivial, fun db => ?_⟩
  obtain _ | _ | sub := token
  case none     => exact Method.follows_tx.mpr ⟨trivial, fun _ => trivial⟩
  case some.error => exact Method.follows_tx.mpr ⟨trivial, fun _ => trivial⟩
  case some.ok  => exact Method.follows_tx.mpr ⟨⟨rfl, by simp⟩, fun _ => trivial⟩

theorem handleSubscribe_follows {S : SocketId} {deliveryId : Option DeliveryId}
    {lookup : Outcome AppError} :
    (handleSubscribe S deliveryId lookup).Follows system t c (Earlier t) (fun _ _ => True)
      (fun _ _ => True) [] := by
  refine Method.follows_stmt_bind.mpr ⟨trivial, fun db => ?_⟩
  simp only [system, Stmt.exec]
  cases hc : db.connected? S
  case none => trivial
  case some client =>
    cases hu : client.userId <;> cases deliveryId <;> simp only [hu]
    case some.some U D =>
      refine Method.follows_bind.mpr <| Method.follows_handle.mpr <| Method.follows_bind.mpr ?_
      cases lookup
      case rolledBack => trivial
      case lost =>
        refine Method.follows_bind.mpr <| Method.follows_tx.mpr ⟨trivial, fun db' => ?_⟩
        split <;> trivial
      case committed =>
        refine Method.follows_tx.mpr ⟨trivial, fun db' => ?_⟩
        simp only [Stmt.exec]
        split
        case h_2 => trivial
        case h_1 ho =>
          have owned : db'.owners.find? D = some U := by
            by_contra hn
            simp [hn] at ho
          have user : db.userOf S = some U := by
            rw [Store.userOf, (Option.filter_eq_some_iff.mp hc).left, Option.bind_some, hu]
          refine Method.follows_stmt_bind.mpr ⟨⟨U, ?_, ?_⟩, fun _ => trivial⟩
          case refine_1 => exact ⟨_, .tail _ <| .head _, user⟩
          case refine_2 => exact ⟨_, .head _, rfl, owned⟩
    all_goals trivial

theorem call_follows : (system.prog t c).Follows system t c (Earlier t) (fun _ _ => True) [] := by
  cases c
  case connect        => exact Method.follows_toCall.mpr handleConnection_follows
  case disconnect     => exact Method.follows_toCall.mpr <| Method.follows_tx.mpr ⟨trivial, fun _ => trivial⟩
  case close          => exact Method.follows_toCall.mpr <| Method.follows_tx.mpr ⟨trivial, fun _ => trivial⟩
  case createDelivery => exact Method.follows_toCall.mpr <| Method.follows_tx.mpr ⟨trivial, fun _ => trivial⟩
  case subscribe      => exact Method.follows_toCall.mpr handleSubscribe_follows
  case unsubscribe S deliveryId =>
    refine Method.follows_toCall.mpr ?_
    cases deliveryId
    case none => trivial
    case some => exact Method.follows_stmt_bind.mpr ⟨trivial, fun _ => trivial⟩

end

-- At first there are no sockets.
def Initial (db : Store) : Prop :=
  ∃ owners, db = .init owners

-- The socket belongs to a user that owned the delivery when its subscription was looked up.
def Owned (w : World Stmt.sig Store Call) (S : SocketId) (D : DeliveryId) : Prop :=
  ∃ U, w.db.userOf S = some U ∧ ∃ r ∈ w.log, r.stmt = .register S D ∧
    ∃ e ∈ w.log, e.tid = r.tid ∧ e.stmt = .findOne U D ∧ e.pre.owners.find? D = some U

section

variable {P : Policy Stmt.sig Store Call} {s : Pool Stmt.sig Store Call} {t : Nat} {c : Call}
variable {x : Stmt} {S : SocketId} {D : DeliveryId} {U : UserId}

theorem exact (h : Reachable system P Initial s) : s.db.Exact := by
  refine h.invariant (I := fun w => w.db.Exact) ?_ fun _ ih => ih.exec
  rintro _ ⟨_, rfl⟩
  exact ⟨nofun, fun _ => by simp [Store.init]⟩

theorem earlier (h : Reachable system P Initial s) (ha : s.AboutTo t c x) :
    Earlier t x (s.world.own t) :=
  h.follows_aboutTo (F := fun t _ => Earlier t) (Q := fun _ _ _ => True) (fun _ _ _ => call_follows)
    ha

-- A socket that has a user has been authenticated by its connection.
theorem authenticated (h : Reachable system P Initial s) (hu : s.db.userOf S = some U) :
    ∃ e ∈ s.world.own S, ∃ U, e.stmt = .authenticate S U := by
  refine h.invariant (I := fun w => w.db.userOf S = some U →
    ∃ e ∈ w.own S, ∃ U, e.stmt = Stmt.authenticate S U) ?_ (fun {s t c x} st ih hu => ?_) hu
  case refine_1 =>
    rintro _ ⟨_, rfl⟩ hu
    cases hu
  case refine_2 =>
    have grow {e} (he : e ∈ s.world.own S) : e ∈ (s.world.exec system t c x).own S := by
      by_cases hne : S = t
      case pos => subst hne; rw [World.own_exec]; exact .tail _ he
      case neg => rwa [World.own_exec_of_ne hne]
    by_cases hx : ∃ U', x = .authenticate S U'
    case pos =>
      obtain ⟨U', rfl⟩ := hx
      obtain ⟨rfl, _⟩ := earlier st.reachable st.aboutTo
      exact ⟨_, by rw [World.own_exec]; exact .head _, U', rfl⟩
    case neg =>
      obtain ⟨e, he, hs⟩ := ih <| (userOf_exec fun U' he => hx ⟨U', he⟩) ▸ hu
      exact ⟨e, grow he, hs⟩

theorem userOf_step (st : StepOf system P Initial s t c x) (hu : s.db.userOf S = some U) :
    (Stmt.exec x s.db).snd.userOf S = some U := by
  rw [userOf_exec, hu]
  rintro U' rfl
  obtain ⟨rfl, hn⟩ := earlier st.reachable st.aboutTo
  obtain ⟨e, he, U'', hs⟩ := authenticated st.reachable hu
  exact hn e he U'' hs

-- A socket keeps its user.
theorem userOf_kept {e : Entry Stmt.sig Store Call} (h : Reachable system P Initial s)
    (he : e ∈ s.log) (hu : e.pre.userOf S = some U) : s.db.userOf S = some U := by
  refine h.invariant (I := fun w => ∀ e ∈ w.log, e.pre.userOf S = some U → w.db.userOf S = some U)
    (by simp) (fun {s t c x} st ih e he hu => ?_) e he hu
  refine userOf_step st ?_
  cases List.mem_cons.mp he
  case inl he => subst he; exact hu
  case inr he => exact ih e he hu

theorem owned (h : Reachable system P Initial s) (hr : s.db.Registered S D) :
    Owned s.world S D := by
  refine h.invariant (I := fun w => w.db.Registered S D → Owned w S D) ?_
    (fun {s t c x} st ih hr => ?_) hr
  case refine_1 =>
    rintro _ ⟨_, rfl⟩ ⟨_, hf, _⟩
    cases hf
  case refine_2 =>
    obtain rfl | ⟨hr, _⟩ := registered_exec hr
    case inl =>
      obtain ⟨U, ⟨m, hm, hu⟩, e, he, hs, ho⟩ := earlier st.reachable st.aboutTo
      obtain ⟨hm, _⟩ := List.mem_filter.mp hm
      obtain ⟨he, ht⟩ := List.mem_filter.mp he
      refine ⟨U, userOf_step st <| userOf_kept st.reachable hm hu, _, .head _, rfl, e, .tail _ he,
        of_decide_eq_true ht, hs, ho⟩
    case inr =>
      obtain ⟨U, hu, r, hm, hs, e, he, hrest⟩ := ih hr
      exact ⟨U, userOf_step st hu, r, .tail _ hm, hs, e, .tail _ he, hrest⟩

end

-- The runs in which a socket is still connected when the lookup of its subscription returns.
def staysConnected : Policy Stmt.sig Store Call where
  step s _ _ x :=
    match x with
    | .register S _ => (s.db.connected? S).isSome
    | _             => True

instance {s : Pool Stmt.sig Store Call} {t : Nat} {c : Call} {x : Stmt} :
    Decidable (staysConnected.step s t c x) := by
  unfold staysConnected; dsimp only; split <;> infer_instance

instance : DecidablePred staysConnected.spawn :=
  fun _ => inferInstanceAs (Decidable True)

instance : Decidable staysConnected.crash :=
  inferInstanceAs (Decidable True)

-- The map and the channels are exact, and the map only contains sockets that are connected and that
-- were allowed to subscribe.
theorem registry_exact {s : Pool Stmt.sig Store Call} (h : Reachable system staysConnected Initial s) :
    (∀ D, s.db.subscriptions.find? D ≠ some []) ∧
    (∀ ch, ch ∈ s.db.desired ↔ ∃ D clients, trackingChannel D = ch ∧
      s.db.subscriptions.find? D = some clients) ∧
    ∀ D clients S, s.db.subscriptions.find? D = some clients → S ∈ clients →
      (s.db.connected? S).isSome ∧ Owned s.world S D := by
  have he := exact h
  refine ⟨he.nonempty, fun ch => ?_, fun D clients S hf hm => ?_⟩
  case refine_1 =>
    obtain ⟨D⟩ := ch
    refine (he.desired D).trans ⟨fun hs => ?_, ?_⟩
    case refine_1 =>
      obtain ⟨clients, hf⟩ := Option.isSome_iff_exists.mp hs
      exact ⟨D, clients, rfl, hf⟩
    case refine_2 =>
      rintro ⟨D', clients, hc, hf⟩
      obtain rfl := Channel.mk.inj hc
      exact Option.isSome_of_eq_some hf
  case refine_2 =>
    have hr : s.db.Registered S D := ⟨clients, hf, hm⟩
    refine ⟨?_, owned h hr⟩
    refine h.invariant (I := fun w => w.db.Registered S D → (w.db.connected? S).isSome) ?_
      (fun {s t c x} st ih hr => ?_) hr
    case refine_1 =>
      rintro _ ⟨_, rfl⟩ ⟨_, hf, _⟩
      cases hf
    case refine_2 =>
      obtain rfl | ⟨hr, hd⟩ := registered_exec hr
      case inl => exact connected?_exec st.allowed nofun
      case inr =>
        refine connected?_exec (ih hr) fun hx => ?_
        simp [hd hx] at ih
        exact ih hr

-- The user `1` connects, and the lookup of its subscription takes place.
def lookedUp : List (Cmd Call) :=
  List.flatten [
    Cmd.run 0 (.createDelivery 7 1) 1, Cmd.run 1 (.connect <| some <| .ok 1) 2,
    Cmd.run 2 (.subscribe 1 (some 7) .committed) 2]

theorem registry_exact_subscribed : ∃ s : Pool Stmt.sig Store Call,
    Reachable system staysConnected Initial s ∧ s.db.subscriptions.find? 7 = some [1] ∧
      (∀ D, s.db.subscriptions.find? D ≠ some []) ∧
      (∀ ch, ch ∈ s.db.desired ↔ ∃ D clients, trackingChannel D = ch ∧
        s.db.subscriptions.find? D = some clients) ∧
      ∀ D clients S, s.db.subscriptions.find? D = some clients → S ∈ clients →
        (s.db.connected? S).isSome ∧ Owned s.world S D := by
  let s := (Pool.init (.init .empty)).runCmds system (lookedUp ++ [.exec 2])
  have hr : Reachable system staysConnected Initial s :=
    (Reachable.init ⟨_, rfl⟩).runCmds (by decide)
  exact ⟨s, hr, by decide, registry_exact hr⟩

-- The socket is closed before the lookup returns, and stays registered forever.
theorem registry_exact_missed : ∃ s : Pool Stmt.sig Store Call,
    Reachable system {} Initial s ∧ s.Quiescent ∧ s.db.subscriptions.find? 7 = some [1] ∧
      (s.db.connected? 1).isSome = false := by
  let s := (Pool.init (.init .empty)).runCmds system
    (lookedUp ++ Cmd.run 3 (.disconnect 1) 1 ++ [.exec 2])
  have hr : Reachable system {} Initial s := Reachable.runCmds_of_free _ <| .init ⟨_, rfl⟩
  exact ⟨s, hr, Pool.idle_runCmds (by decide), by decide, by decide⟩

end Drovery.Gateway
