import Mathlib.Data.List.Infix
import Drovery.Services.Pubsub
import Drovery.Theorems.Gateway

namespace Drovery.Gateway.Pubsub

open Concurrency

section

variable {s : String} {start stop : Nat} {N : Naming} {id : String} {v : Json}

-- The id of a channel is what its name has been made of.
theorem Naming.id_channel (N : Naming) (id : String) : N.id (N.channel id) = id := by
  apply String.toList_injective
  unfold Naming.id slice channel
  simp only [String.toList_ofList, String.toList_append, ← String.length_toList, List.length_append,
    List.append_assoc, List.drop_left]
  rw [← Nat.add_assoc, Nat.add_sub_cancel, Nat.add_sub_cancel_left, List.take_left]

theorem Naming.channel_injective (N : Naming) : Function.Injective N.channel :=
  Function.LeftInverse.injective N.id_channel

end

namespace Params

variable {P : Params} {D D' : DeliveryId} {p : Payload}

theorem channel_inj : P.channel D = P.channel D' ↔ D = D' :=
  (Naming.tracking.channel_injective.comp P.injective).eq_iff

@[simp]
theorem channel_doPublish : (P.doPublish p).channel = P.channel p.deliveryId := by
  unfold doPublish pubSubPublish
  split <;> rfl

@[simp]
theorem event_doPublish : (P.doPublish p).event = pubSubMessageEvent P.mode := by
  unfold doPublish pubSubPublish pubSubMessageEvent
  split <;> rfl

@[simp]
theorem message_doPublish : (P.doPublish p).message = Json.stringify (P.payload p) := by
  unfold doPublish pubSubPublish
  split <;> rfl

@[simp]
theorem bounded_payload : (P.payload p).bounded = P.payload p := by
  obtain ⟨D, status, droneStatus, droneLat, droneLng⟩ := p
  cases status <;> cases droneStatus <;> cases droneLat <;> cases droneLng <;>
    simp [payload, Json.bounded, Json.boundedProperties]

-- What has been published is what the handler is called with.
theorem dispatch_doPublish :
    Naming.tracking.dispatch (P.doPublish p) = some (P.text p.deliveryId, P.payload p) := by
  simp [Naming.dispatch, Json.parse_stringify, channel, Naming.id_channel]

theorem payload_ne_null : P.payload p ≠ .null := by
  simp [payload]

end Params

namespace Connection

variable {c : Connection} {cmd : Command} {cmds : List Command} {mode : PubSubMode} {ch : String}

theorem subscribed_pipeline : { c with pipeline := cmds }.subscribed mode = c.subscribed mode := by
  cases mode <;> rfl

-- What a command does to the channels of a mode.
theorem mem_process : ch ∈ (c.process cmd).subscribed mode ↔
    pubSubSubscribe ch mode = cmd ∨ ch ∈ c.subscribed mode ∧ pubSubUnsubscribe ch mode ≠ cmd := by
  cases cmd <;> cases mode <;>
    simp [process, subscribed, pubSubSubscribe, pubSubUnsubscribe]

theorem mem_of_mem_foldl_process (h : ch ∈ (cmds.foldl process c).subscribed mode) :
    pubSubSubscribe ch mode ∈ cmds ∨ ch ∈ c.subscribed mode := by
  induction cmds generalizing c
  case nil => exact .inr h
  case cons cmd cmds ih =>
    cases ih h
    case inl h => exact .inl <| .tail _ h
    case inr h =>
      cases mem_process.mp h
      case inl h => exact .inl <| h ▸ .head _
      case inr h => exact .inr h.left

-- The last command on a channel decides.
theorem mem_settled_send (h : c.writable) : ch ∈ (c.send cmd).settled.subscribed mode ↔
    pubSubSubscribe ch mode = cmd ∨
      ch ∈ c.settled.subscribed mode ∧ pubSubUnsubscribe ch mode ≠ cmd := by
  rw [send, if_pos h]
  simp only [settled, List.foldl_append]
  exact mem_process

theorem process_inbox {inbox : List Message} :
    { c with inbox }.process cmd = { c.process cmd with inbox } := by
  cases cmd <;> rfl

theorem settled_inbox {inbox : List Message} :
    { c with inbox }.settled = { c.settled with inbox } := by
  have fold (cmds : List Command) : ∀ c : Connection,
      cmds.foldl process { c with inbox } = { cmds.foldl process c with inbox } := by
    induction cmds
    case nil          => exact fun _ => rfl
    case cons cmd cmds ih =>
      intro c
      rw [List.foldl_cons, process_inbox]
      exact ih _
  exact fold c.pipeline { c with pipeline := [] }

theorem subscribed_settled_inbox {inbox : List Message} :
    { c with inbox }.settled.subscribed mode = c.settled.subscribed mode := by
  rw [settled_inbox]
  cases mode <;> rfl

theorem process_pipeline :
    { c.process cmd with pipeline := cmds } = { c with pipeline := cmds }.process cmd := by
  cases cmd <;> rfl

-- That Redis catches up does not change what it will have registered in the end.
theorem settled_serve : c.serve.settled = c.settled := by
  unfold serve settled
  cases hp : c.pipeline
  case nil => rw [hp]
  case cons cmd cmds =>
    have hc : ({ c with pipeline := cmds }.process cmd).pipeline = cmds := by cases cmd <;> rfl
    simp only [hc, List.foldl_cons, process_pipeline]

theorem listening_empty {event : PubSubEvent} : ({} : Connection).listening event = [] := by
  cases event <;> rfl

theorem listening_pubSubMessageEvent :
    c.listening (pubSubMessageEvent mode) = c.subscribed mode := by
  cases mode <;> rfl

@[simp]
theorem writable_send : (c.send cmd).writable = c.writable := by
  unfold send
  split <;> rfl

@[simp]
theorem replayed_send : (c.send cmd).replayed = c.replayed := by
  unfold send
  split <;> rfl

theorem send_of_not_writable (h : c.writable = false) : c.send cmd = c := by
  simp [send, h]

@[simp]
theorem writable_serve : c.serve.writable = c.writable := by
  unfold serve
  split
  case h_1 => rfl
  case h_2 cmd _ _ => cases cmd <;> rfl

@[simp]
theorem replayed_serve : c.serve.replayed = c.replayed := by
  unfold serve
  split
  case h_1 => rfl
  case h_2 cmd _ _ => cases cmd <;> rfl

end Connection

section

variable {P : Params} {D D' : DeliveryId} {ch : String} {M : PubSubMode}

theorem subscribe_eq_subscribeToDelivery :
    pubSubSubscribe ch M = P.subscribeToDelivery D ↔ M = P.mode ∧ P.channel D = ch := by
  unfold Params.subscribeToDelivery pubSubSubscribe
  cases M <;> cases P.mode <;> simp [eq_comm]

theorem unsubscribe_eq_unsubscribeFromDelivery :
    pubSubUnsubscribe ch M = P.unsubscribeFromDelivery D ↔ M = P.mode ∧ P.channel D = ch := by
  unfold Params.unsubscribeFromDelivery pubSubUnsubscribe
  cases M <;> cases P.mode <;> simp [eq_comm]

theorem subscribe_ne_unsubscribeFromDelivery :
    pubSubSubscribe ch M ≠ P.unsubscribeFromDelivery D := by
  unfold Params.unsubscribeFromDelivery pubSubSubscribe pubSubUnsubscribe
  cases M <;> cases P.mode <;> simp

theorem unsubscribe_ne_subscribeToDelivery :
    pubSubUnsubscribe ch M ≠ P.subscribeToDelivery D := by
  unfold Params.subscribeToDelivery pubSubSubscribe pubSubUnsubscribe
  cases M <;> cases P.mode <;> simp

end

-- What Redis will have registered in the end against the deliveries that are desired: once the
-- connection is ready there is a channel for each of them, and the others are only those that the
-- client has repeated.
structure Aligned (P : Params) (rearmed : Bool) (desired : List Channel) (c : Connection) : Prop
    where
  down   : c.writable = false → c = {}
  up     : rearmed → c.writable
  covers : rearmed → ∀ D, trackingChannel D ∈ desired → P.channel D ∈ c.settled.subscribed P.mode
  within : ∀ mode ch, ch ∈ c.settled.subscribed mode → pubSubSubscribe ch mode ∈ c.replayed ∨
    mode = P.mode ∧ ∃ D, trackingChannel D ∈ desired ∧ P.channel D = ch

namespace Aligned

variable {P : Params} {rearmed : Bool} {desired desired' : List Channel} {c : Connection}
variable {D : DeliveryId}

theorem empty : Aligned P false desired {} where
  down   := fun _ => rfl
  up     := fun h => by cases h
  covers := fun h => by cases h
  within := fun mode _ h => by cases mode <;> cases h

theorem disarmed (h : Aligned P rearmed desired c) : Aligned P false desired c where
  down   := h.down
  up     := fun hr => by cases hr
  covers := fun hr => by cases hr
  within := h.within

-- As long as the connection is down, it does not matter what is desired.
theorem of_down (h : Aligned P rearmed desired c) (hw : c.writable = false) :
    Aligned P rearmed desired' c := by
  have hr : rearmed = false := Bool.eq_false_iff.mpr fun hr => by simp [h.up hr] at hw
  rw [hr, h.down hw]
  exact empty

theorem subscribe (h : Aligned P rearmed desired c) :
    Aligned P rearmed (desired.insert <| trackingChannel D)
      (c.send <| P.subscribeToDelivery D) := by
  cases hw : c.writable
  case false =>
    rw [Connection.send_of_not_writable hw]
    exact h.of_down hw
  case true =>
    constructor
    case down => simp [hw]
    case up   => simp [hw]
    case covers =>
      intro hr D' hD
      apply (Connection.mem_settled_send hw).mpr
      cases List.mem_insert_iff.mp hD
      case inl he =>
        have he : D' = D := congrArg Channel.deliveryId he
        exact .inl <| subscribe_eq_subscribeToDelivery.mpr ⟨rfl, he ▸ rfl⟩
      case inr hm => exact .inr ⟨h.covers hr D' hm, unsubscribe_ne_subscribeToDelivery⟩
    case within =>
      intro mode ch hm
      cases (Connection.mem_settled_send hw).mp hm
      case inl he =>
        have ⟨hmode, hch⟩ := subscribe_eq_subscribeToDelivery.mp he
        exact .inr ⟨hmode, D, List.mem_insert_self, hch⟩
      case inr hm =>
        apply (h.within mode ch hm.left).imp (by simp)
        exact fun ⟨hmode, D', hD, hch⟩ => ⟨hmode, D', List.mem_insert_of_mem hD, hch⟩

theorem unsubscribe (h : Aligned P rearmed desired c) :
    Aligned P rearmed (desired.filter (· ≠ trackingChannel D))
      (c.send <| P.unsubscribeFromDelivery D) := by
  cases hw : c.writable
  case false =>
    rw [Connection.send_of_not_writable hw]
    exact h.of_down hw
  case true =>
    constructor
    case down => simp [hw]
    case up   => simp [hw]
    case covers =>
      intro hr D' hD
      have ⟨hm, hn⟩ := List.mem_filter.mp hD
      apply (Connection.mem_settled_send hw).mpr
      refine .inr ⟨h.covers hr D' hm, fun he => ?_⟩
      have he := Params.channel_inj.mp (unsubscribe_eq_unsubscribeFromDelivery.mp he).right
      simp [he] at hn
    case within =>
      intro mode ch hm
      cases (Connection.mem_settled_send hw).mp hm
      case inl he => exact (subscribe_ne_unsubscribeFromDelivery he).elim
      case inr hm =>
        apply (h.within mode ch hm.left).imp (by simp)
        intro ⟨hmode, D', hD, hch⟩
        refine ⟨hmode, D', List.mem_filter.mpr ⟨hD, ?_⟩, hch⟩
        apply decide_eq_true
        intro he
        have he : D' = D := congrArg Channel.deliveryId he
        exact hm.right <| unsubscribe_eq_unsubscribeFromDelivery.mpr ⟨hmode, he ▸ hch⟩

variable {db : Store} {S : SocketId} {Ds : List DeliveryId} {inbox : List Message}
variable {replayed : List Command}

theorem leave (h : Aligned P rearmed db.desired c) :
    Aligned P rearmed (db.leave S D).desired ((P.leave db S D).foldl Connection.send c) := by
  unfold Store.leave Params.leave
  cases db.subscriptions.find? D
  case none => exact h
  case some clients =>
    by_cases hm : S ∈ clients
    case neg => simpa [hm] using h
    case pos =>
      by_cases hr : clients.filter (· ≠ S) = []
      case pos =>
        simp only [hm, hr, and_self, if_true]
        exact h.unsubscribe
      case neg =>
        simp only [hm, hr, and_false, if_true, if_false]
        exact h

theorem leaveAll (h : Aligned P rearmed db.desired c) :
    Aligned P rearmed (Ds.foldl (·.leave S ·) db).desired
      ((P.leaveAll S Ds db).foldl Connection.send c) := by
  induction Ds generalizing db c
  case nil => exact h
  case cons D Ds ih =>
    rw [Params.leaveAll, List.foldl_append]
    exact ih h.leave

-- The commands follow what a statement does to the deliveries that are desired.
theorem commands (h : Aligned P rearmed db.desired c) (x : Stmt) :
    Aligned P rearmed (Stmt.exec x db).snd.desired ((P.commands x db).foldl Connection.send c) := by
  cases x
  case disconnect S =>
    simp only [Stmt.exec, Params.commands]
    split
    case isTrue  => exact leaveAll h
    case isFalse => exact h
  case findOne =>
    simp only [Stmt.exec]
    split <;> exact h
  case register S D =>
    simp only [Stmt.exec, Params.commands, Store.register]
    cases db.subscriptions.find? D
    case none   => exact h.subscribe
    case some _ => exact h
  case unsubscribe S D =>
    simp only [Stmt.exec, Params.commands]
    split
    case isTrue  => exact h.leave
    case isFalse => exact h
  all_goals exact h

theorem connect (h : Aligned P rearmed desired c) :
    Aligned P rearmed desired (c.connect replayed) := by
  unfold Connection.connect
  split
  case isTrue     => exact h
  case isFalse hw =>
    constructor
    case down   => simp
    case up     => simp
    case covers => exact fun hr => (hw <| h.up hr).elim
    case within =>
      intro mode ch hm
      apply (Connection.mem_of_mem_foldl_process hm).imp id
      cases mode <;> exact fun hn => by cases hn

theorem serve (h : Aligned P rearmed desired c) : Aligned P rearmed desired c.serve where
  down hw := by
    rw [Connection.writable_serve] at hw
    rw [h.down hw]
    rfl
  up     := by simpa using h.up
  covers := by simpa [Connection.settled_serve] using h.covers
  within := by simpa [Connection.settled_serve] using h.within

theorem receive (h : Aligned P rearmed desired c) (hi : c.writable = false → inbox = []) :
    Aligned P rearmed desired { c with inbox } where
  down hw := by rw [h.down hw, hi hw]
  up      := h.up
  covers  := by simpa [Connection.subscribed_settled_inbox] using h.covers
  within  := by simpa [Connection.subscribed_settled_inbox] using h.within

-- Once the connection is ready, there is a channel for each delivery that is desired.
theorem rearm (h : Aligned P rearmed desired c) (hw : c.writable) :
    Aligned P true desired
      (desired.foldl (fun c ch => c.send <| P.subscribeToDelivery ch.deliveryId) c) := by
  have fold (chs : List Channel) (hs : chs ⊆ desired) : ∀ c, c.writable →
      (∀ D, trackingChannel D ∈ desired →
        trackingChannel D ∈ chs ∨ P.channel D ∈ c.settled.subscribed P.mode) →
      Aligned P false desired c → Aligned P true desired
        (chs.foldl (fun c ch => c.send <| P.subscribeToDelivery ch.deliveryId) c) := by
    induction chs
    case nil =>
      intro c hw hc h
      exact ⟨h.down, fun _ => hw, fun _ D hD => (hc D hD).resolve_left (List.not_mem_nil), h.within⟩
    case cons ch chs ih =>
      intro c hw hc h
      apply ih fun _ hm => hs <| .tail _ hm
      case a => simpa using hw
      case a =>
        intro D hD
        rw [Connection.mem_settled_send hw]
        cases hc D hD
        case inr hm => exact .inr <| .inr ⟨hm, unsubscribe_ne_subscribeToDelivery⟩
        case inl hm =>
          cases List.mem_cons.mp hm
          case inr hm => exact .inl hm
          case inl he => exact .inr <| .inl <| he ▸ rfl
      case a =>
        have hm : trackingChannel ch.deliveryId ∈ desired := hs <| .head _
        have := h.subscribe (D := ch.deliveryId)
        rwa [List.insert_of_mem hm] at this
  exact fold desired (List.Subset.refl _) c hw (fun _ hD => .inl hD) h.disarmed

end Aligned

section

variable {P : Params} {db : Store} {S S' : SocketId} {D D' : DeliveryId} {x : Stmt}

theorem not_registered_of_none (h : db.subscriptions.find? D = none) : ¬db.Registered S D := by
  intro ⟨_, hf, _⟩
  rw [h] at hf
  cases hf

-- The subscriber only gives up the channel of a delivery that nobody follows any more.
theorem not_registered_of_leave (h : P.unsubscribeFromDelivery D ∈ P.leave db S' D') :
    ¬(db.leave S' D').Registered S D := by
  unfold Params.leave at h
  unfold Store.leave
  cases hf : db.subscriptions.find? D' <;> simp only [hf] at h
  case none => cases h
  case some clients =>
    split at h
    case isFalse => cases h
    case isTrue hl =>
      have he := List.mem_singleton.mp h
      have he : D' = D := Params.channel_inj.mp
        (unsubscribe_eq_unsubscribeFromDelivery (M := P.mode).mp he).right
      subst he
      simp only [hl.left, hl.right, if_true]
      apply not_registered_of_none
      simp [Store.unsubscribeFromDelivery, Table.find?_erase]

theorem not_registered_of_leaveAll {Ds : List DeliveryId}
    (h : P.unsubscribeFromDelivery D ∈ P.leaveAll S' Ds db) :
    ¬(Ds.foldl (·.leave S' ·) db).Registered S D := by
  induction Ds generalizing db
  case nil => cases h
  case cons D' Ds ih =>
    rw [Params.leaveAll] at h
    cases List.mem_append.mp h
    case inl h =>
      exact fun hr => not_registered_of_leave h <| Store.foldl_leave_shrunk.registered _ _ hr
    case inr h => exact ih h

theorem not_registered_of_commands (h : P.unsubscribeFromDelivery D ∈ P.commands x db) :
    ¬(Stmt.exec x db).snd.Registered S D := by
  cases x <;> simp only [Params.commands] at h
  case disconnect S =>
    split at h
    case isTrue hc =>
      simp only [Stmt.exec, if_pos hc]
      exact not_registered_of_leaveAll h
    case isFalse => cases h
  case register =>
    split at h
    case isTrue  =>
      exact (unsubscribe_ne_subscribeToDelivery (M := P.mode) <| List.mem_singleton.mp h).elim
    case isFalse => cases h
  case unsubscribe =>
    split at h
    case isTrue hc =>
      simp only [Stmt.exec, if_pos hc]
      exact not_registered_of_leave h
    case isFalse => cases h
  all_goals cases h

-- No socket follows a delivery twice.
def Distinct (db : Store) : Prop :=
  ∀ D clients, db.subscriptions.find? D = some clients → clients.Nodup

theorem Distinct.leave (h : Distinct db) : Distinct (db.leave S D) := by
  intro D' clients' hf'
  cases db.leave_cases S D
  case inl he => exact h D' clients' <| he.right ▸ hf'
  case inr he =>
    have ⟨clients, hf, hm, he⟩ := he
    cases he
    case inl he =>
      rw [he.right] at hf'
      exact h D' clients' <| Table.find?_erase_eq_some hf'
    case inr he =>
      rw [he.right] at hf'
      simp only [Table.find?_modify, hf, Option.map_some] at hf'
      split at hf'
      case isFalse => exact h D' clients' hf'
      case isTrue  => exact Option.some.inj hf' ▸ (h D clients hf).filter _

theorem Distinct.foldl_leave {Ds : List DeliveryId} (h : Distinct db) :
    Distinct (Ds.foldl (·.leave S ·) db) := by
  induction Ds generalizing db
  case nil          => exact h
  case cons D Ds ih => exact ih h.leave

theorem Distinct.register (h : Distinct db) : Distinct (db.register S D) := by
  intro D' clients' hf'
  unfold Store.register at hf'
  cases hf : db.subscriptions.find? D <;> rw [hf] at hf'
  case some clients =>
    simp only [Table.find?_modify, hf, Option.map_some] at hf'
    split at hf'
    case isFalse => exact h D' clients' hf'
    case isTrue  => exact Option.some.inj hf' ▸ (h D clients hf).insert
  case none =>
    simp only [Store.subscribeToDelivery] at hf'
    cases hi : db.subscriptions.insert D [S] <;> rw [hi] at hf'
    case none   => exact h D' clients' hf'
    case some t =>
      rw [Option.getD_some, Table.find?_insert hi] at hf'
      split at hf'
      case isFalse => exact h D' clients' hf'
      case isTrue  => exact Option.some.inj hf' ▸ List.nodup_singleton S

theorem Distinct.exec (h : Distinct db) : Distinct (Stmt.exec x db).snd := by
  cases x
  case disconnect S =>
    simp only [Stmt.exec]
    split
    case isTrue  => exact Distinct.foldl_leave h
    case isFalse => exact h
  case findOne =>
    simp only [Stmt.exec]
    split <;> exact h
  case register => exact h.register
  case unsubscribe =>
    simp only [Stmt.exec]
    split
    case isTrue  => exact h.leave
    case isFalse => exact h
  all_goals exact h

end

namespace Replica

variable {P : Params} {r : Replica} {e : Event} {owners : Table DeliveryId UserId}

-- A scheduling decision only changes the store by the statement that it executes.
theorem db_apply (s : Pool Stmt.sig Store Call) (c : Cmd Call) :
    (s.apply system c).db =
      match c with
      | .exec t => ((s.next? t).map fun (_, x) => (Stmt.exec x s.db).snd).getD s.db
      | _       => s.db := by
  cases c
  case spawn t _ =>
    simp only [Pool.apply]
    split <;> rfl
  case crash t =>
    simp only [Pool.apply]
    split <;> rfl
  case exec t =>
    simp only [Pool.apply, Pool.next?]
    split <;> rfl

def Sound (P : Params) (r : Replica) : Prop :=
  Aligned P r.rearmed r.db.desired r.conn

theorem Sound.exec (h : r.Sound P) : (r.exec P e).Sound P := by
  cases e
  case cmd c =>
    unfold Sound db
    simp only [Replica.exec, db_apply]
    cases c
    case exec t =>
      simp only [issued]
      cases r.pool.next? t
      case none => exact h
      case some => exact h.commands _
    all_goals exact h
  case connect replayed => exact h.connect
  case ready =>
    simp only [Replica.exec]
    split
    case isTrue hw => exact h.rearm hw
    case isFalse   => exact h
  case serve => exact h.serve
  case drop => exact .empty
  case publish p =>
    simp only [Replica.exec, Connection.route]
    split
    case isFalse   => exact h
    case isTrue hm =>
      apply h.receive
      intro hw
      rw [h.down hw, Connection.listening_empty] at hm
      cases hm
  case receive bufferedAmount =>
    simp only [Replica.exec, receive]
    split
    case h_1 => exact h
    case h_2 m ms hi =>
      apply h.receive
      intro hw
      rw [h.down hw] at hi
      cases hi

theorem Sound.run (h : r.Sound P) (events : List Event) : (r.run P events).Sound P := by
  induction events generalizing r
  case nil          => exact h
  case cons e es ih => exact ih h.exec

theorem sound (events : List Event) : ((init owners).run P events).Sound P :=
  Sound.run (r := init owners) .empty events

theorem pool_exec :
    (r.exec P e).pool = r.pool ∨ ∃ c, (r.exec P e).pool = r.pool.apply system c := by
  cases e
  case cmd c => exact .inr ⟨c, rfl⟩
  case ready =>
    simp only [Replica.exec]
    split <;> exact .inl rfl
  case receive =>
    simp only [Replica.exec, receive]
    split <;> exact .inl rfl
  all_goals exact .inl rfl

theorem run_concat (events : List Event) :
    r.run P (events ++ [e]) = (r.run P events).exec P e := by
  simp [run]

-- What the gateway of a replica does is a run of the gateway.
theorem reachable (events : List Event) :
    Reachable system {} Initial ((init owners).run P events).pool := by
  induction events using List.reverseRecOn
  case nil => exact .init ⟨owners, rfl⟩
  case append_singleton events e ih =>
    rw [run_concat]
    cases @pool_exec P ((init owners).run P events) e
    case inl he => exact he ▸ ih
    case inr he =>
      have ⟨c, he⟩ := he
      rw [he]
      apply ih.apply
      cases c
      case exec => exact fun _ _ => trivial
      all_goals trivial

-- No client stays deaf: as soon as a connection is ready, whatever happened on the previous ones,
-- the commands under way lead to a channel for each delivery that somebody follows. All other
-- channels are those that the client has repeated by itself.
theorem channels_rearmed {events : List Event} (hr : (init owners).run P events = r)
    (h : r.rearmed) :
    (∀ D, (r.db.subscriptions.find? D).isSome → P.channel D ∈ r.conn.settled.subscribed P.mode) ∧
    ∀ mode ch, ch ∈ r.conn.settled.subscribed mode → pubSubSubscribe ch mode ∈ r.conn.replayed ∨
      mode = P.mode ∧ ∃ D, (r.db.subscriptions.find? D).isSome ∧ P.channel D = ch := by
  have hs : r.Sound P := hr ▸ sound events
  have he : r.db.Exact := hr ▸ exact (reachable events)
  constructor
  case left => exact fun D hD => hs.covers h D <| (he.desired D).mpr hD
  case right =>
    intro mode ch hm
    apply (hs.within mode ch hm).imp id
    exact fun ⟨hmode, D, hD, hch⟩ => ⟨hmode, D, (he.desired D).mp hD, hch⟩

-- The ids are the numerals of twelve digits or more.
def numbered : Params where
  text D             := .ofList <| Decimal.pad 12 D
  injective          :=
    (Function.LeftInverse.injective fun _ => String.toList_ofList).comp Decimal.pad_injective
  config             := some "sharded"
  wsMaxBufferedBytes := 65536

-- The user `1` follows the delivery `7`. The connection comes up, is lost and comes up again.
def reconnected : List Event :=
  lookedUp.map .cmd ++
    [.connect [], .ready, .cmd <| .exec 2, .serve, .drop, .connect [], .ready, .serve]

theorem channels_rearmed_reconnected : ∃ r, (init .empty).run numbered reconnected = r ∧ r.rearmed ∧
    (∀ D, (r.db.subscriptions.find? D).isSome →
      numbered.channel D ∈ r.conn.settled.subscribed numbered.mode) ∧
    ∀ mode ch, ch ∈ r.conn.settled.subscribed mode → pubSubSubscribe ch mode ∈ r.conn.replayed ∨
      mode = numbered.mode ∧ ∃ D, (r.db.subscriptions.find? D).isSome ∧ numbered.channel D = ch := by
  let r := (init .empty).run numbered reconnected
  have ha : r.rearmed := by decide
  exact ⟨r, rfl, ha, channels_rearmed rfl ha⟩

theorem distinct (events : List Event) : Distinct ((init owners).run P events).db := by
  apply (@reachable P owners events).invariant (I := fun w => Distinct w.db)
  case hi =>
    intro _ ⟨_, hi⟩ _ _ hf
    rw [hi] at hf
    cases hf
  case hs => exact fun _ h => h.exec

end Replica

-- What has been lost on the way, given that all frames that carry a status are there.
structure Trimmed (all : Prop) (sent received : List Json) : Prop where
  sublist  : received.Sublist sent
  status   : received.filter isStatusFrame = sent.filter isStatusFrame
  complete : all → received = sent

namespace Trimmed

variable {p q : Prop} {l l₁ l₂ l₃ : List Json} {x : Json}

theorem refl : Trimmed p l l :=
  ⟨.refl _, rfl, fun _ => rfl⟩

theorem append (h : Trimmed p l₁ l₂) : Trimmed p (l₁ ++ l) (l₂ ++ l) where
  sublist    := h.sublist.append_right _
  status     := by rw [List.filter_append, List.filter_append, h.status]
  complete a := by rw [h.complete a]

theorem trans (h₁ : Trimmed p l₁ l₂) (h₂ : Trimmed q l₂ l₃) : Trimmed (p ∧ q) l₁ l₃ where
  sublist    := h₂.sublist.trans h₁.sublist
  status     := h₂.status.trans h₁.status
  complete a := (h₂.complete a.right).trans (h₁.complete a.left)

-- A frame that may be dropped carries no status.
theorem drop (hx : isStatusFrame x = false) (hp : ¬p) : Trimmed p (l₁ ++ x :: l₂) (l₁ ++ l₂) where
  sublist    := (List.Sublist.refl _).append <| .cons _ <| .refl _
  status     := by simp [hx]
  complete a := (hp a).elim

theorem mono (h : Trimmed p l₁ l₂) (hq : q → p) : Trimmed q l₁ l₂ :=
  ⟨h.sublist, h.status, h.complete ∘ hq⟩

end Trimmed

section

variable (P : Params) (r : Replica) (S : SocketId) (D : DeliveryId)

-- The frames of a delivery that a socket has been sent, those that are about to be reported to the
-- replica, and those that are published by some events.
def sentTo : List Json :=
  (r.sent.filter fun f => f.socket = S ∧ f.deliveryId = P.text D).map (·.data)

def pending : List Json :=
  (r.conn.inbox.filter (·.channel = P.channel D)).filterMap fun m => Json.parse m.message

def published (events : List Event) : List Json :=
  events.filterMap fun
    | .publish p => if p.deliveryId = D then some (P.payload p) else none
    | _          => none

def Attached : Prop :=
  r.db.Registered S D ∧ ∃ client, r.db.sockets.find? S = some client ∧ client.readyState = .open'

instance : Decidable (r.db.Registered S D) :=
  inferInstanceAs <| Decidable (∃ clients ∈ r.db.subscriptions.find? D, S ∈ clients)

instance : Decidable (Attached r S D) :=
  inferInstanceAs <| Decidable (r.db.Registered S D ∧
    ∃ client ∈ r.db.sockets.find? S, client.readyState = .open')

-- The channel of a delivery is open, and will stay so.
structure Tuned : Prop where
  writable   : r.conn.writable
  subscribed : P.channel D ∈ r.conn.subscribed P.mode
  kept       : P.unsubscribeFromDelivery D ∉ r.conn.pipeline

-- There is nothing in the inbox but publications.
def Genuine : Prop :=
  ∀ m ∈ r.conn.inbox, ∃ p, m = P.doPublish p

end

namespace Connection

variable {c : Connection} {cmds : List Command} {m : Message}

theorem foldl_send (h : c.writable) :
    cmds.foldl send c = { c with pipeline := c.pipeline ++ cmds } := by
  induction cmds generalizing c
  case nil => simp
  case cons cmd cmds ih =>
    rw [List.foldl_cons, ih (c := c.send cmd) (by simpa using h)]
    simp [send, h]

theorem route_cases : c.route m = c ∨ c.route m = { c with inbox := c.inbox ++ [m] } := by
  unfold route
  split <;> simp

theorem inbox_process {cmd : Command} : (c.process cmd).inbox = c.inbox := by
  cases cmd <;> rfl

theorem inbox_serve : c.serve.inbox = c.inbox := by
  unfold serve
  split
  case h_1 => rfl
  case h_2 => exact inbox_process

end Connection

namespace Replica

variable {P : Params} {r : Replica} {e : Event} {S : SocketId} {D : DeliveryId}

theorem not_registered_of_issued {c : Cmd Call} (h : P.unsubscribeFromDelivery D ∈ r.issued P c) :
    ¬(r.exec P <| .cmd c).db.Registered S D := by
  unfold db
  simp only [exec, db_apply]
  cases c <;> simp only [issued] at h
  case exec t =>
    cases hn : r.pool.next? t <;> simp only [hn] at h ⊢
    case none => cases h
    case some =>
      simp only [Option.map_some, Option.getD_some]
      exact not_registered_of_commands h
  all_goals cases h

theorem conn_cmd {c : Cmd Call} (h : r.conn.writable) : (r.exec P <| .cmd c).conn =
    { r.conn with pipeline := r.conn.pipeline ++ r.issued P c } :=
  Connection.foldl_send h

theorem conn_ready (h : r.conn.writable) : (r.exec P .ready).conn =
    { r.conn with
      pipeline := r.conn.pipeline ++ r.db.desired.map (P.subscribeToDelivery ·.deliveryId) } := by
  rw [← Connection.foldl_send h, List.foldl_map]
  simp only [exec, if_pos h]
  rfl

end Replica

namespace Tuned

variable {P : Params} {r : Replica} {e : Event} {S : SocketId} {D : DeliveryId}
variable {cmds : List Command}

theorem sends (h : Tuned P r D) (hn : P.unsubscribeFromDelivery D ∉ cmds) {r' : Replica}
    (hr : r'.conn = { r.conn with pipeline := r.conn.pipeline ++ cmds }) : Tuned P r' D where
  writable   := by simpa [hr] using h.writable
  subscribed := by simpa [hr, Connection.subscribed_pipeline] using h.subscribed
  kept       := by simp [hr, h.kept, hn]

-- A channel remains open as long as the delivery is followed and the connection is up.
theorem exec (h : Tuned P r D) (he : e ≠ .drop) (hr : (r.exec P e).db.Registered S D) :
    Tuned P (r.exec P e) D := by
  cases e
  case cmd c =>
    apply h.sends _ <| Replica.conn_cmd h.writable
    exact fun hm => Replica.not_registered_of_issued hm hr
  case connect replayed =>
    have hc : r.conn.connect replayed = r.conn := if_pos h.writable
    constructor <;> simp only [Replica.exec, hc]
    case writable   => exact h.writable
    case subscribed => exact h.subscribed
    case kept       => exact h.kept
  case ready =>
    apply h.sends _ <| Replica.conn_ready h.writable
    intro hm
    have ⟨_, _, he⟩ := List.mem_map.mp hm
    exact subscribe_ne_unsubscribeFromDelivery (M := P.mode) he
  case serve =>
    cases hp : r.conn.pipeline
    case nil =>
      have hc : r.conn.serve = r.conn := by simp [Connection.serve, hp]
      constructor <;> simp only [Replica.exec, hc]
      case writable   => exact h.writable
      case subscribed => exact h.subscribed
      case kept       => exact h.kept
    case cons cmd cmds =>
      have hc : r.conn.serve = { r.conn with pipeline := cmds }.process cmd := by
        simp [Connection.serve, hp]
      have hk := h.kept
      rw [hp, List.mem_cons, not_or] at hk
      constructor
      case writable => simpa [Replica.exec] using h.writable
      case subscribed =>
        simp only [Replica.exec, hc]
        apply Connection.mem_process.mpr
        exact .inr ⟨h.subscribed, hk.left⟩
      case kept =>
        have hq : ({ r.conn with pipeline := cmds }.process cmd).pipeline = cmds := by
          cases cmd <;> rfl
        simpa only [Replica.exec, hc, hq] using hk.right
  case drop => exact (he rfl).elim
  case publish p =>
    cases Connection.route_cases (c := r.conn) (m := P.doPublish p)
    all_goals
      rename_i hc
      constructor <;> simp only [Replica.exec, hc]
      case writable   => exact h.writable
      case subscribed => exact h.subscribed
      case kept       => exact h.kept
  case receive bufferedAmount =>
    simp only [Replica.exec, Replica.receive]
    split
    case h_1 => exact h
    case h_2 => exact ⟨h.writable, h.subscribed, h.kept⟩

end Tuned

section

variable {P : Params} {db : Store} {bufferedAmount : SocketId → Nat} {data : Json}
variable {S : SocketId} {D : DeliveryId} {f : Sent}

theorem findFirst_text : db.subscriptions.findFirst (fun D' _ => P.text D' = P.text D) =
    (db.subscriptions.find? D).map (D, ·) := by
  simp only [P.injective.eq_iff, Table.find?, Option.map_map]
  cases hf : db.subscriptions.findFirst fun D' _ => D' = D
  case none => rfl
  case some row =>
    have he : row.fst = D := by simpa using List.find?_some hf
    simp [← he]

-- What is sent on behalf of a delivery goes to those who follow it.
theorem registered_of_mem_deliver
    (h : f ∈ P.deliverToLocalClients db bufferedAmount (P.text D) data) :
    f.deliveryId = P.text D ∧ f.data = data ∧ db.Registered f.socket D := by
  unfold Params.deliverToLocalClients at h
  rw [findFirst_text] at h
  cases hf : db.subscriptions.find? D <;> simp only [hf, Option.map_none, Option.map_some] at h
  case none => cases h
  case some clients =>
    split at h
    case isTrue  => cases h
    case isFalse =>
      have ⟨S, hS, he⟩ := List.mem_map.mp h
      subst he
      exact ⟨rfl, rfl, clients, hf, (List.mem_filter.mp hS).left⟩

theorem filter_eq_of_nodup {l : List SocketId} (hn : l.Nodup) (hm : S ∈ l) :
    l.filter (· = S) = [S] := by
  rw [List.filter_eq, List.count_eq_one_of_mem hn hm]
  rfl

-- A socket that follows the delivery is sent one copy, unless it is backed up and may do without.
theorem deliver_to (hd : Distinct db) (hr : db.Registered S D)
    (ho : ∃ client, db.sockets.find? S = some client ∧ client.readyState = .open')
    (hn : data ≠ .null) :
    (P.deliverToLocalClients db bufferedAmount (P.text D) data).filter
      (fun f => f.socket = S ∧ f.deliveryId = P.text D) =
    if isStatusFrame data ∨ bufferedAmount S ≤ P.wsMaxBufferedBytes then
      [{ socket := S, deliveryId := P.text D, data }]
    else
      [] := by
  have ⟨clients, hf, hm⟩ := hr
  have ⟨client, hc, hs⟩ := ho
  unfold Params.deliverToLocalClients
  rw [findFirst_text, hf]
  simp only [Option.map_some, if_neg hn, List.filter_map, List.filter_filter, Function.comp_def,
    and_true]
  have hp : (clients.filter fun S' => decide (S' = S) && decide (((db.sockets.find? S').any
      fun x => decide (x.readyState = .open')) = true ∧
      (isStatusFrame data = true ∨ bufferedAmount S' ≤ P.wsMaxBufferedBytes))) =
      (clients.filter (· = S)).filter fun S' =>
        isStatusFrame data = true ∨ bufferedAmount S' ≤ P.wsMaxBufferedBytes := by
    rw [List.filter_filter]
    apply List.filter_congr
    intro S' _
    by_cases he : S' = S
    case pos => simp [he, hc, hs]
    case neg => simp [he]
  rw [hp, filter_eq_of_nodup (hd D clients hf) hm]
  split
  case isTrue h  => simp [h]
  case isFalse h => simp [h]

theorem deliver_sublist (hd : Distinct db) :
    (((P.deliverToLocalClients db bufferedAmount (P.text D) data).filter
      fun f => f.socket = S ∧ f.deliveryId = P.text D).map (·.data)).Sublist [data] := by
  unfold Params.deliverToLocalClients
  rw [findFirst_text]
  cases hf : db.subscriptions.find? D
  case none => simp
  case some clients =>
    simp only [Option.map_some]
    split
    case isTrue => simp
    case isFalse =>
      simp only [List.filter_map, List.map_map, Function.comp_def, List.map_const', and_true]
      rw [List.filter_eq, List.length_replicate]
      have hn := (hd D clients hf).filter fun client =>
        (db.sockets.find? client).any (·.readyState = .open') ∧
          (isStatusFrame data ∨ bufferedAmount client ≤ P.wsMaxBufferedBytes)
      exact (List.replicate_sublist_replicate data).mpr <| List.nodup_iff_count_le_one.mp hn S

end

namespace Replica

variable {P : Params} {r r' : Replica} {e : Event} {es : List Event} {p : Payload} {m : Message}
variable {bufferedAmount : SocketId → Nat} {S : SocketId} {D : DeliveryId}

theorem reported_doPublish : r.reported P bufferedAmount (P.doPublish p) =
    P.deliverToLocalClients r.db bufferedAmount (P.text p.deliveryId) (P.payload p) := by
  simp [reported, Params.dispatch_doPublish]

theorem sentTo_append {frames : List Sent} : sentTo P { r with sent := r.sent ++ frames } S D =
    sentTo P r S D ++
      (frames.filter fun f => f.socket = S ∧ f.deliveryId = P.text D).map (·.data) := by
  simp [sentTo]

theorem filter_deliver_of_ne (hn : p.deliveryId ≠ D) :
    (P.deliverToLocalClients r.db bufferedAmount (P.text p.deliveryId) (P.payload p)).filter
      (fun f => f.socket = S ∧ f.deliveryId = P.text D) = [] := by
  apply List.filter_eq_nil_iff.mpr
  intro f hf
  have ⟨hi, _⟩ := registered_of_mem_deliver hf
  simp [hi, P.injective.ne hn]

theorem pending_doPublish {inbox : List Message} :
    pending P { r with conn := { r.conn with inbox := P.doPublish p :: inbox } } D =
      (if p.deliveryId = D then [P.payload p] else []) ++
        pending P { r with conn := { r.conn with inbox } } D := by
  unfold pending
  by_cases hp : p.deliveryId = D
  case pos => simp [hp, Json.parse_stringify]
  case neg => simp [hp, Params.channel_inj]

theorem receive_cons {ms : List Message} (hi : r.conn.inbox = P.doPublish p :: ms) :
    sentTo P (r.receive P bufferedAmount) S D ++ pending P (r.receive P bufferedAmount) D =
      sentTo P r S D ++ ((P.deliverToLocalClients r.db bufferedAmount (P.text p.deliveryId)
        (P.payload p)).filter fun f => f.socket = S ∧ f.deliveryId = P.text D).map (·.data) ++
          pending P { r with conn := { r.conn with inbox := ms } } D ∧
    pending P r D = (if p.deliveryId = D then [P.payload p] else []) ++
      pending P { r with conn := { r.conn with inbox := ms } } D := by
  constructor
  case left =>
    simp only [receive, hi, reported_doPublish]
    rw [← sentTo_append]
    rfl
  case right => rw [← pending_doPublish, ← hi]

-- The replica reports a publication to one of its clients.
theorem flow_receive (hg : Genuine P r) (hd : Distinct r.db) (ha : Attached r S D) :
    Trimmed (bufferedAmount S ≤ P.wsMaxBufferedBytes) (sentTo P r S D ++ pending P r D)
      (sentTo P (r.receive P bufferedAmount) S D ++ pending P (r.receive P bufferedAmount) D) := by
  cases hi : r.conn.inbox
  case nil =>
    simp only [receive, hi]
    exact .refl
  case cons m ms =>
    have ⟨p, hm⟩ := hg m <| hi ▸ .head _
    subst hm
    have ⟨hl, hr⟩ := @receive_cons P r p bufferedAmount S D ms hi
    rw [hl, hr, ← List.append_assoc]
    by_cases hp : p.deliveryId = D
    case neg =>
      rw [filter_deliver_of_ne hp]
      simpa [hp] using .refl
    case pos =>
      subst hp
      rw [deliver_to hd ha.left ha.right Params.payload_ne_null]
      by_cases hb : isStatusFrame (P.payload p) ∨ bufferedAmount S ≤ P.wsMaxBufferedBytes
      case pos => simpa [hb] using .refl
      case neg =>
        have hd := not_or.mp hb
        simp only [if_neg hb, if_true, List.map_nil, List.append_nil]
        have ht := @Trimmed.drop _ (sentTo P r S p.deliveryId) [] _
          (Bool.eq_false_iff.mpr hd.left) hd.right
        exact Trimmed.append <| by simpa using ht

theorem flow_receive_sublist (hg : Genuine P r) (hd : Distinct r.db) :
    (sentTo P (r.receive P bufferedAmount) S D ++ pending P (r.receive P bufferedAmount) D).Sublist
      (sentTo P r S D ++ pending P r D) := by
  cases hi : r.conn.inbox
  case nil =>
    simp only [receive, hi]
    exact .refl _
  case cons m ms =>
    have ⟨p, hm⟩ := hg m <| hi ▸ .head _
    subst hm
    have ⟨hl, hr⟩ := @receive_cons P r p bufferedAmount S D ms hi
    rw [hl, hr, ← List.append_assoc]
    apply (List.Sublist.append_left _ _).append_right
    by_cases hp : p.deliveryId = D
    case neg =>
      rw [filter_deliver_of_ne hp]
      exact List.nil_sublist _
    case pos =>
      subst hp
      rw [if_pos rfl]
      exact deliver_sublist hd

theorem sentTo_eq (h : r'.sent = r.sent) : sentTo P r' S D = sentTo P r S D := by
  simp only [sentTo, h]

theorem pending_eq (h : r'.conn.inbox = r.conn.inbox) : pending P r' D = pending P r D := by
  simp only [pending, h]

-- Nothing but a publication adds to the frames that are on their way.
theorem flow_same (hs : (r.exec P e).sent = r.sent) (hi : (r.exec P e).conn.inbox = r.conn.inbox)
    (hp : published P D [e] = []) {q : Prop} :
    Trimmed q (sentTo P r S D ++ pending P r D ++ published P D [e])
      (sentTo P (r.exec P e) S D ++ pending P (r.exec P e) D) := by
  rw [sentTo_eq hs, pending_eq hi, hp, List.append_nil]
  exact .refl

theorem pending_concat :
    pending P { r with conn := { r.conn with inbox := r.conn.inbox ++ [P.doPublish p] } } D =
      pending P r D ++ published P D [.publish p] := by
  unfold pending published
  by_cases hp : p.deliveryId = D
  case pos => simp [hp, Json.parse_stringify]
  case neg => simp [hp, Params.channel_inj]

-- What an event does to the frames of a delivery on their way to a socket that follows it.
theorem flow (ht : Tuned P r D) (hg : Genuine P r) (hd : Distinct r.db) (ha : Attached r S D)
    (he : e ≠ .drop) :
    Trimmed (∀ b, .receive b = e → b S ≤ P.wsMaxBufferedBytes)
      (sentTo P r S D ++ pending P r D ++ published P D [e])
      (sentTo P (r.exec P e) S D ++ pending P (r.exec P e) D) := by
  cases e
  case cmd c =>
    apply flow_same
    case hs => rfl
    case hi => rw [conn_cmd ht.writable]
    case hp => rfl
  case connect replayed =>
    have hc : r.conn.connect replayed = r.conn := if_pos ht.writable
    apply flow_same
    case hs => rfl
    case hi => simp only [exec, hc]
    case hp => rfl
  case ready =>
    apply flow_same
    case hs => simp [exec, ht.writable, rearmAll]
    case hi => rw [conn_ready ht.writable]
    case hp => rfl
  case serve =>
    apply flow_same
    case hs => rfl
    case hi => exact Connection.inbox_serve
    case hp => rfl
  case drop => exact (he rfl).elim
  case publish p =>
    by_cases hp : p.deliveryId = D
    case pos =>
      have hm : (P.doPublish p).channel ∈ r.conn.listening (P.doPublish p).event := by
        simpa [Connection.listening_pubSubMessageEvent, hp] using ht.subscribed
      have hr : r.exec P (.publish p) =
          { r with conn := { r.conn with inbox := r.conn.inbox ++ [P.doPublish p] } } := by
        simp only [exec, Connection.route, if_pos hm]
      rw [hr, pending_concat, List.append_assoc]
      exact .refl
    case neg =>
      have hn : published P D [.publish p] = [] := by simp [published, hp]
      cases Connection.route_cases (c := r.conn) (m := P.doPublish p)
      case inl hc =>
        apply flow_same
        case hs => rfl
        case hi => simp only [exec, hc]
        case hp => exact hn
      case inr hc =>
        simp only [exec, hc]
        rw [pending_concat, List.append_assoc]
        exact .refl
  case receive bufferedAmount =>
    have hn : published P D [.receive bufferedAmount] = [] := rfl
    rw [hn, List.append_nil]
    exact (flow_receive hg hd ha).mono fun h => h bufferedAmount rfl

end Replica

namespace Connection

variable {c : Connection} {cmd : Command} {cmds replayed : List Command}

theorem inbox_foldl_send : (cmds.foldl send c).inbox = c.inbox := by
  induction cmds generalizing c
  case nil => rfl
  case cons cmd cmds ih =>
    rw [List.foldl_cons, ih, send]
    split <;> rfl

theorem inbox_connect : (c.connect replayed).inbox ⊆ c.inbox := by
  unfold connect
  split <;> simp

end Connection

namespace Replica

variable {P : Params} {r r' : Replica} {e : Event} {es : List Event} {m : Message}
variable {owners : Table DeliveryId UserId} {S : SocketId} {D : DeliveryId}

theorem inbox_rearmAll : (r.rearmAll P).conn.inbox = r.conn.inbox := by
  simp only [rearmAll, ← List.foldl_map]
  exact Connection.inbox_foldl_send

theorem mem_inbox_exec (h : m ∈ (r.exec P e).conn.inbox) :
    m ∈ r.conn.inbox ∨ ∃ p, e = .publish p ∧ m = P.doPublish p := by
  cases e
  case cmd c => exact .inl <| Connection.inbox_foldl_send ▸ h
  case connect replayed => exact .inl <| Connection.inbox_connect h
  case ready =>
    simp only [exec] at h
    split at h
    case isTrue  => exact .inl <| inbox_rearmAll ▸ h
    case isFalse => exact .inl h
  case serve => exact .inl <| Connection.inbox_serve ▸ h
  case drop => cases h
  case publish p =>
    simp only [exec] at h
    cases Connection.route_cases (c := r.conn) (m := P.doPublish p)
    case inl hc => exact .inl <| hc ▸ h
    case inr hc =>
      rw [hc] at h
      apply (List.mem_append.mp h).imp id
      exact fun hm => ⟨p, rfl, List.mem_singleton.mp hm⟩
  case receive bufferedAmount =>
    simp only [exec, receive] at h
    split at h
    case h_1 => exact .inl h
    case h_2 hi => exact .inl <| hi ▸ .tail _ h

-- The replica is only told of what has been published.
theorem mem_inbox (events : List Event) : ∀ m ∈ ((init owners).run P events).conn.inbox,
    ∃ p, .publish p ∈ events ∧ m = P.doPublish p := by
  induction events using List.reverseRecOn
  case nil => exact fun m hm => by cases hm
  case append_singleton events e ih =>
    intro m hm
    rw [run_concat] at hm
    cases mem_inbox_exec hm
    case inl hm =>
      have ⟨p, hp, he⟩ := ih m hm
      exact ⟨p, List.mem_append_left _ hp, he⟩
    case inr he =>
      have ⟨p, hp, he⟩ := he
      exact ⟨p, List.mem_append_right _ <| hp ▸ .head _, he⟩

theorem genuine (events : List Event) : Genuine P ((init owners).run P events) := by
  intro m hm
  have ⟨p, _, he⟩ := mem_inbox events m hm
  exact ⟨p, he⟩

theorem run_append (es es' : List Event) : r.run P (es ++ es') = (r.run P es).run P es' :=
  List.foldl_append

theorem published_append (es es' : List Event) :
    published P D (es ++ es') = published P D es ++ published P D es' :=
  List.filterMap_append

theorem tuned_of_rearmed (h : r.Sound P) (hr : r.rearmed) (hp : r.conn.pipeline = [])
    (hD : trackingChannel D ∈ r.db.desired) : Tuned P r D where
  writable   := h.up hr
  subscribed := by
    simpa [Connection.settled, hp, Connection.subscribed_pipeline] using h.covers hr D hD
  kept       := by simp [hp]

theorem Tuned.run (h : Tuned P r D) (hn : .drop ∉ es)
    (hs : ∀ es', es' <+: es → Attached (r.run P es') S D) : Tuned P (r.run P es) D := by
  induction es using List.reverseRecOn
  case nil => exact h
  case append_singleton es e ih =>
    have ht := ih (fun hm => hn <| List.mem_append_left _ hm) fun es' hp =>
      hs es' <| hp.trans <| List.prefix_append ..
    have ha := hs _ <| List.prefix_refl _
    rw [run_concat] at ha ⊢
    apply ht.exec _ ha.left
    exact fun he => hn <| List.mem_append_right _ <| he ▸ .head _

-- While the connection of a replica is up and its channels are open, every frame that is published
-- for a delivery reaches each client that follows it, once and in order. A frame may only be dropped
-- if it carries no status and the client is backed up when it is reported.
theorem frames_delivered {events es : List Event} (hr : (init owners).run P events = r)
    (hr' : r.run P es = r') (ha : r.rearmed) (hp : r.conn.pipeline = []) (hn : .drop ∉ es)
    (hs : ∀ es', es' <+: es → Attached (r.run P es') S D) :
    Trimmed (∀ b, .receive b ∈ es → b S ≤ P.wsMaxBufferedBytes)
      (sentTo P r S D ++ pending P r D ++ published P D es)
      (sentTo P r' S D ++ pending P r' D) := by
  have hD : trackingChannel D ∈ r.db.desired := by
    have ⟨⟨clients, hf, _⟩, _⟩ := hs [] <| List.nil_prefix
    apply ((hr ▸ exact (reachable events) : r.db.Exact).desired D).mpr
    simp [show r.db.subscriptions.find? D = some clients from hf]
  have ht : Tuned P r D := tuned_of_rearmed (hr ▸ sound events) ha hp hD
  subst hr'
  induction es using List.reverseRecOn
  case nil => simpa [published, run] using .refl
  case append_singleton es e ih =>
    have hn' : .drop ∉ es := fun hm => hn <| List.mem_append_left _ hm
    have hs' : ∀ es', es' <+: es → Attached (r.run P es') S D :=
      fun es' hp => hs es' <| hp.trans <| List.prefix_append ..
    have hi : r.run P es = (init owners).run P (events ++ es) := by rw [run_append, hr]
    have hf : Trimmed _ _ (sentTo P ((r.run P es).exec P e) S D ++ _) :=
      flow (Tuned.run ht hn' hs') (hi ▸ genuine _) (hi ▸ distinct _) (hs' es <| List.prefix_refl _)
        fun he => hn <| List.mem_append_right _ <| he ▸ .head _
    rw [run_concat, published_append, ← List.append_assoc]
    apply ((ih hn' hs').append.trans hf).mono
    intro h
    constructor
    case left  => exact fun b hb => h b <| List.mem_append_left _ hb
    case right => exact fun b hb => h b <| List.mem_append_right _ <| hb ▸ .head _

-- A change of the status, and a position that follows.
def changed : Payload where
  deliveryId := 7
  status     := some "PICKED_UP"
  drone      := {}

def moved : Payload where
  deliveryId := 7
  status     := none
  drone      := { droneLat := some <| .ofNat 48 (by decide), droneLng := some <| .ofNat 2 (by decide) }

theorem frames_delivered_reconnected : ∃ r r', (init .empty).run numbered reconnected = r ∧
    r.run numbered [.publish changed, .publish moved, .receive fun _ => 0] = r' ∧
      sentTo numbered r' 1 7 ++ pending numbered r' 7 =
        [numbered.payload changed, numbered.payload moved] := by
  let r := (init .empty).run numbered reconnected
  let es := [Event.publish changed, .publish moved, .receive fun _ => 0]
  have hs : ∀ es' ∈ es.inits, Attached (r.run numbered es') 1 7 := by decide
  have h : Trimmed _ _ (sentTo numbered (r.run numbered es) 1 7 ++ _) :=
    frames_delivered rfl rfl (by decide) (by decide) (by simp [es])
      fun es' hp => hs es' <| (List.mem_inits ..).mpr hp
  refine ⟨r, r.run numbered es, rfl, rfl, h.complete ?_⟩
  intro b hb
  simp [es] at hb
  simp [hb]

-- What an event does to the frames of a delivery, whoever follows it.
theorem flow_sublist (hg : Genuine P r) (hd : Distinct r.db) :
    (sentTo P (r.exec P e) S D ++ pending P (r.exec P e) D).Sublist
      (sentTo P r S D ++ pending P r D ++ published P D [e]) := by
  have shrink (hs : (r.exec P e).sent = r.sent)
      (hi : (r.exec P e).conn.inbox.Sublist r.conn.inbox) :
      (sentTo P (r.exec P e) S D ++ pending P (r.exec P e) D).Sublist
        (sentTo P r S D ++ pending P r D ++ published P D [e]) := by
    rw [sentTo_eq hs]
    apply List.Sublist.trans _ <| List.sublist_append_left ..
    exact ((hi.filter _).filterMap _).append_left _
  cases e
  case cmd c =>
    apply shrink rfl
    rw [show (r.exec P (.cmd c)).conn.inbox = _ from Connection.inbox_foldl_send]
  case connect replayed =>
    apply shrink rfl
    simp only [exec, Connection.connect]
    split
    case isTrue  => exact .refl _
    case isFalse => exact List.nil_sublist _
  case ready =>
    by_cases hw : r.conn.writable = true
    case neg =>
      have hr : r.exec P .ready = r := if_neg hw
      apply shrink <;> rw [hr]
    case pos =>
      apply shrink
      case hs => simp [exec, hw, rearmAll]
      case hi => rw [conn_ready hw]
  case serve =>
    apply shrink rfl
    rw [show (r.exec P .serve).conn.inbox = _ from Connection.inbox_serve]
  case drop => exact shrink rfl <| List.nil_sublist _
  case publish p =>
    cases Connection.route_cases (c := r.conn) (m := P.doPublish p)
    case inl hc =>
      apply shrink rfl
      simp only [exec, hc]
      exact .refl _
    case inr hc =>
      simp only [exec, hc]
      rw [pending_concat, List.append_assoc]
      exact .refl _
  case receive bufferedAmount =>
    apply List.Sublist.trans (flow_receive_sublist hg hd) <| List.sublist_append_left ..

-- Whatever happens to the connection, the frames of a delivery are sent in the order in which they
-- have been published, and none of them twice.
theorem frames_sublist (events : List Event) :
    (sentTo P ((init owners).run P events) S D ++
      pending P ((init owners).run P events) D).Sublist (published P D events) := by
  induction events using List.reverseRecOn
  case nil => exact .refl _
  case append_singleton events e ih =>
    rw [run_concat, published_append]
    exact (flow_sublist (genuine events) (distinct events)).trans <| ih.append_right _

end Replica

section

variable {s : Pool Stmt.sig Store Call} {S : SocketId} {D : DeliveryId}
variable {t : Nat} {c : Call} {x : Stmt}

theorem owned_step (st : StepOf system {} Initial s t c x) (h : Owned s.world S D) :
    Owned (s.world.exec system t c x) S D := by
  have ⟨U, hu, r, hr, hs, e, he, ho⟩ := h
  exact ⟨U, userOf_step st hu, r, .tail _ hr, hs, e, .tail _ he, ho⟩

theorem owned_apply {cmd : Cmd Call} (hr : Reachable system {} Initial s) (h : Owned s.world S D) :
    Owned (s.apply system cmd).world S D := by
  cases cmd <;> simp only [Pool.apply]
  case spawn =>
    split
    case h_1 => exact h
    case h_2 => exact h
  case crash =>
    split
    case h_1 => exact h
    case h_2 => exact h
  case exec =>
    split
    case h_1 ht => exact owned_step ⟨hr, ⟨_, ht, rfl, rfl, _, rfl⟩, trivial⟩ h
    case h_2    => exact h

end

namespace Replica

variable {P : Params} {r : Replica} {e : Event} {owners : Table DeliveryId UserId} {f : Sent}

-- A frame that is about to be sent.
theorem sent_exec {Q : Payload → Prop} (hg : ∀ m ∈ r.conn.inbox, ∃ p, Q p ∧ m = P.doPublish p)
    (h : f ∈ (r.exec P e).sent) : f ∈ r.sent ∨
      ∃ p, Q p ∧ f.deliveryId = P.text p.deliveryId ∧ f.data = P.payload p ∧
        r.db.Registered f.socket p.deliveryId := by
  cases e
  case ready =>
    simp only [exec] at h
    split at h <;> exact .inl h
  case receive bufferedAmount =>
    simp only [exec, receive] at h
    cases hi : r.conn.inbox <;> simp only [hi] at h
    case nil => exact .inl h
    case cons m ms =>
      have ⟨p, hp, hm⟩ := hg m <| hi ▸ .head _
      subst hm
      rw [reported_doPublish] at h
      apply (List.mem_append.mp h).imp id
      intro h
      have ⟨hd, he, hr⟩ := registered_of_mem_deliver h
      exact ⟨p, hp, hd, he, hr⟩
  all_goals exact .inl h

-- Frames only tell what has been published, and they only go to the sockets of the user that owned
-- the delivery when the subscription was looked up.
theorem frames_owned (events : List Event) : ∀ f ∈ ((init owners).run P events).sent,
    ∃ p, .publish p ∈ events ∧ f.deliveryId = P.text p.deliveryId ∧ f.data = P.payload p ∧
      Owned ((init owners).run P events).pool.world f.socket p.deliveryId := by
  induction events using List.reverseRecOn
  case nil => exact fun f hf => by cases hf
  case append_singleton events e ih =>
    intro f hf
    rw [run_concat] at hf ⊢
    have keep {S D} (h : Owned ((init owners).run P events).pool.world S D) :
        Owned (((init owners).run P events).exec P e).pool.world S D := by
      cases @pool_exec P ((init owners).run P events) e
      case inl he => exact he ▸ h
      case inr he =>
        have ⟨c, he⟩ := he
        exact he ▸ owned_apply (reachable events) h
    cases sent_exec (mem_inbox events) hf
    case inl hf =>
      have ⟨p, hp, hd, he, ho⟩ := ih f hf
      exact ⟨p, List.mem_append_left _ hp, hd, he, keep ho⟩
    case inr hf =>
      have ⟨p, hp, hd, he, hr⟩ := hf
      exact ⟨p, List.mem_append_left _ hp, hd, he, keep <| owned (reachable events) hr⟩

theorem frames_owned_moved :
    let r := (init .empty).run numbered (reconnected ++ [.publish moved, .receive fun _ => 0])
    ∃ f ∈ r.sent, ∃ p : Payload, f.deliveryId = numbered.text p.deliveryId ∧
      Owned r.pool.world f.socket p.deliveryId := by
  have hl : 0 < ((init .empty).run numbered
      (reconnected ++ [.publish moved, .receive fun _ => 0])).sent.length := by decide +kernel
  have ⟨f, hf⟩ := List.exists_mem_of_length_pos hl
  have ⟨p, _, hd, _, ho⟩ := frames_owned _ f hf
  exact ⟨f, hf, p, hd, ho⟩

end Replica

end Drovery.Gateway.Pubsub
