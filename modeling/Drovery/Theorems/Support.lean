import Drovery.Concurrency.Local
import Drovery.Services.Support

namespace Drovery.Support

open Concurrency

abbrev Log := List (Entry Stmt.sig Store Call)

namespace Store

def status? (db : Store) (T : TicketId) : Option SupportTicketStatus :=
  (db.tickets.find? T).map (·.status)

def messagesOf (db : Store) (T : TicketId) : List SupportChatMessage :=
  db.messages.filter (·.ticketId = T)

-- The ticket is closed, and its messages are the given ones.
structure Rests (db : Store) (T : TicketId) (thread : List SupportChatMessage) : Prop where
  closed : db.status? T = some .closed
  thread : db.messagesOf T = thread

end Store

-- The status that a committed transaction has given to the ticket, if it has set its status at all.
def newStatus? (e : Entry Stmt.sig Store Call) (T : TicketId) : Option SupportTicketStatus :=
  match e.stmt with
  | .setStatus T' status _ => if T' = T ∧ (e.pre.tickets.find? T).isSome then some status else none
  | _                      => none

-- A ticket that was not closed when a call has read it has not been closed in the meantime.
def StillOpen (s : Pool Stmt.sig Store Call) (t : Nat) (T : TicketId) : Prop :=
  ∀ r ∈ s.world.own t, ∀ status ∈ r.pre.status? T, status ≠ .closed → s.db.status? T ≠ some .closed

-- The runs in which no message is based on an outdated read.
def readsCurrent : Policy Stmt.sig Store Call where
  step s t _ x := match x with
    | .reply message ..    => StillOpen s t message.ticketId
    | .userMessage message => StillOpen s t message.ticketId
    | _                    => True

-- What a call has found out when it is about to write.
def Checked (x : Stmt) (es : Log) : Prop :=
  match x with
  | .reply message ..    => ∃ r ∈ es, ∃ status ∈ r.pre.status? message.ticketId, status ≠ .closed
  | .userMessage message => ∃ r ∈ es, ∃ status ∈ r.pre.status? message.ticketId, status ≠ .closed
  | _                    => True

namespace Store

variable {db db' : Store} {T T' : TicketId} {thread : List SupportChatMessage}
variable {message : SupportChatMessage} {f : SupportTicket → SupportTicket} {entry : AuditEntry}
variable {status : SupportTicketStatus}

theorem status?_of_find? {row : SupportTicket} (h : db.tickets.find? T = some row) :
    db.status? T = some row.status :=
  congrArg (Option.map _) h

theorem isSome_of_status? (h : db.status? T = some status) : (db.tickets.find? T).isSome := by
  have ⟨_, hr, _⟩ := Option.map_eq_some_iff.mp h
  exact Option.isSome_of_eq_some hr

namespace Rests

theorem commit {r : Except AppError Store} (h : db.Rests T thread)
    (hr : ∀ db', r = .ok db' → db'.Rests T thread) : (commit db r).snd.Rests T thread :=
  commit_preserves (I := fun db : Store => db.Rests T thread) h hr

theorem audited {r : Except AppError Store} (h : ∀ db', r = .ok db' → db'.Rests T thread)
    (hr : r.map (·.record entry) = .ok db') : db'.Rests T thread := by
  cases r
  case error => contradiction
  case ok db =>
    have rests := h db rfl
    exact Except.ok.inj hr ▸ ⟨rests.closed, rests.thread⟩

theorem submit {userId : UserId} {text autoAck : String} {now : Time} (h : db.Rests T thread) :
    (db.submit userId text autoAck now).Rests T thread := by
  have ⟨row, hr, _⟩ := Option.map_eq_some_iff.mp h.closed
  have hne : T ≠ db.tickets.next := (db.tickets.fresh T row hr).ne
  constructor
  case closed =>
    rw [status?, Store.submit, Serial.find?_create, if_neg hne]
    exact h.closed
  case thread =>
    rw [messagesOf, Store.submit, List.filter_cons_of_neg, List.filter_cons_of_neg]
    · exact h.thread
    · exact fun he => hne (of_decide_eq_true he).symm
    · exact fun he => hne (of_decide_eq_true he).symm

-- A message to another ticket.
theorem post (h : db.Rests T thread) (hp : db.post message f = .ok db')
    (hne : message.ticketId ≠ T) : db'.Rests T thread := by
  unfold Store.post at hp
  split at hp
  case h_1 => contradiction
  case h_2 =>
    have := Except.ok.inj hp
    subst this
    constructor
    case closed =>
      rw [status?, Serial.find?_modify, if_neg hne.symm]
      exact h.closed
    case thread =>
      rw [messagesOf, List.filter_cons_of_neg]
      · exact h.thread
      · exact fun he => hne <| of_decide_eq_true he

theorem setStatus (h : db.Rests T thread) (hs : db.setStatus T' status = .ok db') (hne : T' ≠ T) :
    db'.Rests T thread := by
  unfold Store.setStatus at hs
  split at hs
  case h_1 => contradiction
  case h_2 =>
    have := Except.ok.inj hs
    subst this
    refine ⟨?_, h.thread⟩
    rw [status?, Serial.find?_modify, if_neg hne.symm]
    exact h.closed

end Rests

theorem status?_setStatus {row : SupportTicket} (h : db.tickets.find? T = some row) :
    (commit db <| (db.setStatus T status).map (·.record entry)).snd.status? T = some status := by
  rw [Store.setStatus, h]
  refine (congrArg (Option.map _) Serial.find?_modify).trans ?_
  rw [if_pos rfl, h]
  rfl

end Store

section

variable {t : Nat} {c : Call}

theorem follows_assertOwnedTicket {α : Type} {userId : UserId} {T : TicketId}
    {f : SupportTicket → App α}
    (h : ∀ r row, r.pre.tickets.find? T = some row →
      (f row).Follows system t c Checked (fun _ _ => True) (fun _ _ => True) [r]) :
    (SupportChatService.assertOwnedTicket userId T >>= f).Follows system t c Checked
      (fun _ _ => True) (fun _ _ => True) [] := by
  refine Method.follows_bind.mpr <| Method.follows_stmt_bind.mpr ⟨trivial, fun db => ?_⟩
  split
  case h_1        => trivial
  case h_2 row hr =>
    split
    case isTrue  => exact h _ row hr
    case isFalse => trivial

theorem follows_checked (t : Nat) (c : Call) :
    (system.prog t c).Follows system t c Checked (fun _ _ => True) [] := by
  cases c <;> refine Method.follows_toCall.mpr ?_
  case submitTicket => exact Method.follows_tx.mpr ⟨trivial, fun _ => trivial⟩
  case createUserMessage userId T content now =>
    refine follows_assertOwnedTicket fun r row hr => ?_
    split
    case isTrue     => trivial
    case isFalse hc =>
      refine Method.follows_tx.mpr ⟨?_, fun _ => by split <;> trivial⟩
      exact ⟨r, List.mem_singleton_self r, row.status, Store.status?_of_find? hr, hc⟩
  case replyAsAgent actor T content now =>
    refine Method.follows_stmt_bind.mpr ⟨trivial, fun db => ?_⟩
    split
    case h_1        => trivial
    case h_2 row hr =>
      split
      case isTrue     => trivial
      case isFalse hc =>
        refine Method.follows_tx.mpr ⟨?_, fun _ => by split <;> trivial⟩
        exact ⟨_, List.mem_singleton_self _, row.status, Store.status?_of_find? hr, hc⟩
  case setTicketStatus =>
    refine Method.follows_stmt_bind.mpr ⟨trivial, fun db => ?_⟩
    split
    case h_1 => trivial
    case h_2 => exact Method.follows_tx.mpr ⟨trivial, fun _ => by split <;> trivial⟩

end

section

variable {init : Store → Prop} {s : Pool Stmt.sig Store Call} {t : Nat} {c : Call} {x : Stmt}
variable {e : Entry Stmt.sig Store Call} {newer older : Log} {T : TicketId}

-- A message that is based on a current read does not belong to a ticket that is closed.
theorem ne_of_stillOpen {T' : TicketId} {thread : List SupportChatMessage}
    (h : s.db.Rests T thread) (ho : StillOpen s t T')
    (hc : ∃ r ∈ s.world.own t, ∃ status ∈ r.pre.status? T', status ≠ .closed) : T' ≠ T := by
  intro he
  have ⟨r, hr, status, hs, hne⟩ := hc
  exact ho r hr status hs hne <| he ▸ h.closed

theorem newStatus?_eq_some {status : SupportTicketStatus} (h : newStatus? e T = some status) :
    (∃ entry, e.stmt = .setStatus T status entry) ∧ ∃ row, e.pre.tickets.find? T = some row := by
  unfold newStatus? at h
  split at h
  case h_1 T' status' entry hx =>
    have ⟨⟨hT, hs⟩, he⟩ := Option.ite_none_right_eq_some.mp h
    exact ⟨⟨entry, hT ▸ Option.some.inj he ▸ hx⟩, Option.isSome_iff_exists.mp hs⟩
  case h_2 => contradiction

theorem rests_of_newStatus (h : newStatus? e T = some .closed) :
    (e.post system).Rests T ((e.post system).messagesOf T) := by
  have ⟨⟨entry, hx⟩, row, hr⟩ := newStatus?_eq_some h
  refine ⟨?_, rfl⟩
  rw [Entry.post, hx]
  exact Store.status?_setStatus hr

-- A closed ticket is left alone by all statements that do not set its status.
theorem rests_exec {thread : List SupportChatMessage} (h : s.db.Rests T thread)
    (ha : readsCurrent.step s t c x) (hc : Checked x (s.world.own t))
    (hx : newStatus? ⟨t, c, x, s.db⟩ T = none) : (Stmt.exec x s.db).snd.Rests T thread := by
  cases x
  case findTicket => exact h
  case submit     => exact h.submit
  case reply message status entry =>
    have hne := ne_of_stillOpen h ha hc
    exact h.commit fun _ => .audited fun _ hp => h.post hp hne
  case setStatus T' status entry =>
    have hne : T' ≠ T := fun he =>
      nomatch (if_pos ⟨he, Store.isSome_of_status? h.closed⟩).symm.trans hx
    exact h.commit fun _ => .audited fun _ hs => h.setStatus hs hne
  case userMessage message =>
    have hne := ne_of_stillOpen h ha hc
    exact h.commit fun _ hp => h.post hp hne

end

-- In a run whose reads are current, a ticket that has been closed stays closed, and no message is
-- added to it, until its status is set again.
theorem closed_of_current {init : Store → Prop} {s : Pool Stmt.sig Store Call}
    {e : Entry Stmt.sig Store Call} {newer older : Log} {T : TicketId}
    (h : Reachable system readsCurrent init s) (hl : s.log = newer ++ e :: older)
    (he : newStatus? e T = some .closed) (hn : ∀ e' ∈ newer, newStatus? e' T = none) :
    s.db.status? T = some .closed ∧ s.db.messagesOf T = (e.post system).messagesOf T := by
  have rests : s.db.Rests T ((e.post system).messagesOf T) := by
    refine h.since_step (I := fun newer db => (∀ e' ∈ newer, newStatus? e' T = none) →
      db.Rests T ((e.post system).messagesOf T)) hl (fun _ => rests_of_newStatus he)
      (fun st _ ih hn => ?_) hn
    have checked := st.reachable.follows_aboutTo (fun t c _ => follows_checked t c) st.aboutTo
    have ih := ih fun e' he' => hn e' <| List.mem_cons_of_mem _ he'
    exact rests_exec ih st.allowed checked <| hn _ List.mem_cons_self
  exact ⟨rests.closed, rests.thread⟩

instance {s : Pool Stmt.sig Store Call} {t : Nat} {T : TicketId} : Decidable (StillOpen s t T) :=
  inferInstanceAs (Decidable (∀ r ∈ s.world.own t, _))

instance {s : Pool Stmt.sig Store Call} {t : Nat} {c : Call} {x : Stmt} :
    Decidable (readsCurrent.step s t c x) := by
  cases x <;> dsimp only [readsCurrent] <;> infer_instance

instance : DecidablePred readsCurrent.spawn :=
  fun _ => .isTrue trivial

instance : Decidable readsCurrent.crash :=
  .isTrue trivial

def Store.empty : Store where
  tickets  := .empty
  messages := []
  audit    := []

def question : Call :=
  .submitTicket 1 "Where is my parcel?" "We will be with you shortly." 5

def answer : Call :=
  .replyAsAgent ⟨2, .agent⟩ 0 "It is on its way." 7

def closing : Call :=
  .setTicketStatus ⟨3, .agent⟩ 0 .closed

-- An agent answers before the ticket is closed, and the user tries to respond afterwards.
theorem closed_of_current_answered :
    ∃ s, Reachable system readsCurrent (fun _ => True) s ∧ s.db.status? 0 = some .closed ∧
      (s.db.messagesOf 0).length = 3 := by
  let cmds := Cmd.run 1 question 1 ++ Cmd.run 2 answer 2 ++ Cmd.run 3 closing 2 ++
    Cmd.run 4 (.createUserMessage 1 0 "Thank you!" 9) 2
  let s := (Pool.init Store.empty).runCmds system cmds
  have admitted : readsCurrent.AdmitsAll system (Pool.init Store.empty) cmds := by decide +kernel
  have h : Reachable system readsCurrent (fun _ => True) s :=
    (Reachable.init trivial).runCmds admitted
  have he : ∀ hi : 1 < s.log.length, newStatus? s.log[1] 0 = some .closed := by decide +kernel
  have hi : 1 < s.log.length := by decide +kernel
  have hl : s.log = s.log.take 1 ++ s.log[1] :: s.log.drop 2 := by
    rw [List.getElem_cons_drop, List.take_append_drop]
  have ⟨hc, _⟩ := closed_of_current (T := 0) h hl (he hi) (by decide +kernel)
  exact ⟨s, h, hc, by decide +kernel⟩

-- An agent reads the ticket before another one closes it, and replies afterwards.
theorem closed_of_current_missed :
    ¬∀ s newer e older T, Reachable system {} (fun _ => True) s → s.log = newer ++ e :: older →
      newStatus? e T = some .closed → (∀ e' ∈ newer, newStatus? e' T = none) →
      s.db.status? T = some .closed ∧ s.db.messagesOf T = (e.post system).messagesOf T := by
  intro h
  let s := (Pool.init .empty).runCmds system <| Cmd.run 1 question 1 ++ Cmd.run 2 answer 1 ++
    Cmd.run 3 closing 2 ++ [.exec 2]
  have hs : Reachable system {} (fun _ => True) s := Reachable.runCmds_of_free _ <| .init trivial
  have he : ∀ hi : 1 < s.log.length, newStatus? s.log[1] 0 = some .closed := by decide +kernel
  have hi : 1 < s.log.length := by decide +kernel
  have hl : s.log = s.log.take 1 ++ s.log[1] :: s.log.drop 2 := by
    rw [List.getElem_cons_drop, List.take_append_drop]
  have ⟨hc, _⟩ := h s _ _ _ 0 hs hl (he hi) (by decide +kernel)
  have hr : s.db.status? 0 = some .inProgress := by decide +kernel
  exact nomatch hr.symm.trans hc

end Drovery.Support
