import Drovery.Concurrency.Method
import Drovery.Data.JsString
import Drovery.Data.Serial
import Drovery.Objects.Audit
import Drovery.Objects.Wallet

namespace Drovery.Support

open Concurrency

abbrev TicketId := Nat

inductive SupportTicketStatus
  | open
  | inProgress
  | resolved
  | closed
  deriving DecidableEq

namespace SupportTicketStatus

def name : SupportTicketStatus → String
  | .open      => "OPEN"
  | inProgress => "IN_PROGRESS"
  | resolved   => "RESOLVED"
  | closed     => "CLOSED"

-- The status of a ticket after an agent has replied to it.
def onReply (status : SupportTicketStatus) : SupportTicketStatus :=
  if status = .open then .inProgress else status

end SupportTicketStatus

inductive SupportChatSenderRole
  | user
  | agent
  | system
  deriving DecidableEq

structure SupportTicket where
  userId        : UserId
  message       : String
  status        : SupportTicketStatus
  lastMessageAt : Option Time
  deriving DecidableEq

structure SupportChatMessage where
  ticketId     : TicketId
  senderRole   : SupportChatSenderRole
  senderUserId : Option UserId
  content      : String
  createdAt    : Time
  deriving DecidableEq

-- The latest messages and audit entries come first.
structure Store where
  tickets  : Serial SupportTicket
  messages : List SupportChatMessage
  audit    : List AuditEntry

-- Every statement that writes is a transaction. The one that stores the reply of an agent also
-- writes the status that the call has derived from its own read.
inductive Stmt
  | findTicket (T : TicketId)
  | submit (userId : UserId) (message autoAck : String) (now : Time)
  | reply (message : SupportChatMessage) (status : SupportTicketStatus) (entry : AuditEntry)
  | setStatus (T : TicketId) (status : SupportTicketStatus) (entry : AuditEntry)
  | userMessage (message : SupportChatMessage)

namespace Store

variable (db : Store)

def submit (userId : UserId) (message autoAck : String) (now : Time) : Store where
  tickets  := db.tickets.create {
    userId        := userId
    message       := message
    status        := .open
    lastMessageAt := some (now + 1)
  }
  messages :=
    ⟨db.tickets.next, .system, none, autoAck, now + 1⟩ ::
    ⟨db.tickets.next, .user, some userId, message, now⟩ :: db.messages
  audit    := db.audit

-- Adds a message to its ticket.
def post (message : SupportChatMessage) (f : SupportTicket → SupportTicket) :
    Except AppError Store :=
  match db.tickets.find? message.ticketId with
  | none   => .error .recordNotFound
  | some _ => .ok {
      tickets  := db.tickets.modify message.ticketId fun row =>
        { f row with lastMessageAt := some message.createdAt }
      messages := message :: db.messages
      audit    := db.audit
    }

def record (entry : AuditEntry) : Store :=
  { db with audit := entry :: db.audit }

def setStatus (T : TicketId) (status : SupportTicketStatus) : Except AppError Store :=
  match db.tickets.find? T with
  | none   => .error <| .notFound "error.admin.ticket.not_found"
  | some _ => .ok { db with tickets := db.tickets.modify T ({ · with status }) }

end Store

namespace Stmt

@[reducible]
def Res : Stmt → Type
  | findTicket _   => Option SupportTicket
  | submit ..      => Unit
  | reply ..       => Except AppError Unit
  | setStatus ..   => Except AppError Unit
  | userMessage .. => Except AppError Unit

def exec : (x : Stmt) → Store → x.Res × Store
  | findTicket T,                      db => (db.tickets.find? T, db)
  | submit userId message autoAck now, db => ((), db.submit userId message autoAck now)
  | reply message status entry,        db => commit db <|
    (db.post message ({ · with status })).map (·.record entry)
  | setStatus T status entry,          db => commit db <|
    (db.setStatus T status).map (·.record entry)
  | userMessage message,               db => commit db <| db.post message id

@[reducible]
def sig : Signature where
  Stmt := Stmt
  Res  := Res

end Stmt

abbrev App := Method Stmt.sig AppError

abbrev App.stmt (x : Stmt) : App x.Res :=
  @Method.stmt Stmt.sig AppError x

abbrev App.tx {α : Type} (x : Stmt) (f : x.Res → Except AppError α) : App α :=
  @Method.tx Stmt.sig AppError α x f

open Support.App (stmt tx)

namespace SupportService

def submitTicket (userId : UserId) (message autoAck : String) (now : Time) : App Unit :=
  stmt <| .submit userId message autoAck now

end SupportService

namespace SupportChatService

def assertOwnedTicket (userId : UserId) (T : TicketId) : App SupportTicket := do
  match ← stmt <| .findTicket T with
  | none        => throw <| .notFound "error.support.ticket.not_found"
  | some ticket =>
    if ticket.userId = userId then pure ticket
    else throw <| .notFound "error.support.ticket.not_found"

def createUserMessage (userId : UserId) (T : TicketId) (content : String) (now : Time) :
    App Unit := do
  let ticket ← assertOwnedTicket userId T
  if ticket.status = .closed then
    throw <| .badRequest "error.support.ticket.closed"
  tx (.userMessage {
    ticketId     := T
    senderRole   := .user
    senderUserId := userId
    content      := content
    createdAt    := now
  }) id

end SupportChatService

namespace AdminService

def replyEntry (actor : AuditActor) (T : TicketId) (content : String) : AuditEntry where
  actorUserId := actor.userId
  actorRole   := actor.role
  action      := .supportTicketReply
  targetType  := .supportTicket
  targetId    := T
  before      := none
  after       := none
  args        :=
    pickAllowed .supportTicketReply <| some [(.contentLength, .number <| JsString.length content)]

def replyAsAgent (actor : AuditActor) (T : TicketId) (content : String) (now : Time) :
    App Unit := do
  match ← stmt <| .findTicket T with
  | none        => throw <| .notFound "error.admin.ticket.not_found"
  | some ticket =>
    if ticket.status = .closed then
      throw <| .conflict "error.admin.ticket.closed"
    let message := {
      ticketId     := T
      senderRole   := .agent
      senderUserId := actor.userId
      content      := content
      createdAt    := now
    }
    tx (.reply message ticket.status.onReply <| replyEntry actor T content) id

def statusEntry (actor : AuditActor) (T : TicketId) (before after : SupportTicketStatus) :
    AuditEntry where
  actorUserId := actor.userId
  actorRole   := actor.role
  action      := .supportTicketStatusSet
  targetType  := .supportTicket
  targetId    := T
  before      := pickAllowed .supportTicketStatusSet <| some [(.status, .string before.name)]
  after       := pickAllowed .supportTicketStatusSet <| some [(.status, .string after.name)]
  args        := none

def setTicketStatus (actor : AuditActor) (T : TicketId) (status : SupportTicketStatus) :
    App Unit := do
  match ← stmt <| .findTicket T with
  | none        => throw <| .notFound "error.admin.ticket.not_found"
  | some before => tx (.setStatus T status <| statusEntry actor T before.status status) id

end AdminService

inductive Call
  | submitTicket (userId : UserId) (message autoAck : String) (now : Time)
  | createUserMessage (userId : UserId) (T : TicketId) (content : String) (now : Time)
  | replyAsAgent (actor : AuditActor) (T : TicketId) (content : String) (now : Time)
  | setTicketStatus (actor : AuditActor) (T : TicketId) (status : SupportTicketStatus)

def Call.prog : Call → Prog Stmt.sig Unit
  | submitTicket userId message autoAck now =>
    (SupportService.submitTicket userId message autoAck now).toCall
  | createUserMessage userId T content now  =>
    (SupportChatService.createUserMessage userId T content now).toCall
  | replyAsAgent actor T content now        =>
    (AdminService.replyAsAgent actor T content now).toCall
  | setTicketStatus actor T status          => (AdminService.setTicketStatus actor T status).toCall

def system : System Stmt.sig Store Call where
  exec   := Stmt.exec
  prog _ := Call.prog

end Drovery.Support
