import Drovery.Data.JsonText
import Drovery.Services.Caching

namespace Drovery

inductive NotificationCategory
  | delivery
  | promotion
  | system
  deriving DecidableEq

structure NotificationPreference where
  pushEnabled     : Bool
  deliveryUpdates : Bool
  promotions      : Bool
  quietHoursStart : Option Nat
  quietHoursEnd   : Option Nat
  deriving DecidableEq

-- A field that is undefined stays as it is.
structure UpdateNotificationPreferencesDto where
  pushEnabled     : Option Bool         := none
  deliveryUpdates : Option Bool         := none
  promotions      : Option Bool         := none
  quietHoursStart : Option (Option Nat) := none
  quietHoursEnd   : Option (Option Nat) := none

namespace NotificationPreference

-- The preferences of a user that has not customized them.
def default : NotificationPreference where
  pushEnabled     := true
  deliveryUpdates := true
  promotions      := true
  quietHoursStart := none
  quietHoursEnd   := none

def update (p : NotificationPreference) (dto : UpdateNotificationPreferencesDto) :
    NotificationPreference where
  pushEnabled     := dto.pushEnabled.getD p.pushEnabled
  deliveryUpdates := dto.deliveryUpdates.getD p.deliveryUpdates
  promotions      := dto.promotions.getD p.promotions
  quietHoursStart := dto.quietHoursStart.getD p.quietHoursStart
  quietHoursEnd   := dto.quietHoursEnd.getD p.quietHoursEnd

end NotificationPreference

structure Notification where
  userId : UserId
  title  : String
  body   : String
  data   : Option Json

structure PushMessage where
  pushToken : String
  title     : String
  body      : String
  data      : Option Json

namespace Notifications

open Concurrency

abbrev NotificationId := Nat

-- A device is identified by its user and its push token.
structure Store where
  notifications : Table NotificationId Notification
  preferences   : Table UserId NotificationPreference
  devices       : Table (UserId × String) String

-- The push tokens of a user.
def Store.tokensOf (db : Store) (U : UserId) : List String :=
  (db.devices.findMany fun (U', _) _ => U' = U).map (·.fst.snd)

inductive Stmt
  | createNotification (N : NotificationId) (n : Notification)
  | findPreferences (U : UserId) (fault : Option AppError)
  | upsertPreferences (U : UserId) (dto : UpdateNotificationPreferencesDto)
  | upsertDevice (U : UserId) (pushToken platform : String)
  | findDevices (U : UserId) (fault : Option AppError)
  | deleteDevices (U : UserId) (tokens : List String)
  -- The provider answers a request.
  | push (messages : List PushMessage) (response : Response)

namespace Stmt

@[reducible]
def Res : Stmt → Type
  | createNotification .. => Unit
  | findPreferences ..    => Except AppError (Option NotificationPreference)
  | upsertPreferences ..  => Unit
  | upsertDevice ..       => Unit
  | findDevices ..        => Except AppError (List String)
  | deleteDevices ..      => Nat
  | push ..               => Response

def exec : (x : Stmt) → Store → x.Res × Store
  | createNotification N n,           db =>
    ((), { db with notifications := (db.notifications.insert N n).getD db.notifications })
  | findPreferences U none,           db => (.ok <| db.preferences.find? U, db)
  | findPreferences _ (some e),       db => (.error e, db)
  | upsertPreferences U dto,          db =>
    ((), { db with
      preferences :=
        db.preferences.upsert U (NotificationPreference.default.update dto) (·.update dto) })
  | upsertDevice U pushToken platform, db =>
    ((), { db with devices := db.devices.upsert (U, pushToken) platform fun _ => platform })
  | findDevices U none,               db => (.ok <| db.tokensOf U, db)
  | findDevices _ (some e),           db => (.error e, db)
  | deleteDevices U tokens,           db =>
    (db.devices.count fun (U', token) _ => U' = U ∧ token ∈ tokens,
      { db with devices := db.devices.deleteMany fun (U', token) _ => U' = U ∧ token ∈ tokens })
  | push _ response,                  db => (response, db)

@[reducible]
def sig : Signature where
  Stmt := Stmt
  Res  := Res

end Stmt

abbrev App := Method Stmt.sig AppError

abbrev App.stmt (x : Stmt) : App x.Res :=
  @Method.stmt Stmt.sig AppError x

abbrev App.tx {α : Type} (x : Stmt) (f : x.Res → Except AppError α) : App α :=
  @Method.tx Stmt.sig AppError α x f

open Notifications.App (stmt tx)

-- The outcomes of the steps of a push: the reads of the preferences and of the devices, the
-- requests one by one, and the removal of the devices.
structure Faults where
  preferences : Option AppError := none
  devices     : Option AppError := none
  responses   : Nat → Response
  reap        : Outcome AppError

namespace NotificationsService

abbrev expoPushChunkSize : Nat := 100

def isExpoToken (token : String) : Bool :=
  "ExponentPushToken".toList.isPrefixOf token.toList ||
    "ExpoPushToken".toList.isPrefixOf token.toList

-- The slices of the size of a chunk that begin at the multiples of this size.
def chunks {α : Type} (xs : List α) : List (List α) :=
  (List.range ((xs.length + expoPushChunkSize - 1) / expoPushChunkSize)).map fun i =>
    (xs.drop (expoPushChunkSize * i)).take expoPushChunkSize

def parseExpoTickets : Response → List Json
  | .answered _ (some json) =>
    match json.get "data" with
    | some (.array tickets) => tickets
    | _                     => []
  | _ => []

def isDead (ticket : Json) : Bool :=
  ticket.get "status" = some (.string "error") ∧
    (ticket.get "details").bind (·.get "error") = some (.string "DeviceNotRegistered")

-- The tickets belong to the messages by their positions.
def deadTokens (chunk : List String) : Response → List String
  | .error              => []
  | .answered false _   => []
  | .answered true body =>
    (parseExpoTickets <| .answered true body).zipIdx.filterMap fun (ticket, j) =>
      if isDead ticket then chunk[j]?.filter (· ≠ "") else none

def messages (title body : String) (data : Option Json) (chunk : List String) : List PushMessage :=
  chunk.map fun pushToken => { pushToken, title, body, data }

-- A request that is not answered ends all of it.
def sendChunks (title body : String) (data : Option Json) (responses : Nat → Response) :
    Nat → List (List String) → App (List String)
  | _, []              => pure []
  | i, chunk :: chunks => do
    let dead ← tx (.push (messages title body data chunk) (responses i)) fun
      | .error   => .error <| .internal "fetch failed"
      | response => .ok <| deadTokens chunk response
    let rest ← sendChunks title body data responses (i + 1) chunks
    pure <| dead ++ rest

def reapDeadDevices (U : UserId) (tokens : List String) (fault : Outcome AppError) : App Unit :=
  ((stmt <| .deleteDevices U tokens).attempt fault).safe

def sendPushToUser (U : UserId) (title body : String) (data : Option Json) (faults : Faults) :
    App Unit := Method.safe do
  let devices ← tx (.findDevices U faults.devices) id
  let tokens := devices.filter isExpoToken
  if tokens = [] then
    return ()
  let deadTokens ← sendChunks title body data faults.responses 0 <| chunks tokens
  if deadTokens ≠ [] then
    reapDeadDevices U deadTokens faults.reap

def getPreferences (U : UserId) (fault : Option AppError) : App NotificationPreference :=
  tx (.findPreferences U fault) fun prefs => prefs.map (·.getD .default)

-- The window from `start` to `stop` may go past midnight.
def inQuietHours (start stop : Option Nat) (hour : Nat) : Bool :=
  match start, stop with
  | some start, some stop =>
    if start = stop then false
    else if start < stop then hour ≥ start ∧ hour < stop
    else hour ≥ start ∨ hour < stop
  | _, _ => false

def shouldSendPush (p : NotificationPreference) (category : NotificationCategory) (hour : Nat) :
    Bool :=
  p.pushEnabled && !(category = .delivery && !p.deliveryUpdates) &&
    !(category = .promotion && !p.promotions) &&
      !inQuietHours p.quietHoursStart p.quietHoursEnd hour

def maybeSendPush (U : UserId) (title body : String) (data : Option Json)
    (category : NotificationCategory) (hour : Nat) (faults : Faults) : App Unit := Method.safe do
  let p ← getPreferences U faults.preferences
  if shouldSendPush p category hour then
    sendPushToUser U title body data faults

-- The notification is always created.
def create (N : NotificationId) (U : UserId) (title body : String) (data : Option Json)
    (category : NotificationCategory) (hour : Nat) (faults : Faults) : App Unit := do
  stmt <| .createNotification N { userId := U, title, body, data }
  maybeSendPush U title body data category hour faults

-- The window that would result needs both ends or none.
def updatePreferences (U : UserId) (dto : UpdateNotificationPreferencesDto)
    (fault : Option AppError) : App Unit := do
  let current ← getPreferences U fault
  let start := dto.quietHoursStart.getD current.quietHoursStart
  let stop := dto.quietHoursEnd.getD current.quietHoursEnd
  if start.isNone ≠ stop.isNone then
    throw <| .badRequest "error.notification.quiet_hours_pair"
  stmt <| .upsertPreferences U dto

def registerDevice (U : UserId) (pushToken platform : String) : App Unit :=
  stmt <| .upsertDevice U pushToken platform

end NotificationsService

-- The hour is the one of the service's time zone.
inductive Call
  | create (U : UserId) (title body : String) (data : Option Json) (category : NotificationCategory)
    (hour : Nat) (faults : Faults)
  | updatePreferences (U : UserId) (dto : UpdateNotificationPreferencesDto)
    (fault : Option AppError)
  | registerDevice (U : UserId) (pushToken platform : String)

open NotificationsService in
def Call.prog (t : Nat) : Call → Prog Stmt.sig Unit
  | create U title body data category hour faults =>
    (NotificationsService.create t U title body data category hour faults).toCall
  | updatePreferences U dto fault                 =>
    (NotificationsService.updatePreferences U dto fault).toCall
  | registerDevice U pushToken platform           =>
    (NotificationsService.registerDevice U pushToken platform).toCall

@[reducible]
def system : System Stmt.sig Store Call where
  exec     := Stmt.exec
  prog t c := c.prog t

end Notifications

end Drovery
