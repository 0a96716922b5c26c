import Drovery.Concurrency.Method
import Drovery.Objects.Auth

namespace Drovery.Auth

open Concurrency

-- The password hashing, where the first argument of `hash` is the salt.
structure Params where
  hash    : Nat → String → String
  compare : String → String → Bool

structure Store where
  clock         : Time
  users         : Table UserId User
  refreshTokens : Table TokenHash RefreshToken
  resetTokens   : Table ResetToken PasswordResetToken

inductive Stmt
  | dateNow
  | passTime (ms : Nat)
  | findUserByEmail (email : String)
  | findUser (U : UserId)
  | findToken (h : TokenHash)
  | createToken (h : TokenHash) (row : RefreshToken)
  -- The transaction that revokes a token and stores its successor.
  | rotate (old : TokenHash) (now : Time) (h : TokenHash) (row : RefreshToken)
  | revokeAll (U : UserId) (now : Time)
  | deleteToken (h : TokenHash)
  | findResetToken (T : ResetToken)
  | useResetTokens (U : UserId) (now : Time)
  | createResetToken (T : ResetToken) (row : PasswordResetToken)
  -- The transaction that completes a password reset.
  | resetPassword (U : UserId) (passwordHash : String) (now : Time)

namespace Store

def createToken (db : Store) (h : TokenHash) (row : RefreshToken) : Except AppError Store :=
  match db.refreshTokens.insert h row with
  | none               => .error <| .p2002 .refreshTokenHash
  | some refreshTokens => .ok { db with refreshTokens }

-- The revocation only requires that the token is still there.
def rotate (db : Store) (old : TokenHash) (now : Time) (h : TokenHash) (row : RefreshToken) :
    Except AppError Store :=
  match db.refreshTokens.find? old with
  | none   => .error .recordNotFound
  | some _ => { db with refreshTokens := db.refreshTokens.modify old (·.revoke now) }.createToken h row

def createResetToken (db : Store) (T : ResetToken) (row : PasswordResetToken) :
    Except AppError Store :=
  match db.resetTokens.insert T row with
  | none             => .error <| .p2002 .resetTokenHash
  | some resetTokens => .ok { db with resetTokens }

def revocable (U : UserId) (_ : TokenHash) (r : RefreshToken) : Bool :=
  r.userId = U ∧ r.revokedAt = none

def usable (U : UserId) (_ : ResetToken) (r : PasswordResetToken) : Bool :=
  r.userId = U ∧ r.usedAt = none

def revokeAll (db : Store) (U : UserId) (now : Time) : Store :=
  { db with refreshTokens := db.refreshTokens.updateMany (revocable U) (·.revoke now) }

def useResetTokens (db : Store) (U : UserId) (now : Time) : Store :=
  { db with resetTokens := db.resetTokens.updateMany (usable U) (·.use now) }

def deleteTokens (db : Store) (U : UserId) : Store :=
  { db with refreshTokens := db.refreshTokens.deleteMany fun _ r => r.userId = U }

-- Sets the password, uses up all tokens for a reset, and ends all sessions.
def resetPassword (db : Store) (U : UserId) (passwordHash : String) (now : Time) :
    Except AppError Store :=
  match db.users.find? U with
  | none   => .error .recordNotFound
  | some _ =>
    .ok <| { db with users := db.users.modify U ({ · with passwordHash }) }.useResetTokens U now
      |>.deleteTokens U

end Store

namespace Stmt

@[reducible]
def Res : Stmt → Type
  | dateNow             => Time
  | passTime _          => Unit
  | findUserByEmail _   => Option (UserId × User)
  | findUser _          => Option User
  | findToken _         => Option RefreshToken
  | createToken ..      => Except AppError Unit
  | rotate ..           => Except AppError Unit
  | revokeAll ..        => Unit
  | deleteToken _       => Unit
  | findResetToken _    => Option PasswordResetToken
  | useResetTokens ..   => Unit
  | createResetToken .. => Except AppError Unit
  | resetPassword ..    => Except AppError Unit

def commit (db : Store) : Except AppError Store → Except AppError Unit × Store
  | .ok db'  => (.ok (), db')
  | .error e => (.error e, db)

def exec : (x : Stmt) → Store → x.Res × Store
  | dateNow,                      db => (db.clock, db)
  | passTime ms,                  db => ((), { db with clock := db.clock + ms })
  | findUserByEmail email,        db => (db.users.findFirst fun _ u => u.email = email, db)
  | findUser U,                   db => (db.users.find? U, db)
  | findToken h,                  db => (db.refreshTokens.find? h, db)
  | createToken h row,            db => commit db <| db.createToken h row
  | rotate old now h row,         db => commit db <| db.rotate old now h row
  | revokeAll U now,              db => ((), db.revokeAll U now)
  | deleteToken h,                db => ((), { db with refreshTokens := db.refreshTokens.erase h })
  | findResetToken T,             db => (db.resetTokens.find? T, db)
  | useResetTokens U now,         db => ((), db.useResetTokens U now)
  | createResetToken T row,       db => commit db <| db.createResetToken T row
  | resetPassword U passwordHash now, db => commit db <| db.resetPassword U passwordHash now

@[reducible]
def sig : Signature where
  Stmt := Stmt
  Res  := Res

end Stmt

abbrev App := Method Stmt.sig AppError

abbrev App.stmt (x : Stmt) : App x.Res :=
  @Method.stmt Stmt.sig AppError x

abbrev App.tx {α : Type} (x : Stmt) (f : x.Res → Except AppError α) : App α :=
  @Method.tx Stmt.sig AppError α x f

open App (stmt tx)

namespace AuthService

-- A fresh pair of tokens is signed under the id `jti`, and the refresh token is stored.
def generateTokens (U : UserId) (jti : Nat) : App Unit := do
  let now ← stmt .dateNow
  tx (.createToken (hashToken ⟨U, jti⟩) { userId := U, expiresAt := now + refreshTokenTtlMs }) id

def login (P : Params) (jti : Nat) (email password : String) : App Unit := do
  match ← stmt <| .findUserByEmail email with
  | none           => throw <| .unauthorized "error.auth.invalid_credentials"
  | some (U, user) =>
    if P.compare password user.passwordHash then
      generateTokens U jti
    else
      throw <| .unauthorized "error.auth.invalid_credentials"

def rotateTokens (U : UserId) (jti : Nat) (old : TokenHash) : App Unit := do
  let now ← stmt .dateNow
  tx (.rotate old now (hashToken ⟨U, jti⟩) { userId := U, expiresAt := now + refreshTokenTtlMs }) id

-- A token that has already been rotated ends all sessions of its user.
def refreshTokens (U : UserId) (jti : Nat) (refreshToken : Token) : App Unit := do
  match ← stmt <| .findToken <| hashToken refreshToken with
  | none        => throw <| .unauthorized "error.auth.refresh_invalid"
  | some record =>
    let now ← stmt .dateNow
    if record.Replayed U then
      stmt <| .revokeAll U now
      throw <| .unauthorized "error.auth.refresh_invalid"
    else if record.Invalid U now then
      throw <| .unauthorized "error.auth.refresh_invalid"
    else
      match ← stmt <| .findUser U with
      | none   => throw <| .unauthorized "error.auth.user_gone"
      | some _ => rotateTokens U jti <| hashToken refreshToken

def logout (refreshToken : Token) : App Unit :=
  stmt <| .deleteToken <| hashToken refreshToken

def forgotPassword (rawToken : ResetToken) (email : String) : App Unit := do
  match ← stmt <| .findUserByEmail email with
  | none        => pure ()
  | some (U, _) =>
    let now ← stmt .dateNow
    stmt <| .useResetTokens U now
    let now ← stmt .dateNow
    tx (.createResetToken rawToken { userId := U, expiresAt := now + resetTokenTtlMs }) id

def resetPassword (P : Params) (salt : Nat) (token : ResetToken) (newPassword : String) :
    App Unit := do
  match ← stmt <| .findResetToken token with
  | none        => throw <| .badRequest "error.auth.reset_token_invalid"
  | some record =>
    let now ← stmt .dateNow
    if record.Invalid now then
      throw <| .badRequest "error.auth.reset_token_invalid"
    else
      let now ← stmt .dateNow
      tx (.resetPassword record.userId (P.hash salt newPassword) now) id

end AuthService

-- The requests. A refresh token is presented by its own user, as its signature has been verified.
inductive Call
  | login (email password : String)
  | refreshTokens (refreshToken : Token)
  | logout (refreshToken : Token)
  | forgotPassword (email : String)
  | resetPassword (token : ResetToken) (newPassword : String)
  | passTime (ms : Nat)

-- The random values of a call are unique to the thread `t`.
def Call.prog (P : Params) (t : Nat) : Call → Prog Stmt.sig Unit
  | login email password            => (AuthService.login P t email password).toCall
  | refreshTokens refreshToken      =>
    (AuthService.refreshTokens refreshToken.sub t refreshToken).toCall
  | logout refreshToken             => (AuthService.logout refreshToken).toCall
  | forgotPassword email            => (AuthService.forgotPassword t email).toCall
  | resetPassword token newPassword => (AuthService.resetPassword P t token newPassword).toCall
  | passTime ms                     => (stmt <| .passTime ms).toCall

def system (P : Params) : System Stmt.sig Store Call where
  exec := Stmt.exec
  prog := Call.prog P

end Drovery.Auth
