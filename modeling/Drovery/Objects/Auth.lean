import Drovery.Objects.Delivery

namespace Drovery

-- A signed refresh token for the user `sub`. Its `jti` makes every token unique.
structure Token where
  sub : UserId
  jti : Nat
  deriving DecidableEq

-- The hash by which a token is stored. No two tokens have the same hash.
structure TokenHash where
  token : Token
  deriving DecidableEq

def hashToken (token : Token) : TokenHash :=
  ⟨token⟩

-- A random token that is sent to the user by email.
abbrev ResetToken := Nat

def resetTokenTtlMs : Nat := 60 * 60 * 1000
def refreshTokenTtlMs : Nat := 7 * 24 * 60 * 60 * 1000

structure User where
  email        : String
  passwordHash : String
  deriving DecidableEq

structure RefreshToken where
  userId    : UserId
  expiresAt : Time
  revokedAt : Option Time := none
  deriving DecidableEq

structure PasswordResetToken where
  userId    : UserId
  expiresAt : Time
  usedAt    : Option Time := none
  deriving DecidableEq

namespace RefreshToken

def revoke (now : Time) (r : RefreshToken) : RefreshToken :=
  { r with revokedAt := some now }

-- The token has been rotated, and is presented again by its owner.
def Replayed (r : RefreshToken) (U : UserId) : Prop :=
  r.revokedAt.isSome ∧ r.userId = U

def Invalid (r : RefreshToken) (U : UserId) (now : Time) : Prop :=
  r.revokedAt.isSome ∨ r.userId ≠ U ∨ r.expiresAt < now

instance {r : RefreshToken} {U : UserId} : Decidable (r.Replayed U) :=
  inferInstanceAs (Decidable (_ ∧ _))

instance {r : RefreshToken} {U : UserId} {now : Time} : Decidable (r.Invalid U now) :=
  inferInstanceAs (Decidable (_ ∨ _))

end RefreshToken

namespace PasswordResetToken

def use (now : Time) (r : PasswordResetToken) : PasswordResetToken :=
  { r with usedAt := some now }

def Invalid (r : PasswordResetToken) (now : Time) : Prop :=
  r.usedAt.isSome ∨ r.expiresAt < now

instance {r : PasswordResetToken} {now : Time} : Decidable (r.Invalid now) :=
  inferInstanceAs (Decidable (_ ∨ _))

end PasswordResetToken

end Drovery
