import Finguard.Lib.Expiring
import Finguard.Permissions

/-! The tokens of the identity service, and the keys that Redis keeps of them. -/

namespace Finguard
open Expiring

/-- Seconds, with any fraction of one. -/
abbrev Instant := ℚ

structure Account extends User where
  isActive : Bool
  hashedPassword : String
  passwordChangedAt : Option Instant

class AuthSettings where
  refreshTokenExpireDays : ℕ
  accessTokenExpireMinutes : ℕ

abbrev AuthSettings.default : AuthSettings := ⟨7, 30⟩

structure AccessToken where
  sub : Uuid
  jti : Uuid
  iat : ℤ
  exp : ℤ

/-- The claims of a refresh token. None is left out of a token that is signed here. -/
structure RefreshToken where
  sub : Uuid
  jti : Uuid
  familyId : Uuid
  iat : ℤ
  exp : ℤ

structure ResetToken where
  sub : Uuid
  jti : Uuid
  exp : ℤ

inductive AuthKey where
  | blacklist (jti : Uuid)
  | revokedFamily (familyId : Uuid)
deriving DecidableEq

/-- What the decoder of a signed token asks of its time. -/
def unexpired (exp : ℤ) (now : Instant) : Bool := ⌊now⌋ ≤ exp

section
variable {α : Type} [IntCast α] [LE α] [DecidableLE α]

/-- A token without the claim, and a user who has never reset, pass. -/
def tokenIssuedAfterPasswordChange (iat : Option ℤ) (passwordChangedAt : Option α) : Bool :=
  match iat, passwordChangedAt with
  | some iat, some passwordChangedAt => passwordChangedAt ≤ iat
  | _, _ => true

end

/-- For how many seconds the key of a used token is kept. -/
def blacklistTtl (exp : ℤ) (now : Instant) : ℤ := max 1 (exp - ⌊now⌋)

section
variable [AuthSettings]

def familyTtl : ℤ := AuthSettings.refreshTokenExpireDays * 86400

variable {α : Type} [Ring α] [LinearOrder α] [FloorRing α]

/-- The encoder truncates every time to whole seconds. -/
def createAccessToken (sub jti : Uuid) (now : α) : AccessToken where
  sub
  jti
  iat := ⌊now⌋
  exp := ⌊now + AuthSettings.accessTokenExpireMinutes * 60⌋

def createRefreshToken (sub jti familyId : Uuid) (now : α) : RefreshToken where
  sub
  jti
  familyId
  iat := ⌊now⌋
  exp := ⌊now + AuthSettings.refreshTokenExpireDays * 86400⌋

end

structure AuthStore where
  now : Instant
  redis : Keys AuthKey Instant := {}
  accounts : List Account := []

namespace AuthStore

def hasKey (s : AuthStore) (key : AuthKey) : Bool := s.redis.stands s.now key

def setex (s : AuthStore) (key : AuthKey) (ttl : ℤ) : AuthStore :=
  { s with redis := s.redis.set key (s.now + ttl) }

def blacklistJti (s : AuthStore) (jti : Uuid) (exp : ℤ) : AuthStore :=
  s.setex (.blacklist jti) (blacklistTtl exp s.now)

def revokeFamily [AuthSettings] (s : AuthStore) (familyId : Uuid) : AuthStore :=
  s.setex (.revokedFamily familyId) familyTtl

def getById (s : AuthStore) (id : Uuid) : Option Account := s.accounts.find? (·.id == id)

end AuthStore

end Finguard
