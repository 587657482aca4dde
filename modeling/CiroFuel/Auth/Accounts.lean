import CiroFuel.Otp.Primitives
import Mathlib.Data.List.Sort
import Mathlib.Data.List.MinMax

/-!
# Accounts, sessions and tokens

An account counts the times all its sessions were ended, and an administrator's
account lists the sessions that are open. A token names its account, the count at
which it was issued and, for an administrator, its session. Phone numbers are in
E.164 form and e-mail addresses in lower case, as the services look them up.
-/
namespace CiroFuel.Auth

inductive SessionRevocationCause where
  | signedInElsewhere | passwordReset | accountDeactivated | companySuspended | sessionLimitExceeded
deriving DecidableEq, Repr

inductive SessionEventType where
  | signedIn | signedOut | revoked | recoveryRequested | recoveryVerifyFailed
  | loginCodeRequested | loginCodeVerifyFailed
deriving DecidableEq, Repr

structure ActiveSession where
  sid : String
  createdAt : Instant
deriving DecidableEq, Repr

structure User where
  companyId : Option Id := none
  role : UserRole
  email : String
  passwordHash : String
  fullName : String
  phone : String
  isActive : Bool := true
  sessionGeneration : Option ℕ := some 0
  activeSessions : List ActiveSession := []
  lastRevocationCause : Option SessionRevocationCause := none
  isAvailable : Bool := true
  activeOrderId : Option Id := none
deriving DecidableEq, Repr

structure UserDocument extends User where
  id : Id
deriving DecidableEq, Repr

def User.withId (u : User) (id : Id) : UserDocument := { u with id := id }

@[simp] theorem User.withId_toUser (u : User) (id : Id) : (u.withId id).toUser = u := rfl

@[simp] theorem User.withId_id (u : User) (id : Id) : (u.withId id).id = id := rfl

/-- What an account is created from. -/
structure NewUser where
  companyId : Option Id := none
  role : UserRole
  email : String
  fullName : String
  phone : String
deriving DecidableEq, Repr

def userOf (data : NewUser) (passwordHash : String) : User where
  companyId := data.companyId
  role := data.role
  email := data.email
  passwordHash := passwordHash
  fullName := data.fullName
  phone := data.phone

/-- One row of the audit trail of sessions. -/
structure SessionEvent where
  userId : Id
  companyId : Option Id
  role : UserRole
  type : SessionEventType
  cause : Option SessionRevocationCause
  generation : ℕ
  sid : Option String
  occurredAt : Instant
deriving DecidableEq, Repr

structure LoginCode where
  userId : Id
  phone : String
  hash : String
  salt : String
  expiresAt : Instant
  attempts : ℕ := 0
  consumedAt : Option Instant := none
  createdAt : Instant
deriving DecidableEq, Repr

structure LoginCodeDocument extends LoginCode where
  id : Id
deriving DecidableEq, Repr

structure PasswordReset extends LoginCode where
  verifiedAt : Option Instant := none
  resetTokenHash : Option String := none
deriving DecidableEq, Repr

structure PasswordResetDocument extends PasswordReset where
  id : Id
deriving DecidableEq, Repr

def LoginCode.withId (c : LoginCode) (id : Id) : LoginCodeDocument := { c with id := id }

def PasswordReset.withId (c : PasswordReset) (id : Id) : PasswordResetDocument := { c with id := id }

/-- The record as the verification of codes sees it. -/
def LoginCode.toOtp (c : LoginCode) : Otp.OtpRecordLike where
  hash := c.hash
  salt := c.salt
  expiresAt := c.expiresAt
  attempts := c.attempts
  usedAt := c.consumedAt

/-! ### Sessions -/

def sessionCappedRoles : List UserRole := [.superAdmin, .fuelCompanyAdmin, .transportCompanyAdmin]

def isSessionCappedRole (role : UserRole) : Bool := sessionCappedRoles.contains role

namespace User

/-- An absent count is zero. -/
def generation (u : User) : ℕ := u.sessionGeneration.getD 0

def hasSession (u : User) (sid : String) : Bool := u.activeSessions.any fun s => s.sid = sid

/-- Without a cause, the recorded one is removed. -/
def revokeAllSessions (u : User) (cause : Option SessionRevocationCause) : User :=
  { u with
    sessionGeneration := some (u.generation + 1)
    activeSessions := []
    lastRevocationCause := cause }

def revokeAndSetPassword (u : User) (passwordHash : String) : User :=
  { u with
    passwordHash := passwordHash
    lastRevocationCause := some .passwordReset
    activeSessions := []
    sessionGeneration := some (u.generation + 1) }

/-- The open sessions and a new one, by age. -/
def merged (u : User) (sid : String) (now : Instant) : List ActiveSession :=
  List.insertionSort (fun a b => a.createdAt ≤ b.createdAt) (u.activeSessions ++ [⟨sid, now⟩])

def closeSession (u : User) (sid : String) : User :=
  { u with activeSessions := u.activeSessions.filter fun s => s.sid ≠ sid }

/-- The markers of a delivery in hand are cleared. -/
def releaseActiveOrder (u : User) : User :=
  { u with
    isAvailable := true
    activeOrderId := none }

end User

/-- The youngest sessions, as many as the cap allows. -/
def keptSessions (cap : ℕ) (merged : List ActiveSession) : List ActiveSession :=
  merged.drop (merged.length - cap)

def evictedSids (kept merged : List ActiveSession) : List String :=
  (merged.filter fun s => !(kept.map fun k => k.sid).contains s.sid).map fun s => s.sid

/-! ### Tokens -/

structure JwtPayload where
  sub : Id
  role : UserRole
  companyId : Option Id := none
  sgen : Option ℕ := none
  sid : Option String := none
deriving DecidableEq, Repr

structure TokenPair where
  accessToken : JwtPayload
  refreshToken : JwtPayload
deriving DecidableEq, Repr

/-- An empty session id is none. -/
def truthy (sid : Option String) : Option String := sid.filter fun s => s ≠ ""

def payloadFor (user : UserDocument) (generation : ℕ) (sid : Option String) : JwtPayload where
  sub := user.id
  role := user.role
  companyId := user.companyId
  sgen := some generation
  sid := truthy sid

/-- What a token stands for: an account, the count of its revocations, and a session. -/
def JwtPayload.session (t : JwtPayload) : Id × ℕ × Option String :=
  (t.sub, t.sgen.getD 0, truthy t.sid)

theorem truthy_idem (sid : Option String) : truthy (truthy sid) = truthy sid := by
  cases sid with
  | none => rfl
  | some s => simp [truthy]

/-- The token no longer stands for a session of the account. -/
def JwtPayload.Revoked (t : JwtPayload) (u : User) : Prop :=
  t.sgen.getD 0 ≠ u.generation ∨
    isSessionCappedRole u.role = true ∧ ∀ sid, truthy t.sid = some sid → u.hasSession sid = false

/-- Tokens of one session are revoked together. -/
theorem JwtPayload.Revoked.congr {t t' : JwtPayload} {u : User} (h : t.Revoked u)
    (heq : t'.session = t.session) : t'.Revoked u := by
  simp only [session, Prod.mk.injEq] at heq
  obtain ⟨-, hgen, hsid⟩ := heq
  unfold Revoked
  rw [hgen, hsid]
  exact h

end CiroFuel.Auth
