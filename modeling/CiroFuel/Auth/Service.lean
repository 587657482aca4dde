import CiroFuel.Auth.Accounts
import CiroFuel.Snapshot.Bulk
import CiroFuel.Snapshot.Execution

/-!
# Signing in, signing out and recovering an account

Requests to the authentication service and the writes they make. Opening,
closing and ending sessions are transactions on their own snapshots; counting an
attempt, superseding a code and writing an audit row alone are single operations.
Random values are drawn by the caller of a request.

A code is compared with its hash in a call of its own, which reads the clock and
writes nothing, so that a run records every comparison. A deleted record leaves
nothing behind under its key.
-/
namespace CiroFuel.Auth
open Snapshot

inductive Key where
  | user (id : Id)
  | company (id : Id)
  | passwordReset (id : Id)
  | loginCode (id : Id)
  | sessionEvent (id : Id)
deriving DecidableEq

@[reducible] def Doc : Key → Type
  | .user _ => User
  | .company _ => Company
  | .passwordReset _ => Option PasswordReset
  | .loginCode _ => Option LoginCode
  | .sessionEvent _ => SessionEvent

/-- One account for each e-mail address and each phone number. -/
inductive IndexEntry where
  | email (email : String)
  | phone (phone : String)
deriving DecidableEq

instance : Indexed Doc IndexEntry where
  entries
    | .user _, (u : User) => [.email u.email, .phone u.phone]
    | _, _ => []

end CiroFuel.Auth

namespace CiroFuel.Snapshot.Store
open Auth

def account (s : Store Auth.Doc) (id : Id) : Option Auth.User := s.find (Auth.Key.user id)

def passwordReset (s : Store Auth.Doc) (id : Id) : Option PasswordReset :=
  (s.find (Auth.Key.passwordReset id)).join

def loginCode (s : Store Auth.Doc) (id : Id) : Option LoginCode :=
  (s.find (Auth.Key.loginCode id)).join

end CiroFuel.Snapshot.Store

namespace CiroFuel.Auth
open Snapshot

structure HttpError where
  status : ℕ
  error : Option String := none
  cause : Option SessionRevocationCause := none
  message : String
deriving DecidableEq, Repr

/-- Never tells a bad password from an inactive or suspended account. -/
def genericAuthError : HttpError := { status := 401, message := "Invalid credentials" }

def sessionRevoked (cause : Option SessionRevocationCause) : HttpError :=
  { status := 401
    error := some "SESSION_REVOKED"
    cause := cause
    message := "Your session has ended" }

def userNotFound : HttpError := { status := 404, message := "User not found" }

def resetCodeInvalid (message : String) : HttpError :=
  { status := 400
    error := some "RESET_CODE_INVALID"
    message := message }

def loginCodeInvalid : HttpError :=
  { status := 400
    error := some "LOGIN_CODE_INVALID"
    message := "Incorrect or expired code" }

/-- A refusal of the rate limits, which live outside the database. -/
def rateLimited : HttpError :=
  { status := 429, message := "Too many requests — please wait before trying again" }

def phoneNotRegistered : HttpError :=
  { status := 404
    error := some "PHONE_NOT_REGISTERED"
    message := "No active administrator account is registered with this mobile number" }

structure AuthConfig where
  maxAdminSessions : Option ℕ := none
  passwordResetExpiryMinutes : Option ℕ := none
  passwordResetMaxAttempts : Option ℕ := none
  loginOtpExpiryMinutes : Option ℕ := none
  loginOtpMaxAttempts : Option ℕ := none
  revealUnknownPhone : Bool := false

namespace AuthConfig

def cap (cfg : AuthConfig) : ℕ := cfg.maxAdminSessions.getD 3

def resetExpiryMinutes (cfg : AuthConfig) : ℕ := cfg.passwordResetExpiryMinutes.getD 5

def resetMaxAttempts (cfg : AuthConfig) : ℕ := cfg.passwordResetMaxAttempts.getD 5

def loginExpiryMinutes (cfg : AuthConfig) : ℕ := cfg.loginOtpExpiryMinutes.getD 5

def loginMaxAttempts (cfg : AuthConfig) : ℕ := cfg.loginOtpMaxAttempts.getD 5

end AuthConfig

/-! ### Writes -/

abbrev Action := Tx Doc HttpError

structure SessionSubject where
  userId : Id
  companyId : Option Id
  role : UserRole
  generation : ℕ
  sid : Option String := none
deriving DecidableEq, Repr

def subjectFor (user : UserDocument) (generation : ℕ) (sid : Option String) : SessionSubject where
  userId := user.id
  companyId := user.companyId
  role := user.role
  generation := generation
  sid := sid

/-- `SessionAuditService._write` -/
def writeEvent (subject : SessionSubject) (type : SessionEventType)
    (cause : Option SessionRevocationCause) : Action Unit := do
  let occurredAt ← Tx.getTime
  let id ← Tx.freshId
  Tx.insert (Key.sessionEvent id)
    { userId := subject.userId
      companyId := subject.companyId
      role := subject.role
      type := type
      cause := cause
      generation := subject.generation
      sid := truthy subject.sid
      occurredAt := occurredAt }

/-- `findByIdAndUpdate` for an account -/
def updateAccount (userId : Id) (update : User → User) : Action User := do
  let result ← Tx.findOneAndUpdate (Key.user userId) (fun _ => true) update
  match result with
  | none => Tx.throw userNotFound
  | some user => return user

def revokeAllSessions (userId : Id) (cause : Option SessionRevocationCause) : Action User :=
  updateAccount userId fun u => u.revokeAllSessions cause

def revokeAndSetPassword (userId : Id) (passwordHash : String) : Action User :=
  updateAccount userId fun u => u.revokeAndSetPassword passwordHash

def closeSession (userId : Id) (sid : String) : Action User :=
  updateAccount userId fun u => u.closeSession sid

/-- Rewrites the whole list of sessions from what the snapshot shows of it. -/
def openSession (userId : Id) (sid : String) (cap : ℕ) : Action (List String) := do
  let found : Option User ← Tx.find (Key.user userId)
  match found with
  | none => Tx.throw userNotFound
  | some user =>
      let now ← Tx.getTime
      let merged := user.merged sid now
      let kept := keptSessions cap merged
      let _ ← Tx.updateOne (Key.user userId) (fun _ => true) fun u : User =>
        { u with activeSessions := kept }
      return evictedSids kept merged

def auditEvictions (base : SessionSubject) : List String → Action Unit
  | [] => pure ()
  | sid :: sids => do
      writeEvent { base with sid := some sid } .revoked (some .sessionLimitExceeded)
      auditEvictions base sids

/-- The transaction of `mobileLogin`; it returns the generation of the new session. -/
def displaceSessions (user : UserDocument) : Action ℕ := do
  let revokedUser ← revokeAllSessions user.id (some .signedInElsewhere)
  let generation := User.generation revokedUser
  writeEvent (subjectFor user generation none) .revoked (some .signedInElsewhere)
  writeEvent (subjectFor user generation none) .signedIn none
  return generation

/-- The part of a transaction that opens a session of an administrator. -/
def openAudited (user : UserDocument) (sid : String) (cap : ℕ) : Action (List String) := do
  let evicted ← openSession user.id sid cap
  let base := subjectFor user user.generation none
  auditEvictions base evicted
  writeEvent { base with sid := some sid } .signedIn none
  return evicted

/-- Who makes a request, as its token says. -/
structure AuthenticatedUser where
  userId : Id
  role : UserRole
  companyId : Option Id := none
  parentFuelCompanyId : Option Id := none
  sid : Option String := none
deriving DecidableEq, Repr

/-- The transaction of `logout` -/
def signOut (actor : AuthenticatedUser) : Action Unit := do
  match isSessionCappedRole actor.role, truthy actor.sid with
  | true, some sid => do
      let user ← closeSession actor.userId sid
      writeEvent
        { userId := actor.userId
          companyId := user.companyId
          role := user.role
          generation := User.generation user
          sid := some sid } .signedOut none
  | _, _ => do
      let user ← revokeAllSessions actor.userId none
      writeEvent
        { userId := actor.userId
          companyId := user.companyId
          role := user.role
          generation := User.generation user } .signedOut none

/-- `setActive`, for an account of the acting company -/
def setActive (acting userId : Id) (isActive : Bool) : Action User := do
  let result ← Tx.findOneAndUpdate (Key.user userId)
    (fun u : User => decide (u.companyId = some acting)) fun u : User =>
      { u with isActive := isActive }
  match result with
  | none => Tx.throw userNotFound
  | some user => return user

/-- The transaction of `deactivate` -/
def deactivateUser (acting userId : Id) : Action User := do
  let _ ← setActive acting userId false
  let revoked ← revokeAllSessions userId (some .accountDeactivated)
  let _ ← Tx.updateOne (Key.user userId) (fun u : User => u.activeOrderId.isSome)
    fun u : User => u.releaseActiveOrder
  writeEvent
    { userId := userId
      companyId := revoked.companyId
      role := revoked.role
      generation := User.generation revoked } .revoked (some .accountDeactivated)
  return revoked

/-- The transaction of `PasswordResetService.complete` -/
def completeReset (record : PasswordResetDocument) (passwordHash : String) : Action Unit := do
  let user ← revokeAndSetPassword record.userId passwordHash
  let consumedAt ← Tx.getTime
  let _ ← Tx.updateOne (Key.passwordReset record.id) (fun r : Option PasswordReset => r.isSome)
    fun r : Option PasswordReset => r.map fun r => { r with consumedAt := some consumedAt }
  writeEvent
    { userId := record.userId
      companyId := user.companyId
      role := user.role
      generation := User.generation user } .revoked (some .passwordReset)

/-- The transaction of `LoginCodeService.verifyCode` -/
def consumeLoginCode (record : LoginCodeDocument) (holder : UserDocument) (sid : String)
    (cap : ℕ) : Action (List String) := do
  let consumedAt ← Tx.getTime
  let _ ← Tx.updateOne (Key.loginCode record.id) (fun r : Option LoginCode => r.isSome)
    fun r : Option LoginCode => r.map fun r => { r with consumedAt := some consumedAt }
  openAudited holder sid cap

/-! ### Records of codes -/

/-- The two collections of codes. -/
inductive CodeKey where
  | passwordReset (id : Id)
  | loginCode (id : Id)
deriving DecidableEq, Repr

def AuthConfig.maxAttempts (cfg : AuthConfig) : CodeKey → ℕ
  | .passwordReset _ => cfg.resetMaxAttempts
  | .loginCode _ => cfg.loginMaxAttempts

/-- `$inc: { attempts: 1 }`; tells whether the record was found. -/
def addAttempt : CodeKey → Action Bool
  | .passwordReset id =>
      Tx.updateOne (Key.passwordReset id) (fun r : Option PasswordReset => r.isSome)
        fun r : Option PasswordReset => r.map fun r => { r with attempts := r.attempts + 1 }
  | .loginCode id =>
      Tx.updateOne (Key.loginCode id) (fun r : Option LoginCode => r.isSome)
        fun r : Option LoginCode => r.map fun r => { r with attempts := r.attempts + 1 }

/-- The resets of an account that have not been consumed. -/
def unconsumedResets (userId : Id) : (k : Key) → Doc k → Bool
  | .passwordReset _, (r : Option PasswordReset) =>
      r.any fun r => decide (r.userId = userId) && r.consumedAt.isNone
  | _, _ => false

def unconsumedCodes (userId : Id) : (k : Key) → Doc k → Bool
  | .loginCode _, (r : Option LoginCode) =>
      r.any fun r => decide (r.userId = userId) && r.consumedAt.isNone
  | _, _ => false

/-- Records that the database removes because they have expired. -/
def expiredRecords (now : Instant) : (k : Key) → Doc k → Bool
  | .passwordReset _, (r : Option PasswordReset) => r.any fun r => decide (r.expiresAt ≤ now)
  | .loginCode _, (r : Option LoginCode) => r.any fun r => decide (r.expiresAt ≤ now)
  | _, _ => false

/-- A record is removed from its collection; other documents stay. -/
def removed : (k : Key) → Doc k → Doc k
  | .passwordReset _, _ => (none : Option PasswordReset)
  | .loginCode _, _ => (none : Option LoginCode)
  | .user _, u => u
  | .company _, c => c
  | .sessionEvent _, e => e

def purgeExpired : Action Unit := do
  let now ← Tx.getTime
  Tx.updateMany (expiredRecords now) removed

def loginCodeOf (userId : Id) (phone : String) (record : Otp.OtpRecordLike) (createdAt : Instant) :
    LoginCode where
  userId := userId
  phone := phone
  hash := record.hash
  salt := record.salt
  expiresAt := record.expiresAt
  createdAt := createdAt

def createReset (userId : Id) (phone : String) (record : Otp.OtpRecordLike) : Action Id := do
  let createdAt ← Tx.getTime
  let id ← Tx.freshId
  let reset : PasswordReset := { loginCodeOf userId phone record createdAt with }
  Tx.insert (Key.passwordReset id) (some reset)
  return id

def createLoginCode (userId : Id) (phone : String) (record : Otp.OtpRecordLike) : Action Id := do
  let createdAt ← Tx.getTime
  let id ← Tx.freshId
  Tx.insert (Key.loginCode id) (some (loginCodeOf userId phone record createdAt))
  return id

/-- A verified code opens the window in which the password may be set. -/
def setVerified (id : Id) (resetTokenHash : String) : Action Unit := do
  let verifiedAt ← Tx.getTime
  let _ ← Tx.updateOne (Key.passwordReset id) (fun r : Option PasswordReset => r.isSome)
    fun r : Option PasswordReset => r.map fun r =>
      { r with
        verifiedAt := some verifiedAt
        resetTokenHash := some resetTokenHash }
  return ()

/-- `UsersService.create` -/
def createUser (user : User) : Action Id := do
  let id ← Tx.freshId
  Tx.insert (Key.user id) user
  return id

def verifyOtp (C : Crypto) (record : Option Otp.OtpRecordLike) (code : String) (maxAttempts : ℕ) :
    Action Otp.OtpVerifyResult := do
  let now ← Tx.getTime
  return Otp.verify C record code maxAttempts now

end CiroFuel.Auth
