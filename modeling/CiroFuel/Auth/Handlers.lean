import CiroFuel.Auth.Service

/-!
# The requests of the authentication service

A request checks what it has read and then calls its transaction. A sign-in reads
the account and compares the password long before the transaction that opens the
session; a code is found, compared, counted and consumed by separate operations.
Effects on the cache, the message sender and the sockets are outside the store.
-/
namespace CiroFuel.Auth
open Snapshot

structure LoginDto where
  phone : Option String := none
  email : String := ""
  password : String
deriving DecidableEq, Repr

/-- The documents in a label are those the handler has read, and the request that
makes the call. -/
inductive Call where
  | createUser (data : NewUser) (passwordHash : String)
  | putCompany (id : Id) (company : Company)
  | activate (acting userId : Id)
  | deactivate (acting userId : Id)
  | mobileLogin (dto : LoginDto) (user : UserDocument)
  | adminLogin (dto : LoginDto) (user : UserDocument) (sid : String) (cap : ℕ)
  | signOut (actor : AuthenticatedUser)
  | recordEvent (subject : SessionSubject) (type : SessionEventType)
  | verifyOtp (subject : Option CodeKey) (record : Option Otp.OtpRecordLike) (code : String)
      (maxAttempts : ℕ)
  | addAttempt (subject : CodeKey)
  | supersedeResets (userId : Id)
  | supersedeCodes (userId : Id)
  | createReset (userId : Id) (phone : String) (record : Otp.OtpRecordLike)
  | createLoginCode (userId : Id) (phone : String) (record : Otp.OtpRecordLike)
  | setVerified (id : Id) (resetTokenHash : String)
  | complete (resetToken : String) (record : PasswordResetDocument) (passwordHash : String)
  | signInByCode (record : LoginCodeDocument) (holder : UserDocument) (sid : String) (cap : ℕ)
  | purgeExpired

namespace Call

@[reducible] def Reply : Call → Type
  | .createUser .. => Id
  | .activate .. => User
  | .deactivate .. => User
  | .mobileLogin .. => ℕ
  | .adminLogin .. => List String
  | .verifyOtp .. => Otp.OtpVerifyResult
  | .addAttempt .. => Bool
  | .createReset .. => Id
  | .createLoginCode .. => Id
  | .signInByCode .. => List String
  | _ => Unit

def body (C : Crypto) : (c : Call) → Action c.Reply
  | .createUser data passwordHash => Auth.createUser (userOf data passwordHash)
  | .putCompany id company => Tx.upsert (Key.company id) company fun _ => company
  | .activate acting userId => setActive acting userId true
  | .deactivate acting userId => deactivateUser acting userId
  | .mobileLogin _ user => displaceSessions user
  | .adminLogin _ user sid cap => openAudited user sid cap
  | .signOut actor => Auth.signOut actor
  | .recordEvent subject type => writeEvent subject type none
  | .verifyOtp _ record code maxAttempts => Auth.verifyOtp C record code maxAttempts
  | .addAttempt subject => Auth.addAttempt subject
  | .supersedeResets userId => Tx.updateMany (unconsumedResets userId) removed
  | .supersedeCodes userId => Tx.updateMany (unconsumedCodes userId) removed
  | .createReset userId phone record => Auth.createReset userId phone record
  | .createLoginCode userId phone record => Auth.createLoginCode userId phone record
  | .setVerified id resetTokenHash => Auth.setVerified id resetTokenHash
  | .complete _ record passwordHash => Auth.completeReset record passwordHash
  | .signInByCode record holder sid cap => consumeLoginCode record holder sid cap
  | .purgeExpired => Auth.purgeExpired

/-- The calls made with a session of their own. -/
def isolated : Call → Bool
  | .deactivate .. => true
  | .mobileLogin .. => true
  | .adminLogin .. => true
  | .signOut .. => true
  | .complete .. => true
  | .signInByCode .. => true
  | _ => false

end Call

abbrev Handler := Prog Doc Call.Reply HttpError

namespace Handler

abbrev perform (l : Call) : Handler l.Reply := Prog.perform l

/-- An effect outside the database; its failure is the handler's. -/
def sideEffect : Handler Unit := .outside fun ok => if ok then .pure () else .fail .unavailable

/-- An effect outside the database whose failure is ignored. -/
def bestEffort : Handler Unit := .outside fun _ => .pure ()

/-- A check outside the database that may refuse the request. -/
def checkOutside (e : HttpError) : Handler Unit :=
  .outside fun ok => if ok then .pure () else Prog.throw e

def require {α : Type} (e : HttpError) : Option α → Handler α
  | some a => pure a
  | none => Prog.throw e

def refuseIf (b : Bool) (e : HttpError) : Handler Unit := if b then Prog.throw e else pure ()

end Handler

open Auth.Handler

/-! ### Lookups -/

def users (d : Docs Doc) : List UserDocument :=
  d.entries.filterMap fun
    | ⟨.user id, (u : User)⟩ => some (u.withId id)
    | _ => none

/-- Only clients and drivers sign in by phone and password. -/
def findByPhoneForAuth (phone : String) (d : Docs Doc) : Option UserDocument :=
  (users d).find? fun u => u.phone = phone && (u.role = .client || u.role = .driver)

def findByEmailForAuth (email : String) (d : Docs Doc) : Option UserDocument :=
  (users d).find? fun u => u.email = email

/-- The account of the phone number, if exactly one active administrator has it. -/
def findSingleActiveAdminByPhone (phone : String) (d : Docs Doc) : Option UserDocument :=
  match (users d).filter fun u => u.phone = phone && isSessionCappedRole u.role && u.isActive with
  | [u] => some u
  | _ => none

def resets (d : Docs Doc) : List PasswordResetDocument :=
  d.entries.filterMap fun
    | ⟨.passwordReset id, (some r : Option PasswordReset)⟩ => some (r.withId id)
    | _ => none

def loginCodes (d : Docs Doc) : List LoginCodeDocument :=
  d.entries.filterMap fun
    | ⟨.loginCode id, (some r : Option LoginCode)⟩ => some (r.withId id)
    | _ => none

/-- The latest unconsumed reset sent to the number. -/
def latestReset (phone : String) (d : Docs Doc) : Option PasswordResetDocument :=
  ((resets d).filter fun r => r.phone = phone && r.consumedAt.isNone).argmax fun r => r.createdAt

def latestCode (phone : String) (d : Docs Doc) : Option LoginCodeDocument :=
  ((loginCodes d).filter fun r => r.phone = phone && r.consumedAt.isNone).argmax
    fun r => r.createdAt

def resetByToken (resetTokenHash : String) (d : Docs Doc) : Option PasswordResetDocument :=
  (resets d).find? fun r => r.resetTokenHash = some resetTokenHash && r.consumedAt.isNone

def findById (userId : Id) : Handler UserDocument := do
  let found : Option User ← Prog.find (Key.user userId)
  let user ← require userNotFound found
  return user.withId userId

/-! ### Checking a session -/

inductive UnusableReason where
  | accountInactive | companySuspended
deriving DecidableEq, Repr

structure LoadedUser where
  user : Option UserDocument
  usable : Bool
  parentFuelCompanyId : Option Id := none
  unusableReason : Option UnusableReason := none

def loadActiveUser (userId : Id) : Handler LoadedUser := do
  let found : Option User ← Prog.find (Key.user userId)
  match found.map fun u => u.withId userId with
  | none =>
      return { user := none, usable := false, unusableReason := some .accountInactive }
  | some user =>
      if !user.isActive then
        return { user := some user, usable := false, unusableReason := some .accountInactive }
      else
        match user.role, user.companyId with
        | .superAdmin, _ => return { user := some user, usable := true }
        | _, none => return { user := some user, usable := true }
        | _, some companyId => do
            let scoping : Option Company ← Prog.find (Key.company companyId)
            match scoping.filter fun c => c.status = .active with
            | none =>
                return { user := some user, usable := false
                         unusableReason := some .companySuspended }
            | some company =>
                return { user := some user, usable := true
                         parentFuelCompanyId := company.parentFuelCompanyId }

def validateActiveSession (userId : Id) : Handler UserDocument := do
  let loaded ← loadActiveUser userId
  refuseIf (!loaded.usable) genericAuthError
  require genericAuthError loaded.user

/-- An administrator's token must name an open session. -/
def checkSid (user : UserDocument) (sid : Option String) : Handler Unit :=
  if isSessionCappedRole user.role then
    refuseIf (!(truthy sid).any fun sid => user.hasSession sid)
      (sessionRevoked (some .sessionLimitExceeded))
  else pure ()

def validateActiveSessionWithScoping (payload : JwtPayload) :
    Handler (UserDocument × Option Id) := do
  let loaded ← loadActiveUser payload.sub
  let cause :=
    if loaded.unusableReason = some .companySuspended then some .companySuspended
    else loaded.user.bind fun u => u.lastRevocationCause
  let user ← require (sessionRevoked cause)
    (loaded.user.filter fun u => loaded.usable && payload.sgen.getD 0 = u.generation)
  checkSid user payload.sid
  return (user, loaded.parentFuelCompanyId)

/-- `JwtStrategy.validate` -/
def authenticate (payload : JwtPayload) : Handler AuthenticatedUser := do
  let (user, parentFuelCompanyId) ← validateActiveSessionWithScoping payload
  return {
    userId := user.id
    role := user.role
    companyId := user.companyId
    parentFuelCompanyId := parentFuelCompanyId
    sid := payload.sid }

/-! ### Sessions -/

def issueTokenPair (user : UserDocument) (generation : ℕ) (sid : Option String) : TokenPair where
  accessToken := payloadFor user generation sid
  refreshToken := payloadFor user generation sid

def mobileLogin (dto : LoginDto) (user : UserDocument) : Handler TokenPair := do
  let generation ← perform (.mobileLogin dto user)
  sideEffect
  return issueTokenPair user generation none

def adminLogin (cfg : AuthConfig) (dto : LoginDto) (user : UserDocument) (sid : String) :
    Handler TokenPair := do
  let _ ← perform (.adminLogin dto user sid cfg.cap)
  return issueTokenPair user user.generation (some sid)

/-- `POST auth/login` -/
def login (C : Crypto) (cfg : AuthConfig) (dto : LoginDto) (sid : String) :
    Handler TokenPair := do
  let docs ← Prog.scan
  let user ← require genericAuthError <|
    match dto.phone with
    | some phone => findByPhoneForAuth phone docs
    | none => findByEmailForAuth dto.email docs
  refuseIf (!C.bcryptCompare dto.password user.passwordHash) genericAuthError
  let _ ← validateActiveSession user.id
  if isSessionCappedRole user.role then adminLogin cfg dto user sid else mobileLogin dto user

/-- `POST auth/logout` -/
def logout (payload : JwtPayload) : Handler Unit := do
  let actor ← authenticate payload
  perform (.signOut actor)

/-- `POST auth/refresh`, for a refresh token carrying the payload -/
def refresh (payload : JwtPayload) : Handler TokenPair := do
  checkOutside genericAuthError
  let user ← validateActiveSession payload.sub
  refuseIf (payload.sgen.getD 0 ≠ user.generation) (sessionRevoked user.lastRevocationCause)
  checkSid user payload.sid
  return issueTokenPair user user.generation payload.sid

/-- `PATCH users/:id/deactivate` -/
def deactivate (acting userId : Id) : Handler User := do
  let revoked ← perform (.deactivate acting userId)
  sideEffect
  return revoked

/-! ### Codes -/

structure CodeResponse where
  expiresInMinutes : ℕ
  attemptsAllowed : ℕ
deriving DecidableEq, Repr

/-- `OtpPrimitivesService.issue`: the plaintext is cached, and the record returned. -/
def issueOtp (C : Crypto) (code salt : String) (expiryMinutes : ℕ) :
    Handler Otp.OtpRecordLike := do
  let now ← Prog.getTime
  sideEffect
  return Otp.issue C code salt expiryMinutes now

/-- `POST auth/password-reset/request` -/
def requestReset (C : Crypto) (cfg : AuthConfig) (phone code salt : String) :
    Handler CodeResponse := do
  checkOutside rateLimited
  let byPhone ← Prog.scan
  let admins ← Prog.scan
  match (findByPhoneForAuth phone byPhone).or (findSingleActiveAdminByPhone phone admins) with
  | none => return ⟨cfg.resetExpiryMinutes, cfg.resetMaxAttempts⟩
  | some holder => do
      let record ← issueOtp C code salt cfg.resetExpiryMinutes
      perform (.supersedeResets holder.id)
      let _ ← perform (.createReset holder.id phone record)
      bestEffort
      perform (.recordEvent (subjectFor holder holder.generation none) .recoveryRequested)
      return ⟨cfg.resetExpiryMinutes, cfg.resetMaxAttempts⟩

/-- The audit row of a failed verification. -/
def recordFailure (userId : Id) (type : SessionEventType) : Handler Unit := do
  let user ← findById userId
  perform (.recordEvent (subjectFor user user.generation none) type)

/-- Only a mismatch is counted. -/
def countMismatch (subject : CodeKey) (result : Otp.OtpVerifyResult) : Handler Unit :=
  if result = .mismatch then do
    let _ ← perform (.addAttempt subject)
    return ()
  else pure ()

/-- What `PasswordResetService.verify` does with the verdict on the code. -/
def settleReset (C : Crypto) (record : Option PasswordResetDocument) (resetToken : String)
    (result : Otp.OtpVerifyResult) : Handler String := do
  let invalid := resetCodeInvalid "Incorrect or expired code"
  match result, record with
  | .match_, some record => do
      perform (.setVerified record.id (C.sha256 resetToken))
      sideEffect
      return resetToken
  | .mismatch, some record | .lockedOut, some record => do
      countMismatch (.passwordReset record.id) result
      recordFailure record.userId .recoveryVerifyFailed
      Prog.throw invalid
  | _, _ => Prog.throw invalid

/-- `POST auth/password-reset/verify` -/
def verifyReset (C : Crypto) (cfg : AuthConfig) (phone code resetToken : String) :
    Handler String := do
  let docs ← Prog.scan
  let record := latestReset phone docs
  let result ← perform (.verifyOtp (record.map fun r => .passwordReset r.id)
    (record.map fun r => r.toOtp) code cfg.resetMaxAttempts)
  settleReset C record resetToken result

/-- `POST auth/password-reset/complete` -/
def complete (C : Crypto) (resetToken newPassword salt : String) : Handler Unit := do
  let invalid := resetCodeInvalid "This reset link is invalid or has expired"
  let docs ← Prog.scan
  let record ← require invalid (resetByToken (C.sha256 resetToken) docs)
  let now ← Prog.getTime
  refuseIf (record.verifiedAt.isNone || decide (record.expiresAt ≤ now)) invalid
  perform (.complete resetToken record (C.bcryptHash salt newPassword))

/-- `POST auth/login/code/request`; the proof of work is among the checks outside. -/
def requestCode (C : Crypto) (cfg : AuthConfig) (phone code salt : String) :
    Handler CodeResponse := do
  checkOutside rateLimited
  let docs ← Prog.scan
  match findSingleActiveAdminByPhone phone docs with
  | none => do
      refuseIf cfg.revealUnknownPhone phoneNotRegistered
      return ⟨cfg.loginExpiryMinutes, cfg.loginMaxAttempts⟩
  | some holder => do
      let record ← issueOtp C code salt cfg.loginExpiryMinutes
      perform (.supersedeCodes holder.id)
      let _ ← perform (.createLoginCode holder.id phone record)
      bestEffort
      perform (.recordEvent (subjectFor holder holder.generation none) .loginCodeRequested)
      return ⟨cfg.loginExpiryMinutes, cfg.loginMaxAttempts⟩

/-- What `LoginCodeService.verifyCode` does with the verdict on the code. -/
def settleCode (cfg : AuthConfig) (record : Option LoginCodeDocument) (sid : String)
    (result : Otp.OtpVerifyResult) : Handler TokenPair := do
  match result, record with
  | .match_, some record => do
      let holder ← findById record.userId
      let _ ← perform (.signInByCode record holder sid cfg.cap)
      sideEffect
      return issueTokenPair holder holder.generation (some sid)
  | _, none => do
      sideEffect
      Prog.throw loginCodeInvalid
  | _, some record => do
      countMismatch (.loginCode record.id) result
      sideEffect
      recordFailure record.userId .loginCodeVerifyFailed
      Prog.throw loginCodeInvalid

/-- `POST auth/login/code/verify` -/
def verifyCode (cfg : AuthConfig) (phone code sid : String) : Handler TokenPair := do
  checkOutside rateLimited
  let docs ← Prog.scan
  let record := latestCode phone docs
  let result ← perform (.verifyOtp (record.map fun r => .loginCode r.id)
    (record.map fun r => r.toOtp) code cfg.loginMaxAttempts)
  settleCode cfg record sid result

/-! ### The service -/

inductive Request where
  | createUser (data : NewUser) (password salt : String)
  | putCompany (id : Id) (company : Company)
  | activate (acting userId : Id)
  | deactivate (acting userId : Id)
  | login (dto : LoginDto) (sid : String)
  | logout (payload : JwtPayload)
  | refresh (payload : JwtPayload)
  | authenticate (payload : JwtPayload)
  | requestReset (phone code salt : String)
  | verifyReset (phone code resetToken : String)
  | completeReset (resetToken newPassword salt : String)
  | requestCode (phone code salt : String)
  | verifyCode (phone code sid : String)
  | purgeExpired

inductive Answer where
  | session (tokens : TokenPair)
  | refreshed (presented : JwtPayload) (tokens : TokenPair)
  | authenticated (user : AuthenticatedUser)
  | account (user : User)
  | issued (response : CodeResponse)
  | resetToken (resetToken : String)
  | passwordChanged (resetToken : String)
  | done
deriving DecidableEq, Repr

def handle (C : Crypto) (cfg : AuthConfig) : Request → Handler Answer
  | .createUser data password salt => do
      let _ ← perform (.createUser data (C.bcryptHash salt password))
      return .done
  | .putCompany id company => do
      perform (.putCompany id company)
      return .done
  | .activate acting userId => do
      let user ← perform (.activate acting userId)
      return .account user
  | .deactivate acting userId => do
      let user ← deactivate acting userId
      return .account user
  | .login dto sid => do
      let tokens ← login C cfg dto sid
      return .session tokens
  | .logout payload => do
      logout payload
      return .done
  | .refresh payload => do
      let tokens ← refresh payload
      return .refreshed payload tokens
  | .authenticate payload => do
      let user ← authenticate payload
      return .authenticated user
  | .requestReset phone code salt => do
      let response ← requestReset C cfg phone code salt
      return .issued response
  | .verifyReset phone code resetToken => do
      let token ← verifyReset C cfg phone code resetToken
      return .resetToken token
  | .completeReset resetToken newPassword salt => do
      complete C resetToken newPassword salt
      return .passwordChanged resetToken
  | .requestCode phone code salt => do
      let response ← requestCode C cfg phone code salt
      return .issued response
  | .verifyCode phone code sid => do
      let tokens ← verifyCode cfg phone code sid
      return .session tokens
  | .purgeExpired => do
      perform .purgeExpired
      return .done

def machine (C : Crypto) (cfg : AuthConfig) :
    Machine Doc Call.Reply HttpError Request Answer where
  body := Call.body C
  isolated := Call.isolated
  handle := handle C cfg
  admits _ _ _ := true

end CiroFuel.Auth
