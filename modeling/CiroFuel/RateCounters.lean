import CiroFuel.Redis.Counters

/-!
# Rate counters

Requests for a password reset, and for a code to sign in with, are counted by the phone
number they are made for, and refused where a window has seen too many. So are codes
entered wrongly, and too many of these block the number for a while.
-/
namespace CiroFuel.RateCounters
open Interleaving Redis

structure PasswordResetConfig where
  windowMinutes : ℕ := 15
  maxRequestsPerWindow : ℕ := 3

structure LoginOtpConfig where
  windowMinutes : ℕ := 15
  maxRequests : ℕ := 3
  challengeAfter : ℕ := 2
  failThreshold : ℕ := 10
  blockMinutes : ℕ := 60

structure Config where
  passwordReset : PasswordResetConfig := {}
  loginOtp : LoginOtpConfig := {}

def rateLimitKey (phone : String) : String := "password-reset:rate:" ++ phone

namespace K

def rate (phone : String) : String := "login-otp:rate:" ++ phone

def fails (phone : String) : String := "login-otp:fails:" ++ phone

def blocked (phone : String) : String := "login-otp:blocked:" ++ phone

def rlHits (phone : String) : String := "login-otp:rlhits:" ++ phone

end K

inductive ErrorCode where
  | RESET_RATE_LIMITED | LOGIN_RATE_LIMITED
deriving DecidableEq, Repr

structure HttpError where
  status : ℕ
  error : Option ErrorCode := none
  message : String
  retryAfterSeconds : Option ℤ := none
deriving DecidableEq, Repr

def tooManyRequests (error : ErrorCode) (ttl : ℤ) : HttpError where
  status := 429
  error := some error
  message := "Too many requests — please wait before trying again"
  retryAfterSeconds := some (max 1 ttl)

/-- What an error of the store becomes that nothing catches. -/
def internal : HttpError where
  status := 500
  message := "Internal server error"

/-- What `closed` makes of one. -/
def unavailable : HttpError where
  status := 503
  message := "Sign-in is temporarily unavailable"

inductive Request where
  | checkRateLimit (phone : String)
  | assertNotBlocked (phone : String)
  | registerCodeRequest (phone : String)
  | challengeRequired (phone : String)
  | recordVerificationFailure (phone : String)
  | clearOnSuccess (phone : String)
deriving DecidableEq, Repr

inductive Answer where
  | done
  | required (b : Bool)
deriving DecidableEq, Repr

abbrev Handler := Prog (Replies String) HttpError

/-- Counts at the key. The first to count there starts the window. -/
def counted (e : HttpError) (key : String) (seconds : ℕ) : Handler ℕ := do
  let n ← send e (.incr key)
  if n = 1 then
    let _ ← send e (.expire key seconds)
    return n
  else return n

section service
variable (cfg : Config)

def checkRateLimit (phone : String) : Handler Answer := do
  let key := rateLimitKey phone
  let count ← counted internal key (cfg.passwordReset.windowMinutes * 60)
  if count > cfg.passwordReset.maxRequestsPerWindow then
    let ttl ← send internal (.ttl key)
    .fail (tooManyRequests .RESET_RATE_LIMITED ttl)
  else return .done

def assertNotBlocked (phone : String) : Handler Answer := do
  let ttl ← send unavailable (.ttl (K.blocked phone))
  if ttl > 0 then .fail (tooManyRequests .LOGIN_RATE_LIMITED ttl)
  else return .done

def registerCodeRequest (phone : String) : Handler Answer := do
  let windowSeconds := cfg.loginOtp.windowMinutes * 60
  let count ← counted unavailable (K.rate phone) windowSeconds
  if count > cfg.loginOtp.maxRequests then
    let _ ← counted unavailable (K.rlHits phone) windowSeconds
    let ttl ← send unavailable (.ttl (K.rate phone))
    .fail (tooManyRequests .LOGIN_RATE_LIMITED ttl)
  else return .done

def challengeRequired (phone : String) : Handler Answer := do
  let hits ← send unavailable (.get (K.rlHits phone))
  return .required (hits.getD 0 ≥ cfg.loginOtp.challengeAfter)

def recordVerificationFailure (phone : String) : Handler Answer := do
  let blockSeconds := cfg.loginOtp.blockMinutes * 60
  let fails ← counted unavailable (K.fails phone) blockSeconds
  if fails ≥ cfg.loginOtp.failThreshold then
    let _ ← send unavailable (.set (K.blocked phone) 1 blockSeconds)
    return .done
  else return .done

def clearOnSuccess (phone : String) : Handler Answer := do
  let _ ← send unavailable
    (.del [K.rate phone, K.fails phone, K.rlHits phone, K.blocked phone])
  return .done

def handle : Request → Handler Answer
  | .checkRateLimit phone => checkRateLimit cfg phone
  | .assertNotBlocked phone => assertNotBlocked phone
  | .registerCodeRequest phone => registerCodeRequest cfg phone
  | .challengeRequired phone => challengeRequired cfg phone
  | .recordVerificationFailure phone => recordVerificationFailure cfg phone
  | .clearOnSuccess phone => clearOnSuccess phone

end service

/-- The keys at which a request counts. -/
def Request.counters : Request → List String
  | .checkRateLimit phone => [rateLimitKey phone]
  | .registerCodeRequest phone => [K.rate phone, K.rlHits phone]
  | .recordVerificationFailure phone => [K.fails phone]
  | _ => []

theorem counted_paced (e : HttpError) {key : String} (seconds : ℕ) {ks : List String}
    (hkey : key ∈ ks) : Paced ks (counted e key seconds) := by
  refine .incr rfl fun r => ?_
  cases r with
  | none => exact .fail e
  | some n =>
      change Paced ks (if n = 1 then _ else _)
      split_ifs
      · refine .expire hkey fun r => ?_
        cases r with
        | none => exact .fail e
        | some b => exact .pure n
      · exact .pure n

theorem handle_paced (cfg : Config) (q : Request) : Paced q.counters (handle cfg q) := by
  cases q with
  | checkRateLimit phone =>
      refine (counted_paced _ _ (List.mem_singleton_self _)).bind fun n => ?_
      split_ifs
      · exact (Paced.send _ nofun nofun).bind fun ttl => .fail _
      · exact .pure _
  | assertNotBlocked phone =>
      refine (Paced.send _ nofun nofun).bind fun ttl => ?_
      split_ifs
      · exact .fail _
      · exact .pure _
  | registerCodeRequest phone =>
      refine (counted_paced _ _ List.mem_cons_self).bind fun n => ?_
      split_ifs
      · refine (counted_paced _ _ (List.mem_cons_of_mem _ (List.mem_singleton_self _))).bind
          fun n => ?_
        exact (Paced.send _ nofun nofun).bind fun ttl => .fail _
      · exact .pure _
  | challengeRequired phone =>
      exact (Paced.send _ nofun nofun).bind fun hits => .pure _
  | recordVerificationFailure phone =>
      refine (counted_paced _ _ (List.mem_singleton_self _)).bind fun n => ?_
      split_ifs
      · exact (Paced.send _ nofun nofun).bind fun _ => .pure _
      · exact .pure _
  | clearOnSuccess phone =>
      exact (Paced.send _ nofun nofun).bind fun _ => .pure _

abbrev Sys := Interleaving.Sys (Replies String) (Keys String) HttpError Request Answer

def start : Sys where
  state _ := none

/-- Whatever requests are made, at once or in turn, a key at which no request counts any more
has an expiry, and is gone when that has passed; as long as no process stops, and no command
fails, between a count that began at a key and the expiry of the key. -/
theorem counters_expire (cfg : Config) (as : List (Act Request))
    (hpaced : ∀ m ∈ trace (handle cfg) start as, paced m = true) (key : String) :
    let s : Sys := Sys.after (handle cfg) start as
    (∀ c ∈ s.clients, key ∈ c.request.counters → c.over = true) →
      (∀ e, live s.state key s.clock = some e → e.expiresAt ≠ none) ∧
        ∃ t, ∀ now, t ≤ now → live s.state key now = none := by
  intro s hover
  have hstart : Attended Request.counters start :=
    ⟨fun c hc => (nomatch hc), fun k ⟨e, hstored, _⟩ => (nomatch hstored)⟩
  have htimed : ¬Untimed s.state key := (hstart.after (handle_paced cfg) as hpaced).timed hover
  exact ⟨fun e hlive hnone => htimed ⟨e, (live_eq_some.mp hlive).1, hnone⟩, goes_of_timed htimed⟩

/-- Four requests in a row, the last of them refused, and one that stops once it was counted. -/
def fiveRequests (phone : String) : List (Act Request) :=
  [.arrive (.checkRateLimit phone), .command 0, .command 0,
    .arrive (.checkRateLimit phone), .command 1, .arrive (.checkRateLimit phone), .command 2,
    .tick 60000, .arrive (.checkRateLimit phone), .command 3, .stop 3,
    .arrive (.checkRateLimit phone), .command 4, .command 4]

theorem counters_expire_fiveRequests :
    let s : Sys := Sys.after (handle {}) start (fiveRequests "+966500000001")
    live s.state (rateLimitKey "+966500000001") s.clock = some ⟨5, some 900000⟩ ∧
      ∃ t, ∀ now, t ≤ now → live s.state (rateLimitKey "+966500000001") now = none :=
  ⟨by decide +kernel, (counters_expire {} (fiveRequests "+966500000001") (by decide +kernel)
    (rateLimitKey "+966500000001") (by decide +kernel)).2⟩

/-- The process stops before it has set the expiry, and three more requests are counted. -/
def stoppedBetween (phone : String) : List (Act Request) :=
  [.arrive (.checkRateLimit phone), .command 0, .stop 0,
    .arrive (.checkRateLimit phone), .command 1, .arrive (.checkRateLimit phone), .command 2,
    .tick 86400000, .arrive (.checkRateLimit phone), .command 3, .command 3]

/-- All requests are over, the last is refused a day later, and the counter stays for ever. -/
theorem counters_stay_stoppedBetween :
    let s : Sys := Sys.after (handle {}) start (stoppedBetween "+966500000001")
    s.clients.all Client.over = true ∧
      (s.clients[3]?).any (fun c => match c.prog with
        | some (.fail e) => e = tooManyRequests .RESET_RATE_LIMITED (-1)
        | _ => false) = true ∧
      ∀ now, live s.state (rateLimitKey "+966500000001") now = some ⟨4, none⟩ := by
  refine ⟨by decide +kernel, by decide +kernel, fun now => ?_⟩
  exact live_untimed (by decide +kernel : live _ _ 0 = _) rfl now

end CiroFuel.RateCounters
