import CiroFuel.Handover.Codes
import CiroFuel.Interleaving.Clients
import CiroFuel.Query.Arrays

/-!
# Codes that can be read back

The order keeps the hash of a code only. The client reads the code itself from a cache,
where it stands as long as it is valid. To issue a code takes several operations on the
two, and calls about one order may come at once.
-/
namespace CiroFuel.Handover.Cached
open Interleaving

structure Plaintext where
  code : String
  expiresAt : Instant
deriving DecidableEq

/-- The orders' codes, and the plaintexts in the cache. -/
structure Codes where
  orders : Id → Option OrderCodes
  cache : Id × OtpPurpose → Option Plaintext := fun _ => none

/-- What a transaction has read of an order, and the instant at which it marks its codes used. -/
structure Session where
  order : Option OrderCodes
  usedAt : Instant

def Codes.update (s : Codes) (orderId : Id) (f : OrderCodes → OrderCodes) : Codes :=
  { s with orders := Function.update s.orders orderId ((s.orders orderId).map f) }

def Codes.cached (s : Codes) (orderId : Id) (purpose : OtpPurpose) (x : Option Plaintext) : Codes :=
  { s with cache := Function.update s.cache (orderId, purpose) x }

inductive Command where
  | findById (orderId : Id)
  | getTime
  | cachePlaintext (orderId : Id) (purpose : OtpPurpose) (code : String) (ttlSeconds : ℕ)
  | getCachedPlaintext (orderId : Id) (purpose : OtpPurpose)
  | clearCache (orderId : Id) (purpose : OtpPurpose)
  | pullUnused (orderId : Id) (purpose : OtpPurpose)
  | push (orderId : Id) (record : OtpRecord)
  | addAttempt (orderId : Id) (index : ℕ)
  | setUsed (orderId : Id) (index : ℕ)
  | invalidate (orderId : Id)
  | commit (orderId : Id) (session : Session)

namespace Command

@[reducible] def Reply : Command → Type
  | .findById _ => Option OrderCodes
  | .getTime => Instant
  | .getCachedPlaintext .. => Option String
  | .addAttempt .. => Bool
  | .setUsed .. => Bool
  | .invalidate _ => Option Session
  | .commit .. => Bool
  | _ => Unit

def exec : (c : Command) → Codes → Instant → c.Reply × Codes
  | .findById orderId, s, _ => (s.orders orderId, s)
  | .getTime, s, now => (now, s)
  | .cachePlaintext orderId purpose code ttlSeconds, s, now =>
      ((), s.cached orderId purpose (some ⟨code, now + 1000 * ttlSeconds⟩))
  | .getCachedPlaintext orderId purpose, s, now =>
      (((s.cache (orderId, purpose)).filter fun x => now < x.expiresAt).map (·.code), s)
  | .clearCache orderId purpose, s, _ =>
      ((), s.cached orderId purpose none)
  | .pullUnused orderId purpose, s, _ => ((), s.update orderId (·.pullUnused purpose))
  | .push orderId record, s, _ => ((), s.update orderId (·.push record))
  -- An update is refused that sets a field in a null.
  | .addAttempt orderId index, s, _ =>
      if (s.orders orderId).any (·.nullAt index) then (false, s)
      else (true, s.update orderId (·.addAttempt index))
  | .setUsed orderId index, s, now =>
      if (s.orders orderId).any (·.nullAt index) then (false, s)
      else (true, s.update orderId (·.setUsed index now))
  -- Nobody else sees what a transaction has written before it commits.
  | .invalidate orderId, s, now =>
      (if (s.orders orderId).any OrderCodes.hasNull then none else some ⟨s.orders orderId, now⟩, s)
  | .commit orderId session, s, _ =>
      if s.orders orderId = session.order then
        (true, s.update orderId (·.invalidate session.usedAt))
      else (false, s)

end Command

instance : Service Command.Reply Codes where
  exec := Command.exec

structure Current where
  purpose : OtpPurpose
  otp : String
  expiresAt : Instant
deriving DecidableEq, Repr

inductive Answer where
  | done
  | current (c : Option Current)
deriving DecidableEq, Repr

abbrev Handler := Prog Command.Reply HttpError

abbrev send (c : Command) : Handler c.Reply := Prog.send internal c

/-- A code of six digits, drawn as a number. -/
def generateCode (draw : Fin 1000000) : String :=
  String.ofList ((Nat.toDigits 10 draw).leftpad 6 '0')

section service
variable (C : Crypto) (expiryMinutes : ℕ) (orderId : Id) (purpose : OtpPurpose)

def pushed (record : OtpRecord) : Handler Answer := do
  let _ ← send (.push orderId record)
  return .done

/-- Drops what is left unused and stores the record. -/
def store (record : OtpRecord) : Handler Answer := do
  let _ ← send (.pullUnused orderId purpose)
  pushed orderId record

def otpRecord (record : Otp.OtpRecordLike) (createdAt : Instant) : OtpRecord where
  purpose := purpose
  hash := record.hash
  salt := record.salt
  expiresAt := record.expiresAt
  attempts := 0
  createdAt := createdAt

def cached (record : Otp.OtpRecordLike) : Handler Answer := do
  let createdAt ← send .getTime
  store orderId purpose (otpRecord purpose record createdAt)

def remember (code : String) (record : Otp.OtpRecordLike) : Handler Answer := do
  let _ ← send (.cachePlaintext orderId purpose code (expiryMinutes * 60))
  cached orderId purpose record

/-- The part of `issue` that makes a new code. -/
def renew (code salt : String) : Handler Answer := do
  let issuedAt ← send .getTime
  remember expiryMinutes orderId purpose code (Otp.issue C code salt expiryMinutes issuedAt)

def check (code salt : String) (order : OrderCodes) : Handler Answer := do
  let now ← send .getTime
  if meetsNull (active purpose now) order.otps then .fail internal
  else if order.otps.any (active purpose now) then return .done
  else renew C expiryMinutes orderId purpose code salt

def findOrder : Handler OrderCodes := do
  match ← send (.findById orderId) with
  | none => .fail orderNotFound
  | some order => return order

/-- `OtpService.issue`; the code and its salt are drawn by the caller. The message to the client's
devices changes nothing that is kept. -/
def issue (draw : Fin 1000000) (salt : String) : Handler Answer := do
  let order ← findOrder orderId
  check C expiryMinutes orderId purpose (generateCode draw) salt order

def cleared : Handler Answer := do
  let _ ← send (.clearCache orderId purpose)
  return .done

def missed (index : ℕ) : Handler Answer := do
  if ← send (.addAttempt orderId index) then .fail (unauthorized "Incorrect OTP") else .fail internal

def accepted (index : ℕ) : Handler Answer := do
  if ← send (.setUsed orderId index) then cleared orderId purpose else .fail internal

/-- What `OtpService.verify` does with the verdict on the code. -/
def settle (index : Option ℕ) (result : Otp.OtpVerifyResult) : Handler Answer :=
  match result, index with
  | .notFound, _ => .fail (unauthorized "No active OTP for this step")
  | .expired, _ => .fail (unauthorized "OTP has expired")
  | .lockedOut, _ => .fail (unauthorized "Too many incorrect attempts — request a new code")
  | .mismatch, some index => missed orderId index
  | .match_, some index => accepted orderId purpose index
  | _, none => .fail (unauthorized "No active OTP for this step")

def judge (submittedOtp : String) (order : OrderCodes) : Handler Answer := do
  let index := order.otps.findIdx? (unused purpose)
  let record := index.bind fun i => order.otps[i]?.bind Slot.record
  let now ← send .getTime
  settle orderId purpose index (Otp.verify C (record.map toOtp) submittedOtp MAX_ATTEMPTS now)

/-- `OtpService.verify` -/
def verify (submittedOtp : String) : Handler Answer := do
  let order ← findOrder orderId
  if meetsNull (unused purpose) order.otps then .fail internal
  else judge C orderId purpose submittedOtp order

def committed (session : Session) : Handler Answer := do
  if ← send (.commit orderId session) then return .done else .fail internal

def clearDelivery (session : Session) : Handler Answer := do
  let _ ← send (.clearCache orderId .delivery)
  committed orderId session

def clearAll (session : Session) : Handler Answer := do
  let _ ← send (.clearCache orderId .arrival)
  clearDelivery orderId session

/-- `OtpService.invalidateActive` in the transaction of a forced completion, which commits once it
has returned. -/
def invalidateActive : Handler Answer := do
  match ← send (.invalidate orderId) with
  | none => .fail internal
  | some session => clearAll orderId session

def look (record : OtpRecord) : Handler Answer := do
  match ← send (.getCachedPlaintext orderId purpose) with
  | none => return .current none
  | some otp =>
      return .current (if otp = "" then none else some ⟨record.purpose, otp, record.expiresAt⟩)

def search (order : Option OrderCodes) (now : Instant) : Handler Answer :=
  if order.any fun o => meetsNull (active purpose now) o.otps then .fail internal
  else
    match order.bind fun o => (o.otps.find? (active purpose now)).bind Slot.record with
    | none => return .current none
    | some record => look orderId purpose record

def peek (order : Option OrderCodes) : Handler Answer := do
  let now ← send .getTime
  search orderId purpose order now

/-- `OtpService.peekCurrent` -/
def peekCurrent : Handler Answer := do
  let order ← send (.findById orderId)
  peek orderId purpose order

end service

inductive Request where
  | issue (orderId : Id) (purpose : OtpPurpose) (draw : Fin 1000000) (salt : String)
  | verify (orderId : Id) (purpose : OtpPurpose) (submittedOtp : String)
  | invalidateActive (orderId : Id)
  | peekCurrent (orderId : Id) (purpose : OtpPurpose)

def handle (C : Crypto) (expiryMinutes : ℕ) : Request → Handler Answer
  | .issue orderId purpose draw salt => issue C expiryMinutes orderId purpose draw salt
  | .verify orderId purpose submittedOtp => verify C orderId purpose submittedOtp
  | .invalidateActive orderId => invalidateActive orderId
  | .peekCurrent orderId purpose => peekCurrent orderId purpose

abbrev Sys := Interleaving.Sys Command.Reply Codes HttpError Request Answer
abbrev Client := Interleaving.Client Command.Reply HttpError Request Answer

/-- Some orders, without codes. -/
def start (known : Id → Bool) : Sys where
  state := { orders := fun orderId => if known orderId then some {} else none }

/-! ### Calls that nothing comes between -/

/-- The unused codes of an order for a step. -/
def Codes.unusedOf (s : Codes) (orderId : Id) (purpose : OtpPurpose) : List Slot :=
  ((s.orders orderId).elim [] (·.otps)).filter (unused purpose)

/-- The cache has the code of a record for as long as the record is valid. -/
def Codes.Holds (s : Codes) (C : Crypto) (orderId : Id) (purpose : OtpPurpose) (code : String)
    (r : Otp.OtpRecordLike) : Prop :=
  ∃ x, s.cache (orderId, purpose) = some x ∧ x.code = code ∧ code ≠ "" ∧
    Otp.hashOtp C code r.salt = r.hash ∧ r.expiresAt ≤ x.expiresAt

/-- No order has a `null` in its array. -/
def Codes.Clean (s : Codes) : Prop := ∀ orderId o, s.orders orderId = some o → o.hasNull = false

theorem unused_code {purpose : OtpPurpose} {r : OtpRecord} :
    unused purpose (.code r) = true ↔ r.purpose = purpose ∧ r.usedAt = none := by
  simp [unused, Slot.any]

theorem active_code {purpose : OtpPurpose} {now : Instant} {r : OtpRecord} :
    active purpose now (.code r) = true ↔ unused purpose (.code r) = true ∧ now < r.expiresAt := by
  simp [active, Slot.any]

theorem active_unused {purpose : OtpPurpose} {now : Instant} {x : Slot}
    (h : active purpose now x = true) : unused purpose x = true := (Bool.and_eq_true_iff.mp h).1

theorem hasNull_eq_false {o : OrderCodes} : o.hasNull = false ↔ .null ∉ o.otps := by
  simp [OrderCodes.hasNull]

/-- Where there is no `null` the search does not throw. -/
theorem meetsNull_clean {o : OrderCodes} (h : o.hasNull = false) (p : Slot → Bool) :
    meetsNull p o.otps = false := by
  rw [meetsNull, Bool.eq_false_iff]
  intro hmem
  exact hasNull_eq_false.mp h ((List.takeWhile_sublist _).subset (List.contains_iff_mem.mp hmem))

theorem nullAt_clean {o : OrderCodes} (h : o.hasNull = false) (index : ℕ) :
    o.nullAt index = false := by
  rw [OrderCodes.nullAt, decide_eq_false_iff_not]
  intro hnull
  exact hasNull_eq_false.mp h (List.mem_of_getElem? hnull)

section alone
variable {C : Crypto} {s : Codes} {orderId : Id} {purpose : OtpPurpose} {code : String}
variable {r : OtpRecord}

theorem exists_order (h : s.unusedOf orderId purpose = [.code r]) :
    ∃ o, s.orders orderId = some o ∧ o.otps.filter (unused purpose) = [.code r] := by
  cases horder : s.orders orderId with
  | none =>
      rw [Codes.unusedOf, horder] at h
      cases h
  | some o =>
      rw [Codes.unusedOf, horder] at h
      exact ⟨o, rfl, h⟩

theorem unused_of_filter {o : OrderCodes} (h : o.otps.filter (unused purpose) = [.code r]) :
    r.purpose = purpose ∧ r.usedAt = none :=
  unused_code.mp (List.of_mem_filter (h ▸ List.mem_singleton_self (Slot.code r)))

/-- The code that is read back is the one in the cache. -/
theorem peekCurrent_alone (hclean : s.Clean) (hunused : s.unusedOf orderId purpose = [.code r])
    (hholds : s.Holds C orderId purpose code (toOtp r)) {clock : ℕ → Instant}
    (hclock : ∀ n, clock n < r.expiresAt) :
    (peekCurrent orderId purpose).alone clock s =
      (.ok (.current (some ⟨purpose, code, r.expiresAt⟩)), s) := by
  obtain ⟨o, horder, hfilter⟩ := exists_order hunused
  obtain ⟨hpurpose, hnone⟩ := unused_of_filter hfilter
  obtain ⟨x, hcache, rfl, hne, -, hlate⟩ := hholds
  have hnull : meetsNull (active purpose (clock 1)) o.otps = false :=
    meetsNull_clean (hclean orderId o horder) _
  have hfind : o.otps.find? (active purpose (clock 1)) = some (.code r) :=
    find?_of_filter hfilter (fun y => active_unused)
      (active_code.mpr ⟨unused_code.mpr ⟨hpurpose, hnone⟩, hclock 1⟩)
  have hthere : (s.cache (orderId, purpose)).filter (fun x => clock 2 < x.expiresAt) = some x := by
    rw [hcache, Option.filter_some, if_pos (decide_eq_true ((hclock 2).trans_le hlate))]
  simp [peekCurrent, peek, search, send, Prog.send, Bind.bind, Prog.bind, Pure.pure, Prog.alone,
    Service.exec, Command.exec, horder, hnull, hfind, Slot.record, look, hthere, hne, hpurpose]

theorem update_unusedOf {o : OrderCodes} (horder : s.orders orderId = some o)
    (f : OrderCodes → OrderCodes) :
    (s.update orderId f).unusedOf orderId purpose = (f o).otps.filter (unused purpose) := by
  simp [Codes.unusedOf, Codes.update, horder]

theorem setUsed_unused {o : OrderCodes} {i : ℕ} (usedAt : Instant) (p : OtpPurpose) :
    (o.setUsed i usedAt).otps.filter (unused p) =
      (o.otps.modify i (Slot.map fun r => { r with usedAt := some usedAt })).filter (unused p) :=
  o.setUsed_filter i usedAt _

theorem map_ne_null {x : Slot} (h : x ≠ .null) (f : OtpRecord → OtpRecord) : x.map f ≠ .null := by
  cases x with
  | null => exact absurd rfl h
  | marked | code => exact Slot.noConfusion

theorem modify_clean {o : OrderCodes} (h : o.hasNull = false) (i : ℕ) (f : OtpRecord → OtpRecord) :
    .null ∉ o.otps.modify i (Slot.map f) := by
  intro hmem
  obtain ⟨j, hj⟩ := List.getElem?_of_mem hmem
  rw [List.getElem?_modify] at hj
  obtain ⟨x, hx, hnull⟩ := Option.map_eq_some_iff.mp hj
  have hne : x ≠ .null := by
    rintro rfl
    exact hasNull_eq_false.mp h (List.mem_of_getElem? hx)
  split_ifs at hnull
  · exact map_ne_null hne f hnull
  · exact hne hnull

/-- A code marked in its place, or right behind the last one. -/
theorem setUsed_clean {o : OrderCodes} (h : o.hasNull = false) {i : ℕ} (hi : i ≤ o.otps.length)
    (usedAt : Instant) : (o.setUsed i usedAt).hasNull = false := by
  rw [hasNull_eq_false, OrderCodes.setUsed]
  split_ifs with hlt
  · exact modify_clean h i _
  · have hlength : i - o.otps.length = 0 := by omega
    rw [hlength]
    intro hmem
    rcases List.mem_append.mp hmem with hold | hnew
    · exact hasNull_eq_false.mp h hold
    · cases List.mem_singleton.mp hnew

/-- Without an unused code every code is refused. -/
theorem verify_refused {o : OrderCodes} (horder : s.orders orderId = some o)
    (hclean : o.hasNull = false) (hunused : s.unusedOf orderId purpose = []) (clock : ℕ → Instant) :
    ((verify C orderId purpose code).alone clock s).1 =
      .error (unauthorized "No active OTP for this step") := by
  have hidx : o.otps.findIdx? (unused purpose) = none := by
    rw [Codes.unusedOf, horder] at hunused
    exact List.findIdx?_eq_none_iff.mpr fun x hx => by
      simpa using List.filter_eq_nil_iff.mp hunused x hx
  have hnull : meetsNull (unused purpose) o.otps = false := meetsNull_clean hclean _
  simp [verify, findOrder, judge, settle, send, Prog.send, Bind.bind, Prog.bind, Pure.pure,
    Prog.alone, Service.exec, Command.exec, horder, hnull, hidx, Otp.verify]

/-- The code is accepted, and refused when it comes again. -/
theorem verify_alone (hclean : s.Clean) (hunused : s.unusedOf orderId purpose = [.code r])
    (hholds : s.Holds C orderId purpose code (toOtp r)) (hattempts : r.attempts < MAX_ATTEMPTS)
    {clock : ℕ → Instant} (hclock : ∀ n, clock n < r.expiresAt) :
    ((verify C orderId purpose code).alone clock s).1 = .ok .done ∧
      ∀ clock', ((verify C orderId purpose code).alone clock'
          ((verify C orderId purpose code).alone clock s).2).1 =
        .error (unauthorized "No active OTP for this step") := by
  obtain ⟨o, horder, hfilter⟩ := exists_order hunused
  obtain ⟨hpurpose, hnone⟩ := unused_of_filter hfilter
  obtain ⟨x, -, -, -, hhash, -⟩ := hholds
  obtain ⟨i, hidx, hget, hmodify⟩ := findIdx?_of_filter hfilter
  have hnonull := hclean orderId o horder
  have hnull : meetsNull (unused purpose) o.otps = false := meetsNull_clean hnonull _
  have hplace : o.nullAt i = false := nullAt_clean hnonull i
  have hmatch : Otp.verify C (some (toOtp r)) code MAX_ATTEMPTS (clock 1) = .match_ := by
    have hused : ¬(toOtp r).usedAt.isSome = true := by simp [toOtp, hnone]
    have hvalid : ¬(toOtp r).expiresAt ≤ clock 1 := Nat.not_le.mpr (hclock 1)
    have hopen : ¬MAX_ATTEMPTS ≤ (toOtp r).attempts := Nat.not_le.mpr hattempts
    rw [Otp.verify, if_neg hused, if_neg hvalid, if_neg hopen, if_pos hhash]
  have hrun : (verify C orderId purpose code).alone clock s =
      (.ok .done, (s.update orderId (·.setUsed i (clock 2))).cached orderId purpose none) := by
    simp [verify, findOrder, judge, settle, accepted, cleared, send, Prog.send, Bind.bind, Prog.bind,
      Pure.pure, Prog.alone, Service.exec, Command.exec, horder, hnull, hidx, hget, Slot.record,
      hmatch, hplace]
  rw [hrun]
  obtain ⟨hi, -⟩ := List.getElem?_eq_some_iff.mp hget
  refine ⟨rfl, verify_refused (o := o.setUsed i (clock 2)) ?_ (setUsed_clean hnonull hi.le _) ?_⟩
  · simp [Codes.cached, Codes.update, horder]
  · change (s.update orderId _).unusedOf orderId purpose = []
    rw [update_unusedOf horder, setUsed_unused]
    exact hmodify _ (by simp [unused, Slot.map, Slot.any])

end alone

end CiroFuel.Handover.Cached
