import CiroFuel.LitreBalances
import CiroFuel.Otp.Primitives
import CiroFuel.Interleaving.Clients

/-!
# Changes of a phone number

A user asks for a code to be sent to the new number and presents it. The record of the code
is marked consumed, the code is deleted from the cache, and the number is changed: three
writes to three places. The last may be refused, as somebody else may have taken the number
since it was asked for; the code is spent all the same.
-/
namespace CiroFuel.PhoneChanges
open Interleaving

structure PhoneVerification where
  id : Id
  userId : Id
  newPhone : String
  hash : String
  salt : String
  expiresAt : Instant
  attempts : ℕ := 0
  consumedAt : Option Instant := none
  createdAt : Instant
deriving DecidableEq

structure Account where
  id : Id
  phone : String
deriving DecidableEq

structure Plaintext where
  code : String
  expiresAt : Instant
deriving DecidableEq

/-- The two collections and the cache. New records have numbers that none has had. -/
structure Store where
  users : List Account
  records : List PhoneVerification := []
  nextId : Id := 0
  cache : Id → Option Plaintext := fun _ => none

def Store.phone (s : Store) (userId : Id) : Option String :=
  (s.users.find? fun u => u.id = userId).map (·.phone)

def Store.record (s : Store) (id : Id) : Option PhoneVerification :=
  s.records.find? fun r => r.id = id

def Store.consumedAt (s : Store) (id : Id) : Option Instant := (s.record id).bind (·.consumedAt)

def Store.edit (s : Store) (id : Id) (f : PhoneVerification → PhoneVerification) : Store :=
  { s with records := s.records.map fun r => if r.id = id then f r else r }

def Store.cached (s : Store) (userId : Id) (x : Option Plaintext) : Store :=
  { s with cache := Function.update s.cache userId x }

def Store.add (s : Store) (r : PhoneVerification) : Store :=
  { s with records := s.records ++ [r], nextId := s.nextId + 1 }

/-- Drops the records that do not pass. -/
def Store.retain (s : Store) (p : PhoneVerification → Bool) : Store :=
  { s with records := s.records.filter p }

def Store.setPhone (s : Store) (userId : Id) (phone : String) : Store :=
  { s with users := s.users.map fun u => if u.id = userId then { u with phone := phone } else u }

/-- The later record of two, the first one if they are of one instant. -/
def later (r r' : PhoneVerification) : PhoneVerification :=
  if r.createdAt < r'.createdAt then r' else r

/-- The newest record of the user that has not been consumed. -/
def Store.newest (s : Store) (userId : Id) : Option PhoneVerification :=
  match s.records.filter fun r => r.userId = userId && r.consumedAt.isNone with
  | [] => none
  | r :: rs => some (rs.foldl later r)

/-- The index on phone numbers is unique. -/
def Store.taken (s : Store) (userId : Id) (phone : String) : Bool :=
  s.users.any fun u => u.phone = phone && u.id ≠ userId

/-- A record is created with no attempts, and is not consumed. -/
def stored (record : Otp.OtpRecordLike) (id userId : Id) (newPhone : String)
    (now : Instant) : PhoneVerification where
  id := id
  userId := userId
  newPhone := newPhone
  hash := record.hash
  salt := record.salt
  expiresAt := record.expiresAt
  createdAt := now

inductive UpdateResult where
  | updated (u : Account)
  | missing
  | duplicate
deriving DecidableEq

inductive Command where
  | findAnyByPhone (phone : String)
  | getTime
  | cachePlaintext (userId : Id) (code : String) (ttlSeconds : ℕ)
  | clearCache (userId : Id)
  | deleteUnconsumed (userId : Id)
  | create (userId : Id) (newPhone : String) (record : Otp.OtpRecordLike)
  | deleteOne (id : Id)
  | sendSms (phone text : String)
  | findNewest (userId : Id)
  | addAttempt (id : Id)
  | consume (id : Id)
  | updatePhone (userId : Id) (phone : String)
  | removeExpired

namespace Command

@[reducible] def Reply : Command → Type
  | .findAnyByPhone _ => Option Account
  | .getTime => Instant
  | .create .. => Id
  | .findNewest _ => Option PhoneVerification
  | .updatePhone .. => UpdateResult
  | _ => Unit

def exec : (c : Command) → Store → Instant → c.Reply × Store
  | .findAnyByPhone phone, s, _ => (s.users.find? fun u => u.phone = phone, s)
  | .getTime, s, now => (now, s)
  | .cachePlaintext userId code ttlSeconds, s, now =>
      ((), s.cached userId (some ⟨code, now + 1000 * ttlSeconds⟩))
  | .clearCache userId, s, _ => ((), s.cached userId none)
  | .deleteUnconsumed userId, s, _ =>
      ((), s.retain fun r => !(r.userId = userId && r.consumedAt.isNone))
  | .create userId newPhone record, s, now =>
      (s.nextId, s.add (stored record s.nextId userId newPhone now))
  | .deleteOne id, s, _ => ((), s.retain fun r => r.id ≠ id)
  | .sendSms .., s, _ => ((), s)
  | .findNewest userId, s, _ => (s.newest userId, s)
  | .addAttempt id, s, _ => ((), s.edit id fun r => { r with attempts := r.attempts + 1 })
  | .consume id, s, now => ((), s.edit id fun r => { r with consumedAt := some now })
  | .updatePhone userId phone, s, _ =>
      if s.users.all fun u => u.id ≠ userId then (.missing, s)
      else if s.taken userId phone then (.duplicate, s)
      else (.updated ⟨userId, phone⟩, s.setPhone userId phone)
  | .removeExpired, s, now => ((), s.retain fun r => now < r.expiresAt)

end Command

instance : Service Command.Reply Store where
  exec := Command.exec

structure HttpError where
  status : ℕ
  message : String
  error : Option String := none
  retryAfterSeconds : Option ℕ := none
deriving DecidableEq

def internal : HttpError := ⟨500, "Internal server error", none, none⟩

def wrongCode : HttpError := ⟨401, "Incorrect or expired verification code", none, none⟩

def tooMany (retryAfterSeconds : ℕ) : HttpError :=
  ⟨429, "Too many incorrect attempts — request a new code", some "ThrottlerException",
    some retryAfterSeconds⟩

inductive Answer where
  | sent (expiresAt : Instant) (attemptsRemaining : ℕ)
  | user (u : Account)
  | done
deriving DecidableEq

abbrev Handler := Prog Command.Reply HttpError

abbrev send (c : Command) : Handler c.Reply := Prog.send internal c

def MAX_ATTEMPTS : ℕ := 5

section service
variable (C : Crypto) (expiryMinutes : ℕ)

def smsText (code : String) : String :=
  "Your CIRO Fuel verification code is " ++ code ++ ". It expires in " ++ toString expiryMinutes ++
    " minutes."

/-- A message that cannot be sent takes the record back, and the code from the cache. -/
def undo (userId id : Id) : Handler Answer := do
  send (.deleteOne id)
  send (.clearCache userId)
  .fail ⟨502, "Could not send the verification code — please try again", some "SMS_SEND_FAILED",
    none⟩

/-- The code and its salt are drawn by the caller. -/
def requestVerification (userId : Id) (newPhone code salt : String) : Handler Answer := do
  let holder ← send (.findAnyByPhone (trim newPhone))
  if holder.any fun u => u.id ≠ userId then
    .fail ⟨409, "This phone number is already registered to another account",
      some "PHONE_IN_USE", none⟩
  else do
    let issuedAt ← send .getTime
    let record := Otp.issue C code salt expiryMinutes issuedAt
    send (.cachePlaintext userId code (expiryMinutes * 60))
    send (.deleteUnconsumed userId)
    let id ← send (.create userId newPhone record)
    .command (.sendSms newPhone (smsText expiryMinutes code)) fun
      | some () => return .sent record.expiresAt MAX_ATTEMPTS
      | none => undo userId id

def toOtp (r : PhoneVerification) : Otp.OtpRecordLike where
  hash := r.hash
  salt := r.salt
  expiresAt := r.expiresAt
  attempts := r.attempts
  usedAt := r.consumedAt

def outcome : UpdateResult → Handler Answer
  | .updated u => return .user u
  | .duplicate => .fail ⟨409, "This phone number is already registered", none, none⟩
  | .missing => .fail ⟨404, "User not found", none, none⟩

/-- `UsersService.update` with the new number. -/
def update (userId : Id) (phone : String) : Handler Answer := do
  let result ← send (.updatePhone userId phone)
  outcome result

def clear (userId : Id) (r : PhoneVerification) : Handler Answer := do
  send (.clearCache userId)
  update userId r.newPhone

def accept (userId : Id) (r : PhoneVerification) : Handler Answer := do
  send (.consume r.id)
  clear userId r

def reject (r : PhoneVerification) : Handler Answer := do
  send (.addAttempt r.id)
  .fail wrongCode

def lockOut (r : PhoneVerification) : Handler Answer := do
  let now ← send .getTime
  .fail (tooMany (max 1 ((r.expiresAt - now + 999) / 1000)))

def settle (userId : Id) : Option PhoneVerification → Otp.OtpVerifyResult → Handler Answer
  | some r, .mismatch => reject r
  | some r, .lockedOut => lockOut r
  | some r, .match_ => accept userId r
  | _, _ => .fail wrongCode

def judge (userId : Id) (code : String) (record : Option PhoneVerification) : Handler Answer := do
  let now ← send .getTime
  settle userId record (Otp.verify C (record.map toOtp) code MAX_ATTEMPTS now)

def confirm (userId : Id) (code : String) : Handler Answer := do
  let record ← send (.findNewest userId)
  judge C userId code record

/-- Records are removed some time after they have expired. -/
def sweep : Handler Answer := do
  send .removeExpired
  return .done

inductive Request where
  | requestVerification (userId : Id) (newPhone code salt : String)
  | confirm (userId : Id) (code : String)
  | sweep
deriving DecidableEq

def handle : Request → Handler Answer
  | .requestVerification userId newPhone code salt =>
      requestVerification C expiryMinutes userId newPhone code salt
  | .confirm userId code => confirm C userId code
  | .sweep => sweep

end service

abbrev Sys := Interleaving.Sys Command.Reply Store HttpError Request Answer
abbrev Client := Interleaving.Client Command.Reply HttpError Request Answer

def start (users : List Account) : Sys where
  state := { users }

/-! ### Changes -/

/-- A command, carried out, gives an account another phone or a record another time of use. -/
def Command.changes (s : Store) (now : Instant) : Command → Bool
  | .consume id => (s.record id).any fun r => r.consumedAt ≠ some now
  | .updatePhone userId phone =>
      s.users.any (fun u => u.id = userId) && !s.taken userId phone && s.phone userId ≠ some phone
  | _ => false

/-- A command that is answered with a refusal: there is no such user, or the number is taken. -/
def Command.refused (s : Store) : Command → Bool
  | .updatePhone userId phone => s.users.all (fun u => u.id ≠ userId) || s.taken userId phone
  | _ => false

/-- The phones and the times of use are as they were. -/
structure Unchanged (s s' : Store) : Prop where
  phone : ∀ userId, s'.phone userId = s.phone userId
  consumedAt : ∀ id, s'.consumedAt id = s.consumedAt id

/-- A confirmation never creates a record nor removes one. -/
def Command.confirms : Command → Bool
  | .findNewest _ | .getTime | .addAttempt _ | .consume _ | .clearCache _ | .updatePhone .. => true
  | _ => false

/-- A command that leaves all phones alone, whatever becomes of it. -/
def Command.harmless : Command → Bool
  | .consume _ | .updatePhone .. => false
  | _ => true

section store
variable {s : Store}

theorem record_edit (id id' : Id) {f : PhoneVerification → PhoneVerification}
    (hf : ∀ r, (f r).id = r.id) :
    (s.edit id f).record id' = (s.record id').map fun r => if id' = id then f r else r := by
  have hkey : ∀ r, (if r.id = id then f r else r).id = r.id := fun r => by
    split_ifs <;> simp [hf]
  simp only [Store.record, Store.edit, List.find?_map, Function.comp_def, hkey]
  cases hfound : s.records.find? fun r => decide (r.id = id') with
  | none => rfl
  | some r =>
      have hid : r.id = id' := by simpa using List.find?_some hfound
      simp [hid]

theorem consumedAt_edit (id id' : Id) {f : PhoneVerification → PhoneVerification}
    (hf : ∀ r, (f r).id = r.id) : (s.edit id f).consumedAt id' =
      (s.record id').bind fun r => (if id' = id then f r else r).consumedAt := by
  rw [Store.consumedAt, record_edit id id' hf]
  exact Option.bind_map

theorem phone_setPhone (userId userId' : Id) (phone : String) :
    (s.setPhone userId phone).phone userId' =
      if userId' = userId ∧ s.users.any (fun u => u.id = userId) = true then some phone
      else s.phone userId' := by
  have hkey : ∀ u : Account, (if u.id = userId then { u with phone := phone } else u).id = u.id :=
    fun u => by split_ifs <;> rfl
  simp only [Store.phone, Store.setPhone, List.find?_map, Function.comp_def, hkey]
  cases hfound : s.users.find? fun u => decide (u.id = userId') with
  | none =>
      have hnone : ∀ u ∈ s.users, u.id ≠ userId' := by simpa using hfound
      rw [if_neg]
      · rfl
      · rintro ⟨rfl, hany⟩
        obtain ⟨u, hu, hid⟩ := List.any_eq_true.mp hany
        exact hnone u hu (of_decide_eq_true hid)
  | some u =>
      have hid : u.id = userId' := by simpa using List.find?_some hfound
      by_cases hsame : userId' = userId
      · have hany : s.users.any (fun u => u.id = userId) = true :=
          List.any_eq_true.mpr ⟨u, List.mem_of_find?_eq_some hfound, by simp [hid, hsame]⟩
        rw [if_pos ⟨hsame, hany⟩]
        simp [hid, hsame]
      · rw [if_neg fun h => hsame h.1]
        simp [hid, hsame]

theorem mem_foldl_later {rs : List PhoneVerification} {r : PhoneVerification} :
    rs.foldl later r ∈ r :: rs := by
  induction rs generalizing r with
  | nil => exact List.mem_cons_self
  | cons r' rs ih =>
      rw [List.foldl_cons]
      rcases List.mem_cons.mp (ih (r := later r r')) with heq | hmem
      · rw [heq, later]
        split_ifs
        · exact List.mem_cons_of_mem _ List.mem_cons_self
        · exact List.mem_cons_self
      · exact List.mem_cons_of_mem _ (List.mem_cons_of_mem _ hmem)

/-- The newest record is one of the user's that has not been consumed. -/
theorem newest_mem {userId : Id} {r : PhoneVerification} (h : s.newest userId = some r) :
    r ∈ s.records ∧ r.userId = userId ∧ r.consumedAt = none := by
  unfold Store.newest at h
  split at h
  · cases h
  · rename_i r₀ rs hfilter
    have hmem : r ∈ s.records.filter fun r => r.userId = userId && r.consumedAt.isNone := by
      rw [hfilter, ← Option.some.inj h]
      exact mem_foldl_later
    obtain ⟨hrecord, htest⟩ := List.mem_filter.mp hmem
    obtain ⟨howner, hnone⟩ := Bool.and_eq_true_iff.mp htest
    exact ⟨hrecord, of_decide_eq_true howner, Option.isNone_iff_eq_none.mp hnone⟩

/-- What an accepted update leaves, and a refused one. -/
theorem exec_updatePhone (s : Store) (userId : Id) (phone : String) (now : Instant) :
    (Command.refused s (.updatePhone userId phone) = true ∧
        (Command.exec (.updatePhone userId phone) s now).2 = s ∧
        ∀ u, (Command.exec (.updatePhone userId phone) s now).1 ≠ .updated u) ∨
      Command.refused s (.updatePhone userId phone) = false ∧
        Command.exec (.updatePhone userId phone) s now =
          (.updated ⟨userId, phone⟩, s.setPhone userId phone) := by
  simp only [Command.refused, Command.exec]
  by_cases hmissing : (s.users.all fun u => u.id ≠ userId) = true
  · rw [if_pos hmissing]
    exact Or.inl ⟨by rw [hmissing]; rfl, rfl, nofun⟩
  by_cases htaken : s.taken userId phone = true
  · rw [if_neg hmissing, if_pos htaken]
    exact Or.inl ⟨by rw [htaken, Bool.or_true], rfl, nofun⟩
  · rw [if_neg hmissing, if_neg htaken]
    rw [Bool.not_eq_true] at hmissing htaken
    exact Or.inr ⟨Bool.or_eq_false_iff.mpr ⟨hmissing, htaken⟩, rfl⟩

/-- A phone is changed by an update of the account to that number. -/
theorem exec_phone {command : Command} {now : Instant} {userId : Id}
    (h : (command.exec s now).2.phone userId ≠ s.phone userId) :
    ∃ phone, command = .updatePhone userId phone ∧
      (command.exec s now).2.phone userId = some phone := by
  cases command with
  | updatePhone userId' phone =>
      rcases exec_updatePhone s userId' phone now with ⟨-, hsame, -⟩ | ⟨-, hset⟩
      · rw [hsame] at h
        exact absurd rfl h
      · rw [hset] at h ⊢
        rw [phone_setPhone] at h ⊢
        split_ifs at h ⊢ with hown
        · obtain ⟨rfl, -⟩ := hown
          exact ⟨phone, rfl, rfl⟩
        · exact absurd rfl h
  | _ => exact absurd rfl h

theorem exec_unchanged {command : Command} {now : Instant} (hconfirms : command.confirms = true)
    (h : command.changes s now = false) : Unchanged s (command.exec s now).2 := by
  cases command with
  | findNewest userId => exact ⟨fun _ => rfl, fun _ => rfl⟩
  | getTime => exact ⟨fun _ => rfl, fun _ => rfl⟩
  | clearCache userId => exact ⟨fun _ => rfl, fun _ => rfl⟩
  | addAttempt id =>
      refine ⟨fun _ => rfl, fun id' => ?_⟩
      have hf : ∀ r : PhoneVerification, { r with attempts := r.attempts + 1 }.id = r.id :=
        fun _ => rfl
      refine (consumedAt_edit id id' hf).trans ?_
      simp only [ite_self, apply_ite PhoneVerification.consumedAt]
      rfl
  | consume id =>
      refine ⟨fun _ => rfl, fun id' => ?_⟩
      have hf : ∀ r : PhoneVerification, { r with consumedAt := some now }.id = r.id :=
        fun _ => rfl
      refine (consumedAt_edit id id' hf).trans ?_
      by_cases hid : id' = id
      · subst hid
        rw [Store.consumedAt]
        cases hr : s.record id' with
        | none => rfl
        | some r =>
            have hsame : r.consumedAt = some now := by
              simpa [Command.changes, hr] using h
            simp [hsame]
      · simp only [if_neg hid]
        rfl
  | updatePhone userId phone =>
      rcases exec_updatePhone s userId phone now with ⟨-, hsame, -⟩ | ⟨haccepted, hset⟩
      · rw [hsame]
        exact ⟨fun _ => rfl, fun _ => rfl⟩
      · rw [hset]
        refine ⟨fun userId' => ?_, fun _ => rfl⟩
        rw [phone_setPhone]
        split_ifs with hown
        · obtain ⟨rfl, hany⟩ := hown
          obtain ⟨-, htaken⟩ := Bool.or_eq_false_iff.mp haccepted
          have hphone : s.phone userId' = some phone := by
            simpa [Command.changes, hany, htaken] using h
          exact hphone.symm
        · rfl
  | _ => cases hconfirms

theorem exec_changed {command : Command} {now : Instant} (h : command.changes s now = true) :
    ¬ Unchanged s (command.exec s now).2 := by
  intro hsame
  cases command with
  | consume id =>
      obtain ⟨r, hr, hne⟩ := (Option.any_eq_true _ _).mp h
      have hf : ∀ r : PhoneVerification, { r with consumedAt := some now }.id = r.id :=
        fun _ => rfl
      have hconsumed := (consumedAt_edit id id hf).symm.trans (hsame.consumedAt id)
      rw [Store.consumedAt, hr, Option.bind_some, Option.bind_some, if_pos rfl] at hconsumed
      exact of_decide_eq_true hne hconsumed.symm
  | updatePhone userId phone =>
      simp only [Command.changes, Bool.and_eq_true, Bool.not_eq_true', decide_eq_true_eq] at h
      obtain ⟨⟨hany, htaken⟩, hne⟩ := h
      rcases exec_updatePhone s userId phone now with ⟨hrefused, -⟩ | ⟨-, hset⟩
      · obtain ⟨u, hu, hid⟩ := List.any_eq_true.mp hany
        rcases Bool.or_eq_true_iff.mp hrefused with hmissing | htaken'
        · exact of_decide_eq_true (List.all_eq_true.mp hmissing u hu) (of_decide_eq_true hid)
        · exact Bool.noConfusion (htaken'.symm.trans htaken)
      · have hphone := hsame.phone userId
        rw [hset, phone_setPhone, if_pos ⟨rfl, hany⟩] at hphone
        exact hne hphone.symm
  | _ => cases h

end store

/-! ### Confirmations -/

/-- The act is a command of the client, which confirms a code. -/
def Sending (i : ℕ) (m : Sys × Act Request) (command : Command) (fate : Fate) : Prop :=
  m.2 = .command i fate ∧ ∃ userId code next,
    m.1.clients[i]? = some ⟨.confirm userId code, some (.command command next)⟩

/-- A command of the confirmation marks a record consumed, or changes a phone. -/
def TakesEffect (i : ℕ) (m : Sys × Act Request) : Prop :=
  ∃ command fate, Sending i m command fate ∧ fate ≠ .refused ∧
    command.changes m.1.state m.1.clock = true

/-- A command of the confirmation is not answered, or it is with a refusal. -/
def Fails (i : ℕ) (m : Sys × Act Request) : Prop :=
  ∃ command fate, Sending i m command fate ∧
    (fate ≠ .answered ∨ command.refused m.1.state = true)

/-- The confirmation has changed nothing. -/
def Clean (tr : List (Sys × Act Request)) (i : ℕ) : Prop := ∀ m ∈ tr, ¬ TakesEffect i m

/-- No command of a confirmation fails that takes effect, nor one after such a command. -/
def Completed (tr : List (Sys × Act Request)) : Prop :=
  ∀ i before m after, tr = before ++ m :: after → Fails i m → Clean (before ++ [m]) i

/-- The record was the user's newest when the confirmation read it; it had not expired, and its
code is the one presented. -/
structure Earned (C : Crypto) (tr : List (Sys × Act Request)) (i : ℕ) (userId : Id) (code : String)
    (r : PhoneVerification) : Prop where
  read : ∃ s : Sys, (s, .command i .answered) ∈ tr ∧ s.clock < r.expiresAt ∧
    s.clients[i]? = some ⟨.confirm userId code, some (confirm C userId code)⟩ ∧
    s.state.newest userId = some r
  owner : r.userId = userId
  unconsumed : r.consumedAt = none
  attempts : r.attempts < MAX_ATTEMPTS
  code : Otp.hashOtp C code r.salt = r.hash

/-- A change of a phone is one that a confirmation has earned. -/
def EarnedChange (C : Crypto) (expiryMinutes : ℕ) (tr : List (Sys × Act Request)) (s : Sys)
    (a : Act Request) : Prop :=
  ∀ userId, (s.act (handle C expiryMinutes) a).state.phone userId ≠ s.state.phone userId →
    ∃ i fate code prog r, a = .command i fate ∧
      s.clients[i]? = some ⟨.confirm userId code, some prog⟩ ∧ Earned C tr i userId code r ∧
      (s.act (handle C expiryMinutes) a).state.phone userId = some r.newPhone

/-- A confirmation that fails has left all phones and all times of use as they were. -/
def Untouched (C : Crypto) (expiryMinutes : ℕ) (tr : List (Sys × Act Request)) (s : Sys) : Prop :=
  ∀ i userId code e, s.clients[i]? = some ⟨.confirm userId code, some (.fail e)⟩ →
    ∀ m ∈ tr, (∃ fate, m.2 = .command i fate) →
      Unchanged m.1.state (m.1.act (handle C expiryMinutes) m.2).state

section stages
variable {C : Crypto} {expiryMinutes : ℕ} {tr : List (Sys × Act Request)} {now : Instant} {i : ℕ}

/-- How far a client is, and what it has done. -/
inductive Stage (C : Crypto) (tr : List (Sys × Act Request)) (now : Instant) (i : ℕ) :
    Client → Prop where
  | other (q : Request) (hq : ∀ userId code, q ≠ .confirm userId code)
      (prog : Option (Handler Answer))
      (h : ∀ p, prog = some p → p.Sends fun command => command.harmless = true) :
      Stage C tr now i ⟨q, prog⟩
  | arrived (userId : Id) (code : String) (h : Clean tr i) :
      Stage C tr now i ⟨.confirm userId code, some (confirm C userId code)⟩
  | judging (userId : Id) (code : String) (record : Option PhoneVerification)
      (hread : ∀ r, record = some r → ∃ s : Sys, (s, .command i .answered) ∈ tr ∧ s.clock ≤ now ∧
        s.clients[i]? = some ⟨.confirm userId code, some (confirm C userId code)⟩ ∧
        s.state.newest userId = some r) (h : Clean tr i) :
      Stage C tr now i ⟨.confirm userId code, some (judge C userId code record)⟩
  | rejecting (userId : Id) (code : String) (r : PhoneVerification) (h : Clean tr i) :
      Stage C tr now i ⟨.confirm userId code, some (reject r)⟩
  | lockingOut (userId : Id) (code : String) (r : PhoneVerification) (h : Clean tr i) :
      Stage C tr now i ⟨.confirm userId code, some (lockOut r)⟩
  | accepting (userId : Id) (code : String) (r : PhoneVerification)
      (hearned : Earned C tr i userId code r) (h : Clean tr i) :
      Stage C tr now i ⟨.confirm userId code, some (accept userId r)⟩
  | clearing (userId : Id) (code : String) (r : PhoneVerification)
      (hearned : Earned C tr i userId code r) :
      Stage C tr now i ⟨.confirm userId code, some (clear userId r)⟩
  | updating (userId : Id) (code : String) (r : PhoneVerification)
      (hearned : Earned C tr i userId code r) :
      Stage C tr now i ⟨.confirm userId code, some (update userId r.newPhone)⟩
  | returned (userId : Id) (code : String) (a : Answer) :
      Stage C tr now i ⟨.confirm userId code, some (.pure a)⟩
  | failed (userId : Id) (code : String) (e : HttpError) (h : Completed tr → Clean tr i) :
      Stage C tr now i ⟨.confirm userId code, some (.fail e)⟩
  | stopped (userId : Id) (code : String) : Stage C tr now i ⟨.confirm userId code, none⟩

theorem Clean.snoc {m : Sys × Act Request} (h : Clean tr i) (hm : ¬ TakesEffect i m) :
    Clean (tr ++ [m]) i := by
  intro m' hmem
  rcases List.mem_append.mp hmem with hold | hnew
  · exact h m' hold
  · rw [List.mem_singleton.mp hnew]
    exact hm

theorem Completed.init {m : Sys × Act Request} (h : Completed (tr ++ [m])) : Completed tr := by
  intro i before m' after htr hfails
  refine h i before m' (after ++ [m]) ?_ hfails
  rw [htr, List.append_assoc]
  rfl

theorem Completed.last {m : Sys × Act Request} (h : Completed (tr ++ [m])) (hfails : Fails i m) :
    Clean (tr ++ [m]) i :=
  h i tr m [] rfl hfails

theorem Earned.snoc {userId : Id} {code : String} {r : PhoneVerification} {m : Sys × Act Request}
    (h : Earned C tr i userId code r) : Earned C (tr ++ [m]) i userId code r := by
  obtain ⟨s, hmem, hread⟩ := h.read
  exact ⟨⟨s, List.mem_append_left _ hmem, hread⟩, h.owner, h.unconsumed, h.attempts, h.code⟩

/-- A stage is kept by what the client has not done. -/
theorem Stage.keeps {c : Client} {m : Sys × Act Request} {later : Instant}
    (h : Stage C tr now i c) (hm : ¬ TakesEffect i m) (hle : now ≤ later) :
    Stage C (tr ++ [m]) later i c := by
  cases h with
  | other q hq prog h => exact .other q hq prog h
  | arrived userId code h => exact .arrived userId code (h.snoc hm)
  | judging userId code record hread h =>
      refine .judging userId code record (fun r hr => ?_) (h.snoc hm)
      obtain ⟨s, hmem, hclock, hfound⟩ := hread r hr
      exact ⟨s, List.mem_append_left _ hmem, hclock.trans hle, hfound⟩
  | rejecting userId code r h => exact .rejecting userId code r (h.snoc hm)
  | lockingOut userId code r h => exact .lockingOut userId code r (h.snoc hm)
  | accepting userId code r hearned h => exact .accepting userId code r hearned.snoc (h.snoc hm)
  | clearing userId code r hearned => exact .clearing userId code r hearned.snoc
  | updating userId code r hearned => exact .updating userId code r hearned.snoc
  | returned userId code a => exact .returned userId code a
  | failed userId code e h =>
      exact .failed userId code e fun hcompleted => (h hcompleted.init).snoc hm
  | stopped userId code => exact .stopped userId code

theorem Stage.stop {c : Client} (h : Stage C tr now i c) : Stage C tr now i c.stop := by
  cases h with
  | other q hq prog h =>
      cases prog with
      | none => exact .other q hq none h
      | some p =>
          cases p with
          | pure a => exact .other q hq _ h
          | fail e => exact .other q hq _ h
          | command command next => exact .other q hq none nofun
  | returned userId code a => exact .returned userId code a
  | failed userId code e h => exact .failed userId code e h
  | arrived | judging | rejecting | lockingOut | accepting | clearing | updating | stopped =>
      exact .stopped _ _

theorem Sending.unique {s : Sys} {fate fate' : Fate} {command command' : Command} {q : Request}
    {next : Option command.Reply → Handler Answer}
    (h : Sending i (s, .command i fate) command' fate')
    (hc : s.clients[i]? = some ⟨q, some (.command command next)⟩) :
    command' = command ∧ fate' = fate := by
  obtain ⟨hfate, userId, code, next', hc'⟩ := h
  have hsame := hc'.symm.trans hc
  cases hfate
  cases hsame
  exact ⟨rfl, rfl⟩

theorem not_takesEffect {s : Sys} {fate : Fate} {command : Command} {q : Request}
    {next : Option command.Reply → Handler Answer}
    (hc : s.clients[i]? = some ⟨q, some (.command command next)⟩)
    (h : command.changes s.state s.clock = false) : ¬ TakesEffect i (s, .command i fate) := by
  rintro ⟨command', fate', hsending, -, hchanges⟩
  obtain ⟨rfl, -⟩ := hsending.unique hc
  exact Bool.noConfusion (hchanges.symm.trans h)

/-- A confirmation sends none but its own commands, and fails if one of them does. -/
theorem Stage.command {userId : Id} {code : String} {command : Command}
    {next : Option command.Reply → Handler Answer}
    (h : Stage C tr now i ⟨.confirm userId code, some (.command command next)⟩) :
    command.confirms = true ∧ next none = .fail internal := by
  generalize hc : (⟨.confirm userId code, some (.command command next)⟩ : Client) = c at h
  cases h with
  | other q hq => cases hc; exact absurd rfl (hq userId code)
  | returned | failed | stopped => cases hc
  | arrived | judging | rejecting | lockingOut | accepting | clearing | updating =>
      cases hc
      exact ⟨rfl, rfl⟩

/-- The verdict on a code is acted upon. -/
theorem settle_stage {userId : Id} {code : String} {record : Option PhoneVerification}
    (hearned : ∀ r, record = some r →
      Otp.verify C (some (toOtp r)) code MAX_ATTEMPTS now = .match_ → Earned C tr i userId code r)
    (h : Clean tr i) :
    Stage C tr now i ⟨.confirm userId code,
      some (settle userId record (Otp.verify C (record.map toOtp) code MAX_ATTEMPTS now))⟩ := by
  cases record with
  | none => exact .failed _ _ _ fun _ => h
  | some r =>
      have hmatch := hearned r rfl
      rw [Option.map_some]
      generalize Otp.verify C (some (toOtp r)) code MAX_ATTEMPTS now = result at hmatch ⊢
      cases result with
      | match_ => exact .accepting userId code r (hmatch rfl) h
      | mismatch => exact .rejecting userId code r h
      | lockedOut => exact .lockingOut userId code r h
      | notFound | expired => exact .failed _ _ _ fun _ => h

theorem earned_of_match {userId : Id} {code : String} {r : PhoneVerification} {s : Sys}
    (hmem : (s, .command i .answered) ∈ tr) (hclock : s.clock ≤ now)
    (hc : s.clients[i]? = some ⟨.confirm userId code, some (confirm C userId code)⟩)
    (hnewest : s.state.newest userId = some r)
    (hmatch : Otp.verify C (some (toOtp r)) code MAX_ATTEMPTS now = .match_) :
    Earned C tr i userId code r := by
  obtain ⟨-, howner, hunconsumed⟩ := newest_mem hnewest
  have hcompared : (Otp.verify C (some (toOtp r)) code MAX_ATTEMPTS now).compared = true := by
    rw [hmatch]
    rfl
  obtain ⟨r₁, hr₁, -, hexpires, hattempts⟩ := Otp.verify_compared hcompared
  obtain ⟨r₂, hr₂, -, hhash⟩ := Otp.verify_match hmatch
  obtain rfl := Option.some.inj hr₁
  obtain rfl := Option.some.inj hr₂
  exact ⟨⟨s, hmem, hclock.trans_lt hexpires, hc, hnewest⟩, howner, hunconsumed, hattempts, hhash⟩

theorem outcome_fail {result : UpdateResult} (h : ∀ u, result ≠ .updated u) :
    ∃ e, outcome result = .fail e := by
  cases result with
  | updated u => exact absurd rfl (h u)
  | missing => exact ⟨_, rfl⟩
  | duplicate => exact ⟨_, rfl⟩

/-- A client whose command is answered is at the next stage. -/
theorem Stage.answered {s : Sys} {q : Request} {command : Command}
    {next : Option command.Reply → Handler Answer}
    (h : Stage C tr s.clock i ⟨q, some (.command command next)⟩)
    (hc : s.clients[i]? = some ⟨q, some (.command command next)⟩) :
    Stage C (tr ++ [(s, .command i .answered)]) s.clock i
      ⟨q, some (next (some (command.exec s.state s.clock).1))⟩ := by
  generalize hclient : (⟨q, some (.command command next)⟩ : Client) = c at h
  cases h with
  | returned | failed | stopped => cases hclient
  | other q' hq prog h =>
      cases hclient
      refine .other q hq _ fun p hp => ?_
      obtain rfl := Option.some.inj hp
      exact (h _ rfl).2 _
  | arrived userId code h =>
      cases hclient
      refine .judging userId code _ (fun r hr => ?_) (h.snoc (not_takesEffect hc rfl))
      exact ⟨s, List.mem_append_right _ List.mem_cons_self, le_rfl, hc, hr⟩
  | judging userId code record hread h =>
      cases hclient
      refine settle_stage (fun r hr hmatch => ?_) (h.snoc (not_takesEffect hc rfl))
      obtain ⟨s₀, hmem, hclock, hc₀, hnewest⟩ := hread r hr
      exact earned_of_match (List.mem_append_left _ hmem) hclock hc₀ hnewest hmatch
  | rejecting userId code r h =>
      cases hclient
      exact .failed _ _ _ fun _ => h.snoc (not_takesEffect hc rfl)
  | lockingOut userId code r h =>
      cases hclient
      exact .failed _ _ _ fun _ => h.snoc (not_takesEffect hc rfl)
  | accepting userId code r hearned h =>
      cases hclient
      exact .clearing userId code r hearned.snoc
  | clearing userId code r hearned =>
      cases hclient
      exact .updating userId code r hearned.snoc
  | updating userId code r hearned =>
      cases hclient
      rcases exec_updatePhone s.state userId r.newPhone s.clock with ⟨hr, -, hnot⟩ | ⟨-, hset⟩
      · have hfails : Fails i (s, .command i .answered) :=
          ⟨_, _, ⟨rfl, userId, code, _, hc⟩, Or.inr hr⟩
        obtain ⟨e, he⟩ := outcome_fail hnot
        change Stage C _ _ i ⟨_, some (outcome _)⟩
        rw [he]
        exact .failed _ _ _ fun hcompleted => hcompleted.last hfails
      · change Stage C _ _ i ⟨_, some (outcome _)⟩
        rw [hset]
        exact .returned _ _ _

theorem Stage.sends {s : Sys} {c c' : Client} {fate : Fate} {state : Store}
    (h : Stage C tr s.clock i c) (hc : s.clients[i]? = some c)
    (hsend : c.send fate s.state s.clock = some (c', state)) :
    Stage C (tr ++ [(s, .command i fate)]) s.clock i c' := by
  obtain ⟨command, next, hprog, hcases⟩ := send_cases hsend
  obtain ⟨q, prog⟩ := c
  dsimp only at hprog
  subst hprog
  have hunanswered : fate ≠ .answered →
      Stage C (tr ++ [(s, .command i fate)]) s.clock i ⟨q, some (next none)⟩ := by
    intro hfate
    by_cases hq : ∃ userId code, q = .confirm userId code
    · obtain ⟨userId, code, rfl⟩ := hq
      rw [h.command.2]
      exact .failed _ _ _ fun hcompleted =>
        hcompleted.last ⟨command, fate, ⟨rfl, userId, code, next, hc⟩, Or.inl hfate⟩
    · generalize hclient : (⟨q, some (.command command next)⟩ : Client) = c at h
      cases h with
      | other q' hq' prog h =>
          cases hclient
          refine .other q hq' _ fun p hp => ?_
          obtain rfl := Option.some.inj hp
          exact (h _ rfl).2 _
      | arrived | judging | rejecting | lockingOut | accepting | clearing | updating | returned
      | failed | stopped => cases hclient <;> exact absurd ⟨_, _, rfl⟩ hq
  rcases hcases with ⟨rfl, rfl, -⟩ | ⟨rfl, rfl, -⟩ | ⟨rfl, rfl, -⟩
  · exact h.answered hc
  · exact hunanswered nofun
  · exact hunanswered nofun

end stages

section runs
variable {C : Crypto} {expiryMinutes : ℕ} {tr : List (Sys × Act Request)} {s : Sys} {i : ℕ}

theorem state_act {fate : Fate} {command : Command} {q : Request}
    {next : Option command.Reply → Handler Answer}
    (hc : s.clients[i]? = some ⟨q, some (.command command next)⟩) :
    (s.act (handle C expiryMinutes) (.command i fate)).state =
      if fate = .refused then s.state else (command.exec s.state s.clock).2 := by
  rw [act_sent hc]
  rfl

variable (C expiryMinutes) in
/-- An act that takes effect changes a phone or a time of use. -/
theorem TakesEffect.changed {a : Act Request} (h : TakesEffect i (s, a)) :
    ¬ Unchanged s.state (s.act (handle C expiryMinutes) a).state := by
  obtain ⟨command, fate, ⟨rfl, userId, code, next, hc⟩, hfate, hchanges⟩ := h
  rw [state_act hc, if_neg hfate]
  exact exec_changed hchanges

abbrev Harmless (p : Handler Answer) : Prop := p.Sends fun command => command.harmless = true

theorem harmless_send {command : Command} (h : command.harmless = true)
    {next : command.Reply → Handler Answer} (hnext : ∀ r, Harmless (next r)) :
    Harmless (send command >>= next) :=
  Prog.Sends.bind (Prog.sends_send internal h) hnext

/-- What the handlers other than a confirmation send changes no phone. -/
theorem handle_harmless {q : Request} (hq : ∀ userId code, q ≠ .confirm userId code) :
    Harmless (handle C expiryMinutes q) := by
  cases q with
  | confirm userId code => exact absurd rfl (hq userId code)
  | sweep => exact harmless_send rfl fun _ => trivial
  | requestVerification userId newPhone code salt =>
      refine harmless_send rfl fun holder => ?_
      split_ifs
      · trivial
      · refine harmless_send rfl fun issuedAt => harmless_send rfl fun _ =>
          harmless_send rfl fun _ => harmless_send rfl fun id => ⟨rfl, fun sent => ?_⟩
        cases sent with
        | some _ => trivial
        | none => exact harmless_send rfl fun _ => harmless_send rfl fun _ => trivial

/-- What is known of the clients after any acts. -/
structure Known (C : Crypto) (tr : List (Sys × Act Request)) (s : Sys) : Prop where
  stages : ∀ i c, s.clients[i]? = some c → Stage C tr s.clock i c
  came : ∀ i, ∀ m ∈ tr, TakesEffect i m → i < s.clients.length

theorem Known.start (users : List Account) : Known C [] (start users) where
  stages _ _ h := nomatch h
  came _ _ h := nomatch h

theorem Known.act (h : Known C tr s) (a : Act Request) :
    Known C (tr ++ [(s, a)]) (s.act (handle C expiryMinutes) a) := by
  have hcame : ∀ i, ∀ m ∈ tr ++ [(s, a)], TakesEffect i m → i < s.clients.length := by
    intro i m hmem heffect
    rcases List.mem_append.mp hmem with hold | hnew
    · exact h.came i m hold heffect
    · obtain rfl := List.mem_singleton.mp hnew
      obtain ⟨command, fate, ⟨-, userId, code, next, hc⟩, -⟩ := heffect
      exact (List.getElem?_eq_some_iff.mp hc).1
  have hquiet : (∀ i fate, a ≠ .command i fate) → ∀ i, ¬ TakesEffect i (s, a) := by
    rintro hne i ⟨command, fate, ⟨ha, -⟩, -⟩
    exact hne i fate ha
  rcases act_cases s a with ⟨q, rfl, hact⟩ | ⟨n, rfl, hact⟩ | ⟨j, c₀, hj, rfl, hact⟩ |
    ⟨j, fate, c₀, c', state, hj, hsend, rfl, hact⟩ | hact
  · rw [hact]
    refine ⟨fun i c hc => ?_, fun i m hmem heffect => ?_⟩
    · rw [List.getElem?_append] at hc
      split_ifs at hc with hi
      · exact (h.stages i c hc).keeps (hquiet nofun i) le_rfl
      · have hclean : Clean (tr ++ [(s, .arrive q)]) i := fun m hmem heffect =>
          hi (hcame i m hmem heffect)
        obtain rfl := List.mem_singleton.mp (List.mem_of_getElem? hc)
        by_cases hq : ∃ userId code, q = .confirm userId code
        · obtain ⟨userId, code, rfl⟩ := hq
          exact .arrived userId code hclean
        · refine .other q (fun userId code heq => hq ⟨userId, code, heq⟩) _ fun p hp => ?_
          obtain rfl := Option.some.inj hp
          exact handle_harmless fun userId code heq => hq ⟨userId, code, heq⟩
    · exact (hcame i m hmem heffect).trans_le (by simp)
  · rw [hact]
    exact ⟨fun i c hc => (h.stages i c hc).keeps (hquiet nofun i) (Nat.le_add_right _ _), hcame⟩
  · rw [hact]
    refine ⟨fun i c hc => ?_, fun i m hmem heffect => ?_⟩
    · rcases getElem?_set_cases hc with ⟨rfl, rfl⟩ | hother
      · exact ((h.stages i c₀ hj).keeps (hquiet nofun i) le_rfl).stop
      · exact (h.stages i c hother).keeps (hquiet nofun i) le_rfl
    · exact (hcame i m hmem heffect).trans_eq (List.length_set).symm
  · rw [hact]
    refine ⟨fun i c hc => ?_, fun i m hmem heffect => ?_⟩
    · by_cases hij : i = j
      · subst hij
        obtain ⟨hi, hget⟩ := List.getElem?_eq_some_iff.mp hc
        rw [List.getElem_set_self] at hget
        exact hget ▸ (h.stages i c₀ hj).sends hj hsend
      · rw [List.getElem?_set_ne (Ne.symm hij)] at hc
        refine (h.stages i c hc).keeps ?_ le_rfl
        rintro ⟨command, fate', ⟨ha, -⟩, -⟩
        exact hij (Act.command.inj ha).1.symm
    · exact (hcame i m hmem heffect).trans_eq (List.length_set).symm
  · rw [hact]
    refine ⟨fun i c hc => (h.stages i c hc).keeps (fun heffect => ?_) le_rfl, hcame⟩
    refine heffect.changed C expiryMinutes ?_
    rw [hact]
    exact ⟨fun _ => rfl, fun _ => rfl⟩

variable (C expiryMinutes) in
theorem known (users : List Account) (as : List (Act Request)) :
    Known C (trace (handle C expiryMinutes) (start users) as)
      ((start users).after (handle C expiryMinutes) as) :=
  traced (P := fun _ => True) (J := Known C) (.start users) (fun _ _ a _ h => h.act a) as
    fun _ _ => trivial

theorem Known.earned (h : Known C tr s) (a : Act Request) :
    EarnedChange C expiryMinutes tr s a := by
  intro userId hchanged
  rcases act_cases s a with ⟨q, rfl, hact⟩ | ⟨n, rfl, hact⟩ | ⟨j, c₀, hj, rfl, hact⟩ |
    ⟨j, fate, c₀, c', state, hj, hsend, rfl, -⟩ | hact
  · exact absurd rfl hchanged
  · exact absurd rfl hchanged
  · rw [hact] at hchanged
    exact absurd rfl hchanged
  · obtain ⟨command, next, hprog, -⟩ := send_cases hsend
    obtain ⟨q, prog⟩ := c₀
    dsimp only at hprog
    subst hprog
    have hstage := h.stages j _ hj
    rw [state_act hj] at hchanged ⊢
    split_ifs at hchanged ⊢
    · exact absurd rfl hchanged
    · obtain ⟨phone, rfl, hphone⟩ := exec_phone hchanged
      generalize hclient : (⟨q, some (.command (.updatePhone userId phone) next)⟩ : Client) = c
        at hstage
      cases hstage with
      | other q' hq prog hsends =>
          cases hclient
          exact Bool.noConfusion (hsends _ rfl).1
      | updating userId' code r hearned =>
          cases hclient
          exact ⟨j, fate, code, _, r, rfl, hj, hearned, hphone⟩
      | arrived | judging | rejecting | lockingOut | accepting | clearing | returned | failed
      | stopped => cases hclient
  · rw [hact] at hchanged
    exact absurd rfl hchanged

/-- A command of a confirmation that does not take effect leaves everything as it was. -/
theorem unchanged_of_not_takesEffect {fate : Fate} {command : Command} {userId : Id}
    {code : String} {next : Option command.Reply → Handler Answer} (h : Known C tr s)
    (hc : s.clients[i]? = some ⟨.confirm userId code, some (.command command next)⟩)
    (hnot : ¬ TakesEffect i (s, .command i fate)) :
    Unchanged s.state (s.act (handle C expiryMinutes) (.command i fate)).state := by
  rw [state_act hc]
  split_ifs with hfate
  · exact ⟨fun _ => rfl, fun _ => rfl⟩
  · refine exec_unchanged (h.stages i _ hc).command.1 (Bool.not_eq_true _ ▸ fun hchanges => hnot ?_)
    exact ⟨command, fate, ⟨rfl, userId, code, next, hc⟩, hfate, hchanges⟩

variable (expiryMinutes) in
/-- A confirmation that fails at a command has failed. -/
theorem Fails.failed {a : Act Request} (h : Known C tr s) (hfails : Fails i (s, a)) :
    ∃ userId code e, (s.act (handle C expiryMinutes) a).clients[i]? =
      some ⟨.confirm userId code, some (.fail e)⟩ := by
  obtain ⟨command, fate, ⟨rfl, userId, code, next, hc⟩, hwhy⟩ := hfails
  have hstage := h.stages i _ hc
  have hnext : (s.act (handle C expiryMinutes) (.command i fate)).clients[i]? = _ := act_next hc
  by_cases hfate : fate = .answered
  · have hrefused := hwhy.resolve_left (fun hne => hne hfate)
    rw [if_pos hfate] at hnext
    generalize hclient : (⟨.confirm userId code, some (.command command next)⟩ : Client) = c
      at hstage
    cases hstage with
    | other q hq => cases hclient; exact absurd rfl (hq userId code)
    | returned | failed | stopped => cases hclient
    | arrived | judging | rejecting | lockingOut | accepting | clearing =>
        cases hclient
        exact Bool.noConfusion hrefused
    | updating userId' code' r hearned =>
        cases hclient
        rcases exec_updatePhone s.state userId r.newPhone s.clock with ⟨-, -, hnot⟩ | ⟨haccepted, -⟩
        · obtain ⟨e, he⟩ := outcome_fail hnot
          refine ⟨userId, code, e, hnext.trans ?_⟩
          rw [← he]
          rfl
        · exact Bool.noConfusion (hrefused.symm.trans haccepted)
  · rw [if_neg hfate, hstage.command.2] at hnext
    exact ⟨userId, code, internal, hnext⟩

section
variable {users : List Account} {as : List (Act Request)}

theorem untouched_of_completed
    (h : Completed (trace (handle C expiryMinutes) (start users) as)) :
    Untouched C expiryMinutes (trace (handle C expiryMinutes) (start users) as)
      ((start users).after (handle C expiryMinutes) as) := by
  rintro i userId code e hc ⟨s, a⟩ hmem ⟨fate, ha⟩
  dsimp only at ha ⊢
  subst ha
  have hclean : Clean (trace (handle C expiryMinutes) (start users) as) i := by
    have hstage := (known C expiryMinutes users as).stages i _ hc
    generalize hclient : (⟨.confirm userId code, some (.fail e)⟩ : Client) = c at hstage
    cases hstage with
    | other q hq => cases hclient; exact absurd rfl (hq userId code)
    | failed userId' code' e' hfailed => exact hfailed h
    | arrived | judging | rejecting | lockingOut | accepting | clearing | updating | returned
    | stopped => cases hclient
  obtain ⟨before, after, has, rfl⟩ := mem_trace hmem
  have hknown := known C expiryMinutes users before
  rcases act_cases ((start users).after (handle C expiryMinutes) before) (.command i fate) with
    ⟨q, ha, -⟩ | ⟨n, ha, -⟩ | ⟨j, c₀, -, ha, -⟩ |
    ⟨j, fate', c₀, c', state, hj, hsend, ha, -⟩ | hact
  · cases ha
  · cases ha
  · cases ha
  · cases ha
    obtain ⟨command, next, hprog, -⟩ := send_cases hsend
    obtain ⟨q, prog⟩ := c₀
    dsimp only at hprog
    subst hprog
    have hq : q = .confirm userId code := by
      rw [has, after_append] at hc
      exact (request_after hj hc).symm
    subst hq
    exact unchanged_of_not_takesEffect hknown hj (hclean _ hmem)
  · rw [hact]
    exact ⟨fun _ => rfl, fun _ => rfl⟩

theorem completed_of_untouched
    (h : Untouched C expiryMinutes (trace (handle C expiryMinutes) (start users) as)
      ((start users).after (handle C expiryMinutes) as)) :
    Completed (trace (handle C expiryMinutes) (start users) as) := by
  rintro i before ⟨s, a⟩ after htr hfails m hmem heffect
  have hlast : (s, a) ∈ trace (handle C expiryMinutes) (start users) as := by
    rw [htr]
    exact List.mem_append_right _ List.mem_cons_self
  have hearlier : m ∈ trace (handle C expiryMinutes) (start users) as := by
    rw [htr]
    rcases List.mem_append.mp hmem with hold | hnew
    · exact List.mem_append_left _ hold
    · exact List.mem_append_right _ (List.mem_singleton.mp hnew ▸ List.mem_cons_self)
  obtain ⟨first, rest, has, rfl⟩ := mem_trace hlast
  obtain ⟨userId, code, e, hfailed⟩ := hfails.failed expiryMinutes
    (known C expiryMinutes users first)
  have hend : ((start users).after (handle C expiryMinutes) as).clients[i]? =
      some ⟨.confirm userId code, some (.fail e)⟩ := by
    rw [has, after_append]
    exact over_after hfailed rfl rest
  have hchanged := heffect.changed C expiryMinutes
  obtain ⟨command, fate, ⟨hm, -⟩, -⟩ := heffect
  exact hchanged (h i userId code e hend m hearlier ⟨fate, hm⟩)

end

end runs

/-- A phone is changed only to the number of a record whose code was presented in time; and a
confirmation that fails has changed nothing exactly as long as none of its commands fails that
takes effect, nor one after it. -/
theorem phone_changes_iff (C : Crypto) (expiryMinutes : ℕ) (users : List Account)
    (as : List (Act Request)) :
    (∀ a, EarnedChange C expiryMinutes (trace (handle C expiryMinutes) (start users) as)
      ((start users).after (handle C expiryMinutes) as) a) ∧
    (Untouched C expiryMinutes (trace (handle C expiryMinutes) (start users) as)
      ((start users).after (handle C expiryMinutes) as) ↔
        Completed (trace (handle C expiryMinutes) (start users) as)) :=
  ⟨(known C expiryMinutes users as).earned, completed_of_untouched, untouched_of_completed⟩

namespace Sample

def crypto : Crypto where
  bcryptHash salt plain := salt ++ plain
  bcryptCompare plain hash := plain = hash
  sha256 text := text

def users : List Account := [⟨1, "+201000000001"⟩, ⟨2, "+201000000002"⟩]

/-- Two users have asked for one number, and the first has got it. The second presents the code
that was sent. -/
def acts : List (Act Request) :=
  [.arrive (.requestVerification 1 "+201000000003" "111111" "a"),
    .arrive (.requestVerification 2 "+201000000003" "222222" "b"),
    .command 0, .command 1, .command 0, .command 1, .command 0, .command 1, .command 0, .command 1,
    .command 0, .command 1, .command 0, .command 1, .arrive (.confirm 1 "111111"),
    .arrive (.confirm 2 "222222"), .command 2, .command 2, .command 2, .command 2, .command 2,
    .command 3, .command 3]

end Sample

/-- The number is taken by then: the second confirmation is refused, and its code is spent. -/
theorem code_spent : ¬ ∀ (C : Crypto) (expiryMinutes : ℕ) (users : List Account)
    (as : List (Act Request)),
    Untouched C expiryMinutes (trace (handle C expiryMinutes) (start users) as)
      ((start users).after (handle C expiryMinutes) as) := by
  intro hall
  let h := handle Sample.crypto 30
  let s := (start Sample.users).after h Sample.acts
  have hmem : (s, Act.command 3) ∈ trace h (start Sample.users)
      (Sample.acts ++ [.command 3, .command 3, .command 3]) := by
    rw [trace_append]
    exact List.mem_append_right _ List.mem_cons_self
  have hconsumed := (hall Sample.crypto 30 Sample.users _ 3 2 "222222" _ rfl _ hmem
    ⟨.answered, rfl⟩).consumedAt 1
  revert hconsumed
  decide +kernel

end CiroFuel.PhoneChanges
