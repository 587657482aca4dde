import CiroFuel.Handover.Cached

/-!
# The stages of a call

A call that issues a code caches it first and stores its record later; in between it
holds a record that is not there yet. A client is at one of few stages, and each command
changes the codes of one step of one order at most.
-/
namespace CiroFuel.Handover.Cached
open Interleaving

/-- The record that a program is about to store, having cached its code. -/
def toStore : Handler Answer → Option (Id × OtpRecord)
  | .command (.push orderId record) _ => some (orderId, record)
  | .command (.pullUnused ..) next => toStore (next (some ()))
  | .command .getTime next => toStore (next (some (0 : ℕ)))
  | _ => none

/-- The record that a client is about to store for a step of an order. -/
def held (orderId : Id) (purpose : OtpPurpose) (c : Client) : Option OtpRecord :=
  (c.prog.bind toStore).bind fun x =>
    if x.1 = orderId ∧ x.2.purpose = purpose then some x.2 else none

def holding (orderId : Id) (purpose : OtpPurpose) (c : Client) : Bool :=
  (held orderId purpose c).isSome

/-- Only the record is left to be stored. -/
def pushes (c : Client) : Bool :=
  match c.prog with
  | some (.command (.push ..) _) => true
  | _ => false

/-- The step for which a client issues no code, as it is about to return with the news that there
is a valid one. -/
def returns (orderId : Id) (now : Instant) (c : Client) : Option OtpPurpose :=
  match c.request, c.prog with
  | .issue orderId' purpose _ _, some (.command .getTime next) =>
      match next (some now) with
      | .pure _ => if orderId' = orderId then some purpose else none
      | _ => none
  | _, _ => none

/-- Some unused code for the step is valid. -/
def Codes.valid (s : Codes) (orderId : Id) (purpose : OtpPurpose) (now : Instant) : Bool :=
  (s.unusedOf orderId purpose).any fun x => x.any fun r => now < r.expiresAt

/-- A cached code is replaced or deleted only when no valid record needs it, stored or about to be
stored; no code is marked used while an issue is about to return because of it, or at a place
that the array has lost. -/
def admitted (s : Sys) (c : Client) : Bool :=
  match c.prog with
  | some (.command (.cachePlaintext orderId purpose _ _) _)
  | some (.command (.clearCache orderId purpose) _) =>
      !s.state.valid orderId purpose s.clock &&
        s.clients.all fun c' => !holding orderId purpose c'
  | some (.command (.setUsed orderId index) _) =>
      ((s.state.orders orderId).all fun o => index ≤ o.otps.length) &&
        s.clients.all fun c' => (returns orderId s.clock c').isNone
  | some (.command (.commit orderId _) _) =>
      s.clients.all fun c' => (returns orderId s.clock c').isNone
  | _ => true

def apart (m : Sys × Act Request) : Bool :=
  match m with
  | (s, .command i fate) => fate = .refused || (s.clients[i]?).all (admitted s)
  | _ => true

section stages
variable {C : Crypto} {expiryMinutes : ℕ} {now : Instant}

def Request.issues : Request → Bool
  | .issue .. => true
  | _ => false

/-- How far a client can be. -/
inductive Stage (C : Crypto) (expiryMinutes : ℕ) (now : Instant) : Client → Prop where
  | arrived (q : Request) : Stage C expiryMinutes now ⟨q, some (handle C expiryMinutes q)⟩
  | checking (orderId : Id) (purpose : OtpPurpose) (draw : Fin 1000000) (salt : String)
      (order : OrderCodes) (hclean : order.hasNull = false) : Stage C expiryMinutes now
        ⟨.issue orderId purpose draw salt,
          some (check C expiryMinutes orderId purpose (generateCode draw) salt order)⟩
  | renewing (orderId : Id) (purpose : OtpPurpose) (draw : Fin 1000000) (salt : String) :
      Stage C expiryMinutes now
        ⟨.issue orderId purpose draw salt,
          some (renew C expiryMinutes orderId purpose (generateCode draw) salt)⟩
  | caching (orderId : Id) (purpose : OtpPurpose) (draw : Fin 1000000) (salt : String)
      (issuedAt : Instant) (hissued : issuedAt ≤ now) : Stage C expiryMinutes now
        ⟨.issue orderId purpose draw salt,
          some (remember expiryMinutes orderId purpose (generateCode draw)
            (Otp.issue C (generateCode draw) salt expiryMinutes issuedAt))⟩
  | cached (orderId : Id) (purpose : OtpPurpose) (draw : Fin 1000000) (salt : String)
      (record : Otp.OtpRecordLike) : Stage C expiryMinutes now
        ⟨.issue orderId purpose draw salt, some (cached orderId purpose record)⟩
  | storing (orderId : Id) (draw : Fin 1000000) (salt : String) (record : OtpRecord)
      (hunused : record.usedAt = none) : Stage C expiryMinutes now
        ⟨.issue orderId record.purpose draw salt, some (store orderId record.purpose record)⟩
  | pushing (orderId : Id) (draw : Fin 1000000) (salt : String) (record : OtpRecord)
      (hunused : record.usedAt = none) : Stage C expiryMinutes now
        ⟨.issue orderId record.purpose draw salt, some (pushed orderId record)⟩
  | judging (orderId : Id) (purpose : OtpPurpose) (submittedOtp : String) (order : OrderCodes) :
      Stage C expiryMinutes now
        ⟨.verify orderId purpose submittedOtp, some (judge C orderId purpose submittedOtp order)⟩
  | counting (q : Request) (orderId : Id) (index : ℕ) :
      Stage C expiryMinutes now ⟨q, some (missed orderId index)⟩
  | marking (q : Request) (hq : q.issues = false) (orderId : Id) (purpose : OtpPurpose)
      (index : ℕ) : Stage C expiryMinutes now ⟨q, some (accepted orderId purpose index)⟩
  | clearing (q : Request) (hq : q.issues = false) (orderId : Id) (purpose : OtpPurpose) :
      Stage C expiryMinutes now ⟨q, some (cleared orderId purpose)⟩
  | clearingAll (q : Request) (hq : q.issues = false) (orderId : Id) (session : Session) :
      Stage C expiryMinutes now ⟨q, some (clearAll orderId session)⟩
  | clearingDelivery (q : Request) (hq : q.issues = false) (orderId : Id) (session : Session) :
      Stage C expiryMinutes now ⟨q, some (clearDelivery orderId session)⟩
  | committing (q : Request) (hq : q.issues = false) (orderId : Id) (session : Session) :
      Stage C expiryMinutes now ⟨q, some (committed orderId session)⟩
  | peeking (orderId : Id) (purpose : OtpPurpose) (order : Option OrderCodes) :
      Stage C expiryMinutes now ⟨.peekCurrent orderId purpose, some (peek orderId purpose order)⟩
  | looking (q : Request) (hq : q.issues = false) (orderId : Id) (purpose : OtpPurpose)
      (record : OtpRecord) : Stage C expiryMinutes now ⟨q, some (look orderId purpose record)⟩
  | returned (q : Request) (a : Answer) : Stage C expiryMinutes now ⟨q, some (.pure a)⟩
  | failed (q : Request) (e : HttpError) : Stage C expiryMinutes now ⟨q, some (.fail e)⟩
  | stopped (q : Request) : Stage C expiryMinutes now ⟨q, none⟩

/-- A client whose command fails fails. -/
theorem Stage.fails {q : Request} {command : Command} {next : Option command.Reply → Handler Answer}
    (h : Stage C expiryMinutes now ⟨q, some (.command command next)⟩) :
    next none = .fail internal := by
  generalize hc : (⟨q, some (.command command next)⟩ : Client) = c at h
  cases h with
  | arrived q' => cases q' <;> cases hc <;> rfl
  | returned | failed | stopped => cases hc
  | checking | renewing | caching | cached | storing | pushing | judging | counting | marking
  | clearing | clearingAll | clearingDelivery | committing | peeking | looking => cases hc; rfl

/-- No stage is lost as time passes. -/
theorem Stage.later {c : Client} {later : Instant} (h : Stage C expiryMinutes now c)
    (hle : now ≤ later) : Stage C expiryMinutes later c := by
  cases h with
  | arrived q => exact .arrived q
  | checking orderId purpose draw salt order hclean =>
      exact .checking orderId purpose draw salt order hclean
  | renewing orderId purpose draw salt => exact .renewing orderId purpose draw salt
  | caching orderId purpose draw salt issuedAt hissued =>
      exact .caching orderId purpose draw salt issuedAt (hissued.trans hle)
  | cached orderId purpose draw salt record => exact .cached orderId purpose draw salt record
  | storing orderId draw salt record hunused => exact .storing orderId draw salt record hunused
  | pushing orderId draw salt record hunused => exact .pushing orderId draw salt record hunused
  | judging orderId purpose submittedOtp order => exact .judging orderId purpose submittedOtp order
  | counting q orderId index => exact .counting q orderId index
  | marking q hq orderId purpose index => exact .marking q hq orderId purpose index
  | clearing q hq orderId purpose => exact .clearing q hq orderId purpose
  | clearingAll q hq orderId session => exact .clearingAll q hq orderId session
  | clearingDelivery q hq orderId session => exact .clearingDelivery q hq orderId session
  | committing q hq orderId session => exact .committing q hq orderId session
  | peeking orderId purpose order => exact .peeking orderId purpose order
  | looking q hq orderId purpose record => exact .looking q hq orderId purpose record
  | returned q a => exact .returned q a
  | failed q e => exact .failed q e
  | stopped q => exact .stopped q

/-! What the programs on the way are about to store. -/

section toStore
variable (orderId : Id) (purpose : OtpPurpose)

theorem toStore_check (code salt : String) (order : OrderCodes) :
    toStore (check C expiryMinutes orderId purpose code salt order) = none := by
  change toStore (if meetsNull (active purpose 0) order.otps then _
    else if order.otps.any (active purpose 0) then _ else _) = none
  split_ifs <;> rfl

theorem toStore_settle (index : Option ℕ) (result : Otp.OtpVerifyResult) :
    toStore (settle orderId purpose index result) = none := by
  cases result <;> cases index <;> rfl

theorem toStore_peek (order : Option OrderCodes) (t : Instant) :
    toStore (search orderId purpose order t) = none := by
  unfold search
  split_ifs
  · rfl
  · cases order.bind fun o => (o.otps.find? (active purpose t)).bind Slot.record <;> rfl

variable (C expiryMinutes now) in
theorem settle_stage (index : Option ℕ) (result : Otp.OtpVerifyResult) {q : Request}
    (hq : q.issues = false) :
    Stage C expiryMinutes now ⟨q, some (settle orderId purpose index result)⟩ := by
  cases result with
  | notFound | expired | lockedOut => exact .failed _ _
  | mismatch =>
      cases index with
      | none => exact .failed _ _
      | some index => exact .counting q orderId index
  | match_ =>
      cases index with
      | none => exact .failed _ _
      | some index => exact .marking q hq orderId purpose index

variable (C expiryMinutes now) in
theorem peek_stage (order : Option OrderCodes) (t : Instant) {q : Request} (hq : q.issues = false) :
    Stage C expiryMinutes now ⟨q, some (search orderId purpose order t)⟩ := by
  unfold search
  split_ifs
  · exact .failed _ _
  · cases order.bind fun o => (o.otps.find? (active purpose t)).bind Slot.record with
    | none => exact .returned _ _
    | some record => exact .looking q hq orderId purpose record

theorem held_of_none {prog : Handler Answer} (h : toStore prog = none) (q : Request) :
    held orderId purpose ⟨q, some prog⟩ = none := by
  change (toStore prog).bind _ = none
  rw [h]
  rfl

end toStore

end stages

/-! ### The codes for one step -/

section codes
variable {s s' : Codes} {orderId orderId' : Id} {purpose purpose' : OtpPurpose} {now : Instant}

/-- A record without its attempts. -/
def core (x : Slot) : Option Otp.OtpRecordLike :=
  x.record.map fun r => { toOtp r with attempts := 0 }

/-- The unused codes for a step are the same but for the attempts, and so is the cached code. -/
structure Codes.Same (orderId : Id) (purpose : OtpPurpose) (s s' : Codes) : Prop where
  unused : (s'.unusedOf orderId purpose).map core = (s.unusedOf orderId purpose).map core
  cache : s'.cache (orderId, purpose) = s.cache (orderId, purpose)

theorem Codes.Same.refl (s : Codes) : Codes.Same orderId purpose s s := ⟨rfl, rfl⟩

theorem valid_eq (s : Codes) : s.valid orderId purpose now =
    ((s.unusedOf orderId purpose).map core).any fun x => x.any fun r => now < r.expiresAt := by
  rw [Codes.valid, List.any_map]
  congr 1
  funext x
  cases x <;> rfl

theorem Codes.Same.valid (h : Codes.Same orderId purpose s s') :
    s'.valid orderId purpose now = s.valid orderId purpose now := by
  rw [valid_eq, valid_eq, h.unused]

theorem Codes.Same.length (h : Codes.Same orderId purpose s s') :
    (s'.unusedOf orderId purpose).length = (s.unusedOf orderId purpose).length := by
  simpa using congrArg List.length h.unused

theorem Codes.Same.nil (h : Codes.Same orderId purpose s s')
    (hnil : s.unusedOf orderId purpose = []) : s'.unusedOf orderId purpose = [] :=
  List.length_eq_zero_iff.mp (h.length.trans (List.length_eq_zero_iff.mpr hnil))

theorem Codes.Same.holds (h : Codes.Same orderId purpose s s') {C : Crypto} {code : String}
    {r : Otp.OtpRecordLike} (hholds : s.Holds C orderId purpose code r) :
    s'.Holds C orderId purpose code r := by
  obtain ⟨x, hcache, hrest⟩ := hholds
  exact ⟨x, h.cache.trans hcache, hrest⟩

/-- What is stored was stored before, with as many attempts or fewer. -/
theorem Codes.Same.mem (h : Codes.Same orderId purpose s s') {r : OtpRecord}
    (hr : .code r ∈ s'.unusedOf orderId purpose) :
    ∃ r', .code r' ∈ s.unusedOf orderId purpose ∧
      { toOtp r' with attempts := 0 } = { toOtp r with attempts := 0 } := by
  have hcore : core (.code r) ∈ (s.unusedOf orderId purpose).map core :=
    h.unused ▸ List.mem_map_of_mem hr
  obtain ⟨x, hx, heq⟩ := List.mem_map.mp hcore
  cases x with
  | null | marked => cases heq
  | code r' => exact ⟨r', hx, Option.some.inj heq⟩

theorem update_unusedOf_ne (hne : orderId' ≠ orderId) (f : OrderCodes → OrderCodes) :
    (s.update orderId' f).unusedOf orderId purpose = s.unusedOf orderId purpose := by
  have horder : (s.update orderId' f).orders orderId = s.orders orderId :=
    Function.update_of_ne hne.symm _ _
  rw [Codes.unusedOf, horder, Codes.unusedOf]

theorem same_update (f : OrderCodes → OrderCodes)
    (hf : orderId' = orderId → ∀ o, ((f o).otps.filter (unused purpose)).map core =
      (o.otps.filter (unused purpose)).map core) :
    Codes.Same orderId purpose s (s.update orderId' f) := by
  refine ⟨?_, rfl⟩
  by_cases horder : orderId' = orderId
  · subst horder
    cases ho : s.orders orderId' with
    | none => simp [Codes.unusedOf, Codes.update, ho]
    | some o =>
        rw [update_unusedOf ho, hf rfl o, Codes.unusedOf, ho]
        rfl
  · rw [update_unusedOf_ne horder]

theorem same_cached (hne : (orderId', purpose') ≠ (orderId, purpose)) (x : Option Plaintext) :
    Codes.Same orderId purpose s (s.cached orderId' purpose' x) :=
  ⟨rfl, Function.update_of_ne hne.symm _ _⟩

theorem addAttempt_core (o : OrderCodes) (index : ℕ) :
    ((o.addAttempt index).otps.filter (unused purpose)).map core =
      (o.otps.filter (unused purpose)).map core := by
  apply filter_modify_map
  · intro x
    cases x <;> rfl
  · intro x
    cases x <;> rfl

theorem pullUnused_other (hne : purpose' ≠ purpose) (o : OrderCodes) :
    (o.pullUnused purpose').otps.filter (unused purpose) = o.otps.filter (unused purpose) := by
  rw [OrderCodes.pullUnused, List.filter_filter]
  congr 1
  funext x
  cases x with
  | null | marked => rfl
  | code r =>
      by_cases hr : unused purpose (.code r) = true
      · have hother : unused purpose' (.code r) = false := by
          rw [Bool.eq_false_iff]
          intro h
          exact hne ((unused_code.mp h).1.symm.trans (unused_code.mp hr).1)
        rw [hr, hother]
        rfl
      · rw [Bool.eq_false_iff.mpr hr, Bool.false_and]

theorem pullUnused_nil (o : OrderCodes) :
    (o.pullUnused purpose).otps.filter (unused purpose) = [] := by
  rw [OrderCodes.pullUnused, List.filter_filter, List.filter_eq_nil_iff]
  simp

theorem push_filter (o : OrderCodes) (record : OtpRecord) :
    (o.push record).otps.filter (unused purpose) = o.otps.filter (unused purpose) ++
      if unused purpose (.code record) then [.code record] else [] := by
  rw [OrderCodes.push, List.filter_append, List.filter_singleton]
  cases unused purpose (.code record) <;> rfl

theorem setUsed_sublist (o : OrderCodes) (index : ℕ) (usedAt : Instant) :
    ((o.setUsed index usedAt).otps.filter (unused purpose)).Sublist
      (o.otps.filter (unused purpose)) := by
  rw [setUsed_unused]
  refine filter_modify_sublist _ _ fun x => ?_
  cases x <;> simp [unused, Slot.map, Slot.any]

theorem invalidate_nil (o : OrderCodes) (usedAt : Instant) :
    (o.invalidate usedAt).otps.filter (unused purpose) = [] := by
  rw [OrderCodes.invalidate, List.filter_map, List.map_eq_nil_iff, List.filter_eq_nil_iff]
  intro x _
  cases x with
  | null | marked => exact Bool.false_ne_true
  | code r => cases hused : r.usedAt <;> simp [unused, Slot.map, Slot.any, hused]

theorem update_sublist (f : OrderCodes → OrderCodes)
    (hf : ∀ o, ((f o).otps.filter (unused purpose)).Sublist (o.otps.filter (unused purpose))) :
    ((s.update orderId' f).unusedOf orderId purpose).Sublist (s.unusedOf orderId purpose) := by
  by_cases horder : orderId' = orderId
  · subst horder
    cases ho : s.orders orderId' with
    | none => simp [Codes.unusedOf, Codes.update, ho]
    | some o =>
        rw [update_unusedOf ho, Codes.unusedOf, ho]
        exact hf o
  · rw [update_unusedOf_ne horder]

/-! Nothing puts a `null` into an array but a code marked used far behind its end. -/

theorem Codes.Clean.update (h : s.Clean) {f : OrderCodes → OrderCodes}
    (hf : ∀ o, s.orders orderId = some o → o.hasNull = false → (f o).hasNull = false) :
    (s.update orderId f).Clean := by
  intro orderId' o ho
  by_cases horder : orderId' = orderId
  · subst horder
    change Function.update s.orders orderId' ((s.orders orderId').map f) orderId' = some o at ho
    rw [Function.update_self] at ho
    obtain ⟨o', ho', rfl⟩ := Option.map_eq_some_iff.mp ho
    exact hf o' ho' (h orderId' o' ho')
  · exact h orderId' o ((Function.update_of_ne horder _ _).symm.trans ho)

theorem Codes.Clean.exec (h : s.Clean) {command : Command}
    (hplace : ∀ orderId index, command = .setUsed orderId index →
      ∀ o, s.orders orderId = some o → index ≤ o.otps.length) :
    (command.exec s now).2.Clean := by
  cases command with
  | findById | getTime | cachePlaintext | getCachedPlaintext | clearCache | invalidate => exact h
  | pullUnused orderId purpose =>
      apply h.update
      intro o _ ho
      rw [hasNull_eq_false] at ho ⊢
      exact fun hmem => ho (List.filter_sublist.subset hmem)
  | push orderId record =>
      apply h.update
      intro o _ ho
      rw [hasNull_eq_false] at ho ⊢
      intro hmem
      rcases List.mem_append.mp hmem with hold | hnew
      · exact ho hold
      · cases List.mem_singleton.mp hnew
  | addAttempt orderId index =>
      simp only [Command.exec]
      split_ifs
      · exact h
      · apply h.update
        intro o _ ho
        exact hasNull_eq_false.mpr (modify_clean ho index _)
  | setUsed orderId index =>
      simp only [Command.exec]
      split_ifs
      · exact h
      · apply h.update
        intro o hfound ho
        exact setUsed_clean ho (hplace orderId index rfl o hfound) now
  | commit orderId session =>
      simp only [Command.exec]
      split_ifs
      · apply h.update
        intro o _ ho
        rw [hasNull_eq_false] at ho ⊢
        intro hmem
        obtain ⟨x, hx, hnull⟩ := List.mem_map.mp hmem
        have hne : x ≠ .null := by
          rintro rfl
          exact ho hx
        exact map_ne_null hne _ hnull
      · exact h

end codes

/-- In a run whose codes are marked at places that are still there, no array has a `null`. -/
theorem clean_act {C : Crypto} {expiryMinutes : ℕ} {s : Sys} {a : Act Request} (h : s.state.Clean)
    (hapart : apart (s, a) = true) : (s.act (handle C expiryMinutes) a).state.Clean := by
  rcases act_cases s a with ⟨q, rfl, hact⟩ | ⟨n, rfl, hact⟩ | ⟨i, c, hc, rfl, hact⟩ |
    ⟨i, fate, c, c', state, hc, hsend, rfl, hact⟩ | hact
  · rw [hact]
    exact h
  · rw [hact]
    exact h
  · rw [hact]
    exact h
  · rw [hact]
    obtain ⟨q, prog⟩ := c
    obtain ⟨command, next, rfl, hcases⟩ := send_cases hsend
    have hplace : fate ≠ .refused → ∀ orderId index, command = .setUsed orderId index →
        ∀ o, s.state.orders orderId = some o → index ≤ o.otps.length := by
      rintro hfate orderId index rfl o ho
      have hadmitted : admitted s ⟨q, some (.command (.setUsed orderId index) next)⟩ = true := by
        simpa [apart, hfate, hc] using hapart
      have hall := (Bool.and_eq_true_iff.mp hadmitted).1
      rw [ho] at hall
      exact of_decide_eq_true hall
    rcases hcases with ⟨rfl, -, rfl⟩ | ⟨rfl, -, rfl⟩ | ⟨-, -, rfl⟩
    · exact h.exec (hplace (by decide))
    · exact h.exec (hplace (by decide))
    · exact h
  · rw [hact]
    exact h

end CiroFuel.Handover.Cached
