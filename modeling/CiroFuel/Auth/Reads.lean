import CiroFuel.Auth.CodeSteps
import CiroFuel.Snapshot.Outcomes

/-!
# What a request has read of an account

An account keeps its role, its count of revocations never falls, and while the
count stands the password does too. So a sign-in that read the account knows at
its commit how old its reading is, though not that it is current. A reset that is
completed was found by a token that some verification drew for it.
-/
namespace CiroFuel.Auth
open Snapshot Discipline Auth.Handler

namespace User

@[simp] theorem generation_revokeAllSessions (u : User) (cause : Option SessionRevocationCause) :
    (u.revokeAllSessions cause).generation = u.generation + 1 := rfl

@[simp] theorem generation_revokeAndSetPassword (u : User) (passwordHash : String) :
    (u.revokeAndSetPassword passwordHash).generation = u.generation + 1 := rfl

@[simp] theorem generation_deactivated (u : User) : u.deactivated.generation = u.generation + 1 :=
  rfl

@[simp] theorem generation_releaseActiveOrder (u : User) :
    u.releaseActiveOrder.generation = u.generation := rfl

@[simp] theorem generation_closeSession (u : User) (sid : String) :
    (u.closeSession sid).generation = u.generation := rfl

/-- How an account moves on. -/
structure Onward (u u' : User) : Prop where
  role : u'.role = u.role
  generation : u.generation ≤ u'.generation
  password : u'.generation = u.generation → u'.passwordHash = u.passwordHash

theorem Onward.refl (u : User) : u.Onward u := ⟨rfl, le_rfl, fun _ => rfl⟩

theorem Onward.trans {a b c : User} (hab : a.Onward b) (hbc : b.Onward c) : a.Onward c := by
  constructor
  · rw [hbc.role, hab.role]
  · exact hab.generation.trans hbc.generation
  · intro heq
    have hle₁ := hab.generation
    have hle₂ := hbc.generation
    rw [hbc.password (by omega), hab.password (by omega)]

end User

section steps
variable {time : ℕ → Instant} {c : Call} {id : Id} {u : User} {x : Option User}

theorem AccountStep.onward (h : AccountStep time c id (some u) x) :
    ∃ u', x = some u' ∧ u.Onward u' := by
  -- A step that ends all sessions counts, so it may change the password.
  have counted : ∀ {u' : User}, u'.role = u.role → u'.generation = u.generation + 1 →
      u.Onward u' := by
    intro u' hrole hgen
    refine ⟨hrole, by omega, fun heq => ?_⟩
    omega
  cases h with
  | same => exact ⟨u, rfl, .refl u⟩
  | activated => exact ⟨_, rfl, rfl, le_rfl, fun _ => rfl⟩
  | deactivated _ hcall => exact ⟨_, rfl, counted rfl rfl⟩
  | released _ hcall => exact ⟨_, rfl, counted rfl rfl⟩
  | ended _ cause hcall => exact ⟨_, rfl, counted rfl rfl⟩
  | closed _ hcall hsid hid => exact ⟨_, rfl, rfl, le_rfl, fun _ => rfl⟩
  | reset _ hcall hid => exact ⟨_, rfl, counted rfl rfl⟩
  | opened _ i hcall => exact ⟨_, rfl, rfl, le_rfl, fun _ => rfl⟩

end steps

/-- Every account moves on. -/
def Onward (s s' : Store Doc) : Prop :=
  ∀ id u, s.account id = some u → ∃ u', s'.account id = some u' ∧ u.Onward u'

theorem Onward.refl (s : Store Doc) : Onward s s := fun _ u hu => ⟨u, hu, .refl u⟩

theorem Onward.trans {a b c : Store Doc} (hab : Onward a b) (hbc : Onward b c) : Onward a c := by
  intro id u hu
  obtain ⟨u₁, hu₁, hon₁⟩ := hab id u hu
  obtain ⟨u₂, hu₂, hon₂⟩ := hbc id u₁ hu₁
  exact ⟨u₂, hu₂, hon₁.trans hon₂⟩

theorem commit_onward {C : Crypto} {cfg : AuthConfig} {ev : Event Doc Call.Reply}
    (hev : ev.Sound (machine C cfg)) (holder : Store.Older ev.base ev.before) :
    Onward ev.before ev.after := by
  intro id u hu
  have hstep := account_step hev holder id
  rw [hu] at hstep
  exact hstep.onward

/-! ### What calls rely on -/

/-- The account has moved on from what was read of it. -/
def AccountRead (s : Store Doc) (user : UserDocument) : Prop :=
  ∃ u, s.account user.id = some u ∧ user.toUser.Onward u

theorem AccountRead.onward {s s' : Store Doc} {user : UserDocument} (h : AccountRead s user)
    (hs : Onward s s') : AccountRead s' user := by
  obtain ⟨u, hu, hread⟩ := h
  obtain ⟨u', hu', hon⟩ := hs user.id u hu
  exact ⟨u', hu', hread.trans hon⟩

theorem mem_users {d : Docs Doc} {user : UserDocument} (h : user ∈ users d) :
    d.lookup (Key.user user.id) = some user.toUser := by
  obtain ⟨e, he, hsome⟩ := List.mem_filterMap.mp h
  split at hsome
  · rename_i id u
    cases hsome
    exact AList.mem_lookup_iff.mpr he
  · cases hsome

theorem mem_resets {d : Docs Doc} {record : PasswordResetDocument} (h : record ∈ resets d) :
    d.lookup (Key.passwordReset record.id) = some (some record.toPasswordReset) := by
  obtain ⟨e, he, hsome⟩ := List.mem_filterMap.mp h
  split at hsome
  · rename_i id r
    cases hsome
    exact AList.mem_lookup_iff.mpr he
  · cases hsome

/-- Which record a token was drawn for, by its hash. -/
abbrev Drawn := Id → String → Prop

/-- Every stored token was drawn for its record. -/
def TokensDrawn (drawn : Drawn) (s : Store Doc) : Prop :=
  ∀ (id : Id) (r : PasswordReset) (tokenHash : String),
    s.find (Key.passwordReset id) = some (some r) → r.resetTokenHash = some tokenHash →
    drawn id tokenHash

/-- What a call has checked before it is made. -/
def Call.Checked (C : Crypto) (cfg : AuthConfig) (drawn : Drawn) : Call → Store Doc → Prop
  | .mobileLogin dto user, s => AccountRead s user ∧
      C.bcryptCompare dto.password user.passwordHash = true ∧ isSessionCappedRole user.role = false
  | .adminLogin dto user _ cap, s => AccountRead s user ∧
      C.bcryptCompare dto.password user.passwordHash = true ∧
      isSessionCappedRole user.role = true ∧ cap = cfg.cap
  | .signInByCode _ holder _ cap, s => AccountRead s holder ∧ cap = cfg.cap
  | .complete resetToken record _, _ => drawn record.id (C.sha256 resetToken)
  | .verifyOtp subject _ _ maxAttempts, _ =>
      ∀ k, subject = some k → maxAttempts = cfg.maxAttempts k
  | _, _ => True

theorem Call.Checked.onward {C : Crypto} {cfg : AuthConfig} {drawn : Drawn} {c : Call}
    {s s' : Store Doc} (h : c.Checked C cfg drawn s) (hs : Onward s s') :
    c.Checked C cfg drawn s' := by
  cases c with
  | mobileLogin dto user => exact ⟨h.1.onward hs, h.2⟩
  | adminLogin dto user sid cap => exact ⟨h.1.onward hs, h.2⟩
  | signInByCode record holder sid cap => exact ⟨h.1.onward hs, h.2⟩
  | complete resetToken record passwordHash => exact h
  | verifyOtp subject record code maxAttempts => exact h
  | _ => trivial

/-- Sign-ins and recoveries are made on what was read and checked. -/
def signingIn (C : Crypto) (cfg : AuthConfig) (drawn : Drawn) : Discipline Doc Call.Reply where
  inv := TokensDrawn drawn
  rely := Onward
  pre c s _ := c.Checked C cfg drawn s

theorem signingIn_coherent (C : Crypto) (cfg : AuthConfig) (drawn : Drawn) :
    (signingIn C cfg drawn).Coherent where
  refl := Onward.refl
  trans := Onward.trans
  stable h hs _ := h.onward hs

/-! ### Parts that only read -/

section reads
variable {A : Type} {S : Call → Prop}

theorem require_calls {e : HttpError} {o : Option A} : (require e o).Calls S := by
  cases o <;> trivial

theorem refuseIf_calls {b : Bool} {e : HttpError} : (refuseIf b e).Calls S := by
  cases b <;> trivial

theorem sideEffect_calls : sideEffect.Calls S := by
  intro b
  cases b <;> trivial

theorem bestEffort_calls : bestEffort.Calls S := fun _ => trivial

theorem checkOutside_calls {e : HttpError} : (checkOutside e).Calls S := by
  intro b
  cases b <;> trivial

theorem findById_calls (userId : Id) : (findById userId).Calls S :=
  (Prog.calls_find _).bind fun _ => require_calls.bind fun _ => trivial

theorem loadActiveUser_calls (userId : Id) : (loadActiveUser userId).Calls S := by
  apply (Prog.calls_find _).bind
  intro found
  cases found with
  | none => trivial
  | some u =>
      simp only [Option.map_some]
      split_ifs
      · trivial
      · split
        · trivial
        · trivial
        · apply (Prog.calls_find _).bind
          intro scoping
          split <;> trivial

theorem validateActiveSession_calls (userId : Id) : (validateActiveSession userId).Calls S :=
  (loadActiveUser_calls userId).bind fun _ => refuseIf_calls.bind fun _ => require_calls

theorem checkSid_calls (user : UserDocument) (sid : Option String) : (checkSid user sid).Calls S := by
  unfold checkSid
  split_ifs
  · exact refuseIf_calls
  · trivial

theorem authenticate_calls (payload : JwtPayload) : (authenticate payload).Calls S := by
  apply Prog.Calls.bind
  · exact (loadActiveUser_calls _).bind fun _ => require_calls.bind fun _ =>
      (checkSid_calls _ _).bind fun _ => trivial
  · intro _
    trivial

theorem refresh_calls (payload : JwtPayload) : (refresh payload).Calls S :=
  checkOutside_calls.bind fun _ => (validateActiveSession_calls _).bind fun _ =>
    refuseIf_calls.bind fun _ => (checkSid_calls _ _).bind fun _ => trivial

theorem issueOtp_calls (C : Crypto) (code salt : String) (expiryMinutes : ℕ) :
    (issueOtp C code salt expiryMinutes).Calls S :=
  Prog.calls_getTime.bind fun _ => sideEffect_calls.bind fun _ => trivial

end reads

/-! ### The handlers -/

section rules
variable {C : Crypto} {cfg : AuthConfig} {drawn : Drawn} {A B : Type} {V : A → Store Doc → ℕ → Prop}
variable {s : Store Doc} {c : ℕ}

theorem safe_require {e : HttpError} {o : Option B} {f : B → Handler A}
    (h : ∀ b, o = some b → (signingIn C cfg drawn).Safe V (f b) s c) :
    (signingIn C cfg drawn).Safe V (require e o >>= f) s c := by
  cases o with
  | none => trivial
  | some b => exact h b rfl

theorem safe_refuseIf {b : Bool} {e : HttpError} {f : Unit → Handler A}
    (h : b = false → (signingIn C cfg drawn).Safe V (f ()) s c) :
    (signingIn C cfg drawn).Safe V (refuseIf b e >>= f) s c := by
  cases b with
  | false => exact h rfl
  | true => trivial

theorem safe_findById {userId : Id} {f : UserDocument → Handler A}
    (h : ∀ user s' c', AccountRead s' user → (signingIn C cfg drawn).Safe V (f user) s' c') :
    (signingIn C cfg drawn).Safe V (findById userId >>= f) s c := by
  intro s' c' _
  change (signingIn C cfg drawn).Safe V ((require userNotFound (s'.account userId) >>=
    fun u => pure (u.withId userId)) >>= f) s' c'
  cases hu : s'.account userId with
  | none => trivial
  | some u => exact h (u.withId userId) s' c' ⟨u, hu, .refl u⟩

/-- A call that checks nothing may be made at any time. -/
theorem harmless_of_calls {p : Handler A}
    (h : p.Calls fun l => ∀ s, l.Checked C cfg drawn s) : (signingIn C cfg drawn).Harmless p s c := by
  induction p generalizing s c with
  | pure a => trivial
  | fail e => trivial
  | read next ih => exact fun s' c' _ => ih _ (h _)
  | clock next ih => exact fun s' c' _ => ih _ (h _)
  | outside next ih => exact fun b => ih b (h b)
  | call l next ih => exact ⟨fun s' _ _ => h.1 s', fun r s' c' _ _ => ih r (h.2 r)⟩

end rules

section handlers
variable (C : Crypto) (cfg : AuthConfig) (drawn : Drawn) (s : Store Doc) (c : ℕ)

/-- A sign-in by password reads and compares, and only then opens its session. -/
theorem login_harmless (dto : LoginDto) (sid : String) :
    (signingIn C cfg drawn).Harmless (login C cfg dto sid) s c := by
  apply safe_scan
  intro s₁ c₁ hl₁
  apply safe_require
  intro user hfound
  have hmem : user ∈ users s₁.docs := by
    cases hphone : dto.phone with
    | none =>
        rw [hphone] at hfound
        exact List.mem_of_find?_eq_some hfound
    | some phone =>
        rw [hphone] at hfound
        exact List.mem_of_find?_eq_some hfound
  have hread : AccountRead s₁ user := ⟨_, mem_users hmem, .refl _⟩
  apply safe_refuseIf
  intro hcompare
  have hpassword : C.bcryptCompare dto.password user.passwordHash = true := by
    simpa using hcompare
  apply safe_reads (signingIn_coherent C cfg drawn) hl₁.inv (validateActiveSession_calls _)
  intro _ s₂ c₂ hl₂
  have hread₂ := hread.onward hl₂.rely
  split_ifs with hcapped
  · apply safe_perform
    · intro s₃ c₃ hl₃
      exact ⟨hread₂.onward hl₃.rely, hpassword, hcapped, rfl⟩
    · intro _ s₃ c₃ _ _
      trivial
  · apply safe_perform
    · intro s₃ c₃ hl₃
      exact ⟨hread₂.onward hl₃.rely, hpassword, by simpa using hcapped⟩
    · intro _ s₃ c₃ _ _
      exact safe_callFree (sideEffect_calls.bind fun _ => trivial)

theorem complete_harmless (resetToken newPassword salt : String) :
    (signingIn C cfg drawn).Harmless (complete C resetToken newPassword salt) s c := by
  apply safe_scan
  intro s₁ c₁ hl₁
  apply safe_require
  intro record hfound
  have htoken : drawn record.id (C.sha256 resetToken) := by
    have hfilter := List.find?_some hfound
    simp only [Bool.and_eq_true, decide_eq_true_eq] at hfilter
    exact hl₁.inv _ _ _ (mem_resets (List.mem_of_find?_eq_some hfound)) hfilter.1
  apply safe_getTime
  intro s₂ c₂ _
  apply safe_refuseIf
  intro _
  refine ⟨fun _ _ _ => htoken, fun r _ _ _ _ => ?_⟩
  cases r <;> trivial

/-- The audit row of a failure, and what counts it, check nothing. -/
theorem recordFailure_calls (userId : Id) (type : SessionEventType) :
    (recordFailure userId type).Calls fun l => ∀ s, l.Checked C cfg drawn s :=
  (findById_calls userId).bind fun _ => Prog.calls_perform fun _ => trivial

theorem countMismatch_calls (subject : CodeKey) (result : Otp.OtpVerifyResult) :
    (countMismatch subject result).Calls fun l => ∀ s, l.Checked C cfg drawn s := by
  unfold countMismatch
  split_ifs
  · exact (Prog.calls_perform fun _ => trivial).bind fun _ => trivial
  · trivial

theorem verifyCode_harmless (hs : TokensDrawn drawn s) (phone code sid : String) :
    (signingIn C cfg drawn).Harmless (verifyCode cfg phone code sid) s c := by
  apply safe_reads (signingIn_coherent C cfg drawn) hs checkOutside_calls
  intro _ s₁ c₁ _
  apply safe_scan
  intro s₂ c₂ _
  apply safe_perform
  · intro s₃ c₃ _ k hk
    obtain ⟨record, -, rfl⟩ := Option.map_eq_some_iff.mp hk
    rfl
  · intro result s₃ c₃ _ _
    have refused : ∀ record : LoginCodeDocument, (signingIn C cfg drawn).Harmless (do
        countMismatch (.loginCode record.id) result
        sideEffect
        recordFailure record.userId .loginCodeVerifyFailed
        Prog.throw loginCodeInvalid : Handler TokenPair) s₃ c₃ := by
      intro record
      apply harmless_of_calls
      exact (countMismatch_calls C cfg drawn _ _).bind fun _ => sideEffect_calls.bind fun _ =>
        (recordFailure_calls C cfg drawn _ _).bind fun _ => trivial
    have unknown : (signingIn C cfg drawn).Harmless (do
        sideEffect
        Prog.throw loginCodeInvalid : Handler TokenPair) s₃ c₃ :=
      harmless_of_calls (sideEffect_calls.bind fun _ => trivial)
    unfold settleCode
    split
    · rename_i record _
      apply safe_findById
      intro holder s₄ c₄ hread
      apply safe_perform
      · intro s₅ c₅ hl₅
        exact ⟨hread.onward hl₅.rely, rfl⟩
      · intro _ s₅ c₅ _ _
        exact safe_callFree (sideEffect_calls.bind fun _ => trivial)
    · exact unknown
    · exact refused _

theorem settleReset_calls (record : Option PasswordResetDocument) (resetToken : String)
    (result : Otp.OtpVerifyResult) :
    (settleReset C record resetToken result).Calls fun l => ∀ s, l.Checked C cfg drawn s := by
  have refused : ∀ record : PasswordResetDocument,
      (do
        countMismatch (.passwordReset record.id) result
        recordFailure record.userId .recoveryVerifyFailed
        Prog.throw (resetCodeInvalid "Incorrect or expired code") : Handler String).Calls
          fun l => ∀ s, l.Checked C cfg drawn s :=
    fun record => (countMismatch_calls C cfg drawn _ _).bind fun _ =>
      (recordFailure_calls C cfg drawn _ _).bind fun _ => trivial
  unfold settleReset
  split
  · exact (Prog.calls_perform fun _ => trivial).bind fun _ => sideEffect_calls.bind fun _ => trivial
  · exact refused _
  · exact refused _
  · trivial

theorem handle_harmless (hs : TokensDrawn drawn s) (q : Request) : (signingIn C cfg drawn).Harmless (handle C cfg q) s c := by
  have shape : ∀ {α : Type} {p : Handler α} (f : α → Answer),
      (signingIn C cfg drawn).Harmless p s c →
      (signingIn C cfg drawn).Harmless (p >>= fun a => pure (f a)) s c := by
    intro α p f hp
    exact Safe.bind (signingIn_coherent C cfg drawn) hs hp fun _ _ _ _ _ => trivial
  have unchecked : ∀ {l : Call}, (∀ s, l.Checked C cfg drawn s) →
      (perform l).Calls fun l => ∀ s, l.Checked C cfg drawn s := fun h => Prog.calls_perform h
  cases q with
  | createUser data password salt =>
      exact shape _ (harmless_of_calls (unchecked fun _ => by trivial))
  | putCompany id company => exact shape _ (harmless_of_calls (unchecked fun _ => by trivial))
  | activate acting userId => exact shape _ (harmless_of_calls (unchecked fun _ => by trivial))
  | deactivate acting userId =>
      apply shape
      apply harmless_of_calls
      exact (unchecked fun _ => by trivial).bind fun _ => sideEffect_calls.bind fun _ => trivial
  | login dto sid => exact shape _ (login_harmless C cfg drawn s c dto sid)
  | logout payload =>
      apply shape (fun _ => .done)
      apply harmless_of_calls
      exact (authenticate_calls payload).bind fun _ => unchecked fun _ => trivial
  | refresh payload => exact shape _ (harmless_of_calls (refresh_calls payload))
  | authenticate payload => exact shape _ (harmless_of_calls (authenticate_calls payload))
  | requestReset phone code salt =>
      apply shape
      apply harmless_of_calls
      refine checkOutside_calls.bind fun _ => Prog.calls_scan.bind fun _ =>
        Prog.calls_scan.bind fun _ => ?_
      split
      · trivial
      · exact (issueOtp_calls C _ _ _).bind fun _ => (unchecked fun _ => by trivial).bind fun _ =>
          (unchecked fun _ => by trivial).bind fun _ => bestEffort_calls.bind fun _ =>
          (unchecked fun _ => by trivial).bind fun _ => trivial
  | verifyReset phone code resetToken =>
      apply shape
      apply harmless_of_calls
      apply Prog.calls_scan.bind
      intro docs
      have hcap : ∀ k, ((latestReset phone docs).map fun r => CodeKey.passwordReset r.id) = some k →
          cfg.resetMaxAttempts = cfg.maxAttempts k := by
        intro k hk
        obtain ⟨record, -, rfl⟩ := Option.map_eq_some_iff.mp hk
        rfl
      exact (unchecked fun _ => by exact hcap).bind fun _ => settleReset_calls C cfg drawn _ _ _
  | completeReset resetToken newPassword salt =>
      exact shape (fun _ => .passwordChanged resetToken)
        (complete_harmless C cfg drawn s c resetToken newPassword salt)
  | requestCode phone code salt =>
      apply shape
      apply harmless_of_calls
      refine checkOutside_calls.bind fun _ => Prog.calls_scan.bind fun _ => ?_
      split
      · exact refuseIf_calls.bind fun _ => trivial
      · exact (issueOtp_calls C _ _ _).bind fun _ => (unchecked fun _ => by trivial).bind fun _ =>
          (unchecked fun _ => by trivial).bind fun _ => bestEffort_calls.bind fun _ =>
          (unchecked fun _ => by trivial).bind fun _ => trivial
  | verifyCode phone code sid => exact shape _ (verifyCode_harmless C cfg drawn s c hs phone code sid)
  | purgeExpired => exact shape (fun _ => .done) (harmless_of_calls (unchecked fun _ => by trivial))

end handlers

/-- Verifications draw tokens for their own records. -/
def drawsFor (drawn : Drawn) (c : Call) : Prop :=
  ∀ id tokenHash, c = .setVerified id tokenHash → drawn id tokenHash

/-- Every run keeps the discipline of the service. -/
theorem signingIn_lawful (C : Crypto) (cfg : AuthConfig) (drawn : Drawn)
    (P : Event Doc Call.Reply → Prop) (hP : ∀ ev, P ev → drawsFor drawn ev.label) :
    (signingIn C cfg drawn).Lawful (machine C cfg) P where
  toCoherent := signingIn_coherent C cfg drawn
  handlers q s c hs _ := handle_harmless C cfg drawn s c hs q
  keep ev hev hPev _ hbefore _ holder _ := by
    refine ⟨fun id r' tokenHash hr' htoken => ?_, commit_onward hev holder, trivial⟩
    rcases (reset_step hev holder id).token hr' htoken with ⟨r, hr, hold⟩ | hcall
    · exact hbefore id r tokenHash hr hold
    · exact hP ev hPev id tokenHash hcall

/-- What every commit of a run knows. -/
structure Known (C : Crypto) (cfg : AuthConfig) (ev : Event Doc Call.Reply) : Prop where
  older : Store.Older ev.base ev.before
  reached : Onward ev.base ev.before
  onward : Onward ev.before ev.after
  checked : ev.label.Checked C cfg (fun _ _ => True) ev.base

section runs
variable {C : Crypto} {cfg : AuthConfig} {P : Event Doc Call.Reply → Prop} {init : Store Doc}
variable {log : List (Event Doc Call.Reply)} {s : Sys Doc Call.Reply HttpError Answer}

theorem known (h : Run (machine C cfg) init P log s) :
    Run (machine C cfg) init (fun ev => P ev ∧ Known C cfg ev) log s := by
  have hlawful := signingIn_lawful C cfg (fun _ _ => True) P fun _ _ _ _ _ => trivial
  refine (hlawful.sound (fun _ _ _ _ _ => trivial) h).2.weaken fun ev _ hev => ?_
  exact ⟨hev.1, hev.2.older, hev.2.base_before, hev.2.before_after, hev.2.pre⟩

/-- A completed reset was found by a token that was drawn for it. -/
theorem completions_drawn {drawn : Drawn} (hinit : TokensDrawn drawn init)
    (hdraws : ∀ ev, P ev → drawsFor drawn ev.label) (h : Run (machine C cfg) init P log s) :
    ∀ ev ∈ log, ∀ resetToken record passwordHash,
      ev.label = .complete resetToken record passwordHash →
      drawn record.id (C.sha256 resetToken) := by
  intro ev hev resetToken record passwordHash hcall
  have hall := ((signingIn_lawful C cfg drawn P hdraws).sound hinit h).2
  have hchecked := (hall.mem hev).2.2.pre
  have hlabel : ev.label.Checked C cfg drawn ev.base := hchecked
  rw [hcall] at hlabel
  exact hlabel

/-- The account as a commit has it before it, moved on from what its caller read. -/
theorem Known.read {ev : Event Doc Call.Reply} (h : Known C cfg ev) {user : UserDocument}
    (hread : AccountRead ev.base user) : AccountRead ev.before user := hread.onward h.reached

end runs

end CiroFuel.Auth
