import CiroFuel.Auth.Reads

/-!
# Tokens and the sessions they stand for

A sign-in that commits issues a pair of tokens; refreshing one of them issues
another pair for the same session. A token whose session has been ended is
refused by whatever reads the account.
-/
namespace CiroFuel.Auth
open Snapshot Auth.Handler

/-- The pair that a sign-in issues once its call has committed. -/
def Call.tokens : (c : Call) → c.Reply → Option TokenPair
  | .mobileLogin _ user, generation => some (issueTokenPair user generation none)
  | .adminLogin _ user sid _, _ => some (issueTokenPair user user.generation (some sid))
  | .signInByCode _ holder sid _, _ => some (issueTokenPair holder holder.generation (some sid))
  | _, _ => none

def TokenPair.Has (tokens : TokenPair) (t : JwtPayload) : Prop :=
  t = tokens.accessToken ∨ t = tokens.refreshToken

/-- What presenting a token for renewal, again and again, may lead to. -/
inductive Obtained (t : JwtPayload) : JwtPayload → Prop where
  | self : Obtained t t
  | refreshed {t' t'' : JwtPayload} {tokens : TokenPair} (h : Obtained t t')
      (hrefresh : (refresh t').MayReturn tokens) (hmem : tokens.Has t'') : Obtained t t''

/-- The token comes from a sign-in of the log. -/
def Issued (log : List (Event Doc Call.Reply)) (t : JwtPayload) : Prop :=
  ∃ ev ∈ log, ∃ tokens t₀, ev.label.tokens ev.reply = some tokens ∧ tokens.Has t₀ ∧ Obtained t₀ t

/-- The token is accepted neither by a request nor for renewal, if its account is as in `d`. -/
structure JwtPayload.Refused (t : JwtPayload) (d : Docs Doc) : Prop where
  validate : (validateActiveSessionWithScoping t).Refused d
  refresh : (refresh t).Refused d

/-! ### What the checks of a token let through -/

section yields
variable {A : Type} {d : Docs Doc} {e : HttpError}

theorem require_yields (o : Option A) : (require e o).Yields fun a => o = some a := by
  cases o with
  | none => trivial
  | some a => rfl

theorem refuseIf_yields (b : Bool) : (refuseIf b e).Yields fun _ => b = false := by
  cases b with
  | false => rfl
  | true => trivial

/-- The session check of an administrator's token. -/
theorem checkSid_yields (user : UserDocument) (sid : Option String) :
    (checkSid user sid).Yields fun _ => isSessionCappedRole user.role = true →
      ∃ s, truthy sid = some s ∧ user.hasSession s = true := by
  unfold checkSid
  split_ifs with hcapped
  · apply (refuseIf_yields _).mono
    intro _ hopen _
    simpa [Option.any_eq_true] using hopen
  · intro hcapped'
    exact absurd hcapped' hcapped

/-- Only the account that was read is loaded. -/
theorem loadActiveUser_yields (userId : Id) :
    (loadActiveUser userId).YieldsFrom d fun loaded => ∀ user, loaded.user = some user →
      user.id = userId ∧ d.lookup (Key.user userId) = some user.toUser := by
  apply Prog.yieldsFrom_find
  cases hfound : (d.lookup (Key.user userId) : Option User) with
  | none =>
      intro user huser
      cases huser
  | some u =>
      have hloaded : ∀ user, some (u.withId userId) = some user → user.id = userId ∧
          some u = some user.toUser := by
        intro user huser
        cases huser
        exact ⟨rfl, rfl⟩
      simp only [Option.map_some]
      split_ifs
      · exact hloaded
      · split
        · exact hloaded
        · exact hloaded
        · apply Prog.yields_find
          intro scoping
          split
          · exact hloaded
          · exact hloaded

end yields

/-- What a request learns of the account when a token passes. -/
def JwtPayload.Passes (t : JwtPayload) (d : Docs Doc) (user : UserDocument) : Prop :=
  user.id = t.sub ∧ d.lookup (Key.user t.sub) = some user.toUser ∧
    t.sgen.getD 0 = user.generation ∧
    (isSessionCappedRole user.role = true → ∃ s, truthy t.sid = some s ∧ user.hasSession s = true)

theorem JwtPayload.Passes.not_revoked {t : JwtPayload} {d : Docs Doc} {user : UserDocument}
    (h : t.Passes d user) : ¬ t.Revoked user.toUser := by
  obtain ⟨-, -, hgen, hsid⟩ := h
  rintro (hne | ⟨hcapped, hclosed⟩)
  · exact hne hgen
  · obtain ⟨sid, hsome, hopen⟩ := hsid hcapped
    rw [hclosed sid hsome] at hopen
    cases hopen

section checks
variable {t : JwtPayload} {d : Docs Doc}

theorem validate_passes :
    (validateActiveSessionWithScoping t).YieldsFrom d fun r => t.Passes d r.1 := by
  unfold validateActiveSessionWithScoping
  have rest : ∀ loaded : LoadedUser, (∀ user, loaded.user = some user →
      user.id = t.sub ∧ d.lookup (Key.user t.sub) = some user.toUser) →
      Prog.Yields (fun r : UserDocument × Option Id => t.Passes d r.1) (do
        let cause :=
          if loaded.unusableReason = some .companySuspended then some .companySuspended
          else loaded.user.bind fun u => u.lastRevocationCause
        let user ← require (sessionRevoked cause)
          (loaded.user.filter fun u => loaded.usable && t.sgen.getD 0 = u.generation)
        checkSid user t.sid
        return (user, loaded.parentFuelCompanyId) : Handler (UserDocument × Option Id)) := by
    intro loaded hloaded
    apply (require_yields _).bind
    intro user hfound
    obtain ⟨huser, hcurrent⟩ := Option.filter_eq_some_iff.mp hfound
    obtain ⟨hid, hlookup⟩ := hloaded user huser
    simp only [Bool.and_eq_true, decide_eq_true_eq] at hcurrent
    apply (checkSid_yields user t.sid).bind
    intro _ hsid
    exact ⟨hid, hlookup, hcurrent.2, hsid⟩
  apply (loadActiveUser_yields t.sub).bind
  · exact rest
  · exact fun loaded hloaded => (rest loaded hloaded).after

theorem validateActiveSession_yields (userId : Id) :
    (validateActiveSession userId).YieldsFrom d fun user => user.id = userId ∧
      d.lookup (Key.user userId) = some user.toUser := by
  unfold validateActiveSession
  have rest : ∀ loaded : LoadedUser, (∀ user, loaded.user = some user →
      user.id = userId ∧ d.lookup (Key.user userId) = some user.toUser) →
      Prog.Yields (fun user => user.id = userId ∧ d.lookup (Key.user userId) = some user.toUser) (do
        refuseIf (!loaded.usable) genericAuthError
        require genericAuthError loaded.user : Handler UserDocument) := by
    intro loaded hloaded
    apply Prog.yields_bind
    intro _
    apply (require_yields _).mono
    exact hloaded
  apply (loadActiveUser_yields userId).bind
  · exact rest
  · exact fun loaded hloaded => (rest loaded hloaded).after

theorem refresh_passes :
    (refresh t).YieldsFrom d fun tokens => ∃ user, t.Passes d user ∧
      tokens = issueTokenPair user user.generation t.sid := by
  unfold refresh
  have rest : ∀ user : UserDocument, user.id = t.sub ∧
      d.lookup (Key.user t.sub) = some user.toUser →
      Prog.Yields (fun tokens => ∃ user, t.Passes d user ∧
        tokens = issueTokenPair user user.generation t.sid) (do
        refuseIf (t.sgen.getD 0 ≠ user.generation) (sessionRevoked user.lastRevocationCause)
        checkSid user t.sid
        return issueTokenPair user user.generation t.sid : Handler TokenPair) := by
    intro user hread
    apply (refuseIf_yields _).bind
    intro _ hgen
    apply (checkSid_yields user t.sid).bind
    intro _ hsid
    have hcurrent : t.sgen.getD 0 = user.generation := by simpa using hgen
    exact ⟨user, ⟨hread.1, hread.2, hcurrent, hsid⟩, rfl⟩
  intro b
  cases b with
  | false => trivial
  | true =>
      apply (validateActiveSession_yields t.sub).bind
      · exact rest
      · exact fun user hread => (rest user hread).after

/-- A revoked token is refused. -/
theorem JwtPayload.Refused.of_revoked
    (h : ∀ u : User, d.lookup (Key.user t.sub) = some u → t.Revoked u) : t.Refused d := by
  have never : ∀ user, t.Passes d user → False := fun user hpass =>
    hpass.not_revoked (h _ hpass.2.1)
  constructor
  · exact validate_passes.mono fun r hpass => never r.1 hpass
  · exact refresh_passes.mono fun tokens ⟨user, hpass, _⟩ => never user hpass

/-- Renewing a token gives tokens of the same session. -/
theorem refresh_session :
    (refresh t).Yields fun tokens => ∀ t', tokens.Has t' → t'.session = t.session := by
  unfold refresh
  apply Prog.yields_bind
  intro _
  have hvalid : (validateActiveSession t.sub).Yields fun user => user.id = t.sub := by
    apply Prog.yields_of_from
    intro d
    exact (validateActiveSession_yields t.sub).mono fun user hread => hread.1
  apply hvalid.bind
  intro user hid
  apply (refuseIf_yields _).bind
  intro _ hgen
  have hcurrent : t.sgen.getD 0 = user.generation := by simpa using hgen
  apply Prog.yields_bind
  intro _ t' ht'
  have heq : t' = payloadFor user user.generation t.sid := by
    rcases ht' with rfl | rfl <;> rfl
  rw [heq]
  simp [JwtPayload.session, payloadFor, truthy_idem, hid, hcurrent]

theorem Obtained.session {t' : JwtPayload} (h : Obtained t t') : t'.session = t.session := by
  induction h with
  | self => rfl
  | refreshed _ hrefresh hmem ih => exact (refresh_session.returned hrefresh _ hmem).trans ih

end checks

/-! ### Tokens of a run -/

section issued
variable {c : Call} {r : c.Reply} {tokens : TokenPair} {t : JwtPayload}

/-- Both tokens of a pair stand for the session that was opened. -/
theorem Call.tokens_session (h : c.tokens r = some tokens) (ht : tokens.Has t) :
    t.session = tokens.accessToken.session := by
  have pair : ∀ (user : UserDocument) (generation : ℕ) (sid : Option String),
      (issueTokenPair user generation sid).Has t →
      t.session = (issueTokenPair user generation sid).accessToken.session := by
    intro user generation sid hhas
    rcases hhas with rfl | rfl <;> rfl
  cases c <;> cases h <;> exact pair _ _ _ ht

/-- A token with a session id comes from the call that opened that session. -/
theorem Call.tokens_sid (h : c.tokens r = some tokens) {sid : String}
    (hsid : truthy tokens.accessToken.sid = some sid) :
    ∃ cap, c.opens = some (tokens.accessToken.sub, sid, cap) := by
  have named : ∀ {s : String}, truthy (truthy (some s)) = some sid → s = sid := by
    intro s hs
    rw [truthy_idem] at hs
    exact Option.some.inj (Option.filter_eq_some_iff.mp hs).1
  cases c with
  | mobileLogin dto user =>
      cases h
      cases hsid
  | adminLogin dto user s cap =>
      cases h
      exact ⟨cap, by rw [← named hsid]; rfl⟩
  | signInByCode record holder s cap =>
      cases h
      exact ⟨cap, by rw [← named hsid]; rfl⟩
  | _ => cases h

end issued

section runs
variable {C : Crypto} {cfg : AuthConfig} {P : Event Doc Call.Reply → Prop} {init : Store Doc}
variable {log : List (Event Doc Call.Reply)} {s : Sys Doc Call.Reply HttpError Answer}

/-- The sign-in of a driver or client ends the sessions of the account it finds. -/
theorem mobileLogin_commit {i began ended : ℕ} {dto : LoginDto} {user : UserDocument}
    {base before after : Store Doc} {env : Env} {reply : ℕ} {view : View Doc}
    (hev : Event.Sound (machine C cfg)
      ⟨i, .mobileLogin dto user, base, env, began, ended, reply, view, before, after⟩)
    (holder : Store.Older base before) :
    ∃ u, base.account user.id = some u ∧ reply = u.generation + 1 ∧
      after.account user.id = some (u.revokeAllSessions (some .signedInElsewhere)) := by
  obtain ⟨u, hu, hreply, hself, -⟩ := displaceSessions_ok hev.ran
  have hne : view.find (Key.user user.id) ≠ base.find (Key.user user.id) := by
    intro heq
    rw [hself] at heq
    have hsame : u.revokeAllSessions (some .signedInElsewhere) = u :=
      Option.some.inj (heq.trans hu)
    have hgen := congrArg User.generation hsame
    simp at hgen
  obtain ⟨-, hafter⟩ := hev.written holder hne
  exact ⟨u, hu, hreply, hafter.trans hself⟩

/-- The account of a new token, as the sign-in leaves it. -/
theorem issued_account {ev : Event Doc Call.Reply} (hev : ev.Sound (machine C cfg))
    (hknown : Known C cfg ev) {tokens : TokenPair} (h : ev.label.tokens ev.reply = some tokens) :
    ∃ u, ev.after.account tokens.accessToken.sub = some u ∧
      tokens.accessToken.sgen.getD 0 ≤ u.generation := by
  have read : ∀ {user : UserDocument}, AccountRead ev.base user →
      ∃ u, ev.after.account user.id = some u ∧ user.generation ≤ u.generation := by
    intro user hread
    obtain ⟨u, hu, hon⟩ := (hknown.read hread).onward hknown.onward
    exact ⟨u, hu, hon.generation⟩
  obtain ⟨i, label, base, env, began, ended, reply, view, before, after⟩ := ev
  cases label with
  | mobileLogin dto user =>
      cases h
      obtain ⟨u, -, hreply, hafter⟩ := mobileLogin_commit hev hknown.older
      exact ⟨_, hafter, hreply.le⟩
  | adminLogin dto user sid cap =>
      cases h
      exact read hknown.checked.1
  | signInByCode record holder sid cap =>
      cases h
      exact read hknown.checked.1
  | _ => cases h

/-- What holds of a token and its account when it is issued, and survives every
step of the account, holds as long as the run goes on. -/
theorem issued_invariant {F : Event Doc Call.Reply → User → Prop}
    (stable : ∀ ev u u', F ev u → u.Onward u' → F ev u')
    (new : ∀ ev, ev.Sound (machine C cfg) → P ev → Known C cfg ev → ∀ tokens,
      ev.label.tokens ev.reply = some tokens →
      ∃ u, ev.after.account tokens.accessToken.sub = some u ∧ F ev u)
    (h : Run (machine C cfg) init P log s) :
    ∀ ev ∈ log, ∀ tokens, ev.label.tokens ev.reply = some tokens →
      ∃ u, s.store.account tokens.accessToken.sub = some u ∧ F ev u := by
  apply (known h).logged (J := fun log store => ∀ ev ∈ log, ∀ tokens,
    ev.label.tokens ev.reply = some tokens →
    ∃ u, store.account tokens.accessToken.sub = some u ∧ F ev u)
  · intro ev hev
    cases hev
  · intro log ev hsound hP ih ev' hmem tokens htokens
    rcases List.mem_cons.mp hmem with rfl | hold
    · exact new ev' hsound hP.1 hP.2 tokens htokens
    · obtain ⟨u, hu, hF⟩ := ih ev' hold tokens htokens
      obtain ⟨u', hu', hon⟩ := hP.2.onward _ u hu
      exact ⟨u', hu', stable ev' u u' hF hon⟩

/-- No token is ahead of its account. -/
theorem issued_generation (h : Run (machine C cfg) init P log s) :
    ∀ ev ∈ log, ∀ tokens, ev.label.tokens ev.reply = some tokens →
      ∃ u, s.store.account tokens.accessToken.sub = some u ∧
        tokens.accessToken.sgen.getD 0 ≤ u.generation := by
  intro ev hev tokens htokens
  have hall := issued_invariant (F := fun ev u => ∀ tokens,
    ev.label.tokens ev.reply = some tokens → tokens.accessToken.sgen.getD 0 ≤ u.generation)
    (fun ev u u' hF hon tokens htokens => (hF tokens htokens).trans hon.generation)
    (fun ev hsound _ hknown tokens htokens => by
      obtain ⟨u, hu, hle⟩ := issued_account hsound hknown htokens
      refine ⟨u, hu, fun tokens' htokens' => ?_⟩
      cases htokens.symm.trans htokens'
      exact hle) h ev hev tokens htokens
  obtain ⟨u, hu, hF⟩ := hall
  exact ⟨u, hu, hF tokens htokens⟩

end runs

/-! ### What requests answer -/

/-- What an answer owes to the last commit of its handler. -/
def Backs (c : Call) (r : c.Reply) : Answer → Prop
  | .session tokens => c.tokens r = some tokens
  | .refreshed presented tokens => ∀ t, tokens.Has t → t.session = presented.session
  | .passwordChanged resetToken => ∃ record passwordHash, c = .complete resetToken record passwordHash
  | _ => True

/-- Answers given without a commit. -/
def Unbacked : Answer → Prop
  | .session _ => False
  | .refreshed presented tokens => ∀ t, tokens.Has t → t.session = presented.session
  | .passwordChanged _ => False
  | _ => True

section answers
variable (C : Crypto) (cfg : AuthConfig)

/-- A session is opened by the commit that its tokens name. -/
abbrev Opens (p : Handler TokenPair) : Prop :=
  p.Answers (fun c r tokens => c.tokens r = some tokens) fun _ => False

theorem login_opens (dto : LoginDto) (sid : String) : Opens (login C cfg dto sid) := by
  apply Prog.Answers.reads Prog.calls_scan
  intro docs
  apply Prog.Answers.reads require_calls
  intro user
  apply Prog.Answers.reads refuseIf_calls
  intro _
  apply Prog.Answers.reads (validateActiveSession_calls _)
  intro _
  split_ifs
  · apply Prog.Answers.perform
    intro _
    rfl
  · apply Prog.Answers.perform
    intro _
    apply Prog.Answers.reads sideEffect_calls
    intro _
    rfl

theorem settleCode_opens (record : Option LoginCodeDocument) (sid : String)
    (result : Otp.OtpVerifyResult) (B : TokenPair → Prop) :
    (settleCode cfg record sid result).Answers (fun c r tokens => c.tokens r = some tokens) B := by
  unfold settleCode
  split
  · apply Prog.Answers.reads (findById_calls _)
    intro holder
    apply Prog.Answers.perform
    intro _
    apply Prog.Answers.reads sideEffect_calls
    intro _
    rfl
  · apply Prog.Yields.answers
    exact Prog.yields_bind fun _ => trivial
  · apply Prog.Yields.answers
    exact Prog.yields_bind fun _ => Prog.yields_bind fun _ => Prog.yields_bind fun _ => trivial

theorem verifyCode_opens (phone code sid : String) : Opens (verifyCode cfg phone code sid) := by
  apply Prog.Answers.reads checkOutside_calls
  intro _
  apply Prog.Answers.reads Prog.calls_scan
  intro docs
  apply Prog.Answers.perform
  intro result
  exact settleCode_opens cfg _ _ _ _

theorem complete_answers (resetToken newPassword salt : String) :
    (complete C resetToken newPassword salt).Answers
      (fun c _ _ => ∃ record passwordHash, c = .complete resetToken record passwordHash)
      fun _ => False := by
  apply Prog.Answers.reads Prog.calls_scan
  intro docs
  apply Prog.Answers.reads require_calls
  intro record
  apply Prog.Answers.reads Prog.calls_getTime
  intro now
  apply Prog.Answers.reads refuseIf_calls
  intro _
  constructor
  · intro _
    exact ⟨record, _, rfl⟩
  · intro _
    trivial

theorem handle_answers (q : Request) : (handle C cfg q).Answers Backs Unbacked := by
  have plain : ∀ {α : Type} (p : Handler α) (f : α → Answer), (∀ a, Unbacked (f a)) →
      (∀ c r a, Backs c r (f a)) → (p >>= fun a => pure (f a)).Answers Backs Unbacked :=
    fun _ _ hB hT => Prog.answers_true.map (fun a _ => hB a) fun l r a _ => hT l r a
  cases q with
  | login dto sid =>
      exact Prog.Answers.map (login_opens C cfg dto sid) (fun _ h => h.elim) fun _ _ _ h => h
  | verifyCode phone code sid =>
      exact Prog.Answers.map (verifyCode_opens cfg phone code sid) (fun _ h => h.elim) fun _ _ _ h => h
  | completeReset resetToken newPassword salt =>
      apply (complete_answers C resetToken newPassword salt).map
      · intro _ h
        exact h.elim
      · intro _ _ _ h
        exact h
  | refresh payload =>
      apply Prog.Yields.answered
      · exact (refresh_calls payload).bind fun _ => trivial
      · exact refresh_session.bind fun tokens h => h
  | createUser => exact plain _ (fun _ => .done) (fun _ => trivial) fun _ _ _ => trivial
  | putCompany => exact plain _ (fun _ => .done) (fun _ => trivial) fun _ _ _ => trivial
  | activate => exact plain _ _ (fun _ => trivial) fun _ _ _ => trivial
  | deactivate => exact plain _ _ (fun _ => trivial) fun _ _ _ => trivial
  | logout => exact plain _ (fun _ => .done) (fun _ => trivial) fun _ _ _ => trivial
  | authenticate => exact plain _ _ (fun _ => trivial) fun _ _ _ => trivial
  | requestReset => exact plain _ _ (fun _ => trivial) fun _ _ _ => trivial
  | verifyReset => exact plain _ _ (fun _ => trivial) fun _ _ _ => trivial
  | requestCode => exact plain _ _ (fun _ => trivial) fun _ _ _ => trivial
  | purgeExpired => exact plain _ (fun _ => .done) (fun _ => trivial) fun _ _ _ => trivial

end answers

/-- Every pair of tokens that a request has returned was issued by a commit of its
own, or renews the session of the token it presented. -/
theorem answered {C : Crypto} {cfg : AuthConfig} {P : Event Doc Call.Reply → Prop}
    {init : Store Doc} {log : List (Event Doc Call.Reply)}
    {s : Sys Doc Call.Reply HttpError Answer} (h : Run (machine C cfg) init P log s) {i : ℕ}
    {t : Thread Doc Call.Reply HttpError Answer} {a : Answer} (ht : s.threads[i]? = some t)
    (hpure : t.prog = .pure a) :
    Unbacked a ∨ ∃ ev ∈ log, ev.thread = i ∧ Backs ev.label ev.reply a :=
  h.answered (fun q _ _ _ => handle_answers C cfg q) ht hpure

end CiroFuel.Auth
