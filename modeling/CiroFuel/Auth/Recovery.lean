import CiroFuel.Auth.Revocation

/-!
# Recovering an account ends the old password

A completed reset changes the password and counts a revocation. An administrator's
sign-in issues its tokens at the count it read together with the password, so they
fall behind. The sign-in of a driver or client counts a revocation itself and
issues its tokens at the new count: they hold even if the password it compared was
replaced before its commit.
-/
namespace CiroFuel.Auth
open Snapshot

/-- The password that a sign-in presented. -/
def Call.presents : Call → Option String
  | .mobileLogin dto _ => some dto.password
  | .adminLogin dto _ _ _ => some dto.password
  | _ => none

/-- The password hash that a completed reset gives to the account. -/
def Call.setsPassword (id : Id) : Call → Option String
  | .complete _ record passwordHash => if record.userId = id then some passwordHash else none
  | _ => none

/-- The commit is not the sign-in of a driver or client whose password was replaced
after it had been compared. -/
def comparedCurrent (ev : Event Doc Call.Reply) : Bool :=
  match ev.label with
  | .mobileLogin _ user =>
      (ev.base.account user.id).all fun u => u.passwordHash = user.passwordHash
  | _ => true

/-! ### Which password an account has -/

section password
variable {C : Crypto} {cfg : AuthConfig} {id : Id} {ev : Event Doc Call.Reply}

theorem AccountStep.password {time : ℕ → Instant} {c : Call} {u u' : User}
    (h : AccountStep time c id (some u) (some u')) :
    u'.passwordHash = u.passwordHash ∨ c.setsPassword id = some u'.passwordHash := by
  cases h with
  | reset _ hcall hid =>
      right
      rw [hcall]
      exact if_pos hid
  | _ => exact Or.inl rfl

/-- A completed reset leaves the account with the new password. -/
theorem reset_password (hev : ev.Sound (machine C cfg)) (holder : Store.Older ev.base ev.before)
    {passwordHash : String} (hsets : ev.label.setsPassword id = some passwordHash) :
    ∃ u, ev.after.account id = some u ∧ u.passwordHash = passwordHash := by
  obtain ⟨i, label, base, env, began, ended, reply, view, before, after⟩ := ev
  cases label with
  | complete resetToken record hash =>
      have hif : (if record.userId = id then some hash else none) = some passwordHash := hsets
      split_ifs at hif with hid
      cases hif
      subst hid
      obtain ⟨u, t, hu, hself, -⟩ := completeReset_ok hev.ran
      have hne : view.find (Key.user record.userId) ≠ base.find (Key.user record.userId) := by
        intro heq
        rw [hself] at heq
        have hsame : u.revokeAndSetPassword passwordHash = u := Option.some.inj (heq.trans hu)
        have hgen := congrArg User.generation hsame
        simp at hgen
      obtain ⟨-, hafter⟩ := hev.written holder hne
      exact ⟨_, hafter.trans hself, rfl⟩
  | _ => cases hsets

/-- A password that no reset sets again is not the account's. -/
theorem password_replaced {init : Store Doc} {P : Event Doc Call.Reply → Prop}
    {later earlier : List (Event Doc Call.Reply)} {reset : Event Doc Call.Reply}
    {s : Sys Doc Call.Reply HttpError Answer} {hash password : String}
    (h : Run (machine C cfg) init P (later ++ reset :: earlier) s)
    (hreset : reset.label.setsPassword id = some hash)
    (hold : ∀ ev ∈ later ++ [reset], ∀ hash, ev.label.setsPassword id = some hash →
      C.bcryptCompare password hash = false) :
    ∃ u, s.store.account id = some u ∧ C.bcryptCompare password u.passwordHash = false := by
  have hknown := known h
  apply hknown.since (J := fun store => ∃ u, store.account id = some u ∧
    C.bcryptCompare password u.passwordHash = false)
  · obtain ⟨hsound, hP, -⟩ := hknown.upTo
    obtain ⟨u, hu, hhash⟩ := reset_password hsound hP.2.older hreset
    refine ⟨u, hu, ?_⟩
    rw [hhash]
    exact hold reset (by simp) hash hreset
  · rintro ev hev hsound hP ⟨u, hu, hwrong⟩
    obtain ⟨u', hu', -⟩ := hP.2.onward id u hu
    refine ⟨u', hu', ?_⟩
    have hstep := account_step hsound hP.2.older id
    rw [hu, hu'] at hstep
    rcases hstep.password with hsame | hset
    · rwa [hsame]
    · exact hold ev (List.mem_append_left _ hev) _ hset

end password

/-! ### Tokens and the password they were obtained with -/

/-- A token that has not fallen behind was obtained with the password of the account. -/
def Honest (C : Crypto) (ev : Event Doc Call.Reply) (u : User) : Prop :=
  ∀ tokens password, ev.label.tokens ev.reply = some tokens → ev.label.presents = some password →
    tokens.accessToken.sgen.getD 0 ≤ u.generation ∧
      (tokens.accessToken.sgen.getD 0 = u.generation →
        C.bcryptCompare password u.passwordHash = true)

section honest
variable {C : Crypto} {cfg : AuthConfig} {ev : Event Doc Call.Reply} {u u' : User}

theorem Honest.onward (h : Honest C ev u) (hon : u.Onward u') : Honest C ev u' := by
  intro tokens password htokens hpresents
  obtain ⟨hle, hcurrent⟩ := h tokens password htokens hpresents
  have hgen := hon.generation
  constructor
  · exact hle.trans hgen
  · intro heq
    rw [hon.password (by omega)]
    exact hcurrent (by omega)

/-- A sign-in is honest when it commits. -/
theorem commit_honest (hev : ev.Sound (machine C cfg)) (hcurrent : comparedCurrent ev = true)
    (hknown : Known C cfg ev) {tokens : TokenPair}
    (h : ev.label.tokens ev.reply = some tokens) :
    ∃ u, ev.after.account tokens.accessToken.sub = some u ∧ Honest C ev u := by
  obtain ⟨u, hu, hle⟩ := issued_account hev hknown h
  refine ⟨u, hu, fun tokens' password htokens hpresents => ?_⟩
  cases h.symm.trans htokens
  refine ⟨hle, fun heq => ?_⟩
  obtain ⟨i, label, base, env, began, ended, reply, view, before, after⟩ := ev
  cases label with
  | mobileLogin dto user =>
      cases h
      cases hpresents
      obtain ⟨u₀, hbase, -, hafter⟩ := mobileLogin_commit hev hknown.older
      have hsame : u = u₀.revokeAllSessions (some .signedInElsewhere) :=
        Option.some.inj (hu.symm.trans hafter)
      have hall : (base.account user.id).all (fun u => u.passwordHash = user.passwordHash) = true :=
        hcurrent
      have hstored : u₀.passwordHash = user.passwordHash := by simpa [hbase] using hall
      have hpassword : u.passwordHash = user.passwordHash := by rw [hsame, ← hstored]; rfl
      rw [hpassword]
      exact hknown.checked.2.1
  | adminLogin dto user sid cap =>
      cases h
      cases hpresents
      obtain ⟨u₁, hu₁, hon⟩ := (hknown.read hknown.checked.1).onward hknown.onward
      cases hu.symm.trans hu₁
      rw [hon.password heq.symm]
      exact hknown.checked.2.1
  | _ => cases hpresents

end honest

/-- Unless a driver or client signs in with a password that was replaced after it had
been compared, no token obtained with an old password is accepted after the reset. -/
theorem old_password_ended (C : Crypto) (cfg : AuthConfig) (init : Store Doc)
    {later earlier : List (Event Doc Call.Reply)} {reset : Event Doc Call.Reply}
    {s : Sys Doc Call.Reply HttpError Answer} {id : Id} {hash password : String}
    (h : Run (machine C cfg) init (fun ev => comparedCurrent ev = true)
      (later ++ reset :: earlier) s)
    (hreset : reset.label.setsPassword id = some hash)
    (hold : ∀ ev ∈ later ++ [reset], ∀ hash, ev.label.setsPassword id = some hash →
      C.bcryptCompare password hash = false)
    {ev : Event Doc Call.Reply} (hev : ev ∈ later ++ reset :: earlier)
    (hpresents : ev.label.presents = some password) {tokens : TokenPair}
    (htokens : ev.label.tokens ev.reply = some tokens) (hid : tokens.accessToken.sub = id)
    {t t' : JwtPayload} (ht : tokens.Has t) (hobtained : Obtained t t') :
    t'.Refused s.store.docs := by
  obtain ⟨u, hu, hwrong⟩ := password_replaced h hreset hold
  obtain ⟨u', hu', hhonest⟩ := issued_invariant (F := Honest C) (fun _ _ _ => Honest.onward)
    (fun _ hsound hcurrent hknown _ => commit_honest hsound hcurrent hknown) h ev hev tokens htokens
  rw [hid] at hu'
  cases hu.symm.trans hu'
  obtain ⟨-, hcurrent⟩ := hhonest tokens password htokens hpresents
  have hsession := hobtained.session.trans (Call.tokens_session htokens ht)
  simp only [JwtPayload.session, Prod.mk.injEq] at hsession
  obtain ⟨hsub, hgen, -⟩ := hsession
  apply JwtPayload.Refused.of_revoked
  intro u₁ hu₁
  rw [hsub, hid] at hu₁
  cases hu.symm.trans hu₁
  left
  intro heq
  rw [hcurrent (hgen.symm.trans heq)] at hwrong
  cases hwrong

/-- A current token of an active driver or client without a company is accepted. -/
theorem accepted_of_current {t : JwtPayload} {d : Docs Doc} {u : User}
    (hu : d.lookup (Key.user t.sub) = some u) (hactive : u.isActive = true)
    (hcompany : u.companyId = none) (hrole : isSessionCappedRole u.role = false)
    (hgen : t.sgen.getD 0 = u.generation) : ¬ t.Refused d := by
  intro h
  have hvalid := h.validate
  unfold validateActiveSessionWithScoping loadActiveUser at hvalid
  simp only [Bind.bind, Prog.bind, Prog.find, Prog.Refused, Prog.YieldsFrom] at hvalid
  rw [hu] at hvalid
  simp only [Option.map_some, User.withId, hactive, hcompany] at hvalid
  cases hr : u.role <;>
  · rw [hr] at hrole
    simp [hr, hrole, hgen, Prog.bind, pure, Handler.require, Option.filter, Prog.Yields,
      checkSid] at hvalid

namespace Sample

def driver : NewUser :=
  { role := .driver, email := "driver@ciro", fullName := "Driver", phone := "+202" }

def driverDocument : UserDocument := (userOf driver "old").withId 10

def driverLogin : Request := .login { phone := some "+202", password := "old" } ""

/-- A driver has a verified code for a new password. -/
def recovering : List (Act Request) :=
  serving (Request.createUser driver "old" "") 0 2 10 ++
    serving (Request.requestReset "+202" "123456" "salt") 1 12 20 ++
    serving (Request.verifyReset "+202" "123456" "token") 2 6 30

/-- The driver signs in, and then the reset completes. -/
def recovered : List (Act Request) :=
  recovering ++ serving driverLogin 3 5 40 ++ serving (Request.completeReset "token" "new" "") 4 4 50

/-- A sign-in compares the old password, and the reset completes before it goes on. -/
def overtaken : List (Act Request) :=
  recovering ++ [Act.arrive driverLogin] ++ List.replicate 2 (Act.step 3 true 40) ++
    serving (Request.completeReset "token" "new" "") 4 4 50 ++ List.replicate 3 (Act.step 3 true 60)

/-- The reset gives the driver a password that differs from the old one. -/
def resets (ev : Event Doc Call.Reply) : Bool := ev.label.setsPassword 10 = some "new"

/-- The driver signs in with the old password, at the given count. -/
def signsIn (generation : ℕ) (ev : Event Doc Call.Reply) : Bool :=
  ev.label.setsPassword 10 = none && ev.label.presents = some "old" &&
    ev.label.tokens ev.reply = some (issueTokenPair driverDocument generation none)

/-- The last two commits of the log, the latest first. -/
def latest (p : Event Doc Call.Reply → Event Doc Call.Reply → Bool) :
    List (Event Doc Call.Reply) → Bool
  | second :: first :: _ => p second first
  | _ => false

end Sample

theorem old_password_survives : ∃ later earlier reset ev s tokens,
    Run (machine Sample.crypto {}) Store.empty (fun _ => True) (later ++ reset :: earlier) s ∧
      reset.label.setsPassword 10 = some "new" ∧
      (∀ ev ∈ later ++ [reset], ∀ hash, ev.label.setsPassword 10 = some hash →
        Sample.crypto.bcryptCompare "old" hash = false) ∧
      ev ∈ later ++ reset :: earlier ∧ ev.label.presents = some "old" ∧
      ev.label.tokens ev.reply = some tokens ∧ tokens.accessToken.sub = 10 ∧
      ¬ tokens.accessToken.Refused s.store.docs := by
  obtain ⟨log, s, hrun, htest⟩ := exists_run (machine Sample.crypto {}) Store.empty
    (fun _ => True) Sample.overtaken
    (fun log s => Sample.latest (fun login reset => Sample.signsIn 2 login &&
      Sample.resets reset && (s.store.account 10).any fun u => u.isActive && u.companyId = none &&
        !isSessionCappedRole u.role && u.generation = 2) log) (by decide +kernel)
  unfold Sample.latest at htest
  split at htest
  · rename_i login reset earlier
    simp only [Sample.signsIn, Sample.resets, Bool.and_eq_true, decide_eq_true_eq,
      Option.any_eq_true, Bool.not_eq_true'] at htest
    obtain ⟨⟨⟨⟨hother, hpresents⟩, htokens⟩, hreset⟩, u, hu, ⟨⟨hactive, hcompany⟩, hrole⟩, hgen⟩ :=
      htest
    refine ⟨[login], earlier, reset, login, s, _, hrun, hreset, ?_, by simp, hpresents, htokens, rfl,
      accepted_of_current hu hactive hcompany hrole hgen.symm⟩
    intro ev hev hash hsets
    rcases List.mem_append.mp hev with hlogin | hlast
    · rw [List.mem_singleton.mp hlogin, hother] at hsets
      cases hsets
    · rw [List.mem_singleton.mp hlast, hreset] at hsets
      cases hsets
      decide
  · cases htest

theorem old_password_ended_recovered : ∃ log s, Run (machine Sample.crypto {}) Store.empty
    (fun ev => comparedCurrent ev = true) log s ∧
    (payloadFor Sample.driverDocument 1 none).Refused s.store.docs := by
  obtain ⟨log, s, hrun, htest⟩ := exists_run (machine Sample.crypto {}) Store.empty
    (fun ev => comparedCurrent ev = true) Sample.recovered
    (fun log _ => Sample.latest (fun reset login => Sample.resets reset && Sample.signsIn 1 login)
      log) (by decide +kernel)
  unfold Sample.latest at htest
  split at htest
  · rename_i reset login earlier
    simp only [Sample.signsIn, Sample.resets, Bool.and_eq_true, decide_eq_true_eq] at htest
    obtain ⟨hreset, ⟨hother, hpresents⟩, htokens⟩ := htest
    refine ⟨_, s, hrun, ?_⟩
    have hrun' : Run (machine Sample.crypto {}) Store.empty (fun ev => comparedCurrent ev = true)
      ([] ++ reset :: login :: earlier) s := hrun
    apply old_password_ended Sample.crypto {} Store.empty hrun' hreset ?_
      (List.mem_cons_of_mem _ List.mem_cons_self) hpresents htokens rfl (Or.inl rfl) .self
    intro ev hev hash hsets
    rw [List.mem_singleton.mp hev, hreset] at hsets
    cases hsets
    decide
  · cases htest

end CiroFuel.Auth
