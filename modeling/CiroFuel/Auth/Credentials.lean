import CiroFuel.Auth.Recovery

/-!
# Credentials are spent once

Completing a reset and signing in by a code consume a record that was read before
the transaction began; the transaction itself does not look whether the record is
still unconsumed. As long as it is, at every such commit, a record is spent once:
two transactions that both saw it unconsumed both write it, so one of them aborts.
-/
namespace CiroFuel.Auth
open Snapshot

/-- The token that a call presents to set a new password. -/
def Call.resetToken : Call → Option String
  | .complete resetToken _ _ => some resetToken
  | _ => none

/-- The calls around a code that write no account. -/
def Call.keepsAccounts : Call → Bool
  | .recordEvent .. | .verifyOtp .. | .addAttempt .. | .setVerified .. => true
  | _ => false

/-- A call that consumes a record finds it stored and unconsumed. -/
def spendsUnconsumed (ev : Event Doc Call.Reply) : Bool :=
  match ev.label.spends with
  | some k => (slot ev.base k).any fun x => x.any fun r => r.consumedAt.isNone
  | none => true

/-- The record that a call draws a token for, and the hash of the token. -/
def Call.drawnToken : Call → Option (Id × String)
  | .setVerified id tokenHash => some (id, tokenHash)
  | _ => none

def drawnTokens (log : List (Event Doc Call.Reply)) : List (Id × String) :=
  log.filterMap fun ev => ev.label.drawnToken

/-- No token was drawn for two records. -/
def DistinctTokens (log : List (Event Doc Call.Reply)) : Prop :=
  ∀ t ∈ drawnTokens log, ∀ t' ∈ drawnTokens log, t.2 = t'.2 → t.1 = t'.1

instance (log : List (Event Doc Call.Reply)) : Decidable (DistinctTokens log) :=
  inferInstanceAs (Decidable (∀ t ∈ drawnTokens log, ∀ t' ∈ drawnTokens log, t.2 = t'.2 → t.1 = t'.1))

theorem mem_drawnTokens {log : List (Event Doc Call.Reply)} {ev : Event Doc Call.Reply}
    (hev : ev ∈ log) {id : Id} {tokenHash : String} (h : ev.label = .setVerified id tokenHash) :
    (id, tokenHash) ∈ drawnTokens log := by
  apply List.mem_filterMap.mpr
  refine ⟨ev, hev, ?_⟩
  rw [h]
  rfl

/-! ### Records that have been spent -/

/-- The record is consumed, or it has been removed. -/
def Spent (x : Option (Option LoginCode)) : Prop :=
  ∃ y, x = some y ∧ ∀ r, y = some r → r.consumedAt.isSome = true

theorem CodeStep.spent {c : Call} {k : CodeKey} {x x' : Option (Option LoginCode)}
    (h : CodeStep c k x x') (hspent : Spent x) : Spent x' := by
  obtain ⟨y, rfl, hy⟩ := hspent
  cases h with
  | same => exact ⟨y, rfl, hy⟩
  | counted r hcall =>
      refine ⟨_, rfl, fun r' hr' => ?_⟩
      cases hr'
      exact hy r rfl
  | consumed r t hcall =>
      refine ⟨_, rfl, fun r' hr' => ?_⟩
      cases hr'
      rfl
  | removed r =>
      refine ⟨_, rfl, fun r' hr' => ?_⟩
      cases hr'

section commits
variable {C : Crypto} {cfg : AuthConfig} {ev : Event Doc Call.Reply} {k : CodeKey}

/-- A record found unconsumed is current in the snapshot, and is spent by the commit. -/
theorem spend_commit (hev : ev.Sound (machine C cfg)) (holder : Store.Older ev.base ev.before)
    (hspends : ev.label.spends = some k) (hfresh : spendsUnconsumed ev = true) :
    ¬ Spent (slot ev.before k) ∧ Spent (slot ev.after k) := by
  rw [spendsUnconsumed, hspends] at hfresh
  obtain ⟨x, hx, hany⟩ := (Option.any_eq_true _ _).mp hfresh
  obtain ⟨r, rfl, hnone⟩ := (Option.any_eq_true _ _).mp hany
  -- The body consumes the record, so the transaction has written it.
  have written : slot ev.before k = slot ev.base k ∧
      ∃ t, slot ev.after k = some (some { r with consumedAt := some t }) := by
    obtain ⟨i, label, base, env, began, ended, reply, view, before, after⟩ := ev
    cases label with
    | complete resetToken record passwordHash =>
        cases hspends
        obtain ⟨u, t, -, -, hself, -⟩ := completeReset_ok hev.ran
        obtain ⟨y, hy, hcode⟩ := Option.map_eq_some_iff.mp hx
        obtain ⟨reset, rfl, rfl⟩ := Option.map_eq_some_iff.mp hcode
        have hbase : (View.start base.docs).find (Key.passwordReset record.id) =
            some (some reset) := hy
        rw [hbase] at hself
        rcases hev.cases holder (Key.passwordReset record.id) with ⟨hbefore, hafter⟩ | ⟨hview, -⟩
        · have hbefore' : base.find (Key.passwordReset record.id) =
              before.find (Key.passwordReset record.id) := hbefore
          have hafter' : after.find (Key.passwordReset record.id) =
              view.find (Key.passwordReset record.id) := hafter
          constructor
          · rw [slot, slot, hbefore']
          · refine ⟨t, ?_⟩
            rw [slot, hafter', hself]
            rfl
        · have hsame : some (some { reset with consumedAt := some t }) = some (some reset) :=
            hself.symm.trans (hview.trans hy)
          have hconsumed := congrArg (fun r : PasswordReset => r.toLoginCode.consumedAt)
            (Option.some.inj (Option.some.inj hsame))
          have hunused : reset.toLoginCode.consumedAt = none := by simpa using hnone
          cases hconsumed.trans hunused
    | signInByCode record holder sid cap =>
        cases hspends
        obtain ⟨u, i, t, -, -, -, -, hself, -⟩ := consumeLoginCode_ok hev.ran
        have hbase : (View.start base.docs).find (Key.loginCode record.id) = some (some r) := hx
        rw [hbase] at hself
        rcases hev.cases holder (Key.loginCode record.id) with ⟨hbefore, hafter⟩ | ⟨hview, -⟩
        · exact ⟨hbefore.symm, t, hafter.trans hself⟩
        · have hsame : some (some { r with consumedAt := some t }) = some (some r) :=
            hself.symm.trans (hview.trans hx)
          have hconsumed := congrArg LoginCode.consumedAt (Option.some.inj (Option.some.inj hsame))
          have hunused : r.consumedAt = none := by simpa using hnone
          cases hconsumed.trans hunused
    | _ => cases hspends
  obtain ⟨hbefore, t, hafter⟩ := written
  constructor
  · rintro ⟨y, hy, hspent⟩
    rw [hbefore, hx] at hy
    cases hy
    have hconsumed := hspent r rfl
    rw [Option.isNone_iff_eq_none.mp hnone] at hconsumed
    cases hconsumed
  · refine ⟨_, hafter, fun r' hr' => ?_⟩
    cases hr'
    rfl

theorem AccountStep.kept {time : ℕ → Instant} {c : Call} {id : Id} {o o' : Option User}
    (h : AccountStep time c id o o') (hkeeps : c.keepsAccounts = true) : o' = o := by
  have not_kept : ∀ {c' : Call}, c'.keepsAccounts = false → c ≠ c' := by
    rintro c' hc' rfl
    rw [hkeeps] at hc'
    cases hc'
  have not_ending : ¬ c.EndsAll id := by
    cases c <;> first | exact not_false | cases hkeeps
  have not_opening : c.opens = none := by
    cases c <;> first | rfl | cases hkeeps
  cases h with
  | same => rfl
  | created data passwordHash hcall => exact absurd hcall (not_kept rfl)
  | activated u hcall => exact absurd hcall (not_kept rfl)
  | deactivated u hcall => exact absurd hcall not_ending
  | released u hcall => exact absurd hcall not_ending
  | ended u cause hcall => exact absurd hcall not_ending
  | closed u hcall => exact absurd hcall (not_kept rfl)
  | reset u hcall => exact absurd hcall (not_kept rfl)
  | opened u i hcall => cases not_opening.symm.trans hcall

end commits

section runs
variable {C : Crypto} {cfg : AuthConfig} {P : Event Doc Call.Reply → Prop}
variable {log : List (Event Doc Call.Reply)} {s : Sys Doc Call.Reply HttpError Answer}

/-- A record that is unconsumed whenever it is spent is spent once. -/
theorem spends_once {init : Store Doc} (h : Run (machine C cfg) init P log s)
    (hfresh : ∀ ev, P ev → spendsUnconsumed ev = true) (k : CodeKey) :
    log.countP (fun ev => ev.label.spends = some k) ≤ 1 := by
  have hall := (known h).logged (J := fun log store =>
    log.countP (fun ev => ev.label.spends = some k) ≤ 1 ∧
      (0 < log.countP (fun ev => ev.label.spends = some k) → Spent (slot store k)))
    ⟨Nat.zero_le _, fun hpos => absurd hpos (Nat.lt_irrefl 0)⟩ ?_
  · exact hall.1
  · rintro log ev hsound hP ⟨hcount, hspent⟩
    by_cases hspends : ev.label.spends = some k
    · obtain ⟨hbefore, hafter⟩ := spend_commit hsound hP.2.older hspends (hfresh ev hP.1)
      have hzero : log.countP (fun ev => ev.label.spends = some k) = 0 := by
        by_contra hne
        exact hbefore (hspent (Nat.pos_of_ne_zero hne))
      rw [List.countP_cons_of_pos (by simpa using hspends), hzero]
      exact ⟨le_rfl, fun _ => hafter⟩
    · rw [List.countP_cons_of_neg (by simpa using hspends)]
      exact ⟨hcount, fun hpos => (code_step hsound hP.2.older k).spent (hspent hpos)⟩

/-- Completions that present one token spend one record. -/
theorem token_once (h : Run (machine C cfg) Store.empty P log s)
    (hfresh : ∀ ev, P ev → spendsUnconsumed ev = true) (hdistinct : DistinctTokens log)
    (resetToken : String) : log.countP (fun ev => ev.label.resetToken = some resetToken) ≤ 1 := by
  let drawn : Drawn := fun id tokenHash => (id, tokenHash) ∈ drawnTokens log
  have hempty : TokensDrawn drawn Store.empty := fun id r tokenHash hr _ => by cases hr
  have hdrawn := completions_drawn hempty
    (fun ev hev id tokenHash hcall => mem_drawnTokens hev.2 hcall) h.within
  by_cases hsome : ∃ ev ∈ log, ev.label.resetToken = some resetToken
  · obtain ⟨ev, hev, htoken⟩ := hsome
    have labelled : ∀ c : Call, c.resetToken = some resetToken →
        ∃ record passwordHash, c = .complete resetToken record passwordHash := by
      intro c hc
      cases c with
      | complete token record passwordHash =>
          cases hc
          exact ⟨record, passwordHash, rfl⟩
      | _ => cases hc
    obtain ⟨record, passwordHash, hlabel⟩ := labelled _ htoken
    have hset := hdrawn ev hev _ _ _ hlabel
    refine le_trans (List.countP_mono_left fun ev' hev' htoken' => ?_)
      (spends_once h hfresh (.passwordReset record.id))
    obtain ⟨record', passwordHash', hlabel'⟩ := labelled _ (of_decide_eq_true htoken')
    have hset' := hdrawn ev' hev' _ _ _ hlabel'
    have hid : record'.id = record.id := hdistinct _ hset' _ hset rfl
    rw [hlabel']
    simp [Call.spends, hid]
  · have hzero : log.countP (fun ev => ev.label.resetToken = some resetToken) = 0 := by
      apply List.countP_eq_zero.mpr
      intro ev hev htoken
      exact hsome ⟨ev, hev, of_decide_eq_true htoken⟩
    omega

end runs

/-! ### The calls of a request that presents a credential -/

section handlers
variable (C : Crypto) (cfg : AuthConfig)

theorem completeReset_calls (resetToken newPassword salt : String) :
    (handle C cfg (.completeReset resetToken newPassword salt)).Calls fun c =>
      c.resetToken = some resetToken := by
  apply Prog.Calls.bind
  · apply Prog.calls_scan.bind
    intro docs
    apply require_calls.bind
    intro record
    apply Prog.calls_getTime.bind
    intro now
    apply refuseIf_calls.bind
    intro _
    exact Prog.calls_perform rfl
  · intro _
    trivial

theorem verifyCode_calls (phone code sid : String) :
    (handle C cfg (.verifyCode phone code sid)).Calls fun c =>
      c.keepsAccounts = true ∨ ∃ id, c.spends = some (.loginCode id) := by
  have kept : ∀ {l : Call}, l.keepsAccounts = true →
      (Handler.perform l).Calls fun c => c.keepsAccounts = true ∨ ∃ id, c.spends = some (.loginCode id) :=
    fun hl => Prog.calls_perform (Or.inl hl)
  apply Prog.Calls.bind
  · apply checkOutside_calls.bind
    intro _
    apply Prog.calls_scan.bind
    intro docs
    apply (kept rfl).bind
    intro result
    unfold settleCode
    split
    · apply (findById_calls _).bind
      intro holder
      apply Prog.Calls.bind
      · exact Prog.calls_perform (Or.inr ⟨_, rfl⟩)
      · intro _
        exact sideEffect_calls.bind fun _ => trivial
    · exact sideEffect_calls.bind fun _ => trivial
    · apply Prog.Calls.bind
      · unfold countMismatch
        split_ifs
        · exact (kept rfl).bind fun _ => trivial
        · trivial
      · intro _
        apply sideEffect_calls.bind
        intro _
        apply Prog.Calls.bind
        · exact (findById_calls _).bind fun _ => kept rfl
        · intro _
          trivial
  · intro _
    trivial

end handlers

/-- While every credential is still unconsumed when it is spent, it is spent once, only
its spender succeeds, and nothing else that a holder of it does changes an account. -/
theorem credential_spent_once (C : Crypto) (cfg : AuthConfig) {log : List (Event Doc Call.Reply)}
    {s : Sys Doc Call.Reply HttpError Answer}
    (h : Run (machine C cfg) Store.empty (fun ev => spendsUnconsumed ev = true) log s)
    (hdistinct : DistinctTokens log) :
    (∀ resetToken, log.countP (fun ev => ev.label.resetToken = some resetToken) ≤ 1) ∧
    (∀ id, log.countP (fun ev => ev.label.spends = some (.loginCode id)) ≤ 1) ∧
    (∀ i t a, s.threads[i]? = some t → t.prog = .pure a →
      Unbacked a ∨ ∃ ev ∈ log, ev.thread = i ∧ Backs ev.label ev.reply a) ∧
    (∀ resetToken newPassword salt,
      (handle C cfg (.completeReset resetToken newPassword salt)).Calls fun c =>
        c.resetToken = some resetToken) ∧
    (∀ phone code sid, (handle C cfg (.verifyCode phone code sid)).Calls fun c =>
      c.keepsAccounts = true ∨ ∃ id, c.spends = some (.loginCode id)) ∧
    ∀ ev ∈ log, ev.label.keepsAccounts = true → ∀ id, ev.after.account id = ev.before.account id := by
  refine ⟨token_once h (fun _ hev => hev) hdistinct, fun id => spends_once h (fun _ hev => hev) _,
    fun i t a ht hpure => answered h ht hpure, completeReset_calls C cfg, verifyCode_calls C cfg, ?_⟩
  intro ev hev hkeeps id
  obtain ⟨hsound, hP⟩ := (known h).mem hev
  exact (account_step hsound hP.2.older id).kept hkeeps

namespace Sample

/-- Two requests with one token both find the reset before either completes it. -/
def completesTwice : List (Act Request) :=
  recovering ++ [Act.arrive (Request.completeReset "token" "new" "")] ++ List.replicate 2 (Act.step 3) ++
    [Act.arrive (Request.completeReset "token" "newer" "")] ++ List.replicate 2 (Act.step 4) ++
    List.replicate 2 (Act.step 3 true 50) ++ List.replicate 2 (Act.step 4 true 60)

/-- An administrator has a code to sign in with. -/
def codeSent : List (Act Request) :=
  serving (Request.createUser admin "secret" "") 0 2 10 ++
    serving (Request.requestCode "+201" "123456" "salt") 1 11 20

/-- Two requests with one code both compare it before either consumes it. -/
def signsInTwiceByCode : List (Act Request) :=
  codeSent ++ [Act.arrive (Request.verifyCode "+201" "123456" "first")] ++
    List.replicate 5 (Act.step 2) ++
    [Act.arrive (Request.verifyCode "+201" "123456" "second")] ++
    List.replicate 5 (Act.step 3) ++
    List.replicate 3 (Act.step 2 true 40) ++ List.replicate 3 (Act.step 3 true 50)

/-- The administrator signs in by the code, and the code is tried again. -/
def signsInByCode : List (Act Request) :=
  codeSent ++ serving (Request.verifyCode "+201" "123456" "first") 2 8 30 ++
    serving (Request.verifyCode "+201" "123456" "second") 3 4 40

def passwordChanged (t : Thread Doc Call.Reply HttpError Answer) : Bool :=
  match t.prog with
  | .pure (.passwordChanged resetToken) => resetToken = "token"
  | _ => false

end Sample

theorem credential_spent_twice :
    (∃ log s, Run (machine Sample.crypto {}) Store.empty (fun _ => True) log s ∧
      DistinctTokens log ∧ log.countP (fun ev => ev.label.resetToken = some "token") = 2 ∧
      (s.threads.filter Sample.passwordChanged).length = 2) ∧
    ∃ log s id, Run (machine Sample.crypto {}) Store.empty (fun _ => True) log s ∧
      log.countP (fun ev => ev.label.spends = some (.loginCode id)) = 2 ∧
      (s.store.account 10).any (fun u => u.hasSession "first" && u.hasSession "second") = true := by
  constructor
  · obtain ⟨log, s, hrun, htest⟩ := exists_run (machine Sample.crypto {}) Store.empty
      (fun _ => True) Sample.completesTwice
      (fun log s => decide (DistinctTokens log) &&
        decide (log.countP (fun ev => ev.label.resetToken = some "token") = 2) &&
        decide ((s.threads.filter Sample.passwordChanged).length = 2)) (by decide +kernel)
    simp only [Bool.and_eq_true, decide_eq_true_eq] at htest
    obtain ⟨⟨hdistinct, hcount⟩, hboth⟩ := htest
    exact ⟨log, s, hrun, hdistinct, hcount, hboth⟩
  · obtain ⟨log, s, hrun, htest⟩ := exists_run (machine Sample.crypto {}) Store.empty
      (fun _ => True) Sample.signsInTwiceByCode
      (fun log s => decide (log.countP (fun ev => ev.label.spends = some (.loginCode 20)) = 2) &&
        (s.store.account 10).any (fun u => u.hasSession "first" && u.hasSession "second"))
      (by decide +kernel)
    simp only [Bool.and_eq_true, decide_eq_true_eq] at htest
    exact ⟨log, s, 20, hrun, htest⟩

theorem credential_spent_once_signsInByCode : ∃ log s,
    Run (machine Sample.crypto {}) Store.empty (fun ev => spendsUnconsumed ev = true) log s ∧
      log.countP (fun ev => ev.label.spends = some (.loginCode 20)) = 1 := by
  obtain ⟨log, s, hrun, htest⟩ := exists_run (machine Sample.crypto {}) Store.empty
    (fun ev => spendsUnconsumed ev = true) Sample.signsInByCode
    (fun log _ => decide (DistinctTokens log) &&
      decide (0 < log.countP (fun ev => ev.label.spends = some (.loginCode 20)))) (by decide +kernel)
  simp only [Bool.and_eq_true, decide_eq_true_eq] at htest
  obtain ⟨hdistinct, hpos⟩ := htest
  obtain ⟨-, hcode, -⟩ := credential_spent_once _ _ hrun hdistinct
  have hle := hcode 20
  exact ⟨log, s, hrun, by omega⟩

end CiroFuel.Auth
