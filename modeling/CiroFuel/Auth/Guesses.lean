import CiroFuel.Auth.Recovery
import CiroFuel.Otp.Guesses

/-!
# Guessing codes of the authentication service

A verification finds a code, compares it, and only then counts a wrong attempt;
each is an operation of its own. The count in the record is the number of counted
attempts, and the comparison trusts the record that was found.
-/
namespace CiroFuel.Auth
open Snapshot

namespace Call

/-- The call compares a submitted code with the hash of `k`. -/
def compares (k : CodeKey) : (c : Call) → c.Reply → Bool
  | .verifyOtp subject _ _ _, result => subject = some k && result.compared
  | _, _ => false

/-- The call finds a submitted code wrong. -/
def wrong (k : CodeKey) : (c : Call) → c.Reply → Bool
  | .verifyOtp subject _ _ _, result => subject = some k && result = .mismatch
  | _, _ => false

/-- The call counts an attempt in the record of `k`. -/
def counted (k : CodeKey) : (c : Call) → c.Reply → Bool
  | .addAttempt subject, found => subject = k && found
  | _, _ => false

theorem compares_of_wrong {k : CodeKey} {c : Call} {r : c.Reply} (h : c.wrong k r = true) :
    c.compares k r = true := by
  cases c with
  | verifyOtp subject record code maxAttempts =>
      simp only [wrong, Bool.and_eq_true, decide_eq_true_eq] at h
      obtain ⟨hsubject, rfl⟩ := h
      simp [compares, hsubject, Otp.OtpVerifyResult.compared]
  | _ => cases h

end Call

section events
variable (k : CodeKey) (ev : Event Doc Call.Reply)

def compared : Bool := ev.label.compares k ev.reply

def guessedWrong : Bool := ev.label.wrong k ev.reply

def attemptCounted : Bool := ev.label.counted k ev.reply

end events

/-- The comparison is with the record as it is stored. -/
def comparesStored (k : CodeKey) (ev : Event Doc Call.Reply) : Bool :=
  match ev.label with
  | .verifyOtp _ record _ _ =>
      (slot ev.before k).any fun x => x.any fun c => record = some c.toOtp
  | _ => true

@[reducible] def CountedInTime (k : CodeKey) : List (Event Doc Call.Reply) → Prop :=
  Otp.CountedInTime (compared k) (comparesStored k) (guessedWrong k) (attemptCounted k)

section commits
variable {C : Crypto} {cfg : AuthConfig} {ev : Event Doc Call.Reply} {k : CodeKey}

/-- An attempt is counted exactly if the record is there. -/
theorem addAttempt_commit (hev : ev.Sound (machine C cfg)) (holder : Store.Older ev.base ev.before)
    (hcall : ev.label = .addAttempt k) :
    (attemptCounted k ev = true ∧ ∃ r, slot ev.before k = some (some r) ∧
      slot ev.after k = some (some { r with attempts := r.attempts + 1 })) ∨
    (attemptCounted k ev = false ∧ slot ev.after k = slot ev.before k) := by
  obtain ⟨i, label, base, env, began, ended, reply, view, before, after⟩ := ev
  obtain rfl : label = .addAttempt k := hcall
  obtain rfl : base = before := hev.current rfl
  -- What the body leaves in its view is what is stored.
  have hview : ∀ key : Key, after.find key = view.find key := by
    intro key
    rcases hev.cases holder key with ⟨-, hafter⟩ | ⟨hsame, hafter, -⟩
    · exact hafter
    · exact hafter.trans hsame.symm
  cases k with
  | passwordReset id =>
      have hrun : (Tx.updateOne (Key.passwordReset id) (fun r : Option PasswordReset => r.isSome)
        fun r : Option PasswordReset => r.map fun r => { r with attempts := r.attempts + 1 } :
          Action Bool).run env (View.start base.docs) = .ok (reply, view) := hev.ran
      rcases Tx.updateOne_ok hrun with ⟨x, hx, hsome, -, rfl, rfl⟩ | ⟨rfl, rfl, -⟩
      · left
        obtain ⟨r, rfl⟩ := Option.isSome_iff_exists.mp hsome
        refine ⟨by simp [attemptCounted, Call.counted], r.toLoginCode, ?_, ?_⟩
        · rw [slot]
          exact congrArg _ hx
        · rw [slot, hview, View.find_put_self]
          rfl
      · right
        refine ⟨by simp [attemptCounted, Call.counted], ?_⟩
        rw [slot, slot, hview]
        rfl
  | loginCode id =>
      have hrun : (Tx.updateOne (Key.loginCode id) (fun r : Option LoginCode => r.isSome)
        fun r : Option LoginCode => r.map fun r => { r with attempts := r.attempts + 1 } :
          Action Bool).run env (View.start base.docs) = .ok (reply, view) := hev.ran
      rcases Tx.updateOne_ok hrun with ⟨x, hx, hsome, -, rfl, rfl⟩ | ⟨rfl, rfl, -⟩
      · left
        obtain ⟨r, rfl⟩ := Option.isSome_iff_exists.mp hsome
        refine ⟨by simp [attemptCounted, Call.counted], r, hx, ?_⟩
        rw [slot, hview, View.find_put_self]
        rfl
      · right
        refine ⟨by simp [attemptCounted, Call.counted], ?_⟩
        rw [slot, slot, hview]
        rfl

/-- The count in a record is the number of attempts counted there. -/
structure AttemptsCounted (k : CodeKey) (log : List (Event Doc Call.Reply)) (s : Store Doc) :
    Prop where
  none : slot s k = none → log.countP (attemptCounted k) = 0
  some : ∀ r, slot s k = some (some r) →
    r.attempts = log.countP (attemptCounted k)

theorem commit_attemptsCounted {log : List (Event Doc Call.Reply)}
    (hev : ev.Sound (machine C cfg)) (holder : Store.Older ev.base ev.before)
    (h : AttemptsCounted k log ev.before) : AttemptsCounted k (ev :: log) ev.after := by
  by_cases hcall : ev.label = .addAttempt k
  · rcases addAttempt_commit hev holder hcall with ⟨hcounted, r, hbefore, hafter⟩ | ⟨hnot, hsame⟩
    · constructor
      · intro hnone
        rw [hafter] at hnone
        cases hnone
      · intro r' hr'
        rw [hafter] at hr'
        cases hr'
        rw [List.countP_cons_of_pos hcounted, ← h.some r hbefore]
    · constructor
      · intro hnone
        rw [List.countP_cons_of_neg (by simp [hnot])]
        exact h.none (hsame.symm.trans hnone)
      · intro r' hr'
        rw [List.countP_cons_of_neg (by simp [hnot])]
        exact h.some r' (hsame.symm.trans hr')
  · have hnot : ¬ attemptCounted k ev = true := by
      intro hcounted
      obtain ⟨i, label, base, env, began, ended, reply, view, before, after⟩ := ev
      cases label with
      | addAttempt subject =>
          simp only [attemptCounted, Call.counted, Bool.and_eq_true, decide_eq_true_eq] at hcounted
          exact hcall (by rw [hcounted.1])
      | _ => cases hcounted
    have hstep := code_step hev holder k
    generalize hb : slot ev.before k = x at hstep
    generalize ha : slot ev.after k = x' at hstep
    constructor
    · intro hnone
      rw [List.countP_cons_of_neg hnot]
      rw [ha] at hnone
      subst hnone
      cases hstep with
      | same => exact h.none hb
    · intro r' hr'
      rw [List.countP_cons_of_neg hnot]
      rw [ha] at hr'
      subst hr'
      cases hstep with
      | same => exact h.some r' hb
      | created userId phone record createdAt => exact (h.none hb).symm
      | counted r hcall' => exact absurd hcall' hcall
      | consumed r t hcall' => exact h.some r hb

end commits

section runs
variable {C : Crypto} {cfg : AuthConfig} {P : Event Doc Call.Reply → Prop}
variable {log : List (Event Doc Call.Reply)} {s : Sys Doc Call.Reply HttpError Answer}

theorem attempts_counted (h : Run (machine C cfg) Store.empty P log s) (k : CodeKey) :
    AttemptsCounted k log s.store := by
  apply (known h).logged (J := fun log store => AttemptsCounted k log store)
  · constructor
    · intro _
      rfl
    · intro r hr
      cases k <;> cases hr
  · intro log ev hsound hP hlog
    exact commit_attemptsCounted hsound hP.2.older hlog

/-- A comparison finds fewer attempts than the cap in the record it was given. -/
theorem compares_commit {ev : Event Doc Call.Reply} {k : CodeKey} (hev : ev.Sound (machine C cfg))
    (hknown : Known C cfg ev) (hcompares : compared k ev = true)
    (hstored : comparesStored k ev = true) :
    ∃ r, slot ev.before k = some (some r) ∧ r.attempts < cfg.maxAttempts k := by
  obtain ⟨i, label, base, env, began, ended, reply, view, before, after⟩ := ev
  cases label with
  | verifyOtp subject record code maxAttempts =>
      simp only [compared, Call.compares, Bool.and_eq_true, decide_eq_true_eq] at hcompares
      obtain ⟨hsubject, hcompared⟩ := hcompares
      have hcap : maxAttempts = cfg.maxAttempts k := hknown.checked k hsubject
      obtain ⟨t, u, ht, hverify⟩ := Tx.bind_ok hev.ran
      obtain ⟨hreply, -⟩ := Tx.pure_ok hverify
      have hresult : reply = Otp.verify C record code maxAttempts t := hreply
      rw [hresult] at hcompared
      obtain ⟨r, hrecord, -, -, hlt⟩ := Otp.verify_compared hcompared
      obtain ⟨x, hx, hany⟩ := (Option.any_eq_true _ _).mp hstored
      obtain ⟨c, rfl, hsame⟩ := (Option.any_eq_true _ _).mp hany
      have heq : record = some c.toOtp := of_decide_eq_true hsame
      cases hrecord.symm.trans heq
      refine ⟨c, hx, ?_⟩
      rw [← hcap]
      exact hlt
  | _ => cases hcompares

theorem guesses_guarded (h : Run (machine C cfg) Store.empty P log s) {k : CodeKey}
    (htime : CountedInTime k log) :
    Otp.Guarded (compared k) (guessedWrong k) (cfg.maxAttempts k) log := by
  rintro later ev earlier rfl hcompares
  obtain ⟨hstored, hle⟩ := htime.upTo hcompares
  obtain ⟨hsound, hP, s', hrun, hbefore⟩ := (known h).upTo
  obtain ⟨r, hr, hlt⟩ := compares_commit hsound hP.2 hcompares hstored
  rw [← hbefore] at hr
  have hattempts := (attempts_counted hrun k).some r hr
  omega

end runs

/-- Without a match a verification returns nothing. -/
theorem settleReset_refuses (C : Crypto) (record : Option PasswordResetDocument)
    (resetToken : String) {result : Otp.OtpVerifyResult} (h : result ≠ .match_) :
    (settleReset C record resetToken result).Yields fun _ => False := by
  unfold settleReset
  split
  · exact absurd rfl h
  · exact Prog.yields_bind fun _ => Prog.yields_bind fun _ => trivial
  · exact Prog.yields_bind fun _ => Prog.yields_bind fun _ => trivial
  · trivial

theorem settleCode_refuses (cfg : AuthConfig) (record : Option LoginCodeDocument) (sid : String)
    {result : Otp.OtpVerifyResult} (h : result ≠ .match_) :
    (settleCode cfg record sid result).Yields fun _ => False := by
  unfold settleCode
  split
  · exact absurd rfl h
  · exact Prog.yields_bind fun _ => trivial
  · exact Prog.yields_bind fun _ => Prog.yields_bind fun _ => Prog.yields_bind fun _ => trivial

end CiroFuel.Auth
