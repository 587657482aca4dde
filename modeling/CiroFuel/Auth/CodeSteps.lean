import CiroFuel.Auth.AccountSteps

/-!
# What a commit does to a code

A code is created uncounted and unconsumed. After that its attempts are counted
one by one, it is consumed, or it is removed; a removed code does not come back.
The record of a password reset is a code with a token.
-/
namespace CiroFuel.Auth
open Snapshot

/-- What is stored of a code: nothing yet, nothing any more, or its record. -/
def slot (s : Store Doc) : CodeKey → Option (Option LoginCode)
  | .passwordReset id => (s.find (Key.passwordReset id)).map fun r : Option PasswordReset =>
      r.map fun r => r.toLoginCode
  | .loginCode id => s.find (Key.loginCode id)

/-- The code whose record a call consumes. -/
def Call.spends : Call → Option CodeKey
  | .complete _ record _ => some (.passwordReset record.id)
  | .signInByCode record _ _ _ => some (.loginCode record.id)
  | _ => none

/-- What a commit does to the record of a reset. -/
inductive ResetStep (c : Call) (id : Id) :
    Option (Option PasswordReset) → Option (Option PasswordReset) → Prop where
  | same (x : Option (Option PasswordReset)) : ResetStep c id x x
  | created (userId : Id) (phone : String) (record : Otp.OtpRecordLike) (createdAt : Instant) :
      ResetStep c id none (some (some { loginCodeOf userId phone record createdAt with }))
  | counted (r : PasswordReset) (hcall : c = .addAttempt (.passwordReset id)) :
      ResetStep c id (some (some r)) (some (some { r with attempts := r.attempts + 1 }))
  | verified (r : PasswordReset) (t : Instant) {tokenHash : String}
      (hcall : c = .setVerified id tokenHash) :
      ResetStep c id (some (some r))
        (some (some { r with verifiedAt := some t, resetTokenHash := some tokenHash }))
  | consumed (r : PasswordReset) (t : Instant) (hcall : c.spends = some (.passwordReset id)) :
      ResetStep c id (some (some r)) (some (some { r with consumedAt := some t }))
  | removed (r : PasswordReset) : ResetStep c id (some (some r)) (some none)

/-- What a commit does to a code of either kind. -/
inductive CodeStep (c : Call) (k : CodeKey) :
    Option (Option LoginCode) → Option (Option LoginCode) → Prop where
  | same (x : Option (Option LoginCode)) : CodeStep c k x x
  | created (userId : Id) (phone : String) (record : Otp.OtpRecordLike) (createdAt : Instant) :
      CodeStep c k none (some (some (loginCodeOf userId phone record createdAt)))
  | counted (r : LoginCode) (hcall : c = .addAttempt k) :
      CodeStep c k (some (some r)) (some (some { r with attempts := r.attempts + 1 }))
  | consumed (r : LoginCode) (t : Instant) (hcall : c.spends = some k) :
      CodeStep c k (some (some r)) (some (some { r with consumedAt := some t }))
  | removed (r : LoginCode) : CodeStep c k (some (some r)) (some none)

theorem ResetStep.code {c : Call} {id : Id} {x x' : Option (Option PasswordReset)}
    (h : ResetStep c id x x') :
    CodeStep c (.passwordReset id) (x.map fun r => r.map fun r => r.toLoginCode)
      (x'.map fun r => r.map fun r => r.toLoginCode) := by
  cases h with
  | same => exact .same _
  | created userId phone record createdAt => exact .created userId phone record createdAt
  | counted r hcall => exact .counted r.toLoginCode hcall
  | verified r t hcall => exact .same _
  | consumed r t hcall => exact .consumed r.toLoginCode t hcall
  | removed r => exact .removed r.toLoginCode

/-- A token is only ever recorded by a verification of the code. -/
theorem ResetStep.token {c : Call} {id : Id} {x x' : Option (Option PasswordReset)}
    (h : ResetStep c id x x') {r' : PasswordReset} (hr' : x' = some (some r')) {tokenHash : String}
    (htoken : r'.resetTokenHash = some tokenHash) :
    (∃ r, x = some (some r) ∧ r.resetTokenHash = some tokenHash) ∨
      c = .setVerified id tokenHash := by
  cases h with
  | same => exact Or.inl ⟨r', hr', htoken⟩
  | created userId phone record createdAt =>
      cases hr'
      cases htoken
  | counted r hcall =>
      cases hr'
      exact Or.inl ⟨r, rfl, htoken⟩
  | verified r t hcall =>
      cases hr'
      cases htoken
      exact Or.inr hcall
  | consumed r t hcall =>
      cases hr'
      exact Or.inl ⟨r, rfl, htoken⟩
  | removed r => cases hr'

/-! ### The bodies -/

section bodies
variable {C : Crypto} {env : Env} {v w : View Doc} {c : Call} {r : c.Reply}

/-- Removing records that pass a filter removes each of them or keeps it. -/
theorem removeMany_reset {p : (k : Key) → Doc k → Bool} {r : Unit}
    (h : (Tx.updateMany p removed : Action Unit).run env v = .ok (r, w)) (id : Id) :
    ResetStep c id (v.find (Key.passwordReset id)) (w.find (Key.passwordReset id)) := by
  rw [Tx.updateMany_find h]
  cases hx : (v.find (Key.passwordReset id) : Option (Option PasswordReset)) with
  | none => exact .same none
  | some x =>
      rw [Option.map_some, rewrite]
      split_ifs
      · cases x with
        | none => exact .same _
        | some r => exact .removed r
      · exact .same _

theorem removeMany_loginCode {p : (k : Key) → Doc k → Bool} {r : Unit}
    (h : (Tx.updateMany p removed : Action Unit).run env v = .ok (r, w)) (id : Id) :
    CodeStep c (.loginCode id) (v.find (Key.loginCode id)) (w.find (Key.loginCode id)) := by
  rw [Tx.updateMany_find h]
  cases hx : (v.find (Key.loginCode id) : Option (Option LoginCode)) with
  | none => exact .same none
  | some x =>
      rw [Option.map_some, rewrite]
      split_ifs
      · cases x with
        | none => exact .same _
        | some r => exact .removed r
      · exact .same _

/-- A record that is there is rewritten; what is not there stays so. -/
theorem mapped_slot {X : Type} {J : Option (Option X) → Option (Option X) → Prop}
    {o o' : Option (Option X)} {f : X → X} (hsame : ∀ o, J o o)
    (heq : o' = o.map fun x => x.map f) (hstep : ∀ r, J (some (some r)) (some (some (f r)))) :
    J o o' := by
  rw [heq]
  cases o with
  | none => exact hsame none
  | some x =>
      cases x with
      | none => exact hsame (some none)
      | some r => exact hstep r

/-- Updating a record rewrites it if it is there. -/
theorem updateRecord_find {k : Key} {p : Doc k → Bool} {f : Doc k → Doc k} {r : Bool}
    (h : (Tx.updateOne k p f : Action Bool).run env v = .ok (r, w)) :
    w.find k = (v.find k).map (fun x => if p x then f x else x) ∧
      ∀ k', k' ≠ k → w.find k' = v.find k' := by
  obtain ⟨found, u, hfound, hr⟩ := Tx.bind_ok h
  obtain ⟨-, rfl⟩ := Tx.pure_ok hr
  obtain ⟨hself, hother⟩ := Tx.findOneAndUpdate_find hfound
  exact ⟨hself, hother⟩

/-- Keys of the records of codes. -/
def IsCode : Key → Prop
  | .passwordReset _ => True
  | .loginCode _ => True
  | _ => False

theorem IsCode.ne_user {k : Key} (hk : IsCode k) (id : Id) : k ≠ Key.user id := by
  rintro rfl
  exact hk

theorem IsCode.not_event {k : Key} (hk : IsCode k) : ¬ IsEvent k := by
  cases k with
  | passwordReset id => exact not_false
  | loginCode id => exact not_false
  | _ => exact hk.elim

/-- The calls that write records of codes. -/
def Call.writesCodes : Call → Bool
  | .addAttempt _ | .supersedeResets _ | .supersedeCodes _ | .createReset .. | .createLoginCode ..
  | .setVerified .. | .complete .. | .signInByCode .. | .purgeExpired => true
  | _ => false

theorem body_frame (h : (c.body C).run env v = .ok (r, w)) (hc : c.writesCodes = false) {k : Key}
    (hk : IsCode k) : w.find k = v.find k := by
  cases c with
  | createUser data passwordHash =>
      obtain ⟨newId, u, hid, h⟩ := Tx.bind_ok h
      obtain ⟨rfl, rfl⟩ := Tx.freshId_ok hid
      exact (createRecord_find h).2.2.2 k (hk.ne_user _)
  | putCompany companyId company =>
      have hput : (Tx.upsert (Key.company companyId) company fun _ => company : Action Unit).run
          env v = .ok (r, w) := h
      obtain ⟨-, rfl⟩ := Tx.upsert_ok hput
      apply View.find_put_ne
      rintro rfl
      exact hk
  | activate acting userId =>
      obtain ⟨u, -, -, hother⟩ := setActive_ok h
      exact hother k (hk.ne_user _)
  | deactivate acting userId =>
      obtain ⟨u, -, -, hother⟩ := deactivateUser_ok h
      exact hother k (hk.ne_user _) hk.not_event
  | mobileLogin dto user =>
      obtain ⟨u, -, -, -, hother⟩ := displaceSessions_ok h
      exact hother k (hk.ne_user _) hk.not_event
  | adminLogin dto user sid cap =>
      obtain ⟨u, i, -, -, -, -, hother⟩ := openAudited_ok h
      exact hother k (hk.ne_user _) hk.not_event
  | signOut actor =>
      obtain ⟨u, -, -, hother⟩ := signOut_ok h
      exact hother k (hk.ne_user _) hk.not_event
  | recordEvent subject type => exact (writeEvent_confined _ _ _).find_eq h hk.not_event
  | verifyOtp subject record code maxAttempts =>
      obtain ⟨t, u, ht, h⟩ := Tx.bind_ok h
      obtain ⟨-, rfl⟩ := Tx.getTime_ok ht
      obtain ⟨-, rfl⟩ := Tx.pure_ok h
      rfl
  | _ => cases hc

theorem body_reset (h : (c.body C).run env v = .ok (r, w)) (id : Id) :
    ResetStep c id (v.find (Key.passwordReset id)) (w.find (Key.passwordReset id)) := by
  have same : w.find (Key.passwordReset id) = v.find (Key.passwordReset id) →
      ResetStep c id (v.find (Key.passwordReset id)) (w.find (Key.passwordReset id)) := by
    intro heq
    rw [heq]
    exact .same _
  have mapped : ∀ (f : PasswordReset → PasswordReset),
      w.find (Key.passwordReset id) = (v.find (Key.passwordReset id)).map
        (fun x : Option PasswordReset => x.map f) →
      (∀ r, ResetStep c id (some (some r)) (some (some (f r)))) →
      ResetStep c id (v.find (Key.passwordReset id)) (w.find (Key.passwordReset id)) := by
    intro f heq hstep
    exact mapped_slot .same heq hstep
  have rewritten : ∀ (f : PasswordReset → PasswordReset),
      (fun x : Option PasswordReset => if x.isSome = true then x.map f else x) =
        fun x => x.map f := by
    intro f
    funext x
    cases x <;> rfl
  cases c with
  | addAttempt subject =>
      cases subject with
      | passwordReset id' =>
          have hfind := updateRecord_find h
          by_cases hid : id = id'
          · subst hid
            apply mapped fun r => { r with attempts := r.attempts + 1 }
            · rw [← rewritten]
              exact hfind.1
            · exact fun r => .counted r rfl
          · exact same (hfind.2 _ (by simpa using hid))
      | loginCode id' => exact same ((updateRecord_find h).2 _ (by simp))
  | supersedeResets userId => exact removeMany_reset h id
  | supersedeCodes userId => exact removeMany_reset h id
  | purgeExpired =>
      obtain ⟨t, u₁, ht, h⟩ := Tx.bind_ok h
      obtain ⟨-, rfl⟩ := Tx.getTime_ok ht
      exact removeMany_reset h id
  | createReset userId phone record =>
      obtain ⟨t, u₁, ht, h⟩ := Tx.bind_ok h
      obtain ⟨-, rfl⟩ := Tx.getTime_ok ht
      obtain ⟨newId, u₂, hid, h⟩ := Tx.bind_ok h
      obtain ⟨-, rfl⟩ := Tx.freshId_ok hid
      obtain ⟨hnone, hsome, -, hother⟩ := createRecord_find h
      by_cases hid : id = newId
      · subst hid
        have hbefore : v.find (Key.passwordReset id) = none := hnone
        rw [hbefore, hsome]
        exact .created userId phone record t
      · exact same (hother _ (by simpa using hid))
  | createLoginCode userId phone record =>
      obtain ⟨t, u₁, ht, h⟩ := Tx.bind_ok h
      obtain ⟨-, rfl⟩ := Tx.getTime_ok ht
      obtain ⟨newId, u₂, hid, h⟩ := Tx.bind_ok h
      obtain ⟨-, rfl⟩ := Tx.freshId_ok hid
      exact same ((createRecord_find h).2.2.2 _ (by simp))
  | setVerified recordId tokenHash =>
      obtain ⟨t, u₁, ht, h⟩ := Tx.bind_ok h
      obtain ⟨-, rfl⟩ := Tx.getTime_ok ht
      obtain ⟨b, u₂, hupdate, h⟩ := Tx.bind_ok h
      obtain ⟨-, rfl⟩ := Tx.pure_ok h
      have hfind := updateRecord_find hupdate
      by_cases hid : id = recordId
      · subst hid
        apply mapped fun r => { r with verifiedAt := some t, resetTokenHash := some tokenHash }
        · rw [← rewritten]
          exact hfind.1
        · exact fun r => .verified r t rfl
      · exact same (hfind.2 _ (by simpa using hid))
  | complete resetToken record passwordHash =>
      obtain ⟨u, t, -, -, hself, hother⟩ := completeReset_ok h
      by_cases hid : id = record.id
      · subst hid
        exact mapped _ hself fun r => .consumed r t rfl
      · exact same (hother _ (by simp) (by simpa using hid) not_false)
  | signInByCode record holder sid cap =>
      obtain ⟨u, i, t, -, -, -, -, -, hother⟩ := consumeLoginCode_ok h
      exact same (hother _ (by simp) (by simp) not_false)
  | _ => exact same (body_frame h rfl trivial)

theorem body_loginCode (h : (c.body C).run env v = .ok (r, w)) (id : Id) :
    CodeStep c (.loginCode id) (v.find (Key.loginCode id)) (w.find (Key.loginCode id)) := by
  have same : w.find (Key.loginCode id) = v.find (Key.loginCode id) →
      CodeStep c (.loginCode id) (v.find (Key.loginCode id)) (w.find (Key.loginCode id)) := by
    intro heq
    rw [heq]
    exact .same _
  have mapped : ∀ (f : LoginCode → LoginCode),
      w.find (Key.loginCode id) = (v.find (Key.loginCode id)).map
        (fun x : Option LoginCode => x.map f) →
      (∀ r, CodeStep c (.loginCode id) (some (some r)) (some (some (f r)))) →
      CodeStep c (.loginCode id) (v.find (Key.loginCode id)) (w.find (Key.loginCode id)) := by
    intro f heq hstep
    exact mapped_slot .same heq hstep
  cases c with
  | addAttempt subject =>
      cases subject with
      | loginCode id' =>
          have hfind := updateRecord_find h
          by_cases hid : id = id'
          · subst hid
            apply mapped fun r => { r with attempts := r.attempts + 1 }
            · rw [hfind.1]
              congr 1
              funext x
              cases x <;> rfl
            · exact fun r => .counted r rfl
          · exact same (hfind.2 _ (by simpa using hid))
      | passwordReset id' => exact same ((updateRecord_find h).2 _ (by simp))
  | supersedeResets userId => exact removeMany_loginCode h id
  | supersedeCodes userId => exact removeMany_loginCode h id
  | purgeExpired =>
      obtain ⟨t, u₁, ht, h⟩ := Tx.bind_ok h
      obtain ⟨-, rfl⟩ := Tx.getTime_ok ht
      exact removeMany_loginCode h id
  | createLoginCode userId phone record =>
      obtain ⟨t, u₁, ht, h⟩ := Tx.bind_ok h
      obtain ⟨-, rfl⟩ := Tx.getTime_ok ht
      obtain ⟨newId, u₂, hid, h⟩ := Tx.bind_ok h
      obtain ⟨-, rfl⟩ := Tx.freshId_ok hid
      obtain ⟨hnone, hsome, -, hother⟩ := createRecord_find h
      by_cases hid : id = newId
      · subst hid
        have hbefore : v.find (Key.loginCode id) = none := hnone
        rw [hbefore, hsome]
        exact .created userId phone record t
      · exact same (hother _ (by simpa using hid))
  | createReset userId phone record =>
      obtain ⟨t, u₁, ht, h⟩ := Tx.bind_ok h
      obtain ⟨-, rfl⟩ := Tx.getTime_ok ht
      obtain ⟨newId, u₂, hid, h⟩ := Tx.bind_ok h
      obtain ⟨-, rfl⟩ := Tx.freshId_ok hid
      exact same ((createRecord_find h).2.2.2 _ (by simp))
  | setVerified recordId tokenHash =>
      obtain ⟨t, u₁, ht, h⟩ := Tx.bind_ok h
      obtain ⟨-, rfl⟩ := Tx.getTime_ok ht
      obtain ⟨b, u₂, hupdate, h⟩ := Tx.bind_ok h
      obtain ⟨-, rfl⟩ := Tx.pure_ok h
      exact same ((updateRecord_find hupdate).2 _ (by simp))
  | complete resetToken record passwordHash =>
      obtain ⟨u, t, -, -, -, hother⟩ := completeReset_ok h
      exact same (hother _ (by simp) (by simp) not_false)
  | signInByCode record holder sid cap =>
      obtain ⟨u, i, t, -, -, -, -, hself, hother⟩ := consumeLoginCode_ok h
      by_cases hid : id = record.id
      · subst hid
        exact mapped _ hself fun r => .consumed r t rfl
      · exact same (hother _ (by simp) (by simpa using hid) not_false)
  | _ => exact same (body_frame h rfl trivial)

end bodies

/-! ### Commits -/

section commits
variable {C : Crypto} {cfg : AuthConfig} {ev : Event Doc Call.Reply}

theorem reset_step (hev : ev.Sound (machine C cfg)) (holder : Store.Older ev.base ev.before)
    (id : Id) : ResetStep ev.label id (ev.before.find (Key.passwordReset id))
      (ev.after.find (Key.passwordReset id)) := by
  rcases hev.cases holder (Key.passwordReset id) with ⟨hbefore, hafter⟩ | ⟨-, hsame, -⟩
  · have hstep := body_reset hev.ran id
    have hbase : (View.start ev.base.docs).find (Key.passwordReset id) =
        ev.before.find (Key.passwordReset id) := hbefore
    rwa [hbase, ← hafter] at hstep
  · rw [hsame]
    exact .same _

theorem code_step (hev : ev.Sound (machine C cfg)) (holder : Store.Older ev.base ev.before)
    (k : CodeKey) : CodeStep ev.label k (slot ev.before k) (slot ev.after k) := by
  cases k with
  | passwordReset id => exact (reset_step hev holder id).code
  | loginCode id =>
      rcases hev.cases holder (Key.loginCode id) with ⟨hbefore, hafter⟩ | ⟨-, hsame, -⟩
      · have hstep := body_loginCode hev.ran id
        have hbase : (View.start ev.base.docs).find (Key.loginCode id) =
            ev.before.find (Key.loginCode id) := hbefore
        rwa [hbase, ← hafter] at hstep
      · rw [slot, slot, hsame]
        exact .same _

end commits

end CiroFuel.Auth
