import CiroFuel.Auth.Handlers

/-!
# What a commit does to an account

An account is created without sessions. After that a commit ends all its sessions
and counts that it did, closes one, or opens one at the expense of the oldest;
only a completed reset changes the password, and it ends all sessions.
-/
namespace CiroFuel.Auth
open Snapshot

/-! ### The writes -/

/-- Keys of the audit trail. -/
def IsEvent : Key → Prop
  | .sessionEvent _ => True
  | _ => False

theorem user_not_event (id : Id) : ¬ IsEvent (Key.user id) := not_false

theorem writeEvent_confined (subject : SessionSubject) (type : SessionEventType)
    (cause : Option SessionRevocationCause) :
    Tx.Confined IsEvent (writeEvent subject type cause) :=
  Tx.Obeys.bind Tx.Obeys.getTime fun _ => Tx.Obeys.bind Tx.Obeys.freshId fun _ =>
    Tx.Confined.insert trivial

theorem auditEvictions_confined (base : SessionSubject) (sids : List String) :
    Tx.Confined IsEvent (auditEvictions base sids) := by
  induction sids with
  | nil => exact Tx.Obeys.pure ()
  | cons sid sids ih => exact Tx.Obeys.bind (writeEvent_confined _ _ _) fun _ => ih

section writes
variable {env : Env} {v w : View Doc} {id : Id}

theorem updateAccount_ok {update : User → User} {r : User}
    (h : (updateAccount id update).run env v = .ok (r, w)) :
    ∃ u, v.find (Key.user id) = some u ∧ r = update u ∧
      w.find (Key.user id) = some (update u) ∧ ∀ k, k ≠ Key.user id → w.find k = v.find k := by
  obtain ⟨found, u₁, hfound, h⟩ := Tx.bind_ok h
  rcases Tx.findOneAndUpdate_ok hfound with ⟨u, hu, -, -, rfl, rfl⟩ | ⟨rfl, -, -⟩
  · obtain ⟨rfl, rfl⟩ := Tx.pure_ok h
    exact ⟨u, hu, rfl, View.find_put_self _ _ _, fun k hk => View.find_put_ne _ _ hk⟩
  · exact (Tx.throw_ok h).elim

/-- An update of an account followed by audit rows. -/
theorem updateAccount_then {update : User → User} {α : Type} {f : User → Action α} {r : α}
    (hf : ∀ u, Tx.Confined IsEvent (f u))
    (h : (updateAccount id update >>= f).run env v = .ok (r, w)) :
    ∃ u, v.find (Key.user id) = some u ∧ w.find (Key.user id) = some (update u) ∧
      (∀ k, k ≠ Key.user id → ¬ IsEvent k → w.find k = v.find k) ∧
      ∃ u', (f (update u)).run env u' = .ok (r, w) := by
  obtain ⟨_, u₁, hupdate, h⟩ := Tx.bind_ok h
  obtain ⟨u, hu, rfl, hself, hother⟩ := updateAccount_ok hupdate
  refine ⟨u, hu, ?_, fun k hk hevent => ?_, u₁, h⟩
  · rw [(hf _).find_eq h (user_not_event id)]
    exact hself
  · rw [(hf _).find_eq h hevent]
    exact hother k hk

theorem openSession_ok {sid : String} {cap : ℕ} {r : List String}
    (h : (openSession id sid cap).run env v = .ok (r, w)) :
    ∃ u i, v.find (Key.user id) = some u ∧
      r = evictedSids (keptSessions cap (u.merged sid (env.time i))) (u.merged sid (env.time i)) ∧
      w.find (Key.user id) =
        some { u with activeSessions := keptSessions cap (u.merged sid (env.time i)) } ∧
      Key.user id ∈ w.writes ∧ ∀ k, k ≠ Key.user id → w.find k = v.find k := by
  obtain ⟨found, u₁, hfound, h⟩ := Tx.bind_ok h
  obtain ⟨rfl, rfl⟩ := Tx.find_ok hfound
  cases hu : u₁.find (Key.user id) with
  | none =>
      rw [hu] at h
      exact (Tx.throw_ok h).elim
  | some u =>
      rw [hu] at h
      obtain ⟨t, u₂, ht, h⟩ := Tx.bind_ok h
      obtain ⟨rfl, rfl⟩ := Tx.getTime_ok ht
      obtain ⟨b, u₃, hupdate, h⟩ := Tx.bind_ok h
      obtain ⟨rfl, rfl⟩ := Tx.pure_ok h
      rcases Tx.updateOne_ok hupdate with ⟨u', hu', -, -, -, rfl⟩ | ⟨-, -, hnone⟩
      · have heq : u' = u := Option.some.inj (hu'.symm.trans hu)
        subst heq
        exact ⟨u', _, rfl, rfl, View.find_put_self _ _ _, View.mem_put_self _ _ _,
          fun k hk => View.find_put_ne _ _ hk⟩
      · exact absurd (hnone u hu) (by simp)

theorem openAudited_ok {user : UserDocument} {sid : String} {cap : ℕ} {r : List String}
    (h : (openAudited user sid cap).run env v = .ok (r, w)) :
    ∃ u i, v.find (Key.user user.id) = some u ∧
      r = evictedSids (keptSessions cap (u.merged sid (env.time i))) (u.merged sid (env.time i)) ∧
      w.find (Key.user user.id) =
        some { u with activeSessions := keptSessions cap (u.merged sid (env.time i)) } ∧
      Key.user user.id ∈ w.writes ∧
      ∀ k, k ≠ Key.user user.id → ¬ IsEvent k → w.find k = v.find k := by
  obtain ⟨evicted, u₁, hopen, h⟩ := Tx.bind_ok h
  obtain ⟨u, i, hu, hevicted, hself, hmem, hother⟩ := openSession_ok hopen
  obtain ⟨_, u₂, haudit, h⟩ := Tx.bind_ok h
  obtain ⟨_, u₃, hsigned, h⟩ := Tx.bind_ok h
  obtain ⟨rfl, rfl⟩ := Tx.pure_ok h
  have hframe : ∀ k, ¬ IsEvent k → w.find k = u₁.find k := by
    intro k hk
    rw [(writeEvent_confined _ _ _).find_eq hsigned hk,
      (auditEvictions_confined _ _).find_eq haudit hk]
  refine ⟨u, i, hu, hevicted, ?_, ?_, fun k hk hevent => ?_⟩
  · rw [hframe _ (user_not_event user.id)]
    exact hself
  · exact Tx.run_grows hsigned (Tx.run_grows haudit hmem)
  · rw [hframe k hevent]
    exact hother k hk

theorem setActive_ok {acting : Id} {isActive : Bool} {r : User}
    (h : (setActive acting id isActive).run env v = .ok (r, w)) :
    ∃ u, v.find (Key.user id) = some u ∧
      w.find (Key.user id) = some { u with isActive := isActive } ∧
      ∀ k, k ≠ Key.user id → w.find k = v.find k := by
  obtain ⟨found, u₁, hfound, h⟩ := Tx.bind_ok h
  rcases Tx.findOneAndUpdate_ok hfound with ⟨u, hu, -, -, rfl, rfl⟩ | ⟨rfl, -, -⟩
  · obtain ⟨-, rfl⟩ := Tx.pure_ok h
    exact ⟨u, hu, View.find_put_self _ _ _, fun k hk => View.find_put_ne _ _ hk⟩
  · exact (Tx.throw_ok h).elim

theorem displaceSessions_ok {user : UserDocument} {r : ℕ}
    (h : (displaceSessions user).run env v = .ok (r, w)) :
    ∃ u, v.find (Key.user user.id) = some u ∧ r = u.generation + 1 ∧
      w.find (Key.user user.id) = some (u.revokeAllSessions (some .signedInElsewhere)) ∧
      ∀ k, k ≠ Key.user user.id → ¬ IsEvent k → w.find k = v.find k := by
  have hrest : ∀ u : User, Tx.Confined IsEvent (do
      writeEvent (subjectFor user u.generation none) .revoked (some .signedInElsewhere)
      writeEvent (subjectFor user u.generation none) .signedIn none
      return u.generation) := fun u =>
    Tx.Obeys.bind (writeEvent_confined _ _ _) fun _ =>
      Tx.Obeys.bind (writeEvent_confined _ _ _) fun _ => Tx.Obeys.pure _
  obtain ⟨u, hu, hself, hother, u', hlast⟩ := updateAccount_then hrest h
  obtain ⟨_, u₁, -, hlast⟩ := Tx.bind_ok hlast
  obtain ⟨_, u₂, -, hlast⟩ := Tx.bind_ok hlast
  obtain ⟨rfl, -⟩ := Tx.pure_ok hlast
  exact ⟨u, hu, rfl, hself, hother⟩

/-- The session that the sign-out of a token closes; without one it ends them all. -/
def AuthenticatedUser.closes (actor : AuthenticatedUser) : Option String :=
  if isSessionCappedRole actor.role then truthy actor.sid else none

def User.signedOut (u : User) : Option String → User
  | some sid => u.closeSession sid
  | none => u.revokeAllSessions none

theorem signOut_ok {actor : AuthenticatedUser} {r : Unit}
    (h : (signOut actor).run env v = .ok (r, w)) :
    ∃ u, v.find (Key.user actor.userId) = some u ∧
      w.find (Key.user actor.userId) = some (u.signedOut actor.closes) ∧
      ∀ k, k ≠ Key.user actor.userId → ¬ IsEvent k → w.find k = v.find k := by
  unfold signOut at h
  split at h
  · rename_i sid hrole hsid
    have hcloses : actor.closes = some sid := by
      rw [AuthenticatedUser.closes, hrole, if_pos rfl, hsid]
    obtain ⟨u, hu, hself, hother, -⟩ := updateAccount_then (fun _ => writeEvent_confined _ _ _) h
    rw [hcloses]
    exact ⟨u, hu, hself, hother⟩
  · rename_i hnot
    have hcloses : actor.closes = none := by
      rw [AuthenticatedUser.closes]
      split_ifs with hrole
      · exact Option.eq_none_iff_forall_ne_some.mpr fun sid hsid => hnot sid hrole hsid
      · rfl
    obtain ⟨u, hu, hself, hother, -⟩ := updateAccount_then (fun _ => writeEvent_confined _ _ _) h
    rw [hcloses]
    exact ⟨u, hu, hself, hother⟩

/-- A deactivated account is inactive, and its sessions are ended. -/
def User.deactivated (u : User) : User :=
  { u with isActive := false }.revokeAllSessions (some .accountDeactivated)

theorem deactivateUser_ok {acting : Id} {r : User}
    (h : (deactivateUser acting id).run env v = .ok (r, w)) :
    ∃ u, v.find (Key.user id) = some u ∧
      (w.find (Key.user id) = some u.deactivated ∨
        w.find (Key.user id) = some u.deactivated.releaseActiveOrder) ∧
      ∀ k, k ≠ Key.user id → ¬ IsEvent k → w.find k = v.find k := by
  obtain ⟨_, u₁, hactive, h⟩ := Tx.bind_ok h
  obtain ⟨u, hu, hself₁, hother₁⟩ := setActive_ok hactive
  obtain ⟨_, u₂, hrevoke, h⟩ := Tx.bind_ok h
  obtain ⟨x, hx, -, hself₂, hother₂⟩ := updateAccount_ok hrevoke
  cases hself₁.symm.trans hx
  obtain ⟨_, u₃, hrelease, h⟩ := Tx.bind_ok h
  obtain ⟨_, u₄, haudit, h⟩ := Tx.bind_ok h
  obtain ⟨-, rfl⟩ := Tx.pure_ok h
  have hframe : ∀ k, ¬ IsEvent k → w.find k = u₃.find k := fun k hk =>
    (writeEvent_confined _ _ _).find_eq haudit hk
  rcases Tx.updateOne_ok hrelease with ⟨y, hy, -, -, -, rfl⟩ | ⟨-, rfl, -⟩
  · cases hself₂.symm.trans hy
    refine ⟨u, hu, Or.inr ?_, fun k hk hevent => ?_⟩
    · rw [hframe _ (user_not_event id)]
      exact View.find_put_self _ _ _
    · rw [hframe k hevent, View.find_put_ne _ _ hk, hother₂ k hk, hother₁ k hk]
  · refine ⟨u, hu, Or.inl ?_, fun k hk hevent => ?_⟩
    · rw [hframe _ (user_not_event id)]
      exact hself₂
    · rw [hframe k hevent, hother₂ k hk, hother₁ k hk]

/-- Only the record and the audit trail change besides the account. -/
theorem completeReset_ok {record : PasswordResetDocument} {passwordHash : String} {r : Unit}
    (h : (completeReset record passwordHash).run env v = .ok (r, w)) :
    ∃ u t, v.find (Key.user record.userId) = some u ∧
      w.find (Key.user record.userId) = some (u.revokeAndSetPassword passwordHash) ∧
      w.find (Key.passwordReset record.id) = (v.find (Key.passwordReset record.id)).map
        (fun r : Option PasswordReset => r.map fun r => { r with consumedAt := some t }) ∧
      ∀ k, k ≠ Key.user record.userId → k ≠ Key.passwordReset record.id → ¬ IsEvent k →
        w.find k = v.find k := by
  obtain ⟨_, u₁, hset, h⟩ := Tx.bind_ok h
  obtain ⟨u, hu, -, hself, hother⟩ := updateAccount_ok hset
  obtain ⟨t, u₂, ht, h⟩ := Tx.bind_ok h
  obtain ⟨rfl, rfl⟩ := Tx.getTime_ok ht
  obtain ⟨b, u₃, hconsume, haudit⟩ := Tx.bind_ok h
  obtain ⟨found, u₄, hfound, hb⟩ := Tx.bind_ok hconsume
  obtain ⟨-, rfl⟩ := Tx.pure_ok hb
  obtain ⟨hrecord, hrest⟩ := Tx.findOneAndUpdate_find hfound
  have hframe : ∀ k, ¬ IsEvent k → w.find k = u₃.find k := fun k hk =>
    (writeEvent_confined _ _ _).find_eq haudit hk
  refine ⟨u, env.time u₁.readings, hu, ?_, ?_, fun k huser hreset hevent => ?_⟩
  · rw [hframe _ (user_not_event _), hrest _ (by simp), View.find_tick]
    exact hself
  · rw [hframe (Key.passwordReset record.id) not_false, hrecord, View.find_tick, hother _ (by simp)]
    congr 1
    funext x
    cases x <;> rfl
  · rw [hframe k hevent, hrest k hreset, View.find_tick, hother k huser]

/-! An account that is rewritten is among the writes. -/

theorem updateAccount_writes (id : Id) (update : User → User) :
    Tx.Writes (Key.user id) (updateAccount id update) :=
  Tx.Writes.findOneAndUpdate (Tx.Writes.throw _)

theorem signOut_writes (actor : AuthenticatedUser) :
    Tx.Writes (Key.user actor.userId) (signOut actor) := by
  unfold signOut
  split
  · exact Tx.Writes.first (updateAccount_writes _ _)
  · exact Tx.Writes.first (updateAccount_writes _ _)

theorem displaceSessions_writes (user : UserDocument) :
    Tx.Writes (Key.user user.id) (displaceSessions user) :=
  Tx.Writes.first (updateAccount_writes _ _)

theorem deactivateUser_writes (acting : Id) :
    Tx.Writes (Key.user id) (deactivateUser acting id) :=
  Tx.Writes.rest fun _ => Tx.Writes.first (updateAccount_writes _ _)

theorem completeReset_writes (record : PasswordResetDocument) (passwordHash : String) :
    Tx.Writes (Key.user record.userId) (completeReset record passwordHash) :=
  Tx.Writes.first (updateAccount_writes _ _)

theorem consumeLoginCode_ok {record : LoginCodeDocument} {holder : UserDocument} {sid : String}
    {cap : ℕ} {r : List String}
    (h : (consumeLoginCode record holder sid cap).run env v = .ok (r, w)) :
    ∃ u i t, v.find (Key.user holder.id) = some u ∧
      r = evictedSids (keptSessions cap (u.merged sid (env.time i))) (u.merged sid (env.time i)) ∧
      w.find (Key.user holder.id) =
        some { u with activeSessions := keptSessions cap (u.merged sid (env.time i)) } ∧
      Key.user holder.id ∈ w.writes ∧
      w.find (Key.loginCode record.id) = (v.find (Key.loginCode record.id)).map
        (fun r : Option LoginCode => r.map fun r => { r with consumedAt := some t }) ∧
      ∀ k, k ≠ Key.user holder.id → k ≠ Key.loginCode record.id → ¬ IsEvent k →
        w.find k = v.find k := by
  obtain ⟨t, u₁, ht, h⟩ := Tx.bind_ok h
  obtain ⟨rfl, rfl⟩ := Tx.getTime_ok ht
  obtain ⟨b, u₂, hconsume, hopen⟩ := Tx.bind_ok h
  obtain ⟨found, u₃, hfound, hb⟩ := Tx.bind_ok hconsume
  obtain ⟨-, rfl⟩ := Tx.pure_ok hb
  obtain ⟨hrecord, hrest⟩ := Tx.findOneAndUpdate_find hfound
  obtain ⟨u, i, hu, hevicted, hself, hmem, hother⟩ := openAudited_ok hopen
  rw [hrest _ (by simp), View.find_tick] at hu
  refine ⟨u, i, env.time v.readings, hu, hevicted, hself, hmem, ?_, fun k huser hcode hevent => ?_⟩
  · rw [hother (Key.loginCode record.id) (by simp) not_false, hrecord, View.find_tick]
    congr 1
    funext x
    cases x <;> rfl
  · rw [hother k huser hevent, hrest k hcode, View.find_tick]

end writes

/-! ### Steps of one account -/

/-- The session a call opens: its account, its name and the cap it respects. -/
def Call.opens : Call → Option (Id × String × ℕ)
  | .adminLogin _ user sid cap => some (user.id, sid, cap)
  | .signInByCode _ holder sid cap => some (holder.id, sid, cap)
  | _ => none

/-- The call ends all sessions of the account. -/
def Call.EndsAll (id : Id) : Call → Prop
  | .deactivate _ userId => userId = id
  | .mobileLogin _ user => user.id = id
  | .signOut actor => actor.userId = id ∧ actor.closes = none
  | .complete _ record _ => record.userId = id
  | _ => False

inductive AccountStep (time : ℕ → Instant) (c : Call) (id : Id) :
    Option User → Option User → Prop where
  | same (u : Option User) : AccountStep time c id u u
  | created (data : NewUser) (passwordHash : String) (hcall : c = .createUser data passwordHash) :
      AccountStep time c id none (some (userOf data passwordHash))
  | activated (u : User) {acting : Id} (hcall : c = .activate acting id) :
      AccountStep time c id (some u) (some { u with isActive := true })
  | deactivated (u : User) (hcall : c.EndsAll id) :
      AccountStep time c id (some u) (some u.deactivated)
  | released (u : User) (hcall : c.EndsAll id) :
      AccountStep time c id (some u) (some u.deactivated.releaseActiveOrder)
  | ended (u : User) (cause : Option SessionRevocationCause) (hcall : c.EndsAll id) :
      AccountStep time c id (some u) (some (u.revokeAllSessions cause))
  | closed (u : User) {actor sid} (hcall : c = .signOut actor) (hsid : actor.closes = some sid)
      (hid : actor.userId = id) : AccountStep time c id (some u) (some (u.closeSession sid))
  | reset (u : User) {resetToken record passwordHash}
      (hcall : c = .complete resetToken record passwordHash) (hid : record.userId = id) :
      AccountStep time c id (some u) (some (u.revokeAndSetPassword passwordHash))
  | opened (u : User) {sid cap} (i : ℕ) (hcall : c.opens = some (id, sid, cap)) :
      AccountStep time c id (some u)
        (some { u with activeSessions := keptSessions cap (u.merged sid (time i)) })

section bodies
variable {C : Crypto} {env : Env} {v w : View Doc} {c : Call} {r : c.Reply}

/-- Removing records of codes keeps the other documents. -/
theorem removeMany_find {p : (k : Key) → Doc k → Bool} {r : Unit}
    (h : (Tx.updateMany p removed : Action Unit).run env v = .ok (r, w)) {k : Key}
    (hk : ∀ x, removed k x = x) : w.find k = v.find k := by
  rw [Tx.updateMany_find h]
  cases v.find k with
  | none => rfl
  | some x =>
      rw [Option.map_some, rewrite, hk, ite_self]

theorem createRecord_find {k : Key} {x : Doc k} {α : Type} {a r : α}
    (h : (Tx.insert k x >>= fun _ => pure a : Action α).run env v = .ok (r, w)) :
    v.find k = none ∧ w.find k = some x ∧ r = a ∧ ∀ k', k' ≠ k → w.find k' = v.find k' := by
  obtain ⟨_, u, hinsert, h⟩ := Tx.bind_ok h
  obtain ⟨hnone, -, rfl⟩ := Tx.insert_ok hinsert
  obtain ⟨rfl, rfl⟩ := Tx.pure_ok h
  exact ⟨hnone, View.find_put_self _ _ _, rfl, fun k' hk' => View.find_put_ne _ _ hk'⟩

theorem addAttempt_other {subject : CodeKey} {r : Bool}
    (h : (addAttempt subject).run env v = .ok (r, w)) (id : Id) :
    w.find (Key.user id) = v.find (Key.user id) := by
  cases subject <;>
  · obtain ⟨found, u, hfound, h⟩ := Tx.bind_ok h
    obtain ⟨-, rfl⟩ := Tx.pure_ok h
    exact (Tx.findOneAndUpdate_find hfound).2 _ (by simp)

theorem body_account (h : (c.body C).run env v = .ok (r, w)) (id : Id) :
    AccountStep env.time c id (v.find (Key.user id)) (w.find (Key.user id)) := by
  have same : w.find (Key.user id) = v.find (Key.user id) →
      AccountStep env.time c id (v.find (Key.user id)) (w.find (Key.user id)) := by
    intro heq
    rw [heq]
    exact .same _
  -- A call for one account leaves the others.
  have named : ∀ {userId : Id} (u : User) (x : Option User),
      v.find (Key.user userId) = some u → w.find (Key.user userId) = x →
      (∀ k, k ≠ Key.user userId → ¬ IsEvent k → w.find k = v.find k) →
      (userId = id → AccountStep env.time c id (some u) x) →
      AccountStep env.time c id (v.find (Key.user id)) (w.find (Key.user id)) := by
    intro userId u x hu hx hother hstep
    by_cases hid : id = userId
    · subst hid
      rw [hu, hx]
      exact hstep rfl
    · exact same (hother _ (by simpa using hid) (user_not_event id))
  cases c with
  | createUser data passwordHash =>
      obtain ⟨newId, u, hid, h⟩ := Tx.bind_ok h
      obtain ⟨rfl, rfl⟩ := Tx.freshId_ok hid
      obtain ⟨hnone, hsome, -, hother⟩ := createRecord_find h
      rw [View.find_tick] at hnone
      by_cases hid : id = env.id v.drawn
      · subst hid
        rw [hnone, hsome]
        exact .created data passwordHash rfl
      · exact same (hother _ (by simpa using hid))
  | putCompany companyId company =>
      have hput : (Tx.upsert (Key.company companyId) company fun _ => company : Action Unit).run
          env v = .ok (r, w) := h
      obtain ⟨-, rfl⟩ := Tx.upsert_ok hput
      exact same (View.find_put_ne _ _ (by simp))
  | activate acting userId =>
      obtain ⟨u, hu, hself, hother⟩ := setActive_ok h
      apply named u _ hu hself (fun k hk _ => hother k hk)
      rintro rfl
      exact .activated u rfl
  | deactivate acting userId =>
      obtain ⟨u, hu, hself | hself, hother⟩ := deactivateUser_ok h
      · exact named u _ hu hself hother fun hid => .deactivated u hid
      · exact named u _ hu hself hother fun hid => .released u hid
  | mobileLogin dto user =>
      obtain ⟨u, hu, -, hself, hother⟩ := displaceSessions_ok h
      exact named u _ hu hself hother fun hid => .ended u _ hid
  | adminLogin dto user sid cap =>
      obtain ⟨u, i, hu, -, hself, -, hother⟩ := openAudited_ok h
      apply named u _ hu hself hother
      rintro rfl
      exact .opened u i rfl
  | signOut actor =>
      obtain ⟨u, hu, hself, hother⟩ := signOut_ok h
      apply named u _ hu hself hother
      intro hid
      cases hcloses : actor.closes with
      | none => exact .ended u _ ⟨hid, hcloses⟩
      | some sid => exact .closed u rfl hcloses hid
  | recordEvent subject type =>
      exact same ((writeEvent_confined _ _ _).find_eq h (user_not_event id))
  | verifyOtp subject record code maxAttempts =>
      obtain ⟨t, u, ht, h⟩ := Tx.bind_ok h
      obtain ⟨-, rfl⟩ := Tx.getTime_ok ht
      obtain ⟨-, rfl⟩ := Tx.pure_ok h
      exact .same _
  | addAttempt subject => exact same (addAttempt_other h id)
  | supersedeResets userId => exact same (removeMany_find h fun _ => rfl)
  | supersedeCodes userId => exact same (removeMany_find h fun _ => rfl)
  | createReset userId phone record =>
      obtain ⟨t, u₁, ht, h⟩ := Tx.bind_ok h
      obtain ⟨-, rfl⟩ := Tx.getTime_ok ht
      obtain ⟨newId, u₂, hid, h⟩ := Tx.bind_ok h
      obtain ⟨-, rfl⟩ := Tx.freshId_ok hid
      exact same ((createRecord_find h).2.2.2 _ (by simp))
  | createLoginCode userId phone record =>
      obtain ⟨t, u₁, ht, h⟩ := Tx.bind_ok h
      obtain ⟨-, rfl⟩ := Tx.getTime_ok ht
      obtain ⟨newId, u₂, hid, h⟩ := Tx.bind_ok h
      obtain ⟨-, rfl⟩ := Tx.freshId_ok hid
      exact same ((createRecord_find h).2.2.2 _ (by simp))
  | setVerified recordId resetTokenHash =>
      obtain ⟨t, u₁, ht, h⟩ := Tx.bind_ok h
      obtain ⟨-, rfl⟩ := Tx.getTime_ok ht
      obtain ⟨b, u₂, hupdate, h⟩ := Tx.bind_ok h
      obtain ⟨-, rfl⟩ := Tx.pure_ok h
      obtain ⟨found, u₃, hfound, hb⟩ := Tx.bind_ok hupdate
      obtain ⟨-, rfl⟩ := Tx.pure_ok hb
      exact same ((Tx.findOneAndUpdate_find hfound).2 _ (by simp))
  | complete resetToken record passwordHash =>
      obtain ⟨u, t, hu, hself, -, hother⟩ := completeReset_ok h
      by_cases hid : id = record.userId
      · subst hid
        rw [hu, hself]
        exact .reset u rfl rfl
      · exact same (hother _ (by simpa using hid) (by simp) (user_not_event id))
  | signInByCode record holder sid cap =>
      obtain ⟨u, i, t, hu, -, hself, -, -, hother⟩ := consumeLoginCode_ok h
      by_cases hid : id = holder.id
      · subst hid
        rw [hu, hself]
        exact .opened u i rfl
      · exact same (hother _ (by simpa using hid) (by simp) (user_not_event id))
  | purgeExpired =>
      obtain ⟨t, u₁, ht, h⟩ := Tx.bind_ok h
      obtain ⟨-, rfl⟩ := Tx.getTime_ok ht
      exact same (removeMany_find h fun _ => rfl)

end bodies

section commits
variable {C : Crypto} {cfg : AuthConfig} {ev : Event Doc Call.Reply}

theorem account_step (hev : ev.Sound (machine C cfg)) (holder : Store.Older ev.base ev.before)
    (id : Id) :
    AccountStep ev.env.time ev.label id (ev.before.account id) (ev.after.account id) := by
  rcases hev.cases holder (Key.user id) with ⟨hbefore, hafter⟩ | ⟨-, hsame, -⟩
  · have hstep := body_account hev.ran id
    have hbase : (View.start ev.base.docs).find (Key.user id) = ev.before.find (Key.user id) :=
      hbefore
    rw [hbase, ← hafter] at hstep
    exact hstep
  · rw [Store.account, Store.account, hsame]
    exact .same _

end commits

end CiroFuel.Auth
