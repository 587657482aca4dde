import CiroFuel.Auth.Tokens
import CiroFuel.Snapshot.History

/-!
# Revocation is permanent

The count of revocations never falls and no token is ahead of it, so a token that
has fallen behind stays behind. A session that was closed would have to be opened
again under the same id, and every sign-in draws its own.
-/
namespace CiroFuel.Auth
open Snapshot

/-- The ids under which a commit opens a session. -/
def openedSid (ev : Event Doc Call.Reply) : Option String := ev.label.opens.map fun o => o.2.1

/-- No two sign-ins of the log drew the same session id. -/
def DistinctSids (log : List (Event Doc Call.Reply)) : Prop := (log.filterMap openedSid).Nodup

instance (log : List (Event Doc Call.Reply)) : Decidable (DistinctSids log) :=
  inferInstanceAs (Decidable (List.Nodup _))

theorem DistinctSids.later {later earlier : List (Event Doc Call.Reply)}
    (h : DistinctSids (later ++ earlier)) {ev ev' : Event Doc Call.Reply} (hev : ev ∈ earlier)
    (hev' : ev' ∈ later) {sid : String} (hsid : openedSid ev = some sid) :
    openedSid ev' ≠ some sid := by
  intro hsid'
  rw [DistinctSids, List.filterMap_append] at h
  have hdisjoint := List.disjoint_of_nodup_append h
  exact hdisjoint (List.mem_filterMap.mpr ⟨ev', hev', hsid'⟩)
    (List.mem_filterMap.mpr ⟨ev, hev, hsid⟩)

/-! ### Open sessions -/

section sessions
variable {u : User} {x : ActiveSession} {sid : String} {now : Instant} {cap : ℕ}

theorem User.mem_merged : x ∈ u.merged sid now ↔ x ∈ u.activeSessions ∨ x = ⟨sid, now⟩ := by
  simp [User.merged]

theorem mem_of_kept {merged : List ActiveSession} (h : x ∈ keptSessions cap merged) : x ∈ merged :=
  List.mem_of_mem_drop h

theorem User.hasSession_iff : u.hasSession sid = true ↔ ∃ x ∈ u.activeSessions, x.sid = sid := by
  simp [User.hasSession]

/-- Only opening a session adds one. -/
theorem AccountStep.session {time : ℕ → Instant} {c : Call} {id : Id} {o o' : Option User}
    (h : AccountStep time c id o o') {u' : User} (hu' : o' = some u')
    (hx : x ∈ u'.activeSessions) :
    (∃ u, o = some u ∧ x ∈ u.activeSessions) ∨
      ∃ i cap, c.opens = some (id, x.sid, cap) ∧ x.createdAt = time i := by
  cases h with
  | same => exact Or.inl ⟨u', hu', hx⟩
  | created data passwordHash =>
      cases hu'
      cases hx
  | activated u =>
      cases hu'
      exact Or.inl ⟨u, rfl, hx⟩
  | deactivated u =>
      cases hu'
      cases hx
  | released u =>
      cases hu'
      cases hx
  | ended u =>
      cases hu'
      cases hx
  | closed u =>
      cases hu'
      exact Or.inl ⟨u, rfl, (List.mem_filter.mp hx).1⟩
  | reset u =>
      cases hu'
      cases hx
  | @opened u sid cap i hcall =>
      cases hu'
      rcases User.mem_merged.mp (mem_of_kept hx) with hold | rfl
      · exact Or.inl ⟨u, rfl, hold⟩
      · exact Or.inr ⟨i, cap, hcall, rfl⟩

/-- A session that is not open stays so unless it is opened. -/
theorem AccountStep.closed_stays {time : ℕ → Instant} {c : Call} {id : Id} {u u' : User}
    (h : AccountStep time c id (some u) (some u')) (hclosed : u.hasSession sid = false)
    (hopens : ∀ cap, c.opens ≠ some (id, sid, cap)) : u'.hasSession sid = false := by
  by_contra hopen
  obtain ⟨x, hx, rfl⟩ := User.hasSession_iff.mp (by simpa using hopen)
  rcases h.session rfl hx with ⟨_, heq, hold⟩ | ⟨i, cap, hcall, -⟩
  · cases heq
    rw [User.hasSession_iff.mpr ⟨x, hold, rfl⟩] at hclosed
    cases hclosed
  · exact hopens cap hcall

end sessions

/-! ### Revoked tokens -/

/-- The account exists and no longer backs the token. -/
def RevokedAt (s : Store Doc) (t : JwtPayload) : Prop :=
  ∃ u, s.account t.sub = some u ∧ t.Revoked u

/-- Why a token is refused for good: its count has been passed, or it belongs to an
administrator and its session is not open. -/
def Dead (s : Store Doc) (t : JwtPayload) : Prop :=
  ∃ u, s.account t.sub = some u ∧
    (t.sgen.getD 0 < u.generation ∨
      isSessionCappedRole u.role = true ∧ ∀ sid, truthy t.sid = some sid → u.hasSession sid = false)

section dead
variable {C : Crypto} {cfg : AuthConfig} {P : Event Doc Call.Reply → Prop} {init : Store Doc}
variable {log later earlier : List (Event Doc Call.Reply)}
variable {s s₁ s₂ : Sys Doc Call.Reply HttpError Answer} {t t' : JwtPayload}

theorem Dead.revoked {s : Store Doc} (h : Dead s t) : RevokedAt s t := by
  obtain ⟨u, hu, hbehind | hclosed⟩ := h
  · exact ⟨u, hu, Or.inl (by omega)⟩
  · exact ⟨u, hu, Or.inr hclosed⟩

theorem RevokedAt.congr {s : Store Doc} (h : RevokedAt s t) (heq : t'.session = t.session) :
    RevokedAt s t' := by
  obtain ⟨u, hu, hrevoked⟩ := h
  have hsub : t'.sub = t.sub := congrArg Prod.fst heq
  exact ⟨u, by rwa [hsub], hrevoked.congr heq⟩

theorem RevokedAt.refused {s : Store Doc} (h : RevokedAt s t) : t.Refused s.docs := by
  obtain ⟨u, hu, hrevoked⟩ := h
  apply JwtPayload.Refused.of_revoked
  intro u' hu'
  cases hu.symm.trans hu'
  exact hrevoked

/-- One commit does not revive a token, unless it opens its session. -/
theorem Dead.step {ev : Event Doc Call.Reply} (hev : ev.Sound (machine C cfg))
    (hknown : Known C cfg ev) (h : Dead ev.before t)
    (hopens : ∀ sid, truthy t.sid = some sid → openedSid ev ≠ some sid) : Dead ev.after t := by
  obtain ⟨u, hu, hdead⟩ := h
  obtain ⟨u', hu', hon⟩ := hknown.onward _ u hu
  refine ⟨u', hu', ?_⟩
  rcases hdead with hbehind | ⟨hcapped, hclosed⟩
  · exact Or.inl (hbehind.trans_le hon.generation)
  · right
    constructor
    · rw [hon.role]
      exact hcapped
    · intro sid hsid
      have hstep := account_step hev hknown.older t.sub
      rw [hu, hu'] at hstep
      apply hstep.closed_stays (hclosed sid hsid)
      intro cap hcall
      apply hopens sid hsid
      rw [openedSid, hcall]
      rfl

/-- An issued token that is revoked is revoked for good. -/
theorem Issued.dead (h : Run (machine C cfg) init P log s) (hissued : Issued log t)
    (hrevoked : RevokedAt s.store t) : Dead s.store t := by
  obtain ⟨ev, hev, tokens, t₀, htokens, hmem, hobtained⟩ := hissued
  obtain ⟨u, hu, hle⟩ := issued_generation h ev hev tokens htokens
  have hsession := hobtained.session.trans (Call.tokens_session htokens hmem)
  simp only [JwtPayload.session, Prod.mk.injEq] at hsession
  obtain ⟨hsub, hgen, -⟩ := hsession
  obtain ⟨u', hu', hrevoked⟩ := hrevoked
  rw [hsub] at hu'
  cases hu.symm.trans hu'
  refine ⟨u, by rwa [hsub], ?_⟩
  rcases hrevoked with hne | hclosed
  · left
    omega
  · exact Or.inr hclosed

/-- The session id of an issued token was opened by a sign-in of the log. -/
theorem Issued.opened (hissued : Issued log t) {sid : String} (hsid : truthy t.sid = some sid) :
    ∃ ev ∈ log, openedSid ev = some sid := by
  obtain ⟨ev, hev, tokens, t₀, htokens, hmem, hobtained⟩ := hissued
  have hsession := hobtained.session.trans (Call.tokens_session htokens hmem)
  simp only [JwtPayload.session, Prod.mk.injEq] at hsession
  obtain ⟨-, -, hsame⟩ := hsession
  obtain ⟨cap, hopens⟩ := Call.tokens_sid htokens (hsame.symm.trans hsid)
  exact ⟨ev, hev, by rw [openedSid, hopens]; rfl⟩

theorem Issued.stays_dead (hissued : Issued earlier t)
    (h₁ : Run (machine C cfg) init P earlier s₁)
    (h₂ : Run (machine C cfg) init P (later ++ earlier) s₂)
    (hdistinct : DistinctSids (later ++ earlier)) (hrevoked : RevokedAt s₁.store t) :
    Dead s₂.store t := by
  apply (known h₂).since (J := fun store => Dead store t)
  · rw [← h₁.leaves]
    exact hissued.dead h₁ hrevoked
  · intro ev hev hsound hP hdead
    apply hdead.step hsound hP.2
    intro sid hsid
    obtain ⟨opening, hmem, hopened⟩ := hissued.opened hsid
    exact hdistinct.later hmem hev hopened

end dead

/-- A token that was issued and then found revoked is refused in every later state,
and so is whatever is obtained from it; and renewing a token never leaves its session. -/
theorem revocation_permanent (C : Crypto) (cfg : AuthConfig) (init : Store Doc)
    (P : Event Doc Call.Reply → Prop) {later earlier : List (Event Doc Call.Reply)}
    {s₁ s₂ : Sys Doc Call.Reply HttpError Answer}
    (h₁ : Run (machine C cfg) init P earlier s₁)
    (h₂ : Run (machine C cfg) init P (later ++ earlier) s₂)
    (hdistinct : DistinctSids (later ++ earlier)) {t : JwtPayload} (hissued : Issued earlier t)
    (hrevoked : RevokedAt s₁.store t) :
    (∀ t', Obtained t t' → t'.Refused s₂.store.docs) ∧
      ∀ (t' : JwtPayload) (tokens : TokenPair), (refresh t').MayReturn tokens →
        ∀ t'', tokens.Has t'' → t''.session = t'.session := by
  constructor
  · intro t' hobtained
    have hdead := hissued.stays_dead h₁ h₂ hdistinct hrevoked
    exact (hdead.revoked.congr hobtained.session).refused
  · intro t' tokens hrefresh
    exact refresh_session.returned hrefresh

namespace Sample

/-- Hash functions that show what they hash. -/
def crypto : Crypto where
  bcryptHash _ plain := plain
  bcryptCompare plain hash := plain = hash
  sha256 plain := plain

def admin : NewUser :=
  { role := .superAdmin, email := "admin@ciro", fullName := "Admin", phone := "+201" }

def adminDocument : UserDocument := (userOf admin "secret").withId 10

def adminLogin (sid : String) : Request :=
  .login { email := "admin@ciro", password := "secret" } sid

/-- An administrator signs in, signs out, and signs in again. -/
def signsOut : List (Act Request) :=
  serving (Request.createUser admin "secret" "") 0 2 10 ++ serving (adminLogin "first") 1 4 20 ++
    serving (Request.logout (payloadFor adminDocument 0 (some "first"))) 2 3 30 ++
    serving (adminLogin "second") 3 4 40

/-- The log has four commits. -/
def fourCommits (p : Event Doc Call.Reply → Event Doc Call.Reply → Event Doc Call.Reply →
    Event Doc Call.Reply → Bool) : List (Event Doc Call.Reply) → Bool
  | [fourth, third, second, first] => p fourth third second first
  | _ => false

end Sample

theorem revocation_permanent_signsOut : ∃ log s, Run (machine Sample.crypto {}) Store.empty
    (fun _ => True) log s ∧
    (payloadFor Sample.adminDocument 0 (some "first")).Refused s.store.docs ∧
    ∃ u, s.store.account 10 = some u ∧ u.hasSession "second" = true := by
  obtain ⟨log, s, hrun, htest⟩ := exists_run (machine Sample.crypto {}) Store.empty
    (fun _ => True) Sample.signsOut
    (fun log s => Sample.fourCommits (fun second signedOut first created =>
      decide (DistinctSids [second, signedOut, first, created]) &&
        decide (first.label.tokens first.reply =
          some (issueTokenPair Sample.adminDocument 0 (some "first"))) &&
        ((signedOut.after.account 10).any fun u =>
          isSessionCappedRole u.role && !u.hasSession "first") &&
        ((s.store.account 10).any fun u => u.hasSession "second")) log) (by decide +kernel)
  unfold Sample.fourCommits at htest
  split at htest
  · rename_i second signedOut first created
    simp only [Bool.and_eq_true, decide_eq_true_eq, Option.any_eq_true, Bool.not_eq_true'] at htest
    obtain ⟨⟨⟨hdistinct, htokens⟩, u, hu, hcapped, hclosed⟩, hopen⟩ := htest
    have hlater : Run (machine Sample.crypto {}) Store.empty (fun _ => True)
        ([second] ++ [signedOut, first, created]) s := hrun
    obtain ⟨s₁, h₁⟩ := hlater.cut
    have hissued : Issued [signedOut, first, created]
        (payloadFor Sample.adminDocument 0 (some "first")) :=
      ⟨first, by simp, _, _, htokens, Or.inl rfl, .self⟩
    have hrevoked : RevokedAt s₁.store (payloadFor Sample.adminDocument 0 (some "first")) := by
      rw [h₁.leaves]
      refine ⟨u, hu, Or.inr ⟨hcapped, fun sid hsid => ?_⟩⟩
      cases hsid
      exact hclosed
    have hrefused := revocation_permanent Sample.crypto {} Store.empty (fun _ => True) h₁ hlater
      hdistinct hissued hrevoked
    exact ⟨_, s, hrun, hrefused.1 _ .self, hopen⟩
  · cases htest

end CiroFuel.Auth
