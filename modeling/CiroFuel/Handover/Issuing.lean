import CiroFuel.Handover.Stages

/-!
# Issued codes

As long as no two calls that issue a code are at once between caching it and storing its
record, and no cached code is replaced or deleted that a valid record needs, the cache
has the code of every valid record.
-/
namespace CiroFuel.Handover.Cached
open Interleaving

/-! ### The invariant -/

section invariant
variable {C : Crypto} {expiryMinutes : ℕ} {orderId : Id} {purpose : OtpPurpose}

/-- What a client needs that is about to store a record. -/
structure Fits (C : Crypto) (orderId : Id) (purpose : OtpPurpose) (s : Codes) (now : Instant)
    (r : OtpRecord) (c : Client) : Prop where
  holds : ∃ code, s.Holds C orderId purpose code (toOtp r)
  stale : s.valid orderId purpose now = false
  dropped : pushes c = true → s.unusedOf orderId purpose = []

/-- What a client sees that is about to return. -/
def Sees (orderId : Id) (purpose : OtpPurpose) (s : Codes) (now : Instant) (c : Client) : Prop :=
  ∀ t, now ≤ t → returns orderId t c = some purpose →
    s.valid orderId purpose t = true ∧ ∀ t' ≤ t, returns orderId t' c = some purpose

/-- At most one code is unused, and the cache has it if it is valid, or is about to be. -/
structure Kept (C : Crypto) (expiryMinutes : ℕ) (orderId : Id) (purpose : OtpPurpose) (s : Sys) :
    Prop where
  stages : ∀ c ∈ s.clients, Stage C expiryMinutes s.clock c
  single : s.clients.countP (holding orderId purpose) ≤ 1
  fits : ∀ c ∈ s.clients, ∀ r, held orderId purpose c = some r →
    Fits C orderId purpose s.state s.clock r c
  unique : (s.state.unusedOf orderId purpose).length ≤ 1
  stored : ∀ r, .code r ∈ s.state.unusedOf orderId purpose → s.clock < r.expiresAt →
    ∃ code, s.state.Holds C orderId purpose code (toOtp r)
  sees : ∀ c ∈ s.clients, Sees orderId purpose s.state s.clock c

theorem Codes.valid_earlier {s : Codes} {now later : Instant} (hle : now ≤ later)
    (h : s.valid orderId purpose later = true) : s.valid orderId purpose now = true := by
  obtain ⟨x, hx, hvalid⟩ := List.any_eq_true.mp h
  refine List.any_eq_true.mpr ⟨x, hx, ?_⟩
  cases x with
  | null | marked => cases hvalid
  | code r => exact decide_eq_true (hle.trans_lt (of_decide_eq_true hvalid))

/-- Clients other than the one that goes on hold nothing if it held something. -/
theorem Kept.others {s : Sys} {i : ℕ} {c c' c₁ : Client}
    (h : Kept C expiryMinutes orderId purpose s) (hc : s.clients[i]? = some c)
    (hheld : holding orderId purpose c = true) (hnew : held orderId purpose c' = none)
    (hmem : c₁ ∈ s.clients.set i c') : held orderId purpose c₁ = none := by
  have hcount := countP_set hc (holding orderId purpose) c'
  have hnone : holding orderId purpose c' = false := by rw [holding, hnew]; rfl
  rw [hheld, hnone, Bool.toNat_true, Bool.toNat_false] at hcount
  have hsingle := h.single
  have hzero : (s.clients.set i c').countP (holding orderId purpose) = 0 := by omega
  simpa [holding] using List.countP_eq_zero.mp hzero c₁ hmem

/-- A client goes on and holds no more than it did. -/
theorem Kept.set {s : Sys} {i : ℕ} {c c' : Client} {state : Codes}
    (h : Kept C expiryMinutes orderId purpose s) (hc : s.clients[i]? = some c)
    (hstage : Stage C expiryMinutes s.clock c')
    (hholds : held orderId purpose c' = none ∨ holding orderId purpose c = true ∨
      ∀ c₁ ∈ s.clients, held orderId purpose c₁ = none)
    (hnew : ∀ r, held orderId purpose c' = some r →
      Fits C orderId purpose state s.clock r c')
    (hfits : ∀ c₁ ∈ s.clients.set i c', ∀ r, held orderId purpose c₁ = some r → c₁ ∈ s.clients →
      Fits C orderId purpose s.state s.clock r c₁ → Fits C orderId purpose state s.clock r c₁)
    (hunique : (state.unusedOf orderId purpose).length ≤ 1)
    (hstored : ∀ r, .code r ∈ state.unusedOf orderId purpose → s.clock < r.expiresAt →
      ∃ code, state.Holds C orderId purpose code (toOtp r))
    (hnewsees : Sees orderId purpose state s.clock c')
    (hsees : ∀ c₁ ∈ s.clients, Sees orderId purpose s.state s.clock c₁ →
      Sees orderId purpose state s.clock c₁) :
    Kept C expiryMinutes orderId purpose
      { s with state := state, clients := s.clients.set i c' } where
  stages := by
    intro c₁ hmem
    rcases List.mem_or_eq_of_mem_set hmem with hold | rfl
    · exact h.stages c₁ hold
    · exact hstage
  single := by
    have hcount := countP_set hc (holding orderId purpose) c'
    have hsingle := h.single
    change (s.clients.set i c').countP (holding orderId purpose) ≤ 1
    have hle := Bool.toNat_le (holding orderId purpose c')
    rcases hholds with hnone | hsome | hnobody
    · have hfalse : holding orderId purpose c' = false := by rw [holding, hnone]; rfl
      rw [hfalse, Bool.toNat_false] at hcount
      omega
    · rw [hsome, Bool.toNat_true] at hcount
      omega
    · have hzero : s.clients.countP (holding orderId purpose) = 0 :=
        List.countP_eq_zero.mpr fun c₁ hmem => by simp [holding, hnobody c₁ hmem]
      omega
  fits := by
    intro c₁ hmem r hr
    rcases List.mem_or_eq_of_mem_set hmem with hold | rfl
    · exact hfits c₁ hmem r hr hold (h.fits c₁ hold r hr)
    · exact hnew r hr
  unique := hunique
  stored := hstored
  sees := by
    intro c₁ hmem
    rcases List.mem_or_eq_of_mem_set hmem with hold | rfl
    · exact hsees c₁ hold (h.sees c₁ hold)
    · exact hnewsees

/-- A client goes on without the step, and the codes for the step stay as they are. -/
theorem Kept.quit {s : Sys} {i : ℕ} {c c' : Client} (h : Kept C expiryMinutes orderId purpose s)
    (hc : s.clients[i]? = some c) (hstage : Stage C expiryMinutes s.clock c')
    (hheld : held orderId purpose c' = none)
    (hnewsees : Sees orderId purpose s.state s.clock c') :
    Kept C expiryMinutes orderId purpose { s with clients := s.clients.set i c' } :=
  h.set hc hstage (Or.inl hheld) (fun _ hr => nomatch hheld.symm.trans hr)
    (fun _ _ _ _ _ hfits => hfits) h.unique h.stored hnewsees fun _ _ hsees => hsees

theorem sees_of_none {s : Codes} {now : Instant} {c : Client}
    (h : ∀ t, returns orderId t c = none) : Sees orderId purpose s now c :=
  fun t _ hret => nomatch (h t).symm.trans hret

/-- The codes for the step are the same, and so is what the client holds. -/
theorem Kept.same {s : Sys} {i : ℕ} {c c' : Client} {state : Codes}
    (h : Kept C expiryMinutes orderId purpose s) (hc : s.clients[i]? = some c)
    (hsame : Codes.Same orderId purpose s.state state) (hstage : Stage C expiryMinutes s.clock c')
    (hheld : ∀ r, held orderId purpose c' = some r → ∃ r', held orderId purpose c = some r' ∧
      toOtp r = toOtp r' ∧ pushes c' = false)
    (hnewsees : Sees orderId purpose state s.clock c') :
    Kept C expiryMinutes orderId purpose
      { s with state := state, clients := s.clients.set i c' } := by
  have hfits : ∀ c₁ r, Fits C orderId purpose s.state s.clock r c₁ →
      Fits C orderId purpose state s.clock r c₁ := by
    rintro c₁ r ⟨⟨code, hholds⟩, hstale, hdropped⟩
    exact ⟨⟨code, hsame.holds hholds⟩, hsame.valid.trans hstale, fun hp => hsame.nil (hdropped hp)⟩
  refine h.set hc hstage ?_ ?_ (fun c₁ _ r _ _ => hfits c₁ r) (hsame.length.trans_le h.unique) ?_
    hnewsees ?_
  · cases hnew : held orderId purpose c' with
    | none => exact Or.inl rfl
    | some r =>
        obtain ⟨r', hr', -⟩ := hheld r hnew
        exact Or.inr (Or.inl (by rw [holding, hr']; rfl))
  · intro r hr
    obtain ⟨r', hr', heq, hpushes⟩ := hheld r hr
    obtain ⟨hholds, hstale, -⟩ := hfits c r' (h.fits c (List.mem_of_getElem? hc) r' hr')
    exact ⟨heq ▸ hholds, hstale, fun hp => nomatch hpushes.symm.trans hp⟩
  · intro r hr hvalid
    obtain ⟨r', hr', heq⟩ := hsame.mem hr
    obtain ⟨code, hholds⟩ := h.stored r' hr' (by
      have hexpires := congrArg Otp.OtpRecordLike.expiresAt heq
      exact hvalid.trans_eq hexpires.symm)
    refine ⟨code, hsame.holds ?_⟩
    have hhash := congrArg Otp.OtpRecordLike.hash heq
    have hsalt := congrArg Otp.OtpRecordLike.salt heq
    have hexpires := congrArg Otp.OtpRecordLike.expiresAt heq
    simp only at hhash hsalt hexpires
    rwa [Codes.Holds, hhash, hsalt, hexpires] at hholds
  · intro c₁ _ hsees t hle hret
    obtain ⟨hvalid, hmono⟩ := hsees t hle hret
    exact ⟨hsame.valid.trans hvalid, hmono⟩

/-- Unused codes for the step are dropped or used, and nobody is about to return because of one. -/
theorem Kept.fewer {s : Sys} {i : ℕ} {c c' : Client} {state : Codes}
    (h : Kept C expiryMinutes orderId purpose s) (hc : s.clients[i]? = some c)
    (hsub : (state.unusedOf orderId purpose).Sublist (s.state.unusedOf orderId purpose))
    (hcache : state.cache (orderId, purpose) = s.state.cache (orderId, purpose))
    (hstage : Stage C expiryMinutes s.clock c')
    (hheld : ∀ r, held orderId purpose c' = some r → held orderId purpose c = some r ∧
      state.unusedOf orderId purpose = [])
    (hreturns : ∀ c₁ ∈ s.clients, ∀ t, s.clock ≤ t → returns orderId t c₁ ≠ some purpose)
    (hnew : ∀ t, returns orderId t c' = none) :
    Kept C expiryMinutes orderId purpose
      { s with state := state, clients := s.clients.set i c' } := by
  have hstale : s.state.valid orderId purpose s.clock = false →
      state.valid orderId purpose s.clock = false := by
    intro hold
    rw [Codes.valid, List.any_eq_false] at hold ⊢
    exact fun x hx => hold x (hsub.subset hx)
  have hholds : ∀ code r, s.state.Holds C orderId purpose code r →
      state.Holds C orderId purpose code r := by
    rintro code r ⟨x, hx, hrest⟩
    exact ⟨x, hcache.trans hx, hrest⟩
  have hfits : ∀ c₁ r, Fits C orderId purpose s.state s.clock r c₁ →
      Fits C orderId purpose state s.clock r c₁ := by
    rintro c₁ r ⟨⟨code, hcode⟩, hold, hdropped⟩
    exact ⟨⟨code, hholds code _ hcode⟩, hstale hold,
      fun hp => List.sublist_nil.mp (hdropped hp ▸ hsub)⟩
  refine h.set hc hstage ?_ ?_ (fun c₁ _ r _ _ => hfits c₁ r) (hsub.length_le.trans h.unique) ?_
    (sees_of_none hnew) ?_
  · cases hnew : held orderId purpose c' with
    | none => exact Or.inl rfl
    | some r => exact Or.inr (Or.inl (by rw [holding, (hheld r hnew).1]; rfl))
  · intro r hr
    obtain ⟨hr', hnil⟩ := hheld r hr
    obtain ⟨hcode, hold, -⟩ := hfits c r (h.fits c (List.mem_of_getElem? hc) r hr')
    exact ⟨hcode, hold, fun _ => hnil⟩
  · intro r hr hvalid
    obtain ⟨code, hcode⟩ := h.stored r (hsub.subset hr) hvalid
    exact ⟨code, hholds code _ hcode⟩
  · exact fun c₁ hmem _ t hle hret => absurd hret (hreturns c₁ hmem t hle)

/-- The cached code for the step is replaced or deleted. -/
theorem Kept.recached {s : Sys} {i : ℕ} {c c' : Client} {state : Codes}
    (h : Kept C expiryMinutes orderId purpose s) (hc : s.clients[i]? = some c)
    (hunused : state.unusedOf orderId purpose = s.state.unusedOf orderId purpose)
    (hstale : s.state.valid orderId purpose s.clock = false)
    (hnobody : ∀ c₁ ∈ s.clients, held orderId purpose c₁ = none)
    (hstage : Stage C expiryMinutes s.clock c')
    (hheld : ∀ r, held orderId purpose c' = some r →
      (∃ code, state.Holds C orderId purpose code (toOtp r)) ∧ pushes c' = false)
    (hnew : ∀ t, returns orderId t c' = none) :
    Kept C expiryMinutes orderId purpose
      { s with state := state, clients := s.clients.set i c' } := by
  have hsame : ∀ t, state.valid orderId purpose t = s.state.valid orderId purpose t := by
    intro t
    rw [Codes.valid, hunused, Codes.valid]
  refine h.set hc hstage (Or.inr (Or.inr hnobody)) ?_ ?_ (hunused ▸ h.unique) ?_
    (sees_of_none hnew) ?_
  · intro r hr
    obtain ⟨hholds, hpushes⟩ := hheld r hr
    exact ⟨hholds, (hsame _).trans hstale, fun hp => by cases hpushes.symm.trans hp⟩
  · intro c₁ _ r hr hold
    cases (hnobody c₁ hold).symm.trans hr
  · intro r hr hvalid
    rw [hunused] at hr
    have hfalse := List.any_eq_false.mp hstale (.code r) hr
    exact absurd (decide_eq_true hvalid) hfalse
  · intro c₁ _ hsees t hle hret
    obtain ⟨hvalid, hmono⟩ := hsees t hle hret
    exact ⟨(hsame t).trans hvalid, hmono⟩

/-- A record is stored whose code is in the cache. -/
theorem Kept.pushed {s : Sys} {i : ℕ} {c c' : Client} {state : Codes} {r : OtpRecord}
    (h : Kept C expiryMinutes orderId purpose s) (hc : s.clients[i]? = some c)
    (hr : held orderId purpose c = some r) (hpushes : pushes c = true)
    (hstate : state.unusedOf orderId purpose = s.state.unusedOf orderId purpose ++ [.code r] ∨
      state.unusedOf orderId purpose = [])
    (hcache : state.cache (orderId, purpose) = s.state.cache (orderId, purpose))
    (hstage : Stage C expiryMinutes s.clock c') (hheld : held orderId purpose c' = none)
    (hnew : ∀ t, returns orderId t c' = none) :
    Kept C expiryMinutes orderId purpose
      { s with state := state, clients := s.clients.set i c' } := by
  obtain ⟨⟨code, x, hx, hrest⟩, hstale, hdropped⟩ := h.fits c (List.mem_of_getElem? hc) r hr
  have hnil := hdropped hpushes
  have hsub : ∀ y ∈ state.unusedOf orderId purpose, y = .code r := by
    intro y hy
    rcases hstate with hone | hnone
    · rw [hone, hnil] at hy
      exact List.mem_singleton.mp hy
    · rw [hnone] at hy
      cases hy
  refine h.set hc hstage (Or.inl hheld) (fun r' hr' => nomatch hheld.symm.trans hr') ?_ ?_ ?_
    (sees_of_none hnew) ?_
  · intro c₁ hmem r' hr' _ _
    have hholding : holding orderId purpose c = true := by rw [holding, hr]; rfl
    exact nomatch (h.others hc hholding hheld hmem).symm.trans hr'
  · rcases hstate with hone | hnone
    · rw [hone, hnil]
      exact le_rfl
    · rw [hnone]
      exact Nat.zero_le _
  · intro r' hr' _
    obtain rfl := Slot.code.inj (hsub _ hr')
    exact ⟨code, x, hcache.trans hx, hrest⟩
  · intro c₁ _ hsees t hle hret
    have hvalid := Codes.valid_earlier hle (hsees t hle hret).1
    exact nomatch hstale.symm.trans hvalid

/-- The command is about other codes, or changes attempts only. -/
theorem Kept.elsewhere {s : Sys} {i : ℕ} {c c' : Client} {state : Codes}
    (h : Kept C expiryMinutes orderId purpose s) (hc : s.clients[i]? = some c)
    (hsame : Codes.Same orderId purpose s.state state) (hstage : Stage C expiryMinutes s.clock c')
    (hheld : held orderId purpose c' = none) (hnew : ∀ t, returns orderId t c' = none) :
    Kept C expiryMinutes orderId purpose
      { s with state := state, clients := s.clients.set i c' } :=
  h.same hc hsame hstage (fun _ hr => nomatch hheld.symm.trans hr) (sees_of_none hnew)

/-! ### What each client does next -/

section steps
variable {s : Sys} {i : ℕ} {orderId' : Id} {purpose' : OtpPurpose} {q : Request}

/-- The client goes on as its program does with what its command answers. -/
def Sys.answered (s : Sys) (i : ℕ) (q : Request) (command : Command)
    (next : Option command.Reply → Handler Answer) : Sys :=
  { s with
    state := (command.exec s.state s.clock).2
    clients := s.clients.set i ⟨q, some (next (some (command.exec s.state s.clock).1))⟩ }

theorem returns_pure {draw : Fin 1000000} {salt : String} {t : Instant}
    {next : Option Instant → Handler Answer} {a : Answer} (h : next (some t) = .pure a) :
    returns orderId t ⟨.issue orderId' purpose' draw salt, some (.command .getTime next)⟩ =
      if orderId' = orderId then some purpose' else none := by
  simp only [returns, h]

theorem returns_command {draw : Fin 1000000} {salt : String} {t : Instant}
    {next : Option Instant → Handler Answer} {command : Command}
    {next' : Option command.Reply → Handler Answer} (h : next (some t) = .command command next') :
    returns orderId t ⟨.issue orderId' purpose' draw salt, some (.command .getTime next)⟩ =
      none := by
  simp only [returns, h]

theorem returns_check (draw : Fin 1000000) (salt : String) {order : OrderCodes}
    (hclean : order.hasNull = false) (t : Instant) :
    returns orderId t ⟨.issue orderId' purpose' draw salt,
      some (check C expiryMinutes orderId' purpose' (generateCode draw) salt order)⟩ =
        if order.otps.any (active purpose' t) = true ∧ orderId' = orderId then some purpose'
        else none := by
  have hnull : ¬meetsNull (active purpose' t) order.otps = true := by
    rw [meetsNull_clean hclean]
    exact Bool.false_ne_true
  by_cases hactive : order.otps.any (active purpose' t) = true
  · simp only [hactive, true_and]
    exact returns_pure ((if_neg hnull).trans (if_pos hactive))
  · rw [if_neg fun h => hactive h.1]
    exact returns_command ((if_neg hnull).trans (if_neg hactive))

theorem any_active (o : OrderCodes) (t : Instant) : o.otps.any (active purpose t) =
    (o.otps.filter (unused purpose)).any fun x => x.any fun r => t < r.expiresAt := by
  rw [List.any_filter]
  rfl

/-- An issue has read the order. -/
theorem sees_check {s : Codes} {now : Instant} {draw : Fin 1000000} {salt : String}
    {order : OrderCodes} (horder : s.orders orderId' = some order) (hclean : order.hasNull = false) :
    Sees orderId purpose s now ⟨.issue orderId' purpose' draw salt,
      some (check C expiryMinutes orderId' purpose' (generateCode draw) salt order)⟩ := by
  intro t _ hret
  rw [returns_check draw salt hclean] at hret
  split_ifs at hret with hactive
  obtain ⟨hactive, rfl⟩ := hactive
  obtain rfl := Option.some.inj hret
  rw [any_active] at hactive
  refine ⟨?_, fun t' hle => ?_⟩
  · rw [Codes.valid, Codes.unusedOf, horder]
    exact hactive
  · rw [returns_check draw salt hclean, any_active]
    refine if_pos ⟨?_, rfl⟩
    obtain ⟨x, hx, hvalid⟩ := List.any_eq_true.mp hactive
    refine List.any_eq_true.mpr ⟨x, hx, ?_⟩
    cases x with
    | null | marked => cases hvalid
    | code r => exact decide_eq_true (hle.trans_lt (of_decide_eq_true hvalid))

theorem Kept.checking {draw : Fin 1000000} {salt : String} {order : OrderCodes}
    (h : Kept C expiryMinutes orderId purpose s)
    (hc : s.clients[i]? = some ⟨.issue orderId' purpose' draw salt,
      some (check C expiryMinutes orderId' purpose' (generateCode draw) salt order)⟩) :
    Kept C expiryMinutes orderId purpose
      { s with clients := s.clients.set i ⟨.issue orderId' purpose' draw salt,
        some (if meetsNull (active purpose' s.clock) order.otps then .fail internal
          else if order.otps.any (active purpose' s.clock) then .pure .done
          else renew C expiryMinutes orderId' purpose' (generateCode draw) salt)⟩ } := by
  split_ifs
  · exact h.quit hc (.failed _ _) rfl (sees_of_none fun _ => rfl)
  · exact h.quit hc (.returned _ _) rfl (sees_of_none fun _ => rfl)
  · exact h.quit hc (.renewing orderId' purpose' draw salt) rfl (sees_of_none fun _ => rfl)

theorem generateCode_ne_empty (draw : Fin 1000000) : generateCode draw ≠ "" := by
  intro h
  have hlength := congrArg String.length h
  simp [generateCode] at hlength

theorem pair_ne {a a' : Id} {b b' : OtpPurpose} (h : ¬(a' = a ∧ b' = b)) : (a', b') ≠ (a, b) :=
  fun heq => h (Prod.mk.inj heq)

/-- The code is in the cache before its record is stored. -/
theorem Kept.caching {draw : Fin 1000000} {salt : String} {issuedAt : Instant}
    (h : Kept C expiryMinutes orderId purpose s)
    (hc : s.clients[i]? = some ⟨.issue orderId' purpose' draw salt,
      some (remember expiryMinutes orderId' purpose' (generateCode draw)
        (Otp.issue C (generateCode draw) salt expiryMinutes issuedAt))⟩)
    (hissued : issuedAt ≤ s.clock)
    (hstale : orderId' = orderId ∧ purpose' = purpose →
      s.state.valid orderId purpose s.clock = false ∧
        ∀ c₁ ∈ s.clients, held orderId purpose c₁ = none) :
    Kept C expiryMinutes orderId purpose
      { s with
        state := s.state.cached orderId' purpose'
          (some ⟨generateCode draw, s.clock + 1000 * (expiryMinutes * 60)⟩)
        clients := s.clients.set i ⟨.issue orderId' purpose' draw salt,
          some (cached orderId' purpose'
            (Otp.issue C (generateCode draw) salt expiryMinutes issuedAt))⟩ } := by
  by_cases hmine : orderId' = orderId ∧ purpose' = purpose
  · obtain ⟨hvalid, hnobody⟩ := hstale hmine
    obtain ⟨rfl, rfl⟩ := hmine
    refine h.recached hc rfl hvalid hnobody (.cached _ _ draw salt _) (fun r hr => ⟨?_, rfl⟩)
      fun _ => rfl
    have hheld : some _ = some r := (if_pos ⟨rfl, rfl⟩).symm.trans hr
    obtain rfl := Option.some.inj hheld
    refine ⟨generateCode draw, _, Function.update_self _ _ _, rfl, generateCode_ne_empty draw, rfl,
      ?_⟩
    have hminutes : expiryMinutes * 60000 = 1000 * (expiryMinutes * 60) := by omega
    exact (Nat.add_le_add_right hissued _).trans_eq (congrArg _ hminutes)
  · refine h.elsewhere hc (same_cached (pair_ne hmine) _) (.cached _ _ draw salt _) ?_ fun _ => rfl
    exact if_neg hmine

theorem Kept.stamping {draw : Fin 1000000} {salt : String} {record : Otp.OtpRecordLike}
    (h : Kept C expiryMinutes orderId purpose s)
    (hc : s.clients[i]? = some ⟨.issue orderId' purpose' draw salt,
      some (cached orderId' purpose' record)⟩)
    (createdAt : Instant) :
    Kept C expiryMinutes orderId purpose
      { s with
        clients := s.clients.set i ⟨.issue orderId' purpose' draw salt,
          some (store orderId' purpose' (otpRecord purpose' record createdAt))⟩ } := by
  have hstage : Stage C expiryMinutes s.clock ⟨.issue orderId' purpose' draw salt,
      some (store orderId' purpose' (otpRecord purpose' record createdAt))⟩ :=
    .storing orderId' draw salt (otpRecord purpose' record createdAt) rfl
  refine h.same hc (.refl _) hstage (fun r hr => ?_) (sees_of_none fun t => ?_)
  · by_cases hmine : orderId' = orderId ∧ purpose' = purpose
    · have hr : some _ = some r := (if_pos hmine).symm.trans hr
      obtain rfl := Option.some.inj hr
      exact ⟨_, if_pos hmine, rfl, rfl⟩
    · exact nomatch (if_neg hmine).symm.trans hr
  · rfl

theorem Kept.storing {draw : Fin 1000000} {salt : String} {record : OtpRecord}
    (h : Kept C expiryMinutes orderId purpose s)
    (hc : s.clients[i]? = some ⟨.issue orderId' record.purpose draw salt,
      some (store orderId' record.purpose record)⟩)
    (hunused : record.usedAt = none) :
    Kept C expiryMinutes orderId purpose
      { s with
        state := s.state.update orderId' (·.pullUnused record.purpose)
        clients := s.clients.set i ⟨.issue orderId' record.purpose draw salt,
          some (Cached.pushed orderId' record)⟩ } := by
  have hreturns : ∀ t, returns orderId t ⟨.issue orderId' record.purpose draw salt,
      some (Cached.pushed orderId' record)⟩ = none :=
    fun _ => rfl
  have hstage : Stage C expiryMinutes s.clock ⟨.issue orderId' record.purpose draw salt,
      some (Cached.pushed orderId' record)⟩ :=
    .pushing orderId' draw salt record hunused
  by_cases hmine : orderId' = orderId ∧ record.purpose = purpose
  · have hr : held orderId purpose ⟨.issue orderId' record.purpose draw salt,
        some (store orderId' record.purpose record)⟩ = some record := if_pos hmine
    have hstale := (h.fits _ (List.mem_of_getElem? hc) record hr).stale
    obtain ⟨rfl, rfl⟩ := hmine
    have hnil : (s.state.update orderId' (·.pullUnused record.purpose)).unusedOf orderId'
        record.purpose = [] := by
      cases ho : s.state.orders orderId' with
      | none => simp [Codes.unusedOf, Codes.update, ho]
      | some o => rw [update_unusedOf ho, pullUnused_nil]
    refine h.fewer hc (hnil ▸ List.nil_sublist _) rfl hstage (fun r hr' => ?_) ?_ hreturns
    · have hsame : some record = some r := (if_pos ⟨rfl, rfl⟩).symm.trans hr'
      exact ⟨hr.trans hsame, hnil⟩
    · intro c₁ hmem t hle hret
      have hvalid := Codes.valid_earlier hle (h.sees c₁ hmem t hle hret).1
      cases hstale.symm.trans hvalid
  · refine h.elsewhere hc (same_update _ fun horder o => ?_) hstage (if_neg hmine) hreturns
    rw [pullUnused_other fun hpurpose => hmine ⟨horder, hpurpose⟩]

theorem Kept.pushing {draw : Fin 1000000} {salt : String} {record : OtpRecord}
    (h : Kept C expiryMinutes orderId purpose s)
    (hc : s.clients[i]? = some ⟨.issue orderId' record.purpose draw salt,
      some (Cached.pushed orderId' record)⟩)
    (hunused : record.usedAt = none) :
    Kept C expiryMinutes orderId purpose
      { s with
        state := s.state.update orderId' (·.push record)
        clients := s.clients.set i ⟨.issue orderId' record.purpose draw salt,
          some (.pure .done)⟩ } := by
  have hreturns : ∀ t, returns orderId t
      (⟨.issue orderId' record.purpose draw salt, some (.pure .done)⟩ : Client) = none :=
    fun _ => rfl
  by_cases hmine : orderId' = orderId ∧ record.purpose = purpose
  · have hr : held orderId purpose ⟨.issue orderId' record.purpose draw salt,
        some (Cached.pushed orderId' record)⟩ = some record := if_pos hmine
    obtain ⟨rfl, rfl⟩ := hmine
    refine h.pushed hc hr rfl ?_ rfl (.returned _ .done) rfl hreturns
    cases ho : s.state.orders orderId' with
    | none => exact Or.inr (by simp [Codes.unusedOf, Codes.update, ho])
    | some o =>
        left
        rw [update_unusedOf ho, push_filter, if_pos (unused_code.mpr ⟨rfl, hunused⟩),
          Codes.unusedOf, ho]
        rfl
  · refine h.elsewhere hc (same_update _ fun horder o => ?_) (.returned _ .done) rfl hreturns
    have hother : ¬unused purpose (.code record) = true :=
      fun hmatch => hmine ⟨horder, (unused_code.mp hmatch).1⟩
    rw [push_filter, if_neg hother, List.append_nil]

/-- Codes of an order are marked used. -/
theorem Kept.marking {c c' : Client} {f : OrderCodes → OrderCodes}
    (h : Kept C expiryMinutes orderId purpose s) (hc : s.clients[i]? = some c)
    (hf : ∀ o, ((f o).otps.filter (unused purpose)).Sublist (o.otps.filter (unused purpose)))
    (hstage : Stage C expiryMinutes s.clock c') (hheld : held orderId purpose c' = none)
    (hnew : ∀ t, returns orderId t c' = none)
    (hreturns : orderId' = orderId → ∀ c₁ ∈ s.clients, returns orderId s.clock c₁ = none) :
    Kept C expiryMinutes orderId purpose
      { s with state := s.state.update orderId' f, clients := s.clients.set i c' } := by
  by_cases horder : orderId' = orderId
  · refine h.fewer hc (update_sublist f hf) rfl hstage
      (fun _ hr => nomatch hheld.symm.trans hr) ?_ hnew
    intro c₁ hmem t hle hret
    have hnow := (h.sees c₁ hmem t hle hret).2 s.clock hle
    exact nomatch (hreturns horder c₁ hmem).symm.trans hnow
  · exact h.elsewhere hc (same_update f fun heq => absurd heq horder) hstage hheld hnew

theorem Kept.clearing {c c' : Client} (h : Kept C expiryMinutes orderId purpose s)
    (hc : s.clients[i]? = some c) (hstage : Stage C expiryMinutes s.clock c')
    (hheld : held orderId purpose c' = none) (hnew : ∀ t, returns orderId t c' = none)
    (hstale : orderId' = orderId ∧ purpose' = purpose →
      s.state.valid orderId purpose s.clock = false ∧
        ∀ c₁ ∈ s.clients, held orderId purpose c₁ = none) :
    Kept C expiryMinutes orderId purpose
      { s with
        state := s.state.cached orderId' purpose' none
        clients := s.clients.set i c' } := by
  by_cases hmine : orderId' = orderId ∧ purpose' = purpose
  · obtain ⟨hvalid, hnobody⟩ := hstale hmine
    exact h.recached hc rfl hvalid hnobody hstage (fun _ hr => nomatch hheld.symm.trans hr) hnew
  · exact h.elsewhere hc (same_cached (pair_ne hmine) _) hstage hheld hnew

theorem admitted_recached {command : Command} {next : Option command.Reply → Handler Answer}
    (hcommand : command = .clearCache orderId' purpose' ∨
      ∃ code ttlSeconds, command = .cachePlaintext orderId' purpose' code ttlSeconds)
    (h : admitted s ⟨q, some (.command command next)⟩ = true) :
    orderId' = orderId ∧ purpose' = purpose → s.state.valid orderId purpose s.clock = false ∧
      ∀ c₁ ∈ s.clients, held orderId purpose c₁ = none := by
  rintro ⟨rfl, rfl⟩
  rcases hcommand with rfl | ⟨code, ttlSeconds, rfl⟩ <;>
    simpa [admitted, holding] using h

theorem admitted_marked {command : Command} {next : Option command.Reply → Handler Answer}
    (hcommand : (∃ session, command = .commit orderId' session) ∨
      ∃ index, command = .setUsed orderId' index)
    (h : admitted s ⟨q, some (.command command next)⟩ = true) :
    orderId' = orderId → ∀ c₁ ∈ s.clients, returns orderId s.clock c₁ = none := by
  rintro rfl
  rcases hcommand with ⟨session, rfl⟩ | ⟨index, rfl⟩
  · simpa [admitted] using h
  · have hnobody := (Bool.and_eq_true_iff.mp h).2
    simpa using hnobody

/-- The first command of a call is answered. -/
theorem Kept.arrived {command : Command} {next : Option command.Reply → Handler Answer}
    (h : Kept C expiryMinutes orderId purpose s) (hclean : s.state.Clean)
    (hc : s.clients[i]? = some ⟨q, some (.command command next)⟩)
    (hfirst : handle C expiryMinutes q = .command command next) :
    Kept C expiryMinutes orderId purpose (Sys.answered s i q command next) := by
  cases q with
  | issue orderId' purpose' draw salt =>
      cases hfirst
      have hreply : ((Command.findById orderId').exec s.state s.clock).1 =
        s.state.orders orderId' := rfl
      rw [Sys.answered, hreply]
      cases horder : s.state.orders orderId' with
      | none => exact h.quit hc (.failed _ _) rfl (sees_of_none fun _ => rfl)
      | some order =>
          have hnonull := hclean orderId' order horder
          refine h.quit hc (.checking orderId' purpose' draw salt order hnonull) ?_
            (sees_check horder hnonull)
          exact held_of_none _ _ (toStore_check orderId' purpose' _ salt order)
            (.issue orderId' purpose' draw salt)
  | verify orderId' purpose' submittedOtp =>
      cases hfirst
      have hreply : ((Command.findById orderId').exec s.state s.clock).1 =
        s.state.orders orderId' := rfl
      rw [Sys.answered, hreply]
      cases horder : s.state.orders orderId' with
      | none => exact h.quit hc (.failed _ _) rfl (sees_of_none fun _ => rfl)
      | some order =>
          have hstage : Stage C expiryMinutes s.clock ⟨.verify orderId' purpose' submittedOtp,
              some (if meetsNull (unused purpose') order.otps then .fail internal
                else judge C orderId' purpose' submittedOtp order)⟩ := by
            split_ifs
            · exact .failed _ _
            · exact .judging orderId' purpose' submittedOtp order
          have hheld : toStore (if meetsNull (unused purpose') order.otps then .fail internal
              else judge C orderId' purpose' submittedOtp order) = none := by
            split_ifs
            · rfl
            · exact toStore_settle orderId' purpose' _ _
          exact h.quit hc hstage (held_of_none _ _ hheld (.verify orderId' purpose' submittedOtp))
            (sees_of_none fun _ => rfl)
  | invalidateActive orderId' =>
      cases hfirst
      have hreply : ((Command.invalidate orderId').exec s.state s.clock).1 =
        if (s.state.orders orderId').any OrderCodes.hasNull then none
        else some ⟨s.state.orders orderId', s.clock⟩ := rfl
      rw [Sys.answered, hreply]
      split_ifs
      · exact h.quit hc (.failed _ _) rfl (sees_of_none fun _ => rfl)
      · exact h.quit hc (.clearingAll _ rfl orderId' _) rfl (sees_of_none fun _ => rfl)
  | peekCurrent orderId' purpose' =>
      cases hfirst
      refine h.quit hc (.peeking orderId' purpose' _) ?_ (sees_of_none fun _ => rfl)
      exact held_of_none _ _ (toStore_peek orderId' purpose' _ 0) (.peekCurrent orderId' purpose')

/-- A client goes on with the answer to its command. -/
theorem Kept.answered {command : Command} {next : Option command.Reply → Handler Answer}
    (h : Kept C expiryMinutes orderId purpose s) (hclean : s.state.Clean)
    (hc : s.clients[i]? = some ⟨q, some (.command command next)⟩)
    (hadmitted : admitted s ⟨q, some (.command command next)⟩ = true) :
    Kept C expiryMinutes orderId purpose (Sys.answered s i q command next) := by
  have hstage := h.stages _ (List.mem_of_getElem? hc)
  generalize hclient : (⟨q, some (.command command next)⟩ : Client) = c at hstage
  cases hstage with
  | arrived q' =>
      have hfirst : handle C expiryMinutes q = .command command next := by
        obtain ⟨hq, hprog⟩ := Interleaving.Client.mk.inj hclient
        rw [hq]
        exact (Option.some.inj hprog).symm
      exact h.arrived hclean hc hfirst
  | checking orderId' purpose' draw salt order hnonull =>
      cases hclient
      exact h.checking hc
  | renewing orderId' purpose' draw salt =>
      cases hclient
      exact h.quit hc (.caching orderId' purpose' draw salt s.clock le_rfl) rfl
        (sees_of_none fun _ => rfl)
  | caching orderId' purpose' draw salt issuedAt hissued =>
      cases hclient
      exact h.caching hc hissued (admitted_recached (Or.inr ⟨_, _, rfl⟩) hadmitted)
  | cached orderId' purpose' draw salt record =>
      cases hclient
      exact h.stamping hc s.clock
  | storing orderId' draw salt record hunused =>
      cases hclient
      exact h.storing hc hunused
  | pushing orderId' draw salt record hunused =>
      cases hclient
      exact h.pushing hc hunused
  | judging orderId' purpose' submittedOtp order =>
      cases hclient
      exact h.quit hc (settle_stage C expiryMinutes s.clock orderId' purpose' _ _ rfl)
        (held_of_none _ _ (toStore_settle orderId' purpose' _ _) _) (sees_of_none fun _ => rfl)
  | counting q orderId' index =>
      cases hclient
      have hfails : ∀ e t, returns orderId t (⟨q, some (.fail e)⟩ : Client) = none :=
        fun e t => by cases q <;> rfl
      rw [Sys.answered]
      simp only [Command.exec]
      split_ifs
      · exact h.quit hc (.failed q _) rfl (sees_of_none (hfails _))
      · exact h.elsewhere hc (same_update _ fun _ o => addAttempt_core o index) (.failed q _) rfl
          (hfails _)
  | marking q hq orderId' purpose' index =>
      cases hclient
      rw [Sys.answered]
      simp only [Command.exec]
      split_ifs
      · exact h.quit hc (.failed q _) rfl (sees_of_none fun _ => by cases q <;> rfl)
      · exact h.marking hc (fun o => setUsed_sublist o index s.clock)
          (.clearing q hq orderId' purpose') rfl (fun _ => by cases q <;> rfl)
          (admitted_marked (Or.inr ⟨index, rfl⟩) hadmitted)
  | clearing q hq orderId' purpose' =>
      cases hclient
      exact h.clearing hc (.returned q .done) rfl (fun _ => by cases q <;> rfl)
        (admitted_recached (Or.inl rfl) hadmitted)
  | clearingAll q hq orderId' session =>
      cases hclient
      exact h.clearing hc (.clearingDelivery q hq orderId' session) rfl (fun _ => by cases q <;> rfl)
        (admitted_recached (Or.inl rfl) hadmitted)
  | clearingDelivery q hq orderId' session =>
      cases hclient
      exact h.clearing hc (.committing q hq orderId' session) rfl (fun _ => by cases q <;> rfl)
        (admitted_recached (Or.inl rfl) hadmitted)
  | committing q hq orderId' session =>
      cases hclient
      rw [Sys.answered]
      simp only [Command.exec]
      split_ifs
      · exact h.marking hc (fun o => (invalidate_nil o session.usedAt) ▸ List.nil_sublist _)
          (.returned q .done) rfl (fun _ => by cases q <;> rfl)
          (admitted_marked (Or.inl ⟨session, rfl⟩) hadmitted)
      · exact h.quit hc (.failed q _) rfl (sees_of_none fun _ => by cases q <;> rfl)
  | peeking orderId' purpose' order =>
      cases hclient
      have hreply : (Command.getTime.exec s.state s.clock).1 = s.clock := rfl
      rw [Sys.answered, hreply]
      exact h.quit hc (peek_stage C expiryMinutes s.clock orderId' purpose' order s.clock rfl)
        (held_of_none _ _ (toStore_peek orderId' purpose' order s.clock) _)
        (sees_of_none fun _ => rfl)
  | looking q hq orderId' purpose' record =>
      cases hclient
      have hreturns : ∀ t a, returns orderId t (⟨q, some (.pure a)⟩ : Client) = none :=
        fun t a => by cases q <;> rfl
      have hreply : ((Command.getCachedPlaintext orderId' purpose').exec s.state s.clock).1 =
        ((s.state.cache (orderId', purpose')).filter fun x => s.clock < x.expiresAt).map
          (·.code) := rfl
      rw [Sys.answered, hreply]
      cases ((s.state.cache (orderId', purpose')).filter fun x => s.clock < x.expiresAt).map
          (·.code) with
      | none => exact h.quit hc (.returned _ _) rfl (sees_of_none fun t => hreturns t _)
      | some otp => exact h.quit hc (.returned _ _) rfl (sees_of_none fun t => hreturns t _)
  | returned q a => cases hclient
  | failed q e => cases hclient
  | stopped q => cases hclient

theorem Kept.stopped {c : Client} (h : Kept C expiryMinutes orderId purpose s)
    (hc : s.clients[i]? = some c) :
    Kept C expiryMinutes orderId purpose { s with clients := s.clients.set i c.stop } := by
  obtain ⟨q, prog⟩ := c
  have hstage := h.stages _ (List.mem_of_getElem? hc)
  cases prog with
  | none => exact h.quit hc hstage rfl (sees_of_none fun _ => by cases q <;> rfl)
  | some prog =>
      cases prog with
      | pure a => exact h.quit hc hstage rfl (sees_of_none fun _ => by cases q <;> rfl)
      | fail e => exact h.quit hc hstage rfl (sees_of_none fun _ => by cases q <;> rfl)
      | command command next =>
          exact h.quit hc (.stopped q) rfl (sees_of_none fun _ => by cases q <;> rfl)

theorem Kept.command {c c' : Client} {fate : Fate} {state : Codes}
    (h : Kept C expiryMinutes orderId purpose s) (hclean : s.state.Clean) (hc : s.clients[i]? = some c)
    (hsend : c.send fate s.state s.clock = some (c', state))
    (hapart : apart (s, .command i fate) = true) :
    Kept C expiryMinutes orderId purpose
      { s with state := state, clients := s.clients.set i c' } := by
  obtain ⟨q, prog⟩ := c
  obtain ⟨command, next, rfl, hcases⟩ := send_cases hsend
  have hstage := h.stages _ (List.mem_of_getElem? hc)
  have hfails : next none = .fail internal := hstage.fails
  have hadmitted : fate ≠ .refused → admitted s ⟨q, some (.command command next)⟩ = true := by
    intro hfate
    simpa [apart, hfate, hc] using hapart
  rcases hcases with ⟨rfl, rfl, rfl⟩ | ⟨rfl, rfl, rfl⟩ | ⟨rfl, rfl, rfl⟩
  · exact h.answered hclean hc (hadmitted (by decide))
  · -- an answer that is lost is as good as one after which the client fails
    have hdone := h.answered hclean hc (hadmitted (by decide))
    obtain ⟨hi, -⟩ := List.getElem?_eq_some_iff.mp hc
    have hfailed := hdone.quit (i := i) (List.getElem?_set_self hi) (.failed q internal) rfl
      (sees_of_none fun _ => by cases q <;> rfl)
    rw [hfails]
    simp only [Sys.answered, List.set_set] at hfailed
    exact hfailed
  · rw [hfails]
    exact h.quit hc (.failed q internal) rfl (sees_of_none fun _ => by cases q <;> rfl)

theorem Kept.act {a : Act Request} (h : Kept C expiryMinutes orderId purpose s)
    (hclean : s.state.Clean) (hapart : apart (s, a) = true) :
    Kept C expiryMinutes orderId purpose (s.act (handle C expiryMinutes) a) := by
  rcases act_cases s a with ⟨q, rfl, hact⟩ | ⟨n, rfl, hact⟩ | ⟨i, c, hc, rfl, hact⟩ |
    ⟨i, fate, c, c', state, hc, hsend, rfl, hact⟩ | hact
  · rw [hact]
    have hnew : ∀ t, held orderId purpose ⟨q, some (handle C expiryMinutes q)⟩ = none ∧
        returns orderId t ⟨q, some (handle C expiryMinutes q)⟩ = none :=
      fun t => by cases q <;> exact ⟨rfl, rfl⟩
    have hcases : ∀ c ∈ s.clients ++ [⟨q, some (handle C expiryMinutes q)⟩],
        c ∈ s.clients ∨ c = ⟨q, some (handle C expiryMinutes q)⟩ := by
      simp
    refine ⟨fun c hmem => ?_, ?_, fun c hmem r hr => ?_, h.unique, h.stored, fun c hmem => ?_⟩
    · rcases hcases c hmem with hold | rfl
      · exact h.stages c hold
      · exact .arrived q
    · have hnone : holding orderId purpose ⟨q, some (handle C expiryMinutes q)⟩ = false := by
        rw [holding, (hnew 0).1]
        rfl
      change (s.clients ++ [_]).countP (holding orderId purpose) ≤ 1
      rw [List.countP_append, List.countP_singleton, hnone]
      exact h.single
    · rcases hcases c hmem with hold | rfl
      · exact h.fits c hold r hr
      · exact nomatch (hnew 0).1.symm.trans hr
    · rcases hcases c hmem with hold | rfl
      · exact h.sees c hold
      · exact sees_of_none fun t => (hnew t).2
  · rw [hact]
    have hle : s.clock ≤ s.clock + n := Nat.le_add_right _ _
    refine ⟨fun c hmem => (h.stages c hmem).later hle, h.single, fun c hmem r hr => ?_, h.unique,
      fun r hr hvalid => h.stored r hr (hle.trans_lt hvalid), fun c hmem t ht hret => ?_⟩
    · obtain ⟨hholds, hstale, hdropped⟩ := h.fits c hmem r hr
      refine ⟨hholds, Bool.eq_false_iff.mpr fun hvalid => ?_, hdropped⟩
      exact nomatch hstale.symm.trans (Codes.valid_earlier hle hvalid)
    · exact h.sees c hmem t (hle.trans ht) hret
  · rw [hact]
    exact h.stopped hc
  · rw [hact]
    exact h.command hclean hc hsend hapart
  · rw [hact]
    exact h

end steps

end invariant

end CiroFuel.Handover.Cached
