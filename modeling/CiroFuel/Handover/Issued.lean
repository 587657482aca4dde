import CiroFuel.Handover.Issuing

/-!
# Codes that work

An issue that returns leaves one unused code. Until it expires it can be read back from
the cache, and it is accepted once.
-/
namespace CiroFuel.Handover.Cached
open Interleaving

section returned
variable {C : Crypto} {expiryMinutes : ℕ} {orderId : Id} {purpose : OtpPurpose} {s : Sys}

/-- No command takes an order away. -/
theorem exec_orders (command : Command) (s : Codes) (now : Instant) (orderId : Id) :
    ((command.exec s now).2.orders orderId).isSome = (s.orders orderId).isSome := by
  have hupdate : ∀ orderId' f,
      ((s.update orderId' f).orders orderId).isSome = (s.orders orderId).isSome := by
    intro orderId' f
    by_cases h : orderId = orderId'
    · subst h
      simp [Codes.update]
    · exact congrArg Option.isSome (Function.update_of_ne h _ _)
  cases command with
  | findById | getTime | cachePlaintext | getCachedPlaintext | clearCache | invalidate => rfl
  | pullUnused | push => exact hupdate _ _
  | addAttempt | setUsed =>
      simp only [Command.exec]
      split_ifs
      · rfl
      · exact hupdate _ _
  | commit =>
      simp only [Command.exec]
      split_ifs
      · exact hupdate _ _
      · rfl

theorem known_after (known : Id → Bool) (as : List (Act Request)) (orderId : Id) :
    (((start known).after (handle C expiryMinutes) as).state.orders orderId).isSome =
      known orderId := by
  refine traced (s := start known) (P := fun _ => True)
    (J := fun _ s => (s.state.orders orderId).isSome = known orderId) ?_ ?_ as fun _ _ => trivial
  · change (if known orderId = true then some _ else none).isSome = known orderId
    cases known orderId <;> rfl
  · intro tr s a _ h
    rcases act_cases s a with ⟨q, rfl, hact⟩ | ⟨n, rfl, hact⟩ | ⟨i, c, hc, rfl, hact⟩ |
      ⟨i, fate, c, c', state, hc, hsend, rfl, hact⟩ | hact
    · rw [hact]
      exact h
    · rw [hact]
      exact h
    · rw [hact]
      exact h
    · rw [hact]
      obtain ⟨command, next, -, hcases⟩ := send_cases hsend
      rcases hcases with ⟨-, -, rfl⟩ | ⟨-, -, rfl⟩ | ⟨-, -, rfl⟩
      · exact (exec_orders command _ _ _).trans h
      · exact (exec_orders command _ _ _).trans h
      · exact h
    · rw [hact]
      exact h

theorem kept_after (known : Id → Bool) (as : List (Act Request))
    (hapart : ∀ m ∈ trace (handle C expiryMinutes) (start known) as, apart m = true) :
    Kept C expiryMinutes orderId purpose ((start known).after (handle C expiryMinutes) as) ∧
      ((start known).after (handle C expiryMinutes) as).state.Clean := by
  have hnil : (start known).state.unusedOf orderId purpose = [] := by
    change ((if known orderId = true then some ({} : OrderCodes) else none).elim [] _).filter _ = []
    cases known orderId <;> rfl
  have hclean : (start known).state.Clean := by
    intro orderId' o ho
    change (if known orderId' = true then some ({} : OrderCodes) else none) = some o at ho
    split_ifs at ho
    cases ho
    rfl
  refine traced (J := fun _ s => Kept C expiryMinutes orderId purpose s ∧ s.state.Clean)
    ⟨?_, hclean⟩ (fun _ _ _ hm h => ⟨h.1.act h.2 hm, clean_act h.2 hm⟩) as hapart
  exact ⟨fun c hc => (nomatch hc), Nat.zero_le _, fun c hc => (nomatch hc), by simp [hnil],
    fun r hr => (by simp [hnil] at hr), fun c hc => (nomatch hc)⟩

theorem Codes.valid_ne_nil {s : Codes} {now : Instant} (h : s.valid orderId purpose now = true) :
    s.unusedOf orderId purpose ≠ [] := by
  intro hnil
  rw [Codes.valid, hnil] at h
  cases h

/-- The answer after which an issue returns leaves an unused code. -/
theorem Kept.answered_done {i : ℕ} {draw : Fin 1000000} {salt : String} {command : Command}
    {next : Option command.Reply → Handler Answer} (h : Kept C expiryMinutes orderId purpose s)
    (horder : (s.state.orders orderId).isSome = true)
    (hc : s.clients[i]? = some ⟨.issue orderId purpose draw salt, some (.command command next)⟩)
    (hdone : next (some (command.exec s.state s.clock).1) = .pure .done) :
    (command.exec s.state s.clock).2.unusedOf orderId purpose ≠ [] := by
  have hmem := List.mem_of_getElem? hc
  have hstage := h.stages _ hmem
  generalize hclient :
    (⟨.issue orderId purpose draw salt, some (.command command next)⟩ : Client) = c at hstage
  cases hstage with
  | arrived q =>
      cases q with
      | issue =>
          cases hclient
          have hreply : ((Command.findById orderId).exec s.state s.clock).1 =
            s.state.orders orderId := rfl
          rw [hreply] at hdone
          cases hfound : s.state.orders orderId with
          | none =>
              rw [hfound] at horder
              cases horder
          | some order =>
              rw [hfound] at hdone
              cases hdone
      | verify | invalidateActive | peekCurrent => cases hclient
  | checking orderId purpose draw salt order hclean =>
      cases hclient
      have hnull : ¬meetsNull (active purpose s.clock) order.otps = true := by
        rw [meetsNull_clean hclean]
        exact Bool.false_ne_true
      have hactive : order.otps.any (active purpose s.clock) = true := by
        by_contra hinactive
        cases ((if_neg hnull).trans (if_neg hinactive)).symm.trans hdone
      have hreturns : returns orderId s.clock ⟨.issue orderId purpose draw salt,
          some (check C expiryMinutes orderId purpose (generateCode draw) salt order)⟩ =
            some purpose :=
        (returns_check draw salt hclean s.clock).trans (if_pos ⟨hactive, rfl⟩)
      exact Codes.valid_ne_nil (h.sees _ hmem s.clock le_rfl hreturns).1
  | renewing | caching | cached | storing =>
      cases hclient
      cases hdone
  | pushing orderId draw salt record hunused =>
      cases hclient
      obtain ⟨o, ho⟩ := Option.isSome_iff_exists.mp horder
      change (s.state.update orderId (·.push record)).unusedOf orderId record.purpose ≠ []
      rw [update_unusedOf ho, push_filter, if_pos (unused_code.mpr ⟨rfl, hunused⟩)]
      simp
  | counting q orderId index =>
      cases hclient
      revert hdone
      simp only [Command.exec]
      split_ifs
      · intro hdone
        cases hdone
      · intro hdone
        cases hdone
  | marking q hq | clearing q hq | clearingAll q hq | clearingDelivery q hq | committing q hq
  | looking q hq =>
      cases hclient
      cases hq
  | judging | peeking | returned | failed | stopped => cases hclient

/-- When an issue returns there is an unused code. -/
theorem Kept.returned {i : ℕ} {draw : Fin 1000000} {salt : String} {c : Client} {a : Act Request}
    (h : Kept C expiryMinutes orderId purpose s)
    (horder : (s.state.orders orderId).isSome = true) (hc : s.clients[i]? = some c)
    (hrunning : c.over = false)
    (hreturned : (s.act (handle C expiryMinutes) a).clients[i]? =
      some ⟨.issue orderId purpose draw salt, some (.pure .done)⟩) :
    (s.act (handle C expiryMinutes) a).state.unusedOf orderId purpose ≠ [] := by
  have hbefore : s.clients[i]? ≠ some ⟨.issue orderId purpose draw salt, some (.pure .done)⟩ := by
    intro hdone
    rw [Option.some.inj (hc.symm.trans hdone)] at hrunning
    cases hrunning
  rcases act_cases s a with ⟨q, rfl, hact⟩ | ⟨n, rfl, hact⟩ | ⟨j, c₁, hj, rfl, hact⟩ |
    ⟨j, fate, c₁, c', state, hj, hsend, rfl, hact⟩ | hact
  · rw [hact] at hreturned
    rcases getElem?_append_cases hreturned with hnew | hold
    · cases q <;> cases hnew
    · exact absurd hold hbefore
  · rw [hact] at hreturned
    exact absurd hreturned hbefore
  · rw [hact] at hreturned
    rcases getElem?_set_cases hreturned with ⟨rfl, hstop⟩ | hold
    · rw [Client.stop] at hstop
      split at hstop
      · exact nomatch congrArg Interleaving.Client.prog hstop
      · rw [← hstop] at hj
        exact absurd hj hbefore
    · exact absurd hold hbefore
  · rw [hact] at hreturned ⊢
    rcases getElem?_set_cases hreturned with ⟨rfl, rfl⟩ | hold
    · obtain ⟨q, prog⟩ := c₁
      obtain ⟨command, next, rfl, hcases⟩ := send_cases hsend
      have hfails : next none = .fail internal := (h.stages _ (List.mem_of_getElem? hj)).fails
      rcases hcases with ⟨-, hdone, rfl⟩ | ⟨-, hdone, -⟩ | ⟨-, hdone, -⟩
      · obtain rfl := congrArg Interleaving.Client.request hdone
        exact h.answered_done horder hj
          (Option.some.inj (congrArg Interleaving.Client.prog hdone)).symm
      · rw [hfails] at hdone
        exact nomatch congrArg Interleaving.Client.prog hdone
      · rw [hfails] at hdone
        exact nomatch congrArg Interleaving.Client.prog hdone
    · exact absurd hold hbefore
  · rw [hact] at hreturned
    exact absurd hreturned hbefore

end returned

/-- When an issue returns there is one unused code for the step. Until it expires the cache gives it
back, and it is accepted once, if its attempts are not used up; as long as cached codes are
replaced and deleted, and codes used, apart from calls that issue one, and no code is marked used
at a place that the array has lost. -/
theorem issued_code_works (C : Crypto) (expiryMinutes : ℕ) (known : Id → Bool) (orderId : Id)
    (purpose : OtpPurpose) (hknown : known orderId = true) (as : List (Act Request))
    (a : Act Request)
    (hapart : ∀ m ∈ trace (handle C expiryMinutes) (start known) (as ++ [a]), apart m = true)
    (i : ℕ) (draw : Fin 1000000) (salt : String) (c : Client) :
    let s : Sys := (start known).after (handle C expiryMinutes) as
    let s' : Sys := s.act (handle C expiryMinutes) a
    s.clients[i]? = some c → c.over = false →
    s'.clients[i]? = some ⟨.issue orderId purpose draw salt, some (.pure .done)⟩ →
    ∃ r, s'.state.unusedOf orderId purpose = [.code r] ∧ (s'.clock < r.expiresAt →
      ∃ code, Otp.hashOtp C code r.salt = r.hash ∧
        ∀ clock : ℕ → Instant, (∀ n, clock n < r.expiresAt) →
          (peekCurrent orderId purpose).alone clock s'.state =
            (.ok (.current (some ⟨purpose, code, r.expiresAt⟩)), s'.state) ∧
          (r.attempts < MAX_ATTEMPTS →
            ((verify C orderId purpose code).alone clock s'.state).1 = .ok .done ∧
              ∀ clock', ((verify C orderId purpose code).alone clock'
                  ((verify C orderId purpose code).alone clock s'.state).2).1 =
                .error (unauthorized "No active OTP for this step"))) := by
  intro s s' hc hrunning hreturned
  rw [trace_append] at hapart
  have hbefore : Kept C expiryMinutes orderId purpose s ∧ s.state.Clean :=
    kept_after known as fun m hm => hapart m (List.mem_append_left _ hm)
  obtain ⟨hkept, hclean⟩ := hbefore
  have hlast : apart (s, a) = true := hapart _ (List.mem_append_right _ List.mem_cons_self)
  have hkept' : Kept C expiryMinutes orderId purpose s' := hkept.act hclean hlast
  have hclean' : s'.state.Clean := clean_act hclean hlast
  have horder : (s.state.orders orderId).isSome = true := (known_after known as orderId).trans hknown
  have hsome := hkept.returned horder hc hrunning hreturned
  have hone : (s'.state.unusedOf orderId purpose).length = 1 :=
    le_antisymm hkept'.unique (List.length_pos_iff.mpr hsome)
  obtain ⟨x, hx⟩ := List.length_eq_one_iff.mp hone
  have hmem : x ∈ s'.state.unusedOf orderId purpose := hx ▸ List.mem_singleton_self x
  obtain ⟨r, rfl⟩ : ∃ r, x = .code r := by
    cases x with
    | null | marked => exact absurd (List.of_mem_filter hmem) Bool.false_ne_true
    | code r => exact ⟨r, rfl⟩
  refine ⟨r, hx, fun hvalid => ?_⟩
  obtain ⟨code, hholds⟩ := hkept'.stored r hmem hvalid
  obtain ⟨-, -, -, -, hhash, -⟩ := id hholds
  exact ⟨code, hhash, fun clock hclock => ⟨peekCurrent_alone hclean' hx hholds hclock,
    fun hattempts => verify_alone hclean' hx hholds hattempts hclock⟩⟩

section sample

def sampleCrypto : Crypto where
  bcryptHash _ plain := plain
  bcryptCompare plain hash := plain = hash
  sha256 text :=
    if text = "5f1c0a9b7e2d4836a1b2c3d4e5f60718:004711" then
      "3ec9a5863b809bc6c4b981285aac965a76f090bf11c0a5eeffb1ffb8aac62256"
    else if text = "c7d8e9f0a1b2435465768798a9bacbdc:000815" then
      "f26066b94651710389b16b10a3d95d8ba3c290429c4a83547b3523f6a9dcf997"
    else ""

/-- A code is issued and read back, and a second call finds it. -/
def inTurn : List (Act Request) :=
  [.arrive (.issue 1 .arrival 4711 "5f1c0a9b7e2d4836a1b2c3d4e5f60718"),
    .command 0, .command 0, .command 0, .command 0, .command 0, .command 0, .command 0,
    .arrive (.issue 1 .arrival 815 "c7d8e9f0a1b2435465768798a9bacbdc"), .tick 60000, .command 1]

theorem issued_code_works_inTurn :
    let s : Sys := (start fun _ => true).after (handle sampleCrypto 30) inTurn
    let s' : Sys := s.act (handle sampleCrypto 30) (.command 1)
    s'.clock = 60000 ∧ ∃ r, s'.state.unusedOf 1 .arrival = [.code r] ∧ (s'.clock < r.expiresAt →
      ∃ code, Otp.hashOtp sampleCrypto code r.salt = r.hash ∧
        ∀ clock : ℕ → Instant, (∀ n, clock n < r.expiresAt) →
          (peekCurrent 1 .arrival).alone clock s'.state =
            (.ok (.current (some ⟨.arrival, code, r.expiresAt⟩)), s'.state)) := by
  obtain ⟨r, hone, hworks⟩ := issued_code_works sampleCrypto 30 (fun _ => true) 1 .arrival rfl
    inTurn (.command 1) (by decide +kernel) 1 815 "c7d8e9f0a1b2435465768798a9bacbdc" _ rfl
    (by decide +kernel) rfl
  refine ⟨by decide +kernel, r, hone, fun hvalid => ?_⟩
  obtain ⟨code, hhash, hread⟩ := hworks hvalid
  exact ⟨code, hhash, fun clock hclock => (hread clock hclock).1⟩

/-- Two calls find no code, and each caches its own before either stores its record. -/
def atOnce : List (Act Request) :=
  [.arrive (.issue 1 .arrival 4711 "5f1c0a9b7e2d4836a1b2c3d4e5f60718"),
    .arrive (.issue 1 .arrival 815 "c7d8e9f0a1b2435465768798a9bacbdc"),
    .command 0, .command 1, .command 0, .command 1, .command 0, .command 1,
    .command 0, .command 1, .command 0, .command 1, .command 0, .command 1, .command 0,
    .command 1]

/-- Both calls return, two codes are unused, and the one that is read back is refused. -/
theorem issued_twice_atOnce :
    let s : Sys := (start fun _ => true).after (handle sampleCrypto 30) atOnce
    s.clients.all Client.over = true ∧ (s.state.unusedOf 1 .arrival).length = 2 ∧
      ((peekCurrent 1 .arrival).alone (fun _ => 60000) s.state).1 =
        .ok (.current (some ⟨.arrival, "000815", 1800000⟩)) ∧
      ((verify sampleCrypto 1 .arrival "000815").alone (fun _ => 60000) s.state).1 =
        .error (unauthorized "Incorrect OTP") := by
  decide +kernel

end sample

end CiroFuel.Handover.Cached
