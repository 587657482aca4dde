import CiroFuel.Redis.Commands

/-!
# Counters that expire

A program counts at a key, and gives the key an expiry when it was the first to count
there. Between the two commands the key has none: it is kept only as long as the
program goes on, and for ever where the program does not.
-/
namespace CiroFuel.Redis
open Interleaving

/-- Something is at the key for ever. -/
def Untimed {K : Type} (s : Keys K) (k : K) : Prop := ∃ e, s k = some e ∧ e.expiresAt = none

/-- What has an expiry goes by itself. -/
theorem goes_of_timed {K : Type} {s : Keys K} {k : K} (h : ¬Untimed s k) :
    ∃ t, ∀ now, t ≤ now → live s k now = none := by
  cases hstored : s k with
  | none => exact ⟨0, fun now _ => by rw [live, hstored]; rfl⟩
  | some e =>
      cases hexpires : e.expiresAt with
      | none => exact absurd ⟨e, hstored, hexpires⟩ h
      | some t =>
          refine ⟨t, fun now hle => Option.eq_none_iff_forall_ne_some.mpr fun e' hlive => ?_⟩
          obtain ⟨hstored', hbefore⟩ := live_eq_some.mp hlive
          obtain rfl := Option.some.inj (hstored.symm.trans hstored')
          exact Nat.not_lt.mpr hle (hbefore t hexpires)

theorem Untimed.live {K : Type} {s : Keys K} {k : K} (h : Untimed s k) (now : ℕ) :
    (live s k now).isSome = true := by
  obtain ⟨e, hstored, hexpires⟩ := h
  rw [live_eq_some.mpr ⟨hstored, fun t ht => by rw [hexpires] at ht; cases ht⟩]
  rfl

section exec
variable {K : Type} [DecidableEq K] {c : Command K} {s : Keys K} {k : K} {now : ℕ}

/-- A key without an expiry had none, or a count has begun. -/
theorem exec_untimed (h : Untimed (c.exec s now).2 k) :
    Untimed s k ∧ (∀ seconds, c ≠ .expire k seconds) ∨ c = .incr k ∧ Redis.live s k now = none := by
  by_cases hwrites : k ∈ c.writes
  · obtain ⟨e, hstored, hexpires⟩ := h
    cases c with
    | get | ttl => cases hwrites
    | set k' value seconds =>
        obtain rfl := List.mem_singleton.mp hwrites
        simp only [Command.exec, Function.update_self] at hstored
        rw [← Option.some.inj hstored] at hexpires
        cases hexpires
    | incr k' =>
        obtain rfl := List.mem_singleton.mp hwrites
        cases hlive : Redis.live s k now with
        | none => exact Or.inr ⟨rfl, rfl⟩
        | some e' =>
            simp only [Command.exec, hlive, Function.update_self] at hstored
            rw [← Option.some.inj hstored] at hexpires
            exact Or.inl ⟨⟨e', (live_eq_some.mp hlive).1, hexpires⟩, fun _ h => by cases h⟩
    | expire k' seconds =>
        obtain rfl := List.mem_singleton.mp hwrites
        cases hlive : Redis.live s k now with
        | none =>
            simp only [Command.exec, hlive] at hstored
            have hthere := Untimed.live ⟨e, hstored, hexpires⟩ now
            rw [hlive] at hthere
            cases hthere
        | some e' =>
            simp only [Command.exec, hlive, Function.update_self] at hstored
            rw [← Option.some.inj hstored] at hexpires
            cases hexpires
    | del ks =>
        cases (if_pos hwrites).symm.trans hstored
  · obtain ⟨e, hstored, hexpires⟩ := h
    rw [exec_elsewhere hwrites] at hstored
    refine Or.inl ⟨⟨e, hstored, hexpires⟩, ?_⟩
    rintro seconds rfl
    exact hwrites (List.mem_singleton_self k)

end exec

section programs
variable {K E A B : Type} {ks : List K}

/-- A program that counts at some keys only, and gives one an expiry right after it has begun
a count there. -/
inductive Paced (ks : List K) : Prog (Replies K) E A → Prop where
  | pure (a : A) : Paced ks (.pure a)
  | fail (e : E) : Paced ks (.fail e)
  | incr {k : K} {next : Option ℕ → Prog (Replies K) E A} {seconds : ℕ} {next' : Option Bool → Prog (Replies K) E A}
      (hfirst : next (some 1) = .command (.expire k seconds) next')
      (h : ∀ r, Paced ks (next r)) : Paced ks (.command (.incr k) next)
  | expire {k : K} {seconds : ℕ} {next : Option Bool → Prog (Replies K) E A} (hk : k ∈ ks)
      (h : ∀ r, Paced ks (next r)) : Paced ks (.command (.expire k seconds) next)
  | command {c : Command K} {next : Option c.Reply → Prog (Replies K) E A} (hincr : ∀ k, c ≠ .incr k)
      (hexpire : ∀ k seconds, c ≠ .expire k seconds) (h : ∀ r, Paced ks (next r)) :
      Paced ks (.command c next)

theorem Paced.bind {p : Prog (Replies K) E A} {f : A → Prog (Replies K) E B} (hp : Paced ks p)
    (hf : ∀ a, Paced ks (f a)) : Paced ks (p.bind f) := by
  induction hp with
  | pure a => exact hf a
  | fail e => exact .fail e
  | incr hfirst h ih => exact .incr (by rw [hfirst]; rfl) ih
  | expire hk h ih => exact .expire hk ih
  | command hincr hexpire h ih => exact .command hincr hexpire ih

theorem Paced.send (e : E) {c : Command K} (hincr : ∀ k, c ≠ .incr k)
    (hexpire : ∀ k seconds, c ≠ .expire k seconds) : Paced ks (Redis.send e c) := by
  refine .command hincr hexpire fun r => ?_
  cases r with
  | none => exact .fail e
  | some r => exact .pure r

theorem Paced.next {c : Command K} {next : Option c.Reply → Prog (Replies K) E A}
    (h : Paced ks (.command c next)) (r : Option c.Reply) : Paced ks (next r) := by
  cases h with
  | incr _ h => exact h r
  | expire _ h => exact h r
  | command _ _ h => exact h r

end programs

section clients
variable {K E Q A : Type} [DecidableEq K] {counters : Q → List K} {handle : Q → Prog (Replies K) E A}

/-- The client is about to give the key an expiry. -/
def expires (k : K) (c : Client (Replies K) E Q A) : Bool :=
  match c.prog with
  | some (.command (.expire k' _) _) => k' = k
  | _ => false

/-- Some other client is about to give the key an expiry. -/
def attends (s : Sys (Replies K) (Keys K) E Q A) (i : ℕ) (k : K) : Bool :=
  (s.clients.eraseIdx i).any (expires k)

/-- No client stops or fails where it alone was to give a key an expiry. -/
def paced (m : Sys (Replies K) (Keys K) E Q A × Act Q) : Bool :=
  match m with
  | (s, .stop i) | (s, .command i .refused) => (s.clients[i]?).all fun c =>
      match c.prog with
      | some (.command (.expire k _) _) =>
          (s.state k).all (fun e => e.expiresAt.isSome) || attends s i k
      | _ => true
  | (s, .command i .lost) => (s.clients[i]?).all fun c =>
      match c.prog with
      | some (.command (.incr k) _) => (live s.state k s.clock).isSome || attends s i k
      | _ => true
  | _ => true

/-- Whoever began a count is about to set its expiry. -/
structure Attended (counters : Q → List K) (s : Sys (Replies K) (Keys K) E Q A) : Prop where
  paced : ∀ c ∈ s.clients, ∀ p, c.prog = some p → Paced (counters c.request) p
  attended : ∀ k, Untimed s.state k → ∃ c ∈ s.clients, expires k c = true

theorem expires_iff {k : K} {c : Client (Replies K) E Q A} : expires k c = true ↔
    ∃ seconds next, c.prog = some (.command (.expire k seconds) next) := by
  constructor
  · intro h
    unfold expires at h
    split at h
    · rename_i k' seconds next hprog
      obtain rfl := of_decide_eq_true h
      exact ⟨seconds, next, hprog⟩
    · cases h
  · rintro ⟨seconds, next, hprog⟩
    rw [expires, hprog]
    exact decide_eq_true rfl

omit [DecidableEq K] in
theorem mem_set_of_mem_eraseIdx {cs : List (Client (Replies K) E Q A)} {i : ℕ} {c c' : Client (Replies K) E Q A}
    (h : c ∈ cs.eraseIdx i) : c ∈ cs.set i c' := by
  obtain ⟨j, hj, hget⟩ := List.mem_eraseIdx_iff_getElem?.mp h
  refine List.mem_of_getElem? (i := j) ?_
  rw [List.getElem?_set_ne hj.symm]
  exact hget

/-- A client goes on: it, or one that was to do so before, sets each expiry that is missing. -/
theorem Attended.set {s : Sys (Replies K) (Keys K) E Q A} {i : ℕ} {c c' : Client (Replies K) E Q A} {state : Keys K}
    (h : Attended counters s) (hc : s.clients[i]? = some c)
    (hpaced : ∀ p, c'.prog = some p → Paced (counters c'.request) p)
    (hkeys : ∀ k, Untimed state k → expires k c' = true ∨ attends s i k = true ∨
      Untimed s.state k ∧ ¬expires k c = true) :
    Attended counters { s with state := state, clients := s.clients.set i c' } where
  paced := by
    intro c₁ hmem
    rcases List.mem_or_eq_of_mem_set hmem with hold | rfl
    · exact h.paced c₁ hold
    · exact hpaced
  attended := by
    intro k huntimed
    rcases hkeys k huntimed with hnew | hother | ⟨hold, hc'⟩
    · obtain ⟨hi, -⟩ := List.getElem?_eq_some_iff.mp hc
      exact ⟨c', List.mem_set hi c', hnew⟩
    · obtain ⟨c₁, hmem, hexpires⟩ := List.any_eq_true.mp hother
      exact ⟨c₁, mem_set_of_mem_eraseIdx hmem, hexpires⟩
    · obtain ⟨c₁, hmem, hexpires⟩ := h.attended k hold
      obtain ⟨j, hj⟩ := List.getElem?_of_mem hmem
      refine ⟨c₁, mem_set_of_mem_eraseIdx (List.mem_eraseIdx_iff_getElem?.mpr ⟨j, ?_, hj⟩), hexpires⟩
      rintro rfl
      exact hc' (Option.some.inj (hc.symm.trans hj) ▸ hexpires)

/-- The expiry that a client would have set, and another will. -/
theorem attends_of_paced {s : Sys (Replies K) (Keys K) E Q A} {i : ℕ} {c : Client (Replies K) E Q A} {k : K} {a : Act Q}
    (ha : a = .stop i ∨ a = .command i .refused) (hc : s.clients[i]? = some c)
    (hpaced : paced (s, a) = true) (huntimed : Untimed s.state k) (hexpires : expires k c = true) :
    attends s i k = true := by
  obtain ⟨seconds, next, hprog⟩ := expires_iff.mp hexpires
  obtain ⟨e, hstored, hnone⟩ := huntimed
  rcases ha with rfl | rfl <;>
    simpa [paced, hc, hprog, hstored, hnone] using hpaced

theorem Attended.stop {s : Sys (Replies K) (Keys K) E Q A} {i : ℕ} {c : Client (Replies K) E Q A} (h : Attended counters s)
    (hc : s.clients[i]? = some c) (hpaced : Redis.paced (s, .stop i) = true) :
    Attended counters { s with clients := s.clients.set i c.stop } := by
  refine h.set hc (fun p hp => ?_) fun k huntimed => ?_
  · unfold Client.stop at hp ⊢
    split at hp
    · cases hp
    · exact h.paced c (List.mem_of_getElem? hc) p hp
  · by_cases hexpires : expires k c = true
    · exact Or.inr (Or.inl (attends_of_paced (Or.inl rfl) hc hpaced huntimed hexpires))
    · exact Or.inr (Or.inr ⟨huntimed, hexpires⟩)

theorem Attended.command {s : Sys (Replies K) (Keys K) E Q A} {i : ℕ} {fate : Fate} {c c' : Client (Replies K) E Q A}
    {state : Keys K} (h : Attended counters s) (hc : s.clients[i]? = some c)
    (hsend : c.send fate s.state s.clock = some (c', state))
    (hpaced : Redis.paced (s, .command i fate) = true) :
    Attended counters { s with state := state, clients := s.clients.set i c' } := by
  obtain ⟨command, next, hprog, hcases⟩ := send_cases hsend
  have hprogram := h.paced c (List.mem_of_getElem? hc) _ hprog
  have hnext := hprogram.next
  -- what the command leaves without an expiry, it found so or has just begun to count
  have hleft : ∀ k, Untimed (command.exec s.state s.clock).2 k →
      Untimed s.state k ∧ ¬expires k c = true ∨
        command = .incr k ∧ live s.state k s.clock = none := by
    intro k huntimed
    rcases exec_untimed huntimed with ⟨hbefore, hother⟩ | hbegun
    · refine Or.inl ⟨hbefore, fun hexpires => ?_⟩
      obtain ⟨seconds, next', hprog'⟩ := expires_iff.mp hexpires
      rw [hprog] at hprog'
      cases hprog'
      exact hother seconds rfl
    · exact Or.inr hbegun
  rcases hcases with ⟨rfl, rfl, rfl⟩ | ⟨rfl, rfl, rfl⟩ | ⟨rfl, rfl, rfl⟩
  · refine h.set hc (fun p hp => Option.some.inj hp ▸ hnext _) fun k huntimed => ?_
    rcases hleft k huntimed with hold | ⟨rfl, hlive⟩
    · exact Or.inr (Or.inr hold)
    · cases hprogram with
      | @incr _ _ seconds next' hfirst _ =>
          have hone : ((Command.incr k).exec s.state s.clock).1 = 1 := by
            simp only [Command.exec, hlive]
          refine Or.inl (expires_iff.mpr ⟨seconds, next', ?_⟩)
          change some (next (some ((Command.incr k).exec s.state s.clock).1)) = _
          rw [hone, hfirst]
      | command hother _ _ => exact absurd rfl (hother k)
  · refine h.set hc (fun p hp => Option.some.inj hp ▸ hnext _) fun k huntimed => ?_
    rcases hleft k huntimed with hold | ⟨rfl, hlive⟩
    · exact Or.inr (Or.inr hold)
    · refine Or.inr (Or.inl ?_)
      simpa [Redis.paced, hc, hprog, hlive] using hpaced
  · refine h.set hc (fun p hp => Option.some.inj hp ▸ hnext _) fun k huntimed => ?_
    by_cases hexpires : expires k c = true
    · exact Or.inr (Or.inl (attends_of_paced (Or.inr rfl) hc hpaced huntimed hexpires))
    · exact Or.inr (Or.inr ⟨huntimed, hexpires⟩)

theorem Attended.act {s : Sys (Replies K) (Keys K) E Q A} {a : Act Q} (hhandle : ∀ q, Paced (counters q) (handle q))
    (h : Attended counters s) (hpaced : Redis.paced (s, a) = true) : Attended counters (s.act handle a) := by
  rcases act_cases s a with ⟨q, rfl, hact⟩ | ⟨n, rfl, hact⟩ | ⟨i, c, hc, rfl, hact⟩ |
    ⟨i, fate, c, c', state, hc, hsend, rfl, hact⟩ | hact
  · rw [hact]
    refine ⟨fun c hmem p hp => ?_, fun k huntimed => ?_⟩
    · rcases List.mem_append.mp hmem with hold | hnew
      · exact h.paced c hold p hp
      · obtain rfl := List.mem_singleton.mp hnew
        exact Option.some.inj hp ▸ hhandle q
    · obtain ⟨c, hmem, hexpires⟩ := h.attended k huntimed
      exact ⟨c, List.mem_append_left _ hmem, hexpires⟩
  · rw [hact]
    exact ⟨h.paced, h.attended⟩
  · rw [hact]
    exact h.stop hc hpaced
  · rw [hact]
    exact h.command hc hsend hpaced
  · rw [hact]
    exact h

/-- Where no client stops or fails before it has set an expiry, each key that has none is
about to be given one. -/
theorem Attended.after {s : Sys (Replies K) (Keys K) E Q A} (hhandle : ∀ q, Paced (counters q) (handle q)) (h : Attended counters s)
    (as : List (Act Q)) (hpaced : ∀ m ∈ trace handle s as, Redis.paced m = true) :
    Attended counters (s.after handle as) :=
  traced (J := fun _ s => Attended counters s) h (fun _ _ _ hp h => h.act hhandle hp) as hpaced

/-- Then no key is left without an expiry at which no request counts any more. -/
theorem Attended.timed {s : Sys (Replies K) (Keys K) E Q A} {k : K} (h : Attended counters s)
    (hover : ∀ c ∈ s.clients, k ∈ counters c.request → c.over = true) : ¬Untimed s.state k := by
  intro huntimed
  obtain ⟨c, hmem, hexpires⟩ := h.attended k huntimed
  obtain ⟨seconds, next, hprog⟩ := expires_iff.mp hexpires
  have hcounts : k ∈ counters c.request := by
    cases h.paced c hmem _ hprog with
    | expire hk _ => exact hk
    | command _ hother _ => exact absurd rfl (hother k seconds)
  have hover := hover c hmem hcounts
  rw [Client.over, hprog] at hover
  cases hover

end clients

end CiroFuel.Redis
