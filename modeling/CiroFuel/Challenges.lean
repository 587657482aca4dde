import CiroFuel.Redis.Commands

/-!
# Proofs of work

A challenge is a random seed, held for a time. Who finds a nonce that gives the seed a
digest with enough leading zeros has it accepted once: the seed is read, the solution
checked, and the seed deleted. These are steps of their own, so two that present
solutions at once may both have read the seed before either deletes it.
-/
namespace CiroFuel.Challenges
open Interleaving Redis

structure Config where
  difficultyBits : ℕ := 18
  seedTtlSeconds : ℕ := 300

def powKey (seed : String) : String := "login-otp:pow:" ++ seed

/-- The value of a hexadecimal digit. -/
def parseHex (ch : Char) : Option ℕ :=
  if '0' ≤ ch ∧ ch ≤ '9' then some (ch.toNat - '0'.toNat)
  else if 'a' ≤ ch ∧ ch ≤ 'f' then some (ch.toNat - 'a'.toNat + 10)
  else if 'A' ≤ ch ∧ ch ≤ 'F' then some (ch.toNat - 'A'.toNat + 10)
  else none

/-- The leading zeros of a number of 32 bits. -/
def clz32 (n : ℕ) : ℕ := if n = 0 then 32 else 31 - Nat.log2 n

/-- Leading zero bits of a digest in hexadecimal. What is no digit counts as zero and ends it. -/
def leadingZeroBits : List Char → ℕ
  | [] => 0
  | ch :: rest =>
      match parseHex ch with
      | some 0 => 4 + leadingZeroBits rest
      | nibble => clz32 (nibble.getD 0) - 28

inductive HttpError where
  | unavailable
deriving DecidableEq

inductive Request where
  | issue (seed : String)
  | verify (seed nonce : String)
deriving DecidableEq

inductive Answer where
  | challenge (seed : String) (difficultyBits : ℕ)
  | verdict (ok : Bool)
deriving DecidableEq

abbrev Handler := Prog (Replies String) HttpError

section service
variable (cfg : Config) (sha256 : String → String)

def issue (seed : String) : Handler Answer := do
  let _ ← send .unavailable (.set (powKey seed) cfg.difficultyBits cfg.seedTtlSeconds)
  return .challenge seed cfg.difficultyBits

/-- The digest has as many leading zeros as are required. -/
def solves (seed nonce : String) (required : ℕ) : Bool :=
  required ≤ leadingZeroBits (sha256 (seed ++ nonce)).toList

/-- Deletes the seed. A deletion that fails is forgotten: the seed expires. -/
def consume (seed : String) : Handler Answer :=
  .command (.del [powKey seed]) fun _ => .pure (.verdict true)

def verify (seed nonce : String) : Handler Answer := do
  match ← send .unavailable (.get (powKey seed)) with
  | none => return .verdict false
  | some required =>
      if solves sha256 seed nonce required then consume seed
      else return .verdict false

def handle : Request → Handler Answer
  | .issue seed => issue cfg seed
  | .verify seed nonce => verify sha256 seed nonce

end service

abbrev Sys := Interleaving.Sys (Replies String) (Keys String) HttpError Request Answer
abbrev Client := Interleaving.Client (Replies String) HttpError Request Answer

def start : Sys where
  state _ := none

/-- The client had its solution for the seed accepted. -/
def Client.accepted (seed : String) (c : Client) : Bool :=
  match c.request, c.prog with
  | .verify seed' _, some (.pure (.verdict true)) => seed' = seed
  | _, _ => false

/-- The client has found its solution good, and is about to delete the seed. -/
def Client.holds (seed : String) (c : Client) : Bool :=
  match c.request, c.prog with
  | .verify seed' _, some (.command (.del _) _) => seed' = seed
  | _, _ => false

/-- The seed is stored. -/
def issues (seed : String) (m : Sys × Act Request) : Bool :=
  match m with
  | (s, .command i fate) => fate ≠ .refused && (s.clients[i]?).any fun c =>
      match c.request, c.prog with
      | .issue seed', some (.command (.set ..) _) => seed' = seed
      | _, _ => false
  | _ => false

/-- No client reads a seed it has a solution for while another is about to delete it, and
no deletion of a seed fails while the seed is there. -/
def exclusive (sha256 : String → String) (m : Sys × Act Request) : Bool :=
  match m with
  | (s, .command i fate) => (s.clients[i]?).all fun c =>
      match c.request, c.prog with
      | .verify seed nonce, some (.command (.get _) _) =>
          fate ≠ .answered ||
            (live s.state (powKey seed) s.clock).all (fun e => !solves sha256 seed nonce e.value) ||
            s.clients.all (fun c' => !Client.holds seed c')
      | .verify seed _, some (.command (.del _) _) =>
          fate ≠ .refused || (live s.state (powKey seed) s.clock).isNone
      | _, _ => true
  | _ => true

section clients
variable {cfg : Config} {sha256 : String → String}

/-- How far a client can be. -/
inductive Stage (cfg : Config) (sha256 : String → String) : Client → Prop where
  | begun (q : Request) : Stage cfg sha256 ⟨q, some (handle cfg sha256 q)⟩
  | holding (seed nonce : String) : Stage cfg sha256 ⟨.verify seed nonce, some (consume seed)⟩
  | returned (q : Request) (a : Answer) : Stage cfg sha256 ⟨q, some (.pure a)⟩
  | failed (q : Request) (e : HttpError) : Stage cfg sha256 ⟨q, some (.fail e)⟩
  | stopped (q : Request) : Stage cfg sha256 ⟨q, none⟩

theorem Stage.stop {c : Client} (h : Stage cfg sha256 c) : Stage cfg sha256 c.stop := by
  cases h with
  | begun q => cases q <;> exact .stopped _
  | holding seed nonce => exact .stopped _
  | returned q a => exact .returned q a
  | failed q e => exact .failed q e
  | stopped q => exact .stopped q

/-- What comes of the next command of a client. -/
inductive Sends (cfg : Config) (sha256 : String → String) (s : Keys String) (now : ℕ) :
    Client → Fate → Client → Keys String → Prop where
  | issued (seed : String) (answer : Handler Answer) {fate : Fate} (hfate : fate ≠ .refused) :
      Sends cfg sha256 s now ⟨.issue seed, some (issue cfg seed)⟩ fate
        ⟨.issue seed, some answer⟩
        (Function.update s (powKey seed)
          (some ⟨cfg.difficultyBits, some (now + 1000 * cfg.seedTtlSeconds)⟩))
  | unissued (seed : String) (answer : Handler Answer) :
      Sends cfg sha256 s now ⟨.issue seed, some (issue cfg seed)⟩ .refused
        ⟨.issue seed, some answer⟩ s
  | found (seed nonce : String) (e : Entry) (hlive : live s (powKey seed) now = some e)
      (hsolves : solves sha256 seed nonce e.value = true) :
      Sends cfg sha256 s now ⟨.verify seed nonce, some (verify sha256 seed nonce)⟩ .answered
        ⟨.verify seed nonce, some (consume seed)⟩ s
  | rejected (seed nonce : String) (answer : Handler Answer) (fate : Fate)
      (hanswer : answer = .pure (.verdict false) ∨ answer = .fail .unavailable) :
      Sends cfg sha256 s now ⟨.verify seed nonce, some (verify sha256 seed nonce)⟩ fate
        ⟨.verify seed nonce, some answer⟩ s
  | consumed (seed nonce : String) {fate : Fate} (hfate : fate ≠ .refused) :
      Sends cfg sha256 s now ⟨.verify seed nonce, some (consume seed)⟩ fate
        ⟨.verify seed nonce, some (.pure (.verdict true))⟩
        ((Command.del [powKey seed]).exec s now).2
  | kept (seed nonce : String) :
      Sends cfg sha256 s now ⟨.verify seed nonce, some (consume seed)⟩ .refused
        ⟨.verify seed nonce, some (.pure (.verdict true))⟩ s

variable (sha256) in
theorem answered_verify (seed nonce : String) (s : Keys String) (now : ℕ) :
    (⟨.verify seed nonce, some (verify sha256 seed nonce)⟩ : Client).send .answered s now =
      some (⟨.verify seed nonce, some (match live s (powKey seed) now with
        | none => .pure (.verdict false)
        | some e => if solves sha256 seed nonce e.value then consume seed
          else .pure (.verdict false))⟩, s) := by
  cases hlive : live s (powKey seed) now <;>
    simp [Interleaving.Client.send, verify, Redis.send, Prog.send, Command.exec, hlive, Bind.bind,
      Prog.bind, Pure.pure]

theorem Stage.sends {c c' : Client} {fate : Fate} {s s' : Keys String} {now : ℕ}
    (h : Stage cfg sha256 c) (hsend : c.send fate s now = some (c', s')) :
    Sends cfg sha256 s now c fate c' s' ∧ Stage cfg sha256 c' := by
  cases h with
  | begun q =>
      cases q with
      | issue seed =>
          cases fate with
          | answered =>
              obtain ⟨rfl, rfl⟩ := Prod.mk.inj (Option.some.inj hsend)
              exact ⟨.issued seed _ (by simp), .returned _ _⟩
          | lost =>
              obtain ⟨rfl, rfl⟩ := Prod.mk.inj (Option.some.inj hsend)
              exact ⟨.issued seed _ (by simp), .failed _ _⟩
          | refused =>
              obtain ⟨rfl, rfl⟩ := Prod.mk.inj (Option.some.inj hsend)
              exact ⟨.unissued seed _, .failed _ _⟩
      | verify seed nonce =>
          cases fate with
          | answered =>
              have hverify := answered_verify sha256 seed nonce s now
              obtain ⟨rfl, rfl⟩ := Prod.mk.inj (Option.some.inj (hverify.symm.trans hsend))
              cases hlive : live s (powKey seed) now with
              | none => exact ⟨.rejected seed nonce _ _ (Or.inl rfl), .returned _ _⟩
              | some e =>
                  dsimp only
                  split_ifs with hsolves
                  · exact ⟨.found seed nonce e hlive hsolves, .holding _ _⟩
                  · exact ⟨.rejected seed nonce _ _ (Or.inl rfl), .returned _ _⟩
          | lost =>
              obtain ⟨rfl, rfl⟩ := Prod.mk.inj (Option.some.inj hsend)
              exact ⟨.rejected seed nonce _ _ (Or.inr rfl), .failed _ _⟩
          | refused =>
              obtain ⟨rfl, rfl⟩ := Prod.mk.inj (Option.some.inj hsend)
              exact ⟨.rejected seed nonce _ _ (Or.inr rfl), .failed _ _⟩
  | holding seed nonce =>
      cases fate with
      | answered =>
          obtain ⟨rfl, rfl⟩ := Prod.mk.inj (Option.some.inj hsend)
          exact ⟨.consumed seed nonce (by simp), .returned _ _⟩
      | lost =>
          obtain ⟨rfl, rfl⟩ := Prod.mk.inj (Option.some.inj hsend)
          exact ⟨.consumed seed nonce (by simp), .returned _ _⟩
      | refused =>
          obtain ⟨rfl, rfl⟩ := Prod.mk.inj (Option.some.inj hsend)
          exact ⟨.kept seed nonce, .returned _ _⟩
  | returned => cases hsend
  | failed => cases hsend
  | stopped => cases hsend

end clients

/-! ### What a seed buys -/

section invariant
variable {cfg : Config} {sha256 : String → String} {seed : String}

/-- The seed can be accepted once more: it is there, or was read. -/
def Outstanding (seed : String) (s : Sys) : Prop :=
  0 < s.clients.countP (Client.holds seed) ∨ (live s.state (powKey seed) s.clock).isSome = true

/-- Each acceptance, and each that is still outstanding, has been bought by an issue. -/
structure Bought (cfg : Config) (sha256 : String → String) (seed : String)
    (tr : List (Sys × Act Request)) (s : Sys) : Prop where
  stages : ∀ c ∈ s.clients, Stage cfg sha256 c
  once : s.clients.countP (Client.holds seed) ≤ 1
  spent : s.clients.countP (Client.accepted seed) ≤ tr.countP (issues seed)
  outstanding : Outstanding seed s →
    s.clients.countP (Client.accepted seed) + 1 ≤ tr.countP (issues seed)

theorem powKey_inj {seed seed' : String} (h : powKey seed = powKey seed') : seed = seed' :=
  (String.append_right_inj _).mp h

/-- An act that changes neither the counts nor the seed, and issues none. -/
theorem Bought.same {tr : List (Sys × Act Request)} {s s' : Sys} {m : Sys × Act Request}
    (h : Bought cfg sha256 seed tr s) (hstages : ∀ c ∈ s'.clients, Stage cfg sha256 c)
    (hholds : s'.clients.countP (Client.holds seed) = s.clients.countP (Client.holds seed))
    (haccepted : s'.clients.countP (Client.accepted seed) =
      s.clients.countP (Client.accepted seed))
    (hlive : (live s'.state (powKey seed) s'.clock).isSome = true →
      (live s.state (powKey seed) s.clock).isSome = true) :
    Bought cfg sha256 seed (tr ++ [m]) s' where
  stages := hstages
  once := hholds ▸ h.once
  spent := by
    rw [haccepted, List.countP_append]
    exact h.spent.trans (Nat.le_add_right _ _)
  outstanding := by
    rintro (hheld | hthere)
    · rw [haccepted, List.countP_append]
      exact (h.outstanding (Or.inl (hholds ▸ hheld))).trans (Nat.le_add_right _ _)
    · rw [haccepted, List.countP_append]
      exact (h.outstanding (Or.inr (hlive hthere))).trans (Nat.le_add_right _ _)

variable (cfg sha256 seed) in
theorem Stage.starts (q : Request) :
    Client.holds seed ⟨q, some (handle cfg sha256 q)⟩ = false ∧
      Client.accepted seed ⟨q, some (handle cfg sha256 q)⟩ = false := by
  cases q <;> exact ⟨rfl, rfl⟩

/-- The clients that go on as they were, and the one that has moved. -/
theorem Bought.stages_set {tr : List (Sys × Act Request)} {s : Sys} {i : ℕ} {c' : Client}
    (h : Bought cfg sha256 seed tr s) (hstage : Stage cfg sha256 c') :
    ∀ c ∈ s.clients.set i c', Stage cfg sha256 c := by
  intro c hmem
  rcases List.mem_or_eq_of_mem_set hmem with hold | rfl
  · exact h.stages c hold
  · exact hstage

theorem issues_mono {tr : List (Sys × Act Request)} {m : Sys × Act Request} :
    tr.countP (issues seed) ≤ (tr ++ [m]).countP (issues seed) := by
  rw [List.countP_append]
  exact Nat.le_add_right _ _

variable (seed) in
/-- Stopping takes no acceptance back and accepts nothing. -/
theorem Stage.stops {c : Client} (h : Stage cfg sha256 c) :
    Client.holds seed c.stop = false ∧ Client.accepted seed c.stop = Client.accepted seed c := by
  cases h with
  | begun q => cases q <;> exact ⟨rfl, rfl⟩
  | holding seed' nonce => exact ⟨rfl, rfl⟩
  | returned q a => cases q <;> exact ⟨rfl, rfl⟩
  | failed q e => cases q <;> exact ⟨rfl, rfl⟩
  | stopped q => cases q <;> exact ⟨rfl, rfl⟩

theorem Bought.stop {tr : List (Sys × Act Request)} {s : Sys} {m : Sys × Act Request} {i : ℕ}
    {c : Client} (h : Bought cfg sha256 seed tr s) (hc : s.clients[i]? = some c) :
    Bought cfg sha256 seed (tr ++ [m]) { s with clients := s.clients.set i c.stop } := by
  have hstage := h.stages c (List.mem_of_getElem? hc)
  obtain ⟨hholds, haccepted⟩ := hstage.stops seed
  have hheld := countP_set hc (Client.holds seed) c.stop
  have hspent := countP_set hc (Client.accepted seed) c.stop
  rw [hholds, Bool.toNat_false] at hheld
  rw [haccepted] at hspent
  have hsame := Nat.add_right_cancel hspent
  refine ⟨h.stages_set hstage.stop, ?_, ?_, ?_⟩
  · have honce := h.once
    change (s.clients.set i c.stop).countP (Client.holds seed) ≤ 1
    omega
  · rw [hsame]
    exact h.spent.trans issues_mono
  · intro hout
    rw [hsame]
    refine (h.outstanding ?_).trans issues_mono
    rcases hout with hpos | hthere
    · left
      change 0 < (s.clients.set i c.stop).countP (Client.holds seed) at hpos
      omega
    · exact Or.inr hthere

/-- A client goes on, and neither takes hold of the seed, nor lets it go, nor accepts it. -/
theorem Bought.goesOn {tr : List (Sys × Act Request)} {s : Sys} {m : Sys × Act Request} {i : ℕ}
    {c c' : Client} {keys : Keys String} (h : Bought cfg sha256 seed tr s)
    (hc : s.clients[i]? = some c) (hstage : Stage cfg sha256 c')
    (hholds : Client.holds seed c' = Client.holds seed c)
    (haccepted : Client.accepted seed c' = Client.accepted seed c)
    (hlive : (live keys (powKey seed) s.clock).isSome = true →
      (live s.state (powKey seed) s.clock).isSome = true) :
    Bought cfg sha256 seed (tr ++ [m]) { s with state := keys, clients := s.clients.set i c' } := by
  have hheld := countP_set hc (Client.holds seed) c'
  have hspent := countP_set hc (Client.accepted seed) c'
  rw [hholds] at hheld
  rw [haccepted] at hspent
  exact h.same (h.stages_set hstage) (Nat.add_right_cancel hheld) (Nat.add_right_cancel hspent) hlive

/-- The seed is issued: one acceptance more has been bought. -/
theorem Bought.buy {tr : List (Sys × Act Request)} {s : Sys} {m : Sys × Act Request} {i : ℕ}
    {c c' : Client} {keys : Keys String} (h : Bought cfg sha256 seed tr s)
    (hc : s.clients[i]? = some c) (hstage : Stage cfg sha256 c')
    (hholds : Client.holds seed c' = Client.holds seed c)
    (haccepted : Client.accepted seed c' = Client.accepted seed c) (hissues : issues seed m = true) :
    Bought cfg sha256 seed (tr ++ [m]) { s with state := keys, clients := s.clients.set i c' } := by
  have hheld := countP_set hc (Client.holds seed) c'
  have hspent := countP_set hc (Client.accepted seed) c'
  rw [hholds] at hheld
  rw [haccepted] at hspent
  have hcount : (tr ++ [m]).countP (issues seed) = tr.countP (issues seed) + 1 := by
    rw [List.countP_append, List.countP_singleton, if_pos hissues]
  refine ⟨h.stages_set hstage, (Nat.add_right_cancel hheld).trans_le h.once, ?_, fun _ => ?_⟩
  · rw [hcount, Nat.add_right_cancel hspent]
    exact h.spent.trans (Nat.le_succ _)
  · rw [hcount, Nat.add_right_cancel hspent]
    exact Nat.succ_le_succ h.spent

/-- A client finds the seed there, and holds it from now on. -/
theorem Bought.find {tr : List (Sys × Act Request)} {s : Sys} {m : Sys × Act Request} {i : ℕ}
    {nonce : String} {c : Client} (h : Bought cfg sha256 seed tr s) (hc : s.clients[i]? = some c)
    (haccepted : Client.accepted seed c = false)
    (hthere : (live s.state (powKey seed) s.clock).isSome = true)
    (hfree : ∀ c₁ ∈ s.clients, ¬Client.holds seed c₁ = true) :
    Bought cfg sha256 seed (tr ++ [m])
      { s with clients := s.clients.set i ⟨.verify seed nonce, some (consume seed)⟩ } := by
  let c' : Client := ⟨.verify seed nonce, some (consume seed)⟩
  have hnew : Client.holds seed c' = true ∧ Client.accepted seed c' = false :=
    ⟨decide_eq_true rfl, rfl⟩
  have hheld := countP_set hc (Client.holds seed) c'
  have hspent := countP_set hc (Client.accepted seed) c'
  rw [List.countP_eq_zero.mpr hfree, hnew.1, Bool.toNat_true] at hheld
  rw [haccepted, hnew.2] at hspent
  have hsame := Nat.add_right_cancel hspent
  have hout := h.outstanding (Or.inr hthere)
  refine ⟨h.stages_set (.holding seed nonce), ?_, ?_, fun _ => ?_⟩
  · change (s.clients.set i c').countP (Client.holds seed) ≤ 1
    omega
  · rw [hsame]
    exact h.spent.trans issues_mono
  · rw [hsame]
    exact hout.trans issues_mono

/-- The client that holds the seed is accepted, and the seed is gone. -/
theorem Bought.spend {tr : List (Sys × Act Request)} {s : Sys} {m : Sys × Act Request} {i : ℕ}
    {nonce : String} {keys : Keys String} (h : Bought cfg sha256 seed tr s)
    (hc : s.clients[i]? = some ⟨.verify seed nonce, some (consume seed)⟩)
    (hgone : live keys (powKey seed) s.clock = none) :
    Bought cfg sha256 seed (tr ++ [m]) { s with
      state := keys
      clients := s.clients.set i ⟨.verify seed nonce, some (.pure (.verdict true))⟩ } := by
  let c' : Client := ⟨.verify seed nonce, some (.pure (.verdict true))⟩
  have hold : Client.holds seed ⟨.verify seed nonce, some (consume seed)⟩ = true ∧
      Client.accepted seed ⟨.verify seed nonce, some (consume seed)⟩ = false :=
    ⟨decide_eq_true rfl, rfl⟩
  have hnew : Client.holds seed c' = false ∧ Client.accepted seed c' = true :=
    ⟨rfl, decide_eq_true rfl⟩
  have hheld := countP_set hc (Client.holds seed) c'
  have haccepted := countP_set hc (Client.accepted seed) c'
  rw [hold.1, hnew.1, Bool.toNat_true, Bool.toNat_false] at hheld
  rw [hold.2, hnew.2, Bool.toNat_true, Bool.toNat_false] at haccepted
  have honce := h.once
  have hout := h.outstanding (Or.inl (by omega))
  have hmore : tr.countP (issues seed) ≤ (tr ++ [m]).countP (issues seed) := issues_mono
  refine ⟨h.stages_set (.returned _ _), ?_, ?_, ?_⟩
  · change (s.clients.set i c').countP (Client.holds seed) ≤ 1
    omega
  · change (s.clients.set i c').countP (Client.accepted seed) ≤ _
    omega
  · rintro (hpos | hthere)
    · change 0 < (s.clients.set i c').countP (Client.holds seed) at hpos
      omega
    · exact absurd (hgone ▸ hthere) (by simp)

theorem exclusive_found {s : Sys} {i : ℕ} {nonce : String} {e : Entry}
    (hc : s.clients[i]? = some ⟨.verify seed nonce, some (verify sha256 seed nonce)⟩)
    (hlive : live s.state (powKey seed) s.clock = some e)
    (hsolves : solves sha256 seed nonce e.value = true)
    (h : exclusive sha256 (s, .command i .answered) = true) :
    ∀ c ∈ s.clients, ¬Client.holds seed c = true := by
  rw [exclusive, hc] at h
  have hopen : (decide (Fate.answered ≠ .answered) ||
      (live s.state (powKey seed) s.clock).all (fun e => !solves sha256 seed nonce e.value) ||
      s.clients.all fun c' => !Client.holds seed c') = true := h
  rw [hlive] at hopen
  simpa [hsolves] using hopen

theorem exclusive_kept {s : Sys} {i : ℕ} {nonce : String}
    (hc : s.clients[i]? = some ⟨.verify seed nonce, some (consume seed)⟩)
    (h : exclusive sha256 (s, .command i .refused) = true) :
    live s.state (powKey seed) s.clock = none := by
  rw [exclusive, hc] at h
  have hgone : (decide (Fate.refused ≠ .refused) ||
      (live s.state (powKey seed) s.clock).isNone) = true := h
  simpa using hgone

/-- A client has sent its command, and the seed is as it was or as the command left it. -/
theorem Bought.sends {tr : List (Sys × Act Request)} {s : Sys} {i : ℕ} {fate : Fate}
    {c c' : Client} {keys : Keys String} (h : Bought cfg sha256 seed tr s)
    (hc : s.clients[i]? = some c) (hsends : Sends cfg sha256 s.state s.clock c fate c' keys)
    (hstage : Stage cfg sha256 c') (hexclusive : exclusive sha256 (s, .command i fate) = true) :
    Bought cfg sha256 seed (tr ++ [(s, .command i fate)])
      { s with state := keys, clients := s.clients.set i c' } := by
  cases hsends with
  | issued seed' answer hfate =>
      by_cases hseed : seed' = seed
      · subst hseed
        refine h.buy hc hstage rfl rfl ?_
        simp [issues, hc, hfate, issue, Redis.send, Prog.send, Bind.bind, Prog.bind]
      · refine h.goesOn hc hstage rfl rfl fun hthere => ?_
        rwa [live_congr (Function.update_of_ne (fun hkey => hseed (powKey_inj hkey).symm) _ _)]
          at hthere
  | unissued seed' answer => exact h.goesOn hc hstage rfl rfl id
  | found seed' nonce e hlive hsolves =>
      by_cases hseed : seed' = seed
      · subst hseed
        refine h.find hc rfl ?_ (exclusive_found hc hlive hsolves hexclusive)
        rw [hlive]
        rfl
      · exact h.goesOn hc hstage (decide_eq_false hseed) rfl id
  | rejected seed' nonce answer fate hanswer =>
      have hnew : Client.holds seed ⟨.verify seed' nonce, some answer⟩ = false ∧
          Client.accepted seed ⟨.verify seed' nonce, some answer⟩ = false := by
        rcases hanswer with rfl | rfl <;> exact ⟨rfl, rfl⟩
      exact h.goesOn hc hstage hnew.1 hnew.2 id
  | consumed seed' nonce hfate =>
      by_cases hseed : seed' = seed
      · subst hseed
        exact h.spend hc (live_del (List.mem_singleton_self _) _)
      · refine h.goesOn hc hstage (decide_eq_false hseed).symm (decide_eq_false hseed) ?_
        rw [live_exec_elsewhere]
        · exact id
        · exact fun hmem => hseed (powKey_inj (List.mem_singleton.mp hmem)).symm
  | kept seed' nonce =>
      by_cases hseed : seed' = seed
      · subst hseed
        exact h.spend hc (exclusive_kept hc hexclusive)
      · exact h.goesOn hc hstage (decide_eq_false hseed).symm (decide_eq_false hseed) id

theorem Bought.act {tr : List (Sys × Act Request)} {s : Sys} {a : Act Request}
    (hexclusive : exclusive sha256 (s, a) = true) (h : Bought cfg sha256 seed tr s) :
    Bought cfg sha256 seed (tr ++ [(s, a)]) (s.act (handle cfg sha256) a) := by
  rcases act_cases s a with ⟨q, rfl, hact⟩ | ⟨n, rfl, hact⟩ | ⟨i, c, hc, rfl, hact⟩ |
    ⟨i, fate, c, c', keys, hc, hsend, rfl, hact⟩ | hact
  · rw [hact]
    obtain ⟨hholds, haccepted⟩ := Stage.starts cfg sha256 seed q
    refine h.same ?_ ?_ ?_ id
    · intro c hmem
      rcases List.mem_append.mp hmem with hold | hnew
      · exact h.stages c hold
      · rw [List.mem_singleton.mp hnew]
        exact .begun q
    · simp [hholds]
    · simp [haccepted]
  · rw [hact]
    refine h.same h.stages rfl rfl fun hthere => ?_
    obtain ⟨e, he⟩ := Option.isSome_iff_exists.mp hthere
    exact Option.isSome_iff_exists.mpr ⟨e, live_earlier he (Nat.le_add_right _ _)⟩
  · rw [hact]
    exact h.stop hc
  · rw [hact]
    obtain ⟨hsends, hstage⟩ := (h.stages c (List.mem_of_getElem? hc)).sends hsend
    exact h.sends hc hsends hstage hexclusive
  · rw [hact]
    exact h.same h.stages rfl rfl id

/-! ### When a seed is read -/

/-- The client is about to read the seed. -/
def Client.reads (seed : String) (c : Client) : Bool :=
  match c.request, c.prog with
  | .verify seed' _, some (.command (.get _) _) => seed' = seed
  | _, _ => false

/-- The client had its read of the seed answered after an issue of it, and before that issue had
expired. -/
def ReadInTime (cfg : Config) (seed : String) (i : ℕ) (tr : List (Sys × Act Request)) : Prop :=
  ∃ earlier m later, tr = earlier ++ m :: later ∧ m.2 = .command i .answered ∧
    (m.1.clients[i]?).any (Client.reads seed) = true ∧
    ∃ m' ∈ earlier, issues seed m' = true ∧ m.1.clock < m'.1.clock + 1000 * cfg.seedTtlSeconds

theorem ReadInTime.later {i : ℕ} {tr : List (Sys × Act Request)} (h : ReadInTime cfg seed i tr)
    (m : Sys × Act Request) : ReadInTime cfg seed i (tr ++ [m]) := by
  obtain ⟨earlier, read, later, rfl, hread⟩ := h
  exact ⟨earlier, read, later ++ [m], by simp, hread⟩

/-- A stored seed expires when an issue of it says, and was read in time by all who hold it or
were accepted. -/
structure InTime (cfg : Config) (sha256 : String → String) (seed : String)
    (tr : List (Sys × Act Request)) (s : Sys) : Prop where
  stages : ∀ c ∈ s.clients, Stage cfg sha256 c
  timed : ∀ e, s.state (powKey seed) = some e → ∃ m ∈ tr, issues seed m = true ∧
    e.expiresAt = some (m.1.clock + 1000 * cfg.seedTtlSeconds)
  read : ∀ i c, s.clients[i]? = some c →
    Client.holds seed c = true ∨ Client.accepted seed c = true → ReadInTime cfg seed i tr

/-- A client is replaced by one that is no further with the seed. -/
theorem InTime.set {tr : List (Sys × Act Request)} {s : Sys} {m : Sys × Act Request} {i : ℕ}
    {c' : Client} {keys : Keys String} (h : InTime cfg sha256 seed tr s)
    (hstage : Stage cfg sha256 c')
    (htimed : ∀ e, keys (powKey seed) = some e → s.state (powKey seed) = some e ∨
      issues seed m = true ∧ e.expiresAt = some (m.1.clock + 1000 * cfg.seedTtlSeconds))
    (hread : Client.holds seed c' = true ∨ Client.accepted seed c' = true →
      ReadInTime cfg seed i (tr ++ [m])) :
    InTime cfg sha256 seed (tr ++ [m]) { s with state := keys, clients := s.clients.set i c' } where
  stages := by
    intro c hmem
    rcases List.mem_or_eq_of_mem_set hmem with hold | rfl
    · exact h.stages c hold
    · exact hstage
  timed := by
    intro e he
    rcases htimed e he with hold | hnew
    · obtain ⟨m', hm', hissue⟩ := h.timed e hold
      exact ⟨m', List.mem_append_left _ hm', hissue⟩
    · exact ⟨m, List.mem_append_right _ List.mem_cons_self, hnew⟩
  read := by
    intro j c hc hseed
    rcases getElem?_set_cases hc with ⟨rfl, rfl⟩ | hold
    · exact hread hseed
    · exact (h.read j c hold hseed).later m

theorem InTime.act {tr : List (Sys × Act Request)} {s : Sys} {a : Act Request}
    (h : InTime cfg sha256 seed tr s) :
    InTime cfg sha256 seed (tr ++ [(s, a)]) (s.act (handle cfg sha256) a) := by
  have kept : ∀ e, s.state (powKey seed) = some e → ∃ m ∈ tr ++ [(s, a)], issues seed m = true ∧
      e.expiresAt = some (m.1.clock + 1000 * cfg.seedTtlSeconds) := by
    intro e he
    obtain ⟨m, hm, hissue⟩ := h.timed e he
    exact ⟨m, List.mem_append_left _ hm, hissue⟩
  rcases act_cases s a with ⟨q, rfl, hact⟩ | ⟨n, rfl, hact⟩ | ⟨i, c, hc, rfl, hact⟩ |
    ⟨i, fate, c, c', keys, hc, hsend, rfl, hact⟩ | hact
  · rw [hact]
    refine ⟨fun c hmem => ?_, kept, fun i c hc hseed => ?_⟩
    · rcases List.mem_append.mp hmem with hold | hnew
      · exact h.stages c hold
      · rw [List.mem_singleton.mp hnew]
        exact .begun q
    · obtain ⟨hholds, haccepted⟩ := Stage.starts cfg sha256 seed q
      rcases getElem?_append_cases hc with rfl | hold
      · rw [hholds, haccepted] at hseed
        simp at hseed
      · exact (h.read i c hold hseed).later _
  · rw [hact]
    exact ⟨h.stages, kept, fun i c hc hseed => (h.read i c hc hseed).later _⟩
  · rw [hact]
    have hstage := h.stages c (List.mem_of_getElem? hc)
    obtain ⟨hholds, haccepted⟩ := hstage.stops seed
    refine h.set hstage.stop (fun e => Or.inl) fun hseed => ?_
    rw [hholds, haccepted] at hseed
    exact (h.read i c hc (Or.inr (by simpa using hseed))).later _
  · rw [hact]
    have hread := h.read i c hc
    obtain ⟨hsends, hstage⟩ := (h.stages c (List.mem_of_getElem? hc)).sends hsend
    cases hsends with
    | issued seed' answer hfate =>
        refine h.set hstage (fun e he => ?_) fun hseed => nomatch hseed
        by_cases hseed : seed' = seed
        · subst hseed
          rw [Function.update_self] at he
          refine Or.inr ⟨?_, by rw [← Option.some.inj he]⟩
          simp [issues, hc, hfate, issue, Redis.send, Prog.send, Bind.bind, Prog.bind]
        · rw [Function.update_of_ne fun hkey => hseed (powKey_inj hkey).symm] at he
          exact Or.inl he
    | unissued seed' answer =>
        exact h.set hstage (fun e => Or.inl) fun hseed => nomatch hseed
    | found seed' nonce e hlive hsolves =>
        refine h.set hstage (fun e => Or.inl) fun hseed => ?_
        have hsame : seed' = seed := by simpa [Client.holds, Client.accepted, consume] using hseed
        subst hsame
        obtain ⟨hstored, hbefore⟩ := live_eq_some.mp hlive
        obtain ⟨m, hm, hissues, hexpires⟩ := h.timed e hstored
        refine ⟨tr, _, [], rfl, rfl, ?_, m, hm, hissues, hbefore _ hexpires⟩
        rw [hc]
        exact decide_eq_true rfl
    | rejected seed' nonce answer fate hanswer =>
        refine h.set hstage (fun e => Or.inl) fun hseed => ?_
        rcases hanswer with rfl | rfl <;> exact nomatch hseed
    | consumed seed' nonce hfate =>
        refine h.set hstage (fun e he => Or.inl ?_) fun hseed => ?_
        · simp only [Command.exec] at he
          split_ifs at he
          exact he
        · refine (hread (Or.inl ?_)).later _
          simpa [Client.holds, Client.accepted, consume] using hseed
    | kept seed' nonce =>
        refine h.set hstage (fun e => Or.inl) fun hseed => (hread (Or.inl ?_)).later _
        simpa [Client.holds, Client.accepted, consume] using hseed
  · rw [hact]
    exact ⟨h.stages, kept, fun i c hc hseed => (h.read i c hc hseed).later _⟩

end invariant

section runs
variable (cfg : Config) (sha256 : String → String)

/-- Whatever verifications run at once, a seed is accepted at most as often as it was issued,
as long as no solution is found good while another is being accepted and no deletion fails;
and in any case only what was read before it expired is accepted. -/
theorem accepted_once (seed : String) (as : List (Act Request))
    (hexclusive : ∀ m ∈ trace (handle cfg sha256) start as, exclusive sha256 m = true) :
    let s := Sys.after (handle cfg sha256) start as
    let tr := trace (handle cfg sha256) start as
    s.clients.countP (Client.accepted seed) ≤ tr.countP (issues seed) ∧
      ∀ i c, s.clients[i]? = some c → Client.accepted seed c = true →
        ReadInTime cfg seed i tr := by
  intro s tr
  have hbought : Bought cfg sha256 seed tr s := by
    refine traced ?_ (fun tr s a hex h => h.act hex) as hexclusive
    refine ⟨fun c hc => (nomatch hc), Nat.zero_le _, Nat.zero_le _, ?_⟩
    rintro (hheld | hthere)
    · exact nomatch hheld
    · exact nomatch hthere
  have htimely : InTime cfg sha256 seed tr s := by
    refine traced ?_ (fun tr s a _ h => h.act) as fun _ _ => trivial
    exact ⟨fun c hc => (nomatch hc), fun e he => (nomatch he), fun i c hc => (nomatch hc)⟩
  exact ⟨hbought.spent, fun i c hc haccepted => htimely.read i c hc (Or.inr haccepted)⟩

/-- A seed, and the digest of it with its first solution. -/
def sampleSeed : String := "9f2c41d07be85a63c4f1082e6d7b93a5508e1f6dca2740b93f65d81ce07a24b1"

def sampleDigest (text : String) : String :=
  if text = sampleSeed ++ "144434" then
    "0000057512c0fd61716aec3ee7605ec4e8e82c4af0f13d1e6f0b032532e1bdb0"
  else "f"

/-- One after the other: the second finds the seed gone. -/
def inTurn : List (Act Request) :=
  [.arrive (.issue sampleSeed), .command 0, .arrive (.verify sampleSeed "144434"), .command 1,
    .command 1, .arrive (.verify sampleSeed "144434"), .command 2]

theorem accepted_once_inTurn :
    let s := Sys.after (handle {} sampleDigest) start inTurn
    s.clients.countP (Client.accepted sampleSeed) = 1 ∧
      s.clients.countP (Client.accepted sampleSeed) ≤
        (trace (handle {} sampleDigest) start inTurn).countP (issues sampleSeed) :=
  ⟨by decide +kernel, (accepted_once {} sampleDigest sampleSeed inTurn (by decide +kernel)).1⟩

/-- Both read the seed before either deletes it. -/
def atOnce : List (Act Request) :=
  [.arrive (.issue sampleSeed), .command 0, .arrive (.verify sampleSeed "144434"),
    .arrive (.verify sampleSeed "144434"), .command 1, .command 2, .command 1, .command 2]

theorem accepted_twice_atOnce :
    let s := Sys.after (handle {} sampleDigest) start atOnce
    let tr := trace (handle {} sampleDigest) start atOnce
    s.clients.countP (Client.accepted sampleSeed) = 2 ∧ tr.countP (issues sampleSeed) = 1 := by
  decide +kernel

end runs

end CiroFuel.Challenges
