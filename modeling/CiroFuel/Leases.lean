import CiroFuel.Redis.Commands

/-!
# Leases on sweeps

Every instance starts a sweep at the same time, and the one that sets the key of the sweep
runs it. The key expires by itself, so an instance that is slow may lose its lease to
another one while it works. What it deletes in the end is therefore the key with its own
token, and no other.
-/
namespace CiroFuel.Leases
open Interleaving Redis

structure Config where
  enabled : Bool := true
  ttlMs : ℕ

/-- A run of a sweep, with the bits of the token it draws. -/
structure Request where
  sweep : String
  token : ℕ
deriving DecidableEq

/-- The store's commands, and the end of a sweep's work. -/
inductive Command where
  | setNx (key : String) (token px : ℕ)
  | compareAndDelete (key : String) (token : ℕ)
  | work

namespace Command

@[reducible] def Reply : Command → Type
  | .setNx .. => Bool
  | .compareAndDelete .. => ℕ
  | .work => Unit

def exec : (c : Command) → Keys String → ℕ → c.Reply × Keys String
  | .setNx key token px, s, now =>
      match live s key now with
      | some _ => (false, s)
      | none => (true, Function.update s key (some ⟨token, some (now + px)⟩))
  | .compareAndDelete key token, s, now =>
      if (live s key now).map Entry.value = some token then (1, Function.update s key none)
      else (0, s)
  | .work, s, _ => ((), s)

instance : Service Reply (Keys String) where
  exec := exec

end Command

inductive HttpError where
  | workFailed
deriving DecidableEq

abbrev Handler := Prog Command.Reply HttpError Bool

def leaseKey (sweep : String) : String := "scheduler:lease:" ++ sweep

/-- What a run returns of its work. -/
def outcome : Option Unit → Handler
  | some () => .pure true
  | none => .fail .workFailed

/-- The lease is given back however the work has ended; a failure to do so is forgotten. -/
def release (q : Request) (result : Option Unit) : Handler :=
  .command (.compareAndDelete (leaseKey q.sweep) q.token) fun _ => outcome result

def working (q : Request) : Handler := .command .work (release q)

/-- The sweep is skipped if another run has its lease, or the store cannot be reached. -/
def proceed (q : Request) : Option Bool → Handler
  | some true => working q
  | some false => .pure false
  | none => .pure false

def runExclusively (cfg : Config) (q : Request) : Handler :=
  if !cfg.enabled then .command .work outcome
  else .command (.setNx (leaseKey q.sweep) q.token cfg.ttlMs) (proceed q)

abbrev Sys := Interleaving.Sys Command.Reply (Keys String) HttpError Request Bool
abbrev Client := Interleaving.Client Command.Reply HttpError Request Bool

def start : Sys where
  state _ := none

/-- The run is inside its work. -/
def isWorking (c : Client) : Bool :=
  match c.prog with
  | some (.command .work _) => true
  | _ => false

/-- The run is about to ask for its lease. -/
def isAcquiring (c : Client) : Bool :=
  match c.prog with
  | some (.command (.setNx ..) _) => true
  | _ => false

/-- The lease the run holds. -/
def lease (s : Sys) (c : Client) : Option Entry :=
  (live s.state (leaseKey c.request.sweep) s.clock).filter fun e => e.value = c.request.token

/-- The run is given the lease of its sweep. -/
def acquires (i : ℕ) (m : Sys × Act Request) : Bool :=
  match m with
  | (s, .command j .answered) => j = i && (s.clients[i]?).any fun c => isAcquiring c &&
      (live s.state (leaseKey c.request.sweep) s.clock).isNone
  | _ => false

/-- A run that has been given its lease works only for the time of the lease. -/
def inTime (cfg : Config) (m m' : Sys × Act Request) : Bool :=
  match m.2 with
  | .command i _ => !acquires i m || (m'.1.clients[i]?).all fun c =>
      !isWorking c || m'.1.clock < m.1.clock + cfg.ttlMs
  | _ => true

/-- No run works for longer than its lease lasts. -/
def Timely (cfg : Config) (as : List (Act Request)) : Prop :=
  (trace (runExclusively cfg) start as).Pairwise fun m m' => inTime cfg m m' = true

/-- At most one run of a sweep is inside its work. -/
def Exclusive (s : Sys) : Prop :=
  ∀ (i j : ℕ) (c d : Client), s.clients[i]? = some c → s.clients[j]? = some d →
    c.request.sweep = d.request.sweep → isWorking c = true → isWorking d = true → i = j

/-- The command of a run leaves the lease alone that another holds. -/
def KeepsLeases (cfg : Config) (m : Sys × Act Request) : Prop :=
  ∀ (i : ℕ) (fate : Fate) (j : ℕ) (d : Client) (e : Entry), m.2 = .command i fate → j ≠ i →
    m.1.clients[j]? = some d → lease m.1 d = some e →
      lease (m.1.act (runExclusively cfg) m.2) d = some e

/-- A run that asks for its lease and gets no answer never does any work. -/
def SkipsUnanswered (cfg : Config) (m : Sys × Act Request) : Prop :=
  ∀ (i : ℕ) (fate : Fate) (c : Client), m.2 = .command i fate → fate ≠ .answered →
    m.1.clients[i]? = some c → isAcquiring c = true → ∀ as : List (Act Request),
      ((m.1.act (runExclusively cfg) m.2).after (runExclusively cfg) as).clients[i]? =
        some ⟨c.request, some (.pure false)⟩

/-! ### One command -/

section commands
variable {s : Keys String} {key : String} {token px now : ℕ}

theorem setNx_free (h : live s key now = none) : (Command.setNx key token px).exec s now =
    (true, Function.update s key (some ⟨token, some (now + px)⟩)) := by
  simp [Command.exec, h]

theorem setNx_taken {e : Entry} (h : live s key now = some e) :
    (Command.setNx key token px).exec s now = (false, s) := by
  simp [Command.exec, h]

/-- A key that is there is not set again. -/
theorem setNx_keeps {k : String} {e : Entry} (h : live s k now = some e) :
    ((Command.setNx key token px).exec s now).2 k = s k := by
  cases hlive : live s key now with
  | some e' => rw [setNx_taken hlive]
  | none =>
      rw [setNx_free hlive]
      apply Function.update_of_ne
      rintro rfl
      rw [h] at hlive
      cases hlive

/-- Only an entry with the token is deleted. -/
theorem compareAndDelete_keeps {k : String} {e : Entry} (h : live s k now = some e)
    (htoken : e.value ≠ token) : ((Command.compareAndDelete key token).exec s now).2 k = s k := by
  simp only [Command.exec]
  split_ifs with hsame
  · apply Function.update_of_ne
    rintro rfl
    rw [h] at hsame
    exact htoken (Option.some.inj hsame)
  · rfl

end commands

section clients
variable {cfg : Config}

/-- How far a run can be. -/
inductive Stage (cfg : Config) : Client → Prop where
  | begun (q : Request) : Stage cfg ⟨q, some (runExclusively cfg q)⟩
  | working (q : Request) : Stage cfg ⟨q, some (working q)⟩
  | releasing (q : Request) (result : Option Unit) : Stage cfg ⟨q, some (release q result)⟩
  | returned (q : Request) (ran : Bool) : Stage cfg ⟨q, some (.pure ran)⟩
  | failed (q : Request) (e : HttpError) : Stage cfg ⟨q, some (.fail e)⟩
  | stopped (q : Request) : Stage cfg ⟨q, none⟩

theorem Stage.outcome (q : Request) (result : Option Unit) :
    Stage cfg ⟨q, some (outcome result)⟩ := by
  cases result with
  | none => exact .failed q .workFailed
  | some u => exact .returned q true

theorem isWorking_outcome (q : Request) (result : Option Unit) :
    isWorking ⟨q, some (outcome result)⟩ = false := by
  cases result <;> rfl

theorem runExclusively_enabled (henabled : cfg.enabled = true) (q : Request) :
    runExclusively cfg q =
      .command (.setNx (leaseKey q.sweep) q.token cfg.ttlMs) (proceed q) := by
  rw [runExclusively, henabled]
  rfl

theorem runExclusively_disabled (hdisabled : cfg.enabled = false) (q : Request) :
    runExclusively cfg q = .command .work Leases.outcome := by
  rw [runExclusively, hdisabled]
  rfl

theorem Stage.stop {c : Client} (h : Stage cfg c) : Stage cfg c.stop ∧ isWorking c.stop = false := by
  cases h with
  | begun q =>
      cases henabled : cfg.enabled with
      | true =>
          rw [runExclusively_enabled henabled]
          exact ⟨.stopped q, rfl⟩
      | false =>
          rw [runExclusively_disabled henabled]
          exact ⟨.stopped q, rfl⟩
  | working q => exact ⟨.stopped q, rfl⟩
  | releasing q result => exact ⟨.stopped q, rfl⟩
  | returned q ran => exact ⟨.returned q ran, rfl⟩
  | failed q e => exact ⟨.failed q e, rfl⟩
  | stopped q => exact ⟨.stopped q, rfl⟩

/-- What comes of the next command of a run. -/
inductive Sends (cfg : Config) (s : Keys String) (now : ℕ) :
    Client → Fate → Client → Keys String → Prop where
  | acquired (q : Request) (henabled : cfg.enabled = true)
      (hfree : live s (leaseKey q.sweep) now = none) :
      Sends cfg s now ⟨q, some (runExclusively cfg q)⟩ .answered ⟨q, some (Leases.working q)⟩
        ((Command.setNx (leaseKey q.sweep) q.token cfg.ttlMs).exec s now).2
  | skipped (q : Request) (fate : Fate) (keys : Keys String) (henabled : cfg.enabled = true)
      (hkeys : keys = s ∨
        keys = ((Command.setNx (leaseKey q.sweep) q.token cfg.ttlMs).exec s now).2) :
      Sends cfg s now ⟨q, some (runExclusively cfg q)⟩ fate ⟨q, some (.pure false)⟩ keys
  | unarbitrated (q : Request) (fate : Fate) (result : Option Unit)
      (hdisabled : cfg.enabled = false) :
      Sends cfg s now ⟨q, some (runExclusively cfg q)⟩ fate ⟨q, some (outcome result)⟩ s
  | worked (q : Request) (fate : Fate) (result : Option Unit) :
      Sends cfg s now ⟨q, some (Leases.working q)⟩ fate ⟨q, some (release q result)⟩ s
  | released (q : Request) (result : Option Unit) (fate : Fate) (keys : Keys String)
      (hkeys : keys = s ∨
        keys = ((Command.compareAndDelete (leaseKey q.sweep) q.token).exec s now).2) :
      Sends cfg s now ⟨q, some (release q result)⟩ fate ⟨q, some (outcome result)⟩ keys

section sends
variable {q : Request} {c c' : Client} {fate : Fate} {s s' : Keys String} {now : ℕ}

theorem answered_free (hfree : live s (leaseKey q.sweep) now = none) :
    (⟨q, some (.command (.setNx (leaseKey q.sweep) q.token cfg.ttlMs) (proceed q))⟩ :
      Client).send .answered s now =
    some (⟨q, some (Leases.working q)⟩,
      ((Command.setNx (leaseKey q.sweep) q.token cfg.ttlMs).exec s now).2) := by
  simp [Interleaving.Client.send, Service.exec, setNx_free hfree, proceed]

theorem answered_taken {e : Entry} (htaken : live s (leaseKey q.sweep) now = some e) :
    (⟨q, some (.command (.setNx (leaseKey q.sweep) q.token cfg.ttlMs) (proceed q))⟩ :
      Client).send .answered s now =
    some (⟨q, some (.pure false)⟩, s) := by
  simp [Interleaving.Client.send, Service.exec, setNx_taken htaken, proceed]

theorem begun_sends (h : (⟨q, some (runExclusively cfg q)⟩ : Client).send fate s now =
    some (c', s')) :
    Sends cfg s now ⟨q, some (runExclusively cfg q)⟩ fate c' s' ∧ Stage cfg c' := by
  cases henabled : cfg.enabled with
  | false =>
      rw [runExclusively_disabled henabled] at h
      have hgone : ∃ result, c' = ⟨q, some (outcome result)⟩ ∧ s' = s := by
        cases fate <;> obtain ⟨rfl, rfl⟩ := Prod.mk.inj (Option.some.inj h) <;>
          exact ⟨_, rfl, rfl⟩
      obtain ⟨result, rfl, rfl⟩ := hgone
      exact ⟨.unarbitrated q fate result henabled, .outcome q result⟩
  | true =>
      rw [runExclusively_enabled henabled] at h
      cases fate with
      | refused =>
          obtain ⟨rfl, rfl⟩ := Prod.mk.inj (Option.some.inj h)
          exact ⟨.skipped q _ _ henabled (Or.inl rfl), .returned q false⟩
      | lost =>
          obtain ⟨rfl, rfl⟩ := Prod.mk.inj (Option.some.inj h)
          exact ⟨.skipped q _ _ henabled (Or.inr rfl), .returned q false⟩
      | answered =>
          cases hlive : live s (leaseKey q.sweep) now with
          | none =>
              obtain ⟨rfl, rfl⟩ := Prod.mk.inj (Option.some.inj ((answered_free hlive).symm.trans h))
              exact ⟨.acquired q henabled hlive, .working q⟩
          | some e =>
              obtain ⟨rfl, rfl⟩ := Prod.mk.inj (Option.some.inj ((answered_taken hlive).symm.trans h))
              exact ⟨.skipped q _ _ henabled (Or.inl rfl), .returned q false⟩

theorem Stage.sends (h : Stage cfg c) (hsend : c.send fate s now = some (c', s')) :
    Sends cfg s now c fate c' s' ∧ Stage cfg c' := by
  cases h with
  | begun q => exact begun_sends hsend
  | working q =>
      have hdone : ∃ result, c' = ⟨q, some (release q result)⟩ ∧ s' = s := by
        cases fate <;> obtain ⟨rfl, rfl⟩ := Prod.mk.inj (Option.some.inj hsend) <;>
          exact ⟨_, rfl, rfl⟩
      obtain ⟨result, rfl, rfl⟩ := hdone
      exact ⟨.worked q fate result, .releasing q result⟩
  | releasing q result =>
      cases fate with
      | refused =>
          obtain ⟨rfl, rfl⟩ := Prod.mk.inj (Option.some.inj hsend)
          exact ⟨.released q result _ _ (Or.inl rfl), .outcome q result⟩
      | lost =>
          obtain ⟨rfl, rfl⟩ := Prod.mk.inj (Option.some.inj hsend)
          exact ⟨.released q result _ _ (Or.inr rfl), .outcome q result⟩
      | answered =>
          obtain ⟨rfl, rfl⟩ := Prod.mk.inj (Option.some.inj hsend)
          exact ⟨.released q result _ _ (Or.inr rfl), .outcome q result⟩
  | returned => cases hsend
  | failed => cases hsend
  | stopped => cases hsend

/-- A run that asks for a lease and is told nothing skips its work. -/
theorem Sends.skips (h : Sends cfg s now c fate c' s') (hacquiring : isAcquiring c = true)
    (hfate : fate ≠ .answered) : c' = ⟨c.request, some (.pure false)⟩ := by
  cases h with
  | acquired => exact absurd rfl hfate
  | skipped => rfl
  | unarbitrated q fate result hdisabled =>
      rw [runExclusively_disabled hdisabled] at hacquiring
      cases hacquiring
  | worked => cases hacquiring
  | released => cases hacquiring

/-- A run that sends its command and is then inside its work has been given the lease. -/
theorem Sends.works (h : Sends cfg s now c fate c' s') (hworking : isWorking c' = true) :
    fate = .answered ∧ isAcquiring c = true ∧ live s (leaseKey c.request.sweep) now = none ∧
      c'.request = c.request ∧ s' (leaseKey c.request.sweep) =
        some ⟨c.request.token, some (now + cfg.ttlMs)⟩ := by
  cases h with
  | acquired q henabled hfree =>
      refine ⟨rfl, ?_, hfree, rfl, ?_⟩
      · rw [runExclusively_enabled henabled]
        rfl
      · rw [setNx_free hfree]
        exact Function.update_self _ _ _
  | skipped => cases hworking
  | unarbitrated q fate result => simp [isWorking_outcome] at hworking
  | worked => cases hworking
  | released q result => simp [isWorking_outcome] at hworking

/-- A lease with another token is left alone. -/
theorem Sends.keeps {key : String} {e : Entry} (h : Sends cfg s now c fate c' s')
    (hlive : live s key now = some e) (htoken : e.value ≠ c.request.token) : s' key = s key := by
  cases h with
  | acquired => exact setNx_keeps hlive
  | skipped q fate keys henabled hkeys =>
      rcases hkeys with rfl | rfl
      · rfl
      · exact setNx_keeps hlive
  | unarbitrated => rfl
  | worked => rfl
  | released q result fate keys hkeys =>
      rcases hkeys with rfl | rfl
      · rfl
      · exact compareAndDelete_keeps hlive htoken

end sends

end clients

/-! ### Who holds a lease -/

section invariant
variable {cfg : Config} {tr : List (Sys × Act Request)} {s s' : Sys} {m m' : Sys × Act Request}
variable {i j : ℕ} {c d : Client}

def tokens (s : Sys) : List ℕ := (s.clients.map Interleaving.Client.request).map Request.token

theorem token_inj (htokens : (tokens s).Nodup) (hc : s.clients[i]? = some c)
    (hd : s.clients[j]? = some d) (hsame : c.request.token = d.request.token) : i = j := by
  have hi : i < (tokens s).length := by
    simpa [tokens] using (List.getElem?_eq_some_iff.mp hc).1
  apply (List.getElem?_inj hi htokens).mp
  simp [tokens, hc, hd, hsame]

/-- The run was given its lease, which is there until it is over. -/
def Held (cfg : Config) (tr : List (Sys × Act Request)) (s : Sys) (i : ℕ) (c : Client) : Prop :=
  ∃ m ∈ tr, acquires i m = true ∧ (m.1.clock + cfg.ttlMs ≤ s.clock ∨
    s.state (leaseKey c.request.sweep) = some ⟨c.request.token, some (m.1.clock + cfg.ttlMs)⟩)

theorem Held.later (h : Held cfg tr s i c) (hclock : s.clock ≤ s'.clock)
    (hkeeps : ∀ e, live s.state (leaseKey c.request.sweep) s.clock = some e →
      e.value = c.request.token →
        s'.state (leaseKey c.request.sweep) = s.state (leaseKey c.request.sweep)) :
    Held cfg (tr ++ [m]) s' i c := by
  obtain ⟨m₀, hm, hacquires, hlease⟩ := h
  refine ⟨m₀, List.mem_append_left _ hm, hacquires, ?_⟩
  rcases hlease with hover | hstored
  · exact Or.inl (hover.trans hclock)
  · by_cases hnow : s.clock < m₀.1.clock + cfg.ttlMs
    · right
      rw [hkeeps _ (live_eq_some.mpr ⟨hstored, ?_⟩) rfl]
      · exact hstored
      · rintro t ⟨⟩
        exact hnow
    · exact Or.inl ((Nat.not_lt.mp hnow).trans hclock)

structure Leased (cfg : Config) (tr : List (Sys × Act Request)) (s : Sys) : Prop where
  stages : ∀ c ∈ s.clients, Stage cfg c
  held : cfg.enabled = true → ∀ (i : ℕ) (c : Client), s.clients[i]? = some c →
    isWorking c = true → Held cfg tr s i c

theorem Leased.stage (h : Leased cfg tr s) (hc : s.clients[i]? = some c) : Stage cfg c :=
  h.stages c (List.mem_of_getElem? hc)

/-- A run has sent its command, and the others hold what they held. -/
theorem Leased.sends {fate : Fate} {c' : Client} {keys : Keys String} (h : Leased cfg tr s)
    (htokens : (tokens s).Nodup) (hc : s.clients[i]? = some c)
    (hsends : Sends cfg s.state s.clock c fate c' keys) (hstage : Stage cfg c') :
    Leased cfg (tr ++ [(s, .command i fate)])
      { s with state := keys, clients := s.clients.set i c' } := by
  refine ⟨fun d hd => ?_, fun henabled j d hd hworking => ?_⟩
  · rcases List.mem_or_eq_of_mem_set hd with hold | rfl
    · exact h.stages d hold
    · exact hstage
  · by_cases hij : i = j
    · subst hij
      have hi : i < s.clients.length := (List.getElem?_eq_some_iff.mp hc).1
      obtain rfl : c' = d := by simpa [hi] using hd
      obtain ⟨rfl, hacquiring, hfree, hrequest, hstored⟩ := hsends.works hworking
      refine ⟨_, List.mem_append_right _ List.mem_cons_self, ?_, Or.inr ?_⟩
      · simp [acquires, hc, hacquiring, hfree]
      · rw [hrequest]
        exact hstored
    · have hother : s.clients[j]? = some d := (List.getElem?_set_ne hij).symm.trans hd
      refine (h.held henabled j d hother hworking).later (Nat.le_refl _) fun e hlive htoken => ?_
      refine hsends.keeps hlive fun hsame => hij ?_
      exact token_inj htokens hc hother (hsame.symm.trans htoken)

theorem Leased.act {a : Act Request} (h : Leased cfg tr s) (htokens : (tokens s).Nodup) :
    Leased cfg (tr ++ [(s, a)]) (s.act (runExclusively cfg) a) := by
  rcases act_cases s a with ⟨q, rfl, hact⟩ | ⟨n, rfl, hact⟩ | ⟨i, c, hc, rfl, hact⟩ |
    ⟨i, fate, c, c', keys, hc, hsend, rfl, hact⟩ | hact
  · rw [hact]
    refine ⟨fun d hd => ?_, fun henabled j d hd hworking => ?_⟩
    · rcases List.mem_append.mp hd with hold | hnew
      · exact h.stages d hold
      · rw [List.mem_singleton.mp hnew]
        exact .begun q
    · rcases getElem?_append_cases hd with rfl | hold
      · rw [isWorking, runExclusively_enabled henabled] at hworking
        cases hworking
      · exact (h.held henabled j d hold hworking).later (Nat.le_refl _) fun _ _ _ => rfl
  · rw [hact]
    refine ⟨h.stages, fun henabled j d hd hworking => ?_⟩
    exact (h.held henabled j d hd hworking).later (Nat.le_add_right _ _) fun _ _ _ => rfl
  · rw [hact]
    have hstop := (h.stage hc).stop
    refine ⟨fun d hd => ?_, fun henabled j d hd hworking => ?_⟩
    · rcases List.mem_or_eq_of_mem_set hd with hold | rfl
      · exact h.stages d hold
      · exact hstop.1
    · rcases getElem?_set_cases hd with ⟨-, rfl⟩ | hold
      · rw [hstop.2] at hworking
        cases hworking
      · exact (h.held henabled j d hold hworking).later (Nat.le_refl _) fun _ _ _ => rfl
  · rw [hact]
    obtain ⟨hsends, hstage⟩ := (h.stage hc).sends hsend
    exact h.sends htokens hc hsends hstage
  · rw [hact]
    refine ⟨h.stages, fun henabled j d hd hworking => ?_⟩
    exact (h.held henabled j d hd hworking).later (Nat.le_refl _) fun _ _ _ => rfl

theorem tokens_start (as : List (Act Request)) :
    tokens (start.after (runExclusively cfg) as) = (as.flatMap Act.arrivals).map Request.token := by
  rw [tokens, requests_after]
  rfl

/-- Every run draws a token of its own. -/
def Fresh (as : List (Act Request)) : Prop :=
  ((as.flatMap Act.arrivals).map Request.token).Nodup

theorem Fresh.before {before after : List (Act Request)} (h : Fresh (before ++ after)) :
    Fresh before := by
  rw [Fresh, List.flatMap_append, List.map_append] at h
  exact h.of_append_left

variable (cfg) in
theorem Fresh.tokens {as : List (Act Request)} (h : Fresh as) :
    (Leases.tokens (start.after (runExclusively cfg) as)).Nodup := by
  rw [tokens_start]
  exact h

variable (cfg) in
theorem leased (as : List (Act Request)) (hfresh : Fresh as) :
    Leased cfg (trace (runExclusively cfg) start as) (start.after (runExclusively cfg) as) := by
  induction as using List.reverseRecOn with
  | nil =>
      have hnone : (start.after (runExclusively cfg) []).clients = [] := rfl
      refine ⟨fun c hc => ?_, fun _ i c hc => ?_⟩
      · rw [hnone] at hc
        cases hc
      · rw [hnone] at hc
        cases hc
  | append_singleton as a ih =>
      rw [trace_append, after_append]
      exact (ih hfresh.before).act (hfresh.before.tokens cfg)

end invariant

/-! ### Every run of a sweep -/

section runs
variable {cfg : Config} {s : Sys} {m m' : Sys × Act Request} {i : ℕ} {c : Client}

theorem acquires_act (h : acquires i m = true) : m.2 = .command i .answered := by
  unfold acquires at h
  split at h
  · obtain ⟨hi, -⟩ := Bool.and_eq_true_iff.mp h
    rw [of_decide_eq_true hi]
  · cases h

theorem inTime_of_acquires (hin : inTime cfg m m' = true) (hacquires : acquires i m = true)
    (hc : m'.1.clients[i]? = some c) (hworking : isWorking c = true) :
    m'.1.clock < m.1.clock + cfg.ttlMs := by
  have hact := acquires_act hacquires
  simpa [inTime, hact, hacquires, hc, hworking] using hin

/-- Two runs that hold the lease of one sweep while it lasts are one. -/
theorem Leased.exclusive {tr : List (Sys × Act Request)} {a : Act Request}
    (h : Leased cfg tr s) (htokens : (tokens s).Nodup) (henabled : cfg.enabled = true)
    (htimely : ∀ m ∈ tr, inTime cfg m (s, a) = true) : Exclusive s := by
  intro i j c d hc hd hsweep hworking hworking'
  obtain ⟨m, hm, hacquires, hlease⟩ := h.held henabled i c hc hworking
  obtain ⟨m', hm', hacquires', hlease'⟩ := h.held henabled j d hd hworking'
  have hnow := inTime_of_acquires (htimely m hm) hacquires hc hworking
  have hnow' := inTime_of_acquires (htimely m' hm') hacquires' hd hworking'
  dsimp only at hnow hnow'
  have hstored := hlease.resolve_left (Nat.not_le.mpr hnow)
  have hstored' := hlease'.resolve_left (Nat.not_le.mpr hnow')
  rw [hsweep, hstored'] at hstored
  have hsame := congrArg Entry.value (Option.some.inj hstored)
  exact token_inj htokens hc hd hsame.symm

/-- The command of a run leaves the lease alone that another holds. -/
theorem keepsLeases_of {tr : List (Sys × Act Request)} {a : Act Request} (h : Leased cfg tr s)
    (htokens : (tokens s).Nodup) : KeepsLeases cfg (s, a) := by
  rintro i fate j d e rfl hij hd hlease
  obtain ⟨hlive, htoken⟩ := Option.filter_eq_some_iff.mp hlease
  rcases act_cases s (.command i fate) with ⟨q, ⟨⟩, -⟩ | ⟨n, ⟨⟩, -⟩ | ⟨i, c, -, ⟨⟩, -⟩ |
    ⟨i, fate, c, c', keys, hc, hsend, ⟨⟩, hact⟩ | hact
  · dsimp only
    rw [hact]
    have hsends := ((h.stage hc).sends hsend).1
    have hkept : keys (leaseKey d.request.sweep) = s.state (leaseKey d.request.sweep) := by
      refine hsends.keeps hlive fun hsame => hij ?_
      exact token_inj htokens hd hc ((of_decide_eq_true htoken).symm.trans hsame)
    rw [lease, live_congr hkept]
    exact hlease
  · dsimp only
    rw [hact]
    exact hlease

theorem over_acquiring (h : isAcquiring c = true) : c.over = false := by
  unfold isAcquiring at h
  split at h
  · rename_i hprog
    simp [Interleaving.Client.over, hprog]
  · cases h

/-- A run whose request for the lease fails is over, and did not work. -/
theorem skipsUnanswered_of {tr : List (Sys × Act Request)} {a : Act Request}
    (h : Leased cfg tr s) : SkipsUnanswered cfg (s, a) := by
  rintro i fate c rfl hfate hc hacquiring as
  refine over_after ?_ rfl as
  obtain ⟨c', keys, hsend⟩ := exists_send (over_acquiring hacquiring) fate s.state s.clock
  obtain rfl := ((h.stage hc).sends hsend).1.skips hacquiring hfate
  have hi : i < s.clients.length := (List.getElem?_eq_some_iff.mp hc).1
  dsimp only at hc
  simp only [Sys.act, hc, Option.bind_some, hsend]
  simp [hi]

end runs

/-- The work of a sweep is never done by two runs at once if none works for longer than its
lease lasts; no run takes the lease from another; and a run that cannot ask for the lease
does not work. -/
theorem leases_exclusive (cfg : Config) (as : List (Act Request)) (hfresh : Fresh as) :
    ∀ m ∈ trace (runExclusively cfg) start as,
      (cfg.enabled = true → Timely cfg as → Exclusive m.1) ∧ KeepsLeases cfg m ∧
        SkipsUnanswered cfg m := by
  rintro ⟨s, a⟩ hm
  obtain ⟨before, after, rfl, rfl⟩ := mem_trace hm
  have hleased := leased cfg before hfresh.before
  have htokens := hfresh.before.tokens cfg
  refine ⟨fun henabled htimely => ?_, keepsLeases_of hleased htokens, skipsUnanswered_of hleased⟩
  refine hleased.exclusive (a := a) htokens henabled fun m hm => ?_
  rw [Timely, trace_append] at htimely
  exact (List.pairwise_append.mp htimely).2.2 m hm _ List.mem_cons_self

namespace Sample

def cfg : Config where
  ttlMs := 60000

/-- The lease of the first run goes to the second when it is over; the third gets no answer. -/
def runs : List (Act Request) :=
  [.arrive ⟨"stops", 1⟩, .arrive ⟨"stops", 2⟩, .arrive ⟨"stops", 3⟩, .command 0,
    .command 2 .refused, .tick 30000, .command 0, .tick 30000, .command 1, .command 0, .tick 1,
    .command 1, .command 1]

end Sample

theorem leases_exclusive_late : Fresh Sample.runs ∧ Timely Sample.cfg Sample.runs ∧
    ∀ m ∈ trace (runExclusively Sample.cfg) start Sample.runs,
      Exclusive m.1 ∧ KeepsLeases Sample.cfg m ∧ SkipsUnanswered Sample.cfg m := by
  have htimely : Timely Sample.cfg Sample.runs := by
    unfold Timely
    decide +kernel
  have hfresh : Fresh Sample.runs := by
    unfold Fresh
    decide
  refine ⟨hfresh, htimely, fun m hm => ?_⟩
  obtain ⟨hexclusive, hkeeps, hskips⟩ := leases_exclusive Sample.cfg Sample.runs hfresh m hm
  exact ⟨hexclusive rfl htimely, hkeeps, hskips⟩

end CiroFuel.Leases
