import Mathlib.Data.List.Induction
import Mathlib.Tactic.Common
import Mathlib.Logic.Basic
import Mathlib.Data.Nat.Notation

/-!
# Clients of a service

A service carries out one command after another. A client sends one at a time, and it is
answered, or refused before it has an effect, or its answer is lost. Any number of
clients run at once: between two commands of one, others may send theirs, time may pass,
and a process may stop.
-/
namespace CiroFuel.Interleaving

/-- What a command answers at an instant, and what it leaves. -/
class Service {C : Type} (R : C → Type) (S : outParam Type) where
  exec : (c : C) → S → ℕ → R c × S

/-- A program that sends commands; it is told `none` of a command that failed. -/
inductive Prog {C : Type} (R : C → Type) (E A : Type) where
  | pure (a : A)
  | fail (e : E)
  | command (c : C) (next : Option (R c) → Prog R E A)

namespace Prog
variable {C : Type} {R : C → Type} {E A B : Type}

def bind : Prog R E A → (A → Prog R E B) → Prog R E B
  | .pure a, f => f a
  | .fail e, _ => .fail e
  | .command c next, f => .command c fun r => (next r).bind f

instance : Monad (Prog R E) where
  pure := .pure
  bind := bind

/-- Sends a command, and fails if it fails. -/
def send (e : E) (c : C) : Prog R E (R c) :=
  .command c fun
    | some r => .pure r
    | none => .fail e

/-- Every command that a program may send is one of these. -/
def Sends (S : C → Prop) : Prog R E A → Prop
  | .pure _ => True
  | .fail _ => True
  | .command c next => S c ∧ ∀ r, (next r).Sends S

theorem Sends.bind {S : C → Prop} {p : Prog R E A} {f : A → Prog R E B} (hp : p.Sends S)
    (hf : ∀ a, (f a).Sends S) : (p >>= f).Sends S := by
  change (Prog.bind p f).Sends S
  induction p with
  | pure a => exact hf a
  | fail e => trivial
  | command c next ih => exact ⟨hp.1, fun r => ih r (hp.2 r)⟩

theorem sends_send {S : C → Prop} {c : C} (e : E) (h : S c) :
    (send e c : Prog R E (R c)).Sends S := by
  refine ⟨h, fun r => ?_⟩
  cases r <;> trivial

/-- What a program returns that alone sends commands, each answered at its own instant. -/
def alone {S : Type} [Service R S] : Prog R E A → (ℕ → ℕ) → S → Except E A × S
  | .pure a, _, s => (.ok a, s)
  | .fail e, _, s => (.error e, s)
  | .command c next, clock, s =>
      let (r, s') := Service.exec (R := R) c s (clock 0)
      (next (some r)).alone (fun n => clock (n + 1)) s'

end Prog

/-- What becomes of a command. -/
inductive Fate where
  | answered | refused | lost
deriving DecidableEq, Repr

/-- A request and how far its program has come. A stopped one has none. -/
structure Client {C : Type} (R : C → Type) (E Q A : Type) where
  request : Q
  prog : Option (Prog R E A)

structure Sys {C : Type} (R : C → Type) (S E Q A : Type) where
  state : S
  clock : ℕ := 0
  clients : List (Client R E Q A) := []

inductive Act (Q : Type) where
  | arrive (q : Q)
  | tick (n : ℕ)
  | stop (i : ℕ)
  | command (i : ℕ) (fate : Fate := .answered)

section system
variable {C : Type} {R : C → Type} {S E Q A : Type} [Service R S]

/-- A command of the client that is about to send it. -/
def Client.send (c : Client R E Q A) (fate : Fate) (s : S) (now : ℕ) :
    Option (Client R E Q A × S) :=
  match c.prog with
  | some (.command command next) =>
      let (r, s') := Service.exec command s now
      match fate with
      | .answered => some (⟨c.request, some (next (some r))⟩, s')
      | .lost => some (⟨c.request, some (next none)⟩, s')
      | .refused => some (⟨c.request, some (next none)⟩, s)
  | _ => none

/-- What is left of a command that was sent. -/
theorem send_cases {c c' : Client R E Q A} {fate : Fate} {s s' : S} {now : ℕ}
    (h : c.send fate s now = some (c', s')) :
    ∃ command next, c.prog = some (.command command next) ∧
      (fate = .answered ∧ c' = ⟨c.request, some (next (some (Service.exec (R := R) command s now).1))⟩ ∧
          s' = (Service.exec (R := R) command s now).2 ∨
        fate = .lost ∧ c' = ⟨c.request, some (next none)⟩ ∧ s' = (Service.exec (R := R) command s now).2 ∨
        fate = .refused ∧ c' = ⟨c.request, some (next none)⟩ ∧ s' = s) := by
  unfold Client.send at h
  split at h
  · rename_i command next hprog
    refine ⟨command, next, hprog, ?_⟩
    cases fate with
    | answered =>
        obtain ⟨rfl, rfl⟩ := Prod.mk.inj (Option.some.inj h)
        exact Or.inl ⟨rfl, rfl, rfl⟩
    | lost =>
        obtain ⟨rfl, rfl⟩ := Prod.mk.inj (Option.some.inj h)
        exact Or.inr (Or.inl ⟨rfl, rfl, rfl⟩)
    | refused =>
        obtain ⟨rfl, rfl⟩ := Prod.mk.inj (Option.some.inj h)
        exact Or.inr (Or.inr ⟨rfl, rfl, rfl⟩)
  · cases h

/-- The process of a client that is not over stops. -/
def Client.stop (c : Client R E Q A) : Client R E Q A :=
  match c.prog with
  | some (.command ..) => ⟨c.request, none⟩
  | _ => c

/-- A request is over, or has been abandoned. -/
def Client.over (c : Client R E Q A) : Bool :=
  match c.prog with
  | some (.command ..) => false
  | _ => true

/-- What an act leaves; one that cannot happen leaves the system as it is. -/
def Sys.act (handle : Q → Prog R E A) (s : Sys R S E Q A) : Act Q → Sys R S E Q A
  | .arrive q => { s with clients := s.clients ++ [⟨q, some (handle q)⟩] }
  | .tick n => { s with clock := s.clock + n }
  | .stop i =>
      match s.clients[i]? with
      | some c => { s with clients := s.clients.set i c.stop }
      | none => s
  | .command i fate =>
      match s.clients[i]?.bind fun c => c.send fate s.state s.clock with
      | some (c, state) => { s with state := state, clients := s.clients.set i c }
      | none => s

/-- Each act with the system it meets. -/
def trace (handle : Q → Prog R E A) (s : Sys R S E Q A) : List (Act Q) → List (Sys R S E Q A × Act Q)
  | [] => []
  | a :: as => (s, a) :: trace handle (s.act handle a) as

def Sys.after (handle : Q → Prog R E A) (s : Sys R S E Q A) (as : List (Act Q)) : Sys R S E Q A :=
  as.foldl (Sys.act handle) s

omit [Service R S] in
/-- Counting the clients after one has gone on. -/
theorem countP_set {cs : List (Client R E Q A)} {i : ℕ} {c : Client R E Q A}
    (hc : cs[i]? = some c) (p : Client R E Q A → Bool) (c' : Client R E Q A) :
    (cs.set i c').countP p + (p c).toNat = cs.countP p + (p c').toNat := by
  obtain ⟨hi, hget⟩ := List.getElem?_eq_some_iff.mp hc
  have hle : (p c).toNat ≤ cs.countP p := by
    cases hp : p c with
    | false => exact Nat.zero_le _
    | true => exact List.countP_pos_iff.mpr ⟨c, List.mem_of_getElem? hc, hp⟩
  have hone : ∀ b : Bool, (if b = true then 1 else 0) = b.toNat := fun b => by cases b <;> rfl
  rw [List.countP_set hi, hget, hone, hone]
  omega

omit [Service R S] in
theorem getElem?_set_cases {cs : List (Client R E Q A)} {i j : ℕ} {c c₁ : Client R E Q A}
    (h : (cs.set i c)[j]? = some c₁) : j = i ∧ c₁ = c ∨ cs[j]? = some c₁ := by
  rw [List.getElem?_set] at h
  split_ifs at h with hij hi
  · exact Or.inl ⟨hij.symm, (Option.some.inj h).symm⟩
  · exact Or.inr h

omit [Service R S] in
theorem getElem?_append_cases {cs : List (Client R E Q A)} {j : ℕ} {c c₁ : Client R E Q A}
    (h : (cs ++ [c])[j]? = some c₁) : c₁ = c ∨ cs[j]? = some c₁ := by
  rw [List.getElem?_append] at h
  split_ifs at h with hj
  · exact Or.inr h
  · exact Or.inl (List.mem_singleton.mp (List.mem_of_getElem? h))

variable {handle : Q → Prog R E A}

/-- A system after an act: a client has come, time has passed, or a client has stopped or
sent its command, or nothing has happened. -/
theorem act_cases (s : Sys R S E Q A) (a : Act Q) :
    (∃ q, a = .arrive q ∧ s.act handle a = { s with clients := s.clients ++ [⟨q, some (handle q)⟩] }) ∨
    (∃ n, a = .tick n ∧ s.act handle a = { s with clock := s.clock + n }) ∨
    (∃ i c, s.clients[i]? = some c ∧ a = .stop i ∧
      s.act handle a = { s with clients := s.clients.set i c.stop }) ∨
    (∃ i fate c c' state, s.clients[i]? = some c ∧ c.send fate s.state s.clock = some (c', state) ∧
      a = .command i fate ∧ s.act handle a = { s with state := state, clients := s.clients.set i c' }) ∨
    s.act handle a = s := by
  cases a with
  | arrive q => exact Or.inl ⟨q, rfl, rfl⟩
  | tick n => exact Or.inr (Or.inl ⟨n, rfl, rfl⟩)
  | stop i =>
      cases hc : s.clients[i]? with
      | none => exact Or.inr (Or.inr (Or.inr (Or.inr (by simp [Sys.act, hc]))))
      | some c => exact Or.inr (Or.inr (Or.inl ⟨i, c, hc, rfl, by simp [Sys.act, hc]⟩))
  | command i fate =>
      cases hc : s.clients[i]? with
      | none => exact Or.inr (Or.inr (Or.inr (Or.inr (by simp [Sys.act, hc]))))
      | some c =>
          cases hsend : c.send fate s.state s.clock with
          | none => exact Or.inr (Or.inr (Or.inr (Or.inr (by simp [Sys.act, hc, hsend]))))
          | some r =>
              exact Or.inr (Or.inr (Or.inr (Or.inl ⟨i, fate, c, r.1, r.2, hc, hsend, rfl,
                by simp [Sys.act, hc, hsend]⟩)))

/-- A command is sent: the client goes on with what it is told. -/
theorem act_sent {s : Sys R S E Q A} {i : ℕ} {fate : Fate} {q : Q} {command : C}
    {next : Option (R command) → Prog R E A}
    (hc : s.clients[i]? = some ⟨q, some (.command command next)⟩) :
    s.act handle (.command i fate) = { s with
      state := if fate = .refused then s.state else (Service.exec (R := R) command s.state s.clock).2
      clients := s.clients.set i ⟨q, some (next (if fate = .answered then
        some (Service.exec (R := R) command s.state s.clock).1 else none))⟩ } := by
  rw [Sys.act, hc]
  cases fate <;> rfl

theorem act_next {s : Sys R S E Q A} {i : ℕ} {fate : Fate} {q : Q} {command : C}
    {next : Option (R command) → Prog R E A}
    (hc : s.clients[i]? = some ⟨q, some (.command command next)⟩) :
    (s.act handle (.command i fate)).clients[i]? = some ⟨q, some (next (if fate = .answered then
      some (Service.exec (R := R) command s.state s.clock).1 else none))⟩ := by
  rw [act_sent hc]
  exact List.getElem?_set_self (List.getElem?_eq_some_iff.mp hc).1

theorem trace_append (s : Sys R S E Q A) (as as' : List (Act Q)) :
    trace handle s (as ++ as') = trace handle s as ++ trace handle (s.after handle as) as' := by
  induction as generalizing s with
  | nil => rfl
  | cons a as ih => exact congrArg _ (ih _)

theorem after_append (s : Sys R S E Q A) (as as' : List (Act Q)) :
    s.after handle (as ++ as') = (s.after handle as).after handle as' := List.foldl_append

/-- A fact about the acts so far and the system they led to. -/
theorem traced {s : Sys R S E Q A} {P : Sys R S E Q A × Act Q → Prop}
    {J : List (Sys R S E Q A × Act Q) → Sys R S E Q A → Prop} (hstart : J [] s)
    (hstep : ∀ tr s a, P (s, a) → J tr s → J (tr ++ [(s, a)]) (s.act handle a))
    (as : List (Act Q)) (hP : ∀ m ∈ trace handle s as, P m) :
    J (trace handle s as) (s.after handle as) := by
  induction as using List.reverseRecOn with
  | nil => exact hstart
  | append_singleton as a ih =>
      rw [trace_append] at hP ⊢
      rw [after_append]
      exact hstep _ _ a (hP _ (List.mem_append_right _ List.mem_cons_self))
        (ih fun m hm => hP m (List.mem_append_left _ hm))

theorem exists_send {c : Client R E Q A} (h : c.over = false) (fate : Fate) (s : S) (now : ℕ) :
    ∃ c' s', c.send fate s now = some (c', s') := by
  unfold Client.over at h
  split at h
  · rename_i command next hprog
    cases fate <;> simp only [Client.send, hprog] <;> exact ⟨_, _, rfl⟩
  · cases h

/-- What a trace meets is what the acts before it have led to. -/
theorem mem_trace {s : Sys R S E Q A} {as : List (Act Q)} {m : Sys R S E Q A × Act Q}
    (h : m ∈ trace handle s as) :
    ∃ before after, as = before ++ m.2 :: after ∧ m.1 = s.after handle before := by
  induction as generalizing s with
  | nil => cases h
  | cons a as ih =>
      rcases List.mem_cons.mp h with rfl | hlater
      · exact ⟨[], as, rfl, rfl⟩
      · obtain ⟨before, after, has, hm⟩ := ih hlater
        exact ⟨a :: before, after, congrArg (a :: ·) has, hm⟩

/-- The requests that come with an act. -/
def Act.arrivals : Act Q → List Q
  | .arrive q => [q]
  | _ => []

omit [Service R S] in
theorem stop_request (c : Client R E Q A) : c.stop.request = c.request := by
  unfold Client.stop
  split <;> rfl

theorem send_request {c c' : Client R E Q A} {fate : Fate} {s s' : S} {now : ℕ}
    (h : c.send fate s now = some (c', s')) : c'.request = c.request := by
  obtain ⟨command, next, -, ⟨-, rfl, -⟩ | ⟨-, rfl, -⟩ | ⟨-, rfl, -⟩⟩ := send_cases h
  all_goals rfl

omit [Service R S] in
theorem requests_set {cs : List (Client R E Q A)} {i : ℕ} {c c' : Client R E Q A}
    (hc : cs[i]? = some c) (hsame : c'.request = c.request) :
    (cs.set i c').map Client.request = cs.map Client.request := by
  rw [List.map_set, hsame]
  obtain ⟨hi, rfl⟩ := List.getElem?_eq_some_iff.mp hc
  rw [← List.getElem_map Client.request (h := by simpa using hi), List.set_getElem_self]

/-- The requests of the clients are those that have arrived. -/
theorem requests_act (s : Sys R S E Q A) (a : Act Q) :
    (s.act handle a).clients.map Client.request = s.clients.map Client.request ++ a.arrivals := by
  cases a with
  | arrive q => simp [Sys.act, Act.arrivals]
  | tick n => simp [Sys.act, Act.arrivals]
  | stop i =>
      simp only [Act.arrivals, List.append_nil, Sys.act]
      split
      · exact requests_set ‹_› (stop_request _)
      · rfl
  | command i fate =>
      simp only [Act.arrivals, List.append_nil, Sys.act]
      split
      · rename_i c state hsend
        obtain ⟨c₀, hc, hsend⟩ := Option.bind_eq_some_iff.mp hsend
        exact requests_set hc (send_request hsend)
      · rfl

theorem requests_after (s : Sys R S E Q A) (as : List (Act Q)) :
    (s.after handle as).clients.map Client.request =
      s.clients.map Client.request ++ as.flatMap Act.arrivals := by
  induction as generalizing s with
  | nil => simp [Sys.after]
  | cons a as ih =>
      change ((s.act handle a).after handle as).clients.map Client.request = _
      rw [ih, requests_act, List.flatMap_cons, List.append_assoc]

/-- A client keeps its request. -/
theorem request_after {s : Sys R S E Q A} {i : ℕ} {c c' : Client R E Q A} {as : List (Act Q)}
    (hc : s.clients[i]? = some c) (hc' : (s.after handle as).clients[i]? = some c') :
    c'.request = c.request := by
  have hi : i < (s.clients.map Client.request).length := by
    simpa using (List.getElem?_eq_some_iff.mp hc).1
  have hrequests : (s.after handle as).clients.map Client.request = _ := requests_after s as
  have hsame := congrArg (·[i]?) hrequests
  simp only [List.getElem?_append_left hi, List.getElem?_map, hc, hc'] at hsame
  exact Option.some.inj hsame

omit [Service R S] in
theorem stop_over {c : Client R E Q A} (h : c.over = true) : c.stop = c := by
  unfold Client.stop
  split
  · rename_i hprog
    simp [Client.over, hprog] at h
  · rfl

/-- A client that is over stays as it is. -/
theorem over_act {s : Sys R S E Q A} {i : ℕ} {c : Client R E Q A} (hc : s.clients[i]? = some c)
    (hover : c.over = true) (a : Act Q) : (s.act handle a).clients[i]? = some c := by
  rcases act_cases s a with ⟨q, -, hact⟩ | ⟨n, -, hact⟩ | ⟨j, c₀, hj, -, hact⟩ |
    ⟨j, fate, c₀, c', state, hj, hsend, -, hact⟩ | hact
  · rw [hact]
    have hi : i < s.clients.length := (List.getElem?_eq_some_iff.mp hc).1
    exact (List.getElem?_append_left hi).trans hc
  · rw [hact]
    exact hc
  · rw [hact]
    by_cases hij : j = i
    · subst hij
      rw [hc] at hj
      obtain rfl := Option.some.inj hj
      obtain ⟨hi, hget⟩ := List.getElem?_eq_some_iff.mp hc
      rw [stop_over hover]
      exact List.getElem?_eq_some_iff.mpr ⟨by simpa using hi, List.getElem_set_self _⟩
    · exact (List.getElem?_set_ne hij).trans hc
  · rw [hact]
    by_cases hij : j = i
    · subst hij
      rw [hc] at hj
      obtain rfl := Option.some.inj hj
      obtain ⟨command, next, hprog, -⟩ := send_cases hsend
      simp [Client.over, hprog] at hover
    · exact (List.getElem?_set_ne hij).trans hc
  · rw [hact]
    exact hc

theorem over_after {s : Sys R S E Q A} {i : ℕ} {c : Client R E Q A} (hc : s.clients[i]? = some c)
    (hover : c.over = true) (as : List (Act Q)) : (s.after handle as).clients[i]? = some c := by
  induction as generalizing s with
  | nil => exact hc
  | cons a as ih => exact ih (over_act hc hover a)

end system

end CiroFuel.Interleaving
