import CiroFuel.Interleaving.Clients
import Mathlib.Logic.Function.Basic
import Mathlib.Data.List.Dedup
import Mathlib.Data.Int.Notation
import Mathlib.Order.Basic
import Mathlib.Order.Nat

/-!
# Keys that expire

A store holds a number at a key, and the instant in milliseconds at which it expires,
if it has one. What has expired is as if it were not there. A command reads and
writes the store at once.
-/
namespace CiroFuel.Redis

structure Entry where
  value : ℕ
  expiresAt : Option ℕ := none
deriving DecidableEq, Repr

abbrev Keys (K : Type) := K → Option Entry

/-- What is at the key, unless it has expired. -/
def live {K : Type} (s : Keys K) (k : K) (now : ℕ) : Option Entry :=
  (s k).filter fun e => e.expiresAt.all fun t => now < t

inductive Command (K : Type) where
  | get (k : K)
  | set (k : K) (value seconds : ℕ)
  | incr (k : K)
  | expire (k : K) (seconds : ℕ)
  | ttl (k : K)
  | del (ks : List K)

namespace Command
variable {K : Type} [DecidableEq K]

@[reducible] def Reply : Command K → Type
  | .get _ => Option ℕ
  | .set .. => Unit
  | .incr _ => ℕ
  | .expire .. => Bool
  | .ttl _ => ℤ
  | .del _ => ℕ

/-- The answer at an instant, and what it leaves. An increment keeps the expiry; the time
to live is in seconds, rounded, with `-2` for no key and `-1` for no expiry. -/
def exec : (c : Command K) → Keys K → ℕ → c.Reply × Keys K
  | .get k, s, now => ((live s k now).map (·.value), s)
  | .set k value seconds, s, now =>
      ((), Function.update s k (some ⟨value, some (now + 1000 * seconds)⟩))
  | .incr k, s, now =>
      let e : Entry := match live s k now with
        | some e => { e with value := e.value + 1 }
        | none => { value := 1 }
      (e.value, Function.update s k (some e))
  | .expire k seconds, s, now =>
      match live s k now with
      | some e => (true,
          Function.update s k (some { e with expiresAt := some (now + 1000 * seconds) }))
      | none => (false, s)
  | .ttl k, s, now =>
      (match live s k now with
        | none => -2
        | some e => match e.expiresAt with
          | none => -1
          | some t => (((t - now + 500) / 1000 : ℕ) : ℤ), s)
  | .del ks, s, now =>
      (ks.dedup.countP fun k => (live s k now).isSome, fun k => if k ∈ ks then none else s k)

instance : Interleaving.Service (Reply (K := K)) (Keys K) where
  exec := exec

/-- The keys a command may write. -/
def writes : Command K → List K
  | .get _ => []
  | .set k .. => [k]
  | .incr k => [k]
  | .expire k _ => [k]
  | .ttl _ => []
  | .del ks => ks

end Command

/-- What the commands of the store answer. -/
abbrev Replies (K : Type) : Command K → Type := Command.Reply

abbrev send {K E : Type} (e : E) (c : Command K) : Interleaving.Prog (Replies K) E c.Reply :=
  .send e c

section live
variable {K : Type} {s : Keys K} {k : K} {now later : ℕ} {e : Entry}

theorem live_eq_some : live s k now = some e ↔ s k = some e ∧ ∀ t, e.expiresAt = some t → now < t := by
  rw [live, Option.filter_eq_some_iff, Option.all_eq_true]
  simp only [decide_eq_true_eq]

/-- What is there later was there before. -/
theorem live_earlier (h : live s k later = some e) (hle : now ≤ later) : live s k now = some e := by
  obtain ⟨hstored, hlater⟩ := live_eq_some.mp h
  exact live_eq_some.mpr ⟨hstored, fun t ht => hle.trans_lt (hlater t ht)⟩

/-- What has no expiry stays. -/
theorem live_untimed (h : live s k now = some e) (hnone : e.expiresAt = none) (t : ℕ) :
    live s k t = some e :=
  live_eq_some.mpr ⟨(live_eq_some.mp h).1, fun t ht => by rw [hnone] at ht; cases ht⟩

theorem live_congr {s' : Keys K} (h : s' k = s k) : live s' k now = live s k now := by
  rw [live, h, live]

end live

section exec
variable {K : Type} [DecidableEq K] {c : Command K} {s : Keys K} {k : K} {now : ℕ}

@[simp] theorem service_exec (c : Command K) (s : Keys K) (now : ℕ) :
    Interleaving.Service.exec (R := Replies K) c s now = c.exec s now := rfl

/-- A command leaves the keys alone that it does not write. -/
theorem exec_elsewhere (h : k ∉ c.writes) : (c.exec s now).2 k = s k := by
  cases c with
  | get | ttl => rfl
  | set | incr => exact Function.update_of_ne (fun hk => h (List.mem_singleton.mpr hk)) _ _
  | expire k' seconds =>
      simp only [Command.exec]
      split
      · exact Function.update_of_ne (fun hk => h (List.mem_singleton.mpr hk)) _ _
      · rfl
  | del ks => exact if_neg h

theorem live_exec_elsewhere (h : k ∉ c.writes) (t : ℕ) :
    live (c.exec s now).2 k t = live s k t := live_congr (exec_elsewhere h)

theorem live_del {ks : List K} (h : k ∈ ks) (t : ℕ) :
    live ((Command.del ks).exec s now).2 k t = none := by
  simp [live, Command.exec, h]

end exec

end CiroFuel.Redis
