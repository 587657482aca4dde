import Mathlib.Data.List.Basic
import Mathlib.Logic.Function.Basic

/-!
# Rate limits that survive an outage

Each increment is counted by the shared store or, if that fails, by a counter of the
instance. A counter runs for the time to live of its key and starts afresh when that
is over. The first answer of the shared store, about any key, drops all counters.

A counter that runs out of time within an interval has been started before the
interval. So the counters of a key admit two limits in an interval that is no longer
than they run, and one more for each counter that is dropped in it before its time.
-/
namespace CiroFuel.Throttling

structure ThrottlerStorageRecord where
  totalHits : ℕ
  timeToExpire : ℕ
  isBlocked : Bool
  timeToBlockExpire : ℕ
deriving DecidableEq, Repr

structure Entry where
  totalHits : ℕ
  expiresAt : ℕ
deriving DecidableEq, Repr

/-- The mode of the instance and its own counters. -/
structure Storage where
  degraded : Bool := false
  localHits : String → Option Entry := fun _ => none

/-- The arguments of a call, in milliseconds. -/
structure Increment where
  key : String
  ttl : ℕ
  limit : ℕ
  blockDuration : ℕ
deriving DecidableEq, Repr

/-- Milliseconds as seconds, rounded up. -/
def seconds (ms : ℕ) : ℕ := (ms + 999) / 1000

namespace Storage

/-- The counter of the key, unless its time is over. -/
def live (s : Storage) (key : String) (now : ℕ) : Option Entry :=
  (s.localHits key).filter fun e => now < e.expiresAt

def incrementLocally (s : Storage) (now : ℕ) (c : Increment) : ThrottlerStorageRecord × Storage :=
  let live := s.live c.key now
  let entry : Entry := match live with
    | some e => ⟨e.totalHits + 1, e.expiresAt⟩
    | none => ⟨1, now + c.ttl⟩
  let isBlocked := decide (c.limit < entry.totalHits)
  let entry := if isBlocked && live.isNone then { entry with expiresAt := now + c.blockDuration }
    else entry
  let remainingMs := entry.expiresAt - now
  (⟨entry.totalHits, seconds remainingMs, isBlocked, if isBlocked then seconds remainingMs else 0⟩,
    { s with localHits := Function.update s.localHits c.key (some entry) })

def enterFallback (s : Storage) : Storage := { s with degraded := true }

/-- Local counters are dropped, whatever their keys. -/
def leaveFallback (s : Storage) : Storage := if s.degraded then {} else s

/-- The answer of the shared store is `none` if it throws. -/
def increment (s : Storage) (now : ℕ) (c : Increment) :
    Option ThrottlerStorageRecord → ThrottlerStorageRecord × Storage
  | some record => (record, s.leaveFallback)
  | none => s.enterFallback.incrementLocally now c

def evictExpired (s : Storage) (now : ℕ) : Storage :=
  { s with localHits := fun key => s.live key now }

end Storage

/-! ### Histories -/

/-- What happens to an instance. The sweeper evicts at its own times. -/
inductive Occurrence where
  | increment (now : ℕ) (c : Increment) (shared : Option ThrottlerStorageRecord)
  | evict (now : ℕ)

namespace Occurrence

def time : Occurrence → ℕ
  | .increment now _ _ => now
  | .evict now => now

def after (s : Storage) : Occurrence → Storage
  | .increment now c shared => (s.increment now c shared).2
  | .evict now => s.evictExpired now

end Occurrence

/-- Each occurrence with the state it meets. -/
def trace : Storage → List Occurrence → List (Storage × Occurrence)
  | _, [] => []
  | s, o :: os => (s, o) :: trace (o.after s) os

/-- The instants that are at least `a` and less than `ttl` later. -/
def within (a ttl now : ℕ) : Bool := a ≤ now && now < a + ttl

section counts
variable (key : String) (a ttl : ℕ)

/-- An increment of the key in the interval is reported as not blocked. -/
def admits : Storage × Occurrence → Bool
  | (s, .increment now c shared) =>
      c.key = key && within a ttl now && !(s.increment now c shared).1.isBlocked
  | (_, .evict _) => false

/-- The shared store has admitted it. -/
def sharedAdmits : Storage × Occurrence → Bool
  | (_, .increment now c (some record)) => c.key = key && within a ttl now && !record.isBlocked
  | _ => false

/-- A counter of the instance has admitted it. -/
def localAdmits : Storage × Occurrence → Bool
  | (s, .increment now c none) =>
      c.key = key && within a ttl now && !(s.enterFallback.incrementLocally now c).1.isBlocked
  | _ => false

/-- An answer of the shared store, in the interval, drops a counter of the key before its time. -/
def drops : Storage × Occurrence → Bool
  | (s, .increment now _ (some _)) => within a ttl now && s.degraded && (s.live key now).isSome
  | _ => false

end counts

/-- Each admission is one of the shared store or one of a counter. -/
theorem countP_admits (key : String) (a ttl : ℕ) (l : List (Storage × Occurrence)) :
    l.countP (admits key a ttl) =
      l.countP (sharedAdmits key a ttl) + l.countP (localAdmits key a ttl) := by
  induction l with
  | nil => rfl
  | cons m l ih =>
      have hone : (if admits key a ttl m then 1 else 0) =
          (if sharedAdmits key a ttl m then 1 else 0) +
            if localAdmits key a ttl m then 1 else 0 := by
        obtain ⟨s, o⟩ := m
        cases o with
        | evict now => rfl
        | increment now c shared =>
            cases shared with
            | none => simp [admits, sharedAdmits, localAdmits, Storage.increment]
            | some record => simp [admits, sharedAdmits, localAdmits, Storage.increment]
      rw [List.countP_cons, List.countP_cons, List.countP_cons, ih, hone]
      omega

/-! ### What is left of the budget -/

/-- The calls about the key all come with this time to live and this limit. -/
def Occurrence.Uses (key : String) (ttl limit : ℕ) : Occurrence → Prop
  | .increment _ c _ => c.key = key → c.ttl = ttl ∧ c.limit = limit
  | .evict _ => True

instance (key : String) (ttl limit : ℕ) : DecidablePred (Occurrence.Uses key ttl limit)
  | .increment _ c _ => inferInstanceAs (Decidable (c.key = key → c.ttl = ttl ∧ c.limit = limit))
  | .evict _ => inferInstanceAs (Decidable True)

/-- What the counter of the key can have admitted since the last one was dropped: one limit
for a counter that has been started before the interval and one for its successor. -/
def allowance (a ttl limit : ℕ) : Option Entry → ℕ
  | none => limit
  | some e => (if a + ttl ≤ e.expiresAt then limit else 0) + min e.totalHits limit

theorem allowance_le (a ttl limit : ℕ) (e : Option Entry) :
    allowance a ttl limit e ≤ 2 * limit := by
  cases e with
  | none =>
      rw [allowance]
      omega
  | some e =>
      rw [allowance]
      split_ifs
      · omega
      · omega

/-- A counter that runs out within the interval has been started before it. -/
theorem allowance_over {a ttl limit now : ℕ} {s : Storage} {key : String} (hnow : now < a + ttl)
    (h : s.live key now = none) : allowance a ttl limit (s.localHits key) ≤ limit := by
  cases he : s.localHits key with
  | none => exact Nat.le_refl _
  | some e =>
      have hexpired : e.expiresAt ≤ now := by
        rw [Storage.live, he, Option.filter_eq_none_iff] at h
        simpa using h e rfl
      rw [allowance, if_neg (by omega)]
      omega

/-- The counters have admitted `n` of the increments and `d` of them have been dropped. -/
structure Budget (key : String) (a ttl limit now : ℕ) (s : Storage) (n d : ℕ) : Prop where
  total : n ≤ (d + 2) * limit
  early : now < a → n = 0 ∧ d = 0
  current : now < a + ttl → n ≤ d * limit + allowance a ttl limit (s.localHits key)

section steps
variable {key : String} {a ttl limit now n d : ℕ} {s : Storage} {o : Occurrence}

theorem localAdmits_within (h : localAdmits key a ttl (s, o) = true) :
    a ≤ o.time ∧ o.time < a + ttl := by
  cases o with
  | evict now => cases h
  | increment now c shared =>
      cases shared with
      | some record => cases h
      | none =>
          simp only [localAdmits, within, Bool.and_eq_true, decide_eq_true_eq] at h
          exact h.1.2

theorem drops_within (h : drops key a ttl (s, o) = true) : a ≤ o.time ∧ o.time < a + ttl := by
  cases o with
  | evict now => cases h
  | increment now c shared =>
      cases shared with
      | none => cases h
      | some record =>
          simp only [drops, within, Bool.and_eq_true, decide_eq_true_eq] at h
          exact h.1.1

/-- A live counter counts on; its time stays. -/
theorem incrementLocally_live {c : Increment} {e : Entry} (h : s.live c.key now = some e) :
    (s.incrementLocally now c).2.localHits c.key = some ⟨e.totalHits + 1, e.expiresAt⟩ ∧
      (s.incrementLocally now c).1.isBlocked = decide (c.limit < e.totalHits + 1) := by
  simp [Storage.incrementLocally, h]

/-- A counter is started; it admits the call. -/
theorem incrementLocally_fresh {c : Increment} (h : s.live c.key now = none)
    (hlimit : 1 ≤ c.limit) :
    (s.incrementLocally now c).2.localHits c.key = some ⟨1, now + c.ttl⟩ := by
  have hone : ¬ c.limit < 1 := by omega
  simp [Storage.incrementLocally, h, hone]

theorem incrementLocally_other {c : Increment} (h : c.key ≠ key) :
    (s.incrementLocally now c).2.localHits key = s.localHits key :=
  Function.update_of_ne (Ne.symm h) _ _

/-- An increment that the instance counts, within the interval. -/
theorem current_local {c : Increment} (hin : a ≤ now ∧ now < a + ttl)
    (huses : c.key = key → c.ttl = ttl ∧ c.limit = limit) (hlimit : 1 ≤ limit)
    (h : n ≤ d * limit + allowance a ttl limit (s.localHits key)) :
    n + (if localAdmits key a ttl (s, .increment now c none) then 1 else 0) ≤
      d * limit + allowance a ttl limit
        ((s.enterFallback.incrementLocally now c).2.localHits key) := by
  by_cases hkey : c.key = key
  · subst hkey
    obtain ⟨httl, hsame⟩ := huses rfl
    cases hlive : s.enterFallback.live c.key now with
    | none =>
        have hlimit' : 1 ≤ c.limit := by rwa [hsame]
        have hover : allowance a ttl limit (s.localHits c.key) ≤ limit :=
          allowance_over hin.2 hlive
        have hruns : a + ttl ≤ now + ttl := Nat.add_le_add_right hin.1 ttl
        have hcount : min 1 limit = 1 := by omega
        rw [incrementLocally_fresh hlive hlimit', httl, allowance, if_pos hruns, hcount]
        split_ifs
        · omega
        · omega
    | some e =>
        have he : s.localHits c.key = some e := (Option.filter_eq_some_iff.mp hlive).1
        obtain ⟨hentry, hblocked⟩ := incrementLocally_live (s := s.enterFallback) hlive
        have hadmits : localAdmits c.key a ttl (s, .increment now c none) =
            !decide (limit < e.totalHits + 1) := by
          simp [localAdmits, within, hblocked, hin, hsame]
        rw [he] at h
        rw [hentry, hadmits]
        simp only [allowance, Bool.not_eq_true', decide_eq_false_iff_not, Nat.not_lt] at h ⊢
        split_ifs at h ⊢
        all_goals omega
  · have hadmits : localAdmits key a ttl (s, .increment now c none) = false := by
      simp [localAdmits, hkey]
    rw [incrementLocally_other hkey, hadmits]
    exact h

/-- An answer of the shared store, within the interval. -/
theorem current_shared {c : Increment} {record : ThrottlerStorageRecord}
    (hin : a ≤ now ∧ now < a + ttl)
    (h : n ≤ d * limit + allowance a ttl limit (s.localHits key)) :
    n ≤ (d + if drops key a ttl (s, .increment now c (some record)) then 1 else 0) * limit +
      allowance a ttl limit (s.leaveFallback.localHits key) := by
  cases hdegraded : s.degraded with
  | false => simpa [drops, Storage.leaveFallback, hdegraded] using h
  | true =>
      have hdropped : s.leaveFallback.localHits key = none := by
        simp [Storage.leaveFallback, hdegraded]
      rw [hdropped, allowance]
      cases hlive : s.live key now with
      | none =>
          have hover : allowance a ttl limit (s.localHits key) ≤ limit := allowance_over hin.2 hlive
          simp only [drops, hlive, Option.isSome_none, Bool.and_false, Bool.false_eq_true, if_false,
            Nat.add_zero]
          omega
      | some e =>
          have hmost := allowance_le a ttl limit (s.localHits key)
          simp only [drops, within, hin, hdegraded, hlive, Option.isSome_some, decide_true,
            Bool.and_true, if_true, Nat.add_mul, Nat.one_mul]
          omega

/-- The sweeper takes away counters that have run out. -/
theorem current_evict (hin : now < a + ttl)
    (h : n ≤ d * limit + allowance a ttl limit (s.localHits key)) :
    n ≤ d * limit + allowance a ttl limit ((s.evictExpired now).localHits key) := by
  have hevicted : (s.evictExpired now).localHits key = s.live key now := rfl
  rw [hevicted]
  cases hlive : s.live key now with
  | none =>
      have hover : allowance a ttl limit (s.localHits key) ≤ limit := allowance_over hin hlive
      rw [allowance]
      omega
  | some e =>
      have he : s.localHits key = some e := (Option.filter_eq_some_iff.mp hlive).1
      rwa [he] at h

theorem Budget.step (h : Budget key a ttl limit now s n d) (hnow : now ≤ o.time)
    (huses : o.Uses key ttl limit) (hlimit : 1 ≤ limit) :
    Budget key a ttl limit o.time (o.after s)
      (n + if localAdmits key a ttl (s, o) then 1 else 0)
      (d + if drops key a ttl (s, o) then 1 else 0) := by
  by_cases hin : a ≤ o.time ∧ o.time < a + ttl
  · have hcurrent := h.current (by omega)
    have hnext : n + (if localAdmits key a ttl (s, o) then 1 else 0) ≤
        (d + if drops key a ttl (s, o) then 1 else 0) * limit +
          allowance a ttl limit ((o.after s).localHits key) := by
      cases o with
      | evict t => exact current_evict hin.2 hcurrent
      | increment t c shared =>
          cases shared with
          | none => exact current_local hin huses hlimit hcurrent
          | some record => exact current_shared hin hcurrent
    have hmost := allowance_le a ttl limit ((o.after s).localHits key)
    constructor
    · rw [Nat.add_mul]
      omega
    · intro hearly
      omega
    · intro _
      exact hnext
  · have hadmits : localAdmits key a ttl (s, o) = false :=
      Bool.eq_false_iff.mpr fun hadmits => hin (localAdmits_within hadmits)
    have hdrops : drops key a ttl (s, o) = false :=
      Bool.eq_false_iff.mpr fun hdrops => hin (drops_within hdrops)
    rw [hadmits, hdrops]
    constructor
    · exact h.total
    · intro hearly
      exact h.early (by omega)
    · intro hlate
      obtain ⟨rfl, rfl⟩ := h.early (by omega)
      exact Nat.zero_le _

end steps

/-! ### Histories stay within the budget -/

section histories
variable {key : String} {a ttl limit : ℕ}

theorem budget_trace (os : List Occurrence) {now n d : ℕ} {s : Storage}
    (h : Budget key a ttl limit now s n d) (hlimit : 1 ≤ limit)
    (htimes : (now :: os.map Occurrence.time).Pairwise (· ≤ ·))
    (huses : ∀ o ∈ os, o.Uses key ttl limit) :
    n + (trace s os).countP (localAdmits key a ttl) ≤
      (d + (trace s os).countP (drops key a ttl) + 2) * limit := by
  induction os generalizing now n d s with
  | nil => exact h.total
  | cons o os ih =>
      obtain ⟨hfirst, hrest⟩ := List.pairwise_cons.mp htimes
      have hnow : now ≤ o.time := hfirst _ List.mem_cons_self
      have hstep := h.step hnow (huses o List.mem_cons_self) hlimit
      have hlater := ih hstep hrest fun o' ho' => huses o' (List.mem_cons_of_mem _ ho')
      rw [trace, List.countP_cons, List.countP_cons]
      have hcount : ∀ x y z : ℕ, x + (y + z) = x + z + y := by
        intro x y z
        omega
      rw [hcount, hcount]
      exact hlater

/-- In an interval of length `ttl` the counters of a key admit two limits, and one more for
each counter that is dropped in it before its time. -/
theorem local_le (os : List Occurrence) (hlimit : 1 ≤ limit)
    (htimes : (os.map Occurrence.time).Pairwise (· ≤ ·))
    (huses : ∀ o ∈ os, o.Uses key ttl limit) :
    (trace {} os).countP (localAdmits key a ttl) ≤
      ((trace {} os).countP (drops key a ttl) + 2) * limit := by
  have hstart : Budget key a ttl limit 0 {} 0 0 :=
    ⟨Nat.zero_le _, fun _ => ⟨rfl, rfl⟩, fun _ => Nat.zero_le _⟩
  have hfrom : (0 :: os.map Occurrence.time).Pairwise (· ≤ ·) :=
    List.pairwise_cons.mpr ⟨fun _ _ => Nat.zero_le _, htimes⟩
  have hle := budget_trace os hstart hlimit hfrom huses
  rwa [Nat.zero_add, Nat.zero_add] at hle

/-- While the shared store keeps to its limit and no counter of the key is dropped before its
time, an instance admits three limits in an interval at most. -/
theorem admitted_le (os : List Occurrence) (hlimit : 1 ≤ limit)
    (htimes : (os.map Occurrence.time).Pairwise (· ≤ ·))
    (huses : ∀ o ∈ os, o.Uses key ttl limit)
    (hshared : (trace {} os).countP (sharedAdmits key a ttl) ≤ limit)
    (hkept : ∀ m ∈ trace {} os, drops key a ttl m = false) :
    (trace {} os).countP (admits key a ttl) ≤ 3 * limit := by
  have hdrops : (trace {} os).countP (drops key a ttl) = 0 := by
    rw [List.countP_eq_zero]
    intro m hm
    rw [hkept m hm]
    exact Bool.false_ne_true
  have hlocal := local_le (a := a) os hlimit htimes huses
  rw [hdrops] at hlocal
  rw [countP_admits]
  omega

end histories

namespace Sample

/-- One attempt a minute is admitted. -/
def login : Increment := ⟨"login", 60000, 1, 60000⟩

def other : Increment := ⟨"other", 60000, 1, 60000⟩

/-- The answer to a call that is over its limit. -/
def blocked : ThrottlerStorageRecord := ⟨2, 60, true, 60⟩

def admitted : ThrottlerStorageRecord := ⟨1, 60, false, 0⟩

/-- An outage that lasts for a minute, an answer of the shared store, and another outage. -/
def outage : List Occurrence :=
  [.increment 0 login none, .increment 1 login none, .evict 60000,
    .increment 60001 login (some admitted), .increment 60002 login none,
    .increment 60003 login none]

/-- The shared store answers every other call. -/
def flapping : List Occurrence :=
  [.increment 0 login none, .increment 1 other (some blocked), .increment 2 login none,
    .increment 3 other (some blocked), .increment 4 login none,
    .increment 5 other (some blocked), .increment 6 login none]

end Sample

theorem admitted_le_outage :
    (trace {} Sample.outage).countP (admits "login" 3 60000) = 2 ∧
      (trace {} Sample.outage).countP (admits "login" 3 60000) ≤ 3 * 1 :=
  ⟨by decide +kernel, admitted_le Sample.outage (by decide) (by decide) (by decide)
    (by decide +kernel) (by decide +kernel)⟩

/-- Four attempts are admitted in seven milliseconds, where one is allowed in a minute. -/
theorem admitted_flapping : ¬ ∀ (os : List Occurrence) (key : String) (a ttl limit : ℕ),
    1 ≤ limit → (os.map Occurrence.time).Pairwise (· ≤ ·) →
    (∀ o ∈ os, o.Uses key ttl limit) →
    (∀ a, (trace {} os).countP (sharedAdmits key a ttl) ≤ limit) →
    (trace {} os).countP (admits key a ttl) ≤ 3 * limit := by
  intro hall
  have hshared : ∀ a, (trace {} Sample.flapping).countP (sharedAdmits "login" a 60000) ≤ 1 := by
    intro a
    simp [Sample.flapping, trace, sharedAdmits, Sample.other]
  have hle := hall Sample.flapping "login" 0 60000 1 (by decide) (by decide) (by decide) hshared
  have hcount : (trace {} Sample.flapping).countP (admits "login" 0 60000) = 4 := by
    decide +kernel
  omega

end CiroFuel.Throttling
