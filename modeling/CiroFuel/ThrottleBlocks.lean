import CiroFuel.Throttling

/-!
# How long a local block lasts

The first increment of a window that is over the limit is reported blocked, and the block
is to last for its duration. The counter keeps its own time, however, once it has been
started: when that is over, or an answer of the shared store has dropped the counter, the
next increment starts another one and is admitted.
-/
namespace CiroFuel.Throttling

/-- The instance counts the increment of the key. -/
def Occurrence.counts (key : String) : Occurrence → Bool
  | .increment _ c none => c.key = key
  | _ => false

/-- The shared store answers. -/
def Occurrence.answered : Occurrence → Bool
  | .increment _ _ (some _) => true
  | _ => false

/-- When a block is over that starts with the increment. -/
def Occurrence.blockEnd : Occurrence → ℕ
  | .increment now c _ => now + c.blockDuration
  | .evict now => now

def reportsBlocked : Storage × Occurrence → Bool
  | (s, .increment now c shared) => (s.increment now c shared).1.isBlocked
  | (_, .evict _) => false

/-- The increment is reported blocked, and the one before it in its window was not. -/
def opensBlock (key : String) : Storage × Occurrence → Bool
  | (s, .increment now c none) =>
      c.key = key && (s.increment now c none).1.isBlocked &&
        (s.increment now c none).1.totalHits ≤ c.limit + 1
  | _ => false

/-- After the first increment of a window to be reported blocked, every increment that the
instance counts is, until the block duration is over. -/
def BlocksLast (key : String) (os : List Occurrence) : Prop :=
  (trace {} os).Pairwise fun m m' => opensBlock key m = true → m'.2.counts key = true →
    m'.2.time < m.2.blockEnd → reportsBlocked m' = true

/-- The counter of the key that has admitted all it may when the increment comes. -/
def exhausted (key : String) : Storage × Occurrence → Option Entry
  | (s, .increment now c none) =>
      if c.key = key then (s.live key now).filter fun e => e.totalHits = c.limit else none
  | _ => none

/-- The increments of the key that come before `ends` come before `expiry` too, and before
the shared store answers. -/
def Covered (key : String) (ends expiry : ℕ) : List Occurrence → Prop
  | [] => True
  | o :: os =>
      if o.answered then ∀ o' ∈ os, o'.counts key = true → ends ≤ o'.time
      else (o.counts key = true → o.time < ends → o.time < expiry) ∧ Covered key ends expiry os

/-- A counter that is exceeded runs as long as the key is incremented within the block. -/
def Outlasting (key : String) : Storage → List Occurrence → Prop
  | _, [] => True
  | s, o :: os =>
      (∀ e ∈ exhausted key (s, o), Covered key o.blockEnd e.expiresAt os) ∧
        Outlasting key (o.after s) os

/-! ### Increments that start a counter -/

section steps
variable {key : String} {limit ends expiry : ℕ} {s : Storage} {o : Occurrence}
variable {os : List Occurrence}

theorem mem_of_mem_trace {m : Storage × Occurrence} (h : m ∈ trace s os) : m.2 ∈ os := by
  induction os generalizing s with
  | nil => cases h
  | cons o os ih =>
      rcases List.mem_cons.mp h with rfl | hrest
      · exact List.mem_cons_self
      · exact List.mem_cons_of_mem _ (ih hrest)

theorem answered_iff : o.answered = true ↔ ∃ now c record, o = .increment now c (some record) := by
  cases o with
  | evict now => simp [Occurrence.answered]
  | increment now c shared =>
      cases shared with
      | none => simp [Occurrence.answered]
      | some record => simp [Occurrence.answered]

theorem counts_iff : o.counts key = true ↔ ∃ now c, o = .increment now c none ∧ c.key = key := by
  cases o with
  | evict now => simp [Occurrence.counts]
  | increment now c shared =>
      cases shared with
      | none => simp [Occurrence.counts]
      | some record => simp [Occurrence.counts]

/-- What is live later was live before. -/
theorem live_later {now later : ℕ} (h : s.live key now = none) (hle : now ≤ later) :
    s.live key later = none := by
  rw [Storage.live, Option.filter_eq_none_iff] at h ⊢
  intro e he
  have hexpired := h e he
  simp only [decide_eq_true_eq] at hexpired ⊢
  omega

theorem live_of_stored {e : Entry} {now : ℕ} (he : s.localHits key = some e)
    (hnow : now < e.expiresAt) : s.live key now = some e := by
  rw [Storage.live, he, Option.filter_some, if_pos (decide_eq_true hnow)]

theorem live_expired {e : Entry} {now : ℕ} (he : s.localHits key = some e)
    (hnow : e.expiresAt ≤ now) : s.live key now = none := by
  rw [Storage.live, he, Option.filter_some, if_neg (by simpa using hnow)]

/-- An increment that starts a counter is admitted. -/
theorem not_blocked_fresh {now : ℕ} {c : Increment} (h : s.live c.key now = none)
    (hlimit : 1 ≤ c.limit) : reportsBlocked (s, .increment now c none) = false := by
  have hfresh : s.enterFallback.live c.key now = none := h
  have hone : ¬ c.limit < 1 := by omega
  simp [reportsBlocked, Storage.increment, Storage.incrementLocally, hfresh, hone]

theorem after_other {now : ℕ} {c : Increment} (h : c.key ≠ key) :
    (Occurrence.after s (.increment now c none)).localHits key = s.localHits key :=
  incrementLocally_other (s := s.enterFallback) h

/-- A key that has no live counter has none before the instance counts for it. -/
theorem live_none_after (h : s.live key o.time = none) (hcounts : o.counts key = false) :
    (o.after s).live key o.time = none := by
  cases o with
  | evict now =>
      change ((s.live key now).filter fun e => now < e.expiresAt) = none
      change s.live key now = none at h
      rw [h]
      rfl
  | increment now c shared =>
      cases shared with
      | none =>
          have hkey : c.key ≠ key := of_decide_eq_false hcounts
          change s.live key now = none at h
          rw [Storage.live] at h ⊢
          rw [after_other hkey]
          exact h
      | some record =>
          change s.leaveFallback.live key now = none
          unfold Storage.leaveFallback
          split_ifs
          · rfl
          · exact h

/-- Without a live counter, increments are reported blocked only if there are none. -/
theorem fresh_iff (hlimit : 1 ≤ limit) (hlive : ∀ o ∈ os.head?, s.live key o.time = none)
    (htimes : (os.map Occurrence.time).Pairwise (· ≤ ·)) (huses : ∀ o ∈ os, ∀ now c,
      o = .increment now c none → c.key = key → c.limit = limit) :
    (∀ m ∈ trace s os, m.2.counts key = true → m.2.time < ends → reportsBlocked m = true) ↔
      ∀ o ∈ os, o.counts key = true → ends ≤ o.time := by
  induction os generalizing s with
  | nil => simp [trace]
  | cons o os ih =>
      obtain ⟨hfirst, hrest⟩ := List.pairwise_cons.mp htimes
      have hnow : s.live key o.time = none := hlive o rfl
      rw [trace, List.forall_mem_cons, List.forall_mem_cons]
      cases hcounts : o.counts key with
      | false =>
          have hlater : ∀ o' ∈ os.head?, (o.after s).live key o'.time = none := by
            intro o' ho'
            apply live_later (live_none_after hnow hcounts)
            exact hfirst _ (List.mem_map_of_mem (List.mem_of_mem_head? ho'))
          rw [ih hlater hrest fun o' ho' => huses o' (List.mem_cons_of_mem _ ho')]
          simp
      | true =>
          obtain ⟨now, c, rfl, rfl⟩ := counts_iff.mp hcounts
          have hsame : c.limit = limit := huses _ List.mem_cons_self now c rfl rfl
          have hadmitted : reportsBlocked (s, .increment now c none) = false :=
            not_blocked_fresh hnow (hsame ▸ hlimit)
          rw [hadmitted]
          constructor
          · rintro ⟨hhead, -⟩
            have hle : ends ≤ now := Nat.le_of_not_lt fun hlt => Bool.false_ne_true (hhead rfl hlt)
            refine ⟨fun _ => hle, fun o' ho' _ => ?_⟩
            exact Nat.le_trans hle (hfirst _ (List.mem_map_of_mem ho'))
          · rintro ⟨hle, -⟩
            refine ⟨fun _ hlt => absurd (hle rfl) (Nat.not_le.mpr hlt), fun m hm _ hlt => ?_⟩
            have hmem : m.2 ∈ os := mem_of_mem_trace hm
            have hlater : now ≤ m.2.time := hfirst _ (List.mem_map_of_mem hmem)
            have hbefore : ends ≤ now := hle rfl
            omega

/-! ### Increments after a block -/

/-- When the counter has run out, none of them may come early. -/
theorem covered_late (hlate : ∀ o ∈ os, expiry ≤ o.time) :
    Covered key ends expiry os ↔ ∀ o ∈ os, o.counts key = true → ends ≤ o.time := by
  induction os with
  | nil => simp [Covered]
  | cons o os ih =>
      obtain ⟨hfirst, hrest⟩ := List.forall_mem_cons.mp hlate
      rw [Covered, List.forall_mem_cons]
      split_ifs with hanswered
      · have hcounts : o.counts key = false := by
          cases o with
          | evict now => rfl
          | increment now c shared =>
              cases shared with
              | none => cases hanswered
              | some record => rfl
        simp [hcounts]
      · rw [ih hrest]
        refine and_congr_left' (imp_congr_right fun _ => ?_)
        omega

/-- A counter of the key that is over its limit, while the shared store cannot be reached. -/
structure Spent (key : String) (limit expiry : ℕ) (s : Storage) : Prop where
  degraded : s.degraded = true
  stored : ∃ n, limit < n ∧ s.localHits key = some ⟨n, expiry⟩

theorem Spent.blocks {now : ℕ} {c : Increment} (h : Spent c.key limit expiry s)
    (hnow : now < expiry) (hsame : c.limit = limit) :
    reportsBlocked (s, .increment now c none) = true ∧
      Spent c.key limit expiry (Occurrence.after s (.increment now c none)) := by
  obtain ⟨n, hn, hstored⟩ := h.stored
  have hlive : s.enterFallback.live c.key now = some ⟨n, expiry⟩ := live_of_stored hstored hnow
  obtain ⟨hentry, hblocked⟩ := incrementLocally_live hlive
  constructor
  · change (s.enterFallback.incrementLocally now c).1.isBlocked = true
    rw [hblocked, decide_eq_true_eq]
    dsimp only
    omega
  · exact ⟨rfl, n + 1, by omega, hentry⟩

/-- What does not count for the key, and is no answer of the shared store, leaves the counter. -/
theorem Spent.after (h : Spent key limit expiry s) (hnow : o.time < expiry)
    (hcounts : o.counts key = false) (hanswered : o.answered = false) :
    Spent key limit expiry (o.after s) := by
  obtain ⟨n, hn, hstored⟩ := h.stored
  cases o with
  | evict now => exact ⟨h.degraded, n, hn, live_of_stored hstored hnow⟩
  | increment now c shared =>
      cases shared with
      | none => exact ⟨rfl, n, hn, (after_other (of_decide_eq_false hcounts)).trans hstored⟩
      | some record => cases hanswered

theorem Spent.iff (h : Spent key limit expiry s) (hlimit : 1 ≤ limit)
    (htimes : (os.map Occurrence.time).Pairwise (· ≤ ·)) (huses : ∀ o ∈ os, ∀ now c,
      o = .increment now c none → c.key = key → c.limit = limit) :
    (∀ m ∈ trace s os, m.2.counts key = true → m.2.time < ends → reportsBlocked m = true) ↔
      Covered key ends expiry os := by
  induction os generalizing s with
  | nil => simp [trace, Covered]
  | cons o os ih =>
      obtain ⟨hfirst, hrest⟩ := List.pairwise_cons.mp htimes
      obtain ⟨n, hn, hstored⟩ := h.stored
      by_cases hnow : o.time < expiry
      · have huses' := fun o' ho' => huses o' (List.mem_cons_of_mem _ ho')
        rw [trace, List.forall_mem_cons, Covered]
        cases hanswered : o.answered with
        | true =>
            obtain ⟨now, c, record, rfl⟩ := answered_iff.mp hanswered
            have hdropped : (Occurrence.after s (.increment now c (some record))).localHits key =
                none := by
              change s.leaveFallback.localHits key = none
              rw [Storage.leaveFallback, if_pos h.degraded]
            rw [if_pos rfl, fresh_iff hlimit ?_ hrest huses']
            · simp [Occurrence.counts]
            · intro o' _
              rw [Storage.live, hdropped]
              rfl
        | false =>
            rw [if_neg Bool.false_ne_true]
            cases hcounts : o.counts key with
            | false =>
                rw [ih (h.after hnow hcounts hanswered) hrest huses']
                simp
            | true =>
                obtain ⟨now, c, rfl, rfl⟩ := counts_iff.mp hcounts
                have hbefore : now < expiry := hnow
                obtain ⟨hblocked, hspent⟩ :=
                  h.blocks hbefore (huses _ List.mem_cons_self now c rfl rfl)
                rw [ih hspent hrest huses']
                simp [hblocked, hnow]
      · have hlate : ∀ o' ∈ o :: os, expiry ≤ o'.time := by
          refine List.forall_mem_cons.mpr ⟨Nat.not_lt.mp hnow, fun o' ho' => ?_⟩
          exact Nat.le_trans (Nat.not_lt.mp hnow) (hfirst _ (List.mem_map_of_mem ho'))
        rw [covered_late hlate, fresh_iff hlimit ?_ htimes huses]
        rintro o' ⟨⟩
        exact live_expired hstored (Nat.not_lt.mp hnow)

/-! ### Histories -/

/-- A block opens with the increment that takes a live counter over its limit. -/
theorem opensBlock_iff (hlimit : 1 ≤ limit) (huses : ∀ now c,
      o = .increment now c none → c.key = key → c.limit = limit) :
    opensBlock key (s, o) = true ↔ ∃ e, exhausted key (s, o) = some e := by
  cases o with
  | evict now => simp [opensBlock, exhausted]
  | increment now c shared =>
      cases shared with
      | some record => simp [opensBlock, exhausted]
      | none =>
          by_cases hkey : c.key = key
          · subst hkey
            have hsame := huses now c rfl rfl
            cases hlive : s.live c.key now with
            | none =>
                have hadmitted := not_blocked_fresh hlive (hsame ▸ hlimit)
                change (s.increment now c none).1.isBlocked = false at hadmitted
                simp [opensBlock, exhausted, hlive, hadmitted]
            | some e =>
                have hlive' : s.enterFallback.live c.key now = some e := hlive
                have hhits : (s.increment now c none).1.totalHits = e.totalHits + 1 := by
                  simp [Storage.increment, Storage.incrementLocally, hlive']
                have hblocked : (s.increment now c none).1.isBlocked =
                    decide (c.limit < e.totalHits + 1) := (incrementLocally_live hlive').2
                simp only [opensBlock, exhausted, hlive, hhits, hblocked, if_true, decide_true,
                  Bool.true_and, Bool.and_eq_true, decide_eq_true_eq, Option.filter_eq_some_iff,
                  Option.some.injEq, exists_eq_left']
                omega
          · simp [opensBlock, exhausted, hkey]

theorem spent_of_exhausted {e : Entry} (huses : ∀ now c,
      o = .increment now c none → c.key = key → c.limit = limit)
    (h : exhausted key (s, o) = some e) : Spent key limit e.expiresAt (o.after s) := by
  cases o with
  | evict now => cases h
  | increment now c shared =>
      cases shared with
      | some record => cases h
      | none =>
          obtain ⟨rfl, h⟩ := Option.ite_none_right_eq_some.mp h
          obtain ⟨hlive, hhits⟩ := Option.filter_eq_some_iff.mp h
          have hlive' : s.enterFallback.live c.key now = some e := hlive
          have hsame := huses now c rfl rfl
          refine ⟨rfl, e.totalHits + 1, ?_, (incrementLocally_live hlive').1⟩
          simp only [decide_eq_true_eq] at hhits
          omega

theorem blocks_trace (hlimit : 1 ≤ limit) (htimes : (os.map Occurrence.time).Pairwise (· ≤ ·))
    (huses : ∀ o ∈ os, ∀ now c, o = .increment now c none → c.key = key → c.limit = limit) :
    ((trace s os).Pairwise fun m m' => opensBlock key m = true → m'.2.counts key = true →
      m'.2.time < m.2.blockEnd → reportsBlocked m' = true) ↔ Outlasting key s os := by
  induction os generalizing s with
  | nil => simp [trace, Outlasting]
  | cons o os ih =>
      obtain ⟨-, hrest⟩ := List.pairwise_cons.mp htimes
      have huse := huses o List.mem_cons_self
      have huses' := fun o' ho' => huses o' (List.mem_cons_of_mem _ ho')
      rw [trace, List.pairwise_cons, Outlasting, ih hrest huses', opensBlock_iff hlimit huse]
      refine and_congr_left' ?_
      constructor
      · intro hall e he
        rw [← (spent_of_exhausted huse he).iff hlimit hrest huses']
        exact fun m hm => hall m hm ⟨e, he⟩
      · rintro hall m hm ⟨e, he⟩
        have hcovered := hall e he
        rw [← (spent_of_exhausted huse he).iff hlimit hrest huses'] at hcovered
        exact hcovered m hm

end steps

/-- A block lasts for its duration in exactly the histories in which no increment of the key
comes within the duration but after the counter has run out or has been dropped. -/
theorem blocksLast_iff {key : String} {ttl limit : ℕ} (os : List Occurrence) (hlimit : 1 ≤ limit)
    (htimes : (os.map Occurrence.time).Pairwise (· ≤ ·))
    (huses : ∀ o ∈ os, o.Uses key ttl limit) : BlocksLast key os ↔ Outlasting key {} os := by
  apply blocks_trace hlimit htimes
  rintro o ho now c rfl hkey
  exact (huses _ ho hkey).2

namespace Sample

/-- The second attempt comes at the end of the window, the third a millisecond later. -/
def boundary : List Occurrence :=
  [.increment 0 login none, .increment 59999 login none, .increment 60000 login none]

end Sample

theorem blocksLast_iff_outage :
    BlocksLast "login" Sample.outage ↔ Outlasting "login" {} Sample.outage :=
  @blocksLast_iff "login" 60000 1 Sample.outage (by decide) (by decide) (by decide)

/-- A block of a minute is over after a millisecond. -/
theorem block_ends_early : ¬ ∀ (os : List Occurrence) (key : String) (ttl limit : ℕ), 1 ≤ limit →
    (os.map Occurrence.time).Pairwise (· ≤ ·) → (∀ o ∈ os, o.Uses key ttl limit) →
    (∀ o ∈ os, o.answered = false) → BlocksLast key os := by
  intro hall
  have hlast := hall Sample.boundary "login" 60000 1 (by decide) (by decide) (by decide) (by decide)
  simp only [BlocksLast, Sample.boundary, trace, List.pairwise_cons] at hlast
  have hblocked := hlast.2.1 _ List.mem_cons_self (by decide +kernel) (by decide) (by decide)
  revert hblocked
  decide +kernel

end CiroFuel.Throttling
