import CiroFuel.Announcements.Losses
import CiroFuel.Snapshot.Totals

/-!
# What an announcement counts

A job counts what it has recorded and adds it to the announcement when it has gone
through its candidates. What a job has recorded before it stopped is never added, and
the jobs that come later skip it.
-/
namespace CiroFuel.Announcements
open Snapshot

/-- The two counters of an announcement. -/
inductive Tally where
  | delivered | failed
deriving DecidableEq

namespace Tally

def outcome : Tally → Outcome
  | .delivered => .delivered
  | .failed => .failed

def counter : Tally → Announcement → ℕ
  | .delivered, x => x.deliveredCount
  | .failed, x => x.failedCount

/-- The rows that belong in the counter. -/
def covers : Tally → AnnouncementDelivery → Bool
  | .delivered, d => d.notificationId.isSome
  | .failed, d => d.failureReason.isSome

def weight (t : Tally) (a : Id) : (k : Key) → Doc k → ℕ
  | .delivery _, some d => if d.announcementId = a ∧ t.covers d = true then 1 else 0
  | _, _ => 0

/-- The number of rows of an announcement that belong in the counter. -/
def rows (t : Tally) (a : Id) (s : Store Doc) : ℕ := s.docs.total (t.weight a)

end Tally

namespace Call

/-- The call makes a row of the announcement belong in the counter. -/
def records (a : Id) (t : Tally) (c : Call) (s : Store Doc) : Bool :=
  match t, c with
  | .delivered, .setNotificationId row _ => (delivery s row).any fun d => d.announcementId = a
  | .failed, .createDelivery a' c => a' = a && c.failureReason.isSome
  | _, _ => false

/-- The call closes a job of the announcement. -/
def closes (a : Id) : Call → Bool
  | .complete a' _ _ => a' = a
  | _ => false

/-- What the call adds to the counter. -/
def added (a : Id) (t : Tally) (c : Call) : ℕ :=
  match t, c with
  | .delivered, .complete a' delivered _ => if a' = a then delivered else 0
  | .failed, .complete a' _ failed => if a' = a then failed else 0
  | _, _ => 0

end Call

section events
variable (a : Id) (t : Tally) (ev : Event Doc Call.Reply)

def records : Bool := ev.label.records a t ev.before

def closes : Bool := ev.label.closes a

def added : ℕ := ev.label.added a t

end events

/-- The thread has closed a job of the announcement. -/
def closedBy (a : Id) (log : List (Event Doc Call.Reply)) (i : ℕ) : Bool :=
  log.any fun ev => ev.thread = i && closes a ev

/-- The job of a thread that has not closed it yet. -/
def Ghost.underway : Ghost → Option Progress
  | .fanning p => some p
  | .holding p _ _ _ => some p
  | _ => none

/-- How the counter, the rows and the jobs at work relate to the commits so far. -/
structure Tallied (a : Id) (t : Tally) (log : List (Event Doc Call.Reply)) (s : Store Doc)
    (γ : ℕ → Ghost) : Prop where
  found : ∀ i p, (γ i).underway = some p → (announcement s p.announcementId).isSome = true
  unstarted : ∀ i a', γ i = .waiting a' → ∀ ev ∈ log, ev.thread ≠ i
  absent : announcement s a = none → ∀ ev ∈ log, added a t ev = 0
  counter : ∀ x, announcement s a = some x → t.counter x = (log.map (added a t)).sum
  rows : t.rows a s = log.countP (records a t)
  job : ∀ i p, (γ i).underway = some p → p.announcementId = a →
    p.count t.outcome = log.countP (fun ev => records a t ev && ev.thread = i) ∧
      closedBy a log i = false
  closed : (log.map (added a t)).sum =
    log.countP fun ev => records a t ev && closedBy a log ev.thread

/-! ### Events -/

section events
variable {a : Id} {t : Tally} {ev : Event Doc Call.Reply} {log : List (Event Doc Call.Reply)} {i : ℕ}

theorem added_of_not_closes (h : closes a ev = false) : added a t ev = 0 := by
  obtain ⟨j, label, base, env, began, ended, reply, view, before, after⟩ := ev
  cases label with
  | complete a' delivered failed =>
      have ha : a' ≠ a := of_decide_eq_false h
      cases t <;> simp [added, Call.added, ha]
  | _ => cases t <;> rfl

theorem closedBy_cons : closedBy a (ev :: log) i = ((ev.thread = i && closes a ev) || closedBy a log i) :=
  rfl

theorem closedBy_of_not_closes (h : closes a ev = false) : closedBy a (ev :: log) i = closedBy a log i := by
  rw [closedBy_cons, h, Bool.and_false, Bool.false_or]

/-- Counting what either of two conditions selects, if they exclude each other. -/
theorem countP_or {α : Type} {p q : α → Bool} {l : List α}
    (h : ∀ x ∈ l, p x = true → q x = false) :
    l.countP (fun x => p x || q x) = l.countP p + l.countP q := by
  induction l with
  | nil => rfl
  | cons x l ih =>
      have htail := ih fun y hy => h y (List.mem_cons_of_mem _ hy)
      have hhead := h x List.mem_cons_self
      rw [List.countP_cons, List.countP_cons, List.countP_cons, htail]
      cases hp : p x with
      | true =>
          simp [hhead hp]
          omega
      | false =>
          simp
          omega

/-- Once the job of a thread is closed, what it has recorded counts. -/
theorem countP_closing (h : closedBy a log ev.thread = false) (hev : closes a ev = true) :
    log.countP (fun e => records a t e && closedBy a (ev :: log) e.thread) =
      log.countP (fun e => records a t e && closedBy a log e.thread) +
        log.countP fun e => records a t e && e.thread = ev.thread := by
  rw [← countP_or]
  · apply List.countP_congr
    intro e _
    rw [closedBy_cons, hev]
    by_cases he : e.thread = ev.thread
    · simp [he, h]
    · have hne : ev.thread ≠ e.thread := fun h => he h.symm
      simp [he, hne]
  · intro e _ he
    by_cases hthread : e.thread = ev.thread
    · rw [hthread, h, Bool.and_false] at he
      cases he
    · simp [hthread]

theorem closes_of_records (h : records a t ev = true) : closes a ev = false := by
  obtain ⟨j, label, base, env, began, ended, reply, view, before, after⟩ := ev
  cases label with
  | complete a' delivered failed => cases t <;> cases h
  | _ => rfl

end events

section steps
variable {a : Id} {t : Tally} {log : List (Event Doc Call.Reply)} {s s' : Store Doc}
variable {γ : ℕ → Ghost} {g : Ghost} {ev : Event Doc Call.Reply}

/-- A commit that closes no job. -/
theorem Tallied.goesOn (h : Tallied a t log s γ) (hcloses : closes a ev = false)
    (hfound : ∀ id, (announcement s id).isSome = true → (announcement s' id).isSome = true)
    (hcounter : ∀ x, announcement s' a = some x →
      (∃ y, announcement s a = some y ∧ t.counter x = t.counter y) ∨
        (announcement s a = none ∧ t.counter x = 0))
    (hrows : t.rows a s' = t.rows a s + if records a t ev = true then 1 else 0)
    (hg : ∀ p', g.underway = some p' → ∃ p, (γ ev.thread).underway = some p ∧
      p'.announcementId = p.announcementId ∧ (p.announcementId = a →
        p'.count t.outcome = p.count t.outcome + if records a t ev = true then 1 else 0))
    (hrecords : records a t ev = true → ∃ p, (γ ev.thread).underway = some p ∧ p.announcementId = a)
    (hwaiting : ∀ a', g ≠ .waiting a') :
    Tallied a t (ev :: log) s' (Function.update γ ev.thread g) := by
  have hadded : added a t ev = 0 := added_of_not_closes hcloses
  have hsum : ((ev :: log).map (added a t)).sum = (log.map (added a t)).sum := by
    rw [List.map_cons, List.sum_cons, hadded, Nat.zero_add]
  constructor
  · intro i p hp
    by_cases hi : i = ev.thread
    · subst hi
      rw [Function.update_self] at hp
      obtain ⟨p₀, hp₀, hsame, -⟩ := hg p hp
      rw [hsame]
      exact hfound _ (h.found _ p₀ hp₀)
    · rw [Function.update_of_ne hi] at hp
      exact hfound _ (h.found i p hp)
  · intro i a' ha' ev' hev'
    by_cases hi : i = ev.thread
    · subst hi
      rw [Function.update_self] at ha'
      exact absurd ha' (hwaiting a')
    · rw [Function.update_of_ne hi] at ha'
      rcases List.mem_cons.mp hev' with rfl | hold
      · exact fun h => hi h.symm
      · exact h.unstarted i a' ha' ev' hold
  · intro hnone ev' hev'
    rcases List.mem_cons.mp hev' with rfl | hold
    · exact hadded
    · apply h.absent ?_ ev' hold
      cases hx : announcement s a with
      | none => rfl
      | some x =>
          have hsome := hfound a (by rw [hx]; rfl)
          rw [hnone] at hsome
          cases hsome
  · intro x hx
    rw [hsum]
    rcases hcounter x hx with ⟨y, hy, hsame⟩ | ⟨hnone, hzero⟩
    · rw [hsame]
      exact h.counter y hy
    · rw [hzero]
      symm
      apply List.sum_eq_zero
      intro n hn
      obtain ⟨ev', hev', rfl⟩ := List.mem_map.mp hn
      exact h.absent hnone ev' hev'
  · rw [hrows, h.rows, List.countP_cons]
  · intro i p hp hpa
    rw [closedBy_of_not_closes hcloses, List.countP_cons]
    by_cases hi : i = ev.thread
    · subst hi
      rw [Function.update_self] at hp
      obtain ⟨p₀, hp₀, hsame, hcount⟩ := hg p hp
      have hpa₀ : p₀.announcementId = a := hsame.symm.trans hpa
      obtain ⟨hjob, hopen⟩ := h.job _ p₀ hp₀ hpa₀
      refine ⟨?_, hopen⟩
      rw [hcount hpa₀, hjob]
      simp
    · rw [Function.update_of_ne hi] at hp
      obtain ⟨hjob, hopen⟩ := h.job i p hp hpa
      refine ⟨?_, hopen⟩
      have hne : ev.thread ≠ i := fun h => hi h.symm
      rw [hjob]
      simp [hne]
  · rw [hsum, h.closed, List.countP_cons]
    have hopen : (records a t ev && closedBy a (ev :: log) ev.thread) = false := by
      cases hr : records a t ev with
      | false => rfl
      | true =>
          obtain ⟨p, hp, hpa⟩ := hrecords hr
          rw [closedBy_of_not_closes hcloses, (h.job _ p hp hpa).2]
          rfl
    rw [hopen]
    simp only [Bool.false_eq_true, if_false, Nat.add_zero]
    apply List.countP_congr
    intro e _
    rw [closedBy_of_not_closes hcloses]

/-- The commit that closes a job. -/
theorem Tallied.closing (h : Tallied a t log s γ) {p : Progress} {x : Announcement}
    (hcloses : closes a ev = true) (hjob : (γ ev.thread).underway = some p)
    (hpa : p.announcementId = a) (hadded : added a t ev = p.count t.outcome)
    (hx : announcement s a = some x)
    (hput : ∀ id, id ≠ a → announcement s' id = announcement s id)
    (hx' : ∃ y, announcement s' a = some y ∧ t.counter y = t.counter x + added a t ev)
    (hrows : t.rows a s' = t.rows a s) :
    Tallied a t (ev :: log) s' (Function.update γ ev.thread (.closed p)) := by
  obtain ⟨y, hy, hcounter⟩ := hx'
  obtain ⟨hcount, hopen⟩ := h.job _ p hjob hpa
  have hrecords : records a t ev = false := by
    cases hr : records a t ev with
    | false => rfl
    | true =>
        have hnot := closes_of_records hr
        rw [hcloses] at hnot
        cases hnot
  have hfound : ∀ id, (announcement s id).isSome = true → (announcement s' id).isSome = true := by
    intro id hid
    by_cases ha : id = a
    · subst ha
      rw [hy]
      rfl
    · rwa [hput id ha]
  constructor
  · intro i p' hp'
    by_cases hi : i = ev.thread
    · subst hi
      rw [Function.update_self] at hp'
      cases hp'
    · rw [Function.update_of_ne hi] at hp'
      exact hfound _ (h.found i p' hp')
  · intro i a' ha' ev' hev'
    by_cases hi : i = ev.thread
    · subst hi
      rw [Function.update_self] at ha'
      cases ha'
    · rw [Function.update_of_ne hi] at ha'
      rcases List.mem_cons.mp hev' with rfl | hold
      · exact fun h => hi h.symm
      · exact h.unstarted i a' ha' ev' hold
  · intro hnone
    rw [hy] at hnone
    cases hnone
  · intro z hz
    cases hy.symm.trans hz
    rw [hcounter, h.counter x hx, List.map_cons, List.sum_cons, Nat.add_comm]
  · rw [hrows, h.rows, List.countP_cons_of_neg (by simp [hrecords])]
  · intro i p' hp' hpa'
    by_cases hi : i = ev.thread
    · subst hi
      rw [Function.update_self] at hp'
      cases hp'
    · rw [Function.update_of_ne hi] at hp'
      obtain ⟨hjob', hopen'⟩ := h.job i p' hp' hpa'
      have hne : ev.thread ≠ i := fun h => hi h.symm
      constructor
      · rw [hjob', List.countP_cons_of_neg (by simp [hrecords])]
      · rw [closedBy_cons, hopen']
        simp [hne]
  · rw [List.map_cons, List.sum_cons, hadded, hcount, h.closed,
      List.countP_cons_of_neg (by simp [hrecords]), countP_closing hopen hcloses, Nat.add_comm]

/-- A thread goes on without a commit. -/
theorem Tallied.update (h : Tallied a t log s γ) (j : ℕ)
    (hfound : ∀ p, g.underway = some p → (announcement s p.announcementId).isSome = true)
    (hjob : ∀ p, g.underway = some p → p.announcementId = a →
      p.count t.outcome = log.countP (fun ev => records a t ev && ev.thread = j) ∧
        closedBy a log j = false)
    (hwaiting : ∀ a', g = .waiting a' → ∀ ev ∈ log, ev.thread ≠ j) :
    Tallied a t log s (Function.update γ j g) := by
  constructor
  · intro i p hp
    by_cases hi : i = j
    · subst hi
      rw [Function.update_self] at hp
      exact hfound p hp
    · rw [Function.update_of_ne hi] at hp
      exact h.found i p hp
  · intro i a' ha'
    by_cases hi : i = j
    · subst hi
      rw [Function.update_self] at ha'
      exact hwaiting a' ha'
    · rw [Function.update_of_ne hi] at ha'
      exact h.unstarted i a' ha'
  · exact h.absent
  · exact h.counter
  · exact h.rows
  · intro i p hp
    by_cases hi : i = j
    · subst hi
      rw [Function.update_self] at hp
      exact hjob p hp
    · rw [Function.update_of_ne hi] at hp
      exact h.job i p hp
  · exact h.closed

/-- The thread comes to an end, or its call has failed without consequences. -/
theorem Tallied.pause (h : Tallied a t log s γ) (j : ℕ)
    (hg : g.underway = none ∨ ∃ p p', g.underway = some p' ∧ (γ j).underway = some p ∧
      p'.announcementId = p.announcementId ∧ p'.count t.outcome = p.count t.outcome)
    (hwaiting : ∀ a', g = .waiting a' → ∀ ev ∈ log, ev.thread ≠ j) :
    Tallied a t log s (Function.update γ j g) := by
  have hwork : ∀ {q}, g.underway = some q → ∃ p, (γ j).underway = some p ∧
      q.announcementId = p.announcementId ∧ q.count t.outcome = p.count t.outcome := by
    intro q hq
    rcases hg with hnone | ⟨p, p', hp', hp, hsame⟩
    · rw [hnone] at hq
      cases hq
    · cases hp'.symm.trans hq
      exact ⟨p, hp, hsame⟩
  apply h.update
  · intro q hq
    obtain ⟨p, hp, hsame, -⟩ := hwork hq
    rw [hsame]
    exact h.found j p hp
  · intro q hq hqa
    obtain ⟨p, hp, hsame, hcount⟩ := hwork hq
    rw [hcount]
    exact h.job j p hp (hsame.symm.trans hqa)
  · exact hwaiting

end steps

/-! ### Rows -/

section rows
variable {a : Id} {t : Tally} {s s' : Store Doc}

theorem weight_of_stored {row : Id} {d : AnnouncementDelivery} (h : delivery s row = some d) :
    s.docs.weight (t.weight a) (Key.delivery row) =
      if d.announcementId = a ∧ t.covers d = true then 1 else 0 :=
  Docs.weight_some (delivery_some.mp h)

theorem weight_of_absent {row : Id} (h : delivery s row = none) :
    s.docs.weight (t.weight a) (Key.delivery row) = 0 := by
  cases hx : s.docs.lookup (Key.delivery row) with
  | none => exact Docs.weight_none hx
  | some x =>
      rw [Docs.weight_some hx]
      cases x with
      | none => rfl
      | some d =>
          have hd : delivery s row = some d := delivery_some.mpr hx
          rw [h] at hd
          cases hd

/-- The rows that count after one of them has been written. -/
theorem rows_put {row : Id} {x : Option AnnouncementDelivery}
    (hput : Store.Puts s s' (Key.delivery row) x) :
    t.rows a s' + s.docs.weight (t.weight a) (Key.delivery row) =
      t.rows a s + s'.docs.weight (t.weight a) (Key.delivery row) := by
  apply Docs.total_put
  intro k hk
  have hsame : s'.docs.lookup k = s.docs.lookup k := hput.elsewhere k hk
  rw [Docs.weight, Docs.weight, hsame]

/-- Other documents do not count. -/
theorem rows_other {k : Key} {y : Doc k} (hput : Store.Puts s s' k y)
    (hk : ∀ row, k ≠ .delivery row) : t.rows a s' = t.rows a s := by
  apply Docs.total_congr
  intro k'
  by_cases hkk : k' = k
  · subst hkk
    have hzero : ∀ s : Store Doc, s.docs.weight (t.weight a) k' = 0 := by
      intro s
      rw [Docs.weight]
      cases s.docs.lookup k' with
      | none => rfl
      | some x =>
          cases k' with
          | delivery row => exact absurd rfl (hk row)
          | _ => rfl
    rw [hzero, hzero]
  · have hsame : s'.docs.lookup k' = s.docs.lookup k' := hput.elsewhere k' hkk
    rw [Docs.weight, Docs.weight, hsame]

end rows

/-! ### The run -/

section run
variable {a : Id} {t : Tally} {γ : ℕ → Ghost} {log : List (Event Doc Call.Reply)}

theorem Progress.count_add (p : Progress) (c : AnnouncementCandidate) (o o' : Outcome) :
    (p.add c o).count o' = p.count o' + if o = o' then 1 else 0 := by
  simp [Progress.count, Progress.add, List.countP_cons]

section commit
variable {ev : Event Doc Call.Reply} {g : Ghost} {p : Progress}

/-- A commit that leaves the announcements as they were. -/
theorem Tallied.elsewhere (h : Tallied a t log ev.before γ) (hcloses : closes a ev = false)
    (hsame : ∀ id, announcement ev.after id = announcement ev.before id)
    (hrows : t.rows a ev.after = t.rows a ev.before + if records a t ev = true then 1 else 0)
    (hg : ∀ p', g.underway = some p' → ∃ p, (γ ev.thread).underway = some p ∧
      p'.announcementId = p.announcementId ∧ (p.announcementId = a →
        p'.count t.outcome = p.count t.outcome + if records a t ev = true then 1 else 0))
    (hrecords : records a t ev = true → ∃ p, (γ ev.thread).underway = some p ∧ p.announcementId = a)
    (hwaiting : ∀ a', g ≠ .waiting a') :
    Tallied a t (ev :: log) ev.after (Function.update γ ev.thread g) := by
  refine h.goesOn hcloses (fun id hid => by rwa [hsame]) ?_ hrows hg hrecords hwaiting
  intro x hx
  rw [hsame] at hx
  exact Or.inl ⟨x, hx, rfl⟩

/-- A commit that writes neither an announcement nor a row. -/
theorem Tallied.apart {k : Key} {x : Doc k} (h : Tallied a t log ev.before γ)
    (hput : Store.Puts ev.before ev.after k x) (hannouncement : ∀ id, k ≠ .announcement id)
    (hdelivery : ∀ row, k ≠ .delivery row) (hcloses : closes a ev = false)
    (hrecords : records a t ev = false)
    (hg : ∀ p', g.underway = some p' → ∃ p, (γ ev.thread).underway = some p ∧
      p'.announcementId = p.announcementId ∧ p'.count t.outcome = p.count t.outcome)
    (hwaiting : ∀ a', g ≠ .waiting a') :
    Tallied a t (ev :: log) ev.after (Function.update γ ev.thread g) := by
  apply h.elsewhere hcloses (announcement_put hput hannouncement)
  · rw [hrecords, rows_other hput hdelivery]
    rfl
  · intro p' hp'
    obtain ⟨p, hp, hsame, hcount⟩ := hg p' hp'
    refine ⟨p, hp, hsame, fun _ => ?_⟩
    rw [hrecords, hcount]
    rfl
  · intro hr
    rw [hrecords] at hr
    cases hr
  · exact hwaiting

/-- An announcement with empty counters is created. -/
theorem Tallied.created {x : Announcement} {id : Id} (h : Tallied a t log ev.before γ)
    (hnew : announcement ev.before id = none)
    (hput : Store.Puts ev.before ev.after (Key.announcement id) x) (hzero : t.counter x = 0)
    (hcloses : closes a ev = false) (hrecords : records a t ev = false) (hg : g.underway = none)
    (hwaiting : ∀ a', g ≠ .waiting a') :
    Tallied a t (ev :: log) ev.after (Function.update γ ev.thread g) := by
  have hother : ∀ id', id' ≠ id → announcement ev.after id' = announcement ev.before id' :=
    fun id' hne => hput.elsewhere _ (by simpa using hne)
  have hhere : announcement ev.after id = some x := hput.here
  apply h.goesOn hcloses
  · intro id' hid'
    by_cases hid : id' = id
    · rw [hid, hhere]
      rfl
    · rwa [hother id' hid]
  · intro y hy
    by_cases hid : a = id
    · subst hid
      cases hhere.symm.trans hy
      exact Or.inr ⟨hnew, hzero⟩
    · rw [hother a hid] at hy
      exact Or.inl ⟨y, hy, rfl⟩
  · rw [hrecords, rows_other hput fun _ h => by cases h]
    rfl
  · intro p' hp'
    cases hg.symm.trans hp'
  · intro hr
    rw [hrecords] at hr
    cases hr
  · exact hwaiting

/-- The job inserts the row of a candidate. -/
theorem Tallied.inserted {c : AnnouncementCandidate} {row : Id} (h : Tallied a t log ev.before γ)
    (hlabel : ev.label = .createDelivery p.announcementId c)
    (hjob : (γ ev.thread).underway = some p)
    (hnew : ev.before.find (Key.delivery row) = none)
    (hput : Store.Puts ev.before ev.after (Key.delivery row)
      (some (deliveryOf p.announcementId c))) :
    Tallied a t (ev :: log) ev.after (Function.update γ ev.thread
      ((Ghost.fanning p).done (.createDelivery p.announcementId c) row)) := by
  have hnone : delivery ev.before row = none := by
    rw [delivery, hnew]
    rfl
  have hrows := rows_put (a := a) (t := t) hput
  rw [weight_of_absent hnone, weight_of_stored (delivery_put_self hput), Nat.add_zero] at hrows
  apply h.elsewhere _ (announcement_put hput fun _ h => by cases h)
  · rw [hrows, records, hlabel]
    by_cases ha : p.announcementId = a
    · cases t <;> simp [Tally.covers, deliveryOf, Call.records, ha]
    · cases t <;> simp [deliveryOf, Call.records, ha]
  · intro p' hp'
    refine ⟨p, hjob, ?_⟩
    rw [records, hlabel]
    simp only [Ghost.done] at hp'
    split at hp'
    · rename_i recipient hreason hrecipient
      cases hp'
      refine ⟨rfl, fun _ => ?_⟩
      cases t <;> simp [Call.records, hreason]
    · rename_i hunreachable
      cases hp'
      have hsome : c.failureReason.isSome = true := by
        cases hreason : c.failureReason with
        | some reason => rfl
        | none =>
            cases hrecipient : c.recipient with
            | none => cases hreason.symm.trans (c.unaddressed hrecipient)
            | some u => exact absurd hrecipient (hunreachable u hreason)
      refine ⟨rfl, fun ha => ?_⟩
      rw [Progress.count_add]
      cases t <;> simp [Tally.outcome, Call.records, ha, hsome]
  · intro hr
    refine ⟨p, hjob, ?_⟩
    rw [records, hlabel] at hr
    cases t with
    | delivered => cases hr
    | failed =>
        simp only [Call.records, Bool.and_eq_true, decide_eq_true_eq] at hr
        exact hr.1
  · exact Ghost.done_working _ _ _
  · rw [closes, hlabel]
    rfl

/-- The job adds what it has counted, and is closed. -/
theorem Tallied.completed {x : Announcement} {delivered failed : ℕ}
    (h : Tallied a t log ev.before γ) (hlabel : ev.label = .complete p.announcementId delivered failed)
    (hdelivered : delivered = p.count .delivered) (hfailed : failed = p.count .failed)
    (hjob : (γ ev.thread).underway = some p)
    (hx : announcement ev.before p.announcementId = some x)
    (hput : Store.Puts ev.before ev.after (Key.announcement p.announcementId)
      { x with
        deliveredCount := x.deliveredCount + delivered
        failedCount := x.failedCount + failed
        state := .completed }) :
    Tallied a t (ev :: log) ev.after (Function.update γ ev.thread (.closed p)) := by
  have hother : ∀ id, id ≠ p.announcementId → announcement ev.after id = announcement ev.before id :=
    fun id hne => hput.elsewhere _ (by simpa using hne)
  have hrows : t.rows a ev.after = t.rows a ev.before := rows_other hput fun _ h => by cases h
  have hrecords : records a t ev = false := by
    rw [records, hlabel]
    cases t <;> rfl
  by_cases ha : p.announcementId = a
  · subst ha
    apply h.closing ?_ hjob rfl ?_ hx hother ⟨_, hput.here, ?_⟩ hrows
    · rw [closes, hlabel]
      exact decide_eq_true rfl
    · rw [added, hlabel]
      cases t with
      | delivered => simpa [Call.added, Tally.outcome] using hdelivered
      | failed => simpa [Call.added, Tally.outcome] using hfailed
    · rw [added, hlabel]
      cases t <;> simp [Call.added, Tally.counter]
  · apply h.goesOn
    · rw [closes, hlabel]
      exact decide_eq_false ha
    · intro id hid
      by_cases hpid : id = p.announcementId
      · have hhere : announcement ev.after p.announcementId = some _ := hput.here
        rw [hpid, hhere]
        rfl
      · rwa [hother id hpid]
    · intro y hy
      rw [hother a fun h => ha h.symm] at hy
      exact Or.inl ⟨y, hy, rfl⟩
    · rw [hrows, hrecords]
      rfl
    · intro p' hp'
      cases hp'
    · intro hr
      rw [hrecords] at hr
      cases hr
    · exact fun _ => Ghost.noConfusion

end commit

/-- A row that has no notification and no failure counts nowhere. -/
theorem Tally.covers_unnamed {d : AnnouncementDelivery} (hunnamed : d.notificationId = none)
    (hreason : d.failureReason = none) : t.covers d = false := by
  cases t with
  | delivered => simp [Tally.covers, hunnamed]
  | failed => simp [Tally.covers, hreason]

theorem Tallied.commit {ev : Event Doc Call.Reply} (hev : ev.Sound machine)
    (hledger : Ledger ev.before γ) (h : Tallied a t log ev.before γ)
    (hallowed : (γ ev.thread).allowed ev.label) :
    Tallied a t (ev :: log) ev.after
      (Function.update γ ev.thread ((γ ev.thread).done ev.label ev.reply)) := by
  have hstep := call_step hev
  have hwaiting := Ghost.done_working (γ ev.thread) ev.label ev.reply
  generalize hg : γ ev.thread = g at hallowed hwaiting ⊢
  obtain ⟨j, label, base, env, began, ended, reply, view, before, after⟩ := ev
  change CallStep before after label reply at hstep
  change Ledger before γ at hledger
  change Tallied a t log before γ at h
  have none_idle : ∀ {p' : Progress} {q : Progress → Prop}, Ghost.idle.underway = some p' →
      ∃ p, (γ j).underway = some p ∧ q p := by
    intro p' q hp'
    cases hp'
  cases g with
  | idle =>
      cases hstep with
      | created hnew hput =>
          apply h.created hnew hput ?_ rfl ?_ rfl hwaiting
          · cases t with
            | delivered => exact hallowed.1
            | failed => exact hallowed.2
          · cases t <;> rfl
      | user hput =>
          apply h.apart hput (fun _ h => by cases h) (fun _ h => by cases h) rfl ?_ ?_ hwaiting
          · cases t <;> rfl
          · exact fun p' hp' => none_idle hp'
      | company hput =>
          apply h.apart hput (fun _ h => by cases h) (fun _ h => by cases h) rfl ?_ ?_ hwaiting
          · cases t <;> rfl
          · exact fun p' hp' => none_idle hp'
      | _ => exact hallowed.elim
  | waiting a => cases label <;> exact hallowed.elim
  | closed p => cases label <;> exact hallowed.elim
  | fanning p =>
      have hjob : (γ j).underway = some p := by
        rw [show γ j = .fanning p from hg]
        rfl
      cases hstep with
      | inserted hnew hput hfree =>
          obtain rfl := hallowed
          exact h.inserted rfl hjob hnew hput
      | completed hx hput =>
          obtain ⟨rfl, hdelivered, hfailed⟩ := hallowed
          exact h.completed rfl hdelivered hfailed hjob hx hput
      | uncompleted hnone hsame =>
          obtain ⟨rfl, -, -⟩ := hallowed
          have hfound := h.found j p hjob
          rw [hnone] at hfound
          cases hfound
      | _ => exact hallowed.elim
  | holding p c k undoing =>
      have hjob : (γ j).underway = some p := by
        rw [show γ j = .holding p c k undoing from hg]
        rfl
      have hk : (γ j).hold = some (p.announcementId, k) := by
        rw [show γ j = .holding p c k undoing from hg]
        rfl
      obtain ⟨d, hd, hnames, hunnamed, hreason⟩ := hledger.holding j _ k hk
      have huncovered : t.covers d = false := Tally.covers_unnamed hunnamed hreason
      cases hstep with
      | notified hnew hput =>
          apply h.apart hput (fun _ h => by cases h) (fun _ h => by cases h) rfl ?_ ?_ hwaiting
          · cases t <;> rfl
          · rintro p' ⟨rfl⟩
            exact ⟨p, hjob, rfl, rfl⟩
      | deleted hd' hput =>
          obtain ⟨rfl, -⟩ := hallowed
          have hrows := rows_put (a := a) (t := t) hput
          rw [weight_of_stored hd, weight_of_absent (delivery_put_self hput), huncovered] at hrows
          apply h.elsewhere rfl (announcement_put hput fun _ h => by cases h)
          · cases t <;> simpa [records, Call.records] using hrows
          · exact fun p' hp' => none_idle hp'
          · intro hr
            cases t <;> cases hr
          · exact hwaiting
      | undeleted hnone hsame =>
          obtain ⟨rfl, -⟩ := hallowed
          cases hnone.symm.trans hd
      | named hd' hput =>
          obtain ⟨rfl, -⟩ := hallowed
          cases hd'.symm.trans hd
          have hrows := rows_put (a := a) (t := t) hput
          rw [weight_of_stored hd, weight_of_stored (delivery_put_self hput), huncovered] at hrows
          apply h.elsewhere rfl (announcement_put hput fun _ h => by cases h)
          · cases t with
            | delivered => simpa [records, Call.records, Tally.covers, hd] using hrows
            | failed => simpa [records, Call.records, Tally.covers, hreason] using hrows
          · rintro p' ⟨rfl⟩
            refine ⟨p, hjob, rfl, fun ha => ?_⟩
            rw [Progress.count_add]
            cases t with
            | delivered => simp [Tally.outcome, records, Call.records, hd, hnames.1, ha]
            | failed => simp [Tally.outcome, records, Call.records]
          · intro hr
            refine ⟨p, hjob, ?_⟩
            cases t with
            | delivered =>
                simp only [records, Call.records, hd, Option.any_some, decide_eq_true_eq] at hr
                exact hnames.1.symm.trans hr
            | failed => cases hr
          · exact hwaiting
      | unnamed hnone hsame =>
          obtain ⟨rfl, -⟩ := hallowed
          cases hnone.symm.trans hd
      | _ => exact hallowed.elim

/-- The job has found its announcement, and has recorded nothing so far. -/
theorem Tallied.started {s : Store Doc} (h : Tallied a t log s γ) {j : ℕ} {a' : Id}
    (hwaiting : γ j = .waiting a') (hfound : (announcement s a').isSome = true) :
    Tallied a t log s (Function.update γ j (.fanning { announcementId := a' })) := by
  have hnone := h.unstarted j a' hwaiting
  apply h.update
  · rintro p ⟨rfl⟩
    exact hfound
  · rintro p ⟨rfl⟩ _
    constructor
    · symm
      apply List.countP_eq_zero.mpr
      intro ev hev
      simp [hnone ev hev]
    · apply List.any_eq_false.mpr
      intro ev hev
      simp [hnone ev hev]
  · intro a'' ha''
    cases ha''

theorem tallied_keeps : worker.Keeps machine (fun _ => True)
    fun log s γ => Ledger s γ ∧ Tallied a t log s γ where
  handlers := ledger_keeps.handlers
  failures := ledger_keeps.failures
  arrive {log s γ j q} h hidle hnew := by
    refine ⟨ledger_keeps.arrive h.1 hidle hnew, h.2.pause j ?_ fun _ _ => hnew⟩
    cases q <;> exact Or.inl rfl
  stop j h := ⟨h.1.update j (Or.inl rfl), h.2.pause j (Or.inl rfl) fun _ h => by cases h⟩
  read {log s γ} j h := by
    refine ⟨h.1.update j (Ghost.seen_hold _ _), ?_⟩
    change Tallied a t log s (Function.update γ j (Ghost.seen (γ j) s.docs))
    cases hg : γ j with
    | waiting a' =>
        simp only [Ghost.seen]
        split
        · exact h.2.pause j (Or.inl rfl) fun _ h => by cases h
        · rename_i x hx
          exact h.2.started hg (Option.isSome_iff_exists.mpr ⟨x, hx⟩)
    | _ =>
        rw [Ghost.seen, ← hg, Function.update_eq_self]
        · exact h.2
        · exact fun _ h => by cases h
  refuse {log s γ j l e} h hallowed hrefuses := by
    refine ⟨h.1.update j (Ghost.failed_hold _ _ _), ?_⟩
    change Tallied a t log s (Function.update γ j (Ghost.failed (γ j) l e))
    unfold Ghost.failed
    split
    · rename_i p a' c hg
      split_ifs
      · apply h.2.pause j (Or.inr ⟨p, p.add c .skipped, rfl, ?_, rfl, ?_⟩)
        · intro a'' ha''
          cases ha''
        · rw [hg]
          rfl
        · rw [Progress.count_add]
          cases t <;> rfl
      · exact h.2.pause j (Or.inl rfl) fun _ h => by cases h
    · rename_i p c k undoing n hg
      apply h.2.pause j (Or.inr ⟨p, p, rfl, ?_, rfl, rfl⟩)
      · intro a' ha'
        cases ha'
      · rw [hg]
        rfl
    · exact h.2.pause j (Or.inl rfl) fun _ h => by cases h
  commit hev _ h hallowed := ⟨h.1.commit hev hallowed, h.2.commit hev h.1 hallowed⟩

end run

theorem countP_and_eq_iff {α : Type} {p q : α → Bool} {l : List α} :
    l.countP (fun x => p x && q x) = l.countP p ↔ ∀ x ∈ l, p x = true → q x = true := by
  induction l with
  | nil => simp
  | cons x l ih =>
      have hle : l.countP (fun x => p x && q x) ≤ l.countP p := by
        apply List.countP_mono_left
        intro y _ hy
        exact (Bool.and_eq_true_iff.mp hy).1
      rw [List.forall_mem_cons, ← ih, List.countP_cons, List.countP_cons]
      cases hp : p x with
      | false => simp
      | true =>
          cases hq : q x with
          | false =>
              simp
              omega
          | true => simp

/-- The counters of an announcement are those of its rows if and only if every job that
has recorded something has come to its end. -/
theorem tallies_true {P : Event Doc Call.Reply → Prop} {log : List (Event Doc Call.Reply)}
    {s : Sys Doc Call.Reply HttpError Answer} {a : Id} {x : Announcement}
    (h : Run machine Store.empty P log s) (hx : announcement s.store a = some x) :
    (x.deliveredCount = Tally.delivered.rows a s.store ∧
        x.failedCount = Tally.failed.rows a s.store) ↔
      ∀ ev ∈ log, ∀ t, records a t ev = true → closedBy a log ev.thread = true := by
  have hrun : Run machine Store.empty (fun _ => True) log s := h.weaken fun _ _ _ => trivial
  have htally : ∀ t : Tally, t.counter x = t.rows a s.store ↔
      ∀ ev ∈ log, records a t ev = true → closedBy a log ev.thread = true := by
    intro t
    have hinit : Tallied a t [] (Store.empty : Store Doc) fun _ => .idle := by
      constructor
      · intro i p hp
        cases hp
      · intro i a' _ ev hev
        cases hev
      · intro _ ev hev
        cases hev
      · intro y hy
        cases hy
      · rfl
      · intro i p hp
        cases hp
      · rfl
    obtain ⟨γ, -, -, htallied⟩ := tallied_keeps.run hrun ⟨ledger_empty, hinit⟩
    rw [htallied.counter x hx, htallied.closed, htallied.rows, countP_and_eq_iff]
  rw [show x.deliveredCount = Tally.delivered.counter x from rfl,
    show x.failedCount = Tally.failed.counter x from rfl, htally, htally]
  constructor
  · rintro ⟨hdelivered, hfailed⟩ ev hev t
    cases t with
    | delivered => exact hdelivered ev hev
    | failed => exact hfailed ev hev
  · intro hall
    exact ⟨fun ev hev => hall ev hev .delivered, fun ev hev => hall ev hev .failed⟩

namespace Sample

/-- The first job stops when it has told its recipient, and a second one closes. -/
def uncounted : List (Act Request) :=
  announced ++ serving job 3 9 20 ++ [Act.stop 3] ++ serving job 4 7 30

end Sample

theorem tallies_untrue : ∃ log s x, Run machine Store.empty (fun _ => True) log s ∧
    (∀ t ∈ s.threads, t.prog.Ended) ∧ announcement s.store 10 = some x ∧ x.state = .completed ∧
      x.deliveredCount = 0 ∧ Tally.delivered.rows 10 s.store = 1 := by
  obtain ⟨log, s, hrun, htest⟩ := exists_run machine Store.empty (fun _ => True) Sample.uncounted
    (fun _ s => Sample.ended s && decide (Tally.delivered.rows 10 s.store = 1) &&
      (announcement s.store 10).any fun x => x.state = .completed && x.deliveredCount = 0)
    (by decide +kernel)
  simp only [Bool.and_eq_true, decide_eq_true_eq] at htest
  obtain ⟨⟨hended, hrows⟩, hcounter⟩ := htest
  obtain ⟨x, hx, hstate⟩ := (Option.any_eq_true _ _).mp hcounter
  simp only [Bool.and_eq_true, decide_eq_true_eq] at hstate
  exact ⟨log, s, x, hrun, Sample.ended_sound hended, hx, hstate.1, hstate.2, hrows⟩

theorem tallies_true_onlyJob : ∃ log s x, Run machine Store.empty (fun _ => True) log s ∧
    announcement s.store 10 = some x ∧ x.deliveredCount = Tally.delivered.rows 10 s.store ∧
      x.failedCount = Tally.failed.rows 10 s.store ∧ x.deliveredCount = 1 := by
  obtain ⟨log, s, hrun, htest⟩ := exists_run machine Store.empty (fun _ => True)
    (Sample.announced ++ Sample.onlyJob)
    (fun log s => ((announcement s.store 10).any fun x => x.deliveredCount = 1) &&
      log.all fun ev => (!records 10 .delivered ev && !records 10 .failed ev) ||
        closedBy 10 log ev.thread)
    (by decide +kernel)
  obtain ⟨hcounter, hclosed⟩ := Bool.and_eq_true_iff.mp htest
  obtain ⟨x, hx, hone⟩ := (Option.any_eq_true _ _).mp hcounter
  have hcounts := (tallies_true hrun hx).mpr fun ev hev t ht => by
    have hev' := List.all_eq_true.mp hclosed ev hev
    cases t <;> simpa [ht] using hev'
  exact ⟨log, s, x, hrun, hx, hcounts.1, hcounts.2, of_decide_eq_true hone⟩

end CiroFuel.Announcements
