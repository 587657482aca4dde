import CiroFuel.Snapshot.System

/-!
# Handlers that run alone

Beside no other handler, a handler is a function of what its surroundings
answer: the clock, the environment of each call and the result of each effect
outside the store. It may stop after any of its steps. Whatever it does alone is
a run of the system. A transaction on its own snapshot conflicts with nothing,
so only its body can refuse it; `Returns` collects when bodies do not.
-/
namespace CiroFuel.Snapshot

/-! ### Bodies that return -/

namespace Tx
variable {K X : Type} [DecidableEq K] [DecidableEq X] {D : K → Type} [Indexed D X]
variable {ε α β : Type} {env : Env} {v : View D}

/-- The body, run on the view, does not throw. -/
def Returns (env : Env) (tx : Tx D ε α) (v : View D) : Prop := ∃ a w, tx.run env v = .ok (a, w)

theorem Returns.bind {tx : Tx D ε α} {f : α → Tx D ε β} (h : Returns env tx v)
    (hf : ∀ a u, tx.run env v = .ok (a, u) → Returns env (f a) u) : Returns env (tx >>= f) v := by
  obtain ⟨a, u, hrun⟩ := h
  obtain ⟨b, w, hrest⟩ := hf a u hrun
  refine ⟨b, w, ?_⟩
  rw [run_bind, hrun]
  exact hrest

theorem returns_pure (a : α) : Returns env (pure a : Tx D ε α) v := ⟨a, v, rfl⟩

theorem returns_scan : Returns env (scan : Tx D ε _) v := ⟨_, v, rfl⟩

theorem returns_getTime : Returns env (getTime : Tx D ε _) v := ⟨_, _, rfl⟩

theorem returns_freshId : Returns env (freshId : Tx D ε _) v := ⟨_, _, rfl⟩

theorem returns_insert {k : K} {x : D k} (hnone : v.find k = none)
    (hfit : v.docs.fits k x = true) : Returns env (insert k x : Tx D ε _) v := by
  have hlookup : v.docs.lookup k = none := hnone
  refine ⟨(), v.put k x, ?_⟩
  simp [insert, run, hlookup, hfit]

theorem returns_upsert {k : K} {x : D k} {f : D k → D k}
    (hfit : v.docs.fits k (f ((v.find k).getD x)) = true) :
    Returns env (upsert k x f : Tx D ε _) v := by
  have hfit' : v.docs.fits k (f ((v.docs.lookup k).getD x)) = true := hfit
  refine ⟨(), v.put k (f ((v.docs.lookup k).getD x)), ?_⟩
  simp [upsert, run, hfit']

/-- An update that keeps the index entries cannot fail. -/
theorem returns_findOneAndUpdate {k : K} {p : D k → Bool} {f : D k → D k}
    (hfit : ∀ x, v.find k = some x → p x = true → v.docs.fits k (f x) = true) :
    Returns env (findOneAndUpdate k p f : Tx D ε _) v := by
  cases hx : v.docs.lookup k with
  | none => exact ⟨none, v, by simp [findOneAndUpdate, run, hx]⟩
  | some x =>
      by_cases hp : p x = true
      · refine ⟨some (f x), v.put k (f x), ?_⟩
        simp [findOneAndUpdate, run, hx, hp, hfit x hx hp]
      · exact ⟨none, v, by simp [findOneAndUpdate, run, hx, hp]⟩

end Tx

variable {K X : Type} [DecidableEq K] [DecidableEq X] {D : K → Type} [Indexed D X]
variable {L : Type} {R : L → Type} {ε Q A B C : Type}

/-! ### Calls -/

/-- A call made with nothing beside it. -/
def Machine.attempt (M : Machine D R ε Q A) (l : L) (env : Env) (s : Store D) :
    Except (Failure ε) (R l × Store D) :=
  match (M.body l).run env (View.start s.docs) with
  | .error e => .error e
  | .ok (a, v) =>
      match Store.commit s s v.writes with
      | some s' => .ok (a, s')
      | none => .error .unavailable

/-- What a body has written commits to its own snapshot. -/
theorem Store.commit_self {s : Store D} {v : View D} (hover : View.Over s.docs v)
    (huniq : v.docs.Unique) :
    ∃ s', Store.commit s s v.writes = some s' ∧ ∀ k, s'.find k = v.find k := by
  have hsame : ∀ k, (v.writes.overwrite s.docs).lookup k = v.find k := by
    intro k
    by_cases hk : k ∈ v.writes
    · rw [Docs.lookup_overwrite_left hk, hover.written k hk]
    · rw [Docs.lookup_overwrite_right hk, hover.unwritten k hk]
  have hfits : ∀ e ∈ v.writes.entries, Docs.fits (v.writes.overwrite s.docs) e.1 e.2 = true := by
    intro e he
    have hwritten : v.find e.1 = some e.2 := by
      rw [hover.written e.1 (AList.mem_keys.mpr (List.mem_map_of_mem he))]
      exact AList.mem_lookup_iff.mpr he
    refine Docs.fits_complete fun k x i hx hi hi' => ?_
    exact huniq k e.1 x e.2 i ((hsame k).symm.trans hx) hwritten hi' hi
  have hok : (∀ k ∈ v.writes.keys, s.version k = s.version k) ∧
      ∀ e ∈ v.writes.entries, Docs.fits (v.writes.overwrite s.docs) e.1 e.2 = true := ⟨fun _ _ => rfl, hfits⟩
  refine ⟨_, dif_pos hok, fun k => ?_⟩
  exact hsame k

theorem Machine.attempt_ok {M : Machine D R ε Q A} {l : L} {env : Env} {s : Store D} {a : R l}
    {v : View D} (h : (M.body l).run env (View.start s.docs) = .ok (a, v)) :
    ∃ s', M.attempt l env s = .ok (a, s') ∧ ∀ k, s'.find k = v.find k := by
  have hover := Tx.run_over (View.over_start _) h
  have huniq : v.docs.Unique := Tx.run_unique (v := View.start s.docs) s.unique h
  obtain ⟨s', hcommit, hsame⟩ := Store.commit_self hover huniq
  exact ⟨s', by simp [Machine.attempt, h, hcommit], hsame⟩

theorem Machine.attempt_error {M : Machine D R ε Q A} {l : L} {env : Env} {s : Store D}
    {e : Failure ε} (h : (M.body l).run env (View.start s.docs) = .error e) :
    M.attempt l env s = .error e := by
  simp [Machine.attempt, h]

/-! ### Handlers -/

/-- What a handler meets at each of its steps. -/
structure World where
  clock : ℕ → ℕ
  env : ℕ → Env
  answer : ℕ → Bool

/-- The clock does not run backwards, and each call takes place within its step. -/
structure World.Timely (w : World) : Prop where
  clock : Monotone w.clock
  env : ∀ n, (w.env n).Within (w.clock n) (w.clock (n + 1))

namespace Prog

/-- The result of the handler, the number of the next step, and the store it leaves. -/
def alone (M : Machine D R ε Q C) (w : World) :
    Prog D R ε A → ℕ → Store D → Except (Failure ε) A × ℕ × Store D
  | .pure a, n, s => (.ok a, n, s)
  | .fail e, n, s => (.error e, n, s)
  | .read next, n, s => alone M w (next s.docs) (n + 1) s
  | .clock next, n, s => alone M w (next (w.clock n)) (n + 1) s
  | .outside next, n, s => alone M w (next (w.answer n)) (n + 1) s
  | .call l next, n, s =>
      match M.attempt l (w.env n) s with
      | .ok (a, s') => alone M w (next (.ok a)) (n + 1) s'
      | .error e => alone M w (next (.error e)) (n + 1) s

/-- One step of the handler; a handler that is done stays as it is. -/
def advance (M : Machine D R ε Q C) (w : World) (n : ℕ) (s : Store D) :
    Prog D R ε A → Prog D R ε A × Store D
  | .pure a => (.pure a, s)
  | .fail e => (.fail e, s)
  | .read next => (next s.docs, s)
  | .clock next => (next (w.clock n), s)
  | .outside next => (next (w.answer n), s)
  | .call l next =>
      match M.attempt l (w.env n) s with
      | .ok (a, s') => (next (.ok a), s')
      | .error e => (next (.error e), s)

/-- The store that the handler leaves when it stops after `m` more steps. -/
def stopped (M : Machine D R ε Q C) (w : World) : ℕ → Prog D R ε A → ℕ → Store D → Store D
  | 0, _, _, s => s
  | m + 1, p, n, s => stopped M w m (p.advance M w n s).1 (n + 1) (p.advance M w n s).2

/-- A handler that is done. -/
def ofResult : Except (Failure ε) A → Prog D R ε A
  | .ok a => .pure a
  | .error e => .fail e

section alone
variable {M : Machine D R ε Q C} {w : World} {n m : ℕ} {s s' : Store D}

theorem alone_bind {p : Prog D R ε A} {f : A → Prog D R ε B} :
    (p >>= f).alone M w n s =
      match p.alone M w n s with
      | (.ok a, n', s') => (f a).alone M w n' s'
      | (.error e, n', s') => (.error e, n', s') := by
  change (Prog.bind p f).alone M w n s = _
  induction p generalizing n s with
  | pure a => rfl
  | fail e => rfl
  | read next ih => exact ih _
  | clock next ih => exact ih _
  | outside next ih => exact ih _
  | call l next ih =>
      simp only [Prog.bind, alone]
      split
      · exact ih _
      · exact ih _

theorem alone_bind_ok {p : Prog D R ε A} {f : A → Prog D R ε B} {a : A}
    (h : p.alone M w n s = (.ok a, m, s')) :
    (p >>= f).alone M w n s = (f a).alone M w m s' := by
  rw [alone_bind, h]

/-- A part that fails is the end of the handler. -/
theorem alone_bind_error {p : Prog D R ε A} {f : A → Prog D R ε B} {e : Failure ε}
    (h : (p.alone M w n s).1 = .error e) : ((p >>= f).alone M w n s).1 = .error e := by
  rw [alone_bind]
  split
  · rename_i hp
    rw [hp] at h
    cases h
  · rename_i hp
    rw [hp] at h
    exact congrArg Except.error (Except.error.inj h)

theorem alone_bind_inv {p : Prog D R ε A} {f : A → Prog D R ε B} {b : B}
    (h : (p >>= f).alone M w n s = (.ok b, m, s')) :
    ∃ a k s₁, p.alone M w n s = (.ok a, k, s₁) ∧ (f a).alone M w k s₁ = (.ok b, m, s') := by
  rw [alone_bind] at h
  split at h
  · rename_i hp
    exact ⟨_, _, _, hp, h⟩
  · cases h

/-- A handler that only reads leaves the store. -/
theorem alone_callFree {p : Prog D R ε A} (hp : p.CallFree) : (p.alone M w n s).2.2 = s := by
  induction p generalizing n with
  | pure a => rfl
  | fail e => rfl
  | read next ih => exact ih _ (hp _)
  | clock next ih => exact ih _ (hp _)
  | outside next ih => exact ih _ (hp _)
  | call l next ih => exact hp.1.elim

@[simp] theorem alone_pure (a : A) : (pure a : Prog D R ε A).alone M w n s = (.ok a, n, s) := rfl

@[simp] theorem alone_throw (e : ε) :
    (throw e : Prog D R ε A).alone M w n s = (.error (.thrown e), n, s) := rfl

@[simp] theorem alone_find (k : K) :
    (find k : Prog D R ε _).alone M w n s = (.ok (s.find k), n + 1, s) := rfl

@[simp] theorem alone_scan :
    (scan : Prog D R ε _).alone M w n s = (.ok s.docs, n + 1, s) := rfl

theorem advance_ok {l : L} {next : Except (Failure ε) (R l) → Prog D R ε A} {a : R l}
    (h : M.attempt l (w.env n) s = .ok (a, s')) :
    (Prog.call l next).advance M w n s = (next (.ok a), s') := by
  simp [advance, h]

theorem advance_error {l : L} {next : Except (Failure ε) (R l) → Prog D R ε A} {e : Failure ε}
    (h : M.attempt l (w.env n) s = .error e) :
    (Prog.call l next).advance M w n s = (next (.error e), s) := by
  simp [advance, h]

theorem alone_attempt_ok {l : L} {a : R l} (h : M.attempt l (w.env n) s = .ok (a, s')) :
    (attempt l : Prog D R ε _).alone M w n s = (.ok (.ok a), n + 1, s') := by
  simp [attempt, alone, h]

theorem alone_attempt_error {l : L} {e : Failure ε} (h : M.attempt l (w.env n) s = .error e) :
    (attempt l : Prog D R ε (Except (Failure ε) (R l))).alone M w n s =
      (.ok (.error e), n + 1, s) := by
  simp [attempt, alone, h]

theorem alone_perform_ok {l : L} {a : R l} (h : M.attempt l (w.env n) s = .ok (a, s')) :
    (perform l : Prog D R ε _).alone M w n s = (.ok a, n + 1, s') := by
  simp [perform, alone, h]

theorem alone_perform_inv {l : L} {a : R l}
    (h : (perform l : Prog D R ε _).alone M w n s = (.ok a, m, s')) :
    ∃ v, (M.body l).run (w.env n) (View.start s.docs) = .ok (a, v) := by
  cases hbody : (M.body l).run (w.env n) (View.start s.docs) with
  | error e => simp [perform, alone, Machine.attempt_error hbody] at h
  | ok r =>
      obtain ⟨b, v⟩ := r
      obtain ⟨s₁, hattempt, -⟩ := Machine.attempt_ok hbody
      rw [alone_perform_ok hattempt] at h
      cases h
      exact ⟨v, rfl⟩

/-! ### Stopping -/

@[simp] theorem stopped_pure (a : A) : (pure a : Prog D R ε A).stopped M w m n s = s := by
  induction m generalizing n with
  | zero => rfl
  | succ m ih => exact ih

@[simp] theorem stopped_fail (e : Failure ε) : (fail e : Prog D R ε A).stopped M w m n s = s := by
  induction m generalizing n with
  | zero => rfl
  | succ m ih => exact ih

theorem stopped_find (k : K) (f : Option (D k) → Prog D R ε A) :
    (find k >>= f).stopped M w (m + 1) n s = (f (s.find k)).stopped M w m (n + 1) s := rfl

theorem stopped_attempt_ok {l : L} {f : Except (Failure ε) (R l) → Prog D R ε A} {a : R l}
    (h : M.attempt l (w.env n) s = .ok (a, s')) :
    (attempt l >>= f).stopped M w (m + 1) n s = (f (.ok a)).stopped M w m (n + 1) s' := by
  change ((Prog.call l fun r => f r).stopped M w (m + 1) n s) = _
  rw [stopped, advance_ok h]

theorem stopped_attempt_error {l : L} {f : Except (Failure ε) (R l) → Prog D R ε A}
    {e : Failure ε} (h : M.attempt l (w.env n) s = .error e) :
    (attempt l >>= f).stopped M w (m + 1) n s = (f (.error e)).stopped M w m (n + 1) s := by
  change ((Prog.call l fun r => f r).stopped M w (m + 1) n s) = _
  rw [stopped, advance_error h]

theorem stopped_perform_ok {l : L} {f : R l → Prog D R ε A} {a : R l}
    (h : M.attempt l (w.env n) s = .ok (a, s')) :
    (perform l >>= f).stopped M w (m + 1) n s = (f a).stopped M w m (n + 1) s' := by
  change ((Prog.call l fun r => ofResult r >>= f).stopped M w (m + 1) n s) = _
  rw [stopped, advance_ok h]
  rfl

theorem stopped_callFree {p : Prog D R ε A} (hp : p.CallFree) : p.stopped M w m n s = s := by
  induction p generalizing m n with
  | pure a => exact stopped_pure a
  | fail e => exact stopped_fail e
  | read next ih => cases m with
    | zero => rfl
    | succ m => exact ih _ (hp _)
  | clock next ih => cases m with
    | zero => rfl
    | succ m => exact ih _ (hp _)
  | outside next ih => cases m with
    | zero => rfl
    | succ m => exact ih _ (hp _)
  | call l next ih => exact hp.1.elim

theorem stopped_advance {p p' : Prog D R ε A} {k : ℕ} (hadvance : p.advance M w n s = (p', s'))
    (hk : ∀ m, k ≤ m → p'.stopped M w m (n + 1) s' = (p.alone M w n s).2.2) :
    ∀ m, k + 1 ≤ m → p.stopped M w m n s = (p.alone M w n s).2.2 := by
  intro m hm
  obtain ⟨j, rfl⟩ : ∃ j, m = j + 1 := ⟨m - 1, by omega⟩
  rw [stopped, hadvance]
  exact hk j (by omega)

/-- A handler that is given enough steps completes. -/
theorem stopped_alone (p : Prog D R ε A) (n : ℕ) (s : Store D) :
    ∃ k, ∀ m, k ≤ m → p.stopped M w m n s = (p.alone M w n s).2.2 := by
  induction p generalizing n s with
  | pure a => exact ⟨0, fun m _ => stopped_pure a⟩
  | fail e => exact ⟨0, fun m _ => stopped_fail e⟩
  | read next ih =>
      obtain ⟨k, hk⟩ := ih s.docs (n + 1) s
      exact ⟨k + 1, stopped_advance rfl hk⟩
  | clock next ih =>
      obtain ⟨k, hk⟩ := ih (w.clock n) (n + 1) s
      exact ⟨k + 1, stopped_advance rfl hk⟩
  | outside next ih =>
      obtain ⟨k, hk⟩ := ih (w.answer n) (n + 1) s
      exact ⟨k + 1, stopped_advance rfl hk⟩
  | call l next ih =>
      cases hattempt : M.attempt l (w.env n) s with
      | ok r =>
          obtain ⟨k, hk⟩ := ih (.ok r.1) (n + 1) r.2
          refine ⟨k + 1, stopped_advance (advance_ok hattempt) fun m hm => ?_⟩
          rw [hk m hm, alone, hattempt]
      | error e =>
          obtain ⟨k, hk⟩ := ih (.error e) (n + 1) s
          refine ⟨k + 1, stopped_advance (advance_error hattempt) fun m hm => ?_⟩
          rw [hk m hm, alone, hattempt]

end alone

end Prog

/-! ### Runs -/

section runs
variable {M : Machine D R ε Q A} {init : Store D} {P : Event D R → Prop} {w : World}
variable {log : List (Event D R)} {s : Sys D R ε A} {i n : ℕ}

@[simp] theorem Machine.seen_self (l : L) (s : Store D) : M.seen l s s = s := by
  unfold Machine.seen
  split_ifs <;> rfl

theorem Sys.set_thread (t' : Thread D R ε A) {t : Thread D R ε A} (ht : s.threads[i]? = some t) :
    (s.set i t').threads[i]? = some t' := by
  obtain ⟨hi, -⟩ := List.getElem?_eq_some_iff.mp ht
  simp [Sys.set, hi]

/-- Where a run is after one of its handlers has made a step. -/
def After (M : Machine D R ε Q A) (init : Store D) (P : Event D R → Prop) (i t : ℕ)
    (p : Prog D R ε A) (store : Store D) : Prop :=
  ∃ log s, Run M init P log s ∧ s.store = store ∧ s.threads[i]? = some ⟨p, none⟩ ∧ s.clock ≤ t

/-- A step that a handler makes alone is a step, or a few, of the system. -/
theorem After.advance (hP : ∀ ev, P ev) (hw : w.Timely) {p : Prog D R ε A} {store : Store D}
    (h : After M init P i (w.clock n) p store) :
    After M init P i (w.clock (n + 1)) (p.advance M w n store).1 (p.advance M w n store).2 := by
  obtain ⟨log, s, hrun, rfl, ht, hc⟩ := h
  have hnext : w.clock n ≤ w.clock (n + 1) := hw.clock (Nat.le_succ n)
  cases p with
  | pure a => exact ⟨log, s, hrun, rfl, ht, hc.trans hnext⟩
  | fail e => exact ⟨log, s, hrun, rfl, ht, hc.trans hnext⟩
  | read next => exact ⟨log, _, hrun.quiet (.read i ht), rfl, Sys.set_thread _ ht, hc.trans hnext⟩
  | outside next =>
      exact ⟨log, _, hrun.quiet (.outside i _ ht), rfl, Sys.set_thread _ ht, hc.trans hnext⟩
  | clock next =>
      have htick := hrun.quiet (.tick (w.clock n - s.clock))
      have hclock : s.clock + (w.clock n - s.clock) = w.clock n := by omega
      have hread := htick.quiet (.clock i ht)
      refine ⟨log, _, hread, rfl, ?_, by simpa [Sys.set, hclock] using hnext⟩
      rw [Sys.set_thread (s := { s with clock := s.clock + (w.clock n - s.clock) }) _ ht, hclock]
      rfl
  | call l next =>
      -- The snapshot is taken when the step begins, and the call ends with the step.
      have htick := hrun.quiet (.tick (w.clock n - s.clock))
      have hclock : s.clock + (w.clock n - s.clock) = w.clock n := by omega
      rw [hclock] at htick
      have hbegin := htick.quiet (.begin i ht)
      have hended := hbegin.quiet (.tick (w.clock (n + 1) - w.clock n))
      have hclock' : w.clock n + (w.clock (n + 1) - w.clock n) = w.clock (n + 1) := by omega
      have hthread := Sys.set_thread (s := { s with clock := w.clock n })
        ⟨.call l next, some ⟨s.store, w.clock n⟩⟩ ht
      have hwithin : (w.env n).Within (w.clock n) (w.clock n + (w.clock (n + 1) - w.clock n)) := by
        rw [hclock']
        exact hw.env n
      cases hbody : (M.body l).run (w.env n) (View.start s.store.docs) with
      | error e =>
          rw [Prog.advance_error (Machine.attempt_error hbody)]
          rw [← M.seen_self l s.store] at hbody
          have hrefuse := hended.quiet (.refuse i (w.env n) hthread hwithin hbody)
          exact ⟨log, _, hrefuse, rfl, Sys.set_thread _ hthread, hclock'.le⟩
      | ok r =>
          obtain ⟨a, v⟩ := r
          obtain ⟨s', hcommit, -⟩ := Store.commit_self (Tx.run_over (View.over_start _) hbody)
            (Tx.run_unique (v := View.start s.store.docs) s.store.unique hbody)
          have hattempt : M.attempt l (w.env n) s.store = .ok (a, s') := by
            simp [Machine.attempt, hbody, hcommit]
          rw [Prog.advance_ok hattempt]
          have hcommit' : Store.commit (M.seen l s.store s.store) s.store v.writes = some s' := by
            rwa [M.seen_self]
          rw [← M.seen_self l s.store] at hbody
          have hdone := hended.commit (.commit i (w.env n) hthread hwithin hbody hcommit') (hP _)
          exact ⟨_, _, hdone, rfl, Sys.set_thread _ hthread, hclock'.le⟩

/-- What a handler does alone, the system can do. -/
theorem After.alone (hP : ∀ ev, P ev) (hw : w.Timely) {p : Prog D R ε A} {store : Store D}
    (h : After M init P i (w.clock n) p store) :
    After M init P i (w.clock (p.alone M w n store).2.1) (.ofResult (p.alone M w n store).1)
      (p.alone M w n store).2.2 := by
  have hstep := h.advance hP hw
  induction p generalizing n store with
  | pure a => exact h
  | fail e => exact h
  | read next ih => exact ih _ hstep (hstep.advance hP hw)
  | clock next ih => exact ih _ hstep (hstep.advance hP hw)
  | outside next ih => exact ih _ hstep (hstep.advance hP hw)
  | call l next ih =>
      rw [Prog.alone]
      cases hattempt : M.attempt l (w.env n) store with
      | ok r =>
          rw [Prog.advance_ok hattempt] at hstep
          exact ih _ hstep (hstep.advance hP hw)
      | error e =>
          rw [Prog.advance_error hattempt] at hstep
          exact ih _ hstep (hstep.advance hP hw)

/-- So can a handler that stops on its way. -/
theorem After.stopped (hP : ∀ ev, P ev) (hw : w.Timely) (m : ℕ) {p : Prog D R ε A}
    {store : Store D} (h : After M init P i (w.clock n) p store) :
    ∃ log s, Run M init P log s ∧ s.store = p.stopped M w m n store ∧ s.clock ≤ w.clock (n + m) := by
  induction m generalizing p n store with
  | zero =>
      obtain ⟨log, s, hrun, hstore, -, hc⟩ := h
      exact ⟨log, s, hrun, hstore, hc⟩
  | succ m ih =>
      obtain ⟨log, s, hrun, hstore, hc⟩ := ih (h.advance hP hw)
      refine ⟨log, s, hrun, hstore, ?_⟩
      rwa [show n + (m + 1) = n + 1 + m by omega]

end runs
end CiroFuel.Snapshot
