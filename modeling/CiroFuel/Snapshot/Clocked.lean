import CiroFuel.Snapshot.System

/-!
# Facts about the store and the time

Time only passes, so a fact about the store that later instants preserve can be
carried through a run together with the clock. A snapshot then satisfies it at
the instant it was taken, which is no later than any clock reading of the call
that runs on it.
-/
namespace CiroFuel.Snapshot

variable {K X : Type} [DecidableEq K] [DecidableEq X] {D : K → Type} [Indexed D X]
variable {L : Type} {R : L → Type} {ε Q A : Type}
variable {M : Machine D R ε Q A} {init : Store D} {P : Event D R → Prop}
variable {log : List (Event D R)} {s s' : Sys D R ε A}

/-- The store and every pending snapshot satisfy `T` at their instants. -/
structure TimedOk (T : Store D → ℕ → Prop) (s : Sys D R ε A) : Prop where
  now : T s.store s.clock
  snapshots : ∀ t ∈ s.threads, ∀ p, t.pending = some p → T p.base p.began ∧ p.began ≤ s.clock

section steps
variable {T : Store D → ℕ → Prop}

theorem TimedOk.set {i : ℕ} {t : Thread D R ε A} (h : TimedOk T s)
    (ht : ∀ p, t.pending = some p → T p.base p.began ∧ p.began ≤ s.clock) :
    TimedOk T (s.set i t) := by
  constructor
  · exact h.now
  · intro u hu
    rcases List.mem_or_eq_of_mem_set hu with hmem | rfl
    · exact h.snapshots u hmem
    · exact ht

theorem TimedOk.quiet (mono : ∀ s c c', T s c → c ≤ c' → T s c') (h : TimedOk T s)
    (step : Quiet M s s') : TimedOk T s' := by
  have idle : ∀ {i : ℕ} {p : Prog D R ε A}, TimedOk T (s.set i { prog := p }) :=
    h.set fun p hp => by cases hp
  cases step with
  | arrive q hq =>
      constructor
      · exact h.now
      · intro t ht
        rcases List.mem_append.mp ht with hold | hnew
        · exact h.snapshots t hold
        · rw [List.mem_singleton.mp hnew]
          intro p hp
          cases hp
  | tick n =>
      constructor
      · exact mono _ _ _ h.now (Nat.le_add_right _ _)
      · intro t ht p hp
        obtain ⟨hbase, hle⟩ := h.snapshots t ht p hp
        exact ⟨hbase, hle.trans (Nat.le_add_right _ _)⟩
  | stop i => exact idle
  | read i ht => exact idle
  | clock i ht => exact idle
  | outside i b ht => exact idle
  | begin i ht =>
      apply h.set
      intro p hp
      cases hp
      exact ⟨h.now, le_rfl⟩
  | refuse i env ht hclock hrun => exact idle
  | unavailable i ht => exact idle

/-- What a commit meets: its snapshot when it was taken, and the store now. -/
theorem TimedOk.event {ev : Event D R} (mono : ∀ s c c', T s c → c ≤ c' → T s c')
    (h : TimedOk T s) (step : Commits M s ev s') :
    T ev.base ev.ended ∧ T ev.before ev.ended ∧ ev.began ≤ ev.ended ∧
      (M.isolated ev.label = true → T ev.base ev.began) := by
  cases step with
  | @commit i l next p a v after env ht hclock hrun hcommit =>
      obtain ⟨hbase, hle⟩ := h.snapshots _ (List.mem_of_getElem? ht) p rfl
      have hseen : T (M.seen l p.base s.store) s.clock := by
        unfold Machine.seen
        split_ifs
        · exact mono _ _ _ hbase hle
        · exact h.now
      refine ⟨hseen, h.now, hle, fun hiso => ?_⟩
      have hiso' : M.isolated l = true := hiso
      simp only [Machine.seen, hiso', if_true]
      exact hbase

end steps

/-- Adds a fact about store and time to a run. -/
theorem Run.timed (T : Store D → ℕ → Prop) (mono : ∀ s c c', T s c → c ≤ c' → T s c')
    (hinit : T init 0)
    (keep : ∀ ev, ev.Sound M → P ev → T ev.base ev.ended → T ev.before ev.ended →
      ev.began ≤ ev.ended → (M.isolated ev.label = true → T ev.base ev.began) →
      T ev.after ev.ended)
    (h : Run M init P log s) :
    T s.store s.clock ∧
      Run M init (fun ev => P ev ∧ ev.began ≤ ev.ended ∧
        (M.isolated ev.label = true → T ev.base ev.began)) log s := by
  have hall : TimedOk T s ∧ Run M init (fun ev => P ev ∧ ev.began ≤ ev.ended ∧
      (M.isolated ev.label = true → T ev.base ev.began)) log s := by
    induction h with
    | start => exact ⟨⟨hinit, fun t ht => by cases ht⟩, .start⟩
    | quiet _ step ih => exact ⟨ih.1.quiet mono step, ih.2.quiet step⟩
    | commit _ step hP ih =>
        obtain ⟨hbase, hbefore, hle, hiso⟩ := ih.1.event mono step
        have hafter := keep _ step.sound hP hbase hbefore hle hiso
        have hrun := ih.2.commit step ⟨hP, hle, hiso⟩
        cases step with
        | @commit i l next p a v after env ht hclock hrun' hcommit =>
            have hset := ih.1.set (i := i) (t := { prog := next (.ok a) }) fun p hp => by cases hp
            exact ⟨⟨hafter, hset.snapshots⟩, hrun⟩
  exact ⟨hall.1.now, hall.2⟩

end CiroFuel.Snapshot
