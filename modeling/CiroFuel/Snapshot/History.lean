import CiroFuel.Snapshot.System

/-!
# The log as a history

The log of a run determines its store. A run can be cut at any commit: what came
before is a run, and what holds there and survives the commits that follow holds
at the end.
-/
namespace CiroFuel.Snapshot

variable {K X : Type} [DecidableEq K] [DecidableEq X] {D : K → Type} [Indexed D X]
variable {L : Type} {R : L → Type} {ε Q A : Type}
variable {M : Machine D R ε Q A} {init : Store D} {P : Event D R → Prop}
variable {log later earlier : List (Event D R)} {ev : Event D R} {s : Sys D R ε A}

/-- The store that a history leaves. -/
def leaves (init : Store D) : List (Event D R) → Store D
  | [] => init
  | ev :: _ => ev.after

theorem Run.leaves (h : Run M init P log s) : s.store = leaves init log := by
  induction h with
  | start => rfl
  | quiet _ step ih => rw [step.store, ih]
  | commit _ step _ _ => exact step.before.2.symm

/-- Without its latest commit a run is the run before it. -/
theorem Run.uncons (h : Run M init P (ev :: log) s) :
    ev.Sound M ∧ P ev ∧ ∃ s' : Sys D R ε A, Run M init P log s' ∧ s'.store = ev.before := by
  generalize hall : ev :: log = all at h
  induction h with
  | start => cases hall
  | quiet _ _ ih => exact ih hall
  | commit hrun step hP _ =>
      cases hall
      exact ⟨step.sound, hP, _, hrun, step.before.1.symm⟩

theorem Run.cut (h : Run M init P (later ++ earlier) s) :
    ∃ s' : Sys D R ε A, Run M init P earlier s' := by
  induction later generalizing s with
  | nil => exact ⟨s, h⟩
  | cons ev later ih =>
      obtain ⟨-, -, s', hrun, -⟩ := h.uncons
      exact ih hrun

/-- The run up to one of its commits. -/
theorem Run.upTo (h : Run M init P (later ++ ev :: earlier) s) :
    ev.Sound M ∧ P ev ∧ ∃ s' : Sys D R ε A, Run M init P earlier s' ∧ s'.store = ev.before := by
  obtain ⟨s', hrun⟩ := h.cut
  exact hrun.uncons

/-- What holds at some point and survives the commits that follow. -/
theorem Run.since {J : Store D → Prop} (h : Run M init P (later ++ earlier) s)
    (hJ : J (Snapshot.leaves init earlier))
    (hstep : ∀ ev ∈ later, ev.Sound M → P ev → J ev.before → J ev.after) : J s.store := by
  induction later generalizing s with
  | nil =>
      rw [h.leaves]
      exact hJ
  | cons ev later ih =>
      obtain ⟨hsound, hP, s', hrun, hbefore⟩ := h.uncons
      have hprev : J s'.store := ih hrun fun ev' hmem => hstep ev' (List.mem_cons_of_mem _ hmem)
      rw [h.leaves]
      apply hstep ev List.mem_cons_self hsound hP
      rwa [← hbefore]

/-- Every commit of a run is in its final log. -/
theorem Run.within (h : Run M init P log s) : Run M init (fun ev => P ev ∧ ev ∈ log) log s := by
  induction h with
  | start => exact .start
  | quiet _ step ih => exact ih.quiet step
  | @commit log _ last _ _ step hP ih =>
      have hlonger : ∀ ev, ev.Sound M → P ev ∧ ev ∈ log → P ev ∧ ev ∈ last :: log :=
        fun ev _ hev => ⟨hev.1, List.mem_cons_of_mem _ hev.2⟩
      exact (ih.weaken hlonger).commit step ⟨hP, List.mem_cons_self⟩

end CiroFuel.Snapshot
