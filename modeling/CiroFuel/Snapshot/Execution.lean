import CiroFuel.Snapshot.Discipline

/-!
# Executable schedules

A schedule lists what happens next: a request arrives, time passes, a handler
stops, or a handler takes its next step. Playing a schedule computes the commits
and the final system, and what it computes is a run. Schedules exhibit runs; no
general fact is proved from one.
-/
namespace CiroFuel.Snapshot

variable {K X : Type} [DecidableEq K] [DecidableEq X] {D : K → Type} [Indexed D X]
variable {L : Type} {R : L → Type} {ε Q A : Type}

/-- A stopped clock and consecutive identifiers. -/
def Env.frozen (t firstId : ℕ) : Env := ⟨fun _ => t, fun i => firstId + i⟩

theorem Env.frozen_within {lo hi t n : ℕ} (hlo : lo ≤ t) (hhi : t ≤ hi) :
    (Env.frozen t n).Within lo hi := ⟨fun _ _ _ => le_rfl, fun _ => ⟨hlo, hhi⟩⟩

inductive Act (Q : Type) where
  | arrive (q : Q)
  | tick (n : ℕ)
  | stop (i : ℕ)
  | step (i : ℕ) (answer : Bool := true) (firstId : ℕ := 0)

/-- A request arrives as thread `i`, which then takes `n` steps. -/
def serving {Q : Type} (q : Q) (i n : ℕ) (firstId : ℕ := 0) : List (Act Q) :=
  .arrive q :: List.replicate n (.step i true firstId)

/-- The next step of a begun call: commit, throw, or begin again after a conflict. -/
def settle (M : Machine D R ε Q A) (s : Sys D R ε A) (i firstId : ℕ) (l : L)
    (next : Except (Failure ε) (R l) → Prog D R ε A) (p : Pending D) :
    Option (Option (Event D R) × Sys D R ε A) :=
  if p.began ≤ s.clock then
    match (M.body l).run (Env.frozen s.clock firstId)
        (View.start (M.seen l p.base s.store).docs) with
    | .error e => some (none, s.set i { prog := next (.error e) })
    | .ok (a, v) =>
        match Store.commit (M.seen l p.base s.store) s.store v.writes with
        | none => some (none, s.set i { prog := .call l next, pending := some ⟨s.store, s.clock⟩ })
        | some after =>
            some (some { thread := i, label := l, base := M.seen l p.base s.store,
                         env := Env.frozen s.clock firstId, began := p.began, ended := s.clock,
                         reply := a, view := v, before := s.store, after := after },
              { (s.set i { prog := next (.ok a) }) with store := after })
  else none

def act (M : Machine D R ε Q A) (s : Sys D R ε A) :
    Act Q → Option (Option (Event D R) × Sys D R ε A)
  | .arrive q =>
      if M.admits q s.store.docs s.clock then
        some (none, { s with threads := s.threads ++ [{ prog := M.handle q }] })
      else none
  | .tick n => some (none, { s with clock := s.clock + n })
  | .stop i => some (none, s.set i { prog := .fail .unavailable })
  | .step i answer firstId =>
      match s.threads[i]? with
      | some ⟨.read next, _⟩ => some (none, s.set i { prog := next s.store.docs })
      | some ⟨.clock next, _⟩ => some (none, s.set i { prog := next s.clock })
      | some ⟨.outside next, _⟩ => some (none, s.set i { prog := next answer })
      | some ⟨.call l next, none⟩ =>
          some (none, s.set i { prog := .call l next, pending := some ⟨s.store, s.clock⟩ })
      | some ⟨.call l next, some p⟩ => settle M s i firstId l next p
      | _ => none

/-- Plays a schedule; the commits come latest first. -/
def play (M : Machine D R ε Q A) : List (Act Q) → List (Event D R) → Sys D R ε A →
    Option (List (Event D R) × Sys D R ε A)
  | [], log, s => some (log, s)
  | a :: as, log, s =>
      match act M s a with
      | some (none, s') => play M as log s'
      | some (some ev, s') => play M as (ev :: log) s'
      | none => none

section sound
variable {M : Machine D R ε Q A} {init : Store D} {s s' : Sys D R ε A}

theorem settle_sound {i n : ℕ} {l : L} {next : Except (Failure ε) (R l) → Prog D R ε A}
    {p : Pending D} (ht : s.threads[i]? = some ⟨.call l next, some p⟩) :
    (settle M s i n l next p = some (none, s') → Quiet M s s') ∧
    ∀ ev, settle M s i n l next p = some (some ev, s') → Commits M s ev s' := by
  unfold settle
  split_ifs with hclock
  · have hwithin := Env.frozen_within (n := n) hclock le_rfl
    split
    · rename_i hrun
      refine ⟨fun h => ?_, fun ev h => by cases h⟩
      cases h
      exact .refuse i _ ht hwithin hrun
    · rename_i hrun
      split
      · refine ⟨fun h => ?_, fun ev h => by cases h⟩
        cases h
        exact .begin i ht
      · rename_i hcommit
        refine ⟨fun h => (by cases h), fun ev h => ?_⟩
        cases h
        exact .commit i _ ht hwithin hrun hcommit
  · exact ⟨fun h => (by cases h), fun ev h => by cases h⟩

theorem act_sound (a : Act Q) :
    (act M s a = some (none, s') → Quiet M s s') ∧
    ∀ ev, act M s a = some (some ev, s') → Commits M s ev s' := by
  cases a with
  | arrive q =>
      simp only [act]
      split_ifs with hq
      · refine ⟨fun h => ?_, fun ev h => by cases h⟩
        cases h
        exact .arrive q hq
      · exact ⟨fun h => (by cases h), fun ev h => by cases h⟩
  | tick n =>
      refine ⟨fun h => ?_, fun ev h => by cases h⟩
      cases h
      exact .tick n
  | stop i =>
      refine ⟨fun h => ?_, fun ev h => by cases h⟩
      cases h
      exact .stop i
  | step i answer n =>
      simp only [act]
      split
      · rename_i ht
        refine ⟨fun h => ?_, fun ev h => by cases h⟩
        cases h
        exact .read i ht
      · rename_i ht
        refine ⟨fun h => ?_, fun ev h => by cases h⟩
        cases h
        exact .clock i ht
      · rename_i ht
        refine ⟨fun h => ?_, fun ev h => by cases h⟩
        cases h
        exact .outside i answer ht
      · rename_i ht
        refine ⟨fun h => ?_, fun ev h => by cases h⟩
        cases h
        exact .begin i ht
      · rename_i ht
        exact settle_sound ht
      · exact ⟨fun h => (by cases h), fun ev h => by cases h⟩

theorem play_mem (as : List (Act Q)) {log log' : List (Event D R)}
    (h : play M as log s = some (log', s')) {ev : Event D R} (hev : ev ∈ log) : ev ∈ log' := by
  induction as generalizing log s with
  | nil =>
      cases h
      exact hev
  | cons a as ih =>
      simp only [play] at h
      split at h
      · exact ih h hev
      · exact ih h (List.mem_cons_of_mem _ hev)
      · cases h

theorem play_run {P : Event D R → Prop} (as : List (Act Q)) {log log' : List (Event D R)}
    (h : play M as log s = some (log', s')) (hlog : Run M init P log s)
    (hP : ∀ ev ∈ log', P ev) : Run M init P log' s' := by
  induction as generalizing log s with
  | nil =>
      cases h
      exact hlog
  | cons a as ih =>
      simp only [play] at h
      split at h
      · rename_i hact
        exact ih h (hlog.quiet ((act_sound a).1 hact))
      · rename_i hact
        have hev := hP _ (play_mem as h List.mem_cons_self)
        exact ih h (hlog.commit ((act_sound a).2 _ hact) hev)
      · cases h

/-- A schedule that plays to an end passing `test` exhibits a run that passes it. -/
theorem exists_run (M : Machine D R ε Q A) (init : Store D) (P : Event D R → Prop)
    [DecidablePred P] (as : List (Act Q))
    (test : List (Event D R) → Sys D R ε A → Bool)
    (h : ((play M as [] { store := init }).any fun r =>
      r.1.all (fun ev => decide (P ev)) && test r.1 r.2) = true) :
    ∃ log s, Run M init P log s ∧ test log s = true := by
  obtain ⟨⟨log, s⟩, hplay, htest⟩ := (Option.any_eq_true _ _).mp h
  obtain ⟨hall, htest⟩ := Bool.and_eq_true_iff.mp htest
  refine ⟨log, s, play_run as hplay .start fun ev hev => ?_, htest⟩
  exact of_decide_eq_true (List.all_eq_true.mp hall ev hev)

end sound
end CiroFuel.Snapshot
