import CiroFuel.Snapshot.Ghost
import CiroFuel.Snapshot.Outcomes

/-!
# Handlers that are left to finish

A run spares a thread if it does not stop it, and if what the thread does outside
the store succeeds. A handler that commits at most once, and after that only
returns, is then all or nothing: it has returned on the strength of its one
commit, or it has failed and committed nothing. The other threads may do what they
like.
-/
namespace CiroFuel.Snapshot

namespace Prog
variable {K : Type} {D : K → Type} {L : Type} {R : L → Type} {ε α β : Type}

/-- While its effects succeed, the handler makes no more calls and returns what `B` allows. -/
def Settled (B : α → Prop) : Prog D R ε α → Prop
  | .pure a => B a
  | .fail _ => False
  | .read next => ∀ d, Settled B (next d)
  | .clock next => ∀ t, Settled B (next t)
  | .outside next => Settled B (next true)
  | .call _ _ => False

/-- While its effects succeed, the handler returns after the first call that succeeds, and
only then. -/
def AllOrNothing (T : (l : L) → R l → α → Prop) : Prog D R ε α → Prop
  | .pure _ => False
  | .fail _ => True
  | .read next => ∀ d, AllOrNothing T (next d)
  | .clock next => ∀ t, AllOrNothing T (next t)
  | .outside next => AllOrNothing T (next true)
  | .call l next =>
      (∀ r, Settled (T l r) (next (.ok r))) ∧ ∀ e, AllOrNothing T (next (.error e))

section rules
variable {T : (l : L) → R l → β → Prop}

/-- A part that makes no call settles nothing. -/
theorem AllOrNothing.reads {U : α → Prop} {p : Prog D R ε α} {f : α → Prog D R ε β}
    (hp : p.CallFree) (hU : p.Yields U) (hf : ∀ a, U a → (f a).AllOrNothing T) :
    (p >>= f).AllOrNothing T := by
  change (Prog.bind p f).AllOrNothing T
  induction p with
  | pure a => exact hf a hU
  | fail e => trivial
  | read next ih => exact fun d => ih d (hp d) (hU d)
  | clock next ih => exact fun t => ih t (hp t) (hU t)
  | outside next ih => exact ih true (hp true) (hU true)
  | call l next => exact hp.1.elim

theorem AllOrNothing.attempt {l : L} {f : Except (Failure ε) (R l) → Prog D R ε β}
    (hok : ∀ r, (f (.ok r)).Settled (T l r)) (herror : ∀ e, (f (.error e)).AllOrNothing T) :
    (Prog.attempt l >>= f).AllOrNothing T := ⟨hok, herror⟩

end rules
end Prog

variable {K X : Type} [DecidableEq K] [DecidableEq X] {D : K → Type} [Indexed D X]
variable {L : Type} {R : L → Type} {ε Q A : Type}

/-- Steps that commit nothing and spare thread `i`. -/
inductive Spares (M : Machine D R ε Q A) (i : ℕ) : Sys D R ε A → Sys D R ε A → Prop where
  | other {s s'} (h : Quiet M s s') (hi : s'.threads[i]? = s.threads[i]?) : Spares M i s s'
  | read {s next p} (h : s.threads[i]? = some ⟨.read next, p⟩) :
      Spares M i s (s.set i { prog := next s.store.docs })
  | clock {s next p} (h : s.threads[i]? = some ⟨.clock next, p⟩) :
      Spares M i s (s.set i { prog := next s.clock })
  | outside {s next p} (h : s.threads[i]? = some ⟨.outside next, p⟩) :
      Spares M i s (s.set i { prog := next true })
  | begin {s l next p} (h : s.threads[i]? = some ⟨.call l next, p⟩) :
      Spares M i s (s.set i { prog := .call l next, pending := some ⟨s.store, s.clock⟩ })
  | refuse {s l next p e} (env : Env) (h : s.threads[i]? = some ⟨.call l next, some p⟩)
      (hclock : env.Within p.began s.clock)
      (hrun : (M.body l).run env (View.start (M.seen l p.base s.store).docs) = .error e) :
      Spares M i s (s.set i { prog := next (.error e) })
  | unavailable {s l next p} (h : s.threads[i]? = some ⟨.call l next, p⟩) :
      Spares M i s (s.set i { prog := next (.error .unavailable) })

/-- The run goes on from `s₀` and spares thread `i`; its commits, latest first. -/
inductive Spared (M : Machine D R ε Q A) (i : ℕ) (s₀ : Sys D R ε A) :
    List (Event D R) → Sys D R ε A → Prop where
  | start : Spared M i s₀ [] s₀
  | quiet {log s s'} (h : Spared M i s₀ log s) (step : Spares M i s s') : Spared M i s₀ log s'
  | commit {log s ev s'} (h : Spared M i s₀ log s) (step : Commits M s ev s') :
      Spared M i s₀ (ev :: log) s'

section spared
variable {M : Machine D R ε Q A} {i : ℕ} {s₀ s s' : Sys D R ε A} {log : List (Event D R)}
variable {T : (l : L) → R l → A → Prop}

theorem Spares.quiet (h : Spares M i s s') : Quiet M s s' := by
  cases h with
  | other h _ => exact h
  | read h => exact .read i h
  | clock h => exact .clock i h
  | outside h => exact .outside i true h
  | begin h => exact .begin i h
  | refuse env h hclock hrun => exact .refuse i env h hclock hrun
  | unavailable h => exact .unavailable i h

theorem Spared.onwards (h : Spared M i s₀ log s) : Onwards M (fun _ => True) s₀ log s := by
  induction h with
  | start => exact .start
  | quiet _ step ih => exact ih.quiet step.quiet
  | commit _ step ih => exact ih.commit step trivial

/-- Thread `i` has committed nothing yet, or once and is about to return. -/
def Decided (T : (l : L) → R l → A → Prop) (i : ℕ) (log : List (Event D R))
    (p : Prog D R ε A) : Prop :=
  (p.AllOrNothing T ∧ ∀ ev ∈ log, ev.thread ≠ i) ∨
    ∃ ev, log.filter (fun ev => ev.thread = i) = [ev] ∧ p.Settled (T ev.label ev.reply)

/-- A step within the handler that calls nothing. -/
theorem Decided.step {p p' : Prog D R ε A} (h : Decided T i log p)
    (hopen : p.AllOrNothing T → p'.AllOrNothing T)
    (hsettled : ∀ B, p.Settled B → p'.Settled B) : Decided T i log p' := by
  rcases h with ⟨hp, hnone⟩ | ⟨ev, hev, hp⟩
  · exact Or.inl ⟨hopen hp, hnone⟩
  · exact Or.inr ⟨ev, hev, hsettled _ hp⟩

theorem Decided.quiet {t t' : Thread D R ε A} (h : Decided T i log t.prog)
    (ht : s.threads[i]? = some t) (step : Spares M i s s') (ht' : s'.threads[i]? = some t') :
    Decided T i log t'.prog := by
  have hset : ∀ {u : Thread D R ε A}, (s.set i u).threads[i]? = some t' → t' = u := by
    intro u hu
    obtain ⟨hlt, -⟩ := List.getElem?_eq_some_iff.mp ht
    have hu' : (s.threads.set i u)[i]? = some t' := hu
    rw [List.getElem?_set_self hlt] at hu'
    exact (Option.some.inj hu').symm
  cases step with
  | other _ hi =>
      rw [hi, ht] at ht'
      cases ht'
      exact h
  | read hread =>
      cases ht.symm.trans hread
      rw [hset ht']
      exact h.step (fun hp => hp _) fun _ hp => hp _
  | clock hclock =>
      cases ht.symm.trans hclock
      rw [hset ht']
      exact h.step (fun hp => hp _) fun _ hp => hp _
  | outside houtside =>
      cases ht.symm.trans houtside
      rw [hset ht']
      exact h.step (fun hp => hp) fun _ hp => hp
  | begin hcall =>
      cases ht.symm.trans hcall
      rw [hset ht']
      exact h
  | refuse env hcall _ _ =>
      cases ht.symm.trans hcall
      rw [hset ht']
      exact h.step (fun hp => hp.2 _) fun _ hp => hp.elim
  | unavailable hcall =>
      cases ht.symm.trans hcall
      rw [hset ht']
      exact h.step (fun hp => hp.2 _) fun _ hp => hp.elim

theorem Decided.commit {ev : Event D R} {t t' : Thread D R ε A} (h : Decided T i log t.prog)
    (ht : s.threads[i]? = some t) (step : Commits M s ev s') (ht' : s'.threads[i]? = some t') :
    Decided T i (ev :: log) t'.prog := by
  cases step with
  | @commit j l next p a v after env hcall _ _ _ =>
      have ht'' : (s.threads.set j { prog := next (.ok a) })[i]? = some t' := ht'
      by_cases hij : j = i
      · subst hij
        obtain ⟨hlt, -⟩ := List.getElem?_eq_some_iff.mp ht
        rw [List.getElem?_set_self hlt] at ht''
        cases ht''
        cases ht.symm.trans hcall
        rcases h with ⟨hp, hnone⟩ | ⟨_, _, hp⟩
        · have hfilter : log.filter (fun ev => ev.thread = j) = [] := by
            apply List.filter_eq_nil_iff.mpr
            intro ev hev
            simpa using hnone ev hev
          right
          rw [List.filter_cons_of_pos (by simp), hfilter]
          exact ⟨_, rfl, hp.1 a⟩
        · exact hp.elim
      · rw [List.getElem?_set_ne hij, ht] at ht''
        cases ht''
        rcases h with ⟨hp, hnone⟩ | ⟨ev, hev, hp⟩
        · refine Or.inl ⟨hp, fun ev hev => ?_⟩
          rcases List.mem_cons.mp hev with rfl | hev
          · exact hij
          · exact hnone ev hev
        · refine Or.inr ⟨ev, ?_, hp⟩
          rw [List.filter_cons_of_neg (by simpa using hij)]
          exact hev

theorem Sys.set_present {j : ℕ} {t u : Thread D R ε A} (ht : s.threads[i]? = some t) :
    ∃ t', (s.set j u).threads[i]? = some t' := by
  obtain ⟨hlt, -⟩ := List.getElem?_eq_some_iff.mp ht
  have hlt' : i < (s.set j u).threads.length := by
    rw [Sys.set, List.length_set]
    exact hlt
  exact ⟨_, List.getElem?_eq_getElem hlt'⟩

theorem Spares.present {t : Thread D R ε A} (ht : s.threads[i]? = some t) (h : Spares M i s s') :
    ∃ t', s'.threads[i]? = some t' := by
  cases h with
  | other _ hi => exact ⟨t, hi.trans ht⟩
  | read _ => exact Sys.set_present ht
  | clock _ => exact Sys.set_present ht
  | outside _ => exact Sys.set_present ht
  | begin _ => exact Sys.set_present ht
  | refuse _ _ _ _ => exact Sys.set_present ht
  | unavailable _ => exact Sys.set_present ht

theorem Commits.present {ev : Event D R} {t : Thread D R ε A} (ht : s.threads[i]? = some t)
    (h : Commits M s ev s') : ∃ t', s'.threads[i]? = some t' := by
  cases h
  exact Sys.set_present ht

/-- What a thread that started all or nothing has come to. -/
theorem Spared.decided (h : Spared M i s₀ log s) {t₀ : Thread D R ε A}
    (h₀ : s₀.threads[i]? = some t₀) (hp : t₀.prog.AllOrNothing T) :
    ∃ t, s.threads[i]? = some t ∧ Decided T i log t.prog := by
  induction h with
  | start => exact ⟨t₀, h₀, Or.inl ⟨hp, fun ev hev => by cases hev⟩⟩
  | quiet _ step ih =>
      obtain ⟨t, ht, hdecided⟩ := ih
      obtain ⟨t', ht'⟩ := step.present ht
      exact ⟨t', ht', hdecided.quiet ht step ht'⟩
  | commit _ step ih =>
      obtain ⟨t, ht, hdecided⟩ := ih
      obtain ⟨t', ht'⟩ := step.present ht
      exact ⟨t', ht', hdecided.commit ht step ht'⟩

/-- What has returned has committed once; what has failed has committed nothing. -/
theorem Spared.all_or_nothing (h : Spared M i s₀ log s) {t₀ t : Thread D R ε A}
    (h₀ : s₀.threads[i]? = some t₀) (hp : t₀.prog.AllOrNothing T)
    (ht : s.threads[i]? = some t) :
    (∀ a, t.prog = .pure a →
      ∃ ev, log.filter (fun ev => ev.thread = i) = [ev] ∧ T ev.label ev.reply a) ∧
    ∀ e, t.prog = .fail e → ∀ ev ∈ log, ev.thread ≠ i := by
  obtain ⟨t', ht', hdecided⟩ := h.decided h₀ hp
  cases ht.symm.trans ht'
  constructor
  · intro a hpure
    rw [hpure] at hdecided
    rcases hdecided with ⟨hnever, -⟩ | hcommitted
    · exact hnever.elim
    · exact hcommitted
  · intro e hfail
    rw [hfail] at hdecided
    rcases hdecided with ⟨-, hnone⟩ | ⟨_, _, hnever⟩
    · exact hnone
    · exact hnever.elim

end spared

/-! ### Schedules -/

/-- What happens next spares thread `i`. -/
def Act.spares (i : ℕ) : Act Q → Bool
  | .arrive _ => true
  | .tick _ => true
  | .stop j => j ≠ i
  | .step j answer _ => j ≠ i || answer

section schedules
variable {M : Machine D R ε Q A} {init : Store D} {i : ℕ} {s₀ s s' : Sys D R ε A}

theorem Sys.set_elsewhere {j : ℕ} {u : Thread D R ε A} (hj : j ≠ i) :
    (s.set j u).threads[i]? = s.threads[i]? :=
  List.getElem?_set_ne hj

/-- A step of another thread leaves thread `i` where it is. -/
theorem act_step_elsewhere {j n : ℕ} {answer : Bool} (hj : j ≠ i)
    (h : act M s (.step j answer n) = some (none, s')) :
    s'.threads[i]? = s.threads[i]? := by
  simp only [act] at h
  split at h
  · cases h
    exact Sys.set_elsewhere hj
  · cases h
    exact Sys.set_elsewhere hj
  · cases h
    exact Sys.set_elsewhere hj
  · cases h
    exact Sys.set_elsewhere hj
  · unfold settle at h
    split_ifs at h
    split at h
    · cases h
      exact Sys.set_elsewhere hj
    · split at h
      · cases h
        exact Sys.set_elsewhere hj
      · cases h
  · cases h

theorem settle_spares {n : ℕ} {l : L} {next : Except (Failure ε) (R l) → Prog D R ε A}
    {p : Pending D} (ht : s.threads[i]? = some ⟨.call l next, some p⟩)
    (h : settle M s i n l next p = some (none, s')) : Spares M i s s' := by
  unfold settle at h
  split_ifs at h with hclock
  split at h
  · rename_i hrun
    cases h
    exact .refuse _ ht (Env.frozen_within hclock le_rfl) hrun
  · split at h
    · cases h
      exact .begin ht
    · cases h

theorem act_spares (a : Act Q) {t : Thread D R ε A} (ht : s.threads[i]? = some t)
    (ha : a.spares i = true) (h : act M s a = some (none, s')) : Spares M i s s' := by
  have hquiet : Quiet M s s' := (act_sound a).1 h
  cases a with
  | arrive q =>
      simp only [act] at h
      split_ifs at h
      cases h
      obtain ⟨hlt, -⟩ := List.getElem?_eq_some_iff.mp ht
      exact .other hquiet (List.getElem?_append_left hlt)
  | tick n =>
      cases h
      exact .other hquiet rfl
  | stop j =>
      cases h
      exact .other hquiet (Sys.set_elsewhere (of_decide_eq_true ha))
  | step j answer n =>
      by_cases hj : j = i
      · subst hj
        have hanswer : answer = true := by simpa [Act.spares] using ha
        simp only [act] at h
        split at h
        · cases h
          exact .read ‹_›
        · cases h
          exact .clock ‹_›
        · cases h
          rw [hanswer]
          exact .outside ‹_›
        · cases h
          exact .begin ‹_›
        · exact settle_spares ‹_› h
        · cases h
      · exact .other hquiet (act_step_elsewhere hj h)

theorem play_spared (as : List (Act Q)) {log log' : List (Event D R)} {t : Thread D R ε A}
    (ht : s.threads[i]? = some t) (has : as.all (Act.spares i) = true)
    (h : play M as log s = some (log', s')) (hlog : Spared M i s₀ log s) :
    Spared M i s₀ log' s' := by
  induction as generalizing log s t with
  | nil =>
      cases h
      exact hlog
  | cons a as ih =>
      obtain ⟨ha, has⟩ := Bool.and_eq_true_iff.mp has
      simp only [play] at h
      split at h
      · rename_i hact
        have hstep : Spares M i s _ := act_spares a ht ha hact
        obtain ⟨t', ht'⟩ := hstep.present ht
        exact ih ht' has h (hlog.quiet hstep)
      · rename_i hact
        have hstep : Commits M s _ _ := (act_sound a).2 _ hact
        obtain ⟨t', ht'⟩ := hstep.present ht
        exact ih ht' has h (hlog.commit hstep)
      · cases h

/-- The request that has arrived last is the last thread. -/
theorem play_arrive {q : Q} (as : List (Act Q)) {log log' : List (Event D R)}
    (h : play M (as ++ [Act.arrive q]) log s = some (log', s')) (hlength : s'.threads.length = i + 1) :
    s'.threads[i]? = some { prog := M.handle q } := by
  induction as generalizing log s with
  | nil =>
      simp only [List.nil_append, play, act] at h
      split_ifs at h
      cases h
      have hi : s.threads.length = i := by simpa using hlength
      rw [← hi]
      exact List.getElem?_concat_length
  | cons a as ih =>
      simp only [List.cons_append, play] at h
      split at h
      · exact ih h
      · exact ih h
      · cases h

/-- A schedule, a request that arrives as thread `i`, and a schedule that spares it. -/
theorem exists_spared (M : Machine D R ε Q A) (init : Store D) (as : List (Act Q)) (q : Q) (i : ℕ)
    (as' : List (Act Q)) (test : List (Event D R) → Sys D R ε A → Bool)
    (has : as'.all (Act.spares i) = true)
    (h : ((play M (as ++ [Act.arrive q]) [] { store := init }).any fun r =>
      (play M as' [] r.2).any fun r' => r.2.threads.length = i + 1 && test r'.1 r'.2) = true) :
    ∃ log s₀ later s, Run M init (fun _ => True) log s₀ ∧
      s₀.threads[i]? = some { prog := M.handle q } ∧ Spared M i s₀ later s ∧
      test later s = true := by
  obtain ⟨⟨log, s₀⟩, hplay, h⟩ := (Option.any_eq_true _ _).mp h
  obtain ⟨⟨later, s⟩, hplay', h⟩ := (Option.any_eq_true _ _).mp h
  obtain ⟨hlength, htest⟩ := Bool.and_eq_true_iff.mp h
  have hrun : Run M init (fun _ => True) log s₀ := play_run _ hplay .start fun _ _ => trivial
  have harrived : s₀.threads[i]? = some { prog := M.handle q } :=
    play_arrive as hplay (of_decide_eq_true hlength)
  exact ⟨log, s₀, later, s, hrun, harrived, play_spared as' harrived has hplay' .start, htest⟩

end schedules
end CiroFuel.Snapshot
