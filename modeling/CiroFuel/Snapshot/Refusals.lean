import CiroFuel.Snapshot.System

/-!
# Refusals

A handler that throws only before its calls succeed has committed nothing when it
throws. Whatever else happens in the run, a thread that ends with a refusal is in
no commit of the log.
-/
namespace CiroFuel.Snapshot

namespace Prog
variable {K : Type} {D : K → Type} {L : Type} {R : L → Type} {ε α β : Type}

/-- However it goes on, the handler throws nothing. -/
def NeverThrows : Prog D R ε α → Prop
  | .pure _ => True
  | .fail e => ∀ e', e ≠ .thrown e'
  | .read next => ∀ d, NeverThrows (next d)
  | .clock next => ∀ t, NeverThrows (next t)
  | .outside next => ∀ b, NeverThrows (next b)
  | .call _ next => ∀ r, NeverThrows (next r)

/-- Once a call has succeeded, the handler throws nothing. -/
def ThrowsFirst : Prog D R ε α → Prop
  | .pure _ => True
  | .fail _ => True
  | .read next => ∀ d, ThrowsFirst (next d)
  | .clock next => ∀ t, ThrowsFirst (next t)
  | .outside next => ∀ b, ThrowsFirst (next b)
  | .call _ next => (∀ a, NeverThrows (next (.ok a))) ∧ ∀ e, ThrowsFirst (next (.error e))

theorem NeverThrows.throwsFirst {p : Prog D R ε α} (h : p.NeverThrows) : p.ThrowsFirst := by
  induction p with
  | pure a => trivial
  | fail e => trivial
  | read next ih => exact fun d => ih d (h d)
  | clock next ih => exact fun t => ih t (h t)
  | outside next ih => exact fun b => ih b (h b)
  | call l next ih => exact ⟨fun a => h (.ok a), fun e => ih (.error e) (h (.error e))⟩

theorem NeverThrows.bind {p : Prog D R ε α} {f : α → Prog D R ε β} (hp : p.NeverThrows)
    (hf : ∀ a, (f a).NeverThrows) : (p >>= f).NeverThrows := by
  change (Prog.bind p f).NeverThrows
  induction p with
  | pure a => exact hf a
  | fail e => exact hp
  | read next ih => exact fun d => ih d (hp d)
  | clock next ih => exact fun t => ih t (hp t)
  | outside next ih => exact fun b => ih b (hp b)
  | call l next ih => exact fun r => ih r (hp r)

theorem ThrowsFirst.bind {p : Prog D R ε α} {f : α → Prog D R ε β} (hp : p.ThrowsFirst)
    (hf : ∀ a, (f a).NeverThrows) : (p >>= f).ThrowsFirst := by
  change (Prog.bind p f).ThrowsFirst
  induction p with
  | pure a => exact (hf a).throwsFirst
  | fail e => trivial
  | read next ih => exact fun d => ih d (hp d)
  | clock next ih => exact fun t => ih t (hp t)
  | outside next ih => exact fun b => ih b (hp b)
  | call l next ih => exact ⟨fun a => (hp.1 a).bind hf, fun e => ih (.error e) (hp.2 e)⟩

/-- Before its calls a handler may throw. -/
theorem ThrowsFirst.reads {p : Prog D R ε α} {f : α → Prog D R ε β} (hp : p.CallFree)
    (hf : ∀ a, (f a).ThrowsFirst) : (p >>= f).ThrowsFirst := by
  change (Prog.bind p f).ThrowsFirst
  induction p with
  | pure a => exact hf a
  | fail e => trivial
  | read next ih => exact fun d => ih d (hp d)
  | clock next ih => exact fun t => ih t (hp t)
  | outside next ih => exact fun b => ih b (hp b)
  | call l next => exact hp.1.elim

/-- A call whose failure is the handler's. -/
theorem ThrowsFirst.perform {l : L} {f : R l → Prog D R ε β} (hf : ∀ a, (f a).NeverThrows) :
    (Prog.perform l >>= f).ThrowsFirst := by
  constructor
  · exact hf
  · intro e
    trivial

/-- A call whose failure the handler may translate. -/
theorem ThrowsFirst.attempt {l : L} {f : Except (Failure ε) (R l) → Prog D R ε β}
    (hok : ∀ a, (f (.ok a)).NeverThrows) (herror : ∀ e, (f (.error e)).ThrowsFirst) :
    (Prog.attempt l >>= f).ThrowsFirst := ⟨hok, herror⟩

end Prog

variable {K X : Type} [DecidableEq K] [DecidableEq X] {D : K → Type} [Indexed D X]
variable {L : Type} {R : L → Type} {ε Q A : Type}
variable {M : Machine D R ε Q A} {init : Store D} {P : Event D R → Prop}
variable {log : List (Event D R)} {s s' : Sys D R ε A}

/-- Each thread will throw nothing after a commit of its own. -/
structure Sorted (log : List (Event D R)) (s : Sys D R ε A) : Prop where
  first : ∀ t ∈ s.threads, t.prog.ThrowsFirst
  never : ∀ i t, s.threads[i]? = some t → (∃ ev ∈ log, ev.thread = i) → t.prog.NeverThrows
  known : ∀ ev ∈ log, ev.thread < s.threads.length

/-- Replacing a thread by what it becomes. -/
theorem Sorted.set {i : ℕ} {t t' : Thread D R ε A} (h : Sorted log s) (ht : s.threads[i]? = some t)
    (hfirst : t'.prog.ThrowsFirst) (hnever : t.prog.NeverThrows → t'.prog.NeverThrows) :
    Sorted log (s.set i t') where
  first := by
    intro u hu
    rcases List.mem_or_eq_of_mem_set hu with hmem | rfl
    · exact h.first u hmem
    · exact hfirst
  never := by
    intro j u hu hev
    have hu' : (s.threads.set i t')[j]? = some u := hu
    by_cases hij : i = j
    · subst hij
      obtain ⟨hlt, -⟩ := List.getElem?_eq_some_iff.mp ht
      rw [List.getElem?_set_self hlt] at hu'
      cases hu'
      exact hnever (h.never i t ht hev)
    · rw [List.getElem?_set_ne hij] at hu'
      exact h.never j u hu' hev
  known := by
    intro ev hev
    have hlt := h.known ev hev
    simpa [Sys.set] using hlt

theorem Sorted.quiet (hM : ∀ q, (M.handle q).ThrowsFirst) (h : Sorted log s) (step : Quiet M s s') :
    Sorted log s' := by
  have first : ∀ {i : ℕ} {t : Thread D R ε A}, s.threads[i]? = some t → t.prog.ThrowsFirst :=
    fun ht => h.first _ (List.mem_of_getElem? ht)
  cases step with
  | arrive q hq =>
      constructor
      · intro t ht
        rcases List.mem_append.mp ht with hold | hnew
        · exact h.first t hold
        · rw [List.mem_singleton.mp hnew]
          exact hM q
      · intro i t ht hev
        obtain ⟨ev, hev, rfl⟩ := hev
        have hold : s.threads[ev.thread]? = some t := by
          rw [← List.getElem?_append_left (h.known ev hev)]
          exact ht
        exact h.never _ t hold ⟨ev, hev, rfl⟩
      · intro ev hev
        have hlt := h.known ev hev
        rw [List.length_append]
        omega
  | tick n => exact ⟨h.first, h.never, h.known⟩
  | stop i =>
      cases ht : s.threads[i]? with
      | some t =>
          apply h.set ht
          · trivial
          · intro _ e' he
            cases he
      | none =>
          have hlen : s.threads.length ≤ i := List.getElem?_eq_none_iff.mp ht
          have hsame : s.set i { prog := .fail .unavailable } = s := by
            rw [Sys.set, List.set_eq_of_length_le hlen]
          rw [hsame]
          exact h
  | read i ht => exact h.set ht (first ht _) fun hn => hn _
  | clock i ht => exact h.set ht (first ht _) fun hn => hn _
  | outside i b ht => exact h.set ht (first ht b) fun hn => hn b
  | begin i ht =>
      have hcall := first ht
      exact h.set ht hcall id
  | refuse i env ht hclock hrun => exact h.set ht ((first ht).2 _) fun hn => hn _
  | unavailable i ht => exact h.set ht ((first ht).2 _) fun hn => hn _

theorem Sorted.commit {ev : Event D R} (h : Sorted log s) (step : Commits M s ev s') :
    Sorted (ev :: log) s' := by
  cases step with
  | @commit i l next p a v after env ht hclock hrun hcommit =>
      have hthread : (⟨.call l next, some p⟩ : Thread D R ε A).prog.ThrowsFirst :=
        h.first _ (List.mem_of_getElem? ht)
      have hdone : (next (.ok a)).NeverThrows := hthread.1 a
      have hset : Sorted log (s.set i { prog := next (.ok a) }) :=
        h.set ht hdone.throwsFirst fun _ => hdone
      obtain ⟨hlt, -⟩ := List.getElem?_eq_some_iff.mp ht
      constructor
      · exact hset.first
      · intro j t hj hev
        by_cases hij : i = j
        · subst hij
          have hj' : (s.threads.set i { prog := next (.ok a) })[i]? = some t := hj
          rw [List.getElem?_set_self hlt] at hj'
          cases hj'
          exact hdone
        · apply hset.never j t hj
          obtain ⟨ev', hev', hthread'⟩ := hev
          rcases List.mem_cons.mp hev' with rfl | hold
          · exact absurd hthread' hij
          · exact ⟨ev', hold, hthread'⟩
      · intro ev' hev'
        rcases List.mem_cons.mp hev' with rfl | hold
        · simpa [Sys.set] using hlt
        · exact hset.known ev' hold

/-- A thread that has thrown has committed nothing. -/
theorem Run.thrown_uncommitted (hM : ∀ q, (M.handle q).ThrowsFirst) (h : Run M init P log s)
    {i : ℕ} {t : Thread D R ε A} {e : ε} (ht : s.threads[i]? = some t)
    (hthrown : t.prog = .fail (.thrown e)) : ∀ ev ∈ log, ev.thread ≠ i := by
  have hsorted : Sorted log s := by
    clear ht hthrown
    induction h with
    | start => exact ⟨fun t ht => (by cases ht), fun i t ht => (by cases ht), fun ev hev => (by cases hev)⟩
    | quiet _ step ih => exact ih.quiet hM step
    | commit _ step _ ih => exact ih.commit step
  intro ev hev heq
  have hnever := hsorted.never i t ht ⟨ev, hev, heq⟩
  rw [hthrown] at hnever
  exact hnever e rfl

end CiroFuel.Snapshot
