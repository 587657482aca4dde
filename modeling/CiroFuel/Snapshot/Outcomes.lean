import CiroFuel.Snapshot.System

/-!
# What handlers return

`Yields` bounds what a handler can return, whatever it reads and is answered, and
`YieldsFrom` does so for a handler whose first read is already known. A handler
that yields nothing is refused.

`Answers` follows the calls: a value is returned on the strength of the last call
that succeeded. In a run, every value a thread has returned is therefore backed
by a commit of its own.
-/
namespace CiroFuel.Snapshot

namespace Prog
variable {K : Type} {D : K → Type} {L : Type} {R : L → Type} {ε α β : Type}

/-- Whatever the handler reads and is answered, what it returns satisfies `Q`. -/
def Yields (Q : α → Prop) : Prog D R ε α → Prop
  | .pure a => Q a
  | .fail _ => True
  | .read next => ∀ d, Yields Q (next d)
  | .clock next => ∀ t, Yields Q (next t)
  | .outside next => ∀ b, Yields Q (next b)
  | .call _ next => ∀ r, Yields Q (next r)

/-- The same for a handler whose first read is of `d`. -/
def YieldsFrom (d : Docs D) (Q : α → Prop) : Prog D R ε α → Prop
  | .pure a => Q a
  | .fail _ => True
  | .read next => Yields Q (next d)
  | .clock next => ∀ t, YieldsFrom d Q (next t)
  | .outside next => ∀ b, YieldsFrom d Q (next b)
  | .call _ next => ∀ r, Yields Q (next r)

/-- Whatever is committed after it has read `d`, the handler returns nothing. -/
def Refused (d : Docs D) (p : Prog D R ε α) : Prop := p.YieldsFrom d fun _ => False

theorem Yields.mono {Q Q' : α → Prop} {p : Prog D R ε α} (hp : p.Yields Q)
    (h : ∀ a, Q a → Q' a) : p.Yields Q' := by
  induction p with
  | pure a => exact h a hp
  | fail e => trivial
  | read next ih => exact fun d => ih d (hp d)
  | clock next ih => exact fun t => ih t (hp t)
  | outside next ih => exact fun b => ih b (hp b)
  | call l next ih => exact fun r => ih r (hp r)

theorem yields_true (p : Prog D R ε α) : p.Yields fun _ => True := by
  induction p with
  | pure a => trivial
  | fail e => trivial
  | read next ih => exact ih
  | clock next ih => exact ih
  | outside next ih => exact ih
  | call l next ih => exact ih

theorem Yields.bind {U : α → Prop} {Q : β → Prop} {p : Prog D R ε α} {f : α → Prog D R ε β}
    (hp : p.Yields U) (hf : ∀ a, U a → (f a).Yields Q) : (p >>= f).Yields Q := by
  change (Prog.bind p f).Yields Q
  induction p with
  | pure a => exact hf a hp
  | fail e => trivial
  | read next ih => exact fun d => ih d (hp d)
  | clock next ih => exact fun t => ih t (hp t)
  | outside next ih => exact fun b => ih b (hp b)
  | call l next ih => exact fun r => ih r (hp r)

/-- What is returned is returned by the rest of the handler. -/
theorem yields_bind {Q : β → Prop} {p : Prog D R ε α} {f : α → Prog D R ε β}
    (hf : ∀ a, (f a).Yields Q) : (p >>= f).Yields Q :=
  (yields_true p).bind fun a _ => hf a

theorem YieldsFrom.bind {d : Docs D} {U : α → Prop} {Q : β → Prop} {p : Prog D R ε α}
    {f : α → Prog D R ε β} (hp : p.YieldsFrom d U) (hf : ∀ a, U a → (f a).Yields Q)
    (hfrom : ∀ a, U a → (f a).YieldsFrom d Q) : (p >>= f).YieldsFrom d Q := by
  change (Prog.bind p f).YieldsFrom d Q
  induction p with
  | pure a => exact hfrom a hp
  | fail e => trivial
  | read next => exact Yields.bind hp hf
  | clock next ih => exact fun t => ih t (hp t)
  | outside next ih => exact fun b => ih b (hp b)
  | call l next => exact fun r => (hp r).bind hf

/-- A refused beginning refuses the whole handler. -/
theorem Refused.bind {d : Docs D} {p : Prog D R ε α} (hp : p.Refused d)
    (f : α → Prog D R ε β) : (p >>= f).Refused d :=
  YieldsFrom.bind hp (fun _ h => h.elim) fun _ h => h.elim

/-- A bound on every outcome bounds those that follow a known read. -/
theorem Yields.after {d : Docs D} {Q : α → Prop} {p : Prog D R ε α} (hp : p.Yields Q) :
    p.YieldsFrom d Q := by
  induction p with
  | pure a => exact hp
  | fail e => trivial
  | read next => exact hp d
  | clock next ih => exact fun t => ih t (hp t)
  | outside next ih => exact fun b => ih b (hp b)
  | call l next => exact hp

theorem YieldsFrom.mono {d : Docs D} {Q Q' : α → Prop} {p : Prog D R ε α}
    (hp : p.YieldsFrom d Q) (h : ∀ a, Q a → Q' a) : p.YieldsFrom d Q' := by
  induction p with
  | pure a => exact h a hp
  | fail e => trivial
  | read next => exact Yields.mono hp h
  | clock next ih => exact fun t => ih t (hp t)
  | outside next ih => exact fun b => ih b (hp b)
  | call l next => exact fun r => (hp r).mono h

theorem yieldsFrom_find [DecidableEq K] {d : Docs D} {k : K} {Q : β → Prop}
    {f : Option (D k) → Prog D R ε β} (hf : (f (d.lookup k)).Yields Q) :
    (find k >>= f).YieldsFrom d Q := hf

theorem yields_find [DecidableEq K] {k : K} {Q : β → Prop} {f : Option (D k) → Prog D R ε β}
    (hf : ∀ x, (f x).Yields Q) : (find k >>= f).Yields Q := fun _ => hf _

/-- What holds after every first read holds. -/
theorem yields_of_from {Q : α → Prop} {p : Prog D R ε α} (h : ∀ d, p.YieldsFrom d Q) :
    p.Yields Q := by
  induction p with
  | pure a => exact h ∅
  | fail e => trivial
  | read next => exact h
  | clock next ih => exact fun t => ih t fun d => h d t
  | outside next ih => exact fun b => ih b fun d => h d b
  | call l next => exact h ∅

/-- Some surroundings make the handler return `a`. -/
def MayReturn (a : α) : Prog D R ε α → Prop
  | .pure b => b = a
  | .fail _ => False
  | .read next => ∃ d, MayReturn a (next d)
  | .clock next => ∃ t, MayReturn a (next t)
  | .outside next => ∃ b, MayReturn a (next b)
  | .call _ next => ∃ r, MayReturn a (next r)

theorem Yields.returned {Q : α → Prop} {p : Prog D R ε α} {a : α} (hp : p.Yields Q)
    (h : p.MayReturn a) : Q a := by
  induction p with
  | pure b =>
      cases h
      exact hp
  | fail e => exact h.elim
  | read next ih =>
      obtain ⟨d, h⟩ := h
      exact ih d (hp d) h
  | clock next ih =>
      obtain ⟨t, h⟩ := h
      exact ih t (hp t) h
  | outside next ih =>
      obtain ⟨b, h⟩ := h
      exact ih b (hp b) h
  | call l next ih =>
      obtain ⟨r, h⟩ := h
      exact ih r (hp r) h

/-- What the handler returns is backed by `B`, or else by the last call that succeeded. -/
def Answers (T : (l : L) → R l → α → Prop) : (α → Prop) → Prog D R ε α → Prop
  | B, .pure a => B a
  | _, .fail _ => True
  | B, .read next => ∀ d, Answers T B (next d)
  | B, .clock next => ∀ t, Answers T B (next t)
  | B, .outside next => ∀ b, Answers T B (next b)
  | B, .call l next => (∀ r, Answers T (T l r) (next (.ok r))) ∧ ∀ e, Answers T B (next (.error e))

section answers
variable {T : (l : L) → R l → α → Prop} {B B' : α → Prop}

theorem Answers.mono {p : Prog D R ε α} (hp : p.Answers T B) (h : ∀ a, B a → B' a) :
    p.Answers T B' := by
  induction p with
  | pure a => exact h a hp
  | fail e => trivial
  | read next ih => exact fun d => ih d (hp d)
  | clock next ih => exact fun t => ih t (hp t)
  | outside next ih => exact fun b => ih b (hp b)
  | call l next ih =>
      constructor
      · exact hp.1
      · exact fun e => ih (.error e) (hp.2 e)

/-- A part that makes no call leaves the backing as it is. -/
theorem Answers.reads {p : Prog D R ε β} {f : β → Prog D R ε α} (hp : p.CallFree)
    (hf : ∀ b, (f b).Answers T B) : (p >>= f).Answers T B := by
  change (Prog.bind p f).Answers T B
  induction p with
  | pure b => exact hf b
  | fail e => trivial
  | read next ih => exact fun d => ih d (hp d)
  | clock next ih => exact fun t => ih t (hp t)
  | outside next ih => exact fun b => ih b (hp b)
  | call l next => exact hp.1.elim

theorem Answers.perform {l : L} {f : R l → Prog D R ε α} (hf : ∀ r, (f r).Answers T (T l r)) :
    (Prog.perform l >>= f).Answers T B := by
  constructor
  · exact hf
  · intro e
    trivial

theorem Answers.attempt {l : L} {f : Except (Failure ε) (R l) → Prog D R ε α}
    (hok : ∀ r, (f (.ok r)).Answers T (T l r)) (herror : ∀ e, (f (.error e)).Answers T B) :
    (Prog.attempt l >>= f).Answers T B := ⟨hok, herror⟩

theorem answers_true {p : Prog D R ε α} : p.Answers (fun _ _ _ => True) fun _ => True := by
  induction p with
  | pure a => trivial
  | fail e => trivial
  | read next ih => exact ih
  | clock next ih => exact ih
  | outside next ih => exact ih
  | call l next ih => exact ⟨fun r => ih (.ok r), fun e => ih (.error e)⟩

/-- Wrapping what a handler returns. -/
theorem Answers.map {T' : (l : L) → R l → β → Prop} {B' : β → Prop} {g : α → β}
    {p : Prog D R ε α} (hp : p.Answers T B) (hB : ∀ a, B a → B' (g a))
    (hT : ∀ l r a, T l r a → T' l r (g a)) : (p >>= fun a => pure (g a)).Answers T' B' := by
  change (Prog.bind p _).Answers T' B'
  induction p generalizing B B' with
  | pure a => exact hB a hp
  | fail e => trivial
  | read next ih => exact fun d => ih d (hp d) hB
  | clock next ih => exact fun t => ih t (hp t) hB
  | outside next ih => exact fun b => ih b (hp b) hB
  | call l next ih =>
      constructor
      · exact fun r => ih (.ok r) (hp.1 r) fun a => hT l r a
      · exact fun e => ih (.error e) (hp.2 e) hB

/-- A handler that only reads answers on its own. -/
theorem Yields.answered {p : Prog D R ε α} (hp : p.CallFree) (h : p.Yields B) :
    p.Answers T B := by
  induction p with
  | pure a => exact h
  | fail e => trivial
  | read next ih => exact fun d => ih d (hp d) (h d)
  | clock next ih => exact fun t => ih t (hp t) (h t)
  | outside next ih => exact fun b => ih b (hp b) (h b)
  | call l next => exact hp.1.elim

/-- A handler that returns nothing answers anything. -/
theorem Yields.answers {p : Prog D R ε α} (hp : p.Yields fun _ => False) : p.Answers T B := by
  induction p generalizing B with
  | pure a => exact hp.elim
  | fail e => trivial
  | read next ih => exact fun d => ih d (hp d)
  | clock next ih => exact fun t => ih t (hp t)
  | outside next ih => exact fun b => ih b (hp b)
  | call l next ih => exact ⟨fun r => ih (.ok r) (hp (.ok r)), fun e => ih (.error e) (hp (.error e))⟩

end answers

end Prog

variable {K X : Type} [DecidableEq K] [DecidableEq X] {D : K → Type} [Indexed D X]
variable {L : Type} {R : L → Type} {ε Q A : Type}
variable {M : Machine D R ε Q A} {init : Store D} {P : Event D R → Prop}
variable {log : List (Event D R)} {s s' : Sys D R ε A}
variable {T : (l : L) → R l → A → Prop} {B : A → Prop}

/-- What thread `i` may return: something backed from the start, or by a commit of its own. -/
def Backed (T : (l : L) → R l → A → Prop) (B : A → Prop) (log : List (Event D R)) (i : ℕ) (a : A) :
    Prop :=
  B a ∨ ∃ ev ∈ log, ev.thread = i ∧ T ev.label ev.reply a

theorem Backed.later {ev : Event D R} {i : ℕ} {a : A} (h : Backed T B log i a) :
    Backed T B (ev :: log) i a := by
  rcases h with h | ⟨ev', hmem, h⟩
  · exact Or.inl h
  · exact Or.inr ⟨ev', List.mem_cons_of_mem _ hmem, h⟩

/-- Each thread returns only what is backed. -/
def AllBacked (T : (l : L) → R l → A → Prop) (B : A → Prop) (log : List (Event D R))
    (s : Sys D R ε A) : Prop :=
  ∀ (i : ℕ) (t : Thread D R ε A), s.threads[i]? = some t → t.prog.Answers T (Backed T B log i)

theorem AllBacked.set {i : ℕ} {t : Thread D R ε A} (h : AllBacked T B log s)
    (ht : t.prog.Answers T (Backed T B log i)) : AllBacked T B log (s.set i t) := by
  intro j u hu
  have hu' : (s.threads.set i t)[j]? = some u := hu
  by_cases hij : i = j
  · subst hij
    have hlt : i < s.threads.length := by
      obtain ⟨hlt, -⟩ := List.getElem?_eq_some_iff.mp hu'
      simpa using hlt
    rw [List.getElem?_set_self hlt] at hu'
    cases hu'
    exact ht
  · rw [List.getElem?_set_ne hij] at hu'
    exact h j u hu'

theorem AllBacked.quiet
    (hM : ∀ q d c, M.admits q d c = true → (M.handle q).Answers T B)
    (h : AllBacked T B log s) (step : Quiet M s s') : AllBacked T B log s' := by
  cases step with
  | arrive q hq =>
      intro i t ht
      have ht' : (s.threads ++ [{ prog := M.handle q }])[i]? = some t := ht
      by_cases hi : i < s.threads.length
      · rw [List.getElem?_append_left hi] at ht'
        exact h i t ht'
      · rw [List.getElem?_append_right (Nat.le_of_not_lt hi)] at ht'
        rw [List.mem_singleton.mp (List.mem_of_getElem? ht')]
        exact (hM q _ _ hq).mono fun a ha => Or.inl ha
  | tick n => exact h
  | stop i => exact h.set trivial
  | read i ht => exact h.set (h i _ ht _)
  | clock i ht => exact h.set (h i _ ht _)
  | outside i b ht => exact h.set (h i _ ht b)
  | begin i ht =>
      have hcall := h i _ ht
      exact h.set hcall
  | refuse i env ht hclock hrun => exact h.set ((h i _ ht).2 _)
  | unavailable i ht => exact h.set ((h i _ ht).2 _)

theorem AllBacked.commit {ev : Event D R} (h : AllBacked T B log s) (step : Commits M s ev s') :
    AllBacked T B (ev :: log) s' := by
  cases step with
  | @commit i l next p a v after env ht hclock hrun hcommit =>
      have hlater : AllBacked T B (⟨i, l, M.seen l p.base s.store, env, p.began, s.clock, a, v,
          s.store, after⟩ :: log) s :=
        fun j t ht => (h j t ht).mono fun _ hb => hb.later
      apply hlater.set
      apply ((h i _ ht).1 a).mono
      intro r hr
      exact Or.inr ⟨_, List.mem_cons_self, rfl, hr⟩

/-- What a thread has returned is backed by a commit of that thread. -/
theorem Run.answered (hM : ∀ q d c, M.admits q d c = true → (M.handle q).Answers T B)
    (h : Run M init P log s) {i : ℕ} {t : Thread D R ε A} {a : A} (ht : s.threads[i]? = some t)
    (hpure : t.prog = .pure a) : B a ∨ ∃ ev ∈ log, ev.thread = i ∧ T ev.label ev.reply a := by
  have hall : AllBacked T B log s := by
    clear ht hpure
    induction h with
    | start =>
        intro i t ht
        cases ht
    | quiet _ step ih => exact ih.quiet hM step
    | commit _ step _ ih => exact ih.commit step
  have hthread := hall i t ht
  rw [hpure] at hthread
  exact hthread

end CiroFuel.Snapshot
