import CiroFuel.Snapshot.Execution
import CiroFuel.Snapshot.Single
import Mathlib.Logic.Function.Basic

/-!
# Ghost states

How far a handler has come is described by a ghost state, which its calls move
and which says what it may call next. An invariant of a run may then speak about
the store, about the commits so far and about the ghost state of every thread. A
run may also be continued, and the commits counted from where it was.
-/
namespace CiroFuel.Snapshot

/-- What a thread in a ghost state may call and return, and where that and what it reads
lead. -/
structure Typestate {K : Type} (D : K → Type) {L : Type} (R : L → Type) (ε Q A G : Type) where
  idle : G
  start : Q → G
  seen : G → Docs D → G
  allowed : G → L → Prop
  done : G → (l : L) → R l → G
  failed : G → L → Failure ε → G
  mayFail : L → Failure ε → Prop
  returns : G → A → Prop

namespace Prog
variable {K : Type} {D : K → Type} {L : Type} {R : L → Type} {ε Q A G α β : Type}
variable {T : Typestate D R ε Q A G}

/-- From the ghost state `g` the handler does only what it may, and returns within `U`. -/
def Follows (T : Typestate D R ε Q A G) (U : G → α → Prop) : Prog D R ε α → G → Prop
  | .pure a, g => U g a
  | .fail _, _ => True
  | .read next, g => ∀ d, Follows T U (next d) (T.seen g d)
  | .clock next, g => ∀ t, Follows T U (next t) g
  | .outside next, g => ∀ b, Follows T U (next b) g
  | .call l next, g =>
      T.allowed g l ∧ (∀ r, Follows T U (next (.ok r)) (T.done g l r)) ∧
        ∀ e, T.mayFail l e → Follows T U (next (.error e)) (T.failed g l e)

/-- The handler has returned or failed. -/
def Ended : Prog D R ε α → Prop
  | .pure _ => True
  | .fail _ => True
  | _ => False

theorem Follows.bind {U : G → α → Prop} {V : G → β → Prop} {p : Prog D R ε α}
    {f : α → Prog D R ε β} {g : G} (hp : p.Follows T U g)
    (hf : ∀ g' a, U g' a → (f a).Follows T V g') : (p >>= f).Follows T V g := by
  change (Prog.bind p f).Follows T V g
  induction p generalizing g with
  | pure a => exact hf g a hp
  | fail e => trivial
  | read next ih => exact fun d => ih d (hp d)
  | clock next ih => exact fun t => ih t (hp t)
  | outside next ih => exact fun b => ih b (hp b)
  | call l next ih =>
      obtain ⟨hallowed, hok, herror⟩ := hp
      exact ⟨hallowed, fun r => ih (.ok r) (hok r), fun e he => ih (.error e) (herror e he)⟩

/-- A part that only reads, in a state that reading does not move. -/
theorem Follows.reads {V : G → β → Prop} {p : Prog D R ε α} {f : α → Prog D R ε β} {g : G}
    (hp : p.CallFree) (hg : ∀ d, T.seen g d = g) (hf : ∀ a, (f a).Follows T V g) :
    (p >>= f).Follows T V g := by
  change (Prog.bind p f).Follows T V g
  induction p with
  | pure a => exact hf a
  | fail e => trivial
  | read next ih =>
      intro d
      rw [hg d]
      exact ih d (hp d)
  | clock next ih => exact fun t => ih t (hp t)
  | outside next ih => exact fun b => ih b (hp b)
  | call l next ih => exact hp.1.elim

theorem Follows.find [DecidableEq K] {V : G → β → Prop} {k : K} {f : Option (D k) → Prog D R ε β}
    {g : G} (hf : ∀ d : Docs D, (f (d.lookup k)).Follows T V (T.seen g d)) :
    (Prog.find k >>= f).Follows T V g := hf

theorem Follows.attempt {V : G → β → Prop} {l : L} {f : Except (Failure ε) (R l) → Prog D R ε β}
    {g : G} (hallowed : T.allowed g l) (hok : ∀ r, (f (.ok r)).Follows T V (T.done g l r))
    (herror : ∀ e, T.mayFail l e → (f (.error e)).Follows T V (T.failed g l e)) :
    (Prog.attempt l >>= f).Follows T V g := ⟨hallowed, hok, herror⟩

theorem Follows.perform {V : G → β → Prop} {l : L} {f : R l → Prog D R ε β} {g : G}
    (hallowed : T.allowed g l) (hok : ∀ r, (f r).Follows T V (T.done g l r)) :
    (Prog.perform l >>= f).Follows T V g := ⟨hallowed, hok, fun _ _ => trivial⟩

end Prog

variable {K X : Type} [DecidableEq K] [DecidableEq X] {D : K → Type} [Indexed D X]
variable {L : Type} {R : L → Type} {ε Q A G : Type}
variable {M : Machine D R ε Q A} {init : Store D} {P : Event D R → Prop}
variable {log later : List (Event D R)} {s s₀ s' : Sys D R ε A}

/-- The call may fail so on the store. -/
def Machine.Refuses (M : Machine D R ε Q A) (l : L) (s : Store D) (e : Failure ε) : Prop :=
  e = .unavailable ∨ ∃ env base, (M.isolated l = false → base = s) ∧
    (M.body l).run env (View.start base.docs) = .error e

/-! ### Continued runs -/

/-- The run goes on from `s₀`; its commits since then, latest first. -/
inductive Onwards (M : Machine D R ε Q A) (P : Event D R → Prop) (s₀ : Sys D R ε A) :
    List (Event D R) → Sys D R ε A → Prop where
  | start : Onwards M P s₀ [] s₀
  | quiet {l : List (Event D R)} {s s' : Sys D R ε A} (h : Onwards M P s₀ l s)
      (step : Quiet M s s') : Onwards M P s₀ l s'
  | commit {l : List (Event D R)} {ev : Event D R} {s s' : Sys D R ε A} (h : Onwards M P s₀ l s)
      (step : Commits M s ev s') (hP : P ev) : Onwards M P s₀ (ev :: l) s'

theorem Run.onwards (h : Run M init P log s) : Onwards M P { store := init } log s := by
  induction h with
  | start => exact .start
  | quiet _ step ih => exact ih.quiet step
  | commit _ step hP ih => exact ih.commit step hP

theorem Onwards.weaken {P' : Event D R → Prop} (h : Onwards M P s₀ log s)
    (hP : ∀ ev, P ev → P' ev) : Onwards M P' s₀ log s := by
  induction h with
  | start => exact .start
  | quiet _ step ih => exact ih.quiet step
  | commit _ step hev ih => exact ih.commit step (hP _ hev)

/-- A continued run is a run. -/
theorem Onwards.run (h : Onwards M P s₀ later s) (h₀ : Run M init P log s₀) :
    Run M init P (later ++ log) s := by
  induction h with
  | start => exact h₀
  | quiet _ step ih => exact ih.quiet step
  | commit _ step hP ih => exact ih.commit step hP

theorem play_onwards (as : List (Act Q)) (h : play M as log s = some (later, s'))
    (hlog : Onwards M P s₀ log s) (hP : ∀ ev ∈ later, P ev) : Onwards M P s₀ later s' := by
  induction as generalizing log s with
  | nil =>
      cases h
      exact hlog
  | cons a as ih =>
      simp only [play] at h
      split at h
      · rename_i hact
        exact ih h (hlog.quiet ((act_sound a).1 hact))
      · rename_i hact
        have hev := hP _ (play_mem as h List.mem_cons_self)
        exact ih h (hlog.commit ((act_sound a).2 _ hact) hev)
      · cases h

/-- Two schedules, one after the other, exhibit a run and how it goes on. -/
theorem exists_onwards (M : Machine D R ε Q A) (init : Store D) (P P' : Event D R → Prop)
    [DecidablePred P'] (as as' : List (Act Q))
    (test : Sys D R ε A → List (Event D R) → Sys D R ε A → Bool)
    (h : ((play M as [] { store := init }).any fun r => (play M as' [] r.2).any fun r' =>
      r'.1.all (fun ev => decide (P' ev)) && test r.2 r'.1 r'.2) = true) (hP : ∀ ev, P ev) :
    ∃ log s₀ later s, Run M init P log s₀ ∧ Onwards M P' s₀ later s ∧ test s₀ later s = true := by
  obtain ⟨⟨log, s₀⟩, hplay, h⟩ := (Option.any_eq_true _ _).mp h
  obtain ⟨⟨later, s⟩, hplay', h⟩ := (Option.any_eq_true _ _).mp h
  obtain ⟨hall, htest⟩ := Bool.and_eq_true_iff.mp h
  have hrun : Run M init P log s₀ := play_run as hplay .start fun ev _ => hP ev
  refine ⟨log, s₀, later, s, hrun, play_onwards as' hplay' .start ?_, htest⟩
  intro ev hev
  exact of_decide_eq_true (List.all_eq_true.mp hall ev hev)

/-! ### Invariants with ghost states -/

/-- The ghost states are right about the threads. -/
structure Typestate.Describes (T : Typestate D R ε Q A G) (γ : ℕ → G) (s : Sys D R ε A) : Prop where
  follows : ∀ (i : ℕ) (t : Thread D R ε A), s.threads[i]? = some t →
    t.prog.Follows T T.returns (γ i)
  beyond : ∀ i, s.threads.length ≤ i → γ i = T.idle

/-- A thread that has not arrived has committed nothing. -/
theorem Onwards.known (h : Onwards M P s₀ log s) {i : ℕ} (hi : s.threads.length ≤ i) :
    ∀ ev ∈ log, ev.thread ≠ i := by
  induction h with
  | start =>
      intro ev hev
      cases hev
  | quiet _ step ih =>
      apply ih
      apply le_trans ?_ hi
      cases step with
      | arrive q hq =>
          rw [List.length_append]
          exact Nat.le_add_right _ _
      | tick n => exact le_rfl
      | _ => simp [Sys.set]
  | @commit l ev s s' _ step _ ih =>
      cases step with
      | @commit j l next p a v after env ht hclock hrun hcommit =>
          have hlength : s.threads.length ≤ i := by simpa [Sys.set] using hi
          intro ev' hev'
          rcases List.mem_cons.mp hev' with rfl | hold
          · obtain ⟨hlt, -⟩ := List.getElem?_eq_some_iff.mp ht
            exact Nat.ne_of_lt (hlt.trans_le hlength)
          · exact ih hlength ev' hold

/-- What every step preserves. -/
structure Typestate.Keeps (T : Typestate D R ε Q A G) (M : Machine D R ε Q A)
    (P : Event D R → Prop) (J : List (Event D R) → Store D → (ℕ → G) → Prop) : Prop where
  handlers : ∀ q d c, M.admits q d c = true → (M.handle q).Follows T T.returns (T.start q)
  failures : ∀ l s e, M.Refuses l s e → T.mayFail l e
  arrive : ∀ {log s γ i q}, J log s γ → γ i = T.idle → (∀ ev ∈ log, ev.thread ≠ i) →
    J log s (Function.update γ i (T.start q))
  stop : ∀ {log s γ} i, J log s γ → J log s (Function.update γ i T.idle)
  read : ∀ {log s γ} i, J log s γ → J log s (Function.update γ i (T.seen (γ i) s.docs))
  refuse : ∀ {log s γ i l e}, J log s γ → T.allowed (γ i) l → M.Refuses l s e →
    J log s (Function.update γ i (T.failed (γ i) l e))
  commit : ∀ {log γ} {ev : Event D R}, ev.Sound M → P ev → J log ev.before γ →
    T.allowed (γ ev.thread) ev.label →
      J (ev :: log) ev.after (Function.update γ ev.thread (T.done (γ ev.thread) ev.label ev.reply))

section keeps
variable {T : Typestate D R ε Q A G} {J : List (Event D R) → Store D → (ℕ → G) → Prop} {γ : ℕ → G}

theorem Typestate.Describes.set {i : ℕ} {t t' : Thread D R ε A} {g : G} (h : T.Describes γ s)
    (ht : s.threads[i]? = some t) (hg : t'.prog.Follows T T.returns g) :
    T.Describes (Function.update γ i g) (s.set i t') := by
  obtain ⟨hlt, -⟩ := List.getElem?_eq_some_iff.mp ht
  constructor
  · intro j u hu
    have hu' : (s.threads.set i t')[j]? = some u := hu
    by_cases hij : j = i
    · subst hij
      rw [List.getElem?_set_self hlt] at hu'
      cases hu'
      rw [Function.update_self]
      exact hg
    · rw [List.getElem?_set_ne fun h => hij h.symm] at hu'
      rw [Function.update_of_ne hij]
      exact h.follows j u hu'
  · intro j hj
    have hj' : s.threads.length ≤ j := by simpa [Sys.set] using hj
    rw [Function.update_of_ne (by omega)]
    exact h.beyond j hj'

/-- A step that leaves the ghost state. -/
theorem Typestate.Describes.keep {i : ℕ} {t t' : Thread D R ε A} (h : T.Describes γ s)
    (ht : s.threads[i]? = some t) (hg : t'.prog.Follows T T.returns (γ i)) :
    T.Describes γ (s.set i t') := by
  have hset := h.set ht hg
  rwa [Function.update_eq_self] at hset

theorem Typestate.Keeps.quiet (hK : T.Keeps M P J) (h : T.Describes γ s) (hJ : J log s.store γ)
    (hnew : ∀ ev ∈ log, ev.thread ≠ s.threads.length) (step : Quiet M s s') :
    ∃ γ', T.Describes γ' s' ∧ J log s'.store γ' := by
  cases step with
  | arrive q hq =>
      have hidle := h.beyond s.threads.length le_rfl
      refine ⟨Function.update γ s.threads.length (T.start q), ⟨?_, ?_⟩, hK.arrive hJ hidle hnew⟩
      · intro i t ht
        have ht' : (s.threads ++ [{ prog := M.handle q }])[i]? = some t := ht
        rcases Nat.lt_trichotomy i s.threads.length with hlt | rfl | hgt
        · rw [List.getElem?_append_left hlt] at ht'
          rw [Function.update_of_ne (by omega)]
          exact h.follows i t ht'
        · rw [List.getElem?_append_right le_rfl, Nat.sub_self] at ht'
          cases ht'
          rw [Function.update_self]
          exact hK.handlers q _ _ hq
        · have hlen : (s.threads ++ [(⟨M.handle q, none⟩ : Thread D R ε A)]).length ≤ i := by
            rw [List.length_append, List.length_singleton]
            omega
          rw [List.getElem?_eq_none hlen] at ht'
          cases ht'
      · intro i hi
        rw [List.length_append, List.length_singleton] at hi
        rw [Function.update_of_ne (by omega)]
        exact h.beyond i (by omega)
  | tick n => exact ⟨γ, ⟨h.follows, h.beyond⟩, hJ⟩
  | stop i =>
      cases ht : s.threads[i]? with
      | some t => exact ⟨_, h.set ht trivial, hK.stop i hJ⟩
      | none =>
          have hlen : s.threads.length ≤ i := List.getElem?_eq_none_iff.mp ht
          have hsame : s.set i { prog := .fail .unavailable } = s := by
            rw [Sys.set, List.set_eq_of_length_le hlen]
          rw [hsame]
          exact ⟨γ, h, hJ⟩
  | read i ht => exact ⟨_, h.set ht (h.follows i _ ht _), hK.read i hJ⟩
  | clock i ht => exact ⟨γ, h.keep ht (h.follows i _ ht _), hJ⟩
  | outside i b ht => exact ⟨γ, h.keep ht (h.follows i _ ht b), hJ⟩
  | begin i ht =>
      have hcall := h.follows i _ ht
      exact ⟨γ, h.keep ht hcall, hJ⟩
  | @refuse i l next p e env ht hclock hrun =>
      obtain ⟨hallowed, -, herror⟩ := h.follows i _ ht
      have hrefuses : M.Refuses l s.store e := by
        refine Or.inr ⟨env, M.seen l p.base s.store, ?_, hrun⟩
        intro hiso
        simp [Machine.seen, hiso]
      exact ⟨_, h.set ht (herror e (hK.failures _ _ _ hrefuses)), hK.refuse hJ hallowed hrefuses⟩
  | @unavailable i l next p ht =>
      obtain ⟨hallowed, -, herror⟩ := h.follows i _ ht
      have hrefuses : M.Refuses l s.store .unavailable := Or.inl rfl
      exact ⟨_, h.set ht (herror _ (hK.failures _ _ _ hrefuses)), hK.refuse hJ hallowed hrefuses⟩

theorem Typestate.Keeps.step (hK : T.Keeps M P J) (h : T.Describes γ s) (hJ : J log s.store γ)
    {ev : Event D R} (step : Commits M s ev s') (hP : P ev) :
    ∃ γ', T.Describes γ' s' ∧ J (ev :: log) s'.store γ' := by
  have hsound := step.sound
  cases step with
  | @commit i l next p a v after env ht hclock hrun hcommit =>
      obtain ⟨hallowed, hok, -⟩ := h.follows i _ ht
      have hset : T.Describes _ (s.set i { prog := next (.ok a) }) := h.set ht (hok a)
      exact ⟨_, ⟨hset.follows, hset.beyond⟩, hK.commit hsound hP hJ hallowed⟩

/-- What every step preserves holds in a continued run. -/
theorem Typestate.Keeps.onwards {γ₀ : ℕ → G} (hK : T.Keeps M P J) (h : Onwards M P s₀ log s)
    (hγ : T.Describes γ₀ s₀) (hJ : J [] s₀.store γ₀) :
    ∃ γ, T.Describes γ s ∧ J log s.store γ := by
  induction h with
  | start => exact ⟨γ₀, hγ, hJ⟩
  | quiet hrun step ih =>
      obtain ⟨γ, hdescribes, hJ'⟩ := ih
      exact hK.quiet hdescribes hJ' (hrun.known le_rfl) step
  | commit _ step hP ih =>
      obtain ⟨γ, hdescribes, hJ'⟩ := ih
      exact hK.step hdescribes hJ' step hP

theorem Typestate.Keeps.run (hK : T.Keeps M P J) (h : Run M init P log s)
    (hJ : J [] init fun _ => T.idle) : ∃ γ, T.Describes γ s ∧ J log s.store γ := by
  have hγ : T.Describes (fun _ => T.idle) ({ store := init } : Sys D R ε A) := by
    constructor
    · intro i t ht
      cases ht
    · intro i _
      rfl
  exact hK.onwards h.onwards hγ hJ

end keeps
end CiroFuel.Snapshot
