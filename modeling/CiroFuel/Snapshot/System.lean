import CiroFuel.Snapshot.Transaction

/-!
# Handlers over a shared store

A handler reads the store whenever it likes, calls transactions, and holds on to
what it read. Any number of handlers run interleaved; each may stop for good at
any point. A call begins by taking a snapshot and ends by committing, by
throwing, or by becoming unavailable. It may begin again before it commits. An
isolated call runs on its snapshot and commits only if no document it writes has
been committed in between; any other call runs on the store it commits to.

A run records its commits, latest first. Every recorded commit satisfies a
condition chosen by the caller of the run rules, which is how hypotheses about
schedules enter and how facts about commits are accumulated.
-/
namespace CiroFuel.Snapshot

/-- A handler: reads of the store and of the clock, effects outside the store
that may fail, and calls of named transactions. -/
inductive Prog {K : Type} (D : K → Type) {L : Type} (R : L → Type) (ε α : Type) where
  | pure (a : α)
  | fail (e : Failure ε)
  | read (next : Docs D → Prog D R ε α)
  | clock (next : ℕ → Prog D R ε α)
  | outside (next : Bool → Prog D R ε α)
  | call (l : L) (next : Except (Failure ε) (R l) → Prog D R ε α)

namespace Prog
variable {K : Type} {D : K → Type} {L : Type} {R : L → Type} {ε α β : Type}

def bind : Prog D R ε α → (α → Prog D R ε β) → Prog D R ε β
  | .pure a, f => f a
  | .fail e, _ => .fail e
  | .read next, f => .read fun d => bind (next d) f
  | .clock next, f => .clock fun t => bind (next t) f
  | .outside next, f => .outside fun b => bind (next b) f
  | .call l next, f => .call l fun r => bind (next r) f

instance : Monad (Prog D R ε) where
  pure := .pure
  bind := bind

def throw (e : ε) : Prog D R ε α := .fail (.thrown e)

/-- The document stored under `k` at the moment of the read. -/
def find [DecidableEq K] (k : K) : Prog D R ε (Option (D k)) := .read fun d => .pure (d.lookup k)

def scan : Prog D R ε (Docs D) := .read .pure

def getTime : Prog D R ε ℕ := .clock .pure

/-- An effect outside the store; the answer tells whether it succeeded. -/
def effect : Prog D R ε Bool := .outside .pure

/-- Calls a transaction and hands its failure to the handler. -/
def attempt (l : L) : Prog D R ε (Except (Failure ε) (R l)) := .call l .pure

/-- Calls a transaction and fails with it. -/
def perform (l : L) : Prog D R ε (R l) :=
  .call l fun
    | .ok a => .pure a
    | .error e => .fail e

/-- Every call the handler may make has its label in `S`. -/
def Calls (S : L → Prop) : Prog D R ε α → Prop
  | .pure _ => True
  | .fail _ => True
  | .read next => ∀ d, Calls S (next d)
  | .clock next => ∀ t, Calls S (next t)
  | .outside next => ∀ b, Calls S (next b)
  | .call l next => S l ∧ ∀ r, Calls S (next r)

/-- The handler only reads. -/
abbrev CallFree (p : Prog D R ε α) : Prop := p.Calls fun _ => False

section calls
variable {S T : L → Prop}

theorem Calls.bind {p : Prog D R ε α} {f : α → Prog D R ε β} (hp : p.Calls S)
    (hf : ∀ a, (f a).Calls S) : (p >>= f).Calls S := by
  change (Prog.bind p f).Calls S
  induction p with
  | pure a => exact hf a
  | fail e => trivial
  | read next ih => exact fun d => ih d (hp d)
  | clock next ih => exact fun t => ih t (hp t)
  | outside next ih => exact fun b => ih b (hp b)
  | call l next ih => exact ⟨hp.1, fun r => ih r (hp.2 r)⟩

theorem Calls.mono {p : Prog D R ε α} (hp : p.Calls S) (h : ∀ l, S l → T l) : p.Calls T := by
  induction p with
  | pure a => trivial
  | fail e => trivial
  | read next ih => exact fun d => ih d (hp d)
  | clock next ih => exact fun t => ih t (hp t)
  | outside next ih => exact fun b => ih b (hp b)
  | call l next ih => exact ⟨h l hp.1, fun r => ih r (hp.2 r)⟩

theorem calls_find [DecidableEq K] (k : K) : (find k : Prog D R ε _).Calls S := fun _ => trivial

theorem calls_scan : (scan : Prog D R ε _).Calls S := fun _ => trivial

theorem calls_getTime : (getTime : Prog D R ε _).Calls S := fun _ => trivial

theorem calls_attempt {l : L} (h : S l) : (attempt l : Prog D R ε _).Calls S :=
  ⟨h, fun _ => trivial⟩

theorem calls_perform {l : L} (h : S l) : (perform l : Prog D R ε _).Calls S := by
  refine ⟨h, fun r => ?_⟩
  cases r <;> trivial

end calls

end Prog

variable {K X : Type} [DecidableEq K] [DecidableEq X] {D : K → Type} [Indexed D X]

/-- The transactions behind the labels, and the handler of every request. -/
structure Machine (D : K → Type) {L : Type} (R : L → Type) (ε Q A : Type) where
  body : (l : L) → Tx D ε (R l)
  isolated : L → Bool
  handle : Q → Prog D R ε A
  admits : Q → Docs D → ℕ → Bool

/-- A call that has begun: its snapshot and the instant it was taken. -/
structure Pending (D : K → Type) [Indexed D X] where
  base : Store D
  began : ℕ

structure Thread (D : K → Type) [Indexed D X] {L : Type} (R : L → Type) (ε A : Type) where
  prog : Prog D R ε A
  pending : Option (Pending D) := none

structure Sys (D : K → Type) [Indexed D X] {L : Type} (R : L → Type) (ε A : Type) where
  store : Store D
  clock : ℕ := 0
  threads : List (Thread D R ε A) := []

/-- One commit, with everything that determined it. -/
structure Event (D : K → Type) [Indexed D X] {L : Type} (R : L → Type) where
  thread : ℕ
  label : L
  base : Store D
  env : Env
  began : ℕ
  ended : ℕ
  reply : R label
  view : View D
  before : Store D
  after : Store D

variable {L : Type} {R : L → Type} {ε Q A : Type}

def Sys.set (s : Sys D R ε A) (i : ℕ) (t : Thread D R ε A) : Sys D R ε A :=
  { s with threads := s.threads.set i t }

/-- The store a call runs on. -/
def Machine.seen (M : Machine D R ε Q A) (l : L) (base now : Store D) : Store D :=
  if M.isolated l then base else now

/-- The recorded commit follows from its label, snapshot and environment. -/
structure Event.Sound (M : Machine D R ε Q A) (ev : Event D R) : Prop where
  clock : ev.env.Within ev.began ev.ended
  ran : (M.body ev.label).run ev.env (View.start ev.base.docs) = .ok (ev.reply, ev.view)
  committed : Store.commit ev.base ev.before ev.view.writes = some ev.after
  current : M.isolated ev.label = false → ev.base = ev.before

/-- Steps that commit nothing. -/
inductive Quiet (M : Machine D R ε Q A) : Sys D R ε A → Sys D R ε A → Prop where
  | arrive {s} (q : Q) (h : M.admits q s.store.docs s.clock = true) :
      Quiet M s { s with threads := s.threads ++ [{ prog := M.handle q }] }
  | tick {s} (n : ℕ) : Quiet M s { s with clock := s.clock + n }
  | stop {s} (i : ℕ) : Quiet M s (s.set i { prog := .fail .unavailable })
  | read {s} (i : ℕ) {next p} (h : s.threads[i]? = some ⟨.read next, p⟩) :
      Quiet M s (s.set i { prog := next s.store.docs })
  | clock {s} (i : ℕ) {next p} (h : s.threads[i]? = some ⟨.clock next, p⟩) :
      Quiet M s (s.set i { prog := next s.clock })
  | outside {s} (i : ℕ) (b : Bool) {next p} (h : s.threads[i]? = some ⟨.outside next, p⟩) :
      Quiet M s (s.set i { prog := next b })
  | begin {s} (i : ℕ) {l next p} (h : s.threads[i]? = some ⟨.call l next, p⟩) :
      Quiet M s (s.set i { prog := .call l next, pending := some ⟨s.store, s.clock⟩ })
  | refuse {s} (i : ℕ) {l next p e} (env : Env)
      (h : s.threads[i]? = some ⟨.call l next, some p⟩) (hclock : env.Within p.began s.clock)
      (hrun : (M.body l).run env (View.start (M.seen l p.base s.store).docs) = .error e) :
      Quiet M s (s.set i { prog := next (.error e) })
  | unavailable {s} (i : ℕ) {l next p} (h : s.threads[i]? = some ⟨.call l next, p⟩) :
      Quiet M s (s.set i { prog := next (.error .unavailable) })

/-- A begun call commits. -/
inductive Commits (M : Machine D R ε Q A) : Sys D R ε A → Event D R → Sys D R ε A → Prop where
  | commit {s} (i : ℕ) {l next p a v after} (env : Env)
      (h : s.threads[i]? = some ⟨.call l next, some p⟩) (hclock : env.Within p.began s.clock)
      (hrun : (M.body l).run env (View.start (M.seen l p.base s.store).docs) = .ok (a, v))
      (hcommit : Store.commit (M.seen l p.base s.store) s.store v.writes = some after) :
      Commits M s
        { thread := i, label := l, base := M.seen l p.base s.store, env := env,
          began := p.began, ended := s.clock, reply := a, view := v,
          before := s.store, after := after }
        { (s.set i { prog := next (.ok a) }) with store := after }

theorem Quiet.store {M : Machine D R ε Q A} {s s' : Sys D R ε A} (h : Quiet M s s') :
    s'.store = s.store := by
  cases h <;> rfl

theorem Commits.sound {M : Machine D R ε Q A} {s s' : Sys D R ε A} {ev : Event D R}
    (h : Commits M s ev s') : ev.Sound M := by
  cases h with
  | commit i env hthread hclock hrun hcommit =>
      exact ⟨hclock, hrun, hcommit, fun hiso => by simp [Machine.seen, hiso]⟩

theorem Commits.before {M : Machine D R ε Q A} {s s' : Sys D R ε A} {ev : Event D R}
    (h : Commits M s ev s') : ev.before = s.store ∧ ev.after = s'.store := by
  cases h
  exact ⟨rfl, rfl⟩

/-- A run from `init` whose commits all satisfy `P`, latest commit first. -/
inductive Run (M : Machine D R ε Q A) (init : Store D) (P : Event D R → Prop) :
    List (Event D R) → Sys D R ε A → Prop where
  | start : Run M init P [] { store := init }
  | quiet {log s s'} (h : Run M init P log s) (step : Quiet M s s') : Run M init P log s'
  | commit {log s ev s'} (h : Run M init P log s) (step : Commits M s ev s') (hev : P ev) :
      Run M init P (ev :: log) s'

namespace Run
variable {M : Machine D R ε Q A} {init : Store D} {P P' : Event D R → Prop}
variable {log : List (Event D R)} {s : Sys D R ε A}

theorem weaken (h : Run M init P log s) (hP : ∀ ev, ev.Sound M → P ev → P' ev) :
    Run M init P' log s := by
  induction h with
  | start => exact .start
  | quiet _ step ih => exact ih.quiet step
  | commit _ step hev ih => exact ih.commit step (hP _ step.sound hev)

theorem mem (h : Run M init P log s) {ev : Event D R} (hev : ev ∈ log) : ev.Sound M ∧ P ev := by
  induction h with
  | start => cases hev
  | quiet _ _ ih => exact ih hev
  | commit _ step hP ih =>
      cases hev with
      | head => exact ⟨step.sound, hP⟩
      | tail _ hmem => exact ih hmem

/-- A fact about the commits so far and the store they led to. -/
theorem logged {J : List (Event D R) → Store D → Prop} (hinit : J [] init)
    (hstep : ∀ log ev, ev.Sound M → P ev → J log ev.before → J (ev :: log) ev.after)
    (h : Run M init P log s) : J log s.store := by
  induction h with
  | start => exact hinit
  | quiet _ step ih =>
      rw [step.store]
      exact ih
  | commit _ step hP ih =>
      obtain ⟨hbefore, hafter⟩ := step.before
      rw [← hafter]
      exact hstep _ _ step.sound hP (by rwa [hbefore])

end Run

/-! ### Machines that admit fewer requests -/

/-- The machine that admits only the requests passing `p`. -/
def Machine.only (M : Machine D R ε Q A) (p : Q → Bool) : Machine D R ε Q A :=
  { M with admits := fun q d c => p q && M.admits q d c }

section only
variable {M : Machine D R ε Q A} {p : Q → Bool} {s s' : Sys D R ε A}

theorem Quiet.of_only (h : Quiet (M.only p) s s') : Quiet M s s' := by
  cases h with
  | arrive q hq => exact .arrive q (Bool.and_eq_true_iff.mp hq).2
  | tick n => exact .tick n
  | stop i => exact .stop i
  | read i ht => exact .read i ht
  | clock i ht => exact .clock i ht
  | outside i b ht => exact .outside i b ht
  | begin i ht => exact .begin i ht
  | refuse i env ht hclock hrun => exact .refuse i env ht hclock hrun
  | unavailable i ht => exact .unavailable i ht

theorem Commits.of_only {ev : Event D R} (h : Commits (M.only p) s ev s') : Commits M s ev s' := by
  cases h with
  | commit i env ht hclock hrun hcommit => exact .commit i env ht hclock hrun hcommit

theorem Event.Sound.of_only {ev : Event D R} (h : ev.Sound (M.only p)) : ev.Sound M :=
  ⟨h.clock, h.ran, h.committed, h.current⟩

theorem Run.of_only {init : Store D} {P : Event D R → Prop} {log : List (Event D R)}
    (h : Run (M.only p) init P log s) : Run M init P log s := by
  induction h with
  | start => exact .start
  | quiet _ step ih => exact ih.quiet step.of_only
  | commit _ step hP ih => exact ih.commit step.of_only hP

end only

/-- If the handlers only make calls in `S`, so are all commits of a run. -/
theorem Run.calls {M : Machine D R ε Q A} {S : L → Prop}
    (hM : ∀ q d c, M.admits q d c = true → (M.handle q).Calls S) {init : Store D}
    {P : Event D R → Prop} {log : List (Event D R)} {s : Sys D R ε A} (h : Run M init P log s) :
    (∀ t ∈ s.threads, t.prog.Calls S) ∧ Run M init (fun ev => P ev ∧ S ev.label) log s := by
  have set : ∀ {s : Sys D R ε A} {i : ℕ} {t : Thread D R ε A},
      (∀ t' ∈ s.threads, t'.prog.Calls S) → t.prog.Calls S →
      ∀ t' ∈ (s.set i t).threads, t'.prog.Calls S := by
    intro s i t hs ht t' ht'
    rcases List.mem_or_eq_of_mem_set ht' with hmem | rfl
    · exact hs t' hmem
    · exact ht
  have thread : ∀ {s : Sys D R ε A} {i : ℕ} {t : Thread D R ε A},
      (∀ t' ∈ s.threads, t'.prog.Calls S) → s.threads[i]? = some t → t.prog.Calls S :=
    fun hs ht => hs _ (List.mem_of_getElem? ht)
  induction h with
  | start => exact ⟨fun t ht => (by cases ht), .start⟩
  | quiet _ step ih =>
      refine ⟨?_, ih.2.quiet step⟩
      cases step with
      | arrive q hq =>
          intro t ht
          rcases List.mem_append.mp ht with hold | hnew
          · exact ih.1 t hold
          · rw [List.mem_singleton.mp hnew]
            exact hM q _ _ hq
      | tick n => exact ih.1
      | stop i => exact set ih.1 trivial
      | read i ht => exact set ih.1 (thread ih.1 ht _)
      | clock i ht => exact set ih.1 (thread ih.1 ht _)
      | outside i b ht => exact set ih.1 (thread ih.1 ht b)
      | begin i ht =>
          have hcall := thread ih.1 ht
          exact set ih.1 hcall
      | refuse i env ht => exact set ih.1 ((thread ih.1 ht).2 _)
      | unavailable i ht => exact set ih.1 ((thread ih.1 ht).2 _)
  | commit _ step hP ih =>
      cases step with
      | commit i env ht hclock hrun hcommit =>
          have hcall := thread ih.1 ht
          exact ⟨set ih.1 (hcall.2 _), ih.2.commit (.commit i env ht hclock hrun hcommit)
            ⟨hP, hcall.1⟩⟩

/-- A key that the body wrote was current in the snapshot. -/
theorem Event.Sound.wrote {M : Machine D R ε Q A} {ev : Event D R} (h : ev.Sound M)
    (holder : Store.Older ev.base ev.before) {k : K} (hk : k ∈ ev.view.writes) :
    ev.base.find k = ev.before.find k ∧ ev.after.find k = ev.view.find k := by
  refine ⟨(holder k).2 (Store.commit_seen h.committed hk), ?_⟩
  rw [Store.commit_find_of_mem h.committed hk]
  exact ((Tx.run_over (View.over_start _) h.ran).written k hk).symm

/-- A commit changes a key only if the snapshot of the key was current; the
committed document is then the one the body left in its view. -/
theorem Event.Sound.cases {M : Machine D R ε Q A} {ev : Event D R} (h : ev.Sound M)
    (holder : Store.Older ev.base ev.before) (k : K) :
    (ev.base.find k = ev.before.find k ∧ ev.after.find k = ev.view.find k) ∨
    (ev.view.find k = ev.base.find k ∧ ev.after.find k = ev.before.find k ∧
      ev.after.version k = ev.before.version k) := by
  have hover : View.Over ev.base.docs ev.view := Tx.run_over (View.over_start _) h.ran
  by_cases hk : k ∈ ev.view.writes
  · exact Or.inl (h.wrote holder hk)
  · right
    refine ⟨hover.unwritten k hk, Store.commit_find_of_notMem h.committed hk, ?_⟩
    rw [Store.commit_version h.committed k, if_neg hk]

/-- A key whose document the body changed was current in the snapshot. -/
theorem Event.Sound.written {M : Machine D R ε Q A} {ev : Event D R} (h : ev.Sound M)
    (holder : Store.Older ev.base ev.before) {k : K} (hne : ev.view.find k ≠ ev.base.find k) :
    ev.base.find k = ev.before.find k ∧ ev.after.find k = ev.view.find k := by
  rcases h.cases holder k with hk | ⟨heq, -⟩
  · exact hk
  · exact absurd heq hne

/-- A key whose document the body left alone is unchanged by the commit. -/
theorem Event.Sound.unwritten {M : Machine D R ε Q A} {ev : Event D R} (h : ev.Sound M)
    (holder : Store.Older ev.base ev.before) {k : K} (heq : ev.view.find k = ev.base.find k) :
    ev.after.find k = ev.before.find k := by
  rcases h.cases holder k with ⟨hb, ha⟩ | ⟨-, ha, -⟩
  · rw [ha, heq, hb]
  · exact ha

end CiroFuel.Snapshot
