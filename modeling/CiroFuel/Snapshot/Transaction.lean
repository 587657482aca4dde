import CiroFuel.Snapshot.Store
import Mathlib.Order.Monotone.Defs
import Mathlib.Order.Defs.Unbundled

/-!
# Transaction bodies

A body is a finite tree of reads, writes, clock readings and generated
identifiers. Running it changes a private view: the documents it sees and the
documents it has written. Nothing in a body reaches the store, so a body that
throws leaves no trace, and one induction over the tree bounds what every body
can do to a view.

The clock and the generated identifiers come from an environment that the body
does not control. Identifiers may collide; the insertion then fails.
-/
namespace CiroFuel.Snapshot

/-- Why an operation did not return a value. -/
inductive Failure (ε : Type) where
  | duplicateKey
  | unavailable
  | thrown (e : ε)
deriving DecidableEq, Repr

/-- Clock readings and generated identifiers, in the order a body asks for them. -/
structure Env where
  time : ℕ → ℕ
  id : ℕ → ℕ

/-- The clock does not run backwards and stays between two instants. -/
def Env.Within (env : Env) (lo hi : ℕ) : Prop :=
  Monotone env.time ∧ ∀ i, lo ≤ env.time i ∧ env.time i ≤ hi

/-- What an uncommitted body sees and has written. -/
structure View {K : Type} (D : K → Type) where
  docs : Docs D
  writes : Docs D
  readings : ℕ
  drawn : ℕ

namespace View
variable {K : Type} [DecidableEq K] {D : K → Type}

def start (d : Docs D) : View D := ⟨d, ∅, 0, 0⟩

def find (v : View D) (k : K) : Option (D k) := v.docs.lookup k

def put (v : View D) (k : K) (x : D k) : View D :=
  { v with docs := v.docs.put k x, writes := v.writes.insert k x }

@[simp] theorem find_start (d : Docs D) (k : K) : (start d).find k = d.lookup k := rfl

@[simp] theorem find_put_self (v : View D) (k : K) (x : D k) : (v.put k x).find k = some x :=
  Docs.lookup_put

theorem mem_put_self (v : View D) (k : K) (x : D k) : k ∈ (v.put k x).writes :=
  (AList.mem_insert _).mpr (Or.inl rfl)

theorem find_put_ne (v : View D) {k k' : K} (x : D k) (h : k' ≠ k) :
    (v.put k x).find k' = v.find k' := Docs.lookup_put_ne h

@[simp] theorem find_tick (v : View D) (n m : ℕ) (k : K) :
    View.find { v with readings := n, drawn := m } k = v.find k := rfl

/-- The view is its base with the written documents laid over it. -/
structure Over (d : Docs D) (v : View D) : Prop where
  written : ∀ k, k ∈ v.writes → v.find k = v.writes.lookup k
  unwritten : ∀ k, k ∉ v.writes → v.find k = d.lookup k

theorem over_start (d : Docs D) : Over d (start d) :=
  ⟨fun k hk => absurd hk (AList.notMem_empty k), fun _ _ => rfl⟩

theorem Over.put {d : Docs D} {v : View D} (h : Over d v) (k : K) (x : D k) :
    Over d (v.put k x) := by
  constructor
  · intro k' hk'
    by_cases hkk : k' = k
    · subst hkk
      exact Docs.lookup_put.trans (AList.lookup_insert _).symm
    · have hmem : k' ∈ v.writes := ((AList.mem_insert _).mp hk').resolve_left hkk
      rw [find_put_ne _ _ hkk, h.written k' hmem]
      exact (AList.lookup_insert_ne hkk).symm
  · intro k' hk'
    have hkk : k' ≠ k := fun e => hk' ((AList.mem_insert _).mpr (Or.inl e))
    rw [find_put_ne _ _ hkk]
    exact h.unwritten k' fun hmem => hk' ((AList.mem_insert _).mpr (Or.inr hmem))

end View

/-- A transaction body with result type `α`, throwing errors of type `ε`. -/
inductive Tx {K : Type} (D : K → Type) (ε α : Type) where
  | pure (a : α)
  | fail (e : Failure ε)
  | read (next : Docs D → Tx D ε α)
  | put (k : K) (x : D k) (next : Tx D ε α)
  | now (next : ℕ → Tx D ε α)
  | newId (next : ℕ → Tx D ε α)

namespace Tx

section monad
variable {K : Type} {D : K → Type} {ε α β : Type}

def bind : Tx D ε α → (α → Tx D ε β) → Tx D ε β
  | .pure a, f => f a
  | .fail e, _ => .fail e
  | .read next, f => .read fun d => bind (next d) f
  | .put k x next, f => .put k x (bind next f)
  | .now next, f => .now fun t => bind (next t) f
  | .newId next, f => .newId fun i => bind (next i) f

instance : Monad (Tx D ε) where
  pure := .pure
  bind := bind

def throw (e : ε) : Tx D ε α := .fail (.thrown e)

end monad

variable {K X : Type} [DecidableEq K] [DecidableEq X] {D : K → Type} [Indexed D X]
variable {ε α β : Type}

/-- Runs a body on a view. A write whose index entry is taken throws. -/
def run (env : Env) : Tx D ε α → View D → Except (Failure ε) (α × View D)
  | .pure a, v => .ok (a, v)
  | .fail e, _ => .error e
  | .read next, v => run env (next v.docs) v
  | .put k x next, v =>
      if v.docs.fits k x then run env next (v.put k x) else .error .duplicateKey
  | .now next, v => run env (next (env.time v.readings)) { v with readings := v.readings + 1 }
  | .newId next, v => run env (next (env.id v.drawn)) { v with drawn := v.drawn + 1 }

/-- The document under `k`, own writes included. -/
def find (k : K) : Tx D ε (Option (D k)) := .read fun d => .pure (d.lookup k)

/-- Every visible document. -/
def scan : Tx D ε (Docs D) := .read .pure

def getTime : Tx D ε ℕ := .now .pure

def freshId : Tx D ε ℕ := .newId .pure

/-- Adds a document; the key itself is unique. -/
def insert (k : K) (x : D k) : Tx D ε Unit :=
  .read fun d => if (d.lookup k).isSome then .fail .duplicateKey else .put k x (.pure ())

/-- Rewrites the document under `k` if there is one and it passes the filter,
and returns the new document. -/
def findOneAndUpdate (k : K) (filter : D k → Bool) (update : D k → D k) :
    Tx D ε (Option (D k)) :=
  .read fun d =>
    match d.lookup k with
    | some x => if filter x then .put k (update x) (.pure (some (update x))) else .pure none
    | none => .pure none

/-- Rewrites the document under `k` if there is one and it passes the filter,
and tells whether it did. -/
def updateOne (k : K) (filter : D k → Bool) (update : D k → D k) : Tx D ε Bool := do
  return (← findOneAndUpdate k filter update).isSome

/-- Rewrites the document under `k`, starting from `default` when there is none. -/
def upsert (k : K) (default : D k) (update : D k → D k) : Tx D ε Unit :=
  .read fun d => .put k (update ((d.lookup k).getD default)) (.pure ())

section run
variable {env : Env} {v w : View D}

theorem run_bind (tx : Tx D ε α) (f : α → Tx D ε β) (v : View D) :
    run env (tx >>= f) v =
      match run env tx v with
      | .ok (a, u) => run env (f a) u
      | .error e => .error e := by
  change run env (bind tx f) v = _
  induction tx generalizing v with
  | pure a => rfl
  | fail e => rfl
  | read next ih => exact ih _ v
  | put k x next ih =>
      simp only [bind, run]
      split_ifs
      · exact ih _
      · rfl
  | now next ih => exact ih _ _
  | newId next ih => exact ih _ _

/-- The inversion rule every proof about a body starts with. -/
theorem bind_ok {tx : Tx D ε α} {f : α → Tx D ε β} {b : β}
    (h : run env (tx >>= f) v = .ok (b, w)) :
    ∃ a u, run env tx v = .ok (a, u) ∧ run env (f a) u = .ok (b, w) := by
  rw [run_bind] at h
  split at h
  · exact ⟨_, _, by assumption, h⟩
  · cases h

theorem pure_ok {a b : α} (h : run env (pure a : Tx D ε α) v = .ok (b, w)) : b = a ∧ w = v := by
  cases h
  exact ⟨rfl, rfl⟩

theorem throw_ok {e : ε} {b : α} (h : run env (throw e : Tx D ε α) v = .ok (b, w)) : False := by
  cases h

theorem find_ok {k : K} {r : Option (D k)}
    (h : run env (find k : Tx D ε _) v = .ok (r, w)) : r = v.find k ∧ w = v := by
  cases h
  exact ⟨rfl, rfl⟩

theorem scan_ok {r : Docs D} (h : run env (scan : Tx D ε _) v = .ok (r, w)) :
    r = v.docs ∧ w = v := by
  cases h
  exact ⟨rfl, rfl⟩

theorem getTime_ok {t : ℕ} (h : run env (getTime : Tx D ε _) v = .ok (t, w)) :
    t = env.time v.readings ∧ w = { v with readings := v.readings + 1 } := by
  cases h
  exact ⟨rfl, rfl⟩

theorem freshId_ok {i : ℕ} (h : run env (freshId : Tx D ε _) v = .ok (i, w)) :
    i = env.id v.drawn ∧ w = { v with drawn := v.drawn + 1 } := by
  cases h
  exact ⟨rfl, rfl⟩

theorem insert_ok {k : K} {x : D k} {r : Unit}
    (h : run env (insert k x : Tx D ε _) v = .ok (r, w)) :
    v.find k = none ∧ v.docs.fits k x = true ∧ w = v.put k x := by
  simp only [insert, run] at h
  split_ifs at h with hsome
  · cases h
  · simp only [run] at h
    split_ifs at h with hfit
    cases h
    exact ⟨by simpa [View.find] using hsome, hfit, rfl⟩

theorem findOneAndUpdate_ok {k : K} {p : D k → Bool} {f : D k → D k} {r : Option (D k)}
    (h : run env (findOneAndUpdate k p f : Tx D ε _) v = .ok (r, w)) :
    (∃ x, v.find k = some x ∧ p x = true ∧ v.docs.fits k (f x) = true ∧ r = some (f x) ∧
      w = v.put k (f x)) ∨
    (r = none ∧ w = v ∧ ∀ x, v.find k = some x → p x = false) := by
  simp only [findOneAndUpdate, run] at h
  split at h
  · rename_i x hx
    split_ifs at h with hp
    · simp only [run] at h
      split_ifs at h with hfit
      cases h
      exact Or.inl ⟨x, hx, hp, hfit, rfl, rfl⟩
    · cases h
      refine Or.inr ⟨rfl, rfl, fun y hy => ?_⟩
      cases hx.symm.trans hy
      simpa using hp
  · rename_i hx
    cases h
    refine Or.inr ⟨rfl, rfl, fun y hy => ?_⟩
    cases hx.symm.trans hy

theorem updateOne_ok {k : K} {p : D k → Bool} {f : D k → D k} {r : Bool}
    (h : run env (updateOne k p f : Tx D ε _) v = .ok (r, w)) :
    (∃ x, v.find k = some x ∧ p x = true ∧ v.docs.fits k (f x) = true ∧ r = true ∧
      w = v.put k (f x)) ∨
    (r = false ∧ w = v ∧ ∀ x, v.find k = some x → p x = false) := by
  obtain ⟨a, u, ha, hr⟩ := bind_ok h
  obtain ⟨rfl, rfl⟩ := pure_ok hr
  rcases findOneAndUpdate_ok ha with ⟨x, hx, hp, hfit, rfl, rfl⟩ | ⟨rfl, rfl, hnone⟩
  · exact Or.inl ⟨x, hx, hp, hfit, rfl, rfl⟩
  · exact Or.inr ⟨rfl, rfl, hnone⟩

theorem upsert_ok {k : K} {x : D k} {f : D k → D k} {r : Unit}
    (h : run env (upsert k x f : Tx D ε _) v = .ok (r, w)) :
    v.docs.fits k (f ((v.find k).getD x)) = true ∧ w = v.put k (f ((v.find k).getD x)) := by
  simp only [upsert, run] at h
  split_ifs at h with hfit
  cases h
  exact ⟨hfit, rfl⟩

theorem run_over {d : Docs D} {tx : Tx D ε α} {a : α} (hv : View.Over d v)
    (h : run env tx v = .ok (a, w)) : View.Over d w := by
  induction tx generalizing v with
  | pure b => cases h; exact hv
  | fail e => cases h
  | read next ih => exact ih _ hv h
  | put k x next ih =>
      simp only [run] at h
      split_ifs at h
      exact ih (hv.put k x) h
  | now next ih =>
      have hu : View.Over d { v with readings := v.readings + 1 } := ⟨hv.written, hv.unwritten⟩
      exact ih _ hu h
  | newId next ih =>
      have hu : View.Over d { v with drawn := v.drawn + 1 } := ⟨hv.written, hv.unwritten⟩
      exact ih _ hu h

/-- A body never leaves an index entry contributed twice. -/
theorem run_unique {tx : Tx D ε α} {a : α} (hv : v.docs.Unique)
    (h : run env tx v = .ok (a, w)) : w.docs.Unique := by
  induction tx generalizing v with
  | pure b => cases h; exact hv
  | fail e => cases h
  | read next ih => exact ih _ hv h
  | put k x next ih =>
      simp only [run] at h
      split_ifs at h with hfit
      exact ih (v := v.put k x) (hv.put hfit) h
  | now next ih => exact ih _ (v := { v with readings := v.readings + 1 }) hv h
  | newId next ih => exact ih _ (v := { v with drawn := v.drawn + 1 }) hv h

end run

/-- The view a body has reached when it returns or throws. -/
def reached (env : Env) : Tx D ε α → View D → View D
  | .pure _, v => v
  | .fail _, v => v
  | .read next, v => reached env (next v.docs) v
  | .put k x next, v => if v.docs.fits k x then reached env next (v.put k x) else v
  | .now next, v => reached env (next (env.time v.readings)) { v with readings := v.readings + 1 }
  | .newId next, v => reached env (next (env.id v.drawn)) { v with drawn := v.drawn + 1 }

theorem reached_bind (env : Env) (tx : Tx D ε α) (f : α → Tx D ε β) (v : View D) :
    reached env (tx >>= f) v =
      match run env tx v with
      | .ok (a, u) => reached env (f a) u
      | .error _ => reached env tx v := by
  change reached env (bind tx f) v = _
  induction tx generalizing v with
  | pure a => rfl
  | fail e => rfl
  | read next ih => exact ih _ v
  | put k x next ih =>
      simp only [bind, run, reached]
      split_ifs
      · exact ih _
      · rfl
  | now next ih => exact ih _ _
  | newId next ih => exact ih _ _

/-- A body that throws has written nothing. -/
def FailsClean (tx : Tx D ε α) : Prop :=
  ∀ (env : Env) (v : View D) (e : Failure ε),
    run env tx v = .error e → (reached env tx v).docs = v.docs

section failsClean

theorem FailsClean.pure (a : α) : FailsClean (pure a : Tx D ε α) := fun _ _ _ _ => rfl

theorem FailsClean.throw (e : ε) : FailsClean (throw e : Tx D ε α) := fun _ _ _ _ => rfl

theorem FailsClean.getTime : FailsClean (getTime : Tx D ε _) := fun _ _ _ _ => rfl

theorem FailsClean.find (k : K) : FailsClean (find k : Tx D ε _) := fun _ _ _ _ => rfl

theorem FailsClean.findOneAndUpdate (k : K) (p : D k → Bool) (f : D k → D k) :
    FailsClean (findOneAndUpdate k p f : Tx D ε _) := by
  intro env v e h
  simp only [Tx.findOneAndUpdate, run, reached] at h ⊢
  split at h
  · split_ifs at h with hp
    · simp only [run] at h
      split_ifs at h with hfit
      simp [reached, hp, hfit]
    · cases h
  · cases h

/-- After a first step that wrote, the rest must not throw. -/
theorem FailsClean.bind {tx : Tx D ε α} {f : α → Tx D ε β} (htx : FailsClean tx)
    (hf : ∀ env v a u, run env tx v = .ok (a, u) →
      (u.docs = v.docs ∧ FailsClean (f a)) ∨ ∀ e, run env (f a) u ≠ .error e) :
    FailsClean (tx >>= f) := by
  intro env v e h
  rw [run_bind] at h
  rw [reached_bind]
  cases hrun : run env tx v with
  | ok r =>
      obtain ⟨a, u⟩ := r
      rw [hrun] at h
      rcases hf env v a u hrun with ⟨hdocs, hclean⟩ | hnever
      · exact (hclean env u e h).trans hdocs
      · exact (hnever e h).elim
  | error e' => exact htx env v e' hrun

end failsClean

/-- Every successful run relates the documents it starts from to those it ends with. -/
def Obeys (R : Docs D → Docs D → Prop) (tx : Tx D ε α) : Prop :=
  ∀ (env : Env) (v : View D) (a : α) (w : View D),
    run env tx v = .ok (a, w) → R v.docs w.docs

section obeys
variable {R : Docs D → Docs D → Prop}

theorem Obeys.bind [IsTrans (Docs D) R] {tx : Tx D ε α} {f : α → Tx D ε β}
    (htx : Obeys R tx) (hf : ∀ a, Obeys R (f a)) : Obeys R (tx >>= f) := by
  intro env v b w h
  obtain ⟨a, u, ha, hb⟩ := bind_ok h
  exact IsTrans.trans _ _ _ (htx env v a u ha) (hf a env u b w hb)

/-- The rest may rely on what the first step returned. -/
theorem Obeys.bind_ok [IsTrans (Docs D) R] {tx : Tx D ε α} {f : α → Tx D ε β}
    (htx : Obeys R tx)
    (hf : ∀ env v a u, run env tx v = .ok (a, u) → Obeys R (f a)) : Obeys R (tx >>= f) := by
  intro env v b w h
  obtain ⟨a, u, ha, hb⟩ := Tx.bind_ok h
  exact IsTrans.trans _ _ _ (htx env v a u ha) (hf env v a u ha env u b w hb)

theorem Obeys.throw (e : ε) : Obeys R (throw e : Tx D ε α) := fun _ _ _ _ h => (throw_ok h).elim

theorem Obeys.insert {k : K} {x : D k}
    (h : ∀ d : Docs D, d.lookup k = none → R d (d.put k x)) :
    Obeys R (insert k x : Tx D ε _) := by
  intro env v b w hrun
  obtain ⟨hnone, -, rfl⟩ := insert_ok hrun
  exact h _ hnone

theorem Obeys.upsert {k : K} {x : D k} {f : D k → D k}
    (h : ∀ d : Docs D, R d (d.put k (f ((d.lookup k).getD x)))) :
    Obeys R (upsert k x f : Tx D ε _) := by
  intro env v b w hrun
  obtain ⟨-, rfl⟩ := upsert_ok hrun
  exact h _

variable [Std.Refl R]

theorem Obeys.pure (a : α) : Obeys R (pure a : Tx D ε α) := by
  intro env v b w h
  obtain ⟨rfl, rfl⟩ := pure_ok h
  exact Std.Refl.refl _

theorem Obeys.find (k : K) : Obeys R (find k : Tx D ε _) := by
  intro env v b w h
  obtain ⟨-, rfl⟩ := find_ok h
  exact Std.Refl.refl _

theorem Obeys.scan : Obeys R (scan : Tx D ε _) := by
  intro env v b w h
  obtain ⟨-, rfl⟩ := scan_ok h
  exact Std.Refl.refl _

theorem Obeys.getTime : Obeys R (getTime : Tx D ε _) := by
  intro env v b w h
  obtain ⟨-, rfl⟩ := getTime_ok h
  exact Std.Refl.refl _

theorem Obeys.freshId : Obeys R (freshId : Tx D ε _) := by
  intro env v b w h
  obtain ⟨-, rfl⟩ := freshId_ok h
  exact Std.Refl.refl _

theorem Obeys.findOneAndUpdate {k : K} {p : D k → Bool} {f : D k → D k}
    (h : ∀ (d : Docs D) (x : D k), d.lookup k = some x → p x = true → R d (d.put k (f x))) :
    Obeys R (findOneAndUpdate k p f : Tx D ε _) := by
  intro env v b w hrun
  rcases findOneAndUpdate_ok hrun with ⟨x, hx, hp, -, -, rfl⟩ | ⟨-, rfl, -⟩
  · exact h _ x hx hp
  · exact Std.Refl.refl _

theorem Obeys.updateOne {k : K} {p : D k → Bool} {f : D k → D k}
    (h : ∀ (d : Docs D) (x : D k), d.lookup k = some x → p x = true → R d (d.put k (f x))) :
    Obeys R (updateOne k p f : Tx D ε _) := by
  intro env v b w hrun
  rcases updateOne_ok hrun with ⟨x, hx, hp, -, -, rfl⟩ | ⟨-, rfl, -⟩
  · exact h _ x hx hp
  · exact Std.Refl.refl _

end obeys

/-- The two agree outside `S`, and in the order of the documents there. -/
def SameOff (S : K → Prop) (d d' : Docs D) : Prop :=
  ∀ p : Sigma D → Bool, (∀ e, p e = true → ¬ S e.1) → d'.entries.filter p = d.entries.filter p

instance (S : K → Prop) : Std.Refl (SameOff (D := D) S) := ⟨fun _ _ _ => rfl⟩

instance (S : K → Prop) : IsTrans (Docs D) (SameOff S) :=
  ⟨fun _ _ _ h h' p hp => (h' p hp).trans (h p hp)⟩

omit [DecidableEq X] [Indexed D X] in
theorem SameOff.lookup_eq {S : K → Prop} {d d' : Docs D} (h : SameOff S d d') {k : K}
    (hk : ¬ S k) : d'.lookup k = d.lookup k := by
  have hfilter := h (fun e => decide (e.1 = k)) fun e he => by
    rw [of_decide_eq_true he]
    exact hk
  apply Option.ext
  intro x
  have hmem : ∀ d : Docs D, d.lookup k = some x ↔
      (⟨k, x⟩ : Sigma D) ∈ d.entries.filter fun e => decide (e.1 = k) := by
    intro d
    rw [List.mem_filter, decide_eq_true rfl, and_iff_left rfl]
    exact AList.mem_lookup_iff
  rw [hmem d', hmem d, hfilter]

omit [DecidableEq X] [Indexed D X] in
theorem sameOff_put {S : K → Prop} {k : K} (hk : S k) (d : Docs D) (x : D k) :
    SameOff S d (d.put k x) :=
  fun _ hp => Docs.filter_put fun y => Bool.eq_false_iff.mpr fun hy => hp ⟨k, y⟩ hy hk

omit [DecidableEq X] [Indexed D X] in
theorem sameOff_put_stored (S : K → Prop) {d : Docs D} {k : K} {x : D k}
    (hx : d.lookup k = some x) : SameOff S d (d.put k x) :=
  fun _ _ => congrArg _ (Docs.entries_put_stored hx)

/-- Every successful run leaves the keys outside `S` as they were. -/
abbrev Confined (S : K → Prop) (tx : Tx D ε α) : Prop := Obeys (SameOff S) tx

section confined
variable {S : K → Prop}

theorem Confined.find_eq {tx : Tx D ε α} (h : Confined S tx) {env : Env} {v w : View D} {a : α}
    (hrun : run env tx v = .ok (a, w)) {k : K} (hk : ¬ S k) : w.find k = v.find k :=
  (h env v a w hrun).lookup_eq hk

theorem Confined.insert {k : K} {x : D k} (hk : S k) : Confined S (insert k x : Tx D ε _) :=
  Obeys.insert fun d _ => sameOff_put hk d x

theorem Confined.upsert {k : K} {x : D k} {f : D k → D k} (hk : S k) :
    Confined S (upsert k x f : Tx D ε _) :=
  Obeys.upsert fun d => sameOff_put hk d _

theorem Confined.findOneAndUpdate {k : K} {p : D k → Bool} {f : D k → D k} (hk : S k) :
    Confined S (findOneAndUpdate k p f : Tx D ε _) :=
  Obeys.findOneAndUpdate fun d x _ _ => sameOff_put hk d (f x)

theorem Confined.updateOne {k : K} {p : D k → Bool} {f : D k → D k} (hk : S k) :
    Confined S (updateOne k p f : Tx D ε _) :=
  Obeys.updateOne fun d x _ _ => sameOff_put hk d (f x)

end confined

/-! ### Bodies that certainly write -/

/-- What has been written stays written. -/
theorem run_grows {env : Env} {v w : View D} {tx : Tx D ε α} {a : α} {k : K}
    (h : run env tx v = .ok (a, w)) (hk : k ∈ v.writes) : k ∈ w.writes := by
  induction tx generalizing v with
  | pure b => cases h; exact hk
  | fail e => cases h
  | read next ih => exact ih _ h hk
  | put k' x next ih =>
      simp only [run] at h
      split_ifs at h
      exact ih (v := v.put k' x) h ((AList.mem_insert _).mpr (Or.inr hk))
  | now next ih => exact ih _ (v := { v with readings := v.readings + 1 }) h hk
  | newId next ih => exact ih _ (v := { v with drawn := v.drawn + 1 }) h hk

/-- Every successful run writes `k`. -/
def Writes (k : K) (tx : Tx D ε α) : Prop :=
  ∀ (env : Env) (v : View D) (a : α) (w : View D), run env tx v = .ok (a, w) → k ∈ w.writes

section writes
variable {k : K} {tx : Tx D ε α} {f : α → Tx D ε β}

theorem Writes.throw (e : ε) : Writes k (throw e : Tx D ε α) := fun _ _ _ _ h => (throw_ok h).elim

theorem Writes.first (htx : Writes k tx) : Writes k (tx >>= f) := by
  intro env v b w h
  obtain ⟨a, u, ha, hb⟩ := Tx.bind_ok h
  exact run_grows hb (htx env v a u ha)

theorem Writes.rest (hf : ∀ a, Writes k (f a)) : Writes k (tx >>= f) := by
  intro env v b w h
  obtain ⟨a, u, -, hb⟩ := Tx.bind_ok h
  exact hf a env u b w hb

/-- An update that found nothing must be followed by a write or a failure. -/
theorem Writes.findOneAndUpdate {p : D k → Bool} {g : D k → D k}
    {f : Option (D k) → Tx D ε β} (hnone : Writes k (f none)) :
    Writes k (findOneAndUpdate k p g >>= f) := by
  intro env v b w h
  obtain ⟨r, u, hr, hb⟩ := Tx.bind_ok h
  rcases findOneAndUpdate_ok hr with ⟨x, -, -, -, -, rfl⟩ | ⟨rfl, -, -⟩
  · exact run_grows hb (View.mem_put_self _ _ _)
  · exact hnone env u b w hb

end writes

end Tx
end CiroFuel.Snapshot
