import Mathlib.Data.List.Basic

/-!
# Scripts that may be stopped and run again

A script works alone on a store. It reads, it draws generated values, and it
makes single writes. A run is known by its writes, so a run that is stopped
after any of them is known by a list of writes too. What a script does when it is
run again after a stop is put together from its parts: a sequence from its two
scripts, a loop from its body.
-/
namespace CiroFuel

/-- A program over stores `σ` with writes `ω` and generated values `γ`. -/
inductive Script (σ ω γ α : Type) : Type where
  | done (a : α)
  | read (next : σ → Script σ ω γ α)
  | draw (next : γ → Script σ ω γ α)
  | write (w : ω) (next : Script σ ω γ α)

/-- What a write does, when the store takes it, and which generated values are new to it. -/
structure Storage (σ ω γ : Type) where
  apply : ω → σ → σ
  admits : ω → σ → Bool
  fresh : γ → σ → Bool

/-- The store after the writes. -/
def Storage.after {σ ω γ : Type} (M : Storage σ ω γ) (s : σ) (ws : List ω) : σ :=
  ws.foldl (fun s w => M.apply w s) s

section
variable {σ ω γ : Type} {M : Storage σ ω γ} {s : σ}

@[simp] theorem Storage.after_nil : M.after s [] = s := rfl

@[simp] theorem Storage.after_cons (w : ω) (ws : List ω) :
    M.after s (w :: ws) = M.after (M.apply w s) ws := rfl

@[simp] theorem Storage.after_append (ws ws' : List ω) :
    M.after s (ws ++ ws') = M.after (M.after s ws) ws' := List.foldl_append

/-- What every write keeps holds after the writes. -/
theorem Storage.after_induction {P : σ → Prop} {ws : List ω}
    (hw : ∀ w ∈ ws, ∀ s, P s → P (M.apply w s)) (h : P s) : P (M.after s ws) := by
  induction ws generalizing s with
  | nil => exact h
  | cons w ws ih =>
      refine ih (fun v hv => hw v (List.mem_cons_of_mem _ hv)) ?_
      exact hw w List.mem_cons_self s h

end

namespace Script
variable {σ ω γ α β δ ι : Type}

def bind : Script σ ω γ α → (α → Script σ ω γ β) → Script σ ω γ β
  | .done a, f => f a
  | .read next, f => .read fun s => (next s).bind f
  | .draw next, f => .draw fun g => (next g).bind f
  | .write w next, f => .write w (next.bind f)

instance : Monad (Script σ ω γ) where
  pure := .done
  bind := .bind

theorem bind_done (p : Script σ ω γ α) : p.bind .done = p := by
  induction p with
  | done a => rfl
  | read next ih => exact congrArg _ (funext ih)
  | draw next ih => exact congrArg _ (funext ih)
  | write w next ih => exact congrArg _ ih

theorem bind_bind (p : Script σ ω γ α) (f : α → Script σ ω γ β) (g : β → Script σ ω γ δ) :
    (p.bind f).bind g = p.bind fun a => (f a).bind g := by
  induction p with
  | done a => rfl
  | read next ih => exact congrArg _ (funext ih)
  | draw next ih => exact congrArg _ (funext ih)
  | write w next ih => exact congrArg _ ih

instance : LawfulMonad (Script σ ω γ) :=
  LawfulMonad.mk' (Script σ ω γ) bind_done (fun _ _ => rfl) bind_bind

/-- A look at the store. -/
def query (f : σ → α) : Script σ ω γ α := .read fun s => .done (f s)

/-- A generated value. -/
def generate : Script σ ω γ γ := .draw .done

/-- One write. -/
def perform (w : ω) : Script σ ω γ Unit := .write w (.done ())

/-! ### Runs -/

/-- Started on the store, the script may make these writes and end with this result. -/
def Ends (M : Storage σ ω γ) : Script σ ω γ α → σ → List ω → α → Prop
  | .done a, _, ws, b => ws = [] ∧ b = a
  | .read next, s, ws, b => (next s).Ends M s ws b
  | .draw next, s, ws, b => ∃ g, M.fresh g s = true ∧ (next g).Ends M s ws b
  | .write w next, s, ws, b =>
      M.admits w s = true ∧ ∃ rest, ws = w :: rest ∧ next.Ends M (M.apply w s) rest b

/-- Started on the store, the script may have made these writes when it is stopped. -/
def Stops (M : Storage σ ω γ) : Script σ ω γ α → σ → List ω → Prop
  | .done _, _, ws => ws = []
  | .read next, s, ws => (next s).Stops M s ws
  | .draw next, s, ws => ws = [] ∨ ∃ g, M.fresh g s = true ∧ (next g).Stops M s ws
  | .write w next, s, ws =>
      ws = [] ∨ M.admits w s = true ∧ ∃ rest, ws = w :: rest ∧ next.Stops M (M.apply w s) rest

/-- Started on the store, the script may make these writes and end. -/
def Writes (M : Storage σ ω γ) (p : Script σ ω γ α) (s : σ) (ws : List ω) : Prop :=
  ∃ a, p.Ends M s ws a

section runs
variable {M : Storage σ ω γ} {p : Script σ ω γ α} {s : σ} {ws : List ω} {a : α}

@[simp] theorem ends_pure {b : α} : (pure a : Script σ ω γ α).Ends M s ws b ↔ ws = [] ∧ b = a :=
  Iff.rfl

@[simp] theorem ends_query {f : σ → α} : (query f : Script σ ω γ α).Ends M s ws a ↔
    ws = [] ∧ a = f s := Iff.rfl

@[simp] theorem ends_generate {g : γ} : (generate : Script σ ω γ γ).Ends M s ws g ↔
    ws = [] ∧ M.fresh g s = true := by
  constructor
  · rintro ⟨g', hfresh, rfl, rfl⟩
    exact ⟨rfl, hfresh⟩
  · rintro ⟨rfl, hfresh⟩
    exact ⟨g, hfresh, rfl, rfl⟩

@[simp] theorem ends_perform {w : ω} {u : Unit} : (perform w : Script σ ω γ Unit).Ends M s ws u ↔
    M.admits w s = true ∧ ws = [w] := by
  constructor
  · rintro ⟨hadmits, rest, rfl, rfl, -⟩
    exact ⟨hadmits, rfl⟩
  · rintro ⟨hadmits, rfl⟩
    exact ⟨hadmits, [], rfl, rfl, rfl⟩

theorem ends_bind {f : α → Script σ ω γ β} {b : β} : (p >>= f).Ends M s ws b ↔
    ∃ ws₁ ws₂ a, ws = ws₁ ++ ws₂ ∧ p.Ends M s ws₁ a ∧ (f a).Ends M (M.after s ws₁) ws₂ b := by
  change (p.bind f).Ends M s ws b ↔ _
  induction p generalizing s ws with
  | done a =>
      constructor
      · intro h
        exact ⟨[], ws, a, rfl, ⟨rfl, rfl⟩, h⟩
      · rintro ⟨_, ws₂, _, rfl, ⟨rfl, rfl⟩, h⟩
        exact h
  | read next ih => exact ih s
  | draw next ih =>
      constructor
      · rintro ⟨g, hfresh, h⟩
        obtain ⟨ws₁, ws₂, a, hws, h₁, h₂⟩ := (ih g).1 h
        exact ⟨ws₁, ws₂, a, hws, ⟨g, hfresh, h₁⟩, h₂⟩
      · rintro ⟨ws₁, ws₂, a, hws, ⟨g, hfresh, h₁⟩, h₂⟩
        exact ⟨g, hfresh, (ih g).2 ⟨ws₁, ws₂, a, hws, h₁, h₂⟩⟩
  | write w next ih =>
      constructor
      · rintro ⟨hadmits, rest, rfl, h⟩
        obtain ⟨ws₁, ws₂, a, rfl, h₁, h₂⟩ := ih.1 h
        exact ⟨w :: ws₁, ws₂, a, rfl, ⟨hadmits, ws₁, rfl, h₁⟩, h₂⟩
      · rintro ⟨_, ws₂, a, rfl, ⟨hadmits, ws₁, rfl, h₁⟩, h₂⟩
        exact ⟨hadmits, ws₁ ++ ws₂, rfl, ih.2 ⟨ws₁, ws₂, a, rfl, h₁, h₂⟩⟩

theorem stops_nil : p.Stops M s [] := by
  induction p generalizing s with
  | done a => rfl
  | read next ih => exact ih s
  | draw next ih => exact Or.inl rfl
  | write w next ih => exact Or.inl rfl

theorem Ends.stops (h : p.Ends M s ws a) : p.Stops M s ws := by
  induction p generalizing s ws with
  | done b => exact h.1
  | read next ih => exact ih s h
  | draw next ih =>
      obtain ⟨g, hfresh, h⟩ := h
      exact Or.inr ⟨g, hfresh, ih g h⟩
  | write w next ih =>
      obtain ⟨hadmits, rest, hws, h⟩ := h
      exact Or.inr ⟨hadmits, rest, hws, ih h⟩

/-- A run may be stopped after any of its writes. -/
theorem Stops.of_append {ws' : List ω} (h : p.Stops M s (ws ++ ws')) : p.Stops M s ws := by
  induction p generalizing s ws with
  | done b => exact (List.append_eq_nil_iff.1 h).1
  | read next ih => exact ih s h
  | draw next ih =>
      rcases h with h | ⟨g, hfresh, h⟩
      · exact Or.inl (List.append_eq_nil_iff.1 h).1
      · exact Or.inr ⟨g, hfresh, ih g h⟩
  | write w next ih =>
      rcases h with h | ⟨hadmits, rest, hws, h⟩
      · exact Or.inl (List.append_eq_nil_iff.1 h).1
      · cases ws with
        | nil => exact Or.inl rfl
        | cons v ws =>
            obtain ⟨rfl, rfl⟩ := List.cons.inj hws
            exact Or.inr ⟨hadmits, ws, rfl, ih h⟩

theorem stops_bind {f : α → Script σ ω γ β} : (p >>= f).Stops M s ws ↔ p.Stops M s ws ∨
    ∃ ws₁ ws₂ a, ws = ws₁ ++ ws₂ ∧ p.Ends M s ws₁ a ∧ (f a).Stops M (M.after s ws₁) ws₂ := by
  change (p.bind f).Stops M s ws ↔ _
  induction p generalizing s ws with
  | done a =>
      constructor
      · intro h
        exact Or.inr ⟨[], ws, a, rfl, ⟨rfl, rfl⟩, h⟩
      · rintro (rfl | ⟨_, ws₂, _, rfl, ⟨rfl, rfl⟩, h⟩)
        · exact stops_nil
        · exact h
  | read next ih => exact ih s
  | draw next ih =>
      constructor
      · rintro (rfl | ⟨g, hfresh, h⟩)
        · exact Or.inl (Or.inl rfl)
        · rcases (ih g).1 h with h | ⟨ws₁, ws₂, a, hws, h₁, h₂⟩
          · exact Or.inl (Or.inr ⟨g, hfresh, h⟩)
          · exact Or.inr ⟨ws₁, ws₂, a, hws, ⟨g, hfresh, h₁⟩, h₂⟩
      · rintro ((rfl | ⟨g, hfresh, h⟩) | ⟨ws₁, ws₂, a, hws, ⟨g, hfresh, h₁⟩, h₂⟩)
        · exact Or.inl rfl
        · exact Or.inr ⟨g, hfresh, (ih g).2 (Or.inl h)⟩
        · exact Or.inr ⟨g, hfresh, (ih g).2 (Or.inr ⟨ws₁, ws₂, a, hws, h₁, h₂⟩)⟩
  | write w next ih =>
      constructor
      · rintro (rfl | ⟨hadmits, rest, rfl, h⟩)
        · exact Or.inl (Or.inl rfl)
        · rcases ih.1 h with h | ⟨ws₁, ws₂, a, rfl, h₁, h₂⟩
          · exact Or.inl (Or.inr ⟨hadmits, rest, rfl, h⟩)
          · exact Or.inr ⟨w :: ws₁, ws₂, a, rfl, ⟨hadmits, ws₁, rfl, h₁⟩, h₂⟩
      · rintro ((rfl | ⟨hadmits, rest, rfl, h⟩) |
          ⟨_, ws₂, a, rfl, ⟨hadmits, ws₁, rfl, h₁⟩, h₂⟩)
        · exact Or.inl rfl
        · exact Or.inr ⟨hadmits, rest, rfl, ih.2 (Or.inl h)⟩
        · exact Or.inr ⟨hadmits, ws₁ ++ ws₂, rfl, ih.2 (Or.inr ⟨ws₁, ws₂, a, rfl, h₁, h₂⟩)⟩

@[simp] theorem stops_generate : (generate : Script σ ω γ γ).Stops M s ws ↔ ws = [] := by
  constructor
  · rintro (h | ⟨_, _, h⟩)
    · exact h
    · exact h
  · exact Or.inl

@[simp] theorem stops_perform {w : ω} : (perform w : Script σ ω γ Unit).Stops M s ws ↔
    ws = [] ∨ M.admits w s = true ∧ ws = [w] := by
  constructor
  · rintro (h | ⟨hadmits, rest, rfl, rfl⟩)
    · exact Or.inl h
    · exact Or.inr ⟨hadmits, rfl⟩
  · rintro (h | ⟨hadmits, rfl⟩)
    · exact Or.inl h
    · exact Or.inr ⟨hadmits, [], rfl, rfl⟩

end runs

/-! ### The writes of a script -/

/-- Whatever the script reads and draws, its writes are of this kind. -/
def Only (W : ω → Prop) : Script σ ω γ α → Prop
  | .done _ => True
  | .read next => ∀ s, (next s).Only W
  | .draw next => ∀ g, (next g).Only W
  | .write w next => W w ∧ next.Only W

section only
variable {W : ω → Prop} {p : Script σ ω γ α}

theorem Only.bind {f : α → Script σ ω γ β} (hp : p.Only W) (hf : ∀ a, (f a).Only W) :
    (p >>= f).Only W := by
  change (p.bind f).Only W
  induction p with
  | done a => exact hf a
  | read next ih => exact fun s => ih s (hp s)
  | draw next ih => exact fun g => ih g (hp g)
  | write w next ih => exact ⟨hp.1, ih hp.2⟩

theorem Only.mapM {f : ι → Script σ ω γ α} (hf : ∀ x, (f x).Only W) (xs : List ι) :
    (xs.mapM f).Only W := by
  induction xs with
  | nil => trivial
  | cons x xs ih =>
      rw [List.mapM_cons]
      exact (hf x).bind fun _ => ih.bind fun _ => trivial

theorem Only.stops {M : Storage σ ω γ} {s : σ} {ws : List ω} (hp : p.Only W)
    (h : p.Stops M s ws) : ∀ w ∈ ws, W w := by
  induction p generalizing s ws with
  | done a =>
      obtain rfl : ws = [] := h
      simp
  | read next ih => exact ih s (hp s) h
  | draw next ih =>
      rcases h with rfl | ⟨g, -, h⟩
      · simp
      · exact ih g (hp g) h
  | write w next ih =>
      rcases h with rfl | ⟨-, rest, rfl, h⟩
      · simp
      · exact List.forall_mem_cons.2 ⟨hp.1, ih hp.2 h⟩

end only

/-! ### Sequences and loops -/

/-- Two scripts one after the other. -/
def both (f : α → β → δ) (p : Script σ ω γ α) (q : Script σ ω γ β) : Script σ ω γ δ := do
  let a ← p
  let b ← q
  return f a b

theorem mapM_cons (f : ι → Script σ ω γ α) (x : ι) (xs : List ι) :
    (x :: xs).mapM f = both List.cons (f x) (xs.mapM f) := List.mapM_cons

section parts
variable {M : Storage σ ω γ} {p : Script σ ω γ α} {q : Script σ ω γ β} {s : σ} {ws : List ω}
variable {f : α → β → δ}

theorem writes_nil {a : α} : (pure a : Script σ ω γ α).Writes M s ws ↔ ws = [] := by
  constructor
  · rintro ⟨_, h, -⟩
    exact h
  · intro h
    exact ⟨a, h, rfl⟩

theorem writes_map {g : α → β} :
    (p >>= fun a => pure (g a)).Writes M s ws ↔ p.Writes M s ws := by
  constructor
  · rintro ⟨_, h⟩
    obtain ⟨ws₁, _, a, rfl, h₁, rfl, -⟩ := ends_bind.1 h
    rw [List.append_nil]
    exact ⟨a, h₁⟩
  · rintro ⟨a, h⟩
    exact ⟨g a, ends_bind.2 ⟨ws, [], a, (List.append_nil ws).symm, h, rfl, rfl⟩⟩

theorem stops_map {g : α → β} :
    (p >>= fun a => pure (g a)).Stops M s ws ↔ p.Stops M s ws := by
  rw [stops_bind]
  constructor
  · rintro (h | ⟨ws₁, _, a, rfl, h, rfl⟩)
    · exact h
    · rw [List.append_nil]
      exact h.stops
  · exact Or.inl

theorem ends_both {d : δ} : (both f p q).Ends M s ws d ↔ ∃ ws₁ ws₂ a b,
    ws = ws₁ ++ ws₂ ∧ p.Ends M s ws₁ a ∧ q.Ends M (M.after s ws₁) ws₂ b ∧ d = f a b := by
  constructor
  · intro h
    obtain ⟨ws₁, _, a, rfl, h₁, h⟩ := ends_bind.1 h
    obtain ⟨ws₂, _, b, rfl, h₂, rfl, rfl⟩ := ends_bind.1 h
    exact ⟨ws₁, ws₂, a, b, by rw [List.append_nil], h₁, h₂, rfl⟩
  · rintro ⟨ws₁, ws₂, a, b, rfl, h₁, h₂, rfl⟩
    refine ends_bind.2 ⟨ws₁, ws₂, a, rfl, h₁, ends_bind.2 ⟨ws₂, [], b, ?_, h₂, rfl, rfl⟩⟩
    rw [List.append_nil]

theorem writes_both : (both f p q).Writes M s ws ↔ ∃ ws₁ ws₂,
    ws = ws₁ ++ ws₂ ∧ p.Writes M s ws₁ ∧ q.Writes M (M.after s ws₁) ws₂ := by
  constructor
  · rintro ⟨_, h⟩
    obtain ⟨ws₁, ws₂, a, b, rfl, h₁, h₂, -⟩ := ends_both.1 h
    exact ⟨ws₁, ws₂, rfl, ⟨a, h₁⟩, b, h₂⟩
  · rintro ⟨ws₁, ws₂, rfl, ⟨a, h₁⟩, b, h₂⟩
    exact ⟨f a b, ends_both.2 ⟨ws₁, ws₂, a, b, rfl, h₁, h₂, rfl⟩⟩

theorem stops_both : (both f p q).Stops M s ws ↔ p.Stops M s ws ∨ ∃ ws₁ ws₂,
    ws = ws₁ ++ ws₂ ∧ p.Writes M s ws₁ ∧ q.Stops M (M.after s ws₁) ws₂ := by
  unfold both
  rw [stops_bind]
  simp only [stops_map]
  constructor
  · rintro (h | ⟨ws₁, ws₂, a, hws, h₁, h₂⟩)
    · exact Or.inl h
    · exact Or.inr ⟨ws₁, ws₂, hws, ⟨a, h₁⟩, h₂⟩
  · rintro (h | ⟨ws₁, ws₂, hws, ⟨a, h₁⟩, h₂⟩)
    · exact Or.inl h
    · exact Or.inr ⟨ws₁, ws₂, a, hws, h₁, h₂⟩

theorem Writes.stops (h : p.Writes M s ws) : p.Stops M s ws := by
  obtain ⟨a, h⟩ := h
  exact h.stops

theorem writes_query {k : α → Script σ ω γ β} {g : σ → α} :
    (query g >>= k).Writes M s ws ↔ (k (g s)).Writes M s ws := Iff.rfl

theorem stops_query {k : α → Script σ ω γ β} {g : σ → α} :
    (query g >>= k).Stops M s ws ↔ (k (g s)).Stops M s ws := Iff.rfl

end parts

/-! ### Running again -/

/-- Stopped after `ws` and run again, the script leaves a store that one run of it may leave. -/
def Resumes (M : Storage σ ω γ) (p : Script σ ω γ α) (s : σ) (ws : List ω) : Prop :=
  ∀ ws₂, p.Writes M (M.after s ws) ws₂ →
    ∃ ws', p.Writes M s ws' ∧ M.after s ws' = M.after (M.after s ws) ws₂

/-- The script changes nothing. -/
def Idle (M : Storage σ ω γ) (p : Script σ ω γ α) (s : σ) : Prop :=
  ∀ ws, p.Writes M s ws → M.after s ws = s

section again
variable {M : Storage σ ω γ} {p : Script σ ω γ α} {q : Script σ ω γ β} {s : σ} {ws ws₁ : List ω}
variable {f : α → β → δ}

theorem resumes_nil : p.Resumes M s [] := fun ws₂ h => ⟨ws₂, h, rfl⟩

/-- A run that has ended is not taken up again. -/
theorem Writes.resumes (h : p.Writes M s ws) (hidle : p.Idle M (M.after s ws)) :
    p.Resumes M s ws := fun ws₂ h₂ => ⟨ws, h, (hidle ws₂ h₂).symm⟩

theorem idle_of_writes_nil (h : ∀ ws, p.Writes M s ws → ws = []) : p.Idle M s := by
  intro ws hws
  rw [h ws hws]
  rfl

theorem Idle.both (hp : p.Idle M s) (hq : q.Idle M s) : (both f p q).Idle M s := by
  intro _ hws
  obtain ⟨ws₁, ws₂, rfl, h₁, h₂⟩ := writes_both.1 hws
  rw [hp ws₁ h₁] at h₂
  rw [Storage.after_append, hp ws₁ h₁, hq ws₂ h₂]

theorem Resumes.map {g : α → β} (h : p.Resumes M s ws) :
    (p >>= fun a => pure (g a)).Resumes M s ws := by
  intro ws₂ hws
  obtain ⟨ws', h', hafter⟩ := h ws₂ (writes_map.1 hws)
  exact ⟨ws', writes_map.2 h', hafter⟩

theorem Resumes.left (h : p.Resumes M s ws) : (both f p q).Resumes M s ws := by
  intro _ hws
  obtain ⟨ws₂, ws₃, rfl, h₂, h₃⟩ := writes_both.1 hws
  obtain ⟨ws', h', hafter⟩ := h ws₂ h₂
  rw [← hafter] at h₃
  refine ⟨ws' ++ ws₃, writes_both.2 ⟨ws', ws₃, rfl, h', h₃⟩, ?_⟩
  rw [Storage.after_append, Storage.after_append, hafter]

theorem Resumes.right (hp : p.Writes M s ws₁) (hidle : p.Idle M (M.after s (ws₁ ++ ws)))
    (h : q.Resumes M (M.after s ws₁) ws) : (both f p q).Resumes M s (ws₁ ++ ws) := by
  intro _ hws
  obtain ⟨ws₂, ws₃, rfl, h₂, h₃⟩ := writes_both.1 hws
  rw [hidle ws₂ h₂, Storage.after_append] at h₃
  obtain ⟨ws', h', hafter⟩ := h ws₃ h₃
  refine ⟨ws₁ ++ ws', writes_both.2 ⟨ws₁, ws', rfl, hp, h'⟩, ?_⟩
  rw [Storage.after_append, hafter, Storage.after_append _ ws₃, hidle ws₂ h₂, Storage.after_append]

/-- What the script reads first must be the same again. -/
theorem Resumes.query {k : α → Script σ ω γ β} {g : σ → α} (hg : g (M.after s ws) = g s)
    (h : (k (g s)).Resumes M s ws) : (query g >>= k).Resumes M s ws := by
  intro ws₂ hws
  rw [writes_query, hg] at hws
  exact h ws₂ hws

/-- A loop that passes over what is settled. The condition on a stop concerns the body that
was stopped. -/
theorem resumes_mapM {f : ι → Script σ ω γ α} (Settled : ι → σ → Prop)
    (Clean : σ → List ω → Prop)
    (hskip : ∀ x s ws, Settled x s → (f x).Writes M s ws → ws = [])
    (hends : ∀ x s ws, (f x).Writes M s ws → Settled x (M.after s ws))
    (hkeep : ∀ x w s, Settled x s → Settled x (M.apply w s))
    (hclean : ∀ s ws₁ ws₂, Clean s (ws₁ ++ ws₂) → ws₂ ≠ [] → Clean (M.after s ws₁) ws₂)
    (hbody : ∀ x s ws, (f x).Stops M s ws → Clean s ws → (f x).Resumes M s ws)
    {xs : List ι} (hstop : (xs.mapM f).Stops M s ws) (hws : Clean s ws) :
    (xs.mapM f).Resumes M s ws := by
  induction xs generalizing s ws with
  | nil =>
      obtain rfl : ws = [] := hstop
      exact resumes_nil
  | cons x xs ih =>
      rw [mapM_cons] at hstop ⊢
      rcases stops_both.1 hstop with hstop | ⟨ws₁, ws₂, rfl, h₁, h₂⟩
      · exact (hbody x s ws hstop hws).left
      · have hsettled : Settled x (M.after s (ws₁ ++ ws₂)) := by
          rw [Storage.after_append]
          exact Storage.after_induction (fun w _ s h => hkeep x w s h) (hends x s ws₁ h₁)
        refine Resumes.right h₁ (idle_of_writes_nil fun ws => hskip x _ ws hsettled) ?_
        · by_cases hnil : ws₂ = []
          · rw [hnil]
            exact resumes_nil
          · exact ih h₂ (hclean s ws₁ ws₂ hws hnil)

/-- A loop over what is still to be done: a body that ends takes its element off the list, and
one that is stopped before leaves the list and can be run again. -/
theorem resumes_pending {f : ι → Script σ ω γ α} {pending : σ → List ι}
    (hends : ∀ x xs s ws, pending s = x :: xs → (f x).Writes M s ws →
      pending (M.after s ws) = xs)
    (hstops : ∀ x xs s ws, pending s = x :: xs → (f x).Stops M s ws → (f x).Writes M s ws ∨
      pending (M.after s ws) = x :: xs ∧ (f x).Resumes M s ws)
    (hstop : (query pending >>= fun xs => xs.mapM f).Stops M s ws) :
    (query pending >>= fun xs => xs.mapM f).Resumes M s ws := by
  rw [stops_query] at hstop
  intro ws₂ hws₂
  rw [writes_query] at hws₂
  change ∃ ws', ((pending s).mapM f).Writes M s ws' ∧ _
  generalize hxs : pending s = xs at hstop
  induction xs generalizing s ws with
  | nil =>
      obtain rfl : ws = [] := hstop
      rw [Storage.after_nil, hxs] at hws₂
      exact ⟨ws₂, hws₂, rfl⟩
  | cons x xs ih =>
      rw [mapM_cons] at hstop ⊢
      rcases stops_both.1 hstop with hstop | ⟨ws₁, ws₃, rfl, h₁, h₃⟩
      · rcases hstops x xs s ws hxs hstop with h | ⟨hpending, h⟩
        · rw [hends x xs s ws hxs h] at hws₂
          exact ⟨ws ++ ws₂, writes_both.2 ⟨ws, ws₂, rfl, h, hws₂⟩, Storage.after_append ws ws₂⟩
        · rw [hpending, mapM_cons] at hws₂
          exact h.left ws₂ hws₂
      · rw [Storage.after_append] at hws₂ ⊢
        obtain ⟨ws', h', hafter⟩ := ih hws₂ (hends x xs s ws₁ hxs h₁) h₃
        refine ⟨ws₁ ++ ws', writes_both.2 ⟨ws₁, ws', rfl, h₁, h'⟩, ?_⟩
        rw [Storage.after_append, hafter]

/-- A loop over what is still to be done leaves nothing of it. -/
theorem pending_nil {f : ι → Script σ ω γ α} {pending : σ → List ι}
    (hends : ∀ x xs s ws, pending s = x :: xs → (f x).Writes M s ws →
      pending (M.after s ws) = xs)
    (h : (query pending >>= fun xs => xs.mapM f).Writes M s ws) :
    pending (M.after s ws) = [] := by
  rw [writes_query] at h
  generalize hxs : pending s = xs at h
  induction xs generalizing s ws with
  | nil =>
      obtain rfl := writes_nil.1 h
      exact hxs
  | cons x xs ih =>
      rw [mapM_cons] at h
      obtain ⟨ws₁, ws₂, rfl, h₁, h₂⟩ := writes_both.1 h
      rw [Storage.after_append]
      exact ih (hends x xs s ws₁ hxs h₁) h₂

end again

/-! ### Loops that write what is known beforehand -/

section known
variable {M : Storage σ ω γ} {p : Script σ ω γ α} {s : σ} {ws : List ω}

theorem writes_mapM_known {f : ι → Script σ ω γ α} {known : ι → List ω} (I : σ → Prop)
    {xs : List ι} (hkeep : ∀ x s, ∀ w ∈ known x, I s → I (M.apply w s))
    (hbody : ∀ x ∈ xs, ∀ s ws, I s → ((f x).Writes M s ws ↔ ws = known x)) (h : I s) :
    (xs.mapM f).Writes M s ws ↔ ws = xs.flatMap known := by
  induction xs generalizing s ws with
  | nil => exact writes_nil
  | cons x xs ih =>
      have hx := hbody x List.mem_cons_self s
      have hxs := fun y hy => hbody y (List.mem_cons_of_mem x hy)
      have hafter : I (M.after s (known x)) :=
        Storage.after_induction (fun w hw s => hkeep x s w hw) h
      rw [mapM_cons, writes_both, List.flatMap_cons]
      constructor
      · rintro ⟨ws₁, ws₂, rfl, h₁, h₂⟩
        obtain rfl := (hx ws₁ h).1 h₁
        rw [(ih hxs hafter).1 h₂]
      · rintro rfl
        exact ⟨_, _, rfl, (hx _ h).2 rfl, (ih hxs hafter).2 rfl⟩

theorem stops_mapM_known {f : ι → Script σ ω γ α} {known : ι → List ω} (I : σ → Prop)
    {xs : List ι} (hkeep : ∀ x s, ∀ w ∈ known x, I s → I (M.apply w s))
    (hbody : ∀ x ∈ xs, ∀ s ws, I s → ((f x).Writes M s ws ↔ ws = known x))
    (hstops : ∀ x s ws, I s → (f x).Stops M s ws → ws <+: known x) (h : I s)
    (hstop : (xs.mapM f).Stops M s ws) : ws <+: xs.flatMap known := by
  induction xs generalizing s ws with
  | nil =>
      obtain rfl : ws = [] := hstop
      exact List.prefix_rfl
  | cons x xs ih =>
      rw [List.flatMap_cons]
      rw [mapM_cons] at hstop
      rcases stops_both.1 hstop with hstop | ⟨ws₁, ws₂, rfl, h₁, h₂⟩
      · exact (hstops x s ws h hstop).trans (List.prefix_append _ _)
      · obtain rfl := (hbody x List.mem_cons_self s ws₁ h).1 h₁
        have hafter : I (M.after s (known x)) :=
          Storage.after_induction (fun w hw s => hkeep x s w hw) h
        have hxs := fun y hy => hbody y (List.mem_cons_of_mem x hy)
        exact (List.prefix_append_right_inj _).2 (ih hxs hafter h₂)

/-- What is left to write after a part of the plan is the rest of it. -/
theorem plan_after {plan : σ → List ω}
    (hrest : ∀ s w rest, plan s = w :: rest → plan (M.apply w s) = rest) {rest : List ω}
    (h : plan s = ws ++ rest) : plan (M.after s ws) = rest := by
  induction ws generalizing s with
  | nil => exact h
  | cons w ws ih => exact ih (hrest s w _ h)

/-- A script that carries out a plan is taken up where it was stopped. -/
theorem resumes_plan {plan : σ → List ω} (hwrites : ∀ s ws, p.Writes M s ws ↔ ws = plan s)
    (hrest : ∀ s w rest, plan s = w :: rest → plan (M.apply w s) = rest) (h : ws <+: plan s) :
    p.Resumes M s ws := by
  obtain ⟨rest, hplan⟩ := h
  intro ws₂ h₂
  obtain rfl := (hwrites _ _).1 h₂
  rw [plan_after hrest hplan.symm]
  exact ⟨ws ++ rest, (hwrites _ _).2 hplan, Storage.after_append ws rest⟩

theorem idle_plan {plan : σ → List ω} (hwrites : ∀ s ws, p.Writes M s ws ↔ ws = plan s)
    (h : plan s = []) : p.Idle M s :=
  idle_of_writes_nil fun ws hws => ((hwrites s ws).1 hws).trans h

end known

/-- Stopped any number of times and run again after each, and at last run to its end. -/
inductive Attempts (M : Storage σ ω γ) (p : Script σ ω γ α) : σ → σ → Prop where
  | ends {s : σ} {ws : List ω} (h : p.Writes M s ws) : Attempts M p s (M.after s ws)
  | again {s s' : σ} {ws : List ω} (h : p.Stops M s ws) (hagain : Attempts M p (M.after s ws) s') :
      Attempts M p s s'

/-- If every stop can be made good, all the attempts leave what one run may leave. -/
theorem Attempts.writes {M : Storage σ ω γ} {p : Script σ ω γ α} {s s' : σ}
    (hresumes : ∀ s ws, p.Stops M s ws → p.Resumes M s ws) (h : Attempts M p s s') :
    ∃ ws, p.Writes M s ws ∧ M.after s ws = s' := by
  induction h with
  | ends h => exact ⟨_, h, rfl⟩
  | again h _ ih =>
      obtain ⟨ws₂, h₂, rfl⟩ := ih
      exact hresumes _ _ h ws₂ h₂

/-! ### Executions -/

/-- One run, with its generated values in order. -/
def play (M : Storage σ ω γ) : Script σ ω γ α → List γ → σ → Option (List ω × α)
  | .done a, _, _ => some ([], a)
  | .read next, gs, s => (next s).play M gs s
  | .draw _, [], _ => none
  | .draw next, g :: gs, s => if M.fresh g s then (next g).play M gs s else none
  | .write w next, gs, s =>
      if M.admits w s then (next.play M gs (M.apply w s)).map fun r => (w :: r.1, r.2) else none

theorem play_ends {M : Storage σ ω γ} {p : Script σ ω γ α} {gs : List γ} {s : σ} {ws : List ω}
    {a : α} (h : p.play M gs s = some (ws, a)) : p.Ends M s ws a := by
  induction p generalizing gs s ws with
  | done b =>
      cases h
      exact ⟨rfl, rfl⟩
  | read next ih => exact ih s h
  | draw next ih =>
      cases gs with
      | nil => cases h
      | cons g gs =>
          unfold play at h
          split at h
          · rename_i hfresh
            exact ⟨g, hfresh, ih g h⟩
          · cases h
  | write w next ih =>
      unfold play at h
      split at h
      · rename_i hadmits
        obtain ⟨⟨rest, b⟩, hplay, heq⟩ := Option.map_eq_some_iff.1 h
        cases heq
        exact ⟨hadmits, rest, rfl, ih hplay⟩
      · cases h

end Script
end CiroFuel
