import CiroFuel.Snapshot.System

/-!
# Rely and guarantee for interleaved handlers

A discipline names an invariant of the store, a preorder that every commit
respects, and for each label what its caller has established and what its
result promises. A handler is safe when it establishes the former using only
facts that the preorder preserves, so interference between its steps is
harmless by definition.

`Lawful.sound` turns the obligations for single commits and single handlers into
facts about every commit of every run. `Run.strengthen` is the special case that
adds an invariant and a preorder to a run whose commits are already understood.
-/
namespace CiroFuel.Snapshot

variable {K X : Type} [DecidableEq K] [DecidableEq X] {D : K → Type} [Indexed D X]
variable {L : Type} {R : L → Type} {ε Q A : Type}

structure Discipline (D : K → Type) [Indexed D X] {L : Type} (R : L → Type) where
  inv : Store D → Prop
  rely : Store D → Store D → Prop
  pre : L → Store D → ℕ → Prop := fun _ _ _ => True
  post : (l : L) → R l → Store D → Prop := fun _ _ _ => True

namespace Discipline

/-- A later instant of the same run. -/
structure Later (G : Discipline D R) (s : Store D) (c : ℕ) (s' : Store D) (c' : ℕ) : Prop where
  rely : G.rely s s'
  clock : c ≤ c'
  inv : G.inv s'

/-- What holds of the store once a call has answered. -/
def answered (G : Discipline D R) (l : L) (s : Store D) : Except (Failure ε) (R l) → Prop
  | .ok a => G.post l a s
  | .error _ => True

/-- From the store `s` at time `c` on, every call of the handler finds its
precondition established, whatever happens between its steps, and what the
handler returns satisfies `Q`. -/
def Safe (G : Discipline D R) (Q : A → Store D → ℕ → Prop) : Prog D R ε A → Store D → ℕ → Prop
  | .pure a, s, c => Q a s c
  | .fail _, _, _ => True
  | .read next, s, c => ∀ s' c', G.Later s c s' c' → G.Safe Q (next s'.docs) s' c'
  | .clock next, s, c => ∀ s' c', G.Later s c s' c' → G.Safe Q (next c') s' c'
  | .outside next, s, c => ∀ b, G.Safe Q (next b) s c
  | .call l next, s, c => (∀ s' c', G.Later s c s' c' → G.pre l s' c') ∧
      ∀ r s' c', G.Later s c s' c' → G.answered l s' r → G.Safe Q (next r) s' c'

/-- Of a handler as a whole only its calls matter. -/
abbrev Harmless (G : Discipline D R) (p : Prog D R ε A) (s : Store D) (c : ℕ) : Prop :=
  G.Safe (fun _ _ _ => True) p s c

/-- The rely is a preorder, and preconditions survive it. -/
structure Coherent (G : Discipline D R) : Prop where
  refl : ∀ s, G.rely s s
  trans : ∀ {a b c}, G.rely a b → G.rely b c → G.rely a c
  stable : ∀ {l s s' c}, G.pre l s c → G.rely s s' → G.inv s' → G.pre l s' c

/-- What a discipline says about a commit. -/
structure Holds (G : Discipline D R) (ev : Event D R) : Prop where
  inv_base : G.inv ev.base
  inv_before : G.inv ev.before
  inv_after : G.inv ev.after
  base_before : G.rely ev.base ev.before
  before_after : G.rely ev.before ev.after
  older : Store.Older ev.base ev.before
  pre : G.pre ev.label ev.base ev.began
  post : G.post ev.label ev.reply ev.after

/-- The obligations of a discipline on a machine whose commits satisfy `P`. -/
structure Lawful (G : Discipline D R) (M : Machine D R ε Q A) (P : Event D R → Prop) : Prop
    extends G.Coherent where
  handlers : ∀ q s c, G.inv s → M.admits q s.docs c = true → G.Harmless (M.handle q) s c
  keep : ∀ ev, ev.Sound M → P ev → G.inv ev.base → G.inv ev.before → G.rely ev.base ev.before →
    Store.Older ev.base ev.before → G.pre ev.label ev.base ev.began →
    G.inv ev.after ∧ G.rely ev.before ev.after ∧ G.post ev.label ev.reply ev.after

theorem Later.trans {G : Discipline D R}
    (trans : ∀ {a b c}, G.rely a b → G.rely b c → G.rely a c)
    {a b c : Store D} {i j k : ℕ} (hab : G.Later a i b j) (hbc : G.Later b j c k) :
    G.Later a i c k :=
  ⟨trans hab.rely hbc.rely, hab.clock.trans hbc.clock, hbc.inv⟩

/-! ### Proof rules for handlers -/

section rules
variable {G : Discipline D R} {B : Type} {U : B → Store D → ℕ → Prop}
variable {V : A → Store D → ℕ → Prop} {s : Store D} {c : ℕ}

theorem safe_pure {a : A} (h : V a s c) : G.Safe V (pure a : Prog D R ε A) s c := h

/-- The rest of a handler starts from what its first part returned, at a later
instant of the same run. -/
theorem Safe.bind (hG : G.Coherent) {p : Prog D R ε B} {f : B → Prog D R ε A}
    (hs : G.inv s) (hp : G.Safe U p s c)
    (hf : ∀ b s' c', G.Later s c s' c' → U b s' c' → G.Safe V (f b) s' c') :
    G.Safe V (p >>= f) s c := by
  change G.Safe V (Prog.bind p f) s c
  induction p generalizing s c with
  | pure b => exact hf b s c ⟨hG.refl s, le_rfl, hs⟩ hp
  | fail e => trivial
  | read next ih =>
      exact fun s' c' hl => ih _ hl.inv (hp s' c' hl) fun b s'' c'' hl' =>
        hf b s'' c'' (hl.trans hG.trans hl')
  | clock next ih =>
      exact fun s' c' hl => ih _ hl.inv (hp s' c' hl) fun b s'' c'' hl' =>
        hf b s'' c'' (hl.trans hG.trans hl')
  | outside next ih => exact fun b => ih b hs (hp b) hf
  | call l next ih =>
      exact ⟨hp.1, fun r s' c' hl hr => ih r hl.inv (hp.2 r s' c' hl hr) fun b s'' c'' hl' =>
        hf b s'' c'' (hl.trans hG.trans hl')⟩

/-- Calls whose preconditions always hold. -/
theorem safe_calls {S : L → Prop} {p : Prog D R ε A} (hpre : ∀ l, S l → ∀ s c, G.pre l s c)
    (h : p.Calls S) : G.Harmless p s c := by
  induction p generalizing s c with
  | pure a => trivial
  | fail e => trivial
  | read next ih => exact fun s' c' _ => ih _ (h _)
  | clock next ih => exact fun s' c' _ => ih _ (h _)
  | outside next ih => exact fun b => ih b (h b)
  | call l next ih =>
      constructor
      · intro s' c' _
        exact hpre l h.1 s' c'
      · intro r s' c' _ _
        exact ih r (h.2 r)

theorem safe_callFree {p : Prog D R ε A} (h : p.CallFree) : G.Harmless p s c :=
  safe_calls (fun _ hl => hl.elim) h

/-- A part that only reads may be taken as one step. -/
theorem safe_reads (hG : G.Coherent) {p : Prog D R ε B} {f : B → Prog D R ε A} (hs : G.inv s)
    (hp : p.CallFree) (h : ∀ b s' c', G.Later s c s' c' → G.Safe V (f b) s' c') :
    G.Safe V (p >>= f) s c :=
  Safe.bind hG hs (safe_callFree hp) fun b s' c' hl _ => h b s' c' hl

theorem safe_find {k : K} {f : Option (D k) → Prog D R ε A}
    (h : ∀ s' c', G.Later s c s' c' → G.Safe V (f (s'.find k)) s' c') :
    G.Safe V (Prog.find k >>= f) s c := h

theorem safe_scan {f : Docs D → Prog D R ε A}
    (h : ∀ s' c', G.Later s c s' c' → G.Safe V (f s'.docs) s' c') :
    G.Safe V (Prog.scan >>= f) s c := h

theorem safe_getTime {f : ℕ → Prog D R ε A}
    (h : ∀ s' c', G.Later s c s' c' → G.Safe V (f c') s' c') :
    G.Safe V (Prog.getTime >>= f) s c := h

theorem safe_attempt {l : L} {f : Except (Failure ε) (R l) → Prog D R ε A}
    (hpre : ∀ s' c', G.Later s c s' c' → G.pre l s' c')
    (h : ∀ r s' c', G.Later s c s' c' → G.answered l s' r → G.Safe V (f r) s' c') :
    G.Safe V (Prog.attempt l >>= f) s c := ⟨hpre, h⟩

theorem safe_perform {l : L} {f : R l → Prog D R ε A}
    (hpre : ∀ s' c', G.Later s c s' c' → G.pre l s' c')
    (h : ∀ a s' c', G.Later s c s' c' → G.post l a s' → G.Safe V (f a) s' c') :
    G.Safe V (Prog.perform l >>= f) s c := by
  refine ⟨hpre, fun r s' c' hl hr => ?_⟩
  cases r with
  | ok a => exact h a s' c' hl hr
  | error e => trivial

end rules

section sound
variable {G : Discipline D R} {M : Machine D R ε Q A} {P : Event D R → Prop}

theorem Harmless.later (trans : ∀ {a b c}, G.rely a b → G.rely b c → G.rely a c)
    {p : Prog D R ε A} {s s' : Store D} {c c' : ℕ} (h : G.Harmless p s c)
    (hl : G.Later s c s' c') : G.Harmless p s' c' := by
  induction p with
  | pure a => trivial
  | fail e => trivial
  | read next => exact fun s'' c'' hl' => h s'' c'' (hl.trans trans hl')
  | clock next => exact fun s'' c'' hl' => h s'' c'' (hl.trans trans hl')
  | outside next ih => exact fun b => ih b (h b)
  | call l next =>
      exact ⟨fun s'' c'' hl' => h.1 s'' c'' (hl.trans trans hl'),
        fun r s'' c'' hl' hr => h.2 r s'' c'' (hl.trans trans hl') hr⟩

/-- What a run maintains about one of its pending snapshots. -/
structure SnapshotOk (G : Discipline D R) (p : Pending D) (s : Store D) (c : ℕ) : Prop where
  inv : G.inv p.base
  rely : G.rely p.base s
  older : Store.Older p.base s
  clock : p.began ≤ c

structure ThreadOk (G : Discipline D R) (t : Thread D R ε A) (s : Store D) (c : ℕ) : Prop where
  safe : G.Harmless t.prog s c
  snapshot : ∀ p, t.pending = some p → G.SnapshotOk p s c
  ready : ∀ p l next, t.pending = some p → t.prog = .call l next → G.pre l p.base p.began

def SysOk (G : Discipline D R) (s : Sys D R ε A) : Prop :=
  G.inv s.store ∧ ∀ t ∈ s.threads, G.ThreadOk t s.store s.clock

theorem ThreadOk.later (trans : ∀ {a b c}, G.rely a b → G.rely b c → G.rely a c)
    {t : Thread D R ε A} {s s' : Store D} {c c' : ℕ} (h : G.ThreadOk t s c)
    (hl : G.Later s c s' c') (ho : Store.Older s s') : G.ThreadOk t s' c' :=
  ⟨h.safe.later trans hl,
    fun p hp => ⟨(h.snapshot p hp).inv, trans (h.snapshot p hp).rely hl.rely,
      (h.snapshot p hp).older.trans ho, (h.snapshot p hp).clock.trans hl.clock⟩,
    h.ready⟩

theorem threadOk_idle {t : Thread D R ε A} {s : Store D} {c : ℕ} (hp : t.pending = none)
    (h : G.Harmless t.prog s c) : G.ThreadOk t s c :=
  ⟨h, fun p hp' => by simp [hp] at hp', fun p l next hp' => by simp [hp] at hp'⟩

theorem SysOk.set {s : Sys D R ε A} (h : G.SysOk s) (i : ℕ) {t : Thread D R ε A}
    (ht : G.ThreadOk t s.store s.clock) : G.SysOk (s.set i t) := by
  refine ⟨h.1, fun t' ht' => ?_⟩
  rcases List.mem_or_eq_of_mem_set ht' with hmem | rfl
  · exact h.2 t' hmem
  · exact ht

theorem SysOk.thread {s : Sys D R ε A} (h : G.SysOk s) {i : ℕ} {t : Thread D R ε A}
    (ht : s.threads[i]? = some t) : G.ThreadOk t s.store s.clock :=
  h.2 t (List.mem_of_getElem? ht)

theorem Lawful.now (hG : G.Lawful M P) {s : Sys D R ε A} (h : G.SysOk s) :
    G.Later s.store s.clock s.store s.clock :=
  ⟨hG.refl _, le_rfl, h.1⟩

theorem Lawful.quiet (hG : G.Lawful M P) {s s' : Sys D R ε A} (h : G.SysOk s)
    (step : Quiet M s s') : G.SysOk s' := by
  have hnow := hG.now h
  cases step with
  | arrive q hq =>
      refine ⟨h.1, fun t ht => ?_⟩
      rcases List.mem_append.mp ht with hold | hnew
      · exact h.2 t hold
      · rw [List.mem_singleton.mp hnew]
        exact threadOk_idle rfl (hG.handlers q _ _ h.1 hq)
  | tick n =>
      refine ⟨h.1, fun t ht => (h.2 t ht).later hG.trans ?_ (Store.Older.refl _)⟩
      exact ⟨hG.refl _, Nat.le_add_right _ _, h.1⟩
  | stop i => exact h.set i (threadOk_idle rfl trivial)
  | read i ht => exact h.set i (threadOk_idle rfl ((h.thread ht).safe _ _ hnow))
  | clock i ht => exact h.set i (threadOk_idle rfl ((h.thread ht).safe _ _ hnow))
  | outside i b ht => exact h.set i (threadOk_idle rfl ((h.thread ht).safe b))
  | begin i ht =>
      have hsafe := (h.thread ht).safe
      refine h.set i ⟨hsafe, fun p hp => ?_, fun p l next hp hl => ?_⟩
      · cases hp
        exact ⟨h.1, hG.refl _, Store.Older.refl _, le_rfl⟩
      · cases hp
        cases hl
        exact hsafe.1 _ _ hnow
  | refuse i env ht hclock hrun =>
      exact h.set i (threadOk_idle rfl ((h.thread ht).safe.2 _ _ _ hnow trivial))
  | unavailable i ht =>
      exact h.set i (threadOk_idle rfl ((h.thread ht).safe.2 _ _ _ hnow trivial))

theorem Lawful.commit (hG : G.Lawful M P) {s s' : Sys D R ε A} {ev : Event D R} (h : G.SysOk s)
    (step : Commits M s ev s') (hP : P ev) : G.SysOk s' ∧ G.Holds ev := by
  have hsound := step.sound
  cases step with
  | @commit i l next p a v after env ht hclock hrun hcommit =>
      have hthread := h.thread ht
      have hsnap := hthread.snapshot p rfl
      have hseen : G.inv (M.seen l p.base s.store) ∧ G.rely (M.seen l p.base s.store) s.store ∧
          Store.Older (M.seen l p.base s.store) s.store := by
        unfold Machine.seen
        split_ifs
        · exact ⟨hsnap.inv, hsnap.rely, hsnap.older⟩
        · exact ⟨h.1, hG.refl _, Store.Older.refl _⟩
      have hpre : G.pre l (M.seen l p.base s.store) p.began := by
        unfold Machine.seen
        split_ifs
        · exact hthread.ready p l next rfl rfl
        · exact hG.stable (hthread.ready p l next rfl rfl) hsnap.rely h.1
      obtain ⟨hinv, hrely, hpost⟩ := hG.keep _ hsound hP hseen.1 h.1 hseen.2.1 hseen.2.2 hpre
      have hlater : G.Later s.store s.clock after s.clock := ⟨hrely, le_rfl, hinv⟩
      have holder : Store.Older s.store after := Store.commit_older hcommit
      refine ⟨⟨hinv, fun t ht' => ?_⟩, hseen.1, h.1, hinv, hseen.2.1, hrely, hseen.2.2, hpre, hpost⟩
      rcases List.mem_or_eq_of_mem_set ht' with hmem | rfl
      · exact (h.2 t hmem).later hG.trans hlater holder
      · exact threadOk_idle rfl (hthread.safe.2 (.ok a) _ _ hlater hpost)

/-- Every run keeps the discipline, and all its commits are as it says. -/
theorem Lawful.sound (hG : G.Lawful M P) {init : Store D} (hinit : G.inv init)
    {log : List (Event D R)} {s : Sys D R ε A} (h : Run M init P log s) :
    G.SysOk s ∧ Run M init (fun ev => P ev ∧ G.Holds ev) log s := by
  induction h with
  | start => exact ⟨⟨hinit, fun t ht => by cases ht⟩, .start⟩
  | quiet _ step ih => exact ⟨hG.quiet ih.1 step, ih.2.quiet step⟩
  | commit _ step hP ih =>
      obtain ⟨hok, hholds⟩ := hG.commit ih.1 step hP
      exact ⟨hok, ih.2.commit step ⟨hP, hholds⟩⟩

/-- What is lawful on a machine is so on one that admits fewer requests. -/
theorem Lawful.only (hG : G.Lawful M P) (p : Q → Bool) : G.Lawful (M.only p) P where
  toCoherent := hG.toCoherent
  handlers := fun q s c hs hq => hG.handlers q s c hs (Bool.and_eq_true_iff.mp hq).2
  keep := fun ev hev => hG.keep ev hev.of_only

/-- Handlers establish a precondition that is always true. -/
theorem safe_of_pre_true (hpre : ∀ l s c, G.pre l s c) (p : Prog D R ε A) (s : Store D) (c : ℕ) :
    G.Harmless p s c := by
  induction p generalizing s c with
  | pure a => trivial
  | fail e => trivial
  | read next ih => exact fun s' c' _ => ih _ s' c'
  | clock next ih => exact fun s' c' _ => ih _ s' c'
  | outside next ih => exact fun b => ih b s c
  | call l next ih => exact ⟨fun s' c' _ => hpre l s' c', fun r s' c' _ _ => ih r s' c'⟩

end sound
end Discipline

section strengthen
variable {M : Machine D R ε Q A} {P : Event D R → Prop} {init : Store D}
variable {log : List (Event D R)} {s : Sys D R ε A}

/-- Adds an invariant and a preorder of the store to a run. -/
theorem Run.strengthen (inv : Store D → Prop) (rely : Store D → Store D → Prop)
    (refl : ∀ s, rely s s) (trans : ∀ {a b c}, rely a b → rely b c → rely a c)
    (hinit : inv init)
    (keep : ∀ ev, ev.Sound M → P ev → inv ev.base → inv ev.before → rely ev.base ev.before →
      inv ev.after ∧ rely ev.before ev.after)
    (h : Run M init P log s) :
    inv s.store ∧
      Run M init (fun ev => P ev ∧ inv ev.base ∧ inv ev.before ∧ inv ev.after ∧
        rely ev.base ev.before ∧ rely ev.before ev.after) log s := by
  let G : Discipline D R := { inv := inv, rely := rely }
  have hG : G.Lawful M P :=
    { refl := refl
      trans := trans
      stable := fun _ _ _ => trivial
      handlers := fun q s c _ _ => Discipline.safe_of_pre_true (fun _ _ _ => trivial) _ s c
      keep := fun ev hs hP hb hn hr _ _ =>
        ⟨(keep ev hs hP hb hn hr).1, (keep ev hs hP hb hn hr).2, trivial⟩ }
  obtain ⟨hok, hrun⟩ := hG.sound hinit h
  refine ⟨hok.1, hrun.weaken fun ev _ hev => ?_⟩
  exact ⟨hev.1, hev.2.inv_base, hev.2.inv_before, hev.2.inv_after, hev.2.base_before,
    hev.2.before_after⟩

/-- Every snapshot of a run is an earlier state of the store it commits to. -/
theorem Run.snapshots (h : Run M init P log s) :
    Run M init (fun ev => P ev ∧ Store.Older ev.base ev.before) log s := by
  let G : Discipline D R := { inv := fun _ => True, rely := fun _ _ => True }
  have hG : G.Lawful M P :=
    { refl := fun _ => trivial
      trans := fun _ _ => trivial
      stable := fun _ _ _ => trivial
      handlers := fun q s c _ _ => Discipline.safe_of_pre_true (fun _ _ _ => trivial) _ s c
      keep := fun _ _ _ _ _ _ _ _ => ⟨trivial, trivial, trivial⟩ }
  exact (hG.sound trivial h).2.weaken fun ev _ hev => ⟨hev.1, hev.2.older⟩

/-- Adds an invariant of the store to a run. -/
theorem Run.invariant (inv : Store D → Prop) (hinit : inv init)
    (keep : ∀ ev, ev.Sound M → P ev → inv ev.base → inv ev.before → inv ev.after)
    (h : Run M init P log s) :
    inv s.store ∧
      Run M init (fun ev => P ev ∧ inv ev.base ∧ inv ev.before ∧ inv ev.after) log s := by
  obtain ⟨hs, hrun⟩ := h.strengthen inv (fun _ _ => True) (fun _ => trivial)
    (fun _ _ => trivial) hinit fun ev hsound hP hb hn _ => ⟨keep ev hsound hP hb hn, trivial⟩
  exact ⟨hs, hrun.weaken fun ev _ hev => ⟨hev.1, hev.2.1, hev.2.2.1, hev.2.2.2.1⟩⟩

end strengthen
end CiroFuel.Snapshot
