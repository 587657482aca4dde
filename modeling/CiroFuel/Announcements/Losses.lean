import CiroFuel.Announcements.Fanout
import CiroFuel.Snapshot.Outcomes

/-!
# Who is told in the end

A job that starts after all others have ended meets the rows they left. It skips the
person of every such row, whether the row names a notification or not. For the others
it goes by the first candidate that names them.
-/
namespace CiroFuel.Announcements
open Snapshot

/-- The candidate names the person and says that they can be reached. -/
def AnnouncementCandidate.Reaches (c : AnnouncementCandidate) (u : Id) : Prop :=
  c.failureReason = none ∧ c.recipient = some u

/-- The first candidate that names a person. -/
def firstFor (u : Id) (candidates : List AnnouncementCandidate) : Option AnnouncementCandidate :=
  candidates.find? fun c => c.recipient = some u

/-- The person has a notification, and a row that names it. -/
def Told (s : Store Doc) (a u : Id) : Prop :=
  ∃ row d id n, delivery s row = some d ∧ d.Names a u ∧ d.notificationId = some id ∧
    notification s id = some n ∧ n.Tells a u

/-- The commit writes a row of the announcement. -/
def writesRow (a : Id) (ev : Event Doc Call.Reply) : Bool :=
  match ev.label with
  | .createDelivery a' _ => a' = a
  | .deleteDelivery row | .setNotificationId row _ =>
      (delivery ev.before row).any fun d => d.announcementId = a
  | _ => false

def Progress.candidates (p : Progress) : List AnnouncementCandidate := (p.done.map Prod.fst).reverse

theorem Progress.candidates_add (p : Progress) (c : AnnouncementCandidate) (o : Outcome) :
    (p.add c o).candidates = p.candidates ++ [c] := by
  simp [Progress.candidates, Progress.add]

theorem firstFor_append {u : Id} {c : AnnouncementCandidate} {cs : List AnnouncementCandidate} :
    firstFor u (cs ++ [c]) =
      (firstFor u cs).or (if c.recipient = some u then some c else none) := by
  rw [firstFor, List.find?_append]
  by_cases hc : c.recipient = some u
  · simp [firstFor, hc]
  · simp [firstFor, hc]

/-- A candidate whose row a job is working on. -/
structure Held where
  candidate : AnnouncementCandidate
  row : Id
  recipient : Id

namespace Ghost

/-- What a job has done, and what it is working on. -/
def work : Ghost → Option (Progress × Option Held)
  | .fanning p => some (p, none)
  | .holding p c h _ => some (p, some ⟨c, h.row, h.recipient⟩)
  | .closed p => some (p, none)
  | _ => none

end Ghost

/-- How the rows of the announcement `a` relate to those of `s₀` once the candidates `cs`
are done, while the job may hold one more row. -/
structure Settled (s₀ s : Store Doc) (a : Id) (cs : List AnnouncementCandidate)
    (held : Option Held) : Prop where
  untouched : ∀ u, (∀ row d, delivery s₀ row = some d → ¬ d.Names a u) → firstFor u cs = none →
    ∀ row d, delivery s row = some d → d.Names a u → ∃ e ∈ held, e.row = row
  settled : ∀ u c, (∀ row d, delivery s₀ row = some d → ¬ d.Names a u) → firstFor u cs = some c →
    ∃ row d, delivery s row = some d ∧ d.Names a u ∧
      d.notificationId.isSome = c.failureReason.isNone
  taken : ∀ e ∈ held, firstFor e.recipient cs = none ∧ e.candidate.Reaches e.recipient

/-- The job of thread `i` is the only one to write rows of `a` since the store was `s₀`. -/
structure Segment (a : Id) (i : ℕ) (s₀ : Store Doc) (log : List (Event Doc Call.Reply))
    (s : Store Doc) (γ : ℕ → Ghost) : Prop where
  kept : ∀ row d, delivery s₀ row = some d → d.announcementId = a → delivery s row = some d
  held : ∀ p e, (γ i).work = some (p, some e) → p.announcementId = a →
    ∀ d, delivery s₀ e.row = some d → d.announcementId ≠ a
  quiet : (∀ ev ∈ log, ev.thread ≠ i) → ∀ row d, delivery s row = some d →
    d.announcementId = a → delivery s₀ row = some d
  unstarted : ∀ a', γ i = .waiting a' → ∀ ev ∈ log, ev.thread ≠ i
  job : ∀ p held, (γ i).work = some (p, held) → p.announcementId = a →
    Settled s₀ s a p.candidates held

section segment
variable {a : Id} {i j : ℕ} {s₀ s s' : Store Doc} {γ : ℕ → Ghost} {g : Ghost}
variable {log : List (Event Doc Call.Reply)}

/-- A thread goes on without a commit. -/
theorem Segment.update (h : Segment a i s₀ log s γ)
    (hheld : ∀ p e, g.work = some (p, some e) → (γ j).work = some (p, some e))
    (hjob : j = i → ∀ p held, g.work = some (p, held) → p.announcementId = a →
      Settled s₀ s a p.candidates held)
    (hwaiting : ∀ a', g = .waiting a' → ∀ ev ∈ log, ev.thread ≠ j) :
    Segment a i s₀ log s (Function.update γ j g) := by
  constructor
  · exact h.kept
  · intro p e hp
    by_cases hij : i = j
    · subst hij
      rw [Function.update_self] at hp
      exact h.held p e (hheld p e hp)
    · rw [Function.update_of_ne hij] at hp
      exact h.held p e hp
  · exact h.quiet
  · intro a' ha'
    by_cases hij : i = j
    · subst hij
      rw [Function.update_self] at ha'
      exact hwaiting a' ha'
    · rw [Function.update_of_ne hij] at ha'
      exact h.unstarted a' ha'
  · intro p held hp
    by_cases hij : i = j
    · subst hij
      rw [Function.update_self] at hp
      exact hjob rfl p held hp
    · rw [Function.update_of_ne hij] at hp
      exact h.job p held hp

/-- The thread comes to an end, or its call has failed without consequences. -/
theorem Segment.pause (h : Segment a i s₀ log s γ) (j : ℕ)
    (hg : g.work = none ∨ g.work = (γ j).work)
    (hwaiting : ∀ a', g = .waiting a' → ∀ ev ∈ log, ev.thread ≠ j) :
    Segment a i s₀ log s (Function.update γ j g) := by
  have hwork : ∀ {w}, g.work = some w → (γ j).work = some w := by
    intro w hw
    rcases hg with hnone | hsame
    · rw [hnone] at hw
      cases hw
    · rw [← hsame]
      exact hw
  apply h.update
  · intro p e hp
    exact hwork hp
  · rintro rfl p held hp
    exact h.job p held (hwork hp)
  · exact hwaiting

/-- A row that is none of the announcement, before and after. -/
theorem rows_elsewhere {row : Id} {x : Option AnnouncementDelivery}
    (hput : Store.Puts s s' (Key.delivery row) x)
    (hbefore : ∀ d, delivery s row = some d → d.announcementId ≠ a)
    (hafter : ∀ d, x = some d → d.announcementId ≠ a) (row' : Id) (d : AnnouncementDelivery)
    (hd : d.announcementId = a) : delivery s' row' = some d ↔ delivery s row' = some d := by
  by_cases hrow : row' = row
  · subst hrow
    rw [delivery_put_self hput]
    constructor
    · intro hx
      exact absurd hd (hafter d hx)
    · intro hx
      exact absurd hd (hbefore d hx)
  · rw [delivery_put_ne hput hrow]

/-- The rows of the announcement that were there before the job survive its writes. -/
theorem Segment.kept_put (h : Segment a i s₀ log s γ) {row : Id} {x : Option AnnouncementDelivery}
    (hput : Store.Puts s s' (Key.delivery row) x)
    (hold : ∀ d, delivery s₀ row = some d → d.announcementId ≠ a) (row' : Id)
    (d : AnnouncementDelivery) (hd : delivery s₀ row' = some d) (hda : d.announcementId = a) :
    delivery s' row' = some d := by
  rw [delivery_put_ne hput, h.kept row' d hd hda]
  rintro rfl
  exact hold d hd hda

/-- A commit that leaves the rows of the announcement. -/
theorem Segment.elsewhere (h : Segment a i s₀ log s γ) {ev : Event Doc Call.Reply}
    (hrows : ∀ row d, d.announcementId = a → (delivery s' row = some d ↔ delivery s row = some d))
    (hg : ∀ p w, g.work = some (p, w) → p.announcementId = a → (γ ev.thread).work = some (p, w))
    (hwaiting : ∀ a', g ≠ .waiting a') :
    Segment a i s₀ (ev :: log) s' (Function.update γ ev.thread g) := by
  have hwork : ∀ {k p w}, (Function.update γ ev.thread g k).work = some (p, w) →
      p.announcementId = a → (γ k).work = some (p, w) := by
    intro k p w hw hp
    by_cases hk : k = ev.thread
    · subst hk
      rw [Function.update_self] at hw
      exact hg p w hw hp
    · rwa [Function.update_of_ne hk] at hw
  constructor
  · intro row d hd hda
    exact (hrows row d hda).mpr (h.kept row d hd hda)
  · intro p e hp hpa
    exact h.held p e (hwork hp hpa) hpa
  · intro hlog row d hd hda
    apply h.quiet ?_ row d ((hrows row d hda).mp hd) hda
    intro ev' hev'
    exact hlog ev' (List.mem_cons_of_mem _ hev')
  · intro a' ha' ev' hev'
    by_cases hk : i = ev.thread
    · subst hk
      rw [Function.update_self] at ha'
      exact absurd ha' (hwaiting a')
    · rw [Function.update_of_ne hk] at ha'
      rcases List.mem_cons.mp hev' with rfl | hold
      · exact fun h => hk h.symm
      · exact h.unstarted a' ha' ev' hold
  · intro p held hp hpa
    have hsettled := h.job p held (hwork hp hpa) hpa
    constructor
    · intro u hu hfirst row d hd hnames
      exact hsettled.untouched u hu hfirst row d ((hrows row d hnames.1).mp hd) hnames
    · intro u c hu hfirst
      obtain ⟨row, d, hd, hnames, hnamed⟩ := hsettled.settled u c hu hfirst
      exact ⟨row, d, (hrows row d hnames.1).mpr hd, hnames, hnamed⟩
    · exact hsettled.taken

/-- A commit to a row of another announcement, by a handler that works on that one. -/
theorem Segment.other_row (h : Segment a i s₀ log s γ) {ev : Event Doc Call.Reply} {row b : Id}
    {x : Option AnnouncementDelivery} (hput : Store.Puts s s' (Key.delivery row) x) (hb : b ≠ a)
    (hbefore : ∀ d, delivery s row = some d → d.announcementId = b)
    (hafter : ∀ d, x = some d → d.announcementId = b)
    (hwork : ∀ p w, g.work = some (p, w) → p.announcementId = b)
    (hwaiting : ∀ a', g ≠ .waiting a') :
    Segment a i s₀ (ev :: log) s' (Function.update γ ev.thread g) := by
  apply h.elsewhere (rows_elsewhere hput ?_ ?_) ?_ hwaiting
  · exact fun d hd => (hbefore d hd).trans_ne hb
  · exact fun d hd => (hafter d hd).trans_ne hb
  · exact fun p w hw hpa => absurd ((hwork p w hw).symm.trans hpa) hb

/-- A commit of the job itself. -/
theorem Segment.own (h : Segment a i s₀ log s γ) {ev : Event Doc Call.Reply} (hi : ev.thread = i)
    (hkept : ∀ row d, delivery s₀ row = some d → d.announcementId = a → delivery s' row = some d)
    (hheld : ∀ p e, g.work = some (p, some e) → p.announcementId = a →
      ∀ d, delivery s₀ e.row = some d → d.announcementId ≠ a)
    (hjob : ∀ p held, g.work = some (p, held) → p.announcementId = a →
      Settled s₀ s' a p.candidates held)
    (hwaiting : ∀ a', g ≠ .waiting a') :
    Segment a i s₀ (ev :: log) s' (Function.update γ ev.thread g) := by
  subst hi
  constructor
  · exact hkept
  · intro p e hp hpa
    rw [Function.update_self] at hp
    exact hheld p e hp hpa
  · intro hlog
    exact absurd rfl (hlog ev List.mem_cons_self)
  · intro a' ha'
    rw [Function.update_self] at ha'
    exact absurd ha' (hwaiting a')
  · intro p held hp hpa
    rw [Function.update_self] at hp
    exact hjob p held hp hpa

end segment

/-! ### One more candidate -/

section settled
variable {s₀ s s' : Store Doc} {a u row : Id} {c : AnnouncementCandidate}
variable {cs : List AnnouncementCandidate}

/-- The row of a candidate who can be reached is inserted. -/
theorem Settled.inserted (h : Settled s₀ s a cs none)
    (hkept : ∀ row d, delivery s₀ row = some d → d.announcementId = a → delivery s row = some d)
    (hnew : delivery s row = none)
    (hput : Store.Puts s s' (Key.delivery row) (some (deliveryOf a c)))
    (hfree : ∀ u, c.recipient = some u → ∀ row' d, delivery s row' = some d → ¬ d.Names a u)
    (hc : c.Reaches u) : Settled s₀ s' a cs (some ⟨c, row, u⟩) := by
  constructor
  · intro u' hu' hfirst row' d hd hnames
    by_cases hrow : row' = row
    · exact ⟨_, rfl, hrow.symm⟩
    · rw [delivery_put_ne hput hrow] at hd
      obtain ⟨e, he, -⟩ := h.untouched u' hu' hfirst row' d hd hnames
      cases he
  · intro u' c' hu' hfirst
    obtain ⟨row', d, hd, hnames, hnamed⟩ := h.settled u' c' hu' hfirst
    refine ⟨row', d, ?_, hnames, hnamed⟩
    rw [delivery_put_ne hput, hd]
    rintro rfl
    cases hnew.symm.trans hd
  · rintro e ⟨rfl⟩
    refine ⟨?_, hc⟩
    -- Were the person done, or met before the job, a row would name them.
    have hold : ∀ row d, delivery s₀ row = some d → ¬ d.Names a u :=
      fun row' d hd hnames => hfree u hc.2 row' d (hkept row' d hd hnames.1) hnames
    cases hfirst : firstFor u cs with
    | none => rfl
    | some c' =>
        obtain ⟨row', d, hd, hnames, -⟩ := h.settled u c' hold hfirst
        exact absurd hnames (hfree u hc.2 row' d hd)

/-- The row of a candidate who cannot be reached is inserted, and that is all. -/
theorem Settled.missed (h : Settled s₀ s a cs none) (hnew : delivery s row = none)
    (hput : Store.Puts s s' (Key.delivery row) (some (deliveryOf a c)))
    (hc : ∀ u, ¬ c.Reaches u) : Settled s₀ s' a (cs ++ [c]) none := by
  have hrest : ∀ {row' d}, delivery s row' = some d → delivery s' row' = some d := by
    intro row' d hd
    rw [delivery_put_ne hput, hd]
    rintro rfl
    cases hnew.symm.trans hd
  constructor
  · intro u hu hfirst row' d hd hnames
    rw [firstFor_append, Option.or_eq_none_iff] at hfirst
    by_cases hrow : row' = row
    · subst hrow
      cases (delivery_put_self hput).symm.trans hd
      have hrecipient : c.recipient = some u := hnames.2
      rw [if_pos hrecipient] at hfirst
      cases hfirst.2
    · rw [delivery_put_ne hput hrow] at hd
      exact h.untouched u hu hfirst.1 row' d hd hnames
  · intro u c' hu hfirst
    rw [firstFor_append] at hfirst
    cases hold : firstFor u cs with
    | some c'' =>
        rw [hold] at hfirst
        cases hfirst
        obtain ⟨row', d, hd, hnames, hnamed⟩ := h.settled u c' hu hold
        exact ⟨row', d, hrest hd, hnames, hnamed⟩
    | none =>
        rw [hold, Option.none_or] at hfirst
        split_ifs at hfirst with hrecipient
        cases hfirst
        refine ⟨row, _, delivery_put_self hput, ⟨rfl, hrecipient⟩, ?_⟩
        cases hreason : c.failureReason with
        | none => exact absurd ⟨hreason, hrecipient⟩ (hc u)
        | some reason => rfl
  · intro e he
    cases he

/-- The row that is held gets its notification. -/
theorem Settled.named {k : Held} {d : AnnouncementDelivery} {id : Id}
    (h : Settled s₀ s a cs (some k)) (hd : delivery s k.row = some d)
    (hnames : d.Names a k.recipient)
    (hput : Store.Puts s s' (Key.delivery k.row) (some { d with notificationId := some id })) :
    Settled s₀ s' a (cs ++ [k.candidate]) none := by
  obtain ⟨hfirst, hreason, hrecipient⟩ := h.taken _ rfl
  have hself := delivery_put_self hput
  have hother : ∀ {u}, u ≠ k.recipient → firstFor u (cs ++ [k.candidate]) = firstFor u cs := by
    intro u hu
    rw [firstFor_append, if_neg, Option.or_none]
    intro h
    rw [hrecipient] at h
    cases h
    exact hu rfl
  have hlast : firstFor k.recipient (cs ++ [k.candidate]) = some k.candidate := by
    rw [firstFor_append, hfirst, Option.none_or, if_pos hrecipient]
  -- A row that names somebody else is not the one that is held.
  have hrow : ∀ {u row d'}, u ≠ k.recipient → delivery s row = some d' → d'.Names a u →
      row ≠ k.row := by
    rintro u row d' hu hd' hnames' rfl
    cases hd.symm.trans hd'
    obtain ⟨-, hu'⟩ := hnames'
    rw [hnames.2] at hu'
    cases hu'
    exact hu rfl
  constructor
  · intro u hu hnone row d' hd' hnames'
    by_cases hk : u = k.recipient
    · subst hk
      rw [hlast] at hnone
      cases hnone
    · by_cases hheld : row = k.row
      · subst hheld
        cases hself.symm.trans hd'
        exact absurd rfl (hrow hk hd hnames')
      · rw [delivery_put_ne hput hheld] at hd'
        rw [hother hk] at hnone
        obtain ⟨e, he, rfl⟩ := h.untouched u hu hnone row d' hd' hnames'
        cases he
        exact absurd rfl hheld
  · intro u c' hu hsome
    by_cases hk : u = k.recipient
    · subst hk
      rw [hlast] at hsome
      cases hsome
      exact ⟨k.row, _, hself, hnames, by rw [hreason]; rfl⟩
    · rw [hother hk] at hsome
      obtain ⟨row, d', hd', hnames', hnamed⟩ := h.settled u c' hu hsome
      refine ⟨row, d', ?_, hnames', hnamed⟩
      rw [delivery_put_ne hput (hrow hk hd' hnames'), hd']
  · intro e he
    cases he

/-- A candidate is skipped for the sake of a row. -/
theorem Settled.skipped (h : Settled s₀ s a cs none)
    (hrow : ∀ u, c.recipient = some u → ∃ row d, delivery s row = some d ∧ d.Names a u) :
    Settled s₀ s a (cs ++ [c]) none := by
  constructor
  · intro u hu hfirst
    rw [firstFor_append, Option.or_eq_none_iff] at hfirst
    exact h.untouched u hu hfirst.1
  · intro u c' hu hfirst
    cases hold : firstFor u cs with
    | some c'' =>
        rw [firstFor_append, hold] at hfirst
        cases hfirst
        exact h.settled u c' hu hold
    | none =>
        -- There is a row, but the job has found none.
        rw [firstFor_append, hold, Option.none_or] at hfirst
        split_ifs at hfirst with hrecipient
        obtain ⟨row, d, hd, hnames⟩ := hrow u hrecipient
        obtain ⟨e, he, -⟩ := h.untouched u hu hold row d hd hnames
        cases he
  · intro e he
    cases he

end settled

/-! ### The run of the job -/

section run
variable {a : Id} {i : ℕ} {s₀ : Store Doc} {γ : ℕ → Ghost} {log : List (Event Doc Call.Reply)}

theorem Ghost.done_working (g : Ghost) (l : Call) (r : l.Reply) (a' : Id) : g.done l r ≠ .waiting a' := by
  unfold Ghost.done
  split
  · split
    · exact Ghost.noConfusion
    · exact Ghost.noConfusion
  all_goals exact Ghost.noConfusion

theorem Segment.commit {ev : Event Doc Call.Reply} (hev : ev.Sound machine)
    (halone : writesRow a ev = true → ev.thread = i) (hledger : Ledger ev.before γ)
    (h : Segment a i s₀ log ev.before γ) (hallowed : (γ ev.thread).allowed ev.label) :
    Segment a i s₀ (ev :: log) ev.after
      (Function.update γ ev.thread ((γ ev.thread).done ev.label ev.reply)) := by
  have hstep := call_step hev
  have hwaiting := Ghost.done_working (γ ev.thread) ev.label ev.reply
  generalize hg : γ ev.thread = g at hallowed hwaiting ⊢
  obtain ⟨j, label, base, env, began, ended, reply, view, before, after⟩ := ev
  change CallStep before after label reply at hstep
  change Ledger before γ at hledger
  change Segment a i s₀ log before γ at h
  -- A commit to documents of another kind.
  have other : ∀ {g' : Ghost}, (∀ row, delivery after row = delivery before row) →
      (∀ p w, g'.work = some (p, w) → p.announcementId = a → (γ j).work = some (p, w)) →
      (∀ a', g' ≠ .waiting a') →
      Segment a i s₀ (⟨j, label, base, env, began, ended, reply, view, before, after⟩ :: log) after
        (Function.update γ j g') := by
    intro g' hrows hwork hwait
    exact h.elsewhere (fun row d _ => by rw [hrows]) hwork hwait
  cases g with
  | idle =>
      cases hstep with
      | created hnew hput =>
          exact other (delivery_put hput fun _ h => by cases h) (fun p w hw => by cases hw) hwaiting
      | user hput =>
          exact other (delivery_put hput fun _ h => by cases h) (fun p w hw => by cases hw) hwaiting
      | company hput =>
          exact other (delivery_put hput fun _ h => by cases h) (fun p w hw => by cases hw) hwaiting
      | _ => exact hallowed.elim
  | waiting a => cases label <;> exact hallowed.elim
  | closed p => cases label <;> exact hallowed.elim
  | fanning p =>
      have hjob : (γ j).work = some (p, none) := by
        rw [show γ j = .fanning p from hg]
        rfl
      cases hstep with
      | @inserted a' c row hnew hput hfree =>
          obtain rfl : a' = p.announcementId := hallowed
          have hnone : delivery before row = none := by
            rw [delivery, hnew]
            rfl
          by_cases ha : p.announcementId = a
          · subst ha
            obtain rfl : j = i := halone (decide_eq_true rfl)
            have hsettled := h.job p none hjob rfl
            have hold : ∀ d, delivery s₀ row = some d → d.announcementId ≠ p.announcementId := by
              intro d hd hda
              cases hnone.symm.trans (h.kept row d hd hda)
            apply h.own rfl (h.kept_put hput hold) ?_ ?_ hwaiting
            · intro p' e hw _
              simp only [Ghost.done] at hw
              split at hw
              · cases hw
                exact hold
              · cases hw
            · intro p' held hw _
              simp only [Ghost.done] at hw
              split at hw
              · rename_i recipient hreason hrecipient
                cases hw
                exact hsettled.inserted h.kept hnone hput hfree ⟨hreason, hrecipient⟩
              · rename_i hunreachable
                cases hw
                rw [Progress.candidates_add]
                apply hsettled.missed hnone hput
                rintro u ⟨hreason, hrecipient⟩
                exact hunreachable u hreason hrecipient
          · apply h.other_row hput ha ?_ ?_ ?_ hwaiting
            · intro d hd
              cases hnone.symm.trans hd
            · rintro d ⟨rfl⟩
              rfl
            · intro p' w hw
              simp only [Ghost.done] at hw
              split at hw <;> (cases hw; rfl)
      | completed hx hput =>
          exact other (delivery_put hput fun _ h => by cases h)
            (fun p' w hw _ => by rw [hjob, ← hw]; rfl) hwaiting
      | uncompleted hnone hsame =>
          exact other (fun row => by rw [delivery, delivery, hsame])
            (fun p' w hw _ => by rw [hjob, ← hw]; rfl) hwaiting
      | _ => exact hallowed.elim
  | holding p c k undoing =>
      have hjob : (γ j).work = some (p, some ⟨c, k.row, k.recipient⟩) := by
        rw [show γ j = .holding p c k undoing from hg]
        rfl
      have hk : (γ j).hold = some (p.announcementId, k) := by
        rw [show γ j = .holding p c k undoing from hg]
        rfl
      obtain ⟨d, hd, hnames, -⟩ := hledger.holding j _ k hk
      have hbefore : ∀ d', delivery before k.row = some d' →
          d'.announcementId = p.announcementId := by
        intro d' hd'
        cases hd.symm.trans hd'
        exact hnames.1
      cases hstep with
      | notified hnew hput =>
          exact other (delivery_put hput fun _ h => by cases h)
            (fun p' w hw _ => by rw [hjob, ← hw]; rfl) hwaiting
      | deleted hd' hput =>
          obtain ⟨rfl, -⟩ := hallowed
          cases hd'.symm.trans hd
          by_cases ha : p.announcementId = a
          · subst ha
            obtain rfl : j = i := halone (by simp [writesRow, hd, hnames.1])
            have hold := h.held p _ hjob rfl
            exact h.own rfl (h.kept_put hput hold) (fun p' e hw => by cases hw)
              (fun p' w hw => by cases hw) hwaiting
          · exact h.other_row hput ha hbefore (fun d' hd' => by cases hd')
              (fun p' w hw => by cases hw) hwaiting
      | undeleted hnone hsame =>
          obtain ⟨rfl, -⟩ := hallowed
          cases hnone.symm.trans hd
      | named hd' hput =>
          obtain ⟨rfl, -⟩ := hallowed
          cases hd'.symm.trans hd
          by_cases ha : p.announcementId = a
          · subst ha
            obtain rfl : j = i := halone (by simp [writesRow, hd, hnames.1])
            have hold := h.held p _ hjob rfl
            apply h.own rfl (h.kept_put hput hold) (fun p' e hw => by cases hw) ?_ hwaiting
            intro p' held hw _
            cases hw
            rw [Progress.candidates_add]
            exact (h.job p _ hjob rfl).named hd hnames hput
          · apply h.other_row hput ha hbefore ?_ ?_ hwaiting
            · rintro d' ⟨rfl⟩
              exact hnames.1
            · intro p' w hw
              cases hw
              rfl
      | unnamed hnone hsame =>
          obtain ⟨rfl, -⟩ := hallowed
          cases hnone.symm.trans hd
      | _ => exact hallowed.elim

/-- The job has found its announcement; so far the rows are those that were there. -/
theorem Segment.started {s : Store Doc} (h : Segment a i s₀ log s γ) {j : ℕ} {a' : Id}
    (hwaiting : γ j = .waiting a') :
    Segment a i s₀ log s (Function.update γ j (.fanning { announcementId := a' })) := by
  apply h.update
  · intro p e hp
    cases hp
  · rintro rfl p held hp hpa
    cases hp
    obtain rfl : a' = a := hpa
    have hquiet := h.quiet (h.unstarted a' hwaiting)
    constructor
    · intro u hu _ row d hd hnames
      exact absurd hnames (hu row d (hquiet row d hd hnames.1))
    · intro u c _ hfirst
      cases hfirst
    · intro e he
      cases he
  · intro a'' ha''
    cases ha''

/-- The job has met a row for its candidate. -/
theorem Segment.skipped {s : Store Doc} (h : Segment a i s₀ log s γ) {j : ℕ} {p : Progress}
    {c : AnnouncementCandidate} (hfanning : γ j = .fanning p)
    (hrow : ∀ u, c.recipient = some u → ∃ row d, delivery s row = some d ∧
      d.Names p.announcementId u) :
    Segment a i s₀ log s (Function.update γ j (.fanning (p.add c .skipped))) := by
  apply h.update
  · intro p' e hp
    cases hp
  · rintro rfl p' held hp hpa
    cases hp
    obtain rfl : p.announcementId = a := hpa
    have hjob : (γ j).work = some (p, none) := by
      rw [hfanning]
      rfl
    rw [Progress.candidates_add]
    exact (h.job p none hjob rfl).skipped hrow
  · intro a' ha'
    cases ha'

theorem segment_keeps : worker.Keeps machine (fun ev => writesRow a ev = true → ev.thread = i)
    fun log s γ => Ledger s γ ∧ Segment a i s₀ log s γ where
  handlers := ledger_keeps.handlers
  failures := ledger_keeps.failures
  arrive {log s γ j q} h hidle hnew := by
    refine ⟨ledger_keeps.arrive h.1 hidle hnew, h.2.pause j ?_ fun _ _ => hnew⟩
    cases q <;> exact Or.inl rfl
  stop j h := ⟨h.1.update j (Or.inl rfl), h.2.pause j (Or.inl rfl) fun _ h => by cases h⟩
  read {log s γ} j h := by
    refine ⟨h.1.update j (Ghost.seen_hold _ _), ?_⟩
    change Segment a i s₀ log s (Function.update γ j (Ghost.seen (γ j) s.docs))
    cases hg : γ j with
    | waiting a' =>
        simp only [Ghost.seen]
        split
        · exact h.2.pause j (Or.inl rfl) fun _ h => by cases h
        · exact h.2.started hg
    | _ =>
        rw [Ghost.seen, ← hg, Function.update_eq_self]
        · exact h.2
        · exact fun _ h => by cases h
  refuse {log s γ j l e} h hallowed hrefuses := by
    refine ⟨h.1.update j (Ghost.failed_hold _ _ _), ?_⟩
    change Segment a i s₀ log s (Function.update γ j (Ghost.failed (γ j) l e))
    unfold Ghost.failed
    split
    · rename_i p a' c hg
      split_ifs with hdup
      · subst hdup
        have ha : a' = p.announcementId := by
          rw [hg] at hallowed
          exact hallowed
        apply h.2.skipped hg
        intro u hu
        rw [← ha]
        exact createDelivery_refused hu hrefuses
      · exact h.2.pause j (Or.inl rfl) fun _ h => by cases h
    · rename_i hg
      apply h.2.pause j
      · right
        rw [hg]
        rfl
      · intro a' ha'
        cases ha'
    · exact h.2.pause j (Or.inl rfl) fun _ h => by cases h
  commit hev hP h hallowed :=
    ⟨h.1.commit hev hallowed, h.2.commit hev hP h.1 hallowed⟩

end run

/-! ### The last job -/

/-- Every row that a person has names a notification, and a person without a row is first
named as one who can be reached. -/
def Deliverable (s : Store Doc) (a : Id) (cs : List AnnouncementCandidate) (u : Id) : Prop :=
  (∀ row d, delivery s row = some d → d.Names a u → d.notificationId.isSome = true) ∧
    ((∀ row d, delivery s row = some d → ¬ d.Names a u) →
      ∀ c, firstFor u cs = some c → c.Reaches u)

/-- When the job has gone through its candidates, it has told those it could. -/
theorem Settled.told_iff {s₀ s : Store Doc} {γ : ℕ → Ghost} {a u : Id}
    {cs : List AnnouncementCandidate} (h : Settled s₀ s a cs none) (hledger : Ledger s γ)
    (hkept : ∀ row d, delivery s₀ row = some d → d.announcementId = a → delivery s row = some d)
    {c : AnnouncementCandidate} (hmem : c ∈ cs) (hreaches : c.Reaches u) :
    Told s a u ↔ Deliverable s₀ a cs u := by
  obtain ⟨c, hc⟩ : ∃ c, firstFor u cs = some c := by
    apply Option.isSome_iff_exists.mp
    rw [firstFor, List.find?_isSome]
    exact ⟨c, hmem, decide_eq_true hreaches.2⟩
  have hrecipient : c.recipient = some u := by simpa using List.find?_some hc
  constructor
  · rintro ⟨row, d, id, n, hd, hnames, hid, -⟩
    constructor
    · intro row' d' hd' hnames'
      have hd'' := hkept row' d' hd' hnames'.1
      cases delivery_unique s hd hd'' hnames hnames'
      cases hd.symm.trans hd''
      rw [hid]
      rfl
    · intro hnone c' hc'
      cases hc.symm.trans hc'
      obtain ⟨row', d', hd', hnames', hnamed⟩ := h.settled u c hnone hc
      cases delivery_unique s hd hd' hnames hnames'
      cases hd.symm.trans hd'
      rw [hid] at hnamed
      exact ⟨Option.isNone_iff_eq_none.mp hnamed.symm, hrecipient⟩
  · rintro ⟨hold, hfirst⟩
    obtain ⟨row, d, hd, hnames, hnamed⟩ : ∃ row d, delivery s row = some d ∧ d.Names a u ∧
        d.notificationId.isSome = true := by
      by_cases hrow : ∃ row d, delivery s₀ row = some d ∧ d.Names a u
      · obtain ⟨row, d, hd, hnames⟩ := hrow
        exact ⟨row, d, hkept row d hd hnames.1, hnames, hold row d hd hnames⟩
      · have hnone : ∀ row d, delivery s₀ row = some d → ¬ d.Names a u :=
          fun row d hd hnames => hrow ⟨row, d, hd, hnames⟩
        obtain ⟨row, d, hd, hnames, hnamed⟩ := h.settled u c hnone hc
        refine ⟨row, d, hd, hnames, ?_⟩
        rw [hnamed, (hfirst hnone c hc).1]
        rfl
    obtain ⟨id, hid⟩ := Option.isSome_iff_exists.mp hnamed
    obtain ⟨n, hn, hnames'⟩ := hledger.named row d id hd hid
    exact ⟨row, d, id, n, hd, hnames, hid, hn, Names.tells hnames hnames'⟩

/-- A segment can begin at any moment, with a job that is yet to arrive. -/
theorem segment_begins {P : Event Doc Call.Reply → Prop} {log : List (Event Doc Call.Reply)}
    {s : Sys Doc Call.Reply HttpError Answer} {a : Id} {i : ℕ} (h : Run machine Store.empty P log s)
    (hi : s.threads.length ≤ i) :
    ∃ γ, worker.Describes γ s ∧ Ledger s.store γ ∧ Segment a i s.store [] s.store γ := by
  have hrun : Run machine Store.empty (fun _ => True) log s := h.weaken fun _ _ _ => trivial
  obtain ⟨γ, hdescribes, hledger⟩ := ledger_keeps.run hrun ledger_empty
  have hidle : γ i = .idle := hdescribes.beyond i hi
  refine ⟨γ, hdescribes, hledger, ?_⟩
  constructor
  · intro row d hd _
    exact hd
  · intro p e hwork
    rw [hidle] at hwork
    cases hwork
  · intro _ row d hd _
    exact hd
  · intro a' _ ev hev
    cases hev
  · intro p held hwork
    rw [hidle] at hwork
    cases hwork

/-! ### The lists of the service -/

theorem adminsOf_mem {docs : Docs Doc} {companyId u : Id} {active : Bool}
    (h : (u, active) ∈ adminsOf docs companyId) :
    ∃ x : User, docs.lookup (Key.user u) = some x ∧ x.companyId = some companyId ∧
      x.isActive = active := by
  obtain ⟨⟨k, x⟩, he, hpick⟩ := List.mem_filterMap.mp h
  cases k with
  | user id =>
      simp only [Bool.and_eq_true, decide_eq_true_eq] at hpick
      split_ifs at hpick with hadmin
      cases hpick
      exact ⟨x, AList.mem_lookup_iff.mpr he, hadmin.1, rfl⟩
  | _ => cases hpick

theorem companiesOf_mem {docs : Docs Doc} {targetCompanyIds : List Id} {id : Id}
    {status : CompanyStatus} (h : (id, status) ∈ companiesOf targetCompanyIds docs) :
    ∃ x : Company, docs.lookup (Key.company id) = some x ∧ x.status = status := by
  obtain ⟨⟨k, x⟩, he, hpick⟩ := List.mem_filterMap.mp h
  cases k with
  | company id =>
      simp only at hpick
      split_ifs at hpick
      cases hpick
      exact ⟨x, AList.mem_lookup_iff.mpr he, rfl⟩
  | _ => cases hpick

/-- Whether a person is listed as reachable depends on the company and the account. -/
theorem candidatesOf_mem {companyId u : Id} {status : CompanyStatus} {admins : List (Id × Bool)}
    {c : AnnouncementCandidate} (h : c ∈ candidatesOf companyId status admins)
    (hu : c.recipient = some u) : ∃ active, (u, active) ∈ admins ∧
      (c.failureReason = none ↔ status = .active ∧ active = true) := by
  have hnobody : ∀ {p : Prop} [Decidable p], c ∉ (if p then [noActiveAdmin companyId] else []) := by
    intro p _ hmem
    split_ifs at hmem
    · cases List.mem_singleton.mp hmem
      cases hu
    · cases hmem
  unfold candidatesOf at h
  by_cases hstatus : status = .active
  · rw [if_neg fun hne => hne hstatus] at h
    rcases List.mem_append.mp h with h | h
    · exact absurd h hnobody
    · obtain ⟨⟨u', active⟩, hmem, rfl⟩ := List.mem_map.mp h
      cases hu
      refine ⟨active, hmem, ?_⟩
      cases active <;> simp [candidateFor, hstatus]
  · rw [if_pos hstatus] at h
    rcases List.mem_append.mp h with h | h
    · obtain ⟨⟨u', active⟩, hmem, rfl⟩ := List.mem_map.mp h
      cases hu
      exact ⟨active, hmem, by simp [candidateFor, hstatus]⟩
    · exact absurd h hnobody

/-- The lists of the service never name a person both as reachable and as not. -/
theorem resolveCandidates_firstFor (targetCompanyIds : List Id) :
    (resolveCandidates targetCompanyIds).Yields fun cs =>
      ∀ c ∈ cs, ∀ u, c.Reaches u → ∀ c', firstFor u cs = some c' → c'.Reaches u := by
  intro docs
  change (if (companiesOf targetCompanyIds docs).isEmpty = true then _ else _ : Handler _).Yields _
  split_ifs
  · intro c hc
    cases hc
  · intro docs' c hc u hreaches c' hfirst
    have hc' := List.mem_of_find?_eq_some hfirst
    have hu' : c'.recipient = some u := by simpa using List.find?_some hfirst
    obtain ⟨⟨id, status⟩, hcompany, hmem⟩ := List.mem_flatMap.mp hc
    obtain ⟨⟨id', status'⟩, hcompany', hmem'⟩ := List.mem_flatMap.mp hc'
    obtain ⟨active, hadmin, hreason⟩ := candidatesOf_mem hmem hreaches.2
    obtain ⟨active', hadmin', hreason'⟩ := candidatesOf_mem hmem' hu'
    -- Both entries come from one account and one company.
    obtain ⟨x, hx, hid, rfl⟩ := adminsOf_mem hadmin
    obtain ⟨x', hx', hid', rfl⟩ := adminsOf_mem hadmin'
    cases hx.symm.trans hx'
    obtain rfl : id = id' := Option.some.inj (hid.symm.trans hid')
    obtain ⟨y, hy, rfl⟩ := companiesOf_mem hcompany
    obtain ⟨y', hy', rfl⟩ := companiesOf_mem hcompany'
    cases hy.symm.trans hy'
    exact ⟨hreason'.mpr (hreason.mp hreaches.1), hu'⟩

/-- A job arrives and runs to its end, and meanwhile it alone writes rows of the announcement,
as one does that starts after all others have ended. Then everybody it could reach has been
told if and only if it found everybody in a state that let it. -/
theorem nobody_lost {P : Event Doc Call.Reply → Prop} {earlier later : List (Event Doc Call.Reply)}
    {s₀ s : Sys Doc Call.Reply HttpError Answer} {a : Id} {i : ℕ}
    {candidates : List AnnouncementCandidate} {t : Thread Doc Call.Reply HttpError Answer}
    (h₀ : Run machine Store.empty P earlier s₀)
    (h : Onwards machine (fun ev => writesRow a ev = true → ev.thread = i) s₀ later s)
    (hi : s₀.threads.length ≤ i) (ht : s.threads[i]? = some t)
    (hdone : t.prog = .pure (.fannedOut a candidates)) :
    (∀ c ∈ candidates, ∀ u, c.Reaches u → Told s.store a u) ↔
      ∀ c ∈ candidates, ∀ u, c.Reaches u → Deliverable s₀.store a candidates u := by
  obtain ⟨γ₀, hdescribes₀, hledger₀, hsegment₀⟩ := segment_begins (a := a) h₀ hi
  obtain ⟨γ, hdescribes, hledger, hsegment⟩ :=
    segment_keeps.onwards h hdescribes₀ ⟨hledger₀, hsegment₀⟩
  have hreturns := hdescribes.follows i t ht
  rw [hdone] at hreturns
  have hclosed : ∃ p, γ i = .closed p ∧ p.announcementId = a ∧ p.candidates = candidates := by
    change (γ i).returns (.fannedOut a candidates) at hreturns
    cases hg : γ i with
    | closed p =>
        rw [hg] at hreturns
        exact ⟨p, rfl, hreturns.1.symm, hreturns.2⟩
    | _ =>
        rw [hg] at hreturns
        exact hreturns.elim
  obtain ⟨p, hg, hpa, rfl⟩ := hclosed
  have hjob : (γ i).work = some (p, none) := by
    rw [hg]
    rfl
  have hsettled := hsegment.job p none hjob hpa
  have htold : ∀ c ∈ p.candidates, ∀ u, c.Reaches u →
      (Told s.store a u ↔ Deliverable s₀.store a p.candidates u) :=
    fun c hc u hreaches => hsettled.told_iff hledger hsegment.kept hc hreaches
  constructor
  · intro hall c hc u hreaches
    exact (htold c hc u hreaches).mp (hall c hc u hreaches)
  · intro hall c hc u hreaches
    exact (htold c hc u hreaches).mpr (hall c hc u hreaches)

namespace Sample

/-- The first job stops once it has inserted its row. -/
def interrupted : List (Act Request) := announced ++ serving job 3 5 20 ++ [Act.stop 3]

def lastJob : List (Act Request) := serving job 4 7 30

def onlyJob : List (Act Request) := serving job 3 11 20

/-- Of two administrators the first job tells one and stops. Another company is on its way in. -/
def halfway : List (Act Request) :=
  announced ++ serving (Request.putUser 3
      { companyId := some 1, role := .fuelCompanyAdmin, isActive := true }) 3 2 ++
    serving job 4 9 20 ++ [Act.stop 4] ++ serving (Request.putCompany 7 { status := .active }) 5 1

/-- The company comes in while the second job goes through the administrators. -/
def redelivered : List (Act Request) :=
  serving job 6 5 30 ++ [Act.step 5] ++ List.replicate 8 (Act.step 6 true 30)

def ended (s : Sys Doc Call.Reply HttpError Answer) : Bool :=
  s.threads.all fun t =>
    match t.prog with
    | .pure _ | .fail _ => true
    | _ => false

def fannedOut (candidates : List AnnouncementCandidate) (t : Thread Doc Call.Reply HttpError Answer) :
    Bool :=
  match t.prog with
  | .pure (.fannedOut a cs) => a = 10 && cs = candidates
  | _ => false

/-- Every row is that of person 3, and names a notification. -/
def oneTold (s : Store Doc) : Bool :=
  s.docs.entries.all fun e =>
    match e with
    | ⟨.delivery _, some d⟩ => d.recipientUserId = some 3 && d.notificationId.isSome
    | _ => true

theorem ended_sound {s : Sys Doc Call.Reply HttpError Answer} (h : ended s = true) :
    ∀ t ∈ s.threads, t.prog.Ended := by
  intro t ht
  have htest := List.all_eq_true.mp h t ht
  cases hprog : t.prog with
  | pure a => trivial
  | fail e => trivial
  | _ =>
      rw [hprog] at htest
      cases htest

theorem fannedOut_sound {candidates : List AnnouncementCandidate}
    {t : Thread Doc Call.Reply HttpError Answer} (h : fannedOut candidates t = true) :
    t.prog = .pure (.fannedOut 10 candidates) := by
  unfold fannedOut at h
  split at h
  · rename_i a cs hprog
    simp only [Bool.and_eq_true, decide_eq_true_eq] at h
    rw [hprog, h.1, h.2]
  · cases h

theorem oneTold_sound {s : Store Doc} (h : oneTold s = true) {row : Id} {d : AnnouncementDelivery}
    (hd : delivery s row = some d) : d.recipientUserId = some 3 ∧ d.notificationId.isSome = true := by
  have hmem := AList.mem_lookup_iff.mp (delivery_some.mp hd)
  have htest := List.all_eq_true.mp h _ hmem
  simpa using htest

end Sample

theorem somebody_lost : ∃ earlier s₀ later s t,
    Run machine Store.empty (fun _ => True) earlier s₀ ∧ (∀ t ∈ s₀.threads, t.prog.Ended) ∧
      Onwards machine (fun ev => writesRow 10 ev = true → ev.thread = 4) s₀ later s ∧
      s₀.threads.length = 4 ∧ s.threads[4]? = some t ∧
      t.prog = .pure (.fannedOut 10 [candidateFor 1 2 none]) ∧
      (candidateFor 1 2 none).Reaches 2 ∧ ¬ Told s.store 10 2 := by
  obtain ⟨earlier, s₀, later, s, hrun, hlater, htest⟩ := exists_onwards machine Store.empty
    (fun _ => True) (fun ev => writesRow 10 ev = true → ev.thread = 4) Sample.interrupted
    Sample.lastJob
    (fun s₀ _ s => Sample.ended s₀ && decide (s₀.threads.length = 4) &&
      s.threads[4]?.any (Sample.fannedOut [candidateFor 1 2 none]) &&
      (delivery s.store 20).any fun d =>
        d.announcementId = 10 && d.recipientUserId = some 2 && d.notificationId = none)
    (by decide +kernel) fun _ => trivial
  simp only [Bool.and_eq_true, decide_eq_true_eq] at htest
  obtain ⟨⟨⟨hended, hlength⟩, hdone⟩, hrow⟩ := htest
  obtain ⟨t, ht, hdone⟩ := (Option.any_eq_true _ _).mp hdone
  refine ⟨earlier, s₀, later, s, t, hrun, Sample.ended_sound hended, hlater, hlength, ht,
    Sample.fannedOut_sound hdone, ⟨rfl, rfl⟩, ?_⟩
  rintro ⟨row, d, id, n, hd, hnames, hid, -⟩
  obtain ⟨d', hd', hunnamed⟩ := (Option.any_eq_true _ _).mp hrow
  simp only [Bool.and_eq_true, decide_eq_true_eq] at hunnamed
  obtain ⟨⟨ha, hu⟩, hnone⟩ := hunnamed
  cases delivery_unique s.store hd hd' hnames ⟨ha, hu⟩
  cases hd.symm.trans hd'
  cases hid.symm.trans hnone

theorem nobody_lost_redelivered : ∃ earlier s₀ later s,
    Run machine Store.empty (fun _ => True) earlier s₀ ∧
      Onwards machine (fun ev => writesRow 10 ev = true → ev.thread = 6) s₀ later s ∧
      (∀ row d, delivery s₀.store row = some d → ¬ d.Names 10 2) ∧
      Told s.store 10 2 ∧ Told s.store 10 3 := by
  obtain ⟨earlier, s₀, later, s, hrun, hlater, htest⟩ := exists_onwards machine Store.empty
    (fun _ => True) (fun ev => writesRow 10 ev = true → ev.thread = 6) Sample.halfway
    Sample.redelivered
    (fun s₀ _ s => decide (s₀.threads.length ≤ 6) && Sample.oneTold s₀.store &&
      s.threads[6]?.any (Sample.fannedOut [candidateFor 1 3 none, candidateFor 1 2 none]))
    (by decide +kernel) fun _ => trivial
  simp only [Bool.and_eq_true, decide_eq_true_eq] at htest
  obtain ⟨⟨hlength, hrows⟩, hdone⟩ := htest
  obtain ⟨t, ht, hdone⟩ := (Option.any_eq_true _ _).mp hdone
  have hall := (nobody_lost hrun hlater hlength ht (Sample.fannedOut_sound hdone)).mpr
    fun c hc u hreaches => ⟨fun row d hd _ => (Sample.oneTold_sound hrows hd).2,
      fun _ c' hc' => by
        have hu : c'.recipient = some u := by simpa using List.find?_some hc'
        have hc' := List.mem_of_find?_eq_some hc'
        simp only [List.mem_cons, List.not_mem_nil, or_false] at hc'
        rcases hc' with rfl | rfl
        · exact ⟨rfl, hu⟩
        · exact ⟨rfl, hu⟩⟩
  refine ⟨earlier, s₀, later, s, hrun, hlater, ?_,
    hall (candidateFor 1 2 none) (by simp) 2 ⟨rfl, rfl⟩,
    hall (candidateFor 1 3 none) (by simp) 3 ⟨rfl, rfl⟩⟩
  rintro row d hd ⟨-, hu⟩
  have hrow := (Sample.oneTold_sound hrows hd).1
  cases hrow.symm.trans hu

end CiroFuel.Announcements
