import CiroFuel.Announcements.Steps

/-!
# Who is notified

Between inserting a row and writing the notification's identifier into it, a job holds
the row: no other job writes it, and while the row is there no other job can insert
one for the same person. So the notifications of a held row are those that its job
has written, and a row is deleted only if there are none.
-/
namespace CiroFuel.Announcements
open Snapshot

/-- What a job has done so far, latest first. -/
structure Progress where
  announcementId : Id
  done : List (AnnouncementCandidate × Outcome) := []

def Progress.add (p : Progress) (c : AnnouncementCandidate) (outcome : Outcome) : Progress :=
  { p with done := (c, outcome) :: p.done }

def Progress.count (p : Progress) (outcome : Outcome) : ℕ :=
  p.done.countP fun entry => entry.2 = outcome

/-- A row that a job works on, and the notification it has written for it. -/
structure Hold where
  row : Id
  recipient : Id
  notificationId : Option Id := none

inductive Ghost where
  | idle
  | waiting (announcementId : Id)
  | fanning (p : Progress)
  | holding (p : Progress) (c : AnnouncementCandidate) (h : Hold) (undoing : Bool)
  | closed (p : Progress)

namespace Ghost

def seen : Ghost → Docs Doc → Ghost
  | .waiting a, docs =>
      match docs.lookup (Key.announcement a) with
      | none => .idle
      | some _ => .fanning { announcementId := a }
  | g, _ => g

def allowed : Ghost → Call → Prop
  | .idle, .createAnnouncement x => x.deliveredCount = 0 ∧ x.failedCount = 0
  | .idle, .putUser .. => True
  | .idle, .putCompany .. => True
  | .fanning p, .createDelivery a _ => a = p.announcementId
  | .fanning p, .complete a delivered failed =>
      a = p.announcementId ∧ delivered = p.count .delivered ∧ failed = p.count .failed
  | .holding p _ h undoing, .createNotification n =>
      undoing = false ∧ h.notificationId = none ∧ n.announcementId = p.announcementId ∧
        n.recipientUserId = h.recipient
  | .holding _ _ h _, .setNotificationId row id => row = h.row ∧ h.notificationId = some id
  | .holding _ _ h _, .deleteDelivery row => row = h.row ∧ h.notificationId = none
  | _, _ => False

def done : Ghost → (l : Call) → l.Reply → Ghost
  | .fanning p, .createDelivery _ c, row =>
      match c.failureReason, c.recipient with
      | none, some recipient => .holding p c { row := row, recipient := recipient } false
      | _, _ => .fanning (p.add c .failed)
  | .fanning p, .complete .., _ => .closed p
  | .holding p c h _, .createNotification _, id =>
      .holding p c { h with notificationId := some id } false
  | .holding p c _ _, .setNotificationId .., _ => .fanning (p.add c .delivered)
  | _, _, _ => .idle

def failed : Ghost → Call → Failure HttpError → Ghost
  | .fanning p, .createDelivery _ c, e =>
      if e = .duplicateKey then .fanning (p.add c .skipped) else .idle
  | .holding p c h _, .createNotification _, _ => .holding p c h true
  | _, _, _ => .idle

/-- A job that has gone through its candidates returns them. -/
def returns : Ghost → Answer → Prop
  | .closed p, .fannedOut a cs => a = p.announcementId ∧ (p.done.map Prod.fst).reverse = cs
  | _, .fannedOut .. => False
  | _, _ => True

/-- The announcement and the row that a thread works on. -/
def hold : Ghost → Option (Id × Hold)
  | .holding p _ h _ => some (p.announcementId, h)
  | _ => none

end Ghost

/-- Only the insertion of a row can be refused as a duplicate. -/
def Call.mayFail : Call → Failure HttpError → Prop
  | .createNotification _, e | .setNotificationId .., e => e = .unavailable
  | _, _ => True

def worker : Typestate Doc Call.Reply HttpError Request Answer Ghost where
  idle := .idle
  start
    | .fanOut _ announcementId => .waiting announcementId
    | _ => .idle
  seen := Ghost.seen
  allowed := Ghost.allowed
  done := Ghost.done
  failed := Ghost.failed
  mayFail := Call.mayFail
  returns := Ghost.returns

/-! ### The handlers -/

section handlers

theorem caught_follows {U : Ghost → Outcome → Prop} {e : Failure HttpError} {g : Ghost}
    (h : e = .duplicateKey → U g .skipped) : (caught e).Follows worker U g := by
  unfold caught
  split_ifs with he
  · exact h he
  · trivial

/-- One recipient is done, and the job goes on to the next one. -/
theorem deliverTo_follows (x : AnnouncementDocument) (c : AnnouncementCandidate) {p : Progress}
    (hp : p.announcementId = x.id) :
    (deliverTo x c).Follows worker (fun g outcome => g = .fanning (p.add c outcome))
      (.fanning p) := by
  apply Prog.Follows.attempt hp.symm
  · intro row
    cases hreason : c.failureReason with
    | some reason =>
        simp only [worker, Ghost.done, hreason]
        rfl
    | none =>
        cases hrecipient : c.recipient with
        | none =>
            simp only [worker, Ghost.done, hreason, hrecipient]
            rfl
        | some recipient =>
            simp only [worker, Ghost.done, hreason, hrecipient]
            apply Prog.Follows.attempt
            · exact ⟨rfl, rfl, hp.symm, rfl⟩
            · intro id
              apply Prog.Follows.attempt
              · exact ⟨rfl, rfl⟩
              · intro _
                rfl
              · intro e he
                apply caught_follows
                intro hdup
                cases he.symm.trans hdup
            · intro e he
              have hne : e ≠ .duplicateKey := by
                intro hdup
                cases he.symm.trans hdup
              apply Prog.Follows.attempt
              · exact ⟨rfl, rfl⟩
              · intro _
                exact caught_follows fun hdup => absurd hdup hne
              · intro _ _
                exact caught_follows fun hdup => absurd hdup hne
  · intro e _
    apply caught_follows
    intro hdup
    simp only [worker, Ghost.failed, if_pos hdup]

theorem deliverAll_follows (x : AnnouncementDocument) (candidates : List AnnouncementCandidate)
    {p : Progress} {delivered failed : ℕ} (hp : p.announcementId = x.id)
    (hdelivered : delivered = p.count .delivered) (hfailed : failed = p.count .failed) :
    (deliverAll x candidates delivered failed).Follows worker
      (fun g _ => ∃ done, g = .closed { announcementId := x.id, done := done } ∧
        (done.map Prod.fst).reverse = (p.done.map Prod.fst).reverse ++ candidates)
      (.fanning p) := by
  induction candidates generalizing p delivered failed with
  | nil =>
      apply Prog.Follows.perform
      · exact ⟨hp.symm, hdelivered, hfailed⟩
      · intro _
        refine ⟨p.done, ?_, by simp⟩
        rw [← hp]
        rfl
  | cons c candidates ih =>
      apply (deliverTo_follows x c hp).bind
      rintro g outcome rfl
      have hlist : ((p.add c outcome).done.map Prod.fst).reverse ++ candidates =
          (p.done.map Prod.fst).reverse ++ c :: candidates := by
        simp [Progress.add]
      rw [← hlist]
      have hcount : ∀ o, (p.add c outcome).count o = p.count o + if outcome = o then 1 else 0 := by
        intro o
        simp [Progress.count, Progress.add, List.countP_cons]
      cases outcome with
      | delivered => exact ih hp (by simp [hcount, hdelivered]) (by simp [hcount, hfailed])
      | failed => exact ih hp (by simp [hcount, hdelivered]) (by simp [hcount, hfailed])
      | skipped => exact ih hp (by simp [hcount, hdelivered]) (by simp [hcount, hfailed])

theorem handle_follows (q : Request) :
    (handle q).Follows worker Ghost.returns (worker.start q) := by
  cases q with
  | create title body targetCompanyIds sentBy =>
      apply Prog.Follows.reads (resolveCandidates_reads _) fun _ => rfl
      intro candidates
      apply Prog.Follows.perform
      · exact ⟨rfl, rfl⟩
      · intro id b
        cases b <;> trivial
  | fanOut resolver a =>
      apply Prog.Follows.find
      intro docs
      cases hx : docs.lookup (Key.announcement a) with
      | none =>
          simp only [worker, Ghost.seen, hx]
          trivial
      | some x =>
          simp only [worker, Ghost.seen, hx]
          apply Prog.Follows.reads (resolver.reads _) fun _ => rfl
          intro candidates
          apply (deliverAll_follows { x with id := a } candidates (p := { announcementId := a })
            rfl rfl rfl).bind
          rintro g _ ⟨done, rfl, hdone⟩
          exact ⟨rfl, hdone⟩
  | putUser id user => exact Prog.Follows.perform trivial fun _ => trivial
  | putCompany id company => exact Prog.Follows.perform trivial fun _ => trivial

end handlers

/-! ### The ledger -/

/-- Rows, notifications and the jobs at work on them. -/
structure Ledger (s : Store Doc) (γ : ℕ → Ghost) : Prop where
  holding : ∀ i a h, (γ i).hold = some (a, h) → ∃ d, delivery s h.row = some d ∧
    d.Names a h.recipient ∧ d.notificationId = none ∧ d.failureReason = none
  single : ∀ i j a a' h h', (γ i).hold = some (a, h) → (γ j).hold = some (a', h') →
    h.row = h'.row → i = j
  told : ∀ i a h, (γ i).hold = some (a, h) → ∀ id n, notification s id = some n →
    n.Tells a h.recipient → h.notificationId = some id
  written : ∀ i a h id, (γ i).hold = some (a, h) → h.notificationId = some id →
    ∃ n, notification s id = some n ∧ n.Tells a h.recipient
  backed : ∀ id n, notification s id = some n → ∃ row d, delivery s row = some d ∧
    d.Names n.announcementId n.recipientUserId
  once : ∀ id id' n n', notification s id = some n → notification s id' = some n' →
    n'.Tells n.announcementId n.recipientUserId → id' = id
  named : ∀ row d id, delivery s row = some d → d.notificationId = some id →
    ∃ n, notification s id = some n ∧ d.Names n.announcementId n.recipientUserId

theorem ledger_empty : Ledger Store.empty fun _ => .idle where
  holding _ _ _ h := by cases h
  single _ _ _ _ _ _ h := by cases h
  told _ _ _ h := by cases h
  written _ _ _ _ h := by cases h
  backed _ _ h := by cases h
  once _ _ _ _ h := by cases h
  named _ _ _ h := by cases h

section ledger
variable {s s' : Store Doc} {γ γ' : ℕ → Ghost}

/-- Jobs may go on as long as none of them takes up a row. -/
theorem Ledger.weaken (h : Ledger s γ)
    (hγ : ∀ i a k, (γ' i).hold = some (a, k) → (γ i).hold = some (a, k)) : Ledger s γ' where
  holding i a k hk := h.holding i a k (hγ i a k hk)
  single i j a a' k k' hk hk' := h.single i j a a' k k' (hγ i a k hk) (hγ j a' k' hk')
  told i a k hk := h.told i a k (hγ i a k hk)
  written i a k id hk := h.written i a k id (hγ i a k hk)
  backed := h.backed
  once := h.once
  named := h.named

theorem Ledger.update (h : Ledger s γ) (i : ℕ) {g : Ghost}
    (hg : g.hold = none ∨ g.hold = (γ i).hold) : Ledger s (Function.update γ i g) := by
  apply h.weaken
  intro j a k hk
  by_cases hj : j = i
  · subst hj
    rw [Function.update_self] at hk
    rcases hg with hg | hg
    · rw [hg] at hk
      cases hk
    · rw [← hg]
      exact hk
  · rwa [Function.update_of_ne hj] at hk

/-- Changes elsewhere in the store. -/
theorem Ledger.congr (h : Ledger s γ) (hrows : ∀ row, delivery s' row = delivery s row)
    (hnotifications : ∀ id, notification s' id = notification s id) : Ledger s' γ where
  holding := by simpa only [hrows] using h.holding
  single := h.single
  told := by simpa only [hnotifications] using h.told
  written := by simpa only [hnotifications] using h.written
  backed := by simpa only [hrows, hnotifications] using h.backed
  once := by simpa only [hnotifications] using h.once
  named := by simpa only [hrows, hnotifications] using h.named

/-- The held row is the only one that names its recipient. -/
theorem Ledger.held (h : Ledger s γ) {i : ℕ} {a : Id} {k : Hold} (hk : (γ i).hold = some (a, k))
    {row : Id} {d : AnnouncementDelivery} (hd : delivery s row = some d)
    (hnames : d.Names a k.recipient) : row = k.row := by
  obtain ⟨d', hd', hnames', -⟩ := h.holding i a k hk
  exact delivery_unique s hd hd' hnames hnames'

/-- Two jobs do not work for the same person. -/
theorem Ledger.apart (h : Ledger s γ) {i j : ℕ} {a : Id} {k k' : Hold}
    (hk : (γ i).hold = some (a, k)) (hk' : (γ j).hold = some (a, k'))
    (hsame : k.recipient = k'.recipient) : i = j := by
  obtain ⟨d, hd, hnames, -⟩ := h.holding i a k hk
  rw [hsame] at hnames
  exact h.single i j a a k k' hk hk' (h.held hk' hd hnames)

theorem Names.tells {d : AnnouncementDelivery} {n : Notification} {a u : Id}
    (hd : d.Names a u) (hn : d.Names n.announcementId n.recipientUserId) : n.Tells a u := by
  obtain ⟨rfl, hu⟩ := hd
  obtain ⟨ha, hu'⟩ := hn
  rw [hu] at hu'
  cases hu'
  exact ⟨ha.symm, rfl⟩

/-- A row is inserted, and taken up if its candidate can be reached. -/
theorem Ledger.inserted (h : Ledger s γ) {i : ℕ} {a row : Id} {c : AnnouncementCandidate} {g : Ghost}
    (hnew : s.find (Key.delivery row) = none)
    (hput : Store.Puts s s' (Key.delivery row) (some (deliveryOf a c)))
    (hfree : ∀ u, c.recipient = some u → ∀ row' d, delivery s row' = some d → ¬ d.Names a u)
    (hg : g.hold = none ∨ ∃ u, c.recipient = some u ∧ c.failureReason = none ∧
      g.hold = some (a, { row := row, recipient := u })) :
    Ledger s' (Function.update γ i g) := by
  have hself := delivery_put_self hput
  have hrest : ∀ {row' : Id} {d : AnnouncementDelivery}, delivery s row' = some d →
      delivery s' row' = some d := by
    intro row' d hd
    rw [delivery_put_ne hput, hd]
    rintro rfl
    cases hnew.symm.trans (delivery_some.mp hd)
  have hnotifications := notification_put hput fun _ h => by cases h
  -- What a thread holds afterwards it held before, or it is the new row.
  have holds : ∀ {j a' k}, (Function.update γ i g j).hold = some (a', k) →
      (j ≠ i ∧ (γ j).hold = some (a', k)) ∨ (j = i ∧ ∃ u, c.recipient = some u ∧
        c.failureReason = none ∧ a' = a ∧ k = { row := row, recipient := u }) := by
    intro j a' k hk
    by_cases hj : j = i
    · subst hj
      rw [Function.update_self] at hk
      rcases hg with hg | ⟨u, hu, hreason, hg⟩
      · rw [hg] at hk
        cases hk
      · rw [hg] at hk
        cases hk
        exact Or.inr ⟨rfl, u, hu, hreason, rfl, rfl⟩
    · rw [Function.update_of_ne hj] at hk
      exact Or.inl ⟨hj, hk⟩
  have hrow : ∀ {j a' k}, (γ j).hold = some (a', k) → k.row ≠ row := by
    rintro j a' k hk rfl
    obtain ⟨d, hd, -⟩ := h.holding j a' k hk
    cases hnew.symm.trans (delivery_some.mp hd)
  constructor
  · intro j a' k hk
    rcases holds hk with ⟨-, hk⟩ | ⟨rfl, u, hu, hreason, rfl, rfl⟩
    · obtain ⟨d, hd, hheld⟩ := h.holding j a' k hk
      exact ⟨d, hrest hd, hheld⟩
    · exact ⟨_, hself, ⟨rfl, hu⟩, rfl, hreason⟩
  · intro j j' a₁ a₂ k₁ k₂ hk₁ hk₂ hsame
    rcases holds hk₁ with ⟨-, hold₁⟩ | ⟨rfl, u, hu, hreason, rfl, rfl⟩
    · rcases holds hk₂ with ⟨-, hold₂⟩ | ⟨rfl, u, hu, hreason, rfl, rfl⟩
      · exact h.single j j' a₁ a₂ k₁ k₂ hold₁ hold₂ hsame
      · exact absurd hsame (hrow hold₁)
    · rcases holds hk₂ with ⟨-, hold₂⟩ | ⟨rfl, -⟩
      · exact absurd hsame.symm (hrow hold₂)
      · rfl
  · intro j a' k hk id n hn htells
    rw [hnotifications] at hn
    rcases holds hk with ⟨-, hk⟩ | ⟨rfl, u, hu, hreason, rfl, rfl⟩
    · exact h.told j a' k hk id n hn htells
    · obtain ⟨row', d, hd, hnames⟩ := h.backed id n hn
      rw [htells.1, htells.2] at hnames
      exact absurd hnames (hfree u hu row' d hd)
  · intro j a' k id hk hid
    rw [hnotifications]
    rcases holds hk with ⟨-, hk⟩ | ⟨rfl, u, hu, hreason, rfl, rfl⟩
    · exact h.written j a' k id hk hid
    · cases hid
  · intro id n hn
    rw [hnotifications] at hn
    obtain ⟨row', d, hd, hnames⟩ := h.backed id n hn
    exact ⟨row', d, hrest hd, hnames⟩
  · intro id id' n n' hn hn' htells
    rw [hnotifications] at hn hn'
    exact h.once id id' n n' hn hn' htells
  · intro row' d id hd hid
    rw [hnotifications]
    by_cases hrow' : row' = row
    · subst hrow'
      rw [hself] at hd
      cases hd
      cases hid
    · rw [delivery_put_ne hput hrow'] at hd
      exact h.named row' d id hd hid

/-- The job that holds a row writes its notification. -/
theorem Ledger.notified (h : Ledger s γ) {i : ℕ} {a id : Id} {k : Hold} {n : Notification} {g : Ghost}
    (hk : (γ i).hold = some (a, k)) (hnone : k.notificationId = none) (htells : n.Tells a k.recipient)
    (hnew : notification s id = none) (hput : Store.Puts s s' (Key.notification id) n)
    (hg : g.hold = some (a, { k with notificationId := some id })) :
    Ledger s' (Function.update γ i g) := by
  have hrows := delivery_put hput fun _ h => by cases h
  have hself : notification s' id = some n := hput.here
  have hrest : ∀ {id'}, id' ≠ id → notification s' id' = notification s id' :=
    fun hne => hput.elsewhere _ (by simpa using hne)
  have hkept : ∀ {id' n'}, notification s id' = some n' → notification s' id' = some n' := by
    intro id' n' hn'
    rw [hrest, hn']
    rintro rfl
    cases hnew.symm.trans hn'
  -- What a thread holds afterwards it held before, but for the notification.
  have holds : ∀ {j a' k'}, (Function.update γ i g j).hold = some (a', k') →
      (j ≠ i ∧ (γ j).hold = some (a', k')) ∨
        (j = i ∧ a' = a ∧ k' = { k with notificationId := some id }) := by
    intro j a' k' hk'
    by_cases hj : j = i
    · subst hj
      rw [Function.update_self, hg] at hk'
      cases hk'
      exact Or.inr ⟨rfl, rfl, rfl⟩
    · rw [Function.update_of_ne hj] at hk'
      exact Or.inl ⟨hj, hk'⟩
  obtain ⟨d, hd, hnames, hunnamed, hreason⟩ := h.holding i a k hk
  constructor
  · intro j a' k' hk'
    rw [hrows]
    rcases holds hk' with ⟨-, hold⟩ | ⟨rfl, rfl, rfl⟩
    · exact h.holding j a' k' hold
    · exact ⟨d, hd, hnames, hunnamed, hreason⟩
  · intro j j' a₁ a₂ k₁ k₂ hk₁ hk₂ hsame
    rcases holds hk₁ with ⟨-, hold₁⟩ | ⟨rfl, rfl, rfl⟩
    · rcases holds hk₂ with ⟨-, hold₂⟩ | ⟨rfl, rfl, rfl⟩
      · exact h.single j j' a₁ a₂ k₁ k₂ hold₁ hold₂ hsame
      · exact h.single j j' a₁ a₂ k₁ k hold₁ hk hsame
    · rcases holds hk₂ with ⟨-, hold₂⟩ | ⟨rfl, -⟩
      · exact h.single j j' a₁ a₂ k k₂ hk hold₂ hsame
      · rfl
  · intro j a' k' hk' id' n' hn' htells'
    by_cases hid : id' = id
    · subst hid
      cases hself.symm.trans hn'
      rcases holds hk' with ⟨hj, hold⟩ | ⟨rfl, rfl, rfl⟩
      · -- Another job would work for the same person.
        rw [← htells'.1, htells.1] at hold
        have hji := h.apart hold hk (htells'.2.symm.trans htells.2)
        exact absurd hji hj
      · rfl
    · rw [hrest hid] at hn'
      rcases holds hk' with ⟨-, hold⟩ | ⟨rfl, rfl, rfl⟩
      · exact h.told j a' k' hold id' n' hn' htells'
      · have hsome := h.told j a' k hk id' n' hn' htells'
        cases hnone.symm.trans hsome
  · intro j a' k' id' hk' hid'
    rcases holds hk' with ⟨-, hold⟩ | ⟨rfl, rfl, rfl⟩
    · obtain ⟨n', hn', htells'⟩ := h.written j a' k' id' hold hid'
      exact ⟨n', hkept hn', htells'⟩
    · cases hid'
      exact ⟨n, hself, htells⟩
  · intro id' n' hn'
    simp only [hrows]
    by_cases hid : id' = id
    · subst hid
      cases hself.symm.trans hn'
      rw [htells.1, htells.2]
      exact ⟨k.row, d, hd, hnames⟩
    · rw [hrest hid] at hn'
      exact h.backed id' n' hn'
  · -- No notification for the person was there before.
    have hfresh : ∀ {id' n'}, notification s id' = some n' → ¬ n'.Tells a k.recipient := by
      intro id' n' hn' htells'
      have hsome := h.told i a k hk id' n' hn' htells'
      cases hnone.symm.trans hsome
    intro id₁ id₂ n₁ n₂ hn₁ hn₂ hsame
    by_cases h₁ : id₁ = id
    · by_cases h₂ : id₂ = id
      · rw [h₁, h₂]
      · subst h₁
        cases hself.symm.trans hn₁
        rw [hrest h₂] at hn₂
        rw [htells.1, htells.2] at hsame
        exact absurd hsame (hfresh hn₂)
    · rw [hrest h₁] at hn₁
      by_cases h₂ : id₂ = id
      · subst h₂
        cases hself.symm.trans hn₂
        have hn₁' : n₁.Tells a k.recipient :=
          ⟨hsame.1.symm.trans htells.1, hsame.2.symm.trans htells.2⟩
        exact absurd hn₁' (hfresh hn₁)
      · rw [hrest h₂] at hn₂
        exact h.once id₁ id₂ n₁ n₂ hn₁ hn₂ hsame
  · intro row d' id' hd' hid'
    rw [hrows] at hd'
    obtain ⟨n', hn', hnames'⟩ := h.named row d' id' hd' hid'
    exact ⟨n', hkept hn', hnames'⟩

/-- The job that holds a row lets go of it: it deletes the row, or names the notification. -/
theorem Ledger.released (h : Ledger s γ) {i : ℕ} {a : Id} {k : Hold} {g : Ghost}
    {x : Option AnnouncementDelivery} (hk : (γ i).hold = some (a, k)) (hg : g.hold = none)
    (hput : Store.Puts s s' (Key.delivery k.row) x)
    (hx : (k.notificationId = none ∧ x = none) ∨ ∃ d id, delivery s k.row = some d ∧
      k.notificationId = some id ∧ x = some { d with notificationId := some id }) :
    Ledger s' (Function.update γ i g) := by
  have hnotifications := notification_put hput fun _ h => by cases h
  have hself := delivery_put_self hput
  have holds : ∀ {j a' k'}, (Function.update γ i g j).hold = some (a', k') →
      (γ j).hold = some (a', k') ∧ k'.row ≠ k.row := by
    intro j a' k' hk'
    by_cases hj : j = i
    · subst hj
      rw [Function.update_self, hg] at hk'
      cases hk'
    · rw [Function.update_of_ne hj] at hk'
      exact ⟨hk', fun hsame => hj (h.single j i a' a k' k hk' hk hsame)⟩
  constructor
  · intro j a' k' hk'
    obtain ⟨hold, hne⟩ := holds hk'
    rw [delivery_put_ne hput hne]
    exact h.holding j a' k' hold
  · intro j j' a₁ a₂ k₁ k₂ hk₁ hk₂
    exact h.single j j' a₁ a₂ k₁ k₂ (holds hk₁).1 (holds hk₂).1
  · intro j a' k' hk'
    simpa only [hnotifications] using h.told j a' k' (holds hk').1
  · intro j a' k' id hk'
    simpa only [hnotifications] using h.written j a' k' id (holds hk').1
  · intro id n hn
    rw [hnotifications] at hn
    obtain ⟨row, d, hd, hnames⟩ := h.backed id n hn
    by_cases hrow : row = k.row
    · subst hrow
      rcases hx with ⟨hnone, -⟩ | ⟨d', id', hd', -, rfl⟩
      · -- A row without a notification backs none.
        obtain ⟨d', hd', hheld, -⟩ := h.holding i a k hk
        cases hd.symm.trans hd'
        have htells : n.Tells a k.recipient := Names.tells hheld hnames
        have hsome := h.told i a k hk id n hn htells
        cases hnone.symm.trans hsome
      · cases hd.symm.trans hd'
        exact ⟨k.row, _, hself, hnames⟩
    · exact ⟨row, d, (delivery_put_ne hput hrow).trans hd, hnames⟩
  · simpa only [hnotifications] using h.once
  · intro row d id hd hid
    rw [hnotifications]
    by_cases hrow : row = k.row
    · subst hrow
      rw [hself] at hd
      rcases hx with ⟨-, rfl⟩ | ⟨d', id', hd', hsome, rfl⟩
      · cases hd
      · cases hd
        cases hid
        obtain ⟨n, hn, htells⟩ := h.written i a k id hk hsome
        obtain ⟨d, hd, hnames, -⟩ := h.holding i a k hk
        cases hd'.symm.trans hd
        refine ⟨n, hn, ?_⟩
        rw [htells.1, htells.2]
        exact hnames
    · rw [delivery_put_ne hput hrow] at hd
      exact h.named row d id hd hid

/-- Every commit of the worker, from a ghost state that allows it, keeps the ledger. -/
theorem Ledger.commit {ev : Event Doc Call.Reply} (hev : ev.Sound machine) (h : Ledger ev.before γ)
    (hallowed : (γ ev.thread).allowed ev.label) :
    Ledger ev.after
      (Function.update γ ev.thread ((γ ev.thread).done ev.label ev.reply)) := by
  have hstep := call_step hev
  obtain ⟨i, label, base, env, began, ended, reply, view, before, after⟩ := ev
  change Ledger after (Function.update γ i ((γ i).done label reply))
  change (γ i).allowed label at hallowed
  change CallStep before after label reply at hstep
  change Ledger before γ at h
  generalize hg : γ i = g at hallowed
  cases g with
  | idle =>
      cases hstep with
      | created hnew hput =>
          apply (h.congr (delivery_put hput fun _ h => by cases h)
            (notification_put hput fun _ h => by cases h)).update
          exact Or.inl rfl
      | user hput =>
          apply (h.congr (delivery_put hput fun _ h => by cases h)
            (notification_put hput fun _ h => by cases h)).update
          exact Or.inl rfl
      | company hput =>
          apply (h.congr (delivery_put hput fun _ h => by cases h)
            (notification_put hput fun _ h => by cases h)).update
          exact Or.inl rfl
      | _ => exact hallowed.elim
  | waiting a => cases label <;> exact hallowed.elim
  | closed p => cases label <;> exact hallowed.elim
  | fanning p =>
      cases hstep with
      | @inserted a c row hnew hput hfree =>
          obtain rfl : a = p.announcementId := hallowed
          apply h.inserted hnew hput hfree
          simp only [Ghost.done]
          split
          · rename_i recipient hreason hrecipient
            exact Or.inr ⟨recipient, hrecipient, hreason, rfl⟩
          · exact Or.inl rfl
      | completed hx hput =>
          apply (h.congr (delivery_put hput fun _ h => by cases h)
            (notification_put hput fun _ h => by cases h)).update
          exact Or.inl rfl
      | uncompleted hnone hsame =>
          apply (h.congr (fun row => by rw [delivery, delivery, hsame]) fun id => hsame _).update
          exact Or.inl rfl
      | _ => exact hallowed.elim
  | holding p c k undoing =>
      have hk : (γ i).hold = some (p.announcementId, k) := by
        rw [hg]
        rfl
      cases hstep with
      | notified hnew hput =>
          obtain ⟨-, hnone, ha, hu⟩ := hallowed
          exact h.notified hk hnone ⟨ha, hu⟩ hnew hput rfl
      | deleted hd hput =>
          obtain ⟨rfl, hnone⟩ := hallowed
          exact h.released hk rfl hput (Or.inl ⟨hnone, rfl⟩)
      | undeleted hnone hsame =>
          obtain ⟨rfl, -⟩ := hallowed
          obtain ⟨d, hd, -⟩ := h.holding i _ k hk
          cases hnone.symm.trans hd
      | named hd hput =>
          obtain ⟨rfl, hsome⟩ := hallowed
          exact h.released hk rfl hput (Or.inr ⟨_, _, hd, hsome, rfl⟩)
      | unnamed hnone hsame =>
          obtain ⟨rfl, -⟩ := hallowed
          obtain ⟨d, hd, -⟩ := h.holding i _ k hk
          cases hnone.symm.trans hd
      | _ => exact hallowed.elim

end ledger

/-- Neither reading nor failing takes up a row. -/
theorem Ghost.seen_hold (g : Ghost) (docs : Docs Doc) :
    (g.seen docs).hold = none ∨ (g.seen docs).hold = g.hold := by
  unfold Ghost.seen
  split
  · left
    split <;> rfl
  · exact Or.inr rfl

theorem Ghost.failed_hold (g : Ghost) (l : Call) (e : Failure HttpError) :
    (g.failed l e).hold = none ∨ (g.failed l e).hold = g.hold := by
  unfold Ghost.failed
  split
  · split_ifs <;> exact Or.inl rfl
  · exact Or.inr rfl
  · exact Or.inl rfl

theorem ledger_keeps : worker.Keeps machine (fun _ => True) fun _ s γ => Ledger s γ where
  handlers q _ _ _ := handle_follows q
  failures l s e h := by
    cases l with
    | createNotification n => exact createNotification_refused h
    | setNotificationId row id => exact setNotificationId_refused h
    | _ => trivial
  arrive {_ _ _ i q} h _ _ := by
    apply h.update
    cases q <;> exact Or.inl rfl
  stop i h := h.update i (Or.inl rfl)
  read i h := h.update i (Ghost.seen_hold _ _)
  refuse h _ _ := h.update _ (Ghost.failed_hold _ _ _)
  commit hev _ h hallowed := h.commit hev hallowed

/-- However the jobs of an announcement fail, stop and overlap, nobody is notified twice. -/
theorem notified_once {P : Event Doc Call.Reply → Prop} {log : List (Event Doc Call.Reply)}
    {s : Sys Doc Call.Reply HttpError Answer} (h : Run machine Store.empty P log s) {id id' : Id}
    {n n' : Notification} (hn : notification s.store id = some n)
    (hn' : notification s.store id' = some n') (hannouncement : n'.announcementId = n.announcementId)
    (hrecipient : n'.recipientUserId = n.recipientUserId) : id' = id := by
  have hrun : Run machine Store.empty (fun _ => True) log s := h.weaken fun _ _ _ => trivial
  obtain ⟨γ, -, hledger⟩ := ledger_keeps.run hrun ledger_empty
  exact hledger.once id id' n n' hn hn' ⟨hannouncement, hrecipient⟩

namespace Sample

/-- A company with one administrator, to whom an announcement is made. -/
def announced : List (Act Request) :=
  serving (Request.putCompany 1 { status := .active }) 0 2 ++
    serving (Request.putUser 2
      { companyId := some 1, role := .fuelCompanyAdmin, isActive := true }) 1 2 ++
    serving (Request.create "Title" "Body" [] 9) 2 5 10

def job : Request := .fanOut .service 10

/-- A second job meets the row of the first one. -/
def overlapping : List (Act Request) :=
  announced ++ serving job 3 5 20 ++ serving job 4 7 30 ++ List.replicate 6 (Act.step 3 true 40)

end Sample

theorem notified_once_overlapping : ∃ log s, Run machine Store.empty (fun _ => True) log s ∧
    notification s.store 40 = some ⟨1, 2, 10, "Title", "Body"⟩ ∧
    ∀ id n, notification s.store id = some n → n.announcementId = 10 → n.recipientUserId = 2 →
      id = 40 := by
  obtain ⟨log, s, hrun, htest⟩ := exists_run machine Store.empty (fun _ => True) Sample.overlapping
    (fun _ s => decide (notification s.store 40 = some ⟨1, 2, 10, "Title", "Body"⟩))
    (by decide +kernel)
  have hn := of_decide_eq_true htest
  exact ⟨log, s, hrun, hn, fun id n hid ha hu => notified_once hrun hn hid ha hu⟩

end CiroFuel.Announcements
