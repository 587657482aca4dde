import CiroFuel.Announcements.Deliveries

/-!
# What the worker writes

Each call of the worker changes one document at most. A row can only be inserted
while no other row of the announcement names the same person, and it can only be
refused as a duplicate while there is one.
-/
namespace CiroFuel.Announcements
open Snapshot

section stored
variable (s : Store Doc)

/-- The row, unless it has been deleted. -/
def delivery (row : Id) : Option AnnouncementDelivery :=
  (s.find (Key.delivery row) : Option (Option AnnouncementDelivery)).join

def notification (id : Id) : Option Notification := s.find (Key.notification id)

def announcement (id : Id) : Option Announcement := s.find (Key.announcement id)

end stored

def AnnouncementDelivery.Names (d : AnnouncementDelivery) (a u : Id) : Prop :=
  d.announcementId = a ∧ d.recipientUserId = some u

def Notification.Tells (n : Notification) (a u : Id) : Prop :=
  n.announcementId = a ∧ n.recipientUserId = u

/-! ### Index entries -/

theorem names_entries {d : AnnouncementDelivery} {a u : Id} :
    Index.recipient a u ∈ d.entries ↔ d.Names a u := by
  constructor
  · intro h
    rcases List.mem_append.mp h with h | h
    · obtain ⟨u', hu', heq⟩ := List.mem_map.mp h
      cases heq
      exact ⟨rfl, Option.mem_toList.mp hu'⟩
    · split_ifs at h
      · cases List.mem_singleton.mp h
      · cases h
  · rintro ⟨rfl, hu⟩
    apply List.mem_append_left
    exact List.mem_map.mpr ⟨u, Option.mem_toList.mpr hu, rfl⟩

theorem delivery_some {s : Store Doc} {row : Id} {d : AnnouncementDelivery} :
    delivery s row = some d ↔ s.find (Key.delivery row) = some (some d) := by
  rw [delivery, Option.join_eq_some_iff]

theorem delivery_none {s : Store Doc} {row : Id}
    (h : ∀ d : Option AnnouncementDelivery, s.find (Key.delivery row) = some d → d.isSome = false) :
    delivery s row = none := by
  cases hd : delivery s row with
  | none => rfl
  | some d => cases h _ (delivery_some.mp hd)

/-- At most one row of an announcement names a person. -/
theorem delivery_unique (s : Store Doc) {row row' a u : Id} {d d' : AnnouncementDelivery}
    (h : delivery s row = some d) (h' : delivery s row' = some d') (hd : d.Names a u)
    (hd' : d'.Names a u) : row = row' := by
  have heq : Key.delivery row = Key.delivery row' :=
    s.unique _ _ (some d) (some d') (Index.recipient a u) (delivery_some.mp h)
      (delivery_some.mp h') (names_entries.mpr hd) (names_entries.mpr hd')
  injection heq

/-! ### Creating -/

section create
variable {env : Env} {v w : View Doc} {key : Id → Key} {document : (id : Id) → Doc (key id)}

theorem create_ok {id : Id} (h : (create key document).run env v = .ok (id, w)) :
    v.find (key id) = none ∧ v.docs.fits (key id) (document id) = true ∧
      ∀ k, w.find k = (v.put (key id) (document id)).find k := by
  obtain ⟨i, u, hi, h⟩ := Tx.bind_ok h
  obtain ⟨-, rfl⟩ := Tx.freshId_ok hi
  obtain ⟨taken, u, htaken, h⟩ := Tx.bind_ok h
  obtain ⟨rfl, rfl⟩ := Tx.find_ok htaken
  split at h
  · cases h
  · rename_i hnone
    obtain ⟨_, u, hinsert, h⟩ := Tx.bind_ok h
    obtain ⟨-, hfit, rfl⟩ := Tx.insert_ok hinsert
    obtain ⟨rfl, rfl⟩ := Tx.pure_ok h
    exact ⟨hnone, hfit, fun _ => rfl⟩

/-- A document is refused only because another one holds one of its index entries. -/
theorem create_error {e : Failure HttpError} (h : (create key document).run env v = .error e) :
    e = .unavailable ∨ e = .duplicateKey ∧ ∃ id, v.docs.fits (key id) (document id) = false := by
  rcases Tx.bind_error h with h | ⟨id, u, hid, h⟩
  · cases h
  obtain ⟨-, rfl⟩ := Tx.freshId_ok hid
  rcases Tx.bind_error h with h | ⟨taken, u, htaken, h⟩
  · cases h
  obtain ⟨rfl, rfl⟩ := Tx.find_ok htaken
  split at h
  · cases h
    exact Or.inl rfl
  · rename_i hnone
    rcases Tx.bind_error h with h | ⟨_, _, _, h⟩
    · obtain ⟨rfl, hfit⟩ := Tx.insert_error hnone h
      exact Or.inr ⟨rfl, id, hfit⟩
    · cases h

end create

/-! ### Commits -/

/-- What a commit does to the rows and the notifications. -/
inductive CallStep (s s' : Store Doc) : (c : Call) → c.Reply → Prop where
  | inserted {a : Id} {c : AnnouncementCandidate} {row : Id}
      (hnew : s.find (Key.delivery row) = none)
      (hput : Store.Puts s s' (Key.delivery row) (some (deliveryOf a c)))
      (hfree : ∀ u, c.recipient = some u → ∀ row' d, delivery s row' = some d → ¬ d.Names a u) :
      CallStep s s' (.createDelivery a c) row
  | notified {n : Notification} {id : Id} (hnew : notification s id = none)
      (hput : Store.Puts s s' (Key.notification id) n) : CallStep s s' (.createNotification n) id
  | deleted {row : Id} {d : AnnouncementDelivery} (hd : delivery s row = some d)
      (hput : Store.Puts s s' (Key.delivery row) none) : CallStep s s' (.deleteDelivery row) true
  | undeleted {row : Id} (hnone : delivery s row = none) (hsame : ∀ k, s'.find k = s.find k) :
      CallStep s s' (.deleteDelivery row) false
  | named {row id : Id} {d : AnnouncementDelivery} (hd : delivery s row = some d)
      (hput : Store.Puts s s' (Key.delivery row) (some { d with notificationId := some id })) :
      CallStep s s' (.setNotificationId row id) true
  | unnamed {row id : Id} (hnone : delivery s row = none) (hsame : ∀ k, s'.find k = s.find k) :
      CallStep s s' (.setNotificationId row id) false
  | completed {a : Id} {delivered failed : ℕ} {x : Announcement} (hx : announcement s a = some x)
      (hput : Store.Puts s s' (Key.announcement a)
        { x with
          deliveredCount := x.deliveredCount + delivered
          failedCount := x.failedCount + failed
          state := .completed }) :
      CallStep s s' (.complete a delivered failed) true
  | uncompleted {a : Id} {delivered failed : ℕ} (hnone : announcement s a = none)
      (hsame : ∀ k, s'.find k = s.find k) : CallStep s s' (.complete a delivered failed) false
  | created {x : Announcement} {id : Id} (hnew : announcement s id = none)
      (hput : Store.Puts s s' (Key.announcement id) x) : CallStep s s' (.createAnnouncement x) id
  | user {id : Id} {x : User} {r : Unit} (hput : Store.Puts s s' (Key.user id) x) :
      CallStep s s' (.putUser id x) r
  | company {id : Id} {x : Company} {r : Unit} (hput : Store.Puts s s' (Key.company id) x) :
      CallStep s s' (.putCompany id x) r

section puts
variable {s s' : Store Doc} {row id : Id} {x : Option AnnouncementDelivery}

theorem delivery_put_self (h : Store.Puts s s' (Key.delivery row) x) : delivery s' row = x := by
  have hfind : s'.find (Key.delivery row) = some x := h.here
  rw [delivery, hfind]
  rfl

theorem delivery_put_ne (h : Store.Puts s s' (Key.delivery row) x) {row' : Id} (hne : row' ≠ row) :
    delivery s' row' = delivery s row' := by
  rw [delivery, delivery, h.elsewhere (Key.delivery row') (by simpa using hne)]

/-- A document of another collection. -/
theorem delivery_put {k : Key} {y : Doc k} (h : Store.Puts s s' k y)
    (hk : ∀ row, k ≠ .delivery row) (row : Id) :
    delivery s' row = delivery s row := by
  rw [delivery, delivery, h.elsewhere _ (hk row).symm]

theorem notification_put {k : Key} {y : Doc k} (h : Store.Puts s s' k y)
    (hk : ∀ id, k ≠ .notification id) (id : Id) :
    notification s' id = notification s id := h.elsewhere _ (hk id).symm

theorem announcement_put {k : Key} {y : Doc k} (h : Store.Puts s s' k y)
    (hk : ∀ id, k ≠ .announcement id) (id : Id) :
    announcement s' id = announcement s id := h.elsewhere _ (hk id).symm

end puts

theorem call_step {ev : Event Doc Call.Reply} (hev : ev.Sound machine) :
    CallStep ev.before ev.after ev.label ev.reply := by
  obtain ⟨hbase, -⟩ := hev.stored rfl
  obtain ⟨i, label, base, env, began, ended, reply, view, before, after⟩ := ev
  obtain rfl : base = before := hbase
  have hran : (Call.body label).run env (View.start base.docs) = .ok (reply, view) := hev.ran
  cases label with
  | createAnnouncement x =>
      obtain ⟨hnew, -, hview⟩ := create_ok hran
      exact .created hnew (hev.puts rfl hview)
  | createDelivery a c =>
      obtain ⟨hnew, hfit, hview⟩ := create_ok hran
      refine .inserted hnew (hev.puts rfl hview) ?_
      intro u hu row' d hd hnames
      have hentry : Index.recipient a u ∈ (deliveryOf a c).entries := names_entries.mpr ⟨rfl, hu⟩
      have hkey := Docs.fits_sound hfit (delivery_some.mp hd) hentry (names_entries.mpr hnames)
      injection hkey with hrow
      subst hrow
      cases hnew.symm.trans (delivery_some.mp hd)
  | createNotification n =>
      obtain ⟨hnew, -, hview⟩ := create_ok hran
      exact .notified hnew (hev.puts rfl hview)
  | deleteDelivery row =>
      rcases Tx.updateOne_ok hran with ⟨x, hx, hsome, -, rfl, rfl⟩ | ⟨rfl, rfl, hnone⟩
      · obtain ⟨d, rfl⟩ := Option.isSome_iff_exists.mp hsome
        exact .deleted (delivery_some.mpr hx) (hev.puts rfl fun _ => rfl)
      · apply CallStep.undeleted ?_ (hev.untouched rfl fun _ => rfl)
        exact delivery_none hnone
  | setNotificationId row id =>
      rcases Tx.updateOne_ok hran with ⟨x, hx, hsome, -, rfl, rfl⟩ | ⟨rfl, rfl, hnone⟩
      · obtain ⟨d, rfl⟩ := Option.isSome_iff_exists.mp hsome
        exact .named (delivery_some.mpr hx) (hev.puts rfl fun _ => rfl)
      · apply CallStep.unnamed ?_ (hev.untouched rfl fun _ => rfl)
        exact delivery_none hnone
  | complete a delivered failed =>
      rcases Tx.updateOne_ok hran with ⟨x, hx, -, -, rfl, rfl⟩ | ⟨rfl, rfl, hnone⟩
      · exact .completed hx (hev.puts rfl fun _ => rfl)
      · apply CallStep.uncompleted ?_ (hev.untouched rfl fun _ => rfl)
        cases hx : announcement base a with
        | none => rfl
        | some x => cases hnone x hx
  | putUser id x =>
      have hupsert : (Tx.upsert (Key.user id) x fun _ => x : Action Unit).run env
        (View.start base.docs) = .ok (reply, view) := hran
      obtain ⟨-, rfl⟩ := Tx.upsert_ok hupsert
      exact .user (hev.puts rfl fun _ => rfl)
  | putCompany id x =>
      have hupsert : (Tx.upsert (Key.company id) x fun _ => x : Action Unit).run env
        (View.start base.docs) = .ok (reply, view) := hran
      obtain ⟨-, rfl⟩ := Tx.upsert_ok hupsert
      exact .company (hev.puts rfl fun _ => rfl)

/-! ### Refusals -/

section refusals
variable {s : Store Doc} {e : Failure HttpError}

/-- A row is a duplicate only of a row that names the same person. -/
theorem createDelivery_refused {a u : Id} {c : AnnouncementCandidate} (hu : c.recipient = some u)
    (h : machine.Refuses (.createDelivery a c) s .duplicateKey) :
    ∃ row d, delivery s row = some d ∧ d.Names a u := by
  rcases h with h | ⟨env, base, hbase, hrun⟩
  · cases h
  obtain rfl := hbase rfl
  rcases create_error hrun with h | ⟨-, id, hfit⟩
  · cases h
  obtain ⟨k, x, i, hx, hi, hi', -⟩ := Docs.fits_conflict hfit
  have hentries : (deliveryOf a c).entries = [Index.recipient a u] := by
    simp [AnnouncementDelivery.entries, deliveryOf, hu]
  have hentry : i ∈ (deliveryOf a c).entries := hi
  rw [hentries] at hentry
  cases List.mem_singleton.mp hentry
  cases k with
  | delivery row =>
      cases x with
      | none => cases hi'
      | some d => exact ⟨row, d, delivery_some.mpr hx, names_entries.mp hi'⟩
  | _ => cases hi'

theorem createNotification_refused {n : Notification}
    (h : machine.Refuses (.createNotification n) s e) : e = .unavailable := by
  rcases h with h | ⟨env, base, -, hrun⟩
  · exact h
  rcases create_error hrun with h | ⟨-, id, hfit⟩
  · exact h
  obtain ⟨k, x, i, -, hi, -⟩ := Docs.fits_conflict hfit
  cases hi

theorem setNotificationId_refused {row id : Id}
    (h : machine.Refuses (.setNotificationId row id) s e) : e = .unavailable := by
  rcases h with h | ⟨env, base, -, hrun⟩
  · exact h
  refine (Tx.updateOne_error base.unique ?_ hrun).elim
  intro d
  cases d with
  | none => exact List.Subset.refl _
  | some d => exact List.Subset.refl _

end refusals

end CiroFuel.Announcements
