import CiroFuel.Cursors

/-!
# Notifications

A notification is created unread and is read once: by its recipient marking it, or by
one of the calls that mark everything. Such a call is one `updateMany`, which takes the
documents one after another and looks at each again as it comes to it, so other calls
and new notifications come in between. What it returns is how many it turned itself.
-/
namespace CiroFuel.Notifications
open Query Json Cursors

inductive NotificationType where
  | orderApprovedFinalPrice | noDriverAvailable | paymentTimeout | orderAssigned
  | orderStatusChanged | otpIssued | paymentReconciliationRequired | orderRoutedToTransport
  | supportRequestRaised | driverStopDetected | orderDriverBlocked | orderStopUnresolved
  | creditLimitRequestResolved | exchangeOfferAvailable | exchangeProposalReceived
  | exchangeOfferAwarded | exchangeOfferClosed | platformAnnouncement
deriving DecidableEq, Repr

structure Notification where
  id : Id
  companyId : Id
  recipientUserId : Id
  type : NotificationType
  orderId : Option Id := none
  payload : Value := .object []
  createdAt : Instant
  readAt : Option Instant := none

/-- What a caller of `notify` says. -/
structure NotifyParams where
  companyId : Id
  recipientUserId : Id
  type : NotificationType
  orderId : Option Id := none
  payload : Option Value := none

/-- The document that `notify` creates. -/
def NotifyParams.document (params : NotifyParams) (id : Id) (now : Instant) : Notification where
  id := id
  companyId := params.companyId
  recipientUserId := params.recipientUserId
  type := params.type
  orderId := params.orderId
  payload := params.payload.getD (.object [])
  createdAt := now

/-- The event that the recipient's sockets are sent. -/
structure Emitted where
  userId : Id
  id : Id
  type : NotificationType
  orderId : Option Id
  payload : Value

def NotifyParams.event (params : NotifyParams) (n : Notification) : Emitted where
  userId := params.recipientUserId
  id := n.id
  type := n.type
  orderId := params.orderId
  payload := n.payload

def notify (params : NotifyParams) (id : Id) (now : Instant) (docs : List Notification) :
    Emitted × List Notification :=
  (params.event (params.document id now), docs ++ [params.document id now])

/-- `findOneAndUpdate({ _id, recipientUserId }, { readAt })` -/
def markRead (id recipientUserId : Id) (now : Instant) (docs : List Notification) :
    Except String (Notification × List Notification) :=
  match docs.find? fun n => n.id = id ∧ n.recipientUserId = recipientUserId with
  | some n =>
      let read := { n with readAt := some now }
      .ok (read, docs.map fun m => if m.id = n.id then read else m)
  | none => .error "Notification not found"

/-- The documents that the query of `markAllRead` finds. -/
def Notification.unreadOf (recipientUserId : Id) (n : Notification) : Bool :=
  decide (n.recipientUserId = recipientUserId) && n.readAt.isNone

/-- One document of an `updateMany`, if it still meets the filter. -/
def readNext (id recipientUserId : Id) (now : Instant) (docs : List Notification) :
    List Notification :=
  docs.map fun n =>
    if n.id = id ∧ n.unreadOf recipientUserId then { n with readAt := some now } else n

/-! ### The list -/

def NOTIFICATION_SORT_KEYS : List (SortField String) := [⟨"createdAt", .desc⟩, ⟨"_id", .desc⟩]

def Notification.position (n : Notification) : Position Numbers := fun f =>
  if f = "createdAt" then n.createdAt else if f = "_id" then n.id else 0

def listQuery (recipientUserId : Id) (unreadOnly : Bool) : Conditions String Notification :=
  .object ((.field "recipientUserId", fun n => decide (n.recipientUserId = recipientUserId)) ::
    if unreadOnly then [(.field "readAt", fun n => n.readAt.isNone)] else [])

structure NotificationPage extends TextPage Notification where
  unreadCount : ℕ

/-- One page, and the count of all that is unread. The two queries run side by side, so
the count may be of another moment. -/
def findForUser (outside : Value → Except String (TextPage Notification)) (recipientUserId : Id)
    (unreadOnly : Bool) (cursor : Option JsString) (docs counted : List Notification) :
    Except String NotificationPage := do
  let page ← paginateText listSchema NOTIFICATION_SORT_KEYS outside Notification.position
    (.ok .empty) docs (listQuery recipientUserId unreadOnly) cursor DEFAULT_PAGE_SIZE
  return { page with unreadCount := counted.countP (Notification.unreadOf recipientUserId) }

/-! ### Calls that mark everything -/

/-- An `updateMany` under way, with what its query finds at the start. -/
structure MarkAll where
  recipientUserId : Id
  found : List Id
  updated : ℕ := 0
  returned : Bool := false

/-- Who read a notification first. -/
inductive Reader where
  | recipient
  | call (i : ℕ)
deriving DecidableEq

/-- The first reading of a notification. -/
structure Read where
  id : Id
  recipientUserId : Id
  reader : Reader
deriving DecidableEq

/-- The notifications, the calls, and who has read what. -/
structure State where
  docs : List Notification := []
  calls : List MarkAll := []
  reads : List Read := []

/-- The notifications of a user that are unread. -/
def unread (recipientUserId : Id) (docs : List Notification) : List Notification :=
  docs.filter (Notification.unreadOf recipientUserId)

inductive Step (s : State) : State → Prop where
  | notify {params : NotifyParams} {id : Id} {now : Instant} (hnew : id ∉ s.docs.map (·.id)) :
      Step s { s with docs := (Notifications.notify params id now s.docs).2 }
  | markRead {id recipientUserId : Id} {now : Instant} {n : Notification}
      {docs : List Notification}
      (h : Notifications.markRead id recipientUserId now s.docs = .ok (n, docs)) :
      Step s { s with
        docs := docs
        reads := if id ∈ (unread recipientUserId s.docs).map (·.id) then
          s.reads ++ [⟨id, recipientUserId, .recipient⟩] else s.reads }
  | begin {recipientUserId : Id} :
      Step s { s with
        calls := s.calls ++ [{
          recipientUserId := recipientUserId
          found := (unread recipientUserId s.docs).map (·.id) }] }
  | next {i : ℕ} {call : MarkAll} {id : Id} {now : Instant} (hcall : s.calls[i]? = some call)
      (hrunning : call.returned = false)
      (hunread : id ∈ (unread call.recipientUserId s.docs).map (·.id)) :
      Step s {
        docs := readNext id call.recipientUserId now s.docs
        calls := s.calls.set i { call with updated := call.updated + 1 }
        reads := s.reads ++ [⟨id, call.recipientUserId, .call i⟩] }
  | finish {i : ℕ} {call : MarkAll} (hcall : s.calls[i]? = some call)
      (hdone : ∀ id ∈ call.found, id ∉ (unread call.recipientUserId s.docs).map (·.id)) :
      Step s { s with calls := s.calls.set i { call with returned := true } }

/-! ### What a step does to the notifications -/

/-- The notification is read at this time. -/
def stamp (id : Id) (now : Instant) (docs : List Notification) : List Notification :=
  docs.map fun n => if n.id = id then { n with readAt := some now } else n

theorem stamp_ids (id : Id) (now : Instant) (docs : List Notification) :
    (stamp id now docs).map (·.id) = docs.map (·.id) := by
  rw [stamp, List.map_map]
  refine List.map_congr_left fun n _ => ?_
  dsimp only [Function.comp]
  split_ifs <;> rfl

theorem markRead_ok {id recipientUserId : Id} {now : Instant} {docs docs' : List Notification}
    {n : Notification} (hids : (docs.map (·.id)).Nodup)
    (h : markRead id recipientUserId now docs = .ok (n, docs')) :
    (∃ m ∈ docs, m.id = id ∧ m.recipientUserId = recipientUserId) ∧ docs' = stamp id now docs := by
  unfold markRead at h
  split at h
  · rename_i m hm
    cases h
    have hmem := List.mem_of_find?_eq_some hm
    have hkey : m.id = id ∧ m.recipientUserId = recipientUserId := by
      simpa using List.find?_some hm
    refine ⟨⟨m, hmem, hkey⟩, ?_⟩
    refine List.map_congr_left fun k hk => ?_
    by_cases hkm : k.id = m.id
    · obtain rfl := List.inj_on_of_nodup_map hids hk hmem hkm
      rw [if_pos rfl, if_pos hkey.1]
    · rw [if_neg hkm, if_neg fun hkid => hkm (hkid.trans hkey.1.symm)]
  · cases h

theorem mem_unread {id recipientUserId : Id} {docs : List Notification} :
    id ∈ (unread recipientUserId docs).map (·.id) ↔
      ∃ n ∈ docs, n.id = id ∧ n.recipientUserId = recipientUserId ∧ n.readAt = none := by
  simp only [unread, List.mem_map, List.mem_filter, Notification.unreadOf, Bool.and_eq_true,
    decide_eq_true_eq, Option.isNone_iff_eq_none]
  constructor
  · rintro ⟨n, ⟨hn, hrecipient, hread⟩, hid⟩
    exact ⟨n, hn, hid, hrecipient, hread⟩
  · rintro ⟨n, hn, hid, hrecipient, hread⟩
    exact ⟨n, ⟨hn, hrecipient, hread⟩, hid⟩

theorem readNext_eq {id recipientUserId : Id} {docs : List Notification} (now : Instant)
    (hids : (docs.map (·.id)).Nodup) (h : id ∈ (unread recipientUserId docs).map (·.id)) :
    readNext id recipientUserId now docs = stamp id now docs := by
  obtain ⟨m, hm, rfl, hrecipient, hread⟩ := mem_unread.mp h
  refine List.map_congr_left fun n hn => ?_
  by_cases hid : n.id = m.id
  · obtain rfl := List.inj_on_of_nodup_map hids hn hm hid
    simp [Notification.unreadOf, hrecipient, hread]
  · rw [if_neg fun hboth => hid hboth.1, if_neg hid]

/-- A step adds a notification, reads one, or leaves them all alone. -/
theorem Step.docs_cases {s s' : State} (h : Step s s') (hids : (s.docs.map (·.id)).Nodup) :
    s'.docs = s.docs ∨
      (∃ params id now, id ∉ s.docs.map (·.id) ∧
        s'.docs = s.docs ++ [NotifyParams.document params id now]) ∨
      ∃ id now, s'.docs = stamp id now s.docs := by
  cases h with
  | @notify params id now hnew => exact .inr (.inl ⟨params, id, now, hnew, rfl⟩)
  | markRead hread => exact .inr (.inr ⟨_, _, (markRead_ok hids hread).2⟩)
  | begin => exact .inl rfl
  | @next i call id now hcall hrunning hunread =>
      exact .inr (.inr ⟨id, now, readNext_eq now hids hunread⟩)
  | finish => exact .inl rfl

theorem Step.ids {s s' : State} (h : Step s s') (hids : (s.docs.map (·.id)).Nodup) :
    (s'.docs.map (·.id)).Nodup := by
  rcases h.docs_cases hids with heq | ⟨params, id, now, hnew, heq⟩ | ⟨id, now, heq⟩ <;> rw [heq]
  · exact hids
  · rw [← List.concat_eq_append, List.map_concat]
    exact hids.concat hnew
  · rw [stamp_ids]
    exact hids

/-- Every notification is still there, the same but for having been read. -/
def Kept (docs docs' : List Notification) : Prop :=
  ∀ n ∈ docs, ∃ n' ∈ docs', n' = { n with readAt := n'.readAt } ∧
    (n'.readAt = none → n.readAt = none)

theorem Kept.trans {docs docs' docs'' : List Notification} (h : Kept docs docs')
    (h' : Kept docs' docs'') : Kept docs docs'' := by
  intro n hn
  obtain ⟨m, hm, hmn, hread⟩ := h n hn
  obtain ⟨k, hk, hkm, hread'⟩ := h' m hm
  refine ⟨k, hk, ?_, fun hnone => hread (hread' hnone)⟩
  rw [hkm, hmn]

theorem kept_stamp (id : Id) (now : Instant) (docs : List Notification) :
    Kept docs (stamp id now docs) := by
  intro n hn
  refine ⟨_, List.mem_map.mpr ⟨n, hn, rfl⟩, ?_, ?_⟩
  · split_ifs <;> rfl
  · split_ifs
    · intro h
      cases h
    · exact fun hnone => hnone

theorem Step.kept {s s' : State} (h : Step s s') (hids : (s.docs.map (·.id)).Nodup) :
    Kept s.docs s'.docs := by
  rcases h.docs_cases hids with heq | ⟨params, id, now, -, heq⟩ | ⟨id, now, heq⟩ <;> rw [heq]
  · exact fun n hn => ⟨n, hn, rfl, fun hnone => hnone⟩
  · exact fun n hn => ⟨n, List.mem_append_left _ hn, rfl, fun hnone => hnone⟩
  · exact kept_stamp id now s.docs

theorem run_kept {s s' : State} (h : Relation.ReflTransGen Step s s')
    (hids : (s.docs.map (·.id)).Nodup) :
    (s'.docs.map (·.id)).Nodup ∧ Kept s.docs s'.docs := by
  induction h with
  | refl => exact ⟨hids, fun n hn => ⟨n, hn, rfl, fun hnone => hnone⟩⟩
  | tail _ hstep ih => exact ⟨hstep.ids ih.1, ih.2.trans (hstep.kept ih.1)⟩

/-! ### Following the list -/

theorem listQuery_holds (recipientUserId : Id) (unreadOnly : Bool) (n : Notification) :
    (listQuery recipientUserId unreadOnly).holds n = true ↔
      n.recipientUserId = recipientUserId ∧ (unreadOnly = true → n.readAt = none) := by
  rw [listQuery, Conditions.holds_object (by cases unreadOnly <;> simp)]
  cases unreadOnly <;> simp

theorem notifications_placed {docs : List Notification} (h : (docs.map (·.id)).Nodup) :
    Placed NOTIFICATION_SORT_KEYS Notification.position docs := by
  refine ⟨h.of_map _, fun x hx y hy hall => List.inj_on_of_nodup_map h hx hy ?_⟩
  exact hall ⟨"_id", .desc⟩ (by simp [NOTIFICATION_SORT_KEYS])

/-- The page that a client is given. -/
def pageFor (outside : Value → Except String (TextPage Notification)) (recipientUserId : Id)
    (unreadOnly : Bool) (cursor : Option JsString) (docs : List Notification) :
    Except String (TextPage Notification) :=
  (findForUser outside recipientUserId unreadOnly cursor docs docs).map (·.toTextPage)

theorem pageFor_eq (outside : Value → Except String (TextPage Notification)) (recipientUserId : Id)
    (unreadOnly : Bool) (cursor : Option JsString) (docs : List Notification) :
    pageFor outside recipientUserId unreadOnly cursor docs =
      paginateText listSchema NOTIFICATION_SORT_KEYS outside Notification.position
        (.ok .empty) docs (listQuery recipientUserId unreadOnly) cursor DEFAULT_PAGE_SIZE := by
  rw [pageFor, findForUser]
  cases paginateText listSchema NOTIFICATION_SORT_KEYS outside Notification.position
    (.ok .empty) docs (listQuery recipientUserId unreadOnly) cursor DEFAULT_PAGE_SIZE <;> rfl

/-- The collection between two fetches. -/
def Between (docs docs' : List Notification) : Prop :=
  ∃ s s' : State, s.docs = docs ∧ s'.docs = docs' ∧ Relation.ReflTransGen Step s s'

/-- Dates and identifiers as the database holds them. -/
def Stored (docs : List Notification) : Prop :=
  ∀ n ∈ docs, n.createdAt ≤ 8640000000000000 ∧ n.id < 16 ^ 24

theorem Stored.allStorable {snapshots : List (List Notification)}
    (h : ∀ docs ∈ snapshots, Stored docs) :
    AllStorable listSchema NOTIFICATION_SORT_KEYS Notification.position snapshots := by
  intro docs hdocs n hn k hk
  obtain ⟨hcreated, hid⟩ := h docs hdocs n hn
  simp only [NOTIFICATION_SORT_KEYS, List.mem_cons, List.not_mem_nil, or_false] at hk
  rcases hk with rfl | rfl
  · exact (storable_date (by decide) (by decide)).mpr hcreated
  · exact storable_id.mpr hid

section walk
variable {outside : Value → Except String (TextPage Notification)} {recipientUserId : Id}
  {unreadOnly : Bool} {snapshots : List (List Notification)}

theorem Between.kept {docs docs' : List Notification} (h : Between docs docs')
    (hids : (docs.map (·.id)).Nodup) : (docs'.map (·.id)).Nodup ∧ Kept docs docs' := by
  obtain ⟨s, s', rfl, rfl, hrun⟩ := h
  exact run_kept hrun hids

theorem snapshots_nodup (hids : ∀ docs ∈ snapshots.head?, (docs.map (·.id)).Nodup)
    (hrun : snapshots.IsChain Between) : ∀ docs ∈ snapshots, (docs.map (·.id)).Nodup :=
  hrun.induction _ _ (fun _ _ h hids => (h.kept hids).1) fun hne => hids _ (List.head?_eq_some_head hne)

theorem snapshots_kept (hids : ∀ docs ∈ snapshots, (docs.map (·.id)).Nodup)
    (hrun : snapshots.IsChain Between) : snapshots.Pairwise Kept := by
  let later : List Notification → List Notification → Prop := fun docs docs' =>
    (docs.map (·.id)).Nodup → (docs'.map (·.id)).Nodup ∧ Kept docs docs'
  have htrans : IsTrans _ later := ⟨fun docs docs' docs'' h h' hnodup =>
    ⟨(h' (h hnodup).1).1, (h hnodup).2.trans (h' (h hnodup).1).2⟩⟩
  have hlater : snapshots.IsChain later := hrun.imp fun _ _ h => h.kept
  exact (List.isChain_iff_pairwise.mp hlater).imp_of_mem fun hdocs _ h => (h (hids _ hdocs)).2

/-- A record has the same recipient and the same place in the list whenever it is read. -/
theorem snapshots_settled (hids : ∀ docs ∈ snapshots, (docs.map (·.id)).Nodup)
    (hkept : snapshots.Pairwise Kept) {docs docs' : List Notification} (hdocs : docs ∈ snapshots)
    (hdocs' : docs' ∈ snapshots) {x y : Notification} (hx : x ∈ docs) (hy : y ∈ docs')
    (hxy : x.id = y.id) :
    x.recipientUserId = y.recipientUserId ∧ x.createdAt = y.createdAt := by
  let same : List Notification → List Notification → Prop := fun docs docs' =>
    ∀ x ∈ docs, ∀ y ∈ docs', x.id = y.id →
      x.recipientUserId = y.recipientUserId ∧ x.createdAt = y.createdAt
  have hsymm : Std.Symm same := ⟨fun docs docs' h y hy x hx hyx =>
    ⟨(h x hx y hy hyx.symm).1.symm, (h x hx y hy hyx.symm).2.symm⟩⟩
  have hself : ∀ docs ∈ snapshots, same docs docs := by
    intro docs hdocs x hx y hy hxy
    obtain rfl := List.inj_on_of_nodup_map (hids docs hdocs) hx hy hxy
    exact ⟨rfl, rfl⟩
  have hlater : snapshots.Pairwise same := by
    refine hkept.imp_of_mem ?_
    intro docs docs' _ hdocs' hk x hx y hy hxy
    obtain ⟨z, hz, hzx, -⟩ := hk x hx
    have hzid : z.id = y.id := by
      rw [hzx]
      exact hxy
    obtain rfl := List.inj_on_of_nodup_map (hids docs' hdocs') hz hy hzid
    rw [hzx]
    exact ⟨rfl, rfl⟩
  exact hlater.forall_of_forall hself hdocs hdocs' x hx y hy hxy

theorem position_eq {x y : Notification} (hid : x.id = y.id) (hcreated : x.createdAt = y.createdAt) :
    ∀ k ∈ NOTIFICATION_SORT_KEYS, x.position k.field = y.position k.field := by
  intro k hk
  simp only [NOTIFICATION_SORT_KEYS, List.mem_cons, List.not_mem_nil, or_false] at hk
  rcases hk with rfl | rfl
  · exact hcreated
  · exact hid

/-- What a notification must be for the list to show it. -/
def listed (recipientUserId : Id) (unreadOnly : Bool) : Notification → Bool :=
  (listQuery recipientUserId unreadOnly).holds

theorem pages_walk {pages : List (PaginatedResponse Notification Numbers)}
    {next : Option (Position Numbers)} (hids : ∀ docs ∈ snapshots, (docs.map (·.id)).Nodup)
    (h : Follows (fun cursor docs page => paginate Notification.position .empty docs
      (listQuery recipientUserId unreadOnly) NOTIFICATION_SORT_KEYS cursor DEFAULT_PAGE_SIZE = page)
      none snapshots pages next) :
    Walk NOTIFICATION_SORT_KEYS Notification.position none
      (fetches (listed recipientUserId unreadOnly) snapshots pages) next :=
  h.walk fun _ _ docs hdocs hpage =>
    Paginates.turn hpage (by decide) (notifications_placed (hids docs hdocs)) (by decide)

/-- A record stands at one place throughout a walk. -/
theorem pages_settled {pages : List (PaginatedResponse Notification Numbers)}
    (hids : ∀ docs ∈ snapshots, (docs.map (·.id)).Nodup) (hkept : snapshots.Pairwise Kept)
    {docs : List Notification} (hdocs : docs ∈ snapshots) {n : Notification} (hn : n ∈ docs) :
    Settled NOTIFICATION_SORT_KEYS Notification.position (·.id) n.id n.position
      (fetches (listed recipientUserId unreadOnly) snapshots pages) := by
  intro f hf x hx hxid
  obtain ⟨docs', hdocs', hmatching⟩ := mem_fetches hf
  rw [hmatching] at hx
  exact position_eq hxid
    (snapshots_settled hids hkept hdocs' hdocs (List.mem_filter.mp hx).1 hn hxid).2

/-- The notification `v` is in the first collection for this recipient and, where only the
unread are asked for, unread in the last. -/
def Awaits (recipientUserId : Id) (unreadOnly : Bool) (v : Id)
    (snapshots : List (List Notification)) : Prop :=
  (∃ docs ∈ snapshots.head?, ∃ n ∈ docs, n.id = v ∧ n.recipientUserId = recipientUserId) ∧
    (unreadOnly = true → ∃ docs ∈ snapshots.getLast?, ∃ n ∈ docs, n.id = v ∧ n.readAt = none)

theorem Awaits.throughout {v : Id} (h : Awaits recipientUserId unreadOnly v snapshots)
    (hids : ∀ docs ∈ snapshots, (docs.map (·.id)).Nodup) (hkept : snapshots.Pairwise Kept) :
    ∀ docs ∈ snapshots, ∃ n ∈ docs, listed recipientUserId unreadOnly n = true ∧ n.id = v := by
  obtain ⟨⟨first, hfirst, n, hn, hnv, hrecipient⟩, hunread⟩ := h
  intro docs hdocs
  have hpresent : ∃ m ∈ docs, m.id = v ∧ m.recipientUserId = recipientUserId := by
    obtain ⟨rest, rfl⟩ := List.head?_eq_some_iff.mp hfirst
    rcases List.mem_cons.mp hdocs with rfl | hrest
    · exact ⟨n, hn, hnv, hrecipient⟩
    · obtain ⟨m, hm, hmn, -⟩ := (List.pairwise_cons.mp hkept).1 docs hrest n hn
      rw [hmn] at hm
      exact ⟨_, hm, hnv, hrecipient⟩
  obtain ⟨m, hm, hmv, hmrecipient⟩ := hpresent
  refine ⟨m, hm, (listQuery_holds _ _ m).mpr ⟨hmrecipient, fun honly => ?_⟩, hmv⟩
  obtain ⟨last, hlast, k, hk, hkv, hkread⟩ := hunread honly
  obtain ⟨init, rfl⟩ := List.getLast?_eq_some_iff.mp hlast
  rcases List.mem_append.mp hdocs with hinit | hlastmem
  · obtain ⟨j, hj, hjm, hread⟩ :=
      (List.pairwise_append.mp hkept).2.2 docs hinit last (List.mem_singleton_self _) m hm
    have hjv : j.id = v := by
      rw [hjm]
      exact hmv
    obtain rfl := List.inj_on_of_nodup_map (hids last (by simp)) hj hk (hjv.trans hkv.symm)
    exact hread hkread
  · obtain rfl := List.mem_singleton.mp hlastmem
    obtain rfl := List.inj_on_of_nodup_map (hids docs (by simp)) hm hk (hmv.trans hkv.symm)
    exact hkread

end walk

/-- Following the list by the cursors it gives out, while notifications come and are read:
none is given twice, and once the end is reached every notification that was there at the
start has been given, or, where only the unread are asked for, every one of those that
is still unread. -/
theorem notifications_listed_once (outside : Value → Except String (TextPage Notification))
    (recipientUserId : Id) (unreadOnly : Bool) (snapshots : List (List Notification))
    (texts : List (TextPage Notification)) (last : Option JsString)
    (hfollows : TextFollows (pageFor outside recipientUserId unreadOnly) none snapshots texts last)
    (hids : ∀ docs ∈ snapshots.head?, (docs.map (·.id)).Nodup)
    (hstored : ∀ docs ∈ snapshots, Stored docs) (hrun : snapshots.IsChain Between) (v : Id) :
    times (·.id) v (texts.flatMap (·.items)) ≤ 1 ∧
      (last = none → Awaits recipientUserId unreadOnly v snapshots →
        times (·.id) v (texts.flatMap (·.items)) = 1) := by
  have hall := snapshots_nodup hids hrun
  have hkept := snapshots_kept hall hrun
  have hnames : (NOTIFICATION_SORT_KEYS.map fun k => listSchema.name k.field).Nodup := by decide
  have hfetch : pageFor outside recipientUserId unreadOnly = fun cursor docs =>
      paginateText listSchema NOTIFICATION_SORT_KEYS outside Notification.position
        (.ok .empty) docs (listQuery recipientUserId unreadOnly) cursor DEFAULT_PAGE_SIZE := by
    funext cursor docs
    exact pageFor_eq outside recipientUserId unreadOnly cursor docs
  rw [hfetch] at hfollows
  obtain ⟨pages, next, hpages, rfl, rfl⟩ := hfollows.values
    (paginateText_renders hnames (Stored.allStorable hstored)) none rfl (by simp)
  have hitems : (pages.map (textPage listSchema NOTIFICATION_SORT_KEYS)).flatMap (·.items) =
      pages.flatMap (·.items) := by
    rw [List.flatMap_map]
    rfl
  have hwalk := pages_walk hall hpages
  have hdistinct : ∀ f ∈ fetches (listed recipientUserId unreadOnly) snapshots pages,
      f.Distinct (·.id) := fetches_distinct hall
  rw [hitems, ← hpages.shown_eq (p := listed recipientUserId unreadOnly)]
  constructor
  · refine hwalk.times_le_one hdistinct (fun f hf n hn => ?_) v
    obtain ⟨docs, hdocs, hmatching⟩ := mem_fetches hf
    rw [hmatching] at hn
    exact pages_settled hall hkept hdocs (List.mem_filter.mp hn).1
  · intro hend hawaits
    obtain rfl : next = none := by simpa using hend
    have hthroughout := hawaits.throughout hall hkept
    obtain ⟨docs, hdocs⟩ := hpages.nonempty
    obtain ⟨n, hn, -, rfl⟩ := hthroughout docs hdocs
    exact hwalk.once_of_settled hdistinct (fetches_throughout hthroughout)
      (pages_settled hall hkept hdocs hn)

namespace Sample

def params : NotifyParams where
  companyId := 10
  recipientUserId := 20
  type := .orderAssigned

/-- Notifications 1 to 21, newest last. -/
def inbox : List Notification := (List.range 21).map fun i => params.document (i + 1) (i + 1)

/-- The same after the newest was read and one more was created. -/
def inboxLater : List Notification := stamp 21 40 inbox ++ [params.document 22 50]

theorem inbox_between : Between inbox inboxLater := by
  have hread : Step { docs := inbox } { docs := stamp 21 40 inbox, reads := [⟨21, 20, .recipient⟩] } :=
    @Step.markRead { docs := inbox } 21 20 40 { params.document 21 21 with readAt := some 40 } _ rfl
  have hnotify : Step { docs := stamp 21 40 inbox, reads := [⟨21, 20, .recipient⟩] }
      { docs := inboxLater, reads := [⟨21, 20, .recipient⟩] } :=
    @Step.notify { docs := stamp 21 40 inbox, reads := [⟨21, 20, .recipient⟩] } params 22 50
      (by decide +kernel)
  exact ⟨_, _, rfl, rfl, .tail (.single hread) hnotify⟩

end Sample

/-- The unread of two pages, of which the newest is read and a newer one comes in between. -/
theorem notifications_listed_once_two : ∃ texts,
    TextFollows (pageFor (fun _ => .error "CastError") 20 true) none
      [Sample.inbox, Sample.inboxLater] texts none ∧
    times (·.id) 1 (texts.flatMap (·.items)) = 1 := by
  have hstored : ∀ docs ∈ [Sample.inbox, Sample.inboxLater], Stored docs := by
    unfold Stored
    decide +kernel
  have hfollows : ∃ texts, TextFollows (pageFor (fun _ => .error "CastError") 20 true) none
      [Sample.inbox, Sample.inboxLater] texts none := by
    rw [funext fun cursor => funext (pageFor_eq (fun _ => .error "CastError") 20 true cursor)]
    exact exists_textFollows (by decide) (Stored.allStorable hstored) (by decide +kernel)
  obtain ⟨texts, hfollows⟩ := hfollows
  refine ⟨texts, hfollows, (notifications_listed_once (fun _ => .error "CastError") 20 true
    [Sample.inbox, Sample.inboxLater] texts none hfollows (by decide +kernel) hstored
    (List.isChain_pair.mpr Sample.inbox_between) 1).2 rfl ⟨?_, fun _ => ?_⟩⟩
  · exact ⟨Sample.inbox, rfl, Sample.params.document 1 1, .head _, rfl, rfl⟩
  · exact ⟨Sample.inboxLater, rfl, Sample.params.document 1 1, .head _, rfl, rfl⟩

/-! ### Who has read what -/

/-- The notifications of a user that the user read one by one. -/
def readSingly (recipientUserId : Id) (reads : List Read) : ℕ :=
  reads.countP fun r => r.recipientUserId = recipientUserId ∧ r.reader = .recipient

/-- What the calls of a user have turned. -/
def updatedBy (recipientUserId : Id) (calls : List MarkAll) : ℕ :=
  ((calls.filter fun c => c.recipientUserId = recipientUserId).map (·.updated)).sum

/-- Every notification is unread or was read once, by one call or by its recipient. -/
structure Accounted (s : State) : Prop where
  ids : (s.docs.map (·.id)).Nodup
  once : (s.reads.map (·.id)).Nodup
  read_iff (n : Notification) : n ∈ s.docs → (n.readAt.isSome ↔ n.id ∈ s.reads.map (·.id))
  reads_docs (r : Read) : r ∈ s.reads → ∃ n ∈ s.docs, n.id = r.id ∧
    n.recipientUserId = r.recipientUserId
  reads_calls (r : Read) (i : ℕ) : r ∈ s.reads → r.reader = .call i →
    ∃ call, s.calls[i]? = some call ∧ call.recipientUserId = r.recipientUserId
  updated (i : ℕ) (call : MarkAll) : s.calls[i]? = some call →
    call.updated = s.reads.countP fun r => r.reader = .call i
  balance (u : Id) : updatedBy u s.calls + readSingly u s.reads + (unread u s.docs).length =
    (s.docs.filter fun n => n.recipientUserId = u).length
  found (i : ℕ) (call : MarkAll) : s.calls[i]? = some call → ∀ id ∈ call.found, ∃ n ∈ s.docs,
    n.id = id ∧ n.recipientUserId = call.recipientUserId ∧
      (call.returned = true → n.readAt.isSome)

section stamp
variable {docs : List Notification} {id : Id} {now : Instant} {m : Notification}

theorem stamp_of_notMem (h : id ∉ docs.map (·.id)) : stamp id now docs = docs := by
  rw [stamp]
  conv_rhs => rw [← List.map_id docs]
  refine List.map_congr_left fun n hn => ?_
  rw [if_neg fun hid => h (List.mem_map.mpr ⟨n, hn, hid⟩)]
  rfl

/-- Of different identifiers, reading one changes one document. -/
theorem stamp_split (hids : (docs.map (·.id)).Nodup) (hm : m ∈ docs) (now : Instant) :
    ∃ before after, docs = before ++ m :: after ∧
      stamp m.id now docs = before ++ { m with readAt := some now } :: after := by
  obtain ⟨before, after, rfl⟩ := List.append_of_mem hm
  rw [List.map_append, List.map_cons, List.nodup_middle, List.nodup_cons,
    List.mem_append, not_or] at hids
  refine ⟨before, after, rfl, ?_⟩
  have hbefore : stamp m.id now before = before := stamp_of_notMem hids.1.1
  have hafter : stamp m.id now after = after := stamp_of_notMem hids.1.2
  rw [stamp] at hbefore hafter
  rw [stamp, List.map_append, List.map_cons, hbefore, hafter, if_pos rfl]

theorem unread_stamp (hids : (docs.map (·.id)).Nodup) (hm : m ∈ docs) (now : Instant) (u : Id) :
    (unread u (stamp m.id now docs)).length + (if m.unreadOf u then 1 else 0) =
      (unread u docs).length := by
  obtain ⟨before, after, rfl, hstamp⟩ := stamp_split hids hm now
  rw [hstamp]
  simp only [unread, List.filter_append, List.length_append, List.filter_cons]
  have hread : ({ m with readAt := some now } : Notification).unreadOf u = false := by
    simp [Notification.unreadOf]
  rw [hread]
  cases m.unreadOf u
  · simp
  · simp only [if_true, List.length_cons]
    simp
    omega

theorem stamp_recipients (u : Id) :
    ((stamp id now docs).filter fun n => n.recipientUserId = u).length =
      (docs.filter fun n => n.recipientUserId = u).length := by
  rw [← List.countP_eq_length_filter, ← List.countP_eq_length_filter, stamp, List.countP_map]
  refine List.countP_congr fun n _ => ?_
  dsimp only [Function.comp]
  split_ifs <;> rfl

/-- A document of a stamped collection is one of before, the same but for having been read. -/
theorem mem_stamp {n : Notification} (h : n ∈ stamp id now docs) :
    ∃ m ∈ docs, n.id = m.id ∧ n.recipientUserId = m.recipientUserId ∧
      n.readAt = if m.id = id then some now else m.readAt := by
  obtain ⟨m, hm, rfl⟩ := List.mem_map.mp h
  refine ⟨m, hm, ?_⟩
  by_cases hid : m.id = id
  · simp only [if_pos hid, and_self]
  · simp only [if_neg hid, and_self]

end stamp

theorem updatedBy_set {calls : List MarkAll} {i : ℕ} {call : MarkAll} (call' : MarkAll)
    (hcall : calls[i]? = some call) (hrecipient : call'.recipientUserId = call.recipientUserId)
    (u : Id) :
    updatedBy u (calls.set i call') + (if call.recipientUserId = u then call.updated else 0) =
      updatedBy u calls + if call.recipientUserId = u then call'.updated else 0 := by
  obtain ⟨hi, hget⟩ := List.getElem?_eq_some_iff.mp hcall
  have hexists : ∃ before after, calls = before ++ calls[i] :: after ∧ before.length = i ∧
      calls.set i call' = before ++ call' :: after := List.exists_of_set hi
  obtain ⟨before, after, hsplit, -, hset⟩ := hexists
  rw [hget] at hsplit
  rw [hset, hsplit]
  by_cases hu : call.recipientUserId = u
  · have hu' : call'.recipientUserId = u := hrecipient.trans hu
    simp only [updatedBy, List.filter_append, List.map_append, List.sum_append, List.filter_cons,
      hu, hu', decide_true, if_true, List.map_cons, List.sum_cons]
    omega
  · have hu' : call'.recipientUserId ≠ u := fun h => hu (hrecipient.symm.trans h)
    simp only [updatedBy, List.filter_append, List.filter_cons, hu, hu', decide_false,
      Bool.false_eq_true, if_false]

theorem getElem?_begun {calls : List MarkAll} {call call' : MarkAll} {i : ℕ}
    (h : (calls ++ [call])[i]? = some call') :
    calls[i]? = some call' ∨ i = calls.length ∧ call' = call := by
  rw [List.getElem?_append] at h
  split_ifs at h with hi
  · exact .inl h
  · obtain ⟨hlt, hget⟩ := List.getElem?_eq_some_iff.mp h
    rw [List.length_singleton] at hlt
    exact .inr ⟨by omega, by simpa using hget.symm⟩

theorem getElem?_set_call {calls : List MarkAll} {call call' : MarkAll} {i j : ℕ}
    (h : (calls.set i call)[j]? = some call') :
    j = i ∧ call' = call ∨ j ≠ i ∧ calls[j]? = some call' := by
  rw [List.getElem?_set] at h
  split_ifs at h with hij hi
  · exact .inl ⟨hij.symm, (Option.some.inj h).symm⟩
  · exact .inr ⟨fun hji => hij hji.symm, h⟩

/-- The call in a place keeps its recipient when its count or its end is set. -/
theorem exists_set_call {calls : List MarkAll} {call found : MarkAll} {i j : ℕ} (call' : MarkAll)
    (hcall : calls[i]? = some call) (hrecipient : call'.recipientUserId = call.recipientUserId)
    (h : calls[j]? = some found) :
    ∃ c, (calls.set i call')[j]? = some c ∧ c.recipientUserId = found.recipientUserId := by
  obtain ⟨hi, -⟩ := List.getElem?_eq_some_iff.mp hcall
  by_cases hij : i = j
  · subst hij
    obtain rfl : call = found := Option.some.inj (hcall.symm.trans h)
    exact ⟨call', List.getElem?_set_self hi, hrecipient⟩
  · exact ⟨found, (List.getElem?_set_ne hij).trans h, rfl⟩

/-! ### One step -/

section accounted
variable {s : State}

theorem accounted_empty : Accounted {} where
  ids := List.nodup_nil
  once := List.nodup_nil
  read_iff n hn := by cases hn
  reads_docs r hr := by cases hr
  reads_calls r i hr := by cases hr
  updated i call hcall := by cases hcall
  balance u := rfl
  found i call hcall := by cases hcall

theorem Accounted.notify (h : Accounted s) {params : NotifyParams} {id : Id} {now : Instant}
    (hnew : id ∉ s.docs.map (·.id)) :
    Accounted { s with docs := s.docs ++ [params.document id now] } where
  ids := by
    rw [← List.concat_eq_append, List.map_concat]
    exact h.ids.concat hnew
  once := h.once
  read_iff n hn := by
    rcases List.mem_append.mp hn with hn | hn
    · exact h.read_iff n hn
    · obtain rfl := List.mem_singleton.mp hn
      refine iff_of_false (by simp [NotifyParams.document]) fun hread => ?_
      obtain ⟨r, hr, hrid⟩ := List.mem_map.mp hread
      obtain ⟨m, hm, hmr, -⟩ := h.reads_docs r hr
      exact hnew (List.mem_map.mpr ⟨m, hm, hmr.trans hrid⟩)
  reads_docs r hr := by
    obtain ⟨n, hn, hnr⟩ := h.reads_docs r hr
    exact ⟨n, List.mem_append_left _ hn, hnr⟩
  reads_calls := h.reads_calls
  updated := h.updated
  balance u := by
    have hbalance := h.balance u
    by_cases hu : params.recipientUserId = u
    · simp [unread, Notification.unreadOf, NotifyParams.document, hu] at hbalance ⊢
      omega
    · simpa [unread, Notification.unreadOf, NotifyParams.document, hu] using hbalance
  found i call hcall id hid := by
    obtain ⟨n, hn, hfound⟩ := h.found i call hcall id hid
    exact ⟨n, List.mem_append_left _ hn, hfound⟩

theorem Accounted.begin (h : Accounted s) (recipientUserId : Id) :
    Accounted { s with
      calls := s.calls ++ [{
        recipientUserId := recipientUserId
        found := (unread recipientUserId s.docs).map (·.id) }] } where
  ids := h.ids
  once := h.once
  read_iff := h.read_iff
  reads_docs := h.reads_docs
  reads_calls r i hr hreader := by
    obtain ⟨call, hcall, hrecipient⟩ := h.reads_calls r i hr hreader
    have hi : i < s.calls.length := (List.getElem?_eq_some_iff.mp hcall).choose
    exact ⟨call, (List.getElem?_append_left hi).trans hcall, hrecipient⟩
  updated i call hcall := by
    rcases getElem?_begun hcall with hcall | ⟨rfl, rfl⟩
    · exact h.updated i call hcall
    · symm
      rw [List.countP_eq_zero]
      intro r hr hreader
      obtain ⟨call, hcall, -⟩ := h.reads_calls r _ hr (by simpa using hreader)
      have hi := (List.getElem?_eq_some_iff.mp hcall).choose
      omega
  balance u := by
    have hbalance := h.balance u
    by_cases hu : recipientUserId = u <;> simpa [updatedBy, hu] using hbalance
  found i call hcall id hid := by
    rcases getElem?_begun hcall with hcall | ⟨rfl, rfl⟩
    · exact h.found i call hcall id hid
    · obtain ⟨n, hn, hnid, hrecipient, -⟩ := mem_unread.mp hid
      exact ⟨n, hn, hnid, hrecipient, fun hreturned => by cases hreturned⟩

theorem Accounted.finish (h : Accounted s) {i : ℕ} {call : MarkAll} (hcall : s.calls[i]? = some call)
    (hdone : ∀ id ∈ call.found, id ∉ (unread call.recipientUserId s.docs).map (·.id)) :
    Accounted { s with calls := s.calls.set i { call with returned := true } } where
  ids := h.ids
  once := h.once
  read_iff := h.read_iff
  reads_docs := h.reads_docs
  reads_calls r j hr hreader := by
    obtain ⟨call', hcall', hrecipient⟩ := h.reads_calls r j hr hreader
    obtain ⟨c, hc, hsame⟩ := exists_set_call { call with returned := true } hcall rfl hcall'
    exact ⟨c, hc, hsame.trans hrecipient⟩
  updated j call' hcall' := by
    rcases getElem?_set_call hcall' with ⟨rfl, rfl⟩ | ⟨-, hcall'⟩
    · exact h.updated _ call hcall
    · exact h.updated j call' hcall'
  balance u := by
    have hset := updatedBy_set { call with returned := true } hcall rfl u
    have hbalance := h.balance u
    dsimp only at hset ⊢
    omega
  found j call' hcall' id hid := by
    rcases getElem?_set_call hcall' with ⟨rfl, rfl⟩ | ⟨-, hcall'⟩
    · obtain ⟨n, hn, hnid, hrecipient, -⟩ := h.found _ call hcall id hid
      refine ⟨n, hn, hnid, hrecipient, fun _ => ?_⟩
      by_contra hread
      exact hdone id hid (mem_unread.mpr ⟨n, hn, hnid, hrecipient, by simpa using hread⟩)
    · exact h.found j call' hcall' id hid

theorem exists_stamp {docs : List Notification} {m : Notification} (hm : m ∈ docs) (id : Id)
    (now : Instant) : ∃ n ∈ stamp id now docs, n.id = m.id ∧
      n.recipientUserId = m.recipientUserId ∧ (m.readAt.isSome → n.readAt.isSome) := by
  obtain ⟨n, hn, hsame, hread⟩ := kept_stamp id now docs m hm
  refine ⟨n, hn, by rw [hsame], by rw [hsame], fun hsome => ?_⟩
  rw [Option.isSome_iff_ne_none] at hsome ⊢
  exact fun hnone => hsome (hread hnone)

/-- A notification that is read already stays with the one who read it first. -/
theorem Accounted.readAgain (h : Accounted s) {n : Notification} (hn : n ∈ s.docs)
    (hread : n.readAt.isSome) (now : Instant) :
    Accounted { s with docs := stamp n.id now s.docs } where
  ids := by
    rw [stamp_ids]
    exact h.ids
  once := h.once
  read_iff k hk := by
    obtain ⟨m, hm, hkid, -, hkread⟩ := mem_stamp hk
    rw [hkid, ← h.read_iff m hm, hkread]
    split_ifs with hid
    · obtain rfl := List.inj_on_of_nodup_map h.ids hm hn hid
      simp [hread]
    · exact Iff.rfl
  reads_docs r hr := by
    obtain ⟨m, hm, hmid, hrecipient⟩ := h.reads_docs r hr
    obtain ⟨k, hk, hkid, hkrecipient, -⟩ := exists_stamp hm n.id now
    exact ⟨k, hk, hkid.trans hmid, hkrecipient.trans hrecipient⟩
  reads_calls := h.reads_calls
  updated := h.updated
  balance u := by
    have hstamp := unread_stamp h.ids hn now u
    have hnot : n.unreadOf u = false := by
      rw [Notification.unreadOf, Option.isNone_eq_false_iff.mpr hread, Bool.and_false]
    have hbalance := h.balance u
    rw [hnot] at hstamp
    dsimp only
    rw [stamp_recipients]
    simp only [Bool.false_eq_true, if_false] at hstamp
    omega
  found i call hcall id hid := by
    obtain ⟨m, hm, hmid, hrecipient, hreturned⟩ := h.found i call hcall id hid
    obtain ⟨k, hk, hkid, hkrecipient, hkread⟩ := exists_stamp hm n.id now
    exact ⟨k, hk, hkid.trans hmid, hkrecipient.trans hrecipient, fun hr => hkread (hreturned hr)⟩

/-- What a first reading does to the calls: it is counted by the one that made it. -/
inductive Counts (calls : List MarkAll) (u : Id) : Reader → List MarkAll → Prop where
  | recipient : Counts calls u .recipient calls
  | call {i : ℕ} {call : MarkAll} (hcall : calls[i]? = some call)
      (hrecipient : call.recipientUserId = u) :
      Counts calls u (.call i) (calls.set i { call with updated := call.updated + 1 })

theorem Counts.exists_call {calls calls' : List MarkAll} {u : Id} {reader : Reader}
    (h : Counts calls u reader calls') {j : ℕ} {found : MarkAll} (hj : calls[j]? = some found) :
    ∃ c, calls'[j]? = some c ∧ c.recipientUserId = found.recipientUserId := by
  cases h with
  | recipient => exact ⟨found, hj, rfl⟩
  | @call i call hcall hrecipient =>
      exact exists_set_call { call with updated := call.updated + 1 } hcall rfl hj

theorem Counts.of_call {calls calls' : List MarkAll} {u : Id} {reader : Reader}
    (h : Counts calls u reader calls') {j : ℕ} {c : MarkAll} (hj : calls'[j]? = some c) :
    ∃ found, calls[j]? = some found ∧ c.recipientUserId = found.recipientUserId ∧
      c.found = found.found ∧ c.returned = found.returned ∧
      c.updated = found.updated + if reader = .call j then 1 else 0 := by
  cases h with
  | recipient => exact ⟨c, hj, rfl, rfl, rfl, rfl⟩
  | @call i call hcall hrecipient =>
      rcases getElem?_set_call hj with ⟨rfl, rfl⟩ | ⟨hne, hj⟩
      · exact ⟨call, hcall, rfl, rfl, rfl, by rw [if_pos rfl]⟩
      · refine ⟨c, hj, rfl, rfl, rfl, ?_⟩
        rw [if_neg fun heq => hne (Reader.call.inj heq).symm]
        rfl

theorem Counts.balance {calls calls' : List MarkAll} {u : Id} {reader : Reader}
    (h : Counts calls u reader calls') (v id : Id) :
    updatedBy v calls' + readSingly v [⟨id, u, reader⟩] =
      updatedBy v calls + if u = v then 1 else 0 := by
  cases h with
  | recipient => by_cases huv : u = v <;> simp [readSingly, huv]
  | @call i call hcall hrecipient =>
      have hset := updatedBy_set { call with updated := call.updated + 1 } hcall rfl v
      subst hrecipient
      have hsingly : readSingly v [⟨id, call.recipientUserId, .call i⟩] = 0 := by
        simp [readSingly]
      rw [hsingly]
      by_cases huv : call.recipientUserId = v
      · simp only [huv, if_true] at hset ⊢
        omega
      · simp only [huv, if_false] at hset ⊢
        omega

/-- A notification is read for the first time. -/
theorem Accounted.firstRead (h : Accounted s) {n : Notification} (hn : n ∈ s.docs)
    (hread : n.readAt = none) (now : Instant) {reader : Reader} {calls : List MarkAll}
    (hcalls : Counts s.calls n.recipientUserId reader calls) :
    Accounted {
      docs := stamp n.id now s.docs
      calls := calls
      reads := s.reads ++ [⟨n.id, n.recipientUserId, reader⟩] } where
  ids := by
    rw [stamp_ids]
    exact h.ids
  once := by
    rw [← List.concat_eq_append, List.map_concat]
    refine h.once.concat fun ha => ?_
    have hsome := (h.read_iff n hn).mpr ha
    rw [hread] at hsome
    cases hsome
  read_iff k hk := by
    obtain ⟨m, hm, hkid, -, hkread⟩ := mem_stamp hk
    rw [hkid, hkread, List.map_append, List.mem_append, ← h.read_iff m hm]
    split_ifs with hid
    · simp [hid]
    · simp [hid]
  reads_docs r hr := by
    rcases List.mem_append.mp hr with hr | hr
    · obtain ⟨m, hm, hmid, hrecipient⟩ := h.reads_docs r hr
      obtain ⟨k, hk, hkid, hkrecipient, -⟩ := exists_stamp hm n.id now
      exact ⟨k, hk, hkid.trans hmid, hkrecipient.trans hrecipient⟩
    · obtain rfl := List.mem_singleton.mp hr
      obtain ⟨k, hk, hkid, hkrecipient, -⟩ := exists_stamp hn n.id now
      exact ⟨k, hk, hkid, hkrecipient⟩
  reads_calls r i hr hreader := by
    rcases List.mem_append.mp hr with hr | hr
    · obtain ⟨call, hcall, hrecipient⟩ := h.reads_calls r i hr hreader
      obtain ⟨c, hc, hsame⟩ := hcalls.exists_call hcall
      exact ⟨c, hc, hsame.trans hrecipient⟩
    · obtain rfl := List.mem_singleton.mp hr
      obtain rfl : reader = .call i := hreader
      cases hcalls with
      | call hcall hrecipient =>
          obtain ⟨hi, -⟩ := List.getElem?_eq_some_iff.mp hcall
          exact ⟨_, List.getElem?_set_self hi, hrecipient⟩
  updated i c hc := by
    obtain ⟨call, hcall, -, -, -, hupdated⟩ := hcalls.of_call hc
    rw [hupdated, h.updated i call hcall, List.countP_append]
    by_cases hreader : reader = .call i <;> simp [hreader]
  balance u := by
    have hstamp := unread_stamp h.ids hn now u
    have hbalance := h.balance u
    have hcounts := hcalls.balance u n.id
    have hunread : n.unreadOf u = decide (n.recipientUserId = u) := by
      simp [Notification.unreadOf, hread]
    dsimp only
    rw [hunread] at hstamp
    rw [stamp_recipients, readSingly, List.countP_append, ← readSingly, ← readSingly]
    simp only [decide_eq_true_eq] at hstamp
    omega
  found i c hc id hid := by
    obtain ⟨call, hcall, hrecipient, hfound, hreturned, -⟩ := hcalls.of_call hc
    rw [hfound] at hid
    obtain ⟨m, hm, hmid, hmrecipient, hmread⟩ := h.found i call hcall id hid
    obtain ⟨k, hk, hkid, hkrecipient, hkread⟩ := exists_stamp hm n.id now
    refine ⟨k, hk, hkid.trans hmid, ?_, fun hr => hkread (hmread (hreturned ▸ hr))⟩
    exact hkrecipient.trans (hmrecipient.trans hrecipient.symm)

theorem Accounted.step (h : Accounted s) {s' : State} (hstep : Step s s') : Accounted s' := by
  cases hstep with
  | notify hnew => exact h.notify hnew
  | @markRead id recipientUserId now n docs hmark =>
      obtain ⟨⟨m, hm, rfl, rfl⟩, rfl⟩ := markRead_ok h.ids hmark
      split_ifs with hunread
      · obtain ⟨k, hk, hkid, -, hkread⟩ := mem_unread.mp hunread
        obtain rfl := List.inj_on_of_nodup_map h.ids hk hm hkid
        exact h.firstRead hk hkread now .recipient
      · refine h.readAgain hm ?_ now
        by_contra hnone
        exact hunread (mem_unread.mpr ⟨m, hm, rfl, rfl, by simpa using hnone⟩)
  | begin => exact h.begin _
  | @next i call id now hcall hrunning hunread =>
      rw [readNext_eq now h.ids hunread]
      obtain ⟨m, hm, rfl, hrecipient, hread⟩ := mem_unread.mp hunread
      have hread' := h.firstRead hm hread now (.call hcall hrecipient.symm)
      rwa [hrecipient] at hread'
  | finish hcall hdone => exact h.finish hcall hdone

end accounted

theorem accounted_run {s : State} (h : Relation.ReflTransGen Step {} s) : Accounted s := by
  induction h with
  | refl => exact accounted_empty
  | tail _ hstep ih => exact ih.step hstep

/-- Whatever users and calls that mark everything do at once: of each user's notifications
every one is unread, or was read first by the user or counted by exactly one call; a call
counts no notification of others, and when it returns all that it found at its start are
read; and no notification that is read is ever unread again. -/
theorem read_accounted (s s' : State) (h : Relation.ReflTransGen Step {} s)
    (hlater : Relation.ReflTransGen Step s s') :
    (∀ u, updatedBy u s.calls + readSingly u s.reads + (unread u s.docs).length =
      (s.docs.filter fun n => n.recipientUserId = u).length) ∧
    (s.reads.map (·.id)).Nodup ∧
    (∀ n ∈ s.docs, n.readAt.isSome ↔ n.id ∈ s.reads.map (·.id)) ∧
    (∀ i call, s.calls[i]? = some call →
      (call.updated = s.reads.countP fun r => r.reader = .call i) ∧
      (∀ r ∈ s.reads, r.reader = .call i → ∃ n ∈ s.docs, n.id = r.id ∧
        n.recipientUserId = call.recipientUserId) ∧
      (call.returned = true → ∀ n ∈ s.docs, n.id ∈ call.found → n.readAt.isSome)) ∧
    ∀ n ∈ s.docs, n.readAt.isSome → ∃ n' ∈ s'.docs,
      n' = { n with readAt := n'.readAt } ∧ n'.readAt.isSome := by
  have hs := accounted_run h
  refine ⟨hs.balance, hs.once, hs.read_iff, fun i call hcall => ⟨hs.updated i call hcall, ?_, ?_⟩, ?_⟩
  · intro r hr hreader
    obtain ⟨c, hc, hrecipient⟩ := hs.reads_calls r i hr hreader
    obtain rfl := Option.some.inj (hcall.symm.trans hc)
    obtain ⟨n, hn, hnid, hnrecipient⟩ := hs.reads_docs r hr
    exact ⟨n, hn, hnid, hnrecipient.trans hrecipient.symm⟩
  · intro hreturned n hn hfound
    obtain ⟨m, hm, hmid, -, hread⟩ := hs.found i call hcall n.id hfound
    obtain rfl := List.inj_on_of_nodup_map hs.ids hm hn hmid
    exact hread hreturned
  · intro n hn hread
    obtain ⟨n', hn', hsame, hkept⟩ := (run_kept hlater hs.ids).2 n hn
    refine ⟨n', hn', hsame, ?_⟩
    rw [Option.isSome_iff_ne_none] at hread ⊢
    exact fun hnone => hread (hkept hnone)

namespace Sample

/-- Three notifications of the user 20, and two calls that have found them. -/
def begun : State where
  docs := [params.document 1 5, params.document 2 6, params.document 3 7]
  calls := [{ recipientUserId := 20, found := [1, 2, 3] },
    { recipientUserId := 20, found := [1, 2, 3] }]

/-- The first call has read the first, the user the second, the second call the third. -/
def counted : State where
  docs := [{ params.document 1 5 with readAt := some 10 },
    { params.document 2 6 with readAt := some 11 }, { params.document 3 7 with readAt := some 12 }]
  calls := [{ recipientUserId := 20, found := [1, 2, 3], updated := 1 },
    { recipientUserId := 20, found := [1, 2, 3], updated := 1 }]
  reads := [⟨1, 20, .call 0⟩, ⟨2, 20, .recipient⟩, ⟨3, 20, .call 1⟩]

def finished : State :=
  { counted with
    calls := [{ recipientUserId := 20, found := [1, 2, 3], updated := 1, returned := true },
      { recipientUserId := 20, found := [1, 2, 3], updated := 1, returned := true }] }

theorem run_begun : Relation.ReflTransGen Step {} begun := by
  refine .tail (.tail (.tail (.tail (.tail .refl (@Step.notify _ params 1 5 ?_))
    (@Step.notify _ params 2 6 ?_)) (@Step.notify _ params 3 7 ?_)) (@Step.begin _ 20))
    (@Step.begin _ 20)
  · exact List.not_mem_nil
  · decide
  · decide

theorem run_counted : Relation.ReflTransGen Step begun counted := by
  refine .tail (.tail (.tail .refl
    (@Step.next _ 0 { recipientUserId := 20, found := [1, 2, 3] } 1 10 rfl rfl ?_))
    (@Step.markRead _ 2 20 11 { params.document 2 6 with readAt := some 11 } _ rfl))
    (@Step.next _ 1 { recipientUserId := 20, found := [1, 2, 3] } 3 12 rfl rfl ?_)
  · decide
  · decide

theorem run_finished : Relation.ReflTransGen Step counted finished := by
  refine .tail (.tail .refl
    (@Step.finish _ 0 { recipientUserId := 20, found := [1, 2, 3], updated := 1 } rfl ?_))
    (@Step.finish _ 1 { recipientUserId := 20, found := [1, 2, 3], updated := 1 } rfl ?_)
  · decide
  · decide

end Sample

/-- Two calls run at once, and the user marks a notification between their documents. -/
theorem read_accounted_twoCalls :
    updatedBy 20 Sample.finished.calls + readSingly 20 Sample.finished.reads +
      (unread 20 Sample.finished.docs).length =
        (Sample.finished.docs.filter fun n => n.recipientUserId = 20).length ∧
    ∀ n ∈ Sample.counted.docs, n.readAt.isSome → ∃ n' ∈ Sample.finished.docs,
      n' = { n with readAt := n'.readAt } ∧ n'.readAt.isSome := by
  have hcounted := Sample.run_begun.trans Sample.run_counted
  have hfinished := hcounted.trans Sample.run_finished
  exact ⟨(read_accounted _ _ hfinished .refl).1 20,
    (read_accounted _ _ hcounted Sample.run_finished).2.2.2.2⟩

end CiroFuel.Notifications
