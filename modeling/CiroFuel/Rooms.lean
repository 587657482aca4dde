import CiroFuel.Tracking
import CiroFuel.Movement
import CiroFuel.OrderState
import CiroFuel.StoredOrders
import CiroFuel.Json.Strings

/-!
# Who is sent what

A socket is in the room of its user, and in the rooms of the orders that it watches. What is
sent goes to a room and names nobody, so it reaches whoever is there by then. A watch reads
the order first and joins the room later, and what it joins is named by the text it was sent.
-/
namespace CiroFuel.Rooms
open Movement

/-! ### Sockets and events -/

structure Socket where
  user : SessionUser
  sgen : Option ℕ := none
  rooms : List String := []

inductive Event (P : Type) where
  | location (b : Broadcast P)
  /-- The document has the order's identifier and its new status. -/
  | status (updated : OrderDocument) (source : OrderStatus) (at_ : Instant)
  | otp (orderId : Id) (purpose : OtpPurpose) (otp : String) (expiresAt : Instant)
  | notification (recipientUserId : Id) (orderId : Option Id)
  | sessionRevoked (userId : Id)

/-- `emitToOrderRoom` and `emitToUser`, which differ in the name of the room. -/
structure Emission (P : Type) where
  room : String
  event : Event P

structure Delivery (P : Type) where
  socket : ℕ
  user : SessionUser
  event : Event P

def orderRoom (orderId : String) : String := "order:" ++ orderId

def userRoom (userId : String) : String := "user:" ++ userId

structure State (P : Type) where
  orders : Id → Option Order := fun _ => none
  fleet : Fleet P := fun _ => none
  sockets : ℕ → Option Socket := fun _ => none
  /-- No socket has had this number. -/
  next : ℕ := 0
  /-- Watches that were allowed and have not joined yet. -/
  joining : List (ℕ × String) := []
  outbox : List (Emission P) := []
  delivered : List (Delivery P) := []

def Socket.join (room : String) (sk : Socket) : Socket := { sk with rooms := room :: sk.rooms }

def Socket.leave (room : String) (sk : Socket) : Socket :=
  { sk with rooms := sk.rooms.filter (· ≠ room) }

/-- A socket that has disconnected is not there to be changed. -/
def State.modify {P : Type} (s : State P) (i : ℕ) (f : Socket → Socket) : State P :=
  { s with sockets := Function.update s.sockets i ((s.sockets i).map f) }

def State.connect {P : Type} (s : State P) (user : SessionUser) (sgen : Option ℕ) : State P :=
  { s with
    sockets := Function.update s.sockets s.next (some { user, sgen })
    next := s.next + 1 }

def State.disconnect {P : Type} (s : State P) (i : ℕ) : State P :=
  { s with sockets := Function.update s.sockets i none }

theorem State.modify_self {P : Type} (s : State P) (i : ℕ) (f : Socket → Socket) :
    (s.modify i f).sockets i = (s.sockets i).map f := Function.update_self _ _ _

theorem State.modify_of_ne {P : Type} (s : State P) {i j : ℕ} (h : j ≠ i) (f : Socket → Socket) :
    (s.modify i f).sockets j = s.sockets j := Function.update_of_ne h _ _

theorem State.connect_self {P : Type} (s : State P) (user : SessionUser) (sgen : Option ℕ) :
    (s.connect user sgen).sockets s.next = some { user, sgen } := Function.update_self _ _ _

theorem State.connect_of_ne {P : Type} (s : State P) (user : SessionUser) (sgen : Option ℕ) {j : ℕ}
    (h : j ≠ s.next) : (s.connect user sgen).sockets j = s.sockets j :=
  Function.update_of_ne h _ _

theorem State.socket_of_disconnect {P : Type} {s : State P} {i j : ℕ} {sk : Socket}
    (h : (s.disconnect i).sockets j = some sk) : s.sockets j = some sk := by
  by_cases hj : j = i
  · have hnone : (s.disconnect i).sockets i = none := Function.update_self _ _ _
    rw [hj, hnone] at h
    cases h
  · have hsame : (s.disconnect i).sockets j = s.sockets j := Function.update_of_ne hj _ _
    rwa [hsame] at h

/-! ### Runs -/

section steps
variable {P D : Type} [LinearOrder D] [NatCast D]
-- what an identifier is read as and written as
variable (cast : String → Option Id) (print : Id → String)

/-- `order:status` is sent three times; the order's name is the one that the caller gave. -/
def statusRooms (orderId : String) (updated : OrderDocument) : List String :=
  [orderRoom orderId] ++ (updated.driverId.toList.map fun d => userRoom (print d)) ++
    [userRoom (print updated.clientId)]

variable (cfg : Config D) (dist : P → P → D)

/-- What the services send, and what they have read by then. -/
inductive Emits (s : State P) : Emission P → Prop where
  | location {i : ℕ} {sk : Socket} {frame : Frame P} {b : Broadcast P}
      (hsocket : s.sockets i = some sk) (huser : frame.userId = sk.user.userId)
      (hrole : frame.role = sk.user.role) (hsgen : frame.sgen = sk.sgen)
      (hsent : (locationUpdate cfg dist frame s.fleet).2.1 = some b) :
      Emits s ⟨orderRoom (print b.orderId), .location b⟩
  | status {updated : OrderDocument} {o : Order} {entry : StatusHistoryEntry}
      {options : TransitionOptions} {text room : String} (hcast : cast text = some updated.id)
      (horder : s.orders updated.id = some o) (hsource : o.status = entry.source)
      (hupdated : updated.toOrder = o.transitioned entry options)
      (hroom : room ∈ statusRooms print text updated) :
      Emits s ⟨room, .status updated entry.source entry.at_⟩
  | otp {id : Id} {o : Order} {purpose : OtpPurpose} {code : String} {expiresAt : Instant}
      (horder : s.orders id = some o) :
      Emits s ⟨userRoom (print o.clientId), .otp id purpose code expiresAt⟩
  | notification {recipient : Id} {orderId : Option Id} :
      Emits s ⟨userRoom (print recipient), .notification recipient orderId⟩
  | sessionRevoked {userId : Id} : Emits s ⟨userRoom (print userId), .sessionRevoked userId⟩

inductive Step (s : State P) : State P → Prop where
  | orders {orders : Id → Option Order} : Step s { s with orders := orders }
  | fleet {fleet : Fleet P} : Step s { s with fleet := fleet }
  | connects {user : SessionUser} {sgen : Option ℕ} : Step s (s.connect user sgen)
  -- `handleConnection`, if it gets so far
  | joinsOwn {i : ℕ} {sk : Socket} (hsocket : s.sockets i = some sk) :
      Step s (s.modify i (Socket.join (userRoom (print sk.user.userId))))
  | watches {i : ℕ} {sk : Socket} {text : String} {id : Id} (hsocket : s.sockets i = some sk)
      (hcast : cast text = some id) (hwatch : watch sk.user s.orders id = .ok none) :
      Step s { s with joining := s.joining ++ [(i, text)] }
  | joins {n i : ℕ} {text : String} (hjoining : s.joining[n]? = some (i, text)) :
      Step s { s.modify i (Socket.join (orderRoom text)) with joining := s.joining.eraseIdx n }
  | unwatches {i : ℕ} {text : String} : Step s (s.modify i (Socket.leave (orderRoom text)))
  | disconnects {i : ℕ} : Step s (s.disconnect i)
  | emits {e : Emission P} (hemits : Emits cast print cfg dist s e) :
      Step s { s with outbox := s.outbox ++ [e] }
  -- some of those in the room; another instance may not be reached
  | sends {n : ℕ} {e : Emission P} {reached : List (ℕ × Socket)} (hout : s.outbox[n]? = some e)
      (hreached : ∀ r ∈ reached, s.sockets r.1 = some r.2 ∧ e.room ∈ r.2.rooms) :
      Step s { s with
        outbox := s.outbox.eraseIdx n
        delivered := s.delivered ++ reached.map fun r => ⟨r.1, r.2.user, e.event⟩ }

abbrev Run : State P → State P → Prop := Relation.ReflTransGen (Step cast print cfg dist)

end steps

/-! ### Names of rooms -/

section names
variable {cast : String → Option Id} {print : Id → String}

theorem orderRoom_inj {a b : String} (h : orderRoom a = orderRoom b) : a = b :=
  (String.append_right_inj "order:").1 h

theorem userRoom_inj (hprint : ∀ id, cast (print id) = some id) {a b : Id}
    (h : userRoom (print a) = userRoom (print b)) : a = b := by
  have hname : print a = print b := (String.append_right_inj "user:").1 h
  have hcast := congrArg cast hname
  rw [hprint, hprint] at hcast
  exact Option.some.inj hcast

theorem orderRoom_ne_userRoom (a b : String) : orderRoom a ≠ userRoom b := by
  intro h
  have hlist := congrArg String.toList h
  simp [orderRoom, userRoom] at hlist

theorem mem_statusRooms {updated : OrderDocument} {text room : String} :
    room ∈ statusRooms print text updated ↔ room = orderRoom text ∨
      (∃ d, updated.driverId = some d ∧ room = userRoom (print d)) ∨
        room = userRoom (print updated.clientId) := by
  cases hdriver : updated.driverId <;> simp [statusRooms, hdriver]

end names

/-! ### Orders and their watchers -/

section past
variable {P D : Type} [LinearOrder D] [NatCast D]
variable {cast : String → Option Id} {print : Id → String} {cfg : Config D} {dist : P → P → D}

/-- The user may watch the order. -/
def MayWatch (user : SessionUser) (id : Id) (s : State P) : Prop :=
  user.role ≠ .driver ∧ ∃ o, s.orders id = some o ∧ trackable o = true ∧
    Reaches user.role user.userId user.companyId none o

theorem mayWatch_of_watch {s : State P} {user : SessionUser} {id : Id}
    (hwatch : watch user s.orders id = .ok none) : MayWatch user id s := by
  have hdriver : user.role ≠ .driver := by
    intro hrole
    rw [watch, if_pos hrole] at hwatch
    cases hwatch
  obtain ⟨o, hfind, -, htrack⟩ := (watch_ok hdriver).1 hwatch
  obtain ⟨horder, hreaches⟩ := (@findVisible_reaches _ _ _ none _ _ o hdriver).1 hfind
  obtain ⟨stored, hstored, rfl⟩ := Option.map_eq_some_iff.1 horder
  exact ⟨hdriver, stored, hstored, htrack, hreaches⟩

/-- The user has asked under this name to watch the order, and may. -/
def Watching (i : ℕ) (user : SessionUser) (text : String) (id : Id) (s : State P) : Prop :=
  (∃ sk, s.sockets i = some sk ∧ sk.user = user) ∧ (i, text) ∈ s.joining ∧ MayWatch user id s

/-! ### What is kept -/

/-- A room that the socket may be in, by what is past. -/
def Belongs (cast : String → Option Id) (print : Id → String) (past : (State P → Prop) → Prop)
    (i : ℕ) (user : SessionUser) (room : String) : Prop :=
  room = userRoom (print user.userId) ∨
    ∃ text id, room = orderRoom text ∧ cast text = some id ∧ past (Watching i user text id)

variable (cast print cfg dist) in
structure Kept (past : (State P → Prop) → Prop) (s : State P) : Prop where
  below : ∀ i sk, s.sockets i = some sk → i < s.next
  joining : ∀ x ∈ s.joining, x.1 < s.next ∧
    ∀ sk, s.sockets x.1 = some sk → Belongs cast print past x.1 sk.user (orderRoom x.2)
  rooms : ∀ i sk, s.sockets i = some sk → ∀ room ∈ sk.rooms, Belongs cast print past i sk.user room
  outbox : ∀ e ∈ s.outbox, past fun s₀ => Emits cast print cfg dist s₀ e
  delivered : ∀ d ∈ s.delivered, ∃ room,
    (past fun s₀ => Emits cast print cfg dist s₀ ⟨room, d.event⟩) ∧
      Belongs cast print past d.socket d.user room

variable {past past' : (State P → Prop) → Prop} {s s' : State P}

theorem kept_start : Kept cast print cfg dist past {} where
  below _ _ h := absurd h (by simp)
  joining _ h := absurd h List.not_mem_nil
  rooms _ _ h := absurd h (by simp)
  outbox _ h := absurd h List.not_mem_nil
  delivered _ h := absurd h List.not_mem_nil

theorem Belongs.mono {i : ℕ} {user : SessionUser} {room : String}
    (hpast : ∀ p, past p → past' p) (h : Belongs cast print past i user room) :
    Belongs cast print past' i user room := by
  rcases h with h | ⟨text, id, hroom, hcast, h⟩
  · exact Or.inl h
  · exact Or.inr ⟨text, id, hroom, hcast, hpast _ h⟩

/-- More may be past. -/
theorem Kept.mono (hkept : Kept cast print cfg dist past s) (hpast : ∀ p, past p → past' p) :
    Kept cast print cfg dist past' s where
  below := hkept.below
  joining x hx :=
    ⟨(hkept.joining x hx).1, fun sk hsk => ((hkept.joining x hx).2 sk hsk).mono hpast⟩
  rooms i sk hsk room hroom := (hkept.rooms i sk hsk room hroom).mono hpast
  outbox e he := hpast _ (hkept.outbox e he)
  delivered d hd := by
    obtain ⟨room, hemits, hbelongs⟩ := hkept.delivered d hd
    exact ⟨room, hpast _ hemits, hbelongs.mono hpast⟩

/-- A socket that is changed stays that of its user. -/
theorem Kept.modify (hkept : Kept cast print cfg dist past s) {i : ℕ} {f : Socket → Socket}
    (huser : ∀ sk, (f sk).user = sk.user)
    (hrooms : ∀ sk, s.sockets i = some sk → ∀ room ∈ (f sk).rooms, room ∈ sk.rooms ∨
      Belongs cast print past i sk.user room) :
    Kept cast print cfg dist past (s.modify i f) := by
  have hsocket : ∀ j sk, (s.modify i f).sockets j = some sk →
      ∃ old, s.sockets j = some old ∧ sk.user = old.user ∧
        ∀ room ∈ sk.rooms, room ∈ old.rooms ∨ Belongs cast print past j old.user room := by
    intro j sk hsk
    by_cases hj : j = i
    · subst hj
      rw [State.modify_self] at hsk
      obtain ⟨old, hold, rfl⟩ := Option.map_eq_some_iff.1 hsk
      exact ⟨old, hold, huser old, hrooms old hold⟩
    · rw [State.modify_of_ne s hj] at hsk
      exact ⟨sk, hsk, rfl, fun room hroom => Or.inl hroom⟩
  refine ⟨fun j sk hsk => ?_, fun x hx => ⟨(hkept.joining x hx).1, fun sk hsk => ?_⟩,
    fun j sk hsk room hroom => ?_, hkept.outbox, hkept.delivered⟩
  · obtain ⟨old, hold, -, -⟩ := hsocket j sk hsk
    exact hkept.below j old hold
  · obtain ⟨old, hold, heq, -⟩ := hsocket x.1 sk hsk
    rw [heq]
    exact (hkept.joining x hx).2 old hold
  · obtain ⟨old, hold, heq, hsub⟩ := hsocket j sk hsk
    rw [heq]
    rcases hsub room hroom with hroom | hroom
    · exact hkept.rooms j old hold room hroom
    · exact hroom

theorem Kept.connects (hkept : Kept cast print cfg dist past s) (user : SessionUser)
    (sgen : Option ℕ) : Kept cast print cfg dist past (s.connect user sgen) := by
  refine ⟨fun i sk hsk => ?_, fun x hx => ?_, fun i sk hsk room hroom => ?_, hkept.outbox,
    hkept.delivered⟩
  · by_cases hi : i = s.next
    · exact hi ▸ Nat.lt_succ_self i
    · rw [State.connect_of_ne s user sgen hi] at hsk
      exact (hkept.below i sk hsk).trans (Nat.lt_succ_self _)
  · obtain ⟨hlt, hbelongs⟩ := hkept.joining x hx
    refine ⟨hlt.trans (Nat.lt_succ_self _), fun sk hsk => hbelongs sk ?_⟩
    rwa [State.connect_of_ne s user sgen hlt.ne] at hsk
  · by_cases hi : i = s.next
    · rw [hi, State.connect_self] at hsk
      obtain rfl := Option.some.inj hsk
      exact absurd hroom List.not_mem_nil
    · rw [State.connect_of_ne s user sgen hi] at hsk
      exact hkept.rooms i sk hsk room hroom

theorem Kept.disconnects (hkept : Kept cast print cfg dist past s) (i : ℕ) :
    Kept cast print cfg dist past (s.disconnect i) where
  below j sk hsk := hkept.below j sk (State.socket_of_disconnect hsk)
  joining x hx := ⟨(hkept.joining x hx).1, fun sk hsk =>
    (hkept.joining x hx).2 sk (State.socket_of_disconnect hsk)⟩
  rooms j sk hsk := hkept.rooms j sk (State.socket_of_disconnect hsk)
  outbox := hkept.outbox
  delivered := hkept.delivered

end past

/-! ### Over whole runs -/

section runs
variable {P D : Type} [LinearOrder D] [NatCast D]
variable {cast : String → Option Id} {print : Id → String} {cfg : Config D} {dist : P → P → D}
variable {s s' : State P}

variable (cast print cfg dist) in
/-- It was so at some time of a run to the state. -/
def Once (s : State P) (p : State P → Prop) : Prop :=
  ∃ s₀, Run cast print cfg dist {} s₀ ∧ Run cast print cfg dist s₀ s ∧ p s₀

theorem Once.step {p : State P → Prop} (hstep : Step cast print cfg dist s s')
    (h : Once cast print cfg dist s p) : Once cast print cfg dist s' p := by
  obtain ⟨s₀, hbefore, hafter, h⟩ := h
  exact ⟨s₀, hbefore, hafter.tail hstep, h⟩

theorem step_kept (hrun : Run cast print cfg dist {} s) (hstep : Step cast print cfg dist s s')
    (hkept : Kept cast print cfg dist (Once cast print cfg dist s) s) :
    Kept cast print cfg dist (Once cast print cfg dist s') s' := by
  have hbefore : ∀ p : State P → Prop, p s → Once cast print cfg dist s' p := fun p hp =>
    ⟨s, hrun, Relation.ReflTransGen.single hstep, hp⟩
  have hnow : ∀ p : State P → Prop, p s' → Once cast print cfg dist s' p := fun p hp =>
    ⟨s', hrun.tail hstep, Relation.ReflTransGen.refl, hp⟩
  have hpast := hkept.mono fun p => Once.step hstep
  clear hkept hrun
  generalize Once cast print cfg dist s' = past at hbefore hnow hpast ⊢
  cases hstep with
  | orders => exact ⟨hpast.below, hpast.joining, hpast.rooms, hpast.outbox, hpast.delivered⟩
  | fleet => exact ⟨hpast.below, hpast.joining, hpast.rooms, hpast.outbox, hpast.delivered⟩
  | connects => exact hpast.connects _ _
  | joinsOwn hsocket =>
    refine hpast.modify (fun _ => rfl) fun old hold room hroom => ?_
    rcases List.mem_cons.1 hroom with rfl | hroom
    · obtain rfl := Option.some.inj (hsocket.symm.trans hold)
      exact Or.inr (Or.inl rfl)
    · exact Or.inl hroom
  | @watches i sk text id hsocket hcast hwatch =>
    have hwatching := hnow (Watching i sk.user text id) ⟨⟨sk, hsocket, rfl⟩,
      List.mem_append_right _ (List.mem_singleton_self _), mayWatch_of_watch hwatch⟩
    refine ⟨hpast.below, fun x hx => ?_, hpast.rooms, hpast.outbox, hpast.delivered⟩
    rcases List.mem_append.1 hx with hx | hx
    · exact hpast.joining x hx
    · obtain rfl := List.mem_singleton.1 hx
      refine ⟨hpast.below i sk hsocket, fun sk' hsk' => ?_⟩
      obtain rfl := Option.some.inj (hsocket.symm.trans hsk')
      exact Or.inr ⟨text, id, rfl, hcast, hwatching⟩
  | joins hjoining =>
    have hmem := hpast.joining _ (List.mem_of_getElem? hjoining)
    have hmodify := hpast.modify (f := Socket.join (orderRoom _)) (fun _ => rfl)
      fun old hold room hroom => by
        rcases List.mem_cons.1 hroom with rfl | hroom
        · exact Or.inr (hmem.2 old hold)
        · exact Or.inl hroom
    exact ⟨hmodify.below, fun x hx => hmodify.joining x (List.mem_of_mem_eraseIdx hx),
      hmodify.rooms, hmodify.outbox, hmodify.delivered⟩
  | unwatches =>
    exact hpast.modify (fun _ => rfl) fun old _ room hroom => Or.inl (List.mem_of_mem_filter hroom)
  | disconnects => exact hpast.disconnects _
  | emits hemits =>
    refine ⟨hpast.below, hpast.joining, hpast.rooms, fun e he => ?_, hpast.delivered⟩
    rcases List.mem_append.1 he with he | he
    · exact hpast.outbox e he
    · obtain rfl := List.mem_singleton.1 he
      exact hbefore _ hemits
  | @sends n e reached hout hreached =>
    refine ⟨hpast.below, hpast.joining, hpast.rooms,
      fun e he => hpast.outbox e (List.mem_of_mem_eraseIdx he), fun d hd => ?_⟩
    rcases List.mem_append.1 hd with hd | hd
    · exact hpast.delivered d hd
    · obtain ⟨r, hr, rfl⟩ := List.mem_map.1 hd
      obtain ⟨hsocket, hroom⟩ := hreached r hr
      exact ⟨e.room, hpast.outbox e (List.mem_of_getElem? hout),
        hpast.rooms r.1 r.2 hsocket e.room hroom⟩

theorem run_kept (h : Run cast print cfg dist {} s) :
    Kept cast print cfg dist (Once cast print cfg dist s) s := by
  induction h with
  | refl => exact kept_start
  | tail hrun hstep ih => exact step_kept hrun hstep ih

/-! ### Entitlement -/

/-- A position is that of a driver who has the order and whose session is the last one. -/
def Drives (orderId : Id) (s : State P) : Prop :=
  ∃ i sk driver, s.sockets i = some sk ∧ sk.user.role = .driver ∧
    s.fleet sk.user.userId = some driver ∧ driver.activeOrderId = some orderId ∧
      sk.sgen.getD 0 = driver.sessionGeneration.getD 0

/-- The order was stored, and its client was this user. -/
def OwnedBy (userId orderId : Id) (s : State P) : Prop :=
  ∃ o, s.orders orderId = some o ∧ o.clientId = userId

/-- The document is what a transition has made of the one that was stored. -/
def Moves (updated : OrderDocument) (source : OrderStatus) (s : State P) : Prop :=
  ∃ o entry options, s.orders updated.id = some o ∧ o.status = source ∧
    updated.toOrder = o.transitioned entry options

variable (cast print cfg dist) in
/-- What a user may be sent, by what was read for it. -/
def Entitled (s : State P) (i : ℕ) (user : SessionUser) : Event P → Prop
  | .location b =>
      Once cast print cfg dist s (Watching i user (print b.orderId) b.orderId) ∧
        Once cast print cfg dist s (Drives b.orderId)
  | .status updated source _ => Once cast print cfg dist s (Moves updated source) ∧
      ((∃ text, Once cast print cfg dist s (Watching i user text updated.id)) ∨
        updated.driverId = some user.userId ∨ updated.clientId = user.userId)
  | .otp orderId _ _ _ => Once cast print cfg dist s (OwnedBy user.userId orderId)
  | .notification recipient _ => recipient = user.userId
  | .sessionRevoked userId => userId = user.userId

theorem locationUpdate_sends {frame : Frame P} {fleet : Fleet P} {b : Broadcast P}
    (h : (locationUpdate cfg dist frame fleet).2.1 = some b) : frame.role = .driver ∧
      ∃ driver, fleet frame.userId = some driver ∧ driver.activeOrderId = some b.orderId ∧
        frame.sgen.getD 0 = driver.sessionGeneration.getD 0 := by
  unfold locationUpdate at h
  by_cases hrole : frame.role = .driver
  · rw [if_neg (not_not.2 hrole)] at h
    cases hdriver : fleet frame.userId with
    | none =>
      rw [hdriver] at h
      cases h
    | some driver =>
      rw [hdriver] at h
      dsimp only at h
      split_ifs at h with hsgen
      obtain ⟨orderId, horder, rfl⟩ := Option.map_eq_some_iff.1 h
      exact ⟨hrole, driver, rfl, horder, not_not.1 hsgen⟩
  · rw [if_pos hrole] at h
    cases h

section belongs
variable {past : (State P → Prop) → Prop} {i : ℕ} {user : SessionUser}

/-- In a room of an order are only those who watch it under the name of the room. -/
theorem Belongs.watching {text : String} {id : Id} (hcast : cast text = some id)
    (h : Belongs cast print past i user (orderRoom text)) : past (Watching i user text id) := by
  rcases h with h | ⟨text', id', hroom, hcast', hpast⟩
  · exact absurd h (orderRoom_ne_userRoom _ _)
  · have htext := orderRoom_inj hroom
    rw [← htext, hcast] at hcast'
    rw [htext, Option.some.inj hcast']
    exact hpast

theorem Belongs.own (hprint : ∀ id, cast (print id) = some id) {userId : Id}
    (h : Belongs cast print past i user (userRoom (print userId))) : userId = user.userId := by
  rcases h with h | ⟨text, id, hroom, -, -⟩
  · exact userRoom_inj hprint h
  · exact absurd hroom.symm (orderRoom_ne_userRoom _ _)

end belongs

/-- Whatever a socket is sent, its user is entitled to it. -/
theorem deliveries_entitled (hprint : ∀ id, cast (print id) = some id)
    (h : Run cast print cfg dist {} s) {d : Delivery P} (hd : d ∈ s.delivered) :
    Entitled cast print cfg dist s d.socket d.user d.event := by
  obtain ⟨room, hemits, hbelongs⟩ := (run_kept h).delivered d hd
  obtain ⟨s₀, hbefore, hafter, hemits⟩ := hemits
  have hpast : ∀ p : State P → Prop, p s₀ → Once cast print cfg dist s p :=
    fun p hp => ⟨s₀, hbefore, hafter, hp⟩
  generalize d.event = event at hemits ⊢
  cases hemits with
  | location hsocket huser hrole hsgen hsent =>
    obtain ⟨hdriver, driver, hfleet, horder, hsession⟩ := locationUpdate_sends hsent
    rw [huser] at hfleet
    rw [hrole] at hdriver
    rw [hsgen] at hsession
    exact ⟨hbelongs.watching (hprint _),
      hpast _ ⟨_, _, driver, hsocket, hdriver, hfleet, horder, hsession⟩⟩
  | status hcast horder hsource hupdated hroom =>
    refine ⟨hpast _ ⟨_, _, _, horder, hsource, hupdated⟩, ?_⟩
    rcases mem_statusRooms.1 hroom with rfl | ⟨driver, hdriver, rfl⟩ | rfl
    · exact Or.inl ⟨_, hbelongs.watching hcast⟩
    · exact Or.inr (Or.inl (hdriver.trans (congrArg some (hbelongs.own hprint))))
    · exact Or.inr (Or.inr (hbelongs.own hprint))
  | otp horder => exact hpast _ ⟨_, horder, hbelongs.own hprint⟩
  | notification => exact hbelongs.own hprint
  | sessionRevoked => exact hbelongs.own hprint

end runs

/-! ### A truck that is followed -/

namespace Sample
open Json Numerals

/-- Twenty-four hexadecimal digits, for the identifiers that have so many. -/
@[irreducible] def print (id : Id) : String :=
  String.ofList (digitsText (digits 16 (max 24 (Nat.log 16 id + 1)) id))

def cast (text : String) : Option Id := (text.toList.mapM hexValue).map (value 16)

theorem cast_print (id : Id) : cast (print id) = some id := by
  have hlt : id < 16 ^ max 24 (Nat.log 16 id + 1) :=
    (Nat.lt_pow_succ_log_self (by decide) id).trans_le
      (Nat.pow_le_pow_right (by decide) (le_max_right _ _))
  rw [cast, print, String.toList_ofList, mapM_hexValue fun d hd => digits_lt (by decide) hd,
    Option.map_some, value_digits, Nat.mod_eq_of_lt hlt]

def client : SessionUser := { userId := 20, role := .client, companyId := some 10 }

def driver : SessionUser := { userId := 30, role := .driver, companyId := some 11 }

/-- The order is on its way with this driver. -/
def stored : State ℕ where
  orders := fun _ => some enRoute
  fleet := fun _ => some { activeOrderId := some 100 }

/-- The client is socket 0, the driver is socket 1. -/
def connected : State ℕ := (stored.connect client none).connect driver none

def asked : State ℕ := { connected with joining := [(0, print 100)] }

def joined : State ℕ :=
  { connected.modify 0 (Socket.join (orderRoom (print 100))) with joining := [] }

def frame : Frame ℕ where
  userId := 30
  fix := 7
  recordedAt := "2026-01-01T00:00:00.000Z"
  seenAt := 5000
  now := 5000

def position : Broadcast ℕ := ⟨100, 7, "2026-01-01T00:00:00.000Z", 5000⟩

def sent : State ℕ := { joined with outbox := [⟨orderRoom (print 100), .location position⟩] }

def received : State ℕ := { joined with delivered := [⟨0, client, .location position⟩] }

def metres (a b : ℕ) : ℕ := (a - b) + (b - a)

abbrev Goes : State ℕ → State ℕ → Prop := Step cast print {} metres

theorem run_received : Run cast print {} metres {} received := by
  have horders : Goes {} { orders := stored.orders } := .orders
  have hfleet : Goes { orders := stored.orders } stored := .fleet
  have hclient : Goes stored (stored.connect client none) := .connects
  have hdriver : Goes (stored.connect client none) connected := .connects
  have hwatch : watch client connected.orders 100 = .ok none := rfl
  have hasked : Goes connected asked := .watches (i := 0) rfl (cast_print 100) hwatch
  have hjoined : Goes asked joined := .joins (n := 0) rfl
  have hposition : (locationUpdate {} metres frame joined.fleet).2.1 = some position := rfl
  have hsent : Goes joined sent := .emits (.location (i := 1) rfl rfl rfl rfl hposition)
  have hclient' : ∃ sk, sent.sockets 0 = some sk ∧ sk.user = client ∧
      orderRoom (print 100) ∈ sk.rooms := ⟨_, rfl, rfl, List.mem_cons_self⟩
  obtain ⟨sk, hsocket, huser, hroom⟩ := hclient'
  have hreceived : Goes sent received := by
    have hsends := @Step.sends ℕ ℕ _ _ cast print {} metres sent 0 _ [(0, sk)] rfl
      (List.forall_mem_singleton.2 ⟨hsocket, hroom⟩)
    rw [List.map_singleton, huser] at hsends
    exact hsends
  exact (((((((Relation.ReflTransGen.single horders).tail hfleet).tail hclient).tail hdriver).tail
    hasked).tail hjoined).tail hsent).tail hreceived

end Sample

theorem deliveries_entitled_followed : ∃ s d, d ∈ s.delivered ∧
    d.user = Sample.client ∧ d.event = .location Sample.position ∧
      Entitled Sample.cast Sample.print {} Sample.metres s d.socket d.user d.event :=
  ⟨Sample.received, _, List.mem_singleton_self _, rfl, rfl,
    deliveries_entitled Sample.cast_print Sample.run_received (List.mem_singleton_self _)⟩

end CiroFuel.Rooms
