import CiroFuel.Pagination
import CiroFuel.StoredOrders
import CiroFuel.Tracking

/-!
# The order list and the invoice list

Both lists are paginated by a key that normal operation changes: orders by the
time of their last change, invoices by their state. A transition moves an order
to the front of its list, a settlement moves an invoice towards the end of its
own, and the cursor of a walk stays where it is.
-/
namespace CiroFuel
open Query

/-- The conditions a plugin adds to a list; none for the platform operator. -/
def listScope {δ : Type} (document : δ → Document) (user : SessionUser) :
    Except String (Conditions String δ) := do
  let some scope ← pluginScope user.requestScope .multiParty | return .empty
  return scope.comap document

/-- What a document of a list must be for the user to see it. -/
def visible {δ : Type} (document : δ → Document) (user : SessionUser) (d : δ) : Bool :=
  match listScope document user with
  | .ok scope => scope.holds d
  | .error _ => false

/-- A sort by numbers; the enum values of a state sort alphabetically. -/
abbrev Numbers : String → Type := fun _ => ℕ

def DEFAULT_PAGE_SIZE : ℕ := 20

/-! ### Orders -/

def StoredOrder.document (o : StoredOrder) : Document := o.toOrderDocument.document

def StoredOrder.position (o : StoredOrder) : Position Numbers := fun f =>
  if f = "updatedAt" then o.updatedAt else if f = "_id" then o.id else 0

def ORDER_LIST_SORT_KEYS : List (SortField String) := [⟨"updatedAt", .desc⟩, ⟨"_id", .desc⟩]

inductive OrderStatusBucket where
  | new | inProgress | completed | rejected | cancelled | needsAttention
deriving DecidableEq, Repr

def ORDER_STATUS_BUCKETS : OrderStatusBucket → List OrderStatus
  | .new => [.pendingApproval, .approved, .routedToTransport, .pendingPayment]
  | .inProgress => [.assignedToDriver, .loading, .inTransit, .unloading]
  | .completed => [.delivered]
  | .rejected => [.rejected]
  | .cancelled => [.cancelled]
  | .needsAttention => [.awaitingRouting]

structure OrderListFilter where
  status : Option OrderStatus := none
  bucket : Option OrderStatusBucket := none
  orderId : Option IdString := none

/-- What the query asks of the state; an identifier overrides it. -/
def stateQuery (filter : OrderListFilter) : List (Name String × (StoredOrder → Bool)) :=
  match filter.orderId with
  | some orderId => [(.field "_id", fun o => decide (orderId = .id o.id))]
  | none =>
      match filter.status, filter.bucket with
      | some status, _ => [(.field "status", fun o => decide (o.status = status))]
      | none, some bucket =>
          [(.field "status", fun o => (ORDER_STATUS_BUCKETS bucket).contains o.status)]
      | none, none => []

def partyQuery (user : SessionUser) : List (Name String × (StoredOrder → Bool)) :=
  match user.role with
  | .client => [(.field "clientId", fun o => decide (o.clientId = user.userId))]
  | .driver => [(.field "driverId", fun o => decide (o.driverId = some user.userId))]
  | _ => []

def orderQuery (user : SessionUser) (filter : OrderListFilter) : Conditions String StoredOrder :=
  .object (stateQuery filter ++ partyQuery user)

/-- One page of the order list. -/
def findOrdersForUser (user : SessionUser) (filter : OrderListFilter)
    (cursor : Option (Position Numbers)) (docs : List StoredOrder) :
    Except String (PaginatedResponse StoredOrder Numbers) :=
  match filter.orderId.map IdString.objectId with
  | some (.error _) => .ok { items := [], nextCursor := none }
  | _ => do
      let scope ← listScope StoredOrder.document user
      return paginate StoredOrder.position scope docs (orderQuery user filter) ORDER_LIST_SORT_KEYS
        cursor DEFAULT_PAGE_SIZE

/-- `GET orders` -/
def findMine (user : SessionUser) (filter : OrderListFilter) (cursor : Option (Position Numbers))
    (docs : List StoredOrder) : Except String (PaginatedResponse StoredOrder Numbers) :=
  match filter.bucket, filter.status with
  | some bucket, some status =>
      if (ORDER_STATUS_BUCKETS bucket).contains status then findOrdersForUser user filter cursor docs
      else .error "ORDER_BUCKET_STATUS_CONFLICT"
  | _, _ => findOrdersForUser user filter cursor docs

/-- The order is the user's to see and meets the filter. -/
def orderMatches (user : SessionUser) (filter : OrderListFilter) (o : StoredOrder) : Bool :=
  (orderQuery user filter).holds o && visible StoredOrder.document user o

/-- A write to the order collection while a client pages through it. The clock does not run back:
a transition is not earlier than the last change of the order it moves. -/
inductive OrderCommit (docs : List StoredOrder) : List StoredOrder → Prop where
  | transition {row : StoredOrder} {target : OrderStatus} {actor : TransitionActor}
      {options : TransitionOptions} {now : Instant} (hrow : row ∈ docs)
      (hedge : permits row.status target options.manualOverride = true)
      (hnow : row.updatedAt ≤ now) :
      OrderCommit docs (docs.map fun o =>
        if o.id = row.id then
          { o with
            toOrder := o.toOrder.transitioned (historyEntry row.status target actor options now)
              options
            updatedAt := now }
        else o)
  | created {row : StoredOrder} (hnew : row.id ∉ docs.map (·.id)) : OrderCommit docs (docs ++ [row])

/-! ### Invoices -/

structure InvoiceRow extends InvoiceDocument where
  createdAt : Instant
deriving DecidableEq

/-- The fields of an invoice that filters name. -/
def InvoiceRow.document (x : InvoiceRow) : Document :=
  [("_id", BsonValue.objectId x.id), ("fuelCompanyId", .objectId x.fuelCompanyId),
    ("clientId", .objectId x.clientId)] ++
    x.transportCompanyId.toList.map fun c => ("transportCompanyId", BsonValue.objectId c)

/-- `ISSUED`, `SETTLED` and `VOID` in alphabetical order. -/
def InvoiceState.rank : InvoiceState → ℕ
  | .issued => 0
  | .settled => 1
  | .void => 2

def InvoiceRow.position (x : InvoiceRow) : Position Numbers := fun f =>
  if f = "state" then x.state.rank else if f = "createdAt" then x.createdAt
  else if f = "_id" then x.id else 0

def INVOICE_SORT_KEYS : List (SortField String) :=
  [⟨"state", .asc⟩, ⟨"createdAt", .desc⟩, ⟨"_id", .desc⟩]

structure InvoiceListFilter where
  method : Option PaymentMethod := none
  state : Option InvoiceState := none
  fuelCompanyId : Option Id := none

def invoiceQuery (filter : InvoiceListFilter) : Conditions String InvoiceRow :=
  .object
    ((filter.method.toList.map fun m =>
        (Name.field "method", fun x : InvoiceRow => decide (x.method = m))) ++
      (filter.state.toList.map fun s =>
        (Name.field "state", fun x : InvoiceRow => decide (x.state = s))) ++
      (filter.fuelCompanyId.toList.map fun c =>
        (Name.field "fuelCompanyId", fun x : InvoiceRow => decide (x.fuelCompanyId = c))))

/-- `GET invoices` -/
def findInvoicesForUser (user : SessionUser) (filter : InvoiceListFilter)
    (cursor : Option (Position Numbers)) (docs : List InvoiceRow) :
    Except String (PaginatedResponse InvoiceRow Numbers) := do
  let scope ← listScope InvoiceRow.document user
  return paginate InvoiceRow.position scope docs (invoiceQuery filter) INVOICE_SORT_KEYS cursor
    DEFAULT_PAGE_SIZE

def invoiceMatches (user : SessionUser) (filter : InvoiceListFilter) (x : InvoiceRow) : Bool :=
  (invoiceQuery filter).holds x && visible InvoiceRow.document user x

/-- A write to the invoice collection while a client pages through it. -/
inductive InvoiceCommit (docs : List InvoiceRow) : List InvoiceRow → Prop where
  | settled {row : InvoiceRow} {at_ : Instant} {paymentReference : Option ℕ} (hrow : row ∈ docs)
      (hissued : row.state = .issued) :
      InvoiceCommit docs (docs.map fun x =>
        if x.id = row.id then
          { x with
            state := .settled
            settledAt := some at_
            paymentReference := paymentReference.or x.paymentReference }
        else x)
  | voided {row : InvoiceRow} (hrow : row ∈ docs) (hissued : row.state = .issued) :
      InvoiceCommit docs (docs.map fun x => if x.id = row.id then { x with state := .void } else x)
  | issued {row : InvoiceRow} (hnew : row.id ∉ docs.map (·.id)) :
      InvoiceCommit docs (docs ++ [row])

/-! ### Filter and scope -/

section scope
variable {δ : Type} {document : δ → Document} {user : SessionUser} {scope : Conditions String δ}

theorem visible_eq (h : listScope document user = .ok scope) (d : δ) :
    visible document user d = scope.holds d := by
  rw [visible, h]

/-- What the scope demands under a name are fields of the role's own documents. -/
theorem listScope_get (h : listScope document user = .ok scope) {n : Name String}
    (hn : (scope.get n).isSome) :
    ∃ e ∈ ownFields user.requestScope .multiParty, n = .field e.1 ∧
      ∀ d, scope.holds d = true → (document d).names e.1 e.2 = true := by
  unfold listScope at h
  obtain ⟨s, hplugin, h⟩ := except_bind_ok h
  rcases pluginScope_spec hplugin with ⟨rfl, -⟩ | ⟨s, rfl, hown, hnames⟩
  · cases h
    cases hn
  · cases h
    rw [Conditions.get_comap, Option.isSome_map] at hn
    obtain ⟨e, he, rfl⟩ := hnames n hn
    refine ⟨e, he, rfl, ?_⟩
    intro d hd
    rw [Conditions.holds_comap, hown, ownRecord, List.all_eq_true] at hd
    exact hd e he

/-- The fields that scopes on multi-party collections name. -/
theorem ownFields_name {ctx : RequestScope} {e : String × Option IdString}
    (he : e ∈ ownFields ctx .multiParty) :
    e = ("fuelCompanyId", fuelCompanyOf ctx) ∨
      (ctx.role = some .transportCompanyAdmin ∧ e = ("transportCompanyId", ctx.companyId)) ∨
      (ctx.role = some .client ∧ e = ("clientId", ctx.userId)) ∨
      (ctx.role = some .driver ∧ e = ("driverId", ctx.userId)) := by
  rcases List.mem_cons.mp he with rfl | he
  · exact Or.inl rfl
  · split at he <;> simp_all

theorem listScope_and (h : listScope document user = .ok scope) : scope.get .and = none := by
  by_contra hsome
  obtain ⟨e, -, heq, -⟩ := listScope_get h (Option.isSome_iff_ne_none.mpr hsome)
  cases heq

end scope

section record
variable {δ : Type} {pos : δ → Position Numbers} {ident : δ → Id} {p : δ → Bool}
  {snapshots : List (List δ)} {pages : List (PaginatedResponse δ Numbers)} {v : Id}

theorem fetches_distinct (hids : ∀ docs ∈ snapshots, (docs.map ident).Nodup) :
    ∀ f ∈ fetches p snapshots pages, f.Distinct ident := by
  intro f hf x hx y hy heq
  obtain ⟨docs, hdocs, hmatching⟩ := mem_fetches hf
  rw [hmatching] at hx hy
  exact List.inj_on_of_nodup_map (hids docs hdocs) (List.mem_filter.mp hx).1
    (List.mem_filter.mp hy).1 heq

theorem fetches_throughout (hv : ∀ docs ∈ snapshots, ∃ x ∈ docs, p x = true ∧ ident x = v) :
    Throughout ident v (fetches p snapshots pages) := by
  intro f hf
  obtain ⟨docs, hdocs, hmatching⟩ := mem_fetches hf
  obtain ⟨x, hx, hxm, hxv⟩ := hv docs hdocs
  exact ⟨x, hmatching ▸ List.mem_filter.mpr ⟨hx, hxm⟩, hxv⟩

/-- Between collections that drift one way the fetches drift that way too. -/
theorem fetches_drift {R : List δ → List δ → Prop} {rel : Position Numbers → Position Numbers → Prop}
    {S : Fetch δ Numbers → Fetch δ Numbers → Prop}
    (hids : ∀ docs ∈ snapshots, (docs.map ident).Nodup)
    (hR : ∀ docs docs', (docs.map ident).Nodup → R docs docs' → Drifts rel pos ident docs docs')
    (hS : ∀ f g : Fetch δ Numbers, (∀ x ∈ f.matching, ∀ y ∈ g.matching, ident y = ident x →
      rel (pos x) (pos y)) → S f g)
    (hrun : snapshots.IsChain R) : (fetches p snapshots pages).IsChain S := by
  refine fetches_chain (fun docs hdocs docs' hdocs' h items next items' next' => ?_) hrun
  refine hS _ _ fun x hx y hy hxy => ?_
  exact (hR docs docs' (hids docs hdocs) h).related (hids docs' hdocs') (List.mem_filter.mp hx).1
    (List.mem_filter.mp hy).1 hxy

end record

/-! ### The order list -/

theorem orderQuery_holds (user : SessionUser) (filter : OrderListFilter) (o : StoredOrder) :
    (orderQuery user filter).holds o =
      (stateQuery filter ++ partyQuery user).all fun e => e.2 o := by
  refine Conditions.holds_object ?_ o
  cases hid : filter.orderId <;> cases hstatus : filter.status <;> cases hbucket : filter.bucket <;>
    cases hrole : user.role <;> simp [stateQuery, partyQuery, hid, hstatus, hbucket, hrole]

theorem stateQuery_name {filter : OrderListFilter} {e : Name String × (StoredOrder → Bool)}
    (he : e ∈ stateQuery filter) : e.1 = .field "_id" ∨ e.1 = .field "status" := by
  unfold stateQuery at he
  split at he
  · obtain rfl := List.mem_singleton.mp he
    exact Or.inl rfl
  · split at he
    · obtain rfl := List.mem_singleton.mp he
      exact Or.inr rfl
    · obtain rfl := List.mem_singleton.mp he
      exact Or.inr rfl
    · cases he

theorem partyQuery_mem {user : SessionUser} {e : Name String × (StoredOrder → Bool)}
    (he : e ∈ partyQuery user) :
    (user.role = .client ∧ e = (.field "clientId", fun o => decide (o.clientId = user.userId))) ∨
      user.role = .driver ∧
        e = (.field "driverId", fun o => decide (o.driverId = some user.userId)) := by
  unfold partyQuery at he
  split at he
  · exact Or.inl ⟨‹_›, List.mem_singleton.mp he⟩
  · exact Or.inr ⟨‹_›, List.mem_singleton.mp he⟩
  · cases he

theorem document_driverId (o : OrderDocument) :
    o.document.get "driverId" = o.driverId.map .objectId := by
  cases ht : o.transportCompanyId <;> cases hd : o.driverId <;>
    simp only [OrderDocument.document, Document.get, ht, hd] <;> rfl

/-- Whatever an order query shares with the scope, the scope demands as well. -/
theorem orderQuery_separate {user : SessionUser} {scope : Conditions String StoredOrder}
    (h : listScope StoredOrder.document user = .ok scope) (filter : OrderListFilter)
    (docs : List StoredOrder) : Separate (orderQuery user filter) scope docs where
  and := listScope_and h
  merge o _ := by
    refine Conditions.holds_merge_implied fun n c hc hn ho => ?_
    obtain ⟨e, he, rfl, hnames⟩ := listScope_get h hn
    have hdoc := hnames o ho
    rcases List.mem_append.mp (Conditions.mem_of_get_object hc) with hstate | hparty
    · have hname := stateQuery_name hstate
      rcases ownFields_name he with rfl | ⟨-, rfl⟩ | ⟨-, rfl⟩ | ⟨-, rfl⟩ <;> simp at hname
    · rcases partyQuery_mem hparty with ⟨hrole, heq⟩ | ⟨hrole, heq⟩
      · injection heq with hname hcond
        subst hcond
        rcases ownFields_name he with rfl | ⟨-, rfl⟩ | ⟨-, rfl⟩ | ⟨-, rfl⟩
        · simp at hname
        · simp at hname
        · simpa [SessionUser.requestScope, Document.names, StoredOrder.document, document_clientId]
            using hdoc
        · simp at hname
      · injection heq with hname hcond
        subst hcond
        rcases ownFields_name he with rfl | ⟨-, rfl⟩ | ⟨-, rfl⟩ | ⟨-, rfl⟩
        · simp at hname
        · simp at hname
        · simp at hname
        · simpa [SessionUser.requestScope, Document.names, StoredOrder.document, document_driverId]
            using hdoc

theorem findMine_ok {user : SessionUser} {filter : OrderListFilter}
    {cursor : Option (Position Numbers)} {docs : List StoredOrder}
    {page : PaginatedResponse StoredOrder Numbers} (h : findMine user filter cursor docs = .ok page) :
    findOrdersForUser user filter cursor docs = .ok page := by
  unfold findMine at h
  split at h
  · split_ifs at h
    exact h
  · exact h

/-- A malformed identifier matches no order. -/
theorem orderMatches_orderId {user : SessionUser} {filter : OrderListFilter} {o : StoredOrder}
    (h : orderMatches user filter o = true) {orderId : IdString}
    (hid : filter.orderId = some orderId) : orderId = .id o.id := by
  rw [orderMatches, Bool.and_eq_true, orderQuery_holds, List.all_append, Bool.and_eq_true] at h
  have hstate := h.1.1
  rw [stateQuery, hid] at hstate
  simpa using hstate

theorem orders_placed {docs : List StoredOrder} (h : (docs.map fun o => o.id).Nodup) :
    Placed ORDER_LIST_SORT_KEYS StoredOrder.position docs := by
  refine ⟨h.of_map _, fun x hx y hy hall => List.inj_on_of_nodup_map h hx hy ?_⟩
  exact hall ⟨"_id", .desc⟩ (List.mem_cons_of_mem _ List.mem_cons_self)

theorem findMine_turn {user : SessionUser} {filter : OrderListFilter}
    {cursor : Option (Position Numbers)} {docs : List StoredOrder}
    {page : PaginatedResponse StoredOrder Numbers} (h : findMine user filter cursor docs = .ok page)
    (hids : (docs.map fun o => o.id).Nodup) (hvalid : ∃ o, orderMatches user filter o = true) :
    Turn ORDER_LIST_SORT_KEYS StoredOrder.position cursor
      { matching := docs.filter (orderMatches user filter)
        items := page.items
        next := page.nextCursor } := by
  obtain ⟨o, ho⟩ := hvalid
  have hfind := findMine_ok h
  have hpage : (do
      let scope ← listScope StoredOrder.document user
      return paginate StoredOrder.position scope docs (orderQuery user filter) ORDER_LIST_SORT_KEYS
        cursor DEFAULT_PAGE_SIZE : Except String _) = .ok page := by
    cases hid : filter.orderId with
    | none =>
        rw [findOrdersForUser, hid] at hfind
        exact hfind
    | some orderId =>
        obtain rfl := orderMatches_orderId ho hid
        rw [findOrdersForUser, hid] at hfind
        exact hfind
  obtain ⟨scope, hscope, hpage⟩ := except_bind_ok hpage
  cases hpage
  have hmatches : (fun d => (orderQuery user filter).holds d && scope.holds d) =
      orderMatches user filter := by
    funext d
    rw [orderMatches, visible_eq hscope]
  rw [← hmatches]
  exact paginate_turn (by decide) (orders_placed hids) (by decide)
    (orderQuery_separate hscope filter docs)

/-! ### Orders only move forwards -/

theorem OrderCommit.ids {docs docs' : List StoredOrder} (h : OrderCommit docs docs')
    (hids : (docs.map fun o => o.id).Nodup) : (docs'.map fun o => o.id).Nodup := by
  cases h with
  | @transition row target actor options now hrow hedge hnow =>
      have hsame : (docs.map fun o => if o.id = row.id then
          { o with
            toOrder := o.toOrder.transitioned (historyEntry row.status target actor options now)
              options
            updatedAt := now }
          else o).map (fun o => o.id) = docs.map fun o => o.id := by
        rw [List.map_map]
        refine List.map_congr_left fun o _ => ?_
        simp only [Function.comp]
        split_ifs <;> rfl
      rw [hsame]
      exact hids
  | @created row hnew =>
      rw [← List.concat_eq_append, List.map_concat]
      exact hids.concat hnew

theorem notLater_of_updatedAt {x y : StoredOrder} (hid : y.id = x.id)
    (h : x.updatedAt ≤ y.updatedAt) :
    NotLater ORDER_LIST_SORT_KEYS x.position y.position := by
  rintro (hlt | ⟨-, hlt | ⟨-, hnil⟩⟩)
  · exact absurd hlt (not_lt.mpr h)
  · exact absurd hlt (by
      change ¬ y.id < x.id
      rw [hid]
      exact lt_irrefl _)
  · exact hnil

/-- A transition takes an order towards the front; every other order stays where it is. -/
theorem OrderCommit.drifts {docs docs' : List StoredOrder} (h : OrderCommit docs docs')
    (hids : (docs.map fun o => o.id).Nodup) :
    Drifts (NotLater ORDER_LIST_SORT_KEYS) StoredOrder.position (fun o => o.id) docs docs' := by
  cases h with
  | @transition row target actor options now hrow hedge hnow =>
      intro o ho
      refine ⟨_, List.mem_map.mpr ⟨o, ho, rfl⟩, ?_, ?_⟩
      · split_ifs <;> rfl
      · split_ifs with hid
        · obtain rfl := List.inj_on_of_nodup_map hids ho hrow hid
          exact notLater_of_updatedAt rfl hnow
        · exact notLater_of_updatedAt rfl (le_refl _)
  | created hnew =>
      exact fun o ho => ⟨o, List.mem_append_left _ ho, rfl, notLater_of_updatedAt rfl (le_refl _)⟩

/-- A run of commits keeps the identifiers unique and moves no order to the end. -/
theorem order_run {docs docs' : List StoredOrder}
    (h : Relation.ReflTransGen OrderCommit docs docs') (hids : (docs.map fun o => o.id).Nodup) :
    (docs'.map fun o => o.id).Nodup ∧
      Drifts (NotLater ORDER_LIST_SORT_KEYS) StoredOrder.position (fun o => o.id) docs docs' := by
  induction h with
  | refl => exact ⟨hids, Drifts.refl (fun a => precedes_irrefl _ a) docs⟩
  | tail _ hstep ih =>
      exact ⟨hstep.ids ih.1, ih.2.trans (fun a b c => NotLater.trans) (hstep.drifts ih.1)⟩

/-- An order that matches throughout a walk is listed once exactly if no transition
takes it from ahead of the cursor to behind it. -/
theorem order_listed_once_iff {user : SessionUser} {filter : OrderListFilter}
    {snapshots : List (List StoredOrder)} {pages : List (PaginatedResponse StoredOrder Numbers)} {v : Id}
    (hwalk : Follows (fun cursor docs page => findMine user filter cursor docs = .ok page) none
      snapshots pages none)
    (hids : ∀ docs ∈ snapshots.head?, (docs.map fun o => o.id).Nodup)
    (hrun : snapshots.IsChain (Relation.ReflTransGen OrderCommit))
    (hv : ∀ docs ∈ snapshots, ∃ o ∈ docs, orderMatches user filter o = true ∧ o.id = v) :
    times (fun o : StoredOrder => o.id) v (pages.flatMap fun page => page.items) = 1 ↔
      (fetches (orderMatches user filter) snapshots pages).IsChain fun f g =>
        ¬ Skipped ORDER_LIST_SORT_KEYS StoredOrder.position (fun o => o.id) v f g := by
  have hall : ∀ docs ∈ snapshots, (docs.map fun o => o.id).Nodup :=
    hrun.induction _ _ (fun _ _ h hids => (order_run h hids).1)
      fun hne => hids _ (List.head?_eq_some_head hne)
  obtain ⟨docs, hdocs⟩ := hwalk.nonempty
  obtain ⟨o, -, ho, -⟩ := hv docs hdocs
  have hw : Walk ORDER_LIST_SORT_KEYS StoredOrder.position none
      (fetches (orderMatches user filter) snapshots pages) none :=
    hwalk.walk fun _ _ docs hdocs hpage => findMine_turn hpage (hall docs hdocs) ⟨o, ho⟩
  rw [← hwalk.shown_eq]
  refine hw.once_iff_not_skipped (fetches_distinct hall) (fetches_throughout hv) ?_
  exact fetches_drift hall (fun _ _ hids h => (order_run h hids).2)
    (fun _ _ => not_revisited_of_notLater) hrun

/-! ### The invoice list -/

theorem invoice_fuelCompanyId (x : InvoiceRow) :
    x.document.get "fuelCompanyId" = some (.objectId x.fuelCompanyId) := rfl

theorem names_unique {d d' : Document} {f : String} {i : Option IdString} {c c' : Id}
    (h : d.names f i = true) (h' : d'.names f i = true) (hd : d.get f = some (.objectId c))
    (hd' : d'.get f = some (.objectId c')) : c = c' := by
  obtain ⟨id, rfl, hid⟩ := names_iff.mp h
  obtain ⟨id', heq, hid'⟩ := names_iff.mp h'
  cases heq
  rw [hd] at hid
  rw [hd'] at hid'
  cases hid
  cases hid'
  rfl

/-- A fuel company that the caller may name and that has a matching invoice is the caller's own. -/
theorem invoiceQuery_separate {user : SessionUser} {scope : Conditions String InvoiceRow}
    (h : listScope InvoiceRow.document user = .ok scope) {filter : InvoiceListFilter}
    {x : InvoiceRow} (hx : invoiceMatches user filter x = true) (docs : List InvoiceRow) :
    Separate (invoiceQuery filter) scope docs where
  and := listScope_and h
  merge d _ := by
    refine Conditions.holds_merge_implied fun n c hc hn hd => ?_
    obtain ⟨e, he, rfl, hnames⟩ := listScope_get h hn
    rw [invoiceMatches, Bool.and_eq_true, visible_eq h] at hx
    have hcx : c x = true := Conditions.holds_iff.mp hx.1 _ c hc
    have hmem := Conditions.mem_of_get_object hc
    simp only [List.mem_append, List.mem_map, Prod.mk.injEq] at hmem
    rcases hmem with (⟨m, -, hname, -⟩ | ⟨st, -, hname, -⟩) | ⟨id, -, hname, rfl⟩
    · rcases ownFields_name he with rfl | ⟨-, rfl⟩ | ⟨-, rfl⟩ | ⟨-, rfl⟩ <;> simp at hname
    · rcases ownFields_name he with rfl | ⟨-, rfl⟩ | ⟨-, rfl⟩ | ⟨-, rfl⟩ <;> simp at hname
    · rcases ownFields_name he with rfl | ⟨-, rfl⟩ | ⟨-, rfl⟩ | ⟨-, rfl⟩
      · have hsame := names_unique (hnames d hd) (hnames x hx.2) (invoice_fuelCompanyId d)
          (invoice_fuelCompanyId x)
        rw [decide_eq_true_eq] at hcx ⊢
        exact hsame.trans hcx
      · simp at hname
      · simp at hname
      · simp at hname

theorem invoices_placed {docs : List InvoiceRow} (h : (docs.map fun x => x.id).Nodup) :
    Placed INVOICE_SORT_KEYS InvoiceRow.position docs := by
  refine ⟨h.of_map _, fun x hx y hy hall => List.inj_on_of_nodup_map h hx hy ?_⟩
  exact hall ⟨"_id", .desc⟩ (by simp [INVOICE_SORT_KEYS])

theorem findInvoicesForUser_turn {user : SessionUser} {filter : InvoiceListFilter}
    {cursor : Option (Position Numbers)} {docs : List InvoiceRow}
    {page : PaginatedResponse InvoiceRow Numbers}
    (h : findInvoicesForUser user filter cursor docs = .ok page)
    (hids : (docs.map fun x => x.id).Nodup) (hvalid : ∃ x, invoiceMatches user filter x = true) :
    Turn INVOICE_SORT_KEYS InvoiceRow.position cursor
      { matching := docs.filter (invoiceMatches user filter)
        items := page.items
        next := page.nextCursor } := by
  obtain ⟨x, hx⟩ := hvalid
  unfold findInvoicesForUser at h
  obtain ⟨scope, hscope, h⟩ := except_bind_ok h
  cases h
  have hmatches : (fun d => (invoiceQuery filter).holds d && scope.holds d) =
      invoiceMatches user filter := by
    funext d
    rw [invoiceMatches, visible_eq hscope]
  rw [← hmatches]
  exact paginate_turn (by decide) (invoices_placed hids) (by decide)
    (invoiceQuery_separate hscope hx docs)

/-! ### Invoices only move backwards -/

theorem map_ids {docs : List InvoiceRow} {f : InvoiceRow → InvoiceRow} (hf : ∀ x, (f x).id = x.id) :
    (docs.map f).map (fun x => x.id) = docs.map fun x => x.id := by
  rw [List.map_map]
  exact List.map_congr_left fun x _ => hf x

theorem InvoiceCommit.ids {docs docs' : List InvoiceRow} (h : InvoiceCommit docs docs')
    (hids : (docs.map fun x => x.id).Nodup) : (docs'.map fun x => x.id).Nodup := by
  cases h with
  | settled hrow hissued | voided hrow hissued =>
      rw [map_ids fun x => by split_ifs <;> rfl]
      exact hids
  | @issued row hnew =>
      rw [← List.concat_eq_append, List.map_concat]
      exact hids.concat hnew

theorem notEarlier_of_rank {x y : InvoiceRow} (hid : y.id = x.id) (hcreated : y.createdAt = x.createdAt)
    (h : x.state.rank ≤ y.state.rank) :
    NotEarlier INVOICE_SORT_KEYS x.position y.position := by
  rintro (hlt | ⟨-, hlt | ⟨-, hlt | ⟨-, hnil⟩⟩⟩)
  · exact absurd hlt (not_lt.mpr h)
  · change x.createdAt < y.createdAt at hlt
    rw [hcreated] at hlt
    exact lt_irrefl _ hlt
  · change x.id < y.id at hlt
    rw [hid] at hlt
    exact lt_irrefl _ hlt
  · exact hnil

/-- An issued invoice comes first, whatever it becomes. -/
theorem InvoiceCommit.drifts {docs docs' : List InvoiceRow} (h : InvoiceCommit docs docs')
    (hids : (docs.map fun x => x.id).Nodup) :
    Drifts (NotEarlier INVOICE_SORT_KEYS) InvoiceRow.position (fun x => x.id) docs docs' := by
  have hissuedAt : ∀ {row x : InvoiceRow}, row ∈ docs → x ∈ docs → row.state = .issued →
      x.id = row.id → x.state.rank = 0 := by
    intro row x hrow hx hissued hid
    obtain rfl := List.inj_on_of_nodup_map hids hx hrow hid
    rw [hissued]
    rfl
  cases h with
  | settled hrow hissued | voided hrow hissued =>
      intro x hx
      refine ⟨_, List.mem_map.mpr ⟨x, hx, rfl⟩, ?_, ?_⟩
      · split_ifs <;> rfl
      · split_ifs with hid
        · refine notEarlier_of_rank rfl rfl ?_
          rw [hissuedAt hrow hx hissued hid]
          exact Nat.zero_le _
        · exact notEarlier_of_rank rfl rfl (le_refl _)
  | issued hnew =>
      exact fun x hx => ⟨x, List.mem_append_left _ hx, rfl, notEarlier_of_rank rfl rfl (le_refl _)⟩

/-- A run of commits keeps the identifiers unique and moves no invoice to the front. -/
theorem invoice_run {docs docs' : List InvoiceRow}
    (h : Relation.ReflTransGen InvoiceCommit docs docs') (hids : (docs.map fun x => x.id).Nodup) :
    (docs'.map fun x => x.id).Nodup ∧
      Drifts (NotEarlier INVOICE_SORT_KEYS) InvoiceRow.position (fun x => x.id) docs docs' := by
  induction h with
  | refl => exact ⟨hids, Drifts.refl (fun a => precedes_irrefl _ a) docs⟩
  | tail _ hstep ih =>
      exact ⟨hstep.ids ih.1, ih.2.trans (fun a b c => NotEarlier.trans) (hstep.drifts ih.1)⟩

/-- An invoice that matches throughout a walk is listed once exactly if no settlement
or void takes it from behind the cursor to ahead of it. -/
theorem invoice_listed_once_iff {user : SessionUser} {filter : InvoiceListFilter}
    {snapshots : List (List InvoiceRow)} {pages : List (PaginatedResponse InvoiceRow Numbers)}
    {v : Id}
    (hwalk : Follows (fun cursor docs page => findInvoicesForUser user filter cursor docs = .ok page)
      none snapshots pages none)
    (hids : ∀ docs ∈ snapshots.head?, (docs.map fun x => x.id).Nodup)
    (hrun : snapshots.IsChain (Relation.ReflTransGen InvoiceCommit))
    (hv : ∀ docs ∈ snapshots, ∃ x ∈ docs, invoiceMatches user filter x = true ∧ x.id = v) :
    times (fun x : InvoiceRow => x.id) v (pages.flatMap fun page => page.items) = 1 ↔
      (fetches (invoiceMatches user filter) snapshots pages).IsChain fun f g =>
        ¬ Revisited INVOICE_SORT_KEYS InvoiceRow.position (fun x => x.id) v f g := by
  have hall : ∀ docs ∈ snapshots, (docs.map fun x => x.id).Nodup :=
    hrun.induction _ _ (fun _ _ h hids => (invoice_run h hids).1)
      fun hne => hids _ (List.head?_eq_some_head hne)
  obtain ⟨docs, hdocs⟩ := hwalk.nonempty
  obtain ⟨x, -, hx, -⟩ := hv docs hdocs
  have hw : Walk INVOICE_SORT_KEYS InvoiceRow.position none
      (fetches (invoiceMatches user filter) snapshots pages) none :=
    hwalk.walk fun _ _ docs hdocs hpage =>
      findInvoicesForUser_turn hpage (hall docs hdocs) ⟨x, hx⟩
  rw [← hwalk.shown_eq]
  refine hw.once_iff_not_revisited (fetches_distinct hall) (fetches_throughout hv) ?_
  exact fetches_drift hall (fun _ _ hids h => (invoice_run h hids).2)
    (fun _ _ => not_skipped_of_notEarlier) hrun

/-- On either list a record that matches throughout a walk is returned once exactly if
it does not cross the cursor: an order to behind it, an invoice to ahead of it. -/
theorem lists_complete_iff (user : SessionUser) :
    (∀ (filter : OrderListFilter) (snapshots : List (List StoredOrder))
        (pages : List (PaginatedResponse StoredOrder Numbers)),
      Follows (fun cursor docs page => findMine user filter cursor docs = .ok page) none snapshots
        pages none →
      (∀ docs ∈ snapshots.head?, (docs.map fun o => o.id).Nodup) →
      snapshots.IsChain (Relation.ReflTransGen OrderCommit) →
      ∀ v, (∀ docs ∈ snapshots, ∃ o ∈ docs, orderMatches user filter o = true ∧ o.id = v) →
        (times (fun o : StoredOrder => o.id) v (pages.flatMap fun page => page.items) = 1 ↔
          (fetches (orderMatches user filter) snapshots pages).IsChain fun f g =>
            ¬ Skipped ORDER_LIST_SORT_KEYS StoredOrder.position (fun o => o.id) v f g)) ∧
    ∀ (filter : InvoiceListFilter) (snapshots : List (List InvoiceRow))
        (pages : List (PaginatedResponse InvoiceRow Numbers)),
      Follows (fun cursor docs page => findInvoicesForUser user filter cursor docs = .ok page) none
        snapshots pages none →
      (∀ docs ∈ snapshots.head?, (docs.map fun x => x.id).Nodup) →
      snapshots.IsChain (Relation.ReflTransGen InvoiceCommit) →
      ∀ v, (∀ docs ∈ snapshots, ∃ x ∈ docs, invoiceMatches user filter x = true ∧ x.id = v) →
        (times (fun x : InvoiceRow => x.id) v (pages.flatMap fun page => page.items) = 1 ↔
          (fetches (invoiceMatches user filter) snapshots pages).IsChain fun f g =>
            ¬ Revisited INVOICE_SORT_KEYS InvoiceRow.position (fun x => x.id) v f g) :=
  ⟨fun _ _ _ hwalk hids hrun _ hv => order_listed_once_iff hwalk hids hrun hv,
    fun _ _ _ hwalk hids hrun _ hv => invoice_listed_once_iff hwalk hids hrun hv⟩

/-! ### A client with more than a page of records -/

def pagingClient : SessionUser where
  userId := 20
  role := .client
  companyId := some 10

def listedOrder (i : ℕ) : StoredOrder where
  id := i
  fuelCompanyId := 10
  clientId := 20
  fuelType := .diesel
  quantityLiters := 1000
  deliveryLocation := ⟨46, 24⟩
  estimatedPrice := 500
  createdAt := i
  updatedAt := i

def listedInvoice (i : ℕ) : InvoiceRow where
  id := i
  orderId := i
  fuelCompanyId := 10
  clientId := 20
  transportCompanyId := none
  amount := 500
  priceBreakdown := none
  method := .credit
  state := .issued
  payerRole := .client
  createdAt := i

theorem except_toOption_eq_some {ε α : Type} {x : Except ε α} {a : α} (h : x.toOption = some a) :
    x = .ok a := by
  cases x with
  | error e => cases h
  | ok b =>
      cases h
      rfl

/-- The pages of a walk of which a test holds. -/
theorem exists_follows_of_follow {δ : Type}
    {fetch : Option (Position Numbers) → List δ → Except String (PaginatedResponse δ Numbers)}
    {snapshots : List (List δ)} {n : ℕ} {ident : δ → Id} {v : Id}
    (h : (follow (fun cursor docs => (fetch cursor docs).toOption) none snapshots).map
      (fun r => (times ident v (r.1.flatMap fun page => page.items), r.2.isNone)) = some (n, true)) :
    ∃ pages, Follows (fun cursor docs page => fetch cursor docs = .ok page) none snapshots pages
      none ∧ times ident v (pages.flatMap fun page => page.items) = n := by
  obtain ⟨⟨pages, last⟩, hpages, heq⟩ := Option.map_eq_some_iff.mp h
  injection heq with htimes hnone
  obtain rfl := Option.isNone_iff_eq_none.mp hnone
  exact ⟨pages, (follow_spec hpages).mono fun _ _ _ => except_toOption_eq_some, htimes⟩

/-- Orders 1 to 22, newest last. -/
def listedOrders : List StoredOrder := (List.range 22).map fun i => listedOrder (i + 1)

/-- The same after an order was approved at 100. -/
def approvedOrders (id : Id) : List StoredOrder :=
  listedOrders.map fun o =>
    if o.id = id then
      { o with
        toOrder := o.toOrder.transitioned
          (historyEntry .pendingApproval .approved ⟨21, .fuelCompanyAdmin⟩ {} 100) {}
        updatedAt := 100 }
    else o

theorem approvedOrders_commit {i : ℕ} (hrow : listedOrder i ∈ listedOrders) (hi : i ≤ 100) :
    OrderCommit listedOrders (approvedOrders i) :=
  .transition hrow rfl hi

/-- Invoices 1 to 21, newest last. -/
def listedInvoices : List InvoiceRow := (List.range 21).map fun i => listedInvoice (i + 1)

/-- The same after an invoice was settled at 100. -/
def settledInvoices (id : Id) : List InvoiceRow :=
  listedInvoices.map fun x =>
    if x.id = id then
      { x with
        state := .settled
        settledAt := some 100 }
    else x

theorem settledInvoices_commit {i : ℕ} (hrow : listedInvoice i ∈ listedInvoices) :
    InvoiceCommit listedInvoices (settledInvoices i) :=
  @InvoiceCommit.settled listedInvoices (listedInvoice i) 100 none hrow rfl

/-- The newest order is approved and the oldest invoice settled while the client holds the first
page: each is returned once. -/
theorem lists_complete_iff_client :
    (∃ pages, Follows (fun cursor docs page => findMine pagingClient {} cursor docs = .ok page) none
        [listedOrders, approvedOrders 22] pages none ∧
      times (fun o : StoredOrder => o.id) 22 (pages.flatMap fun page => page.items) = 1 ∧
      (fetches (orderMatches pagingClient {}) [listedOrders, approvedOrders 22] pages).IsChain
        fun f g => ¬ Skipped ORDER_LIST_SORT_KEYS StoredOrder.position (fun o => o.id) 22 f g) ∧
    ∃ pages, Follows
        (fun cursor docs page => findInvoicesForUser pagingClient {} cursor docs = .ok page) none
        [listedInvoices, settledInvoices 1] pages none ∧
      times (fun x : InvoiceRow => x.id) 1 (pages.flatMap fun page => page.items) = 1 ∧
      (fetches (invoiceMatches pagingClient {}) [listedInvoices, settledInvoices 1] pages).IsChain
        fun f g => ¬ Revisited INVOICE_SORT_KEYS InvoiceRow.position (fun x => x.id) 1 f g := by
  constructor
  · have hfollow : ∃ pages, Follows
        (fun cursor docs page => findMine pagingClient {} cursor docs = .ok page) none
        [listedOrders, approvedOrders 22] pages none ∧
        times (fun o : StoredOrder => o.id) 22 (pages.flatMap fun page => page.items) = 1 :=
      exists_follows_of_follow (by decide +kernel)
    obtain ⟨pages, hpages, htimes⟩ := hfollow
    have hcommit := approvedOrders_commit (i := 22) (by decide +kernel) (by decide)
    have hlisted := (lists_complete_iff pagingClient).1 {} _ pages hpages (by decide +kernel)
      (List.isChain_pair.mpr (.single hcommit)) 22 (by decide +kernel)
    exact ⟨pages, hpages, htimes, hlisted.mp htimes⟩
  · have hfollow : ∃ pages, Follows
        (fun cursor docs page => findInvoicesForUser pagingClient {} cursor docs = .ok page) none
        [listedInvoices, settledInvoices 1] pages none ∧
        times (fun x : InvoiceRow => x.id) 1 (pages.flatMap fun page => page.items) = 1 :=
      exists_follows_of_follow (by decide +kernel)
    obtain ⟨pages, hpages, htimes⟩ := hfollow
    have hcommit := settledInvoices_commit (i := 1) (by decide +kernel)
    have hlisted := (lists_complete_iff pagingClient).2 {} _ pages hpages (by decide +kernel)
      (List.isChain_pair.mpr (.single hcommit)) 1 (by decide +kernel)
    exact ⟨pages, hpages, htimes, hlisted.mp htimes⟩

/-- The last order is approved while the client holds the first page: it moves to the
front and is never returned. The first invoice is settled then: it moves to the end
and is returned again. -/
theorem order_skipped_invoice_repeated :
    (listedOrders.map fun o => o.id).Nodup ∧ OrderCommit listedOrders (approvedOrders 1) ∧
    (∀ docs ∈ [listedOrders, approvedOrders 1],
      ∃ o ∈ docs, orderMatches pagingClient {} o = true ∧ o.id = 1) ∧
    (∃ pages, Follows (fun cursor docs page => findMine pagingClient {} cursor docs = .ok page) none
      [listedOrders, approvedOrders 1] pages none ∧
      times (fun o : StoredOrder => o.id) 1 (pages.flatMap fun page => page.items) = 0) ∧
    (listedInvoices.map fun x => x.id).Nodup ∧ InvoiceCommit listedInvoices (settledInvoices 21) ∧
    (∀ docs ∈ [listedInvoices, settledInvoices 21],
      ∃ x ∈ docs, invoiceMatches pagingClient {} x = true ∧ x.id = 21) ∧
    ∃ pages, Follows
      (fun cursor docs page => findInvoicesForUser pagingClient {} cursor docs = .ok page) none
      [listedInvoices, settledInvoices 21] pages none ∧
      times (fun x : InvoiceRow => x.id) 21 (pages.flatMap fun page => page.items) = 2 := by
  exact ⟨by decide +kernel, approvedOrders_commit (by decide +kernel) (by decide),
    by decide +kernel, exists_follows_of_follow (by decide +kernel), by decide +kernel,
    settledInvoices_commit (by decide +kernel), by decide +kernel,
    exists_follows_of_follow (by decide +kernel)⟩

end CiroFuel
