import CiroFuel.OrderState
import Mathlib.Data.List.Chain

/-!
# The audit chain of an order

Callers transition orders with whatever endpoints and options they like, inside
sessions or outside, and any number of them at once. The status guard and the
pushed entry are one write, so the history is a chain of edges that ends at the
current status, and the terminal statuses are never left.

The machine below has no other operation: each label is one call outside a
session, or the calls of one session.
-/
namespace CiroFuel
open Snapshot

/-- An order as it is created. -/
structure Order.Fresh (o : Order) : Prop where
  status : o.status = .pendingApproval
  history : o.statusHistory = []
  delivered : o.deliveredAt = none

/-- The history is a chain of permitted edges from creation to the current
status, and only delivery has an instant of delivery. -/
structure Order.Audited (o : Order) : Prop where
  starts : ∀ e ∈ o.statusHistory.head?, e.source = .pendingApproval
  chained : o.statusHistory.IsChain fun a b => a.target = b.source
  ends : ∀ e ∈ o.statusHistory.getLast?, e.target = o.status
  untouched : o.statusHistory = [] → o.status = .pendingApproval
  edges : ∀ e ∈ o.statusHistory, permits e.source e.target e.manualOverride = true
  delivered : o.deliveredAt.isSome = true ↔ o.status = .delivered

namespace Order

theorem Fresh.audited {o : Order} (h : o.Fresh) : o.Audited where
  starts := by simp [h.history]
  chained := by simp [h.history]
  ends := by simp [h.history]
  untouched := fun _ => h.status
  edges := by simp [h.history]
  delivered := by simp [h.delivered, h.status]

/-- A permitted edge does not leave the delivered status. -/
theorem source_ne_delivered {source target : OrderStatus} {override : Bool}
    (h : permits source target override = true) : source ≠ .delivered := by
  rintro rfl
  simp [permits, transitions] at h

theorem Audited.transitioned {o : Order} (h : o.Audited) {entry : StatusHistoryEntry}
    (options : TransitionOptions) (hsource : entry.source = o.status)
    (hedge : permits entry.source entry.target entry.manualOverride = true) :
    (o.transitioned entry options).Audited where
  starts := by
    rw [transitioned_statusHistory]
    cases hh : o.statusHistory with
    | nil => simpa [hsource] using h.untouched hh
    | cons e es =>
        have hstart := h.starts e (by simp [hh])
        simpa using hstart
  chained := by
    rw [transitioned_statusHistory]
    refine List.isChain_append.mpr ⟨h.chained, List.isChain_singleton _, ?_⟩
    intro e he e' he'
    cases he'
    rw [h.ends e he, hsource]
  ends := by simp
  untouched := by simp
  edges := by
    intro e he
    rw [transitioned_statusHistory] at he
    rcases List.mem_append.mp he with hold | hnew
    · exact h.edges e hold
    · rw [List.mem_singleton.mp hnew]
      exact hedge
  delivered := by
    rw [transitioned_deliveredAt, transitioned_status]
    by_cases ht : entry.target = .delivered
    · simp [ht]
    · have hs : o.status ≠ .delivered := hsource ▸ source_ne_delivered hedge
      simpa [ht, hs] using h.delivered

/-- An entry of an audited history is an edge of the table. -/
theorem Audited.edge {o : Order} (h : o.Audited) {e : StatusHistoryEntry}
    (he : e ∈ o.statusHistory) : ∃ rule ∈ transitions e.source, rule.target = e.target := by
  have hedge := h.edges e he
  unfold permits at hedge
  split at hedge
  · rename_i rule hrule
    exact ⟨rule, List.mem_of_find?_eq_some hrule, by simpa using List.find?_some hrule⟩
  · cases hedge

theorem Audited.override {o : Order} (h : o.Audited) {e : StatusHistoryEntry}
    (he : e ∈ o.statusHistory) (hsource : e.source = .loading ∨ e.source = .inTransit)
    (htarget : e.target = .delivered) : e.manualOverride = true := by
  have hedge := h.edges e he
  rcases hsource with hs | hs <;> simpa [hs, htarget, permits, transitions] using hedge

theorem Audited.not_terminal {o : Order} (h : o.Audited) {e : StatusHistoryEntry}
    (he : e ∈ o.statusHistory) : e.source ∉ [.delivered, .rejected, .cancelled] := by
  obtain ⟨rule, hrule, -⟩ := h.edge he
  intro hterm
  simp only [List.mem_cons, List.not_mem_nil, or_false] at hterm
  rcases hterm with hs | hs | hs <;> simp [hs, transitions] at hrule

end Order

/-- Every order among the documents satisfies `P`. -/
def OrdersAll (P : Order → Prop) (d : Docs Doc) : Prop :=
  ∀ id o, d.lookup (Key.order id) = some o → P o

/-- If all orders satisfied `P` before, they do after. -/
def KeepsOrders (P : Order → Prop) (d d' : Docs Doc) : Prop := OrdersAll P d → OrdersAll P d'

instance (P : Order → Prop) : Std.Refl (KeepsOrders P) := ⟨fun _ h => h⟩

instance (P : Order → Prop) : IsTrans (Docs Doc) (KeepsOrders P) := ⟨fun _ _ _ h h' hd => h' (h hd)⟩

theorem transition_keeps_audited (id : Id) (source target : OrderStatus) (actor : TransitionActor)
    (options : TransitionOptions) :
    Tx.Obeys (KeepsOrders Order.Audited) (transition id source target actor options) := by
  intro env v r w h hall k o ho
  obtain ⟨o₀, entry, hfind, hstatus, hedge, rfl, -, rfl⟩ := transition_ok h
  by_cases hk : k = id
  · subst hk
    have hput := (View.find_put_self { v with readings := v.readings + 1 } (Key.order k)
      (o₀.transitioned _ options)).symm.trans ho
    cases hput
    exact (hall k o₀ hfind).transitioned options (by simp [hstatus]) (by simpa using hedge)
  · have hne : Key.order k ≠ Key.order id := fun e => hk (Key.order.inj e)
    exact hall k o ((View.find_put_ne _ _ hne).symm.trans ho)

/-- A transition that throws has written nothing. -/
theorem transition_failsClean (id : Id) (source target : OrderStatus) (actor : TransitionActor)
    (options : TransitionOptions) :
    Tx.FailsClean (transition id source target actor options) := by
  unfold transition
  split
  · exact Tx.FailsClean.throw _
  · split_ifs
    · exact Tx.FailsClean.throw _
    · exact Tx.FailsClean.throw _
    · refine Tx.FailsClean.bind Tx.FailsClean.getTime fun env v at_ u hu => Or.inl ⟨?_, ?_⟩
      · rw [(Tx.getTime_ok hu).2]
      refine Tx.FailsClean.bind (Tx.FailsClean.findOneAndUpdate _ _ _) fun env v updated u hu => ?_
      rcases Tx.findOneAndUpdate_ok hu with ⟨o, -, -, -, rfl, -⟩ | ⟨rfl, rfl, -⟩
      · exact Or.inr fun e h => by cases h
      · refine Or.inl ⟨rfl, Tx.FailsClean.bind (Tx.FailsClean.find _) ?_⟩
        intro env v existing u hu
        refine Or.inl ⟨by rw [(Tx.find_ok hu).2], ?_⟩
        cases existing <;> exact Tx.FailsClean.throw _

namespace AuditTrail

structure TransitionCall where
  orderId : Id
  source : OrderStatus
  target : OrderStatus
  actor : TransitionActor
  options : TransitionOptions := {}

def TransitionCall.body (c : TransitionCall) : Action OrderDocument :=
  transition c.orderId c.source c.target c.actor c.options

/-- One call outside a session, or all calls of one session. -/
inductive Label where
  | single (c : TransitionCall)
  | session (cs : List TransitionCall)

@[reducible] def Reply : Label → Type
  | .single _ => OrderDocument
  | .session _ => List OrderDocument

def sessionBody : List TransitionCall → Action (List OrderDocument)
  | [] => pure []
  | c :: cs => do
      let updated ← c.body
      let rest ← sessionBody cs
      pure (updated :: rest)

def body : (l : Label) → Action (Reply l)
  | .single c => c.body
  | .session cs => sessionBody cs

/-- A caller makes its calls one after another, whatever becomes of them. -/
def caller : List Label → Prog Doc Reply Refusal Unit
  | [] => pure ()
  | l :: ls => do
      let _ ← Prog.attempt l
      caller ls

def machine : Machine Doc Reply Refusal (List Label) Unit where
  body := body
  isolated
    | .single _ => false
    | .session _ => true
  handle := caller
  admits _ _ _ := true

theorem body_keeps_audited (l : Label) :
    Tx.Obeys (KeepsOrders Order.Audited) (body l) := by
  cases l with
  | single c => exact transition_keeps_audited _ _ _ _ _
  | session cs =>
      change Tx.Obeys _ (sessionBody cs)
      induction cs with
      | nil => exact Tx.Obeys.pure _
      | cons c cs ih =>
          refine Tx.Obeys.bind (transition_keeps_audited _ _ _ _ _) fun updated => ?_
          exact Tx.Obeys.bind ih fun rest => Tx.Obeys.pure _

/-- What one commit preserves. -/
theorem commit_keeps_audited {ev : Event Doc Reply} (hev : ev.Sound machine)
    (hbase : OrdersAll Order.Audited ev.base.docs) (hbefore : OrdersAll Order.Audited ev.before.docs) :
    OrdersAll Order.Audited ev.after.docs := by
  intro id o ho
  have hview := body_keeps_audited ev.label ev.env _ _ _ hev.ran hbase
  have hover := Tx.run_over (View.over_start _) hev.ran
  by_cases hk : Key.order id ∈ ev.view.writes
  · have hfind : ev.view.find (Key.order id) = some o := by
      rw [hover.written _ hk, ← Store.commit_find_of_mem hev.committed hk]
      exact ho
    exact hview id o hfind
  · exact hbefore id o ((Store.commit_find_of_notMem hev.committed hk).symm.trans ho)

/-- Whatever calls are made in whatever interleaving, every order's history is a
chain of edges from creation to its status, overridden deliveries say so, only
delivered orders have a delivery instant, terminal statuses are never left, and
a call that throws has written nothing. -/
theorem audit_chain {init : Db} (hinit : ∀ id o, init.order id = some o → o.Fresh)
    {log : List (Event Doc Reply)} {s : Sys Doc Reply Refusal Unit}
    (h : Run machine init (fun _ => True) log s) :
    (∀ id o, s.store.order id = some o →
      (∀ e ∈ o.statusHistory.head?, e.source = .pendingApproval) ∧
      (o.statusHistory.IsChain fun a b => a.target = b.source) ∧
      (∀ e ∈ o.statusHistory.getLast?, e.target = o.status) ∧
      (o.statusHistory = [] → o.status = .pendingApproval) ∧
      (∀ e ∈ o.statusHistory, ∃ rule ∈ transitions e.source, rule.target = e.target) ∧
      (∀ e ∈ o.statusHistory, e.source = .loading ∨ e.source = .inTransit →
        e.target = .delivered → e.manualOverride = true) ∧
      (o.deliveredAt.isSome = true ↔ o.status = .delivered) ∧
      ∀ e ∈ o.statusHistory, e.source ∉ [.delivered, .rejected, .cancelled]) ∧
    ∀ (c : TransitionCall) (env : Env) (v : View Doc) (e : Failure Refusal),
      c.body.run env v = .error e → (c.body.reached env v).docs = v.docs := by
  have hstart : OrdersAll Order.Audited init.docs := fun id o ho => (hinit id o ho).audited
  obtain ⟨hall, -⟩ := h.invariant (fun s => OrdersAll Order.Audited s.docs) hstart
    fun ev hev _ hbase hbefore => commit_keeps_audited hev hbase hbefore
  refine ⟨fun id o ho => ?_, fun c => transition_failsClean _ _ _ _ _⟩
  have haud := hall id o ho
  exact ⟨haud.starts, haud.chained, haud.ends, haud.untouched, fun e he => haud.edge he,
    fun e he => haud.override he, haud.delivered, fun e he => haud.not_terminal he⟩

def newOrder : Order where
  fuelCompanyId := 10
  clientId := 20
  fuelType := .diesel
  quantityLiters := 1000
  deliveryLocation := ⟨0, 0⟩
  estimatedPrice := 500

/-- One order, as created. -/
def created : Db := Store.load ((∅ : Docs Doc).insert (Key.order 1) newOrder) (by decide)

theorem created_fresh (id : Id) (o : Order) (ho : created.order id = some o) : o.Fresh := by
  by_cases hid : id = 1
  · subst hid
    cases ho
    exact ⟨rfl, rfl, rfl⟩
  · have hkey : Key.order id ≠ Key.order 1 := fun e => hid (Key.order.inj e)
    have hnone : (∅ : Docs Doc).lookup (Key.order id) = some o :=
      (Docs.lookup_put_ne hkey).symm.trans ho
    cases hnone

/-- Approval, cancellation outside a session while a session tries to route, and
a repeated approval. -/
def racingCalls : List (Act (List Label)) :=
  [.arrive [.single ⟨1, .pendingApproval, .approved, ⟨7, .fuelCompanyAdmin⟩, {}⟩],
    .step 0, .step 0,
    .arrive [.session [⟨1, .approved, .routedToTransport, ⟨7, .fuelCompanyAdmin⟩, {}⟩,
      ⟨1, .routedToTransport, .pendingPayment, ⟨7, .fuelCompanyAdmin⟩, {}⟩]],
    .step 1,
    .arrive [.single ⟨1, .approved, .cancelled, ⟨20, .client⟩, {}⟩], .step 2, .tick 5, .step 2,
    -- The session conflicts, begins again and is refused.
    .step 1, .step 1]

theorem audit_chain_racingCalls :
    ∃ log s, Run machine created (fun _ => True) log s ∧
      (s.store.order 1).map (fun o => o.statusHistory.map (·.target)) =
        some [.approved, .cancelled] ∧
      ∀ id o, s.store.order id = some o → o.statusHistory.IsChain fun a b => a.target = b.source := by
  obtain ⟨log, s, hrun, htest⟩ := exists_run machine created (fun _ => True)
    racingCalls (fun _ s => (s.store.order 1).map (fun o => o.statusHistory.map (·.target)) =
      some [.approved, .cancelled]) (by decide +kernel)
  exact ⟨log, s, hrun, of_decide_eq_true htest,
    fun id o ho => ((audit_chain created_fresh hrun).1 id o ho).2.1⟩

end AuditTrail
end CiroFuel
