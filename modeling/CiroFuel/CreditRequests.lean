import CiroFuel.Schemas
import CiroFuel.Snapshot.Single
import CiroFuel.Snapshot.Refusals
import CiroFuel.Snapshot.History

/-!
# Requests for a higher credit limit

A client asks for a higher limit, and has one request pending at most: that is checked, and
then the request is inserted. An administrator resolves it in a transaction that turns the
request, if it is still pending, and writes the limit it grants. What is inserted between a
check and the insertion after it is not seen by either.
-/
namespace CiroFuel.CreditRequests
open Snapshot

inductive State where
  | pending | accepted | rejected
deriving DecidableEq

structure CreditLimitRequest where
  companyId : Id
  clientId : Id
  requestedAmount : ℚ
  state : State := .pending
  grantedAmount : Option ℚ := none
  resolvedBy : Option Id := none
  resolvedAt : Option Instant := none
  createdAt : Instant
deriving DecidableEq

/-- What a client's account says of the credit. -/
structure Client where
  creditLimit : Option ℚ := none
deriving DecidableEq

inductive Key where
  | request (id : Id)
  | user (id : Id)
deriving DecidableEq

@[reducible] def Doc : Key → Type
  | .request _ => CreditLimitRequest
  | .user _ => Client

/-- No index of these collections is unique. -/
instance : Indexed Doc Id where
  entries _ _ := []

inductive HttpError where
  | alreadyPending
  | alreadyResolved
  | requestNotFound
  | userNotFound
  | validation (path : String)
deriving DecidableEq

/-- What a resolution writes. -/
structure Resolution where
  accept : Bool
  grantedAmount : ℚ
  resolvedBy : Id
  resolvedAt : Instant
deriving DecidableEq

def Resolution.set (res : Resolution) (r : CreditLimitRequest) : CreditLimitRequest :=
  { r with
    state := if res.accept then .accepted else .rejected
    grantedAmount := if res.accept then some res.grantedAmount else r.grantedAmount
    resolvedBy := some res.resolvedBy
    resolvedAt := some res.resolvedAt }

abbrev Action := Tx Doc HttpError

def setCreditLimit (id : Id) (creditLimit : ℚ) : Action Client := do
  match ← Tx.findOneAndUpdate (Key.user id) (fun _ => true)
      fun user : Client => { user with creditLimit := some creditLimit } with
  | some user => return user
  | none => Tx.throw .userNotFound

/-! ### Calls -/

/-- The insertion of a request comes with the client's requests that its check has read. -/
inductive Call where
  | create (clientId companyId : Id) (requestedAmount : ℚ) (seen : List Id)
  | resolve (id : Id) (res : Resolution)
  | setCreditLimit (id : Id) (creditLimit : ℚ)

namespace Call

@[reducible] def Reply : Call → Type
  | .create .. => CreditLimitRequest
  | .resolve .. => CreditLimitRequest
  | .setCreditLimit .. => Client

def body : (c : Call) → Action c.Reply
  | .create clientId companyId requestedAmount _ => do
      if requestedAmount < 0.01 then Tx.throw (.validation "requestedAmount")
      else do
        let id ← Tx.freshId
        let createdAt ← Tx.getTime
        let r : CreditLimitRequest := { companyId, clientId, requestedAmount, createdAt }
        Tx.insert (Key.request id) r
        return r
  | .resolve id res => do
      match ← Tx.findOneAndUpdate (Key.request id)
          (fun r : CreditLimitRequest => r.state = .pending) res.set with
      | none => Tx.throw .alreadyResolved
      | some resolved =>
          if res.accept then do
            let _ ← CreditRequests.setCreditLimit resolved.clientId (resolved.grantedAmount.getD 0)
            return resolved
          else return resolved
  | .setCreditLimit id creditLimit => CreditRequests.setCreditLimit id creditLimit

end Call

/-! ### Handlers -/

abbrev Handler := Prog Doc Call.Reply HttpError

abbrev perform (l : Call) : Handler l.Reply := Prog.perform l

/-- The requests of a client. -/
def requestsOf (docs : Docs Doc) (clientId : Id) : List (Id × CreditLimitRequest) :=
  docs.entries.filterMap fun e =>
    match e with
    | ⟨.request id, r⟩ => if r.clientId = clientId then some (id, r) else none
    | _ => none

def create (clientId companyId : Id) (requestedAmount : ℚ) : Handler CreditLimitRequest := do
  let own := requestsOf (← Prog.scan) clientId
  if own.any fun e => e.2.state = .pending then Prog.throw .alreadyPending
  else perform (.create clientId companyId requestedAmount (own.map Prod.fst))

def resolve (id resolvedBy : Id) (accept : Bool) (grantedAmount : Option ℚ) :
    Handler CreditLimitRequest := do
  let found : Option CreditLimitRequest ← Prog.find (Key.request id)
  match found with
  | none => Prog.throw .requestNotFound
  | some request => do
      let resolvedAt ← Prog.getTime
      perform (.resolve id
        { accept, grantedAmount := grantedAmount.getD request.requestedAmount, resolvedBy,
          resolvedAt })

inductive Request where
  | create (clientId companyId : Id) (requestedAmount : ℚ)
  | resolve (id resolvedBy : Id) (accept : Bool) (grantedAmount : Option ℚ)
  | setCreditLimit (id : Id) (creditLimit : ℚ)

inductive Answer where
  | request (r : CreditLimitRequest)
  | user (u : Client)

def handle : Request → Handler Answer
  | .create clientId companyId requestedAmount => do
      let r ← create clientId companyId requestedAmount
      return .request r
  | .resolve id resolvedBy accept grantedAmount => do
      let r ← resolve id resolvedBy accept grantedAmount
      return .request r
  | .setCreditLimit id creditLimit => do
      let u ← perform (.setCreditLimit id creditLimit)
      return .user u

/-- Only a resolution is a transaction. -/
def machine : Machine Doc Call.Reply HttpError Request Answer where
  body := Call.body
  isolated
    | .resolve .. => true
    | _ => false
  handle := handle
  admits _ _ _ := true

/-! ### Requests and limits -/

def request (s : Store Doc) (id : Id) : Option CreditLimitRequest := s.find (Key.request id)

def user (s : Store Doc) (id : Id) : Option Client := s.find (Key.user id)

/-- A client has one pending request at most. -/
def OnePending (s : Store Doc) : Prop :=
  ∀ id id' r r', request s id = some r → request s id' = some r' → r.clientId = r'.clientId →
    r.state = .pending → r'.state = .pending → id = id'

/-- The insertion of a request: those of the client that its check has not read are resolved. -/
def UpToDate (ev : Event Doc Call.Reply) : Prop :=
  ∀ clientId companyId requestedAmount seen,
    ev.label = .create clientId companyId requestedAmount seen →
      ∀ id r, request ev.before id = some r → r.clientId = clientId → id ∉ seen → r.state ≠ .pending

/-- The commit resolves the request. -/
def resolves (id : Id) (ev : Event Doc Call.Reply) : Bool :=
  match ev.label with
  | .resolve id' _ => id' = id
  | _ => false

/-- A resolution turns its request, and writes the limit of the client if it accepts. -/
structure Coupled (s s' : Store Doc) (id : Id) (res : Resolution) : Prop where
  turned : ∃ r, request s id = some r ∧ r.state = .pending ∧ request s' id = some (res.set r) ∧
    (res.accept = true → ∃ u, user s r.clientId = some u) ∧
    ∀ id', user s' id' = if res.accept ∧ id' = r.clientId then
      some { creditLimit := (res.set r).grantedAmount } else user s id'
  others : ∀ id', id' ≠ id → request s' id' = request s id'

/-- What a commit does. -/
inductive CallStep (s s' : Store Doc) : Call → Prop where
  | created {clientId companyId id : Id} {requestedAmount : ℚ} {seen : List Id}
      {createdAt : Instant} (hnew : request s id = none)
      (h : Store.Puts s s' (Key.request id)
        { companyId, clientId, requestedAmount, createdAt : CreditLimitRequest }) :
      CallStep s s' (.create clientId companyId requestedAmount seen)
  | resolved {id : Id} {res : Resolution} (h : Coupled s s' id res) :
      CallStep s s' (.resolve id res)
  | limited {id : Id} {creditLimit : ℚ} (h : ∀ id, request s' id = request s id) :
      CallStep s s' (.setCreditLimit id creditLimit)

section steps
variable {env : Env} {s s' : Store Doc}

/-- A request that has been resolved is not pending. -/
theorem set_state (res : Resolution) (r : CreditLimitRequest) : (res.set r).state ≠ .pending := by
  cases h : res.accept <;> simp [Resolution.set, h]

theorem setCreditLimit_ok {id : Id} {creditLimit : ℚ} {v w : View Doc} {u : Client}
    (h : (setCreditLimit id creditLimit).run env v = .ok (u, w)) :
    (∃ u₀, v.find (Key.user id) = some u₀) ∧
      w = v.put (Key.user id) ({ creditLimit := some creditLimit } : Client) := by
  obtain ⟨r, w', hupdate, h⟩ := Tx.bind_ok h
  rcases Tx.findOneAndUpdate_ok hupdate with ⟨u₀, hu₀, -, -, rfl, rfl⟩ | ⟨rfl, -, -⟩
  · obtain ⟨-, rfl⟩ := Tx.pure_ok h
    exact ⟨⟨u₀, hu₀⟩, rfl⟩
  · exact (Tx.throw_ok h).elim

theorem resolve_ok {id : Id} {res : Resolution} {reply : CreditLimitRequest} {view : View Doc}
    (h : (Call.body (.resolve id res)).run env (View.start s.docs) = .ok (reply, view)) :
    ∃ r, request s id = some r ∧ r.state = .pending ∧
      view.find (Key.request id) = some (res.set r) ∧
      (∀ id', id' ≠ id → view.find (Key.request id') = request s id') ∧
      (res.accept = true → (∃ u, user s r.clientId = some u) ∧
        Key.user r.clientId ∈ view.writes) ∧
      ∀ id', view.find (Key.user id') = if res.accept ∧ id' = r.clientId then
        some { creditLimit := some res.grantedAmount } else user s id' := by
  obtain ⟨found, v, hupdate, h⟩ := Tx.bind_ok h
  rcases Tx.findOneAndUpdate_ok hupdate with ⟨r, hr, hpending, -, rfl, rfl⟩ | ⟨rfl, -, -⟩
  · have hr' : request s id = some r := hr
    have helsewhere : ∀ id', id' ≠ id → View.find ((View.start s.docs).put (Key.request id)
        (res.set r)) (Key.request id') = request s id' := fun id' hid =>
      View.find_put_ne _ _ (by simpa using hid)
    have huser : ∀ id', View.find ((View.start s.docs).put (Key.request id) (res.set r))
        (Key.user id') = user s id' := fun id' => View.find_put_ne _ _ (by simp)
    dsimp only at h
    split_ifs at h with haccept
    · obtain ⟨u, w, hlimit, h⟩ := Tx.bind_ok h
      obtain ⟨rfl, rfl⟩ := Tx.pure_ok h
      obtain ⟨⟨u₀, hu₀⟩, rfl⟩ := setCreditLimit_ok hlimit
      have hgranted : (res.set r).grantedAmount.getD 0 = res.grantedAmount := by
        simp [Resolution.set, haccept]
      refine ⟨r, hr', of_decide_eq_true hpending, ?_, fun id' hid => ?_, fun _ => ?_, fun id' => ?_⟩
      · rw [View.find_put_ne _ _ (by simp)]
        exact View.find_put_self _ _ _
      · rw [View.find_put_ne _ _ (by simp)]
        exact helsewhere id' hid
      · exact ⟨⟨u₀, (huser _).symm.trans hu₀⟩, View.mem_put_self _ _ _⟩
      · by_cases hid : id' = r.clientId
        · subst hid
          rw [if_pos ⟨haccept, rfl⟩, ← hgranted]
          exact View.find_put_self _ _ _
        · have hne : Key.user id' ≠ Key.user (res.set r).clientId := fun h => hid (Key.user.inj h)
          rw [if_neg fun h => hid h.2, View.find_put_ne _ _ hne]
          exact huser id'
    · obtain ⟨rfl, rfl⟩ := Tx.pure_ok h
      refine ⟨r, hr', of_decide_eq_true hpending, View.find_put_self _ _ _, helsewhere,
        fun h => absurd h haccept, fun id' => ?_⟩
      rw [if_neg fun h => haccept h.1]
      exact huser id'
  · exact (Tx.throw_ok h).elim

theorem call_step {ev : Event Doc Call.Reply} (hev : ev.Sound machine)
    (holder : Store.Older ev.base ev.before) : CallStep ev.before ev.after ev.label := by
  have hcurrent := hev.current
  have hputs := fun hiso id r => hev.puts hiso (k := Key.request id) (x := r)
  have hstored := fun hiso => (hev.stored hiso).2
  obtain ⟨i, label, base, env, began, ended, reply, view, before, after⟩ := ev
  have hran : (Call.body label).run env (View.start base.docs) = .ok (reply, view) := hev.ran
  dsimp only at hcurrent hputs hstored holder ⊢
  cases label with
  | create clientId companyId requestedAmount seen =>
      obtain rfl : base = before := hcurrent rfl
      rw [Call.body] at hran
      split_ifs at hran
      · exact (Tx.throw_ok hran).elim
      · obtain ⟨id, u, hid, h⟩ := Tx.bind_ok hran
        obtain ⟨-, rfl⟩ := Tx.freshId_ok hid
        obtain ⟨createdAt, u, ht, h⟩ := Tx.bind_ok h
        obtain ⟨-, rfl⟩ := Tx.getTime_ok ht
        obtain ⟨_, u, hinsert, h⟩ := Tx.bind_ok h
        obtain ⟨hnone, -, rfl⟩ := Tx.insert_ok hinsert
        obtain ⟨-, rfl⟩ := Tx.pure_ok h
        exact .created hnone (hputs rfl id _ fun _ => rfl)
  | resolve id res =>
      obtain ⟨r, hr, hpending, hturned, hothers, haccept, husers⟩ := resolve_ok hran
      have hnew : view.find (Key.request id) ≠ base.find (Key.request id) := by
        intro heq
        have hsame : res.set r = r := Option.some.inj (hturned.symm.trans (heq.trans hr))
        exact set_state res r (hsame ▸ hpending)
      obtain ⟨hbase, hafter⟩ := hev.written holder hnew
      refine .resolved ⟨⟨r, hbase.symm.trans hr, hpending, hafter.trans hturned, fun h => ?_,
        fun id' => ?_⟩, fun id' hid => hev.unwritten holder (hothers id' hid)⟩
      · obtain ⟨⟨u, hu⟩, hwritten⟩ := haccept h
        exact ⟨u, (hev.wrote holder hwritten).1.symm.trans hu⟩
      · split_ifs with hgranted
        · obtain ⟨h, rfl⟩ := hgranted
          have hview := husers r.clientId
          rw [if_pos ⟨h, rfl⟩] at hview
          have hlimit := (hev.wrote holder (haccept h).2).2.trans hview
          have hset : (res.set r).grantedAmount = some res.grantedAmount := by
            simp [Resolution.set, h]
          rw [hset]
          exact hlimit
        · have hview := husers id'
          rw [if_neg hgranted] at hview
          exact hev.unwritten holder hview
  | setCreditLimit id creditLimit =>
      obtain rfl : base = before := hcurrent rfl
      obtain ⟨-, rfl⟩ := setCreditLimit_ok hran
      refine .limited fun id' => ?_
      change after.find (Key.request id') = base.find (Key.request id')
      rw [hstored rfl, View.find_put_ne _ _ (by simp)]
      rfl

end steps

/-! ### What a check has read -/

/-- The request has been resolved. -/
def Settled (s : Store Doc) (id : Id) : Prop := ∃ r, request s id = some r ∧ r.state ≠ .pending

/-- All requests that the check before an insertion has read are resolved. -/
def Call.Ready (c : Call) (s : Store Doc) : Prop :=
  ∀ clientId companyId requestedAmount seen,
    c = .create clientId companyId requestedAmount seen → ∀ id ∈ seen, Settled s id

section ready
variable {s s' : Store Doc} {c : Call} {n : ℕ}

theorem CallStep.settled (h : CallStep s s' c) {id : Id} (hsettled : Settled s id) :
    Settled s' id := by
  obtain ⟨r, hr, hstate⟩ := hsettled
  cases h with
  | @created _ _ k _ _ _ hnew hputs =>
      have hid : id ≠ k := by
        rintro rfl
        cases hnew.symm.trans hr
      exact ⟨r, (hputs.elsewhere _ (by simpa using hid)).trans hr, hstate⟩
  | @resolved k res h =>
      by_cases hid : id = k
      · subst hid
        obtain ⟨r', -, -, hturned, -⟩ := h.turned
        exact ⟨_, hturned, set_state res r'⟩
      · exact ⟨r, (h.others id hid).trans hr, hstate⟩
  | limited h => exact ⟨r, (h id).trans hr, hstate⟩

def checked : Discipline Doc Call.Reply where
  inv _ := True
  rely s s' := ∀ id, Settled s id → Settled s' id
  pre c s _ := c.Ready s

theorem checked_coherent : checked.Coherent where
  refl _ _ h := h
  trans hab hbc id h := hbc id (hab id h)
  stable hready hrely _ clientId companyId requestedAmount seen hc id hid :=
    hrely id (hready clientId companyId requestedAmount seen hc id hid)

/-- Any call but an insertion. -/
def Call.Plain (c : Call) : Prop := ∀ s, c.Ready s

theorem resolve_plain (id : Id) (res : Resolution) : (Call.resolve id res).Plain :=
  fun _ _ _ _ _ h => by cases h

theorem setCreditLimit_plain (id : Id) (creditLimit : ℚ) :
    (Call.setCreditLimit id creditLimit).Plain := fun _ _ _ _ _ h => by cases h

theorem safe_plain {α : Type} {p : Handler α} (h : p.Calls Call.Plain) : checked.Harmless p s n :=
  Discipline.safe_calls (fun _ hl s _ => hl s) h

theorem mem_requestsOf {docs : Docs Doc} {clientId id : Id} {r : CreditLimitRequest} :
    (id, r) ∈ requestsOf docs clientId ↔
      docs.lookup (Key.request id) = some r ∧ r.clientId = clientId := by
  constructor
  · intro h
    obtain ⟨⟨k, x⟩, he, hpick⟩ := List.mem_filterMap.mp h
    cases k with
    | user id' => cases hpick
    | request id' =>
        obtain ⟨hclient, hpair⟩ := Option.ite_none_right_eq_some.mp hpick
        cases hpair
        exact ⟨AList.mem_lookup_iff.mpr he, hclient⟩
  · rintro ⟨hr, hclient⟩
    exact List.mem_filterMap.mpr ⟨⟨Key.request id, r⟩, AList.mem_lookup_iff.mp hr, if_pos hclient⟩

theorem create_safe (clientId companyId : Id) (requestedAmount : ℚ) :
    checked.Harmless (create clientId companyId requestedAmount) s n := by
  apply Discipline.safe_scan
  intro s₁ n₁ _
  dsimp only
  split_ifs with hany
  · trivial
  · refine ⟨?_, fun r s₂ n₂ _ _ => by cases r <;> trivial⟩
    intro s₂ n₂ h₂ clientId' companyId' requestedAmount' seen hcall id hid
    cases hcall
    obtain ⟨⟨id, r⟩, hmem, rfl⟩ := List.mem_map.mp hid
    refine h₂.rely id ⟨r, (mem_requestsOf.mp hmem).1, fun hpending => hany ?_⟩
    exact List.any_eq_true.mpr ⟨_, hmem, decide_eq_true hpending⟩

theorem handle_safe (q : Request) : checked.Harmless (handle q) s n := by
  cases q with
  | create clientId companyId requestedAmount =>
      apply Discipline.Safe.bind checked_coherent trivial (create_safe _ _ _)
      intro r s' n' _ _
      trivial
  | resolve id resolvedBy accept grantedAmount =>
      apply safe_plain
      refine Prog.Calls.bind ?_ fun _ => trivial
      refine (Prog.calls_find _).bind fun found => ?_
      cases found with
      | none => trivial
      | some r => exact Prog.calls_getTime.bind fun _ => Prog.calls_perform (resolve_plain _ _)
  | setCreditLimit id creditLimit =>
      exact safe_plain ((Prog.calls_perform (setCreditLimit_plain _ _)).bind fun _ => trivial)

end ready

/-! ### Runs -/

section run
variable {P : Event Doc Call.Reply → Prop} {init : Store Doc}
variable {log : List (Event Doc Call.Reply)} {s : Sys Doc Call.Reply HttpError Answer}

theorem run_steps (h : Run machine init P log s) :
    Run machine init (fun ev => P ev ∧ ev.label.Ready ev.before ∧
      CallStep ev.before ev.after ev.label) log s := by
  have hlawful : checked.Lawful machine fun ev => P ev ∧ Store.Older ev.base ev.before :=
    { refl := checked_coherent.refl
      trans := checked_coherent.trans
      stable := checked_coherent.stable
      handlers := fun q _ _ _ _ => handle_safe q
      keep := fun ev hev hP _ _ _ _ _ =>
        ⟨trivial, fun _ => (call_step hev hP.2).settled, trivial⟩ }
  obtain ⟨-, hrun⟩ := hlawful.sound trivial h.snapshots
  apply hrun.weaken
  intro ev hev hholds
  obtain ⟨⟨hP, holder⟩, hdiscipline⟩ := hholds
  refine ⟨hP, ?_, call_step hev holder⟩
  exact checked_coherent.stable (c := 0) hdiscipline.pre hdiscipline.base_before trivial

/-- Nothing of the client is pending when a request is inserted. -/
theorem none_pending {ev : Event Doc Call.Reply} {clientId companyId : Id} {requestedAmount : ℚ}
    {seen : List Id} {id : Id} {r : CreditLimitRequest} (hready : ev.label.Ready ev.before)
    (hdate : UpToDate ev) (hlabel : ev.label = .create clientId companyId requestedAmount seen)
    (hr : request ev.before id = some r) (hclient : r.clientId = clientId) :
    r.state ≠ .pending := by
  by_cases hid : id ∈ seen
  · obtain ⟨r', hr', hstate⟩ := hready _ _ _ _ hlabel id hid
    cases hr.symm.trans hr'
    exact hstate
  · exact hdate _ _ _ _ hlabel id r hr hclient hid

theorem CallStep.onePending {s s' : Store Doc} {c : Call} (h : CallStep s s' c) (hs : OnePending s)
    (hnone : ∀ clientId companyId requestedAmount seen,
      c = .create clientId companyId requestedAmount seen → ∀ id r, request s id = some r →
        r.clientId = clientId → r.state ≠ .pending) : OnePending s' := by
  intro id id' r r' hr hr' hclient hstate hstate'
  cases h with
  | @created clientId companyId k requestedAmount seen createdAt hnew hputs =>
      have hfree := hnone _ _ _ _ rfl
      by_cases hid : id = k
      · by_cases hid' : id' = k
        · exact hid.trans hid'.symm
        · subst hid
          cases hr.symm.trans hputs.here
          have hold : request s id' = some r' :=
            (hputs.elsewhere _ (by simpa using hid')).symm.trans hr'
          exact absurd hstate' (hfree id' r' hold hclient.symm)
      · have hold : request s id = some r :=
          (hputs.elsewhere _ (by simpa using hid)).symm.trans hr
        by_cases hid' : id' = k
        · subst hid'
          cases hr'.symm.trans hputs.here
          exact absurd hstate (hfree id r hold hclient)
        · have hold' : request s id' = some r' :=
            (hputs.elsewhere _ (by simpa using hid')).symm.trans hr'
          exact hs id id' r r' hold hold' hclient hstate hstate'
  | @resolved k res h =>
      obtain ⟨x, -, -, hturned, -⟩ := h.turned
      have hold : ∀ {id r}, request s' id = some r → r.state = .pending →
          request s id = some r := by
        intro id r hr hstate
        have hid : id ≠ k := by
          rintro rfl
          cases hr.symm.trans hturned
          exact set_state res x hstate
        exact (h.others id hid).symm.trans hr
      exact hs id id' r r' (hold hr hstate) (hold hr' hstate') hclient hstate hstate'
  | limited h =>
      rw [h] at hr hr'
      exact hs id id' r r' hr hr' hclient hstate hstate'

/-- A request inserted beside a pending one of the client is one too many. -/
theorem CallStep.upToDate {ev : Event Doc Call.Reply} (h : CallStep ev.before ev.after ev.label)
    (hafter : OnePending ev.after) : UpToDate ev := by
  intro clientId companyId requestedAmount seen hlabel id r hr hclient _ hstate
  rw [hlabel] at h
  cases h with
  | @created _ _ k _ _ _ hnew hputs =>
      have hid : id ≠ k := by
        rintro rfl
        cases hnew.symm.trans hr
      have hkept : request ev.after id = some r :=
        (hputs.elsewhere _ (by simpa using hid)).trans hr
      exact hid (hafter id k r _ hkept hputs.here hclient hstate rfl)

/-- Each request is resolved once at most, and then it is not pending. -/
theorem resolved_once (h : Run machine init P log s) (id : Id) :
    log.countP (resolves id) ≤ 1 ∧ (0 < log.countP (resolves id) → Settled s.store id) := by
  refine (run_steps h).logged (J := fun log s => log.countP (resolves id) ≤ 1 ∧
    (0 < log.countP (resolves id) → Settled s id)) ?_ ?_
  · exact ⟨Nat.zero_le _, fun h => absurd h (Nat.lt_irrefl 0)⟩
  intro log ev hev hP hJ
  obtain ⟨-, -, hstep⟩ := hP
  rw [List.countP_cons]
  cases hresolves : resolves id ev with
  | false => exact ⟨hJ.1, fun hpos => hstep.settled (hJ.2 hpos)⟩
  | true =>
      obtain ⟨res, hlabel⟩ : ∃ res, ev.label = .resolve id res := by
        unfold resolves at hresolves
        split at hresolves
        · rename_i id' res hlabel
          exact ⟨res, of_decide_eq_true hresolves ▸ hlabel⟩
        · cases hresolves
      rw [hlabel] at hstep
      cases hstep with
      | resolved hcoupled =>
          obtain ⟨r, hr, hpending, hturned, -⟩ := hcoupled.turned
          have hzero : log.countP (resolves id) = 0 := by
            by_contra hne
            obtain ⟨r', hr', hstate⟩ := hJ.2 (Nat.pos_of_ne_zero hne)
            cases hr.symm.trans hr'
            exact hstate hpending
          rw [hzero]
          exact ⟨Nat.le_refl _, fun _ => ⟨_, hturned, set_state res r⟩⟩

theorem perform_throwsFirst (l : Call) : (perform l).ThrowsFirst := by
  constructor
  · intro a
    trivial
  · intro e
    trivial

theorem throwsFirst (q : Request) : (handle q).ThrowsFirst := by
  cases q with
  | create clientId companyId requestedAmount =>
      refine Prog.ThrowsFirst.bind (fun docs => ?_) fun _ => trivial
      change (ite _ _ _ : Handler CreditLimitRequest).ThrowsFirst
      split_ifs
      · trivial
      · exact perform_throwsFirst _
  | resolve id resolvedBy accept grantedAmount =>
      refine Prog.ThrowsFirst.bind ?_ fun _ => trivial
      refine Prog.ThrowsFirst.reads (Prog.calls_find _) fun found => ?_
      cases found with
      | none => trivial
      | some r => exact fun resolvedAt => perform_throwsFirst _
  | setCreditLimit id creditLimit =>
      exact (perform_throwsFirst _).bind fun _ => trivial

/-- A client has one pending request at most in all states exactly if every request that is
inserted between a check and its insertion is resolved by then. Each request is resolved
once at most, with the limit it grants and no other; and a call that throws changes nothing. -/
theorem one_pending_iff (hinit : OnePending init) (h : Run machine init P log s) :
    ((∀ later earlier, log = later ++ earlier → OnePending (leaves init earlier)) ↔
      ∀ ev ∈ log, UpToDate ev) ∧
    (∀ id, log.countP (resolves id) ≤ 1) ∧
    (∀ ev ∈ log, ∀ id res, ev.label = .resolve id res → Coupled ev.before ev.after id res) ∧
    (∀ (i : ℕ) (t : Thread Doc Call.Reply HttpError Answer) (e : HttpError),
      s.threads[i]? = some t → t.prog = .fail (.thrown e) → ∀ ev ∈ log, ev.thread ≠ i) := by
  refine ⟨⟨fun hone ev hev => ?_, fun hdate later earlier hlog => ?_⟩,
    fun id => (resolved_once h id).1, fun ev hev id res hlabel => ?_,
    fun i t e ht hthrown => h.thrown_uncommitted throwsFirst ht hthrown⟩
  · obtain ⟨later, earlier, hlog⟩ := List.append_of_mem hev
    apply ((run_steps h).mem hev).2.2.2.upToDate
    exact hone later (ev :: earlier) hlog
  · induction earlier generalizing later with
    | nil => exact hinit
    | cons ev earlier ih =>
        have hbefore : OnePending (leaves init earlier) := ih (later ++ [ev]) (by simpa using hlog)
        have hmem : ev ∈ log := by
          rw [hlog]
          simp
        obtain ⟨-, ⟨-, hready, hstep⟩, s', hrun, hstore⟩ := (run_steps (hlog ▸ h)).upTo
        rw [← hrun.leaves, hstore] at hbefore
        refine hstep.onePending hbefore fun _ _ _ _ hlabel id r hr hclient => ?_
        exact none_pending hready (hdate ev hmem) hlabel hr hclient
  · have hstep := ((run_steps h).mem hev).2.2.2
    rw [hlabel] at hstep
    cases hstep with
    | resolved hcoupled => exact hcoupled

end run

namespace Sample

def clients : Store Doc :=
  .load (AList.singleton (Key.user 20) { creditLimit := some 500 }) (by decide)

/-- A request is granted, and the client asks again. -/
def granted : List (Act Request) :=
  serving (Request.create 20 10 1000) 0 3 100 ++
    serving (Request.resolve 100 1 true (some 800)) 1 4 ++
    serving (Request.create 20 10 2000) 2 3 101

/-- The client asks twice at once; neither check has seen the other's request. -/
def twice : List (Act Request) :=
  [.arrive (Request.create 20 10 1000), .arrive (Request.create 20 10 1000), .step 0, .step 1,
    .step 0, .step 0 true 100, .step 1, .step 1 true 101]

theorem onePending_clients : OnePending clients := by
  intro id id' r r' hr
  have hmem : (⟨Key.request id, r⟩ : Sigma Doc) ∈ clients.docs.entries := AList.mem_lookup_iff.mp hr
  cases List.mem_singleton.mp hmem

end Sample

theorem one_pending_granted : ∃ log s, Run machine Sample.clients (fun _ => True) log s ∧
    user s.store 20 = some { creditLimit := some 800 } ∧
    ((∀ later earlier, log = later ++ earlier → OnePending (leaves Sample.clients earlier)) ↔
      ∀ ev ∈ log, UpToDate ev) ∧
    (∀ id, log.countP (resolves id) ≤ 1) ∧
    (∀ ev ∈ log, ∀ id res, ev.label = .resolve id res → Coupled ev.before ev.after id res) ∧
    (∀ (i : ℕ) (t : Thread Doc Call.Reply HttpError Answer) (e : HttpError),
      s.threads[i]? = some t → t.prog = .fail (.thrown e) → ∀ ev ∈ log, ev.thread ≠ i) := by
  obtain ⟨log, s, hrun, htest⟩ := exists_run machine Sample.clients (fun _ => True) Sample.granted
    (fun log s => log.length = 3 && user s.store 20 = some { creditLimit := some 800 })
    (by decide +kernel)
  obtain ⟨-, huser⟩ := Bool.and_eq_true_iff.mp htest
  exact ⟨log, s, hrun, of_decide_eq_true huser, one_pending_iff Sample.onePending_clients hrun⟩

/-- Two requests of one client are pending. -/
theorem two_pending : ¬ ∀ (log : List (Event Doc Call.Reply))
    (s : Sys Doc Call.Reply HttpError Answer),
    Run machine Sample.clients (fun _ => True) log s → OnePending s.store := by
  intro hall
  obtain ⟨log, s, hrun, htest⟩ := exists_run machine Sample.clients (fun _ => True) Sample.twice
    (fun _ s => [100, 101].all fun id => (request s.store id).any fun r =>
      r.clientId = 20 && r.state = .pending) (by decide +kernel)
  simp only [List.all_cons, List.all_nil, Bool.and_true, Bool.and_eq_true, Option.any_eq_true,
    decide_eq_true_eq] at htest
  obtain ⟨⟨r, hr, hclient, hstate⟩, r', hr', hclient', hstate'⟩ := htest
  have hsame := hall log s hrun 100 101 r r' hr hr' (hclient.trans hclient'.symm) hstate hstate'
  revert hsame
  decide

end CiroFuel.CreditRequests
