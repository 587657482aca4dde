import CiroFuel.LitreBalances
import CiroFuel.Snapshot.Totals
import CiroFuel.Snapshot.Refusals
import Mathlib.Tactic.FieldSimp
import Mathlib.Tactic.Ring
import Mathlib.Algebra.Order.Ring.Rat

/-!
# Ratings of drivers

A client rates the driver of a delivered order, once. The rating is inserted and the
driver's count and average are moved on by it in one transaction; that an order is rated
once is for the index alone to see to. The average is never computed from the ratings, and
is their mean all the same.
-/
namespace CiroFuel.Ratings
open Snapshot

structure DeliveryRating where
  orderId : Id
  driverId : Id
  clientId : Id
  fuelCompanyId : Id
  transportCompanyId : Id
  score : ℚ
  review : Option String := none
deriving DecidableEq

/-- What a driver's account says of the ratings. No average stands for no ratings. -/
structure Driver where
  ratingAverage : Option ℚ := none
  ratingCount : Option ℕ := some 0
deriving DecidableEq

inductive Key where
  | driver (id : Id)
  | rating (id : Id)
deriving DecidableEq

@[reducible] def Doc : Key → Type
  | .driver _ => Driver
  | .rating _ => DeliveryRating

/-- One rating for an order. -/
instance : Indexed Doc Id where
  entries
    | .rating _, (r : DeliveryRating) => [r.orderId]
    | .driver _, _ => []

inductive HttpError where
  | orderNotDelivered
  | alreadyRated
  | validation (path : String)
deriving DecidableEq

structure SubmitRatingInput where
  score : ℚ
  review : Option String := none
deriving DecidableEq

/-- The length that a text has in JavaScript. -/
def textLength (s : String) : ℕ := (s.toList.map fun c => if c.toNat < 0x10000 then 1 else 2).sum

/-- The rating as its schema takes it. -/
def validate (order : OrderDocument) (input : SubmitRatingInput) :
    Except String DeliveryRating := do
  let some driverId := order.driverId | throw "driverId"
  let some transportCompanyId := order.transportCompanyId | throw "transportCompanyId"
  if input.score < 1 ∨ 5 < input.score then throw "score"
  let review := input.review.map trim
  if review.any (500 < textLength ·) then throw "review"
  return { orderId := order.id, driverId, clientId := order.clientId,
           fuelCompanyId := order.fuelCompanyId, transportCompanyId, score := input.score, review }

/-- The driver with one more rating. -/
def Driver.rated (d : Driver) (score : ℚ) : Driver :=
  let priorCount := d.ratingCount.getD 0
  let newCount := priorCount + 1
  { ratingAverage := some ((d.ratingAverage.getD 0 * priorCount + score) / newCount)
    ratingCount := some newCount }

abbrev Action := Tx Doc HttpError

inductive Call where
  | submit (order : OrderDocument) (input : SubmitRatingInput)

namespace Call

@[reducible] def Reply : Call → Type
  | .submit .. => DeliveryRating

/-- The transaction of a rating. A driver that is gone has no aggregate to move. -/
def body : (c : Call) → Action c.Reply
  | .submit order input =>
      match validate order input with
      | .error path => Tx.throw (.validation path)
      | .ok rating => do
          let id ← Tx.freshId
          Tx.insert (Key.rating id) (rating : DeliveryRating)
          let driver : Option Driver ← Tx.find (Key.driver rating.driverId)
          match driver with
          | none => return rating
          | some driver => do
              let _ ← Tx.updateOne (Key.driver rating.driverId) (fun _ => true)
                fun _ => driver.rated rating.score
              return rating

end Call

abbrev Handler := Prog Doc Call.Reply HttpError

def submitRating (order : OrderDocument) (input : SubmitRatingInput) : Handler DeliveryRating := do
  if order.status ≠ .delivered then Prog.throw .orderNotDelivered
  else do
    match ← Prog.attempt (.submit order input) with
    | .ok rating => return rating
    | .error .duplicateKey => Prog.throw .alreadyRated
    | .error e => .fail e

structure Request where
  order : OrderDocument
  input : SubmitRatingInput

def machine : Machine Doc Call.Reply HttpError Request DeliveryRating where
  body := Call.body
  isolated _ := true
  handle q := submitRating q.order q.input
  admits _ _ _ := true

/-! ### What the ratings say -/

def driver (s : Store Doc) (id : Id) : Option Driver := s.find (Key.driver id)

def rating (s : Store Doc) (id : Id) : Option DeliveryRating := s.find (Key.rating id)

/-- The scores of the stored ratings of a driver. -/
def scores (docs : Docs Doc) (driverId : Id) : List ℚ :=
  docs.entries.filterMap fun e =>
    match e with
    | ⟨.rating _, r⟩ => if r.driverId = driverId then some r.score else none
    | _ => none

def mean : List ℚ → Option ℚ
  | [] => none
  | xs => some (xs.sum / xs.length)

/-- What the account says is so. -/
structure Driver.Agrees (d : Driver) (xs : List ℚ) : Prop where
  count : d.ratingCount.getD 0 = xs.length
  average : d.ratingAverage = mean xs

/-- The aggregates of all drivers are right. -/
def Consistent (s : Store Doc) : Prop :=
  ∀ id d, driver s id = some d → d.Agrees (scores s.docs id)

/-- No two ratings are of one order. -/
def RatedOnce (s : Store Doc) : Prop :=
  ∀ id id' r r', rating s id = some r → rating s id' = some r' → r.orderId = r'.orderId → id = id'

section scores
variable {docs docs' : Docs Doc} {driverId : Id}

/-- What one document adds to the number and the sum of a driver's scores. -/
def tally (driverId : Id) : (k : Key) → Doc k → ℕ × ℚ
  | .rating _, (r : DeliveryRating) => if r.driverId = driverId then (1, r.score) else 0
  | .driver _, _ => 0

theorem scores_tally (docs : Docs Doc) (driverId : Id) :
    ((scores docs driverId).length, (scores docs driverId).sum) = docs.total (tally driverId) := by
  unfold scores Docs.total
  induction docs.entries with
  | nil => rfl
  | cons e es ih =>
      obtain ⟨k, x⟩ := e
      rw [List.map_cons, List.sum_cons, ← ih]
      cases k with
      | driver id => simp [tally]
      | rating id =>
          change DeliveryRating at x
          by_cases hx : x.driverId = driverId
          · simp [tally, hx, Nat.add_comm]
          · simp [tally, hx]

theorem mean_eq (xs : List ℚ) :
    mean xs = if xs.length = 0 then none else some (xs.sum / xs.length) := by
  cases xs <;> simp [mean]

/-- Only the number and the sum of the scores matter. -/
theorem Driver.Agrees.congr {d : Driver} {xs ys : List ℚ} (h : d.Agrees xs)
    (hsame : (ys.length, ys.sum) = (xs.length, xs.sum)) : d.Agrees ys := by
  obtain ⟨hlength, hsum⟩ := Prod.mk.inj hsame
  refine ⟨h.count.trans hlength.symm, h.average.trans ?_⟩
  rw [mean_eq, mean_eq, hlength, hsum]

/-- The mean moves on as the ratings do. -/
theorem Driver.Agrees.rated {d : Driver} {xs ys : List ℚ} {score : ℚ} (h : d.Agrees xs)
    (hmore : (ys.length, ys.sum) = (xs.length + 1, xs.sum + score)) :
    (d.rated score).Agrees ys := by
  obtain ⟨hlength, hsum⟩ := Prod.mk.inj hmore
  have htotal : d.ratingAverage.getD 0 * (xs.length : ℚ) = xs.sum := by
    rw [h.average]
    cases xs with
    | nil => simp
    | cons x xs =>
        have hne : ((x :: xs).length : ℚ) ≠ 0 := Nat.cast_ne_zero.mpr (Nat.succ_ne_zero _)
        exact div_mul_cancel₀ _ hne
  constructor
  · change d.ratingCount.getD 0 + 1 = _
    rw [h.count, hlength]
  · change some ((_ * ((d.ratingCount.getD 0 : ℕ) : ℚ) + score) / ((_ + 1 : ℕ) : ℚ)) = _
    rw [h.count, htotal, mean_eq, hlength, hsum, if_neg (Nat.succ_ne_zero _)]

end scores

/-! ### Submissions -/

/-- A committed submission, on a store with the same drivers as its snapshot. -/
structure Submitted (s s' : Store Doc) (r : DeliveryRating) : Prop where
  inserted : ∃ id, rating s id = none ∧ rating s' id = some r ∧
    ∀ id', id' ≠ id → rating s' id' = rating s id'
  others : ∀ id, id ≠ r.driverId → driver s' id = driver s id
  moved : driver s' r.driverId = (driver s r.driverId).map fun d => d.rated r.score

theorem rated_ne (d : Driver) (score : ℚ) : d.rated score ≠ d := by
  intro h
  have hcount : some (d.ratingCount.getD 0 + 1) = d.ratingCount := congrArg Driver.ratingCount h
  cases hd : d.ratingCount with
  | none => simp [hd] at hcount
  | some n => simp [hd] at hcount

theorem submit_ok {order : OrderDocument} {input : SubmitRatingInput} {env : Env} {s : Store Doc}
    {reply : DeliveryRating} {view : View Doc}
    (h : (Call.body (.submit order input)).run env (View.start s.docs) = .ok (reply, view)) :
    validate order input = .ok reply ∧ ∃ id, rating s id = none ∧
      view.find (Key.rating id) = some reply ∧
      view.find (Key.driver reply.driverId) =
        (driver s reply.driverId).map (fun d => d.rated reply.score) ∧
      ∀ k, k ≠ Key.rating id → k ≠ Key.driver reply.driverId → view.find k = s.find k := by
  rw [Call.body] at h
  cases hvalid : validate order input with
  | error path =>
      rw [hvalid] at h
      exact (Tx.throw_ok h).elim
  | ok r =>
      rw [hvalid] at h
      obtain ⟨id, u, hid, h⟩ := Tx.bind_ok h
      obtain ⟨-, rfl⟩ := Tx.freshId_ok hid
      obtain ⟨_, u, hinsert, h⟩ := Tx.bind_ok h
      obtain ⟨hnone, -, rfl⟩ := Tx.insert_ok hinsert
      obtain ⟨d, u, hfind, h⟩ := Tx.bind_ok h
      obtain ⟨hd, rfl⟩ := Tx.find_ok hfind
      have hstored : d = driver s r.driverId := by
        rw [hd, View.find_put_ne _ _ (by simp)]
        rfl
      subst hstored
      cases hdriver : driver s r.driverId with
      | none =>
          rw [hdriver] at h
          obtain ⟨rfl, rfl⟩ := Tx.pure_ok h
          refine ⟨rfl, id, hnone, View.find_put_self _ _ _, ?_, fun k hk _ => ?_⟩
          · rw [View.find_put_ne _ _ (by simp), hdriver]
            exact hdriver
          · rw [View.find_put_ne _ _ hk]
            rfl
      | some d =>
          rw [hdriver] at h
          have hthere := hd.symm.trans hdriver
          obtain ⟨_, u, hupdate, h⟩ := Tx.bind_ok h
          obtain ⟨rfl, rfl⟩ := Tx.pure_ok h
          rcases Tx.updateOne_ok hupdate with ⟨x, -, -, -, -, rfl⟩ | ⟨-, -, hmiss⟩
          · refine ⟨rfl, id, hnone, ?_, ?_, fun k hk hk' => ?_⟩
            · rw [View.find_put_ne _ _ (by simp)]
              exact View.find_put_self _ _ _
            · rw [View.find_put_self, hdriver]
              rfl
            · rw [View.find_put_ne _ _ hk', View.find_put_ne _ _ hk]
              rfl
          · cases hmiss d hthere

/-- No driver comes to be while ratings are submitted. -/
def DriversStay (s s' : Store Doc) : Prop := ∀ id, driver s id = none → driver s' id = none

theorem submitted {ev : Event Doc Call.Reply} (hev : ev.Sound machine)
    (holder : Store.Older ev.base ev.before) (hstay : DriversStay ev.base ev.before) :
    ∃ r, Submitted ev.before ev.after r := by
  obtain ⟨i, ⟨order, input⟩, base, env, began, ended, reply, view, before, after⟩ := ev
  dsimp only at holder hstay ⊢
  obtain ⟨-, id, hfree, hrating, hdriver, hrest⟩ := submit_ok hev.ran
  have hnew : view.find (Key.rating id) ≠ base.find (Key.rating id) := by
    intro heq
    cases hrating.symm.trans (heq.trans hfree)
  obtain ⟨hbase, hafter⟩ := hev.written holder hnew
  refine ⟨reply, ⟨id, hbase.symm.trans hfree, hafter.trans hrating, fun id' hid => ?_⟩,
    fun id' hid => ?_, ?_⟩
  · exact hev.unwritten holder (hrest _ (by simpa using hid) (by simp))
  · exact hev.unwritten holder (hrest _ (by simp) (by simpa using hid))
  · cases hbefore : driver base reply.driverId with
    | none =>
        rw [hbefore] at hdriver
        rw [hstay _ hbefore]
        exact (hev.unwritten holder (hdriver.trans hbefore.symm)).trans (hstay _ hbefore)
    | some d =>
        rw [hbefore] at hdriver
        have hmoved : view.find (Key.driver reply.driverId) ≠ driver base reply.driverId := by
          rw [hdriver, hbefore]
          exact fun heq => rated_ne d reply.score (Option.some.inj heq)
        obtain ⟨hcurrent, hafter⟩ := hev.written holder hmoved
        rw [show driver before reply.driverId = some d from hcurrent.symm.trans hbefore]
        exact hafter.trans hdriver

section steps
variable {s s' : Store Doc} {r : DeliveryRating}

/-- The driver of a new rating has one score more, the others have those they had. -/
theorem Submitted.tally (h : Submitted s s' r) (driverId : Id) :
    s'.docs.total (Ratings.tally driverId) = s.docs.total (Ratings.tally driverId) +
      if r.driverId = driverId then (1, r.score) else 0 := by
  obtain ⟨id, hnone, hsome, hsame⟩ := h.inserted
  have hput : s'.docs.total (Ratings.tally driverId) +
      s.docs.weight (Ratings.tally driverId) (Key.rating id) = s.docs.total (Ratings.tally driverId) +
        s'.docs.weight (Ratings.tally driverId) (Key.rating id) :=
    Docs.total_put (Key.rating id) (by
      intro k hk
      cases k with
      | driver id' =>
          have hzero : ∀ d : Docs Doc, d.weight (Ratings.tally driverId) (Key.driver id') = 0 := by
            intro d
            rw [Docs.weight]
            cases d.lookup (Key.driver id') <;> rfl
          rw [hzero, hzero]
      | rating id' =>
          have hlookup : s'.docs.lookup (Key.rating id') = s.docs.lookup (Key.rating id') :=
            hsame id' (by simpa using hk)
          rw [Docs.weight, hlookup, Docs.weight])
  rw [Docs.weight_none hnone, Docs.weight_some hsome, add_zero] at hput
  exact hput

theorem Submitted.consistent (h : Submitted s s' r) (hs : Consistent s) : Consistent s' := by
  intro id d' hd'
  have htally := h.tally id
  rw [← scores_tally, ← scores_tally] at htally
  by_cases hid : r.driverId = id
  · subst hid
    have hmoved := h.moved
    rw [hd'] at hmoved
    obtain ⟨d, hd, rfl⟩ := Option.map_eq_some_iff.mp hmoved.symm
    rw [if_pos rfl] at htally
    exact (hs _ d hd).rated htally
  · rw [if_neg hid, add_zero] at htally
    have hd : driver s id = some d' := (h.others id (Ne.symm hid)).symm.trans hd'
    exact (hs id d' hd).congr htally

theorem Submitted.driversStay (h : Submitted s s' r) : DriversStay s s' := by
  intro id hnone
  by_cases hid : id = r.driverId
  · subst hid
    rw [h.moved, hnone]
    rfl
  · rw [h.others id hid]
    exact hnone

theorem ratedOnce (s : Store Doc) : RatedOnce s := by
  intro id id' r r' hr hr' horder
  have hkey := s.unique (Key.rating id) (Key.rating id') r r' r.orderId hr hr'
    List.mem_cons_self (horder ▸ List.mem_cons_self)
  cases hkey
  rfl

end steps

/-! ### Runs -/

section run
variable {P : Event Doc Call.Reply → Prop} {init : Store Doc}
variable {log : List (Event Doc Call.Reply)} {s : Sys Doc Call.Reply HttpError DeliveryRating}

theorem submitRating_throwsFirst (order : OrderDocument) (input : SubmitRatingInput) :
    (submitRating order input).ThrowsFirst := by
  unfold submitRating
  split_ifs
  · trivial
  · apply Prog.ThrowsFirst.attempt
    · intro a
      trivial
    · intro e
      cases e <;> trivial

/-- In every state that submissions reach, the aggregates of all drivers are right, each
order is rated once at most, and a submission that was refused has changed nothing. -/
theorem ratings_aggregated (hinit : Consistent init) (h : Run machine init P log s) :
    Consistent s.store ∧ RatedOnce s.store ∧
      ∀ (i : ℕ) (t : Thread Doc Call.Reply HttpError DeliveryRating) (e : HttpError),
        s.threads[i]? = some t → t.prog = .fail (.thrown e) → ∀ ev ∈ log, ev.thread ≠ i := by
  refine ⟨?_, ratedOnce s.store, fun i t e ht hthrown => ?_⟩
  · refine (h.snapshots.strengthen Consistent DriversStay (fun _ _ h => h) ?_ hinit ?_).1
    · exact fun hab hbc id hnone => hbc id (hab id hnone)
    · intro ev hev hP hbase hbefore hstay
      obtain ⟨r, hr⟩ := submitted hev hP.2 hstay
      exact ⟨hr.consistent hbefore, hr.driversStay⟩
  · exact h.thrown_uncommitted (fun q => submitRating_throwsFirst q.order q.input) ht hthrown

end run

namespace Sample

def fleet : Store Doc := .load (AList.singleton (Key.driver 7) {}) (by decide)

def order (id : Id) : OrderDocument where
  id := id
  fuelCompanyId := 1
  transportCompanyId := some 2
  clientId := 3
  driverId := some 7
  fuelType := .diesel
  quantityLiters := 1000
  deliveryLocation := ⟨0, 0⟩
  estimatedPrice := 2000
  status := .delivered

/-- Two orders of one driver are rated at once, and one of them again. -/
def submissions : List (Act Request) :=
  [.arrive ⟨order 10, { score := 5 }⟩, .arrive ⟨order 11, { score := 2 }⟩, .step 0, .step 1,
    .step 0 true 100, .step 1 true 101, .step 1 true 101, .arrive ⟨order 10, { score := 1 }⟩,
    .step 2, .step 2 true 102]

theorem consistent_fleet : Consistent fleet := by
  intro id d hd
  have hmem : (⟨Key.driver id, d⟩ : Sigma Doc) ∈ fleet.docs.entries := AList.mem_lookup_iff.mp hd
  cases List.mem_singleton.mp hmem
  exact ⟨rfl, rfl⟩

end Sample

theorem ratings_aggregated_contended : ∃ log s,
    Run machine Sample.fleet (fun _ => True) log s ∧
      driver s.store 7 = some { ratingAverage := some (7 / 2), ratingCount := some 2 } ∧
        Consistent s.store ∧ RatedOnce s.store ∧
          ∀ (i : ℕ) (t : Thread Doc Call.Reply HttpError DeliveryRating) (e : HttpError),
            s.threads[i]? = some t → t.prog = .fail (.thrown e) → ∀ ev ∈ log, ev.thread ≠ i := by
  obtain ⟨log, s, hrun, htest⟩ := exists_run machine Sample.fleet (fun _ => True)
    Sample.submissions (fun _ s => driver s.store 7 =
      some { ratingAverage := some (7 / 2), ratingCount := some 2 }) (by decide +kernel)
  exact ⟨log, s, hrun, of_decide_eq_true htest, ratings_aggregated Sample.consistent_fleet hrun⟩

end CiroFuel.Ratings
