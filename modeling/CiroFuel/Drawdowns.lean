import CiroFuel.LitreLedger
import CiroFuel.Snapshot.Alone
import Mathlib.Algebra.Order.Ring.Rat
import Mathlib.Tactic.Linarith

/-!
# What an order draws

The result of a drawdown is a function of the balance and of the quantity asked
for. The projection that a quote shows is written separately; the two agree where
what is left of the balance is kept to a thousandth of a litre.

Over a run, each order draws from the balance of its snapshot. Where the amounts
drawn can be taken away without rounding, what is drawn was credited before.
-/
namespace CiroFuel
open Snapshot Tx

def balanceLitres (s : Db) (key : BalanceKey) : ℚ := (balanceOf s.docs key).balanceLitres

/-- What is drawn from the available litres. -/
def drawnFrom (A : Arithmetic) (available requested : ℚ) : ℚ :=
  if available ≤ 0 then 0 else max (roundLitres A (min available requested)) 0

def drawdownResult (A : Arithmetic) (available requested : ℚ) : DrawdownResult where
  litresDrawn := drawnFrom A available requested
  balanceRemaining :=
    if drawnFrom A available requested = 0 then max available 0
    else A.round (available - drawnFrom A available requested)

/-- Kept to a thousandth of a litre. -/
def Measured (A : Arithmetic) (litres : ℚ) : Prop := roundLitres A litres = litres

/-- The smaller of what is there and what is asked for is kept to a thousandth, and is taken
away without rounding. -/
def Drawable (A : Arithmetic) (available requested : ℚ) : Prop :=
  available ≤ 0 ∨
    Measured A (min available requested) ∧ A.Number (available - min available requested)

instance (A : Arithmetic) (available requested : ℚ) : Decidable (Drawable A available requested) :=
  inferInstanceAs (Decidable (available ≤ 0 ∨
    roundLitres A (min available requested) = min available requested ∧
      A.round (available - min available requested) = available - min available requested))

section amounts
variable {A : Arithmetic} {available requested : ℚ}

/-- Of a drawable balance, all that is there and asked for is drawn. -/
theorem Drawable.drawn (h : Drawable A available requested) :
    drawnFrom A available requested = max (min (max available 0) requested) 0 := by
  rw [drawnFrom]
  split_ifs with havailable
  · rw [max_eq_right havailable]
    exact (max_eq_right (min_le_left 0 requested)).symm
  · obtain ⟨hmeasured, -⟩ := h.resolve_left havailable
    rw [show roundLitres A (min available requested) = min available requested from hmeasured,
      max_eq_left (le_of_not_ge havailable)]

/-- What is drawn of it was there, and what is left of it is not rounded. -/
theorem Drawable.left (h : Drawable A available requested)
    (hdrawn : drawnFrom A available requested ≠ 0) :
    A.round (available - drawnFrom A available requested) =
        available - drawnFrom A available requested ∧
      drawnFrom A available requested ≤ available := by
  rw [drawnFrom] at hdrawn ⊢
  split_ifs at hdrawn ⊢ with havailable
  · exact absurd rfl hdrawn
  · obtain ⟨hmeasured, hnumber⟩ := h.resolve_left havailable
    rw [show roundLitres A (min available requested) = min available requested from hmeasured]
      at hdrawn ⊢
    have hpositive : 0 ≤ min available requested := by
      by_contra hnegative
      exact hdrawn (max_eq_right (le_of_not_ge hnegative))
    rw [max_eq_left hpositive]
    exact ⟨hnumber, min_le_left _ _⟩

end amounts

/-! ### The drawdown of a transaction -/

/-- The balance after a drawdown: the same one if nothing was drawn. -/
def LitreBalance.DrawnDown (A : Arithmetic) (b : LitreBalance) (litres : ℚ) (b' : LitreBalance) :
    Prop :=
  if litres = 0 then b' = b else b' ≠ b ∧ b'.balanceLitres = A.round (b.balanceLitres - litres)

section run
variable {A : Arithmetic} {env : Env} {v : View Doc} {key : BalanceKey}

/-- A movement leaves the index entries of its balance alone. -/
theorem fits_move (hunique : v.docs.Unique) {b : LitreBalance}
    (hb : v.docs.lookup (Key.litreBalance key) = some b) (kind : LitreMovementKind) (litres : ℚ)
    (orderId : Option Id) (reason : Option String) (actorId : Id) (at_ : Instant) :
    v.docs.fits (Key.litreBalance key) (b.move A kind litres orderId reason actorId at_) = true := by
  apply Docs.fits_complete
  intro k' x' i hx' hi hi'
  exact hunique k' _ x' b i hx' hb hi' hi

variable (env) in
/-- An update of a balance whose filter holds of it. -/
theorem updateBalance_run (hunique : v.docs.Unique) {b : LitreBalance}
    (hb : v.docs.lookup (Key.litreBalance key) = some b) (filter : LitreBalance → Bool)
    (hfilter : filter b = true) (kind : LitreMovementKind) (litres : ℚ) (orderId : Option Id)
    (reason : Option String) (actorId : Id) (at_ : Instant) :
    (updateBalance key filter fun b => b.move A kind litres orderId reason actorId at_).run env v =
      .ok (some (b.move A kind litres orderId reason actorId at_),
        v.put (Key.litreBalance key) (b.move A kind litres orderId reason actorId at_)) := by
  have hfits := fits_move (A := A) hunique hb kind litres orderId reason actorId at_
  simp only [updateBalance, findOneAndUpdate, Tx.run, hb, hfilter, hfits, if_true]

/-- A drawdown is recorded, and so leaves another balance behind. -/
theorem drawnDown_move {b : LitreBalance} {litres : ℚ} (hlitres : litres ≠ 0) (orderId : Id)
    (actorId : Id) (at_ : Instant) :
    b.DrawnDown A litres (b.move A .orderDrawdown (-litres) (some orderId) none actorId at_) := by
  rw [LitreBalance.DrawnDown, if_neg hlitres]
  constructor
  · intro heq
    have hlength := congrArg (fun b : LitreBalance => b.movements.length) heq
    simp [LitreBalance.move] at hlength
  · rw [sub_eq_add_neg]
    rfl

variable (A env key) in
/-- A drawdown returns, and takes what it reports from the balance. -/
theorem drawdown_run (hunique : v.docs.Unique) (orderId : Id) (requested : ℚ) (actorId : Id) :
    ∃ w, (drawdown A key orderId requested actorId).run env v =
        .ok (drawdownResult A (balanceOf v.docs key).balanceLitres requested, w) ∧
      (balanceOf v.docs key).DrawnDown A
        (drawnFrom A (balanceOf v.docs key).balanceLitres requested) (balanceOf w.docs key) := by
  have hfind : (findBalance key).run env v = .ok (v.docs.lookup (Key.litreBalance key), v) := rfl
  have havailable : ((v.docs.lookup (Key.litreBalance key)).map (·.balanceLitres)).getD 0 =
      (balanceOf v.docs key).balanceLitres := by
    rw [balanceOf]
    cases v.docs.lookup (Key.litreBalance key) <;> rfl
  have nothing : ∀ {b : LitreBalance}, b.DrawnDown A 0 b := by
    intro b
    rw [LitreBalance.DrawnDown, if_pos rfl]
  rw [drawdown, maxDrawdownAttempts, drawdownAttempts, Tx.run_bind, hfind]
  simp only [havailable, drawdownResult, drawnFrom]
  generalize hb : (balanceOf v.docs key).balanceLitres = b
  by_cases hnone : b ≤ 0
  · refine ⟨v, ?_, ?_⟩
    · simp only [if_pos hnone, if_true]
      rfl
    · rw [if_pos hnone]
      exact nothing
  simp only [if_neg hnone]
  by_cases hdrawn : roundLitres A (min b requested) ≤ 0
  · refine ⟨v, ?_, ?_⟩
    · simp only [if_pos hdrawn, max_eq_right hdrawn, if_true, max_eq_left (le_of_not_ge hnone)]
      rfl
    · rw [max_eq_right hdrawn]
      exact nothing
  · -- The balance is the one just read, so the first attempt succeeds.
    have hmax : max (roundLitres A (min b requested)) 0 = roundLitres A (min b requested) :=
      max_eq_left (le_of_not_ge hdrawn)
    have hzero : roundLitres A (min b requested) ≠ 0 := fun heq => hdrawn heq.le
    simp only [if_neg hdrawn, hmax, if_neg hzero]
    cases hlookup : v.docs.lookup (Key.litreBalance key) with
    | none =>
        rw [balanceOf, hlookup] at hb
        exact absurd hb.symm.le hnone
    | some balance =>
        rw [balanceOf_eq hlookup] at hb
        let u : View Doc := { v with readings := v.readings + 1 }
        have htime : getTime.run env v = (.ok (env.time v.readings, u) :
            Except (Failure Refusal) _) := rfl
        have hmove := updateBalance_run (A := A) env (v := u) hunique hlookup
          (fun x => x.balanceLitres = b) (decide_eq_true hb) .orderDrawdown
          (-roundLitres A (min b requested)) (some orderId) none actorId (env.time v.readings)
        refine ⟨u.put (Key.litreBalance key) (balance.move A .orderDrawdown
          (-roundLitres A (min b requested)) (some orderId) none actorId (env.time v.readings)),
          ?_, ?_⟩
        · rw [Tx.run_bind, htime]
          simp only
          rw [Tx.run_bind, hmove]
          simp only [LitreBalance.move, hb, sub_eq_add_neg]
          rfl
        · rw [balanceOf_eq hlookup, balanceOf_eq (View.find_put_self _ _ _)]
          exact drawnDown_move hzero orderId actorId _

end run

/-! ### The projection of a quote -/

/-- What a quote shows of the balance; it writes nothing. -/
def projectDrawdown (A : Arithmetic) (key : BalanceKey) (requestedLitres : ℚ) :
    Handler DrawdownResult := do
  let current : Option LitreBalance ← Prog.find (Key.litreBalance key)
  let availableLitres := (current.map (·.balanceLitres)).getD 0
  let litresDrawn := roundLitres A (max 0 (min availableLitres requestedLitres))
  return ⟨litresDrawn, roundLitres A (A.round (availableLitres - litresDrawn))⟩

def projection (A : Arithmetic) (available requested : ℚ) : DrawdownResult where
  litresDrawn := roundLitres A (max 0 (min available requested))
  balanceRemaining :=
    roundLitres A (A.round (available - roundLitres A (max 0 (min available requested))))

/-- A balance that a projection shows as a drawdown leaves it: so little below zero that it
rounds to zero, or such that what is left of it is kept to a thousandth. -/
def Projectable (A : Arithmetic) (available requested : ℚ) : Prop :=
  if available ≤ 0 then roundLitres A available = 0
  else if available ≤ requested then Measured A (A.round (available - roundLitres A available))
  else Measured A (A.round (available - roundLitres A (max 0 requested)))

instance (A : Arithmetic) (available requested : ℚ) :
    Decidable (Projectable A available requested) :=
  inferInstanceAs (Decidable (if available ≤ 0 then roundLitres A available = 0
    else if available ≤ requested then
      roundLitres A (A.round (available - roundLitres A available)) =
        A.round (available - roundLitres A available)
    else roundLitres A (A.round (available - roundLitres A (max 0 requested))) =
      A.round (available - roundLitres A (max 0 requested))))

section projection
variable {A : Arithmetic} {available requested : ℚ}

theorem projectDrawdown_alone (cfg : Settings) (world : World) (n : ℕ) (s : Db)
    (key : BalanceKey) (requested : ℚ) :
    (projectDrawdown A key requested).alone (machine cfg) world n s =
      (.ok (projection A (balanceLitres s key) requested), n + 1, s) := by
  have havailable : ((s.docs.lookup (Key.litreBalance key)).map (·.balanceLitres)).getD 0 =
      balanceLitres s key := by
    rw [balanceLitres, balanceOf]
    cases s.docs.lookup (Key.litreBalance key) <;> rfl
  rw [projection, ← havailable]
  rfl

/-- The projection draws what the drawdown draws. -/
theorem projection_drawn (A : Arithmetic) (available requested : ℚ) :
    (projection A available requested).litresDrawn = drawnFrom A available requested := by
  have hzero : roundLitres A 0 = 0 := Arithmetic.roundTo_zero
  rw [projection, drawnFrom]
  split_ifs with havailable
  · rw [max_eq_left (le_trans (min_le_left _ _) havailable), hzero]
  · rcases le_total 0 (min available requested) with hmin | hmin
    · rw [max_eq_right hmin, max_eq_left]
      exact Arithmetic.roundTo_nonneg hmin
    · have hround : roundLitres A (min available requested) ≤ 0 := Arithmetic.roundTo_nonpos hmin
      rw [max_eq_left hmin, hzero, max_eq_right hround]

/-- In terms of what is drawn: the rest of the balance is kept to a thousandth. -/
theorem projectable_iff (hpositive : ¬ available ≤ 0) :
    Projectable A available requested ↔
      Measured A (A.round (available - drawnFrom A available requested)) := by
  have hdrawn := projection_drawn A available requested
  rw [projection] at hdrawn
  rw [Projectable, if_neg hpositive, ← hdrawn]
  split_ifs with hle
  · rw [min_eq_left hle, max_eq_right (le_of_not_ge hpositive)]
  · rw [min_eq_right (le_of_not_ge hle)]

/-- What the projection leaves of a balance is what a drawdown leaves, if it is projectable. -/
theorem projection_eq_iff (hnumber : A.Number available) :
    projection A available requested = drawdownResult A available requested ↔
      Projectable A available requested := by
  have hdrawn := projection_drawn A available requested
  have hremaining : (projection A available requested).balanceRemaining =
      roundLitres A (A.round (available - drawnFrom A available requested)) := by
    rw [← hdrawn]
    rfl
  have hiff : projection A available requested = drawdownResult A available requested ↔
      roundLitres A (A.round (available - drawnFrom A available requested)) =
        (drawdownResult A available requested).balanceRemaining := by
    rw [← hremaining]
    constructor
    · intro heq
      rw [heq]
    · intro heq
      calc projection A available requested
          = ⟨(projection A available requested).litresDrawn,
              (projection A available requested).balanceRemaining⟩ := rfl
        _ = drawdownResult A available requested := by rw [hdrawn, heq]; rfl
  rw [hiff]
  by_cases havailable : available ≤ 0
  · have hnone : drawnFrom A available requested = 0 := by rw [drawnFrom, if_pos havailable]
    rw [drawdownResult, hnone, if_pos rfl, Projectable, if_pos havailable, sub_zero,
      max_eq_right havailable, show A.round available = available from hnumber]
  · rw [projectable_iff havailable, drawdownResult]
    dsimp only
    split_ifs with hnone
    · rw [hnone, sub_zero, max_eq_left (le_of_not_ge havailable), Measured,
        show A.round available = available from hnumber]
    · rfl

end projection

section agreement
variable {cfg : Settings} {world : World} {n : ℕ} {env : Env} {s : Db} {key : BalanceKey}

/-- The projection and the drawdown have one result exactly if the amounts agree. -/
theorem projected_iff (orderId : Id) (requested : ℚ) (actorId : Id) :
    (∃ r v, (drawdown cfg.arithmetic key orderId requested actorId).run env
        (View.start s.docs) = .ok (r, v) ∧
      ((projectDrawdown cfg.arithmetic key requested).alone (machine cfg) world n s).1 = .ok r) ↔
    projection cfg.arithmetic (balanceLitres s key) requested =
      drawdownResult cfg.arithmetic (balanceLitres s key) requested := by
  obtain ⟨w, hrun, -⟩ := drawdown_run cfg.arithmetic env key (v := View.start s.docs) s.unique
    orderId requested actorId
  rw [projectDrawdown_alone]
  constructor
  · rintro ⟨r, v, hdrawdown, hprojected⟩
    have hdrawn : drawdownResult cfg.arithmetic (balanceLitres s key) requested = r :=
      (Prod.mk.inj (Except.ok.inj (hrun.symm.trans hdrawdown))).1
    have hprojection : projection cfg.arithmetic (balanceLitres s key) requested = r :=
      Except.ok.inj hprojected
    exact hprojection.trans hdrawn.symm
  · intro heq
    exact ⟨_, w, hrun, by rw [heq]; rfl⟩

end agreement

/-- A quote projects what an order placed at the same moment would draw, exactly while the
balance is projectable. What is stored as a balance is a number. -/
theorem projectDrawdown_agrees_iff (cfg : Settings) (world : World) (n : ℕ) (env : Env) (s : Db)
    (key : BalanceKey) (orderId : Id) (requested : ℚ) (actorId : Id)
    (hnumber : cfg.arithmetic.Number (balanceLitres s key)) :
    (∃ r v, (drawdown cfg.arithmetic key orderId requested actorId).run env
        (View.start s.docs) = .ok (r, v) ∧
      ((projectDrawdown cfg.arithmetic key requested).alone (machine cfg) world n s).1 = .ok r) ↔
    Projectable cfg.arithmetic (balanceLitres s key) requested := by
  rw [projected_iff, projection_eq_iff hnumber]

namespace Sample

/-- The client has been supplied more than was ordered. -/
def oversupplied : List (Act Request) :=
  opening ++ serve (.create client (order .direct)) 10 6 100 ++
    serve (.confirmInvoice fuelAdmin 100 (supply 1050)) 11 3

/-- The client is owed litres to the tenth. -/
def owedTenths : List (Act Request) :=
  opening ++ serve (.create client (order .direct)) 10 6 100 ++
    serve (.confirmInvoice fuelAdmin 100 (supply (8999 / 10))) 11 3

def stillWorld : World where
  clock _ := 0
  env _ := Env.frozen 0 0
  answer _ := true

end Sample

theorem projectDrawdown_agrees_iff_owedTenths : ∃ log s,
    Run (machine Sample.cfg) Store.empty (fun _ => True) log s ∧
      balanceLitres s.store Sample.clientDiesel = Json.nearest (1001 / 10) ∧
      ∃ r v, (drawdown Sample.cfg.arithmetic Sample.clientDiesel 101 1000 20).run (Env.frozen 0 0)
          (View.start s.store.docs) = .ok (r, v) ∧
        ((projectDrawdown Sample.cfg.arithmetic Sample.clientDiesel 1000).alone
          (machine Sample.cfg) Sample.stillWorld 0 s.store).1 = .ok r := by
  obtain ⟨log, s, hrun, htest⟩ := exists_run (machine Sample.cfg) Store.empty (fun _ => True)
    Sample.owedTenths
    (fun _ s => balanceLitres s.store Sample.clientDiesel = Json.nearest (1001 / 10))
    (by decide +kernel)
  have hbalance := of_decide_eq_true htest
  refine ⟨log, s, hrun, hbalance, (projectDrawdown_agrees_iff Sample.cfg Sample.stillWorld 0
    (Env.frozen 0 0) s.store Sample.clientDiesel 101 1000 20 ?_).mpr ?_⟩
  · rw [hbalance]
    exact Json.nearest_nearest _
  · rw [hbalance]
    decide +kernel

/-- A balance may be negative; the quote then shows it, and the drawdown reports zero. -/
theorem projectDrawdown_disagrees : ¬ ∀ (log : List (Event Doc Call.Reply))
    (s : Sys Doc Call.Reply Refusal Answer),
    Run (machine Sample.cfg) Store.empty (fun _ => True) log s →
    ∀ (world : World) (n : ℕ) (env : Env) (key : BalanceKey) (orderId : Id) (requested : ℚ)
      (actorId : Id), ∃ r v,
        (drawdown Sample.cfg.arithmetic key orderId requested actorId).run env
          (View.start s.store.docs) = .ok (r, v) ∧
        ((projectDrawdown Sample.cfg.arithmetic key requested).alone
          (machine Sample.cfg) world n s.store).1 = .ok r := by
  intro hall
  obtain ⟨log, s, hrun, htest⟩ := exists_run (machine Sample.cfg) Store.empty (fun _ => True)
    Sample.oversupplied (fun _ s => balanceLitres s.store Sample.clientDiesel = -50)
    (by decide +kernel)
  have hbalance : balanceLitres s.store Sample.clientDiesel = -50 := of_decide_eq_true htest
  have hnumber : Sample.cfg.arithmetic.Number (-50) := by
    rw [Arithmetic.Number]
    decide +kernel
  have hagree := hall log s hrun Sample.stillWorld 0 (Env.frozen 0 0) Sample.clientDiesel 101 1000 20
  rw [projected_iff, hbalance, projection_eq_iff hnumber] at hagree
  revert hagree
  decide +kernel

/-! ### What commits draw and credit -/

/-- What a creation has drawn: the balance, the quantity ordered and the result. -/
def Call.draws : (c : Call) → c.Reply → Option (BalanceKey × ℚ × DrawdownResult)
  | .create fields _, reply => some (fields.order.balanceKey, fields.quantityLiters, reply.2)
  | _, _ => none

/-- What a creation draws from the balance is kept to a thousandth, and is taken away without
rounding. -/
def Call.drawable (A : Arithmetic) : Call → Db → Bool
  | .create fields _, s => decide (Drawable A (balanceLitres s fields.order.balanceKey)
      fields.quantityLiters)
  | _, _ => true

/-- The litres a commit has drawn from the balance. -/
def Event.drawn (key : BalanceKey) (ev : Event Doc Call.Reply) : ℚ :=
  match ev.label.draws ev.reply with
  | some (key', _, r) => if key' = key then r.litresDrawn else 0
  | none => 0

/-- The litres a commit other than a creation has added to the balance. -/
def Event.credited (key : BalanceKey) (ev : Event Doc Call.Reply) : ℚ :=
  if (ev.label.draws ev.reply).isSome then 0
  else max (balanceLitres ev.after key - balanceLitres ev.before key) 0

def spent (key : BalanceKey) (log : List (Event Doc Call.Reply)) : ℚ :=
  (log.map (Event.drawn key)).sum

def credited (key : BalanceKey) (log : List (Event Doc Call.Reply)) : ℚ :=
  (log.map (Event.credited key)).sum

/-- What holds of a creation that ordered whole litres. -/
structure DrawnOnce (ev : Event Doc Call.Reply) (key : BalanceKey) (quantity : ℕ)
    (r : DrawdownResult) : Prop where
  drawn : r.litresDrawn = min (max (balanceLitres ev.base key) 0) quantity
  current : r.litresDrawn ≠ 0 → balanceLitres ev.before key = balanceLitres ev.base key
  left : balanceLitres ev.after key = balanceLitres ev.before key - r.litresDrawn
  covered : 0 ≤ balanceLitres ev.before key → 0 ≤ balanceLitres ev.after key

/-! ### One creation -/

section creation
variable {cfg : Settings} {env : Env} {v w : View Doc} {fields : OrderFields} {userId : Id}

/-- A creation reports the drawdown of the balance it has found. -/
theorem create_draws {r : OrderDocument × DrawdownResult} (hunique : v.docs.Unique)
    (h : ((Call.create fields userId).body cfg).run env v = .ok (r, w)) :
    r.2 = drawdownResult cfg.arithmetic (balanceOf v.docs fields.order.balanceKey).balanceLitres
        fields.quantityLiters ∧
      (balanceOf v.docs fields.order.balanceKey).DrawnDown cfg.arithmetic
        (drawnFrom cfg.arithmetic (balanceOf v.docs fields.order.balanceKey).balanceLitres
          fields.quantityLiters) (balanceOf w.docs fields.order.balanceKey) := by
  obtain ⟨id, u, hid, h⟩ := bind_ok h
  obtain ⟨-, rfl⟩ := freshId_ok hid
  obtain ⟨_, u, hinsert, h⟩ := bind_ok h
  obtain ⟨-, hfits, rfl⟩ := insert_ok hinsert
  obtain ⟨drawn, u, hdraw, h⟩ := bind_ok h
  obtain ⟨rfl, rfl⟩ := pure_ok h
  let placed : View Doc := View.put { v with drawn := v.drawn + 1 } (Key.order id) fields.order
  have hplaced : placed.docs.Unique := Docs.Unique.put hunique hfits
  have hkept : balanceOf placed.docs fields.order.balanceKey =
      balanceOf v.docs fields.order.balanceKey :=
    balanceOf_congr (View.find_put_ne { v with drawn := v.drawn + 1 } _ (by simp))
  obtain ⟨w', hrun, hleft⟩ := drawdown_run cfg.arithmetic env fields.order.balanceKey (v := placed)
    hplaced id fields.quantityLiters userId
  have hsame := Prod.mk.inj (Except.ok.inj (hrun.symm.trans hdraw))
  rw [hkept] at hsame hleft
  rw [← hsame.1, ← hsame.2]
  exact ⟨rfl, hleft⟩

end creation

section commit
variable {cfg : Settings} {ev : Event Doc Call.Reply} {key : BalanceKey}

/-- A creation draws from a balance that is current, or draws nothing. -/
theorem commit_draws (hev : ev.Sound (machine cfg)) (holder : Store.Older ev.base ev.before)
    {quantity : ℚ} {r : DrawdownResult}
    (hdraws : ev.label.draws ev.reply = some (key, quantity, r)) :
    r.litresDrawn = drawnFrom cfg.arithmetic (balanceLitres ev.base key) quantity ∧
    ((r.litresDrawn = 0 ∧ balanceLitres ev.after key = balanceLitres ev.before key) ∨
      (r.litresDrawn ≠ 0 ∧ balanceLitres ev.before key = balanceLitres ev.base key ∧
        balanceLitres ev.after key =
          cfg.arithmetic.round (balanceLitres ev.before key - r.litresDrawn))) := by
  obtain ⟨i, label, base, env, began, ended, reply, view, before, after⟩ := ev
  cases label with
  | create fields userId =>
      cases hdraws
      have hran : ((Call.create fields userId).body cfg).run env (View.start base.docs) =
          .ok (reply, view) := hev.ran
      obtain ⟨hresult, hleft⟩ := create_draws base.unique hran
      have hdrawn : reply.2.litresDrawn = drawnFrom cfg.arithmetic
          (balanceLitres base fields.order.balanceKey) fields.quantityLiters := by
        rw [hresult]
        rfl
      have hview : (balanceOf base.docs fields.order.balanceKey).DrawnDown cfg.arithmetic
          reply.2.litresDrawn (balanceOf view.docs fields.order.balanceKey) := by
        rw [hdrawn]
        exact hleft
      refine ⟨hdrawn, ?_⟩
      rw [LitreBalance.DrawnDown] at hview
      rcases hev.cases holder (Key.litreBalance fields.order.balanceKey) with
        ⟨hcurrent, hafter⟩ | ⟨hkept, hafter, -⟩
      · have hbase : balanceOf base.docs fields.order.balanceKey =
            balanceOf before.docs fields.order.balanceKey := balanceOf_congr hcurrent
        have hwritten : balanceOf after.docs fields.order.balanceKey =
            balanceOf view.docs fields.order.balanceKey := balanceOf_congr hafter
        simp only [balanceLitres, hwritten, ← hbase]
        split_ifs at hview with hzero
        · exact Or.inl ⟨hzero, congrArg _ hview⟩
        · exact Or.inr ⟨hzero, trivial, hview.2⟩
      · -- Nothing was written, so nothing was drawn.
        have hunchanged : balanceOf view.docs fields.order.balanceKey =
            balanceOf base.docs fields.order.balanceKey := balanceOf_congr hkept
        have hsame : balanceOf after.docs fields.order.balanceKey =
            balanceOf before.docs fields.order.balanceKey := balanceOf_congr hafter
        split_ifs at hview with hzero
        · exact Or.inl ⟨hzero, congrArg _ hsame⟩
        · exact absurd hunchanged hview.1
  | _ => cases hdraws

/-- A creation leaves the other balances alone. -/
theorem commit_draws_other (hev : ev.Sound (machine cfg))
    (holder : Store.Older ev.base ev.before) {key' : BalanceKey} {quantity : ℚ}
    {r : DrawdownResult} (hdraws : ev.label.draws ev.reply = some (key', quantity, r))
    (hne : key' ≠ key) : balanceLitres ev.after key = balanceLitres ev.before key := by
  have hframe : ev.label.touches (.litreBalance key) = false := by
    obtain ⟨i, label, base, env, began, ended, reply, view, before, after⟩ := ev
    cases label with
    | create fields userId =>
        cases hdraws
        exact decide_eq_false hne
    | _ => cases hdraws
  have hview : ev.view.find (Key.litreBalance key) = ev.base.find (Key.litreBalance key) :=
    Call.body_frame hev.ran hframe
  rw [balanceLitres, balanceOf_congr (hev.unwritten holder hview), balanceLitres]

/-- The balance a creation draws from is drawable. -/
theorem drawable_of {A : Arithmetic} (hdrawable : ev.label.drawable A ev.base = true)
    {quantity : ℚ} {r : DrawdownResult}
    (hdraws : ev.label.draws ev.reply = some (key, quantity, r)) :
    Drawable A (balanceLitres ev.base key) quantity := by
  obtain ⟨i, label, base, env, began, ended, reply, view, before, after⟩ := ev
  cases label with
  | create fields userId =>
      cases hdraws
      exact of_decide_eq_true hdrawable
  | _ => cases hdraws

/-- What a creation draws of a drawable balance was there, and is what the balance is less. -/
theorem commit_drawable (hev : ev.Sound (machine cfg)) (holder : Store.Older ev.base ev.before)
    (hdrawable : ev.label.drawable cfg.arithmetic ev.base = true) {quantity : ℚ}
    {r : DrawdownResult} (hdraws : ev.label.draws ev.reply = some (key, quantity, r)) :
    balanceLitres ev.after key = balanceLitres ev.before key - r.litresDrawn ∧
    (r.litresDrawn = 0 ∨ 0 ≤ balanceLitres ev.after key) := by
  obtain ⟨hdrawn, ⟨hzero, hsame⟩ | ⟨hne, hcurrent, hafter⟩⟩ := commit_draws hev holder hdraws
  · rw [hzero, sub_zero]
    exact ⟨hsame, Or.inl rfl⟩
  · rw [hdrawn] at hne
    obtain ⟨hleft, hle⟩ := (drawable_of hdrawable hdraws).left hne
    rw [hcurrent, hdrawn, hleft] at hafter
    rw [hafter, hcurrent, hdrawn]
    exact ⟨rfl, Or.inr (sub_nonneg.mpr hle)⟩

theorem drawnOnce_of (hev : ev.Sound (machine cfg)) (holder : Store.Older ev.base ev.before)
    (hdrawable : ev.label.drawable cfg.arithmetic ev.base = true) {quantity : ℕ}
    {r : DrawdownResult} (hdraws : ev.label.draws ev.reply = some (key, (quantity : ℚ), r)) :
    DrawnOnce ev key quantity r := by
  obtain ⟨hdrawn, hwritten⟩ := commit_draws hev holder hdraws
  obtain ⟨hleft, hcovered⟩ := commit_drawable hev holder hdrawable hdraws
  constructor
  · rw [hdrawn, (drawable_of hdrawable hdraws).drawn]
    exact max_eq_left (le_min (le_max_right _ _) (Nat.cast_nonneg quantity))
  · intro hne
    rcases hwritten with ⟨hzero, -⟩ | ⟨-, hcurrent, -⟩
    · exact absurd hzero hne
    · exact hcurrent
  · exact hleft
  · intro hbefore
    rcases hcovered with hzero | hcovered
    · rw [hleft, hzero, sub_zero]
      exact hbefore
    · exact hcovered

end commit

/-! ### Runs -/

section ledger
variable {cfg : Settings} {init : Db}
variable {log : List (Event Doc Call.Reply)} {s : Sys Doc Call.Reply Refusal Answer}
variable {key : BalanceKey} {opening : ℚ}

/-- What has been drawn and what is left were there at the start or credited since. -/
structure Covered (opening : ℚ) (key : BalanceKey) (log : List (Event Doc Call.Reply)) (s : Db) :
    Prop where
  drawn : spent key log ≤ opening + credited key log
  left : balanceLitres s key + spent key log ≤ opening + credited key log

theorem Covered.commit {ev : Event Doc Call.Reply} (h : Covered opening key log ev.before)
    (hev : ev.Sound (machine cfg)) (holder : Store.Older ev.base ev.before)
    (hdrawable : ev.label.drawable cfg.arithmetic ev.base = true) :
    Covered opening key (ev :: log) ev.after := by
  obtain ⟨hspent, hbalance⟩ := h
  have hspents : spent key (ev :: log) = Event.drawn key ev + spent key log := List.sum_cons
  have hcredits : credited key (ev :: log) = Event.credited key ev + credited key log :=
    List.sum_cons
  rw [Event.drawn] at hspents
  rw [Event.credited] at hcredits
  cases hdraws : ev.label.draws ev.reply with
  | none =>
      have hgained := le_max_left (balanceLitres ev.after key - balanceLitres ev.before key) 0
      have hnonneg := le_max_right (balanceLitres ev.after key - balanceLitres ev.before key) 0
      simp only [hdraws, Option.isSome_none, Bool.false_eq_true, if_false] at hspents hcredits
      constructor
      · rw [hspents, hcredits]
        linarith
      · rw [hspents, hcredits]
        linarith
  | some x =>
      obtain ⟨key', quantity, r⟩ := x
      simp only [hdraws, Option.isSome_some, if_true] at hspents hcredits
      by_cases hkey : key' = key
      · subst hkey
        obtain ⟨hleft, hcovered⟩ := commit_drawable hev holder hdrawable hdraws
        rw [if_pos rfl] at hspents
        constructor
        · rw [hspents, hcredits]
          rcases hcovered with hzero | hcovered
          · linarith
          · linarith
        · rw [hspents, hcredits, hleft]
          linarith
      · rw [if_neg hkey] at hspents
        have hsame := commit_draws_other hev holder hdraws hkey
        constructor
        · rw [hspents, hcredits]
          linarith
        · rw [hspents, hcredits, hsame]
          linarith

/-- Where each creation finds a drawable balance, each order draws what is there of what it orders,
from a balance that is still current, and in total no more is drawn than was there at the start and
has been credited since. -/
theorem litres_spent_once
    (h : Run (machine cfg) init (fun ev => ev.label.drawable cfg.arithmetic ev.base = true) log s) :
    (∀ ev ∈ log, ∀ (key : BalanceKey) (quantity : ℕ) (r : DrawdownResult),
      ev.label.draws ev.reply = some (key, (quantity : ℚ), r) → DrawnOnce ev key quantity r) ∧
    ∀ key, spent key log ≤ max (balanceLitres init key) 0 + credited key log := by
  constructor
  · intro ev hev key quantity r hdraws
    obtain ⟨hsound, hdrawable, holder⟩ := h.snapshots.mem hev
    exact drawnOnce_of hsound holder hdrawable hdraws
  · intro key
    have hcovered : Covered (max (balanceLitres init key) 0) key log s.store := by
      refine Run.logged (J := fun log s => Covered (max (balanceLitres init key) 0) key log s) ?_ ?_
        h.snapshots
      · constructor
        · rw [spent, credited, List.map_nil, List.map_nil, List.sum_nil, add_zero]
          exact le_max_right _ _
        · rw [spent, credited, List.map_nil, List.map_nil, List.sum_nil, add_zero, add_zero]
          exact le_max_left _ _
      · intro log ev hev hP hcovered
        exact hcovered.commit hev hP.2 hP.1
    exact hcovered.drawn

end ledger

namespace Sample

/-- Two orders are placed at once while fifty litres are owed to the client. -/
def contended : List (Act Request) :=
  opening ++ serve (.create client (order .direct)) 10 6 100 ++
    serve (.confirmInvoice fuelAdmin 100 (supply 950)) 11 3 ++
    serve (.create client (order .direct)) 12 5 101 ++
    serve (.create client (order .direct)) 13 5 102 ++
    [Act.step 12 true 101, .step 13 true 102, .step 13 true 102]

/-- One order leaves a tenth of a litre less than there was, and the next draws a tenth. -/
def overdrawn : List (Act Request) :=
  owedTenths ++
    serve (.create client { order .direct with quantityLiters := 100 }) 12 6 101 ++
    serve (.create client (order .direct)) 13 6 102

end Sample

theorem litres_spent_once_contended : ∃ log s,
    Run (machine Sample.cfg) Store.empty
        (fun ev => ev.label.drawable Sample.cfg.arithmetic ev.base = true) log s ∧
      spent Sample.clientDiesel log = 50 ∧ credited Sample.clientDiesel log = 50 ∧
      spent Sample.clientDiesel log ≤ max (balanceLitres Store.empty Sample.clientDiesel) 0 +
        credited Sample.clientDiesel log ∧
      ∃ ev ∈ log, ∃ r, r.litresDrawn = 50 ∧ DrawnOnce ev Sample.clientDiesel 1000 r := by
  obtain ⟨log, s, hrun, htest⟩ := exists_run (machine Sample.cfg) Store.empty
    (fun ev => ev.label.drawable Sample.cfg.arithmetic ev.base = true)
    Sample.contended (fun log _ => decide (spent Sample.clientDiesel log = 50) &&
      decide (credited Sample.clientDiesel log = 50) &&
      log.any fun ev : Event Doc Call.Reply => (ev.label.draws ev.reply).any fun x =>
        x.1 = Sample.clientDiesel && x.2.1 = ((1000 : ℕ) : ℚ) && x.2.2.litresDrawn = 50)
    (by decide +kernel)
  simp only [Bool.and_eq_true, decide_eq_true_eq] at htest
  obtain ⟨⟨hspent, hcredited⟩, hany⟩ := htest
  obtain ⟨ev, hev, hdraws⟩ := List.any_eq_true.mp hany
  obtain ⟨⟨key, quantity, r⟩, hr, heq⟩ := (Option.any_eq_true _ _).mp hdraws
  simp only [Bool.and_eq_true, decide_eq_true_eq] at heq
  obtain ⟨⟨rfl, rfl⟩, hlitres⟩ := heq
  obtain ⟨honce, hcovered⟩ := litres_spent_once hrun
  exact ⟨log, s, hrun, hspent, hcredited, hcovered _, ev, hev, r, hlitres, honce ev hev _ _ _ hr⟩

/-- The balance becomes negative through the second drawdown, and more is drawn than was credited. -/
theorem litres_spent_once_overdrawn : ¬ ∀ (log : List (Event Doc Call.Reply))
    (s : Sys Doc Call.Reply Refusal Answer),
    Run (machine Sample.cfg) Store.empty (fun _ => True) log s →
      (∀ ev ∈ log, ∀ (key : BalanceKey) (quantity : ℕ) (r : DrawdownResult),
        ev.label.draws ev.reply = some (key, (quantity : ℚ), r) → DrawnOnce ev key quantity r) ∧
      ∀ key, spent key log ≤ max (balanceLitres Store.empty key) 0 + credited key log := by
  intro hclaim
  obtain ⟨log, s, hrun, htest⟩ := exists_run (machine Sample.cfg) Store.empty (fun _ => True)
    Sample.overdrawn (fun log s => decide (balanceLitres s.store Sample.clientDiesel < 0) &&
      log.any fun ev : Event Doc Call.Reply => (ev.label.draws ev.reply).any fun x =>
        x.1 = Sample.clientDiesel && x.2.1 = ((1000 : ℕ) : ℚ) &&
          0 ≤ balanceLitres ev.before Sample.clientDiesel &&
          balanceLitres ev.after Sample.clientDiesel < 0) (by decide +kernel)
  obtain ⟨-, hany⟩ := Bool.and_eq_true_iff.mp htest
  obtain ⟨ev, hev, hdraws⟩ := List.any_eq_true.mp hany
  obtain ⟨⟨key, quantity, r⟩, hr, heq⟩ := (Option.any_eq_true _ _).mp hdraws
  simp only [Bool.and_eq_true, decide_eq_true_eq] at heq
  obtain ⟨⟨⟨rfl, rfl⟩, hbefore⟩, hafter⟩ := heq
  have honce := (hclaim log s hrun).1 ev hev _ _ r hr
  exact absurd (honce.covered hbefore) (not_le_of_gt hafter)

end CiroFuel
