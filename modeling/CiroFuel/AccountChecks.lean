import CiroFuel.AccountBalances

/-!
# Checks against the account

Commission gates new exposure and cashback bounds payouts; both checks sum the
movements of a snapshot and then only insert. A movement of the kind they
subtract from can therefore be committed beside them without a conflict. Where
the snapshot has all of those, the checks hold of the store they commit to,
whatever else has been paid, confirmed or undone in between. Rounding keeps the
order of the sums, but a difference that is rounded up lets a payout exceed it.
-/
namespace CiroFuel
open Snapshot Tx

/-! ### Balances of a snapshot -/

/-- The originals of a company, of one kind, are all in the snapshot. -/
def OriginalsSeen (a b : Db) (companyId : Id) (kind : AccountMovementKind) : Prop :=
  ∀ m y, b.accountMovement m = some y → y.companyId = companyId → y.kind = kind →
    y.reversalOfId = none → a.accountMovement m = some y

/-- A balance whose originals are all in the snapshot has not grown since. -/
theorem AccountStable.balance_le {a b : Db} (h : AccountStable a b) (hb : AccountLedger b)
    {A : Arithmetic} {companyId : Id} {kind : AccountMovementKind}
    (hseen : OriginalsSeen a b companyId kind) :
    confirmedBalance A b.docs companyId kind ≤ confirmedBalance A a.docs companyId kind := by
  rw [confirmedBalance_eq, confirmedBalance_eq]
  refine Docs.sum_le_sum h.keys fun k => ?_
  rcases h.weight_cases companyId kind k with heq | ⟨hzero, m, y, rfl, hy, hne⟩
  · exact heq.ge
  · have hlookup : b.docs.lookup (Key.accountMovement m) = some y := hy
    have hpos := hb.amount_pos hy
    rw [hzero, Docs.weight_some hlookup]
    dsimp only [movementWeight]
    split_ifs with hmine hreversal
    · exact neg_nonpos.mpr hpos.le
    · exact absurd (hseen m y hy hmine.1 hmine.2.1 (by simpa using hreversal)) hne
    · exact le_rfl

/-- A balance that nothing is taken back from has not shrunk. -/
theorem AccountStable.balance_ge {a b : Db} (h : AccountStable a b) (hb : AccountLedger b)
    {A : Arithmetic} (companyId : Id) (kind : AccountMovementKind)
    (hkind : kind ≠ .commissionCharged) :
    confirmedBalance A a.docs companyId kind ≤ confirmedBalance A b.docs companyId kind := by
  rw [confirmedBalance_eq, confirmedBalance_eq]
  refine Docs.le_sum h.keys fun k => ?_
  rcases h.weight_cases companyId kind k with heq | ⟨hzero, m, y, rfl, hy, -⟩
  · exact heq.le
  · have hlookup : b.docs.lookup (Key.accountMovement m) = some y := hy
    have hpos := hb.amount_pos hy
    rw [hzero, Docs.weight_some hlookup]
    dsimp only [movementWeight]
    split_ifs with hmine hreversal
    · refine absurd (hmine.2.1.symm.trans (hb.reversal_kind hy ?_)) hkind
      exact Option.isSome_iff_ne_none.mp hreversal
    · exact hpos.le
    · exact le_rfl

/-! ### The commission ceiling -/

def netCommissionOwed (A : Arithmetic) (d : Docs Doc) (companyId : Id) : ℚ :=
  A.round (confirmedBalance A d companyId .commissionCharged -
    confirmedBalance A d companyId .paymentRecorded)

def ceilingOf (cfg : Settings) (d : Docs Doc) (companyId : Id) : ℚ :=
  ((d.lookup (Key.company companyId)).bind fun c : Company => c.commissionCeiling).getD
    cfg.defaultCommissionCeiling

theorem confirmedBalance_congr {A : Arithmetic} {d d' : Docs Doc}
    (h : Docs.collect pickAccountMovement d' = Docs.collect pickAccountMovement d) (companyId : Id)
    (kind : AccountMovementKind) :
    confirmedBalance A d' companyId kind = confirmedBalance A d companyId kind := by
  unfold confirmedBalance
  rw [h]

theorem netCommissionOwed_congr {A : Arithmetic} {d d' : Docs Doc}
    (h : Docs.collect pickAccountMovement d' = Docs.collect pickAccountMovement d) (companyId : Id) :
    netCommissionOwed A d' companyId = netCommissionOwed A d companyId := by
  unfold netCommissionOwed
  rw [confirmedBalance_congr h, confirmedBalance_congr h]

theorem assertUnderCeiling_ok {cfg : Settings} {env : Env} {v w : View Doc} {companyId : Id}
    (h : (assertUnderCeiling cfg companyId).run env v = .ok ((), w)) :
    netCommissionOwed cfg.arithmetic v.docs companyId ≤ ceilingOf cfg v.docs companyId := by
  obtain ⟨balance, u, hbalance, h⟩ := bind_ok h
  obtain ⟨charged, u₁, hcharged, hbalance⟩ := bind_ok hbalance
  obtain ⟨rfl, rfl⟩ := getConfirmedBalance_ok hcharged
  obtain ⟨paid, u₁, hpaid, hbalance⟩ := bind_ok hbalance
  obtain ⟨rfl, rfl⟩ := getConfirmedBalance_ok hpaid
  obtain ⟨rfl, rfl⟩ := pure_ok hbalance
  obtain ⟨ceiling, u', hceiling, h⟩ := bind_ok h
  obtain ⟨company, u₁, hcompany, hceiling⟩ := bind_ok hceiling
  obtain ⟨rfl, rfl⟩ := find_ok hcompany
  obtain ⟨rfl, rfl⟩ := pure_ok hceiling
  split_ifs at h with hexceeds
  · exact (throw_ok h).elim
  · exact Rat.not_lt.mp hexceeds

/-- An invoice on credit terms is issued to a company that the snapshot shows under
its ceiling, and no other invoice with it. -/
theorem Call.route_underCeiling {cfg : Settings} {env : Env} {v w : View Doc}
    {order : OrderDocument} {source : OrderStatus} {transportCompanyId : Id} {deliveryFee : ℚ}
    {actor : TransitionActor} {r : OrderDocument}
    (h : ((Call.route order source transportCompanyId deliveryFee actor).body cfg).run env v =
      .ok (r, w)) :
    ∃ o i x, v.find (Key.order order.id) = some o ∧ w.find (Key.invoice i) = some x ∧
      (∀ j, j ≠ i → w.find (Key.invoice j) = v.find (Key.invoice j)) ∧
      x.method = o.paymentMethod ∧ x.fuelCompanyId = o.fuelCompanyId ∧
      (o.paymentMethod = .deferred ∨ o.paymentMethod = .credit →
        netCommissionOwed cfg.arithmetic v.docs o.fuelCompanyId ≤
          ceilingOf cfg v.docs o.fuelCompanyId) := by
  obtain ⟨o, n, awaiting, invoice, u, ho, -, -, -, -, hawaiting, hframe, hissue⟩ :=
    routeToTransport_issues h
  obtain ⟨i, -, -, hself, hothers, -⟩ := issueInvoice_ok hissue
  obtain ⟨u₀, u₁, -, -, hcredit, hassert, -⟩ := issueInvoice_parts hissue
  obtain ⟨priceBreakdown, finalPrice, heq⟩ := Order.awaiting_eq cfg o order.id source
    transportCompanyId deliveryFee actor i (env.time n) (env.time (n + 1)) (env.time (n + 2))
    (env.time (n + 3))
  have horder := (hawaiting i).trans heq
  have hmethod := congrArg Order.paymentMethod horder
  have hcompany := congrArg Order.fuelCompanyId horder
  dsimp only at hmethod hcompany
  refine ⟨o, i, _, ho, hself, fun j hj => (hothers j hj).trans (hframe.lookup_eq (by simp)), hmethod,
    hcompany, fun hterms => ?_⟩
  have hunder := assertUnderCeiling_ok (hassert (hmethod ▸ hterms))
  have hchecked : SameOff (fun k => k = Key.order order.id) u.docs u₀.docs :=
    assertCredit_confined _ _ env _ _ _ hcredit
  have hsame : SameOff (fun k => k = Key.order order.id) v.docs u₀.docs :=
    IsTrans.trans _ _ _ hframe hchecked
  have howed : netCommissionOwed cfg.arithmetic u₀.docs awaiting.fuelCompanyId =
      netCommissionOwed cfg.arithmetic v.docs o.fuelCompanyId := by
    rw [hcompany]
    refine netCommissionOwed_congr (hsame.collect ?_) _
    rintro k x rfl
    rfl
  have hceiling : ceilingOf cfg u₀.docs awaiting.fuelCompanyId =
      ceilingOf cfg v.docs o.fuelCompanyId := by
    rw [ceilingOf, ceilingOf, hcompany, hsame.lookup_eq (by simp)]
  rwa [howed, hceiling] at hunder

/-- The company whose exposure a routed order extends. -/
def Call.exposes : Call → Option Id
  | .route order .. => if order.paymentMethod = .direct then none else some order.fuelCompanyId
  | _ => none

/-- The commit extends a company's exposure only from a snapshot that has all
commission charged to it, and a ceiling that is not higher than the present one. -/
def chargesSeen (cfg : Settings) (ev : Event Doc Call.Reply) : Bool :=
  match ev.label.exposes with
  | some companyId =>
      ((Docs.collect pickAccountMovement ev.before.docs).all fun m =>
        !(m.2.companyId = companyId && m.2.kind = .commissionCharged && m.2.reversalOfId = none) ||
          ev.base.accountMovement m.1 = some m.2) &&
        ceilingOf cfg ev.base.docs companyId ≤ ceilingOf cfg ev.before.docs companyId
  | none => true

/-- The commit issues an invoice on credit terms only to a company under its ceiling. -/
def IssuedUnderCeiling (cfg : Settings) (ev : Event Doc Call.Reply) : Prop :=
  ∀ i x, ev.before.invoice i = none → ev.after.invoice i = some x →
    x.method = .deferred ∨ x.method = .credit →
    netCommissionOwed cfg.arithmetic ev.before.docs x.fuelCompanyId ≤
      ceilingOf cfg ev.before.docs x.fuelCompanyId

section ceiling
variable {cfg : Settings} {since : Db} {ev : Event Doc Call.Reply}

/-- What a commit that issues an invoice on credit terms found. -/
theorem terms_commit (hev : ev.Sound (machine cfg)) (hholds : (evolution cfg since).Holds ev) {i : Id}
    {x : Invoice} (hnone : ev.before.invoice i = none) (hx : ev.after.invoice i = some x)
    (hterms : x.method = .deferred ∨ x.method = .credit) :
    ev.label.exposes = some x.fuelCompanyId ∧
      netCommissionOwed cfg.arithmetic ev.base.docs x.fuelCompanyId ≤
        ceilingOf cfg ev.base.docs x.fuelCompanyId := by
  obtain ⟨⟨order, source, transportCompanyId, deliveryFee, actor, hlabel⟩, hbase, hview⟩ :=
    issue_cases hev hholds.older hnone hx
  obtain ⟨r, hran⟩ := ran_as hev hlabel
  obtain ⟨o, i', x', ho, hx', hothers, hmethod, hcompany, hunder⟩ := Call.route_underCeiling hran
  have hii : i = i' := by
    by_contra hne
    exact absurd (hview.symm.trans ((hothers i hne).trans hbase)) (by simp)
  subst hii
  cases hview.symm.trans hx'
  -- The document the call was prepared from has the method and company of the order.
  obtain ⟨o', ho', hevolves⟩ := (hholds.pre.1 order (by rw [hlabel]; rfl)).earlier
  cases ho.symm.trans ho'
  rw [hmethod] at hterms
  refine ⟨?_, by rw [hcompany]; exact hunder hterms⟩
  have hterms' : order.paymentMethod ≠ .direct := by
    rw [← hevolves.paymentMethod]
    rcases hterms with hdeferred | hcredit <;> simp [*]
  rw [hlabel, hcompany, hevolves.fuelCompanyId]
  exact if_neg hterms'

theorem commit_underCeiling (hev : ev.Sound (machine cfg)) (hholds : (evolution cfg since).Holds ev)
    (hstable : AccountStable ev.base ev.before) (hbefore : AccountLedger ev.before)
    (hseen : chargesSeen cfg ev = true) : IssuedUnderCeiling cfg ev := by
  intro i x hnone hx hterms
  obtain ⟨hexposes, hunder⟩ := terms_commit hev hholds hnone hx hterms
  simp only [chargesSeen, hexposes, Bool.and_eq_true, List.all_eq_true, decide_eq_true_eq] at hseen
  obtain ⟨hall, hceiling⟩ := hseen
  have horiginals : OriginalsSeen ev.base ev.before x.fuelCompanyId .commissionCharged := by
    intro m y hy hcompany hkind horiginal
    have hmem := hall (m, y) (mem_collect_movement.mpr hy)
    simpa [hcompany, hkind, horiginal] using hmem
  calc netCommissionOwed cfg.arithmetic ev.before.docs x.fuelCompanyId
      ≤ netCommissionOwed cfg.arithmetic ev.base.docs x.fuelCompanyId := by
        apply cfg.arithmetic.monotone
        apply sub_le_sub (hstable.balance_le hbefore horiginals)
        exact hstable.balance_ge hbefore x.fuelCompanyId .paymentRecorded (by simp)
    _ ≤ ceilingOf cfg ev.base.docs x.fuelCompanyId := hunder
    _ ≤ ceilingOf cfg ev.before.docs x.fuelCompanyId := hceiling

end ceiling

/-- In every run whose issuing commits have seen the company's charges, no invoice
on credit terms is issued to a company above its ceiling. -/
theorem ceiling_held {cfg : Settings} {log : List (Event Doc Call.Reply)}
    {s : Sys Doc Call.Reply Refusal Answer}
    (h : Run (machine cfg) Store.empty (fun ev => chargesSeen cfg ev = true) log s) :
    ∀ ev ∈ log, IssuedUnderCeiling cfg ev := by
  intro ev hmem
  obtain ⟨hev, hseen, hholds, -, hbefore, hstable⟩ := (account_run h).2.mem hmem
  exact commit_underCeiling hev hholds hstable hbefore hseen

namespace Sample

/-- A company that may owe no commission, and two orders on its terms. -/
def noExposure : List (Act Request) :=
  opening ++ serve (.administer (.addCommissionTerm 70 commissionTerm)) 10 2 ++
    serve (.administer (.putCompany 10 { fuelCompany with commissionCeiling := some 0 })) 11 2 ++
    serve (.create client (order .deferred)) 12 6 100 ++
    serve (.create client (order .deferred)) 13 6 101

def oneExposed : List (Act Request) := noExposure ++ serve (.approve fuelAdmin 100 none none) 14 13 200

/-- Both orders are routed from snapshots in which nothing is owed yet. -/
def bothExposed : List (Act Request) :=
  noExposure ++ serve (.approve fuelAdmin 100 none none) 14 9 ++
    serve (.approve fuelAdmin 101 none none) 15 9 ++ [Act.step 14 true 200, .step 15 true 210]

end Sample

theorem ceiling_held_oneExposed :
    ∃ log s ev x, Run (machine Sample.cfg) Store.empty
        (fun ev => chargesSeen Sample.cfg ev = true) log s ∧ ev ∈ log ∧
      ev.after.invoice 200 = some x ∧ x.method = .deferred ∧
      netCommissionOwed .doubles ev.before.docs x.fuelCompanyId ≤
        ceilingOf Sample.cfg ev.before.docs x.fuelCompanyId := by
  obtain ⟨log, s, hrun, htest⟩ := exists_run (machine Sample.cfg) Store.empty
    (fun ev => chargesSeen Sample.cfg ev = true) Sample.oneExposed
    (fun log _ => log.any fun ev => ev.before.invoice 200 = none &&
      (ev.after.invoice 200).any fun x => x.method = .deferred) (by decide +kernel)
  obtain ⟨ev, hev, hissued⟩ := List.any_eq_true.mp htest
  simp only [Bool.and_eq_true, decide_eq_true_eq] at hissued
  obtain ⟨x, hx, hmethod⟩ := (Option.any_eq_true _ _).mp hissued.2
  have hdeferred : x.method = .deferred := of_decide_eq_true hmethod
  exact ⟨log, s, ev, x, hrun, hev, hx, hdeferred,
    ceiling_held hrun ev hev 200 x hissued.1 hx (Or.inl hdeferred)⟩

theorem ceiling_held_bothExposed :
    ¬ ∀ (log : List (Event Doc Call.Reply)) (s : Sys Doc Call.Reply Refusal Answer),
      Run (machine Sample.cfg) Store.empty (fun _ => True) log s →
        ∀ ev ∈ log, IssuedUnderCeiling Sample.cfg ev := by
  intro hclaim
  obtain ⟨log, s, hrun, htest⟩ := exists_run (machine Sample.cfg) Store.empty (fun _ => True)
    Sample.bothExposed
    (fun log _ => log.any fun ev => ev.before.invoice 210 = none &&
      ((ev.after.invoice 210).any fun x => x.method = .deferred && x.fuelCompanyId = 10) &&
      decide (ceilingOf Sample.cfg ev.before.docs 10 < netCommissionOwed .doubles ev.before.docs 10))
    (by decide +kernel)
  obtain ⟨ev, hev, hissued⟩ := List.any_eq_true.mp htest
  simp only [Bool.and_eq_true, decide_eq_true_eq] at hissued
  obtain ⟨⟨hnone, hinvoice⟩, hexceeds⟩ := hissued
  obtain ⟨x, hx, hterms⟩ := (Option.any_eq_true _ _).mp hinvoice
  simp only [Bool.and_eq_true, decide_eq_true_eq] at hterms
  have hheld := hclaim log s hrun ev hev 210 x hnone hx (Or.inl hterms.1)
  rw [hterms.2] at hheld
  exact absurd hexceeds (not_lt.mpr hheld)

/-! ### Cashback payouts -/

/-- The commit pays a company out only from a snapshot that has all its payouts, and no more
than that leaves of what it was credited, before the difference is rounded. -/
def payoutsCovered (cfg : Settings) (ev : Event Doc Call.Reply) : Bool :=
  match ev.label with
  | .recordCashbackPayout companyId amount _ _ =>
      ((Docs.collect pickAccountMovement ev.before.docs).all fun m =>
        !(m.2.companyId = companyId && m.2.kind = .cashbackPaidOut) ||
          ev.base.accountMovement m.1 = some m.2) &&
        confirmedBalance cfg.arithmetic ev.base.docs companyId .cashbackPaidOut + amount ≤
          confirmedBalance cfg.arithmetic ev.base.docs companyId .cashbackCredited
  | _ => true

/-- No company has been paid out more cashback than it was credited. -/
def NeverOverpaid (A : Arithmetic) (s : Db) : Prop :=
  ∀ companyId, confirmedBalance A s.docs companyId .cashbackPaidOut ≤
    confirmedBalance A s.docs companyId .cashbackCredited

section payouts
variable {cfg : Settings} {since : Db} {ev : Event Doc Call.Reply}
variable {created : List (Id × AccountMovement)}

/-- A payout that is added is the one that its call recorded. -/
theorem AccountCommit.adds_payout {A : Arithmetic} (h : AccountCommit A ev created)
    (hafter : AccountLedger ev.after) {m : Id} {y : AccountMovement} (hnew : (m, y) ∈ created)
    (hkind : y.kind = .cashbackPaidOut) :
    created = [(m, y)] ∧ ∃ reference confirmedBy,
      ev.label = .recordCashbackPayout y.companyId y.amount reference confirmedBy := by
  have hstep := h.step
  generalize ev.label = c at hstep ⊢
  cases hstep with
  | payOut hle =>
      cases List.mem_singleton.mp hnew
      exact ⟨rfl, _, _, rfl⟩
  | reverse hreverses =>
      obtain ⟨-, -, m', y', -, -, -, -, -, heq⟩ := hreverses.each _ hnew
      have hreversal : y.reversalOfId = some m' := congrArg AccountMovement.reversalOfId heq
      have hcommission := hafter.reversal_kind (h.stored _ hnew) (by simp [hreversal])
      cases hkind.symm.trans hcommission
  | nothing => cases hnew
  | _ =>
      cases List.mem_singleton.mp hnew
      cases hkind

/-- A payout adds its own amount, and no other commit adds to what was paid out. -/
theorem commit_paidOut {A : Arithmetic} (hcommit : AccountCommit A ev created)
    (hafter : AccountLedger ev.after) (hstable : AccountStable ev.before ev.after)
    (companyId : Id) :
    confirmedBalance A ev.after.docs companyId .cashbackPaidOut ≤
        confirmedBalance A ev.before.docs companyId .cashbackPaidOut ∨
      ∃ amount reference confirmedBy,
        ev.label = .recordCashbackPayout companyId amount reference confirmedBy ∧
        confirmedBalance A ev.after.docs companyId .cashbackPaidOut ≤
          A.round (confirmedBalance A ev.before.docs companyId .cashbackPaidOut + amount) := by
  rw [confirmedBalance_eq, confirmedBalance_eq]
  by_cases hadds : ∃ m y, (m, y) ∈ created ∧ y.companyId = companyId ∧ y.kind = .cashbackPaidOut
  · right
    obtain ⟨m, y, hnew, rfl, hkind⟩ := hadds
    obtain ⟨hcreated, reference, confirmedBy, hlabel⟩ := hcommit.adds_payout hafter hnew hkind
    have hstored : ev.after.docs.lookup (Key.accountMovement m) = some y := hcommit.stored _ hnew
    have hpos := hafter.amount_pos (hcommit.stored _ hnew)
    refine ⟨y.amount, reference, confirmedBy, hlabel, ?_⟩
    have habsent : Key.accountMovement m ∉ ev.before.docs :=
      AList.lookup_eq_none.mp (hcommit.fresh _ hnew)
    refine Docs.sum_le_add hstable.keys hpos.le (fun k hk => ?_) habsent ?_
    · refine (hcommit.weight_kept hstable (by simp) fun m' y' hnew' _ _ => ?_).le
      rw [hcreated] at hnew'
      cases List.mem_singleton.mp hnew'
      exact hk
    · rw [Docs.weight_some hstored]
      dsimp only [movementWeight]
      split_ifs <;> linarith
  · left
    refine Docs.sum_le_sum hstable.keys fun k => ?_
    refine (hcommit.weight_kept hstable (by simp) fun m y hnew hcompany hkind => ?_).le
    exact absurd ⟨m, y, hnew, hcompany, hkind⟩ hadds

theorem commit_neverOverpaid (hev : ev.Sound (machine cfg)) (hholds : (evolution cfg since).Holds ev)
    (hbase : AccountLedger ev.base) (hbefore : AccountLedger ev.before)
    (hstable : AccountStable ev.base ev.before) (hcovered : payoutsCovered cfg ev = true)
    (h : NeverOverpaid cfg.arithmetic ev.before) : NeverOverpaid cfg.arithmetic ev.after := by
  intro companyId
  obtain ⟨created, hcommit⟩ := account_cases hev hstable hbase
  have hafter := commit_accountLedger hev hholds hstable hbase hbefore
  have hstable' := commit_accountStable hev hholds hstable hbase hbefore
  have hcredited : confirmedBalance cfg.arithmetic ev.before.docs companyId .cashbackCredited ≤
      confirmedBalance cfg.arithmetic ev.after.docs companyId .cashbackCredited :=
    hstable'.balance_ge hafter companyId .cashbackCredited (by simp)
  rcases commit_paidOut hcommit hafter hstable' companyId with hpaid |
    ⟨amount, reference, confirmedBy, hlabel, hpaid⟩
  · exact hpaid.trans ((h companyId).trans hcredited)
  · simp only [payoutsCovered, hlabel, Bool.and_eq_true, List.all_eq_true,
      decide_eq_true_eq] at hcovered
    obtain ⟨hall, hcovers⟩ := hcovered
    have horiginals : OriginalsSeen ev.base ev.before companyId .cashbackPaidOut := by
      intro m y hy hcompany hkind _
      have hmem := hall (m, y) (mem_collect_movement.mpr hy)
      simpa [hcompany, hkind] using hmem
    -- The snapshot's own figures bound the new one, however it is rounded.
    calc confirmedBalance cfg.arithmetic ev.after.docs companyId .cashbackPaidOut
        ≤ cfg.arithmetic.round
            (confirmedBalance cfg.arithmetic ev.before.docs companyId .cashbackPaidOut + amount) :=
          hpaid
      _ ≤ cfg.arithmetic.round
            (confirmedBalance cfg.arithmetic ev.base.docs companyId .cashbackPaidOut + amount) := by
          apply cfg.arithmetic.monotone
          exact add_le_add_left (hstable.balance_le hbefore horiginals) amount
      _ ≤ confirmedBalance cfg.arithmetic ev.base.docs companyId .cashbackCredited := by
          refine Arithmetic.round_le ?_ hcovers
          rw [confirmedBalance_eq]
          exact Docs.number_sum
      _ ≤ confirmedBalance cfg.arithmetic ev.before.docs companyId .cashbackCredited :=
          hstable.balance_ge hbefore companyId .cashbackCredited (by simp)
      _ ≤ confirmedBalance cfg.arithmetic ev.after.docs companyId .cashbackCredited := hcredited

end payouts

namespace Sample

def superAdmin : AuthenticatedUser := ⟨23, .superAdmin, none⟩

/-- The cashback that the company is owed is paid out. -/
def paidOut : List (Act Request) :=
  settledAndVoided ++
    serve (.recordCashbackPayout superAdmin 10 (Json.nearest (989 / 20)) 1) 18 2 400

/-- It is paid out twice, under two references, from one snapshot. -/
def paidOutTwice : List (Act Request) :=
  settledAndVoided ++ serve (.recordCashbackPayout superAdmin 10 (Json.nearest (989 / 20)) 1) 18 1 ++
    serve (.recordCashbackPayout superAdmin 10 (Json.nearest (989 / 20)) 2) 19 1 ++
    [Act.step 18 true 400, .step 19 true 401]

end Sample

end CiroFuel
