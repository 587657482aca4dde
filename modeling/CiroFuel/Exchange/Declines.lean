import CiroFuel.Exchange.Answers
import CiroFuel.Exchange.Blindness

/-!
# Sealed declines

The raiser of an offer is told how many companies declined it and not which. That
is decided when the detail is read, by the outcome of the stored proposal, and an
award overwrites the outcome of every other proposal in its snapshot. As long as no
award does that to a decline, nothing of a company that declined is shown.
-/
namespace CiroFuel.Exchange
open Snapshot Discipline Query

/-- No award finds a decline among the proposals it resolves. -/
def sparesDeclines (ev : Event Doc Call.Reply) : Bool :=
  match ev.label with
  | .award offer _ _ _ _ => (proposalsOf ev.base.docs).all fun p =>
      !(decide (p.offerId = offer.id) && decide (p.outcome = .declined))
  | _ => true

/-- Every company that a detail names. -/
def OfferDetail.companyIds (d : OfferDetail) : List Id :=
  d.summary.raisedByCompanyId :: (d.summary.agreed.bind fun a => a.awardedCompanyId).toList ++
    (d.proposals.getD [] ++ d.myProposal.toList).filterMap fun p => p.proposingCompanyId

/-- Every answer of the log is stored once and is a decline if it was made as one, and
nothing else is stored. -/
structure Sealed (log : List (Event Doc Call.Reply)) (s : Store Doc) : Prop where
  nodup : ((answers log).map fun r => r.id).Nodup
  stored : ∀ r ∈ answers log, ∃ p, s.proposal r.id = some p ∧
    p.terms = r.toExchangeProposal.terms ∧ (p.outcome = .declined ↔ r.outcome = .declined)
  answered : ∀ pid p, s.proposal pid = some p → ∃ r ∈ answers log, r.id = pid

/-! ### The stored declines -/

section commits
variable {ev : Event Doc Call.Reply} {log : List (Event Doc Call.Reply)}

theorem decline_kept (hev : ev.Sound machine) (hholds : trading.Holds ev)
    (hspares : sparesDeclines ev = true) {pid : Id} {p : ExchangeProposal}
    (hp : ev.before.proposal pid = some p) (hdeclined : p.outcome = .declined) :
    ev.after.proposal pid = some p := by
  rcases hev.cases hholds.older (Key.proposal pid) with ⟨hbase, -⟩ | ⟨-, hsame, -⟩
  · have hmem : p.withId pid ∈ proposalsOf ev.base.docs := mem_proposalsOf.mpr (hbase.trans hp)
    have hstep := proposal_step hev hholds.older pid
    rw [hp] at hstep
    have hspared : ∀ {offer proposal acting userId now},
        ev.label = .award offer proposal acting userId now → p.offerId ≠ offer.id := by
      intro offer proposal acting userId now hlabel hoffer
      simp only [sparesDeclines, hlabel, List.all_eq_true] at hspares
      have hcontra := hspares _ hmem
      simp [ExchangeProposal.withId, hoffer, hdeclined] at hcontra
    generalize hafter : ev.after.proposal pid = x at hstep
    cases hstep with
    | same => rfl
    | won hlabel hwinner =>
        subst hwinner
        exact absurd (named_offerId hholds hlabel hp) (hspared hlabel)
    | lost hlabel _ hoffer => exact absurd hoffer (hspared hlabel)
  · exact hsame.trans hp

/-- A commit that spares declines neither makes one nor unmakes one. -/
theorem decline_iff (hev : ev.Sound machine) (hholds : trading.Holds ev)
    (hspares : sparesDeclines ev = true) {pid : Id} {p : ExchangeProposal}
    (hp : ev.before.proposal pid = some p) :
    ∃ p', ev.after.proposal pid = some p' ∧ p'.terms = p.terms ∧
      (p'.outcome = .declined ↔ p.outcome = .declined) := by
  by_cases hdeclined : p.outcome = .declined
  · exact ⟨p, decline_kept hev hholds hspares hp hdeclined, rfl, Iff.rfl⟩
  · have hstep := proposal_step hev hholds.older pid
    rw [hp] at hstep
    obtain ⟨p', hp', hterms⟩ := hstep.onward
    refine ⟨p', hp', hterms, ?_⟩
    rw [hp'] at hstep
    cases hstep with
    | same => exact Iff.rfl
    | won => exact ⟨fun h => (by cases h), fun h => absurd h hdeclined⟩
    | lost => exact ⟨fun h => (by cases h), fun h => absurd h hdeclined⟩

theorem commit_sealed (hev : ev.Sound machine) (hholds : trading.Holds ev)
    (hspares : sparesDeclines ev = true) (h : Sealed log ev.before) :
    Sealed (ev :: log) ev.after := by
  have hkept : ∀ r ∈ answers log, ∃ p, ev.after.proposal r.id = some p ∧
      p.terms = r.toExchangeProposal.terms ∧ (p.outcome = .declined ↔ r.outcome = .declined) := by
    intro r hr
    obtain ⟨p, hp, hterms, hout⟩ := h.stored r hr
    obtain ⟨p', hp', hterms', hout'⟩ := decline_iff hev hholds hspares hp
    exact ⟨p', hp', hterms'.trans hterms, hout'.trans hout⟩
  cases hanswer : ev.label.answer ev.reply with
  | none =>
      have hlog : answers (ev :: log) = answers log := List.filterMap_cons_none hanswer
      constructor
      · rw [hlog]
        exact h.nodup
      · rw [hlog]
        exact hkept
      · intro pid p hp
        obtain ⟨p₀, hp₀⟩ := unanswered_commit hev hholds.older hanswer hp
        rw [hlog]
        exact h.answered pid p₀ hp₀
  | some r =>
      obtain ⟨_, _, _, _, _, -, -, hnone, hsome, hframe⟩ := answer_commit hev hholds.older hanswer
      have hlog : answers (ev :: log) = r :: answers log := List.filterMap_cons_some hanswer
      constructor
      · rw [hlog, List.map_cons, List.nodup_cons]
        refine ⟨?_, h.nodup⟩
        -- The identifier was free, and those of the earlier answers are taken.
        intro hmem
        obtain ⟨r', hr', hid⟩ := List.mem_map.mp hmem
        obtain ⟨p, hp, -⟩ := h.stored r' hr'
        rw [hid, hnone] at hp
        cases hp
      · rw [hlog, List.forall_mem_cons]
        exact ⟨⟨_, hsome, rfl, Iff.rfl⟩, hkept⟩
      · intro pid p hp
        rw [hlog]
        by_cases hpid : pid = r.id
        · exact ⟨r, List.mem_cons_self, hpid.symm⟩
        · rw [hframe pid hpid] at hp
          obtain ⟨r', hr', hid⟩ := h.answered pid p hp
          exact ⟨r', List.mem_cons_of_mem _ hr', hid⟩

end commits

section stored
variable {log : List (Event Doc Call.Reply)} {s : Store Doc}

/-- What is counted of the stored proposals can be counted of the answers. -/
theorem Sealed.count (h : Sealed log s) {f g : ExchangeProposalDocument → Bool}
    (hfg : ∀ r ∈ answers log, ∀ p, s.proposal r.id = some p → f (p.withId r.id) = g r) :
    (proposalsOf s.docs).countP f = (answers log).countP g := by
  let count : Id → Bool := fun pid => (s.proposal pid).any fun p => f (p.withId pid)
  have hproposals : ∀ p ∈ proposalsOf s.docs, count p.id = f p := by
    intro p hp
    have hfind : s.proposal p.id = some p.toExchangeProposal := mem_proposalsOf.mp hp
    simp only [count, hfind, Option.any_some]
    rfl
  have hanswers : ∀ r ∈ answers log, count r.id = g r := by
    intro r hr
    obtain ⟨p, hp, -⟩ := h.stored r hr
    simp only [count, hp, Option.any_some]
    exact hfg r hr p hp
  have hperm :
      List.Perm ((proposalsOf s.docs).map fun p => p.id) ((answers log).map fun r => r.id) := by
    rw [List.perm_ext_iff_of_nodup (proposalsOf_nodup _) h.nodup]
    intro pid
    simp only [List.mem_map]
    constructor
    · rintro ⟨p, hp, rfl⟩
      exact h.answered p.id _ (mem_proposalsOf.mp hp)
    · rintro ⟨r, hr, rfl⟩
      obtain ⟨p, hp, -⟩ := h.stored r hr
      exact ⟨p.withId r.id, mem_proposalsOf.mpr hp, rfl⟩
  have hcount := hperm.countP_eq count
  rw [List.countP_map, List.countP_map] at hcount
  calc (proposalsOf s.docs).countP f
      = (proposalsOf s.docs).countP (count ∘ fun p => p.id) :=
        List.countP_congr fun p hp => by rw [Function.comp_apply, hproposals p hp]
    _ = (answers log).countP (count ∘ fun r => r.id) := hcount
    _ = (answers log).countP g :=
        List.countP_congr fun r hr => by rw [Function.comp_apply, hanswers r hr]

/-- A company answers an offer once. -/
theorem one_answer {pid pid' : Id} {p p' : ExchangeProposal} (hp : s.proposal pid = some p)
    (hp' : s.proposal pid' = some p') (hoffer : p.offerId = p'.offerId)
    (hauthor : p.proposingCompanyId = p'.proposingCompanyId) : pid = pid' := by
  have hentry : IndexEntry.answer p.offerId p.proposingCompanyId ∈
      Indexed.entries (D := Doc) (Key.proposal pid') p' := by
    rw [hoffer, hauthor]
    exact List.mem_singleton_self _
  exact Key.proposal.inj (s.unique _ _ p p' _ hp hp' (List.mem_singleton_self _) hentry)

end stored

/-! ### The detail for the raiser -/

/-- An offer names a winner only once it is awarded. -/
def Named (s : Store Doc) : Prop :=
  ∀ id o, s.offer id = some o → o.state ≠ .awarded → o.awardedCompanyId = none

theorem commit_named {ev : Event Doc Call.Reply} (hev : ev.Sound machine)
    (holder : Store.Older ev.base ev.before) (h : Named ev.before) : Named ev.after := by
  intro id o ho hstate
  have hstep := offer_step hev holder id
  rw [ho] at hstep
  generalize hold : ev.before.offer id = x at hstep
  cases hstep with
  | same => exact h id o hold hstate
  | created => rfl
  | awarded => exact absurd rfl hstate
  | withdrawn _ _ hopen =>
      have hnone := h id _ hold
      rw [hopen] at hnone
      exact hnone (by decide)

theorem named_run {P : Event Doc Call.Reply → Prop} {log : List (Event Doc Call.Reply)}
    {s : Sys Doc Call.Reply HttpError Answer} (h : Run machine Store.empty P log s) :
    Named s.store ∧ ∀ ev ∈ log, Named ev.before := by
  obtain ⟨hs, hrun⟩ := (traded h).invariant Named (fun id o ho => by cases ho)
    fun ev hev hP _ hbefore => commit_named hev hP.2.older hbefore
  exact ⟨hs, fun ev hmem => (hrun.mem hmem).2.2.2.1⟩

theorem mem_of_mapM_ok {ε α β : Type} {f : α → Except ε β} {l : List α} {bs : List β}
    (h : l.mapM f = .ok bs) : ∀ b ∈ bs, ∃ a ∈ l, f a = .ok b := by
  induction l generalizing bs with
  | nil =>
      cases h
      intro b hb
      cases hb
  | cons a l ih =>
      rw [List.mapM_cons] at h
      obtain ⟨b, hb, h⟩ := except_bind_ok h
      obtain ⟨bs', hbs, h⟩ := except_bind_ok h
      cases h
      intro b' hb'
      rcases List.mem_cons.mp hb' with rfl | htail
      · exact ⟨a, List.mem_cons_self, hb⟩
      · obtain ⟨a', ha', hof⟩ := ih hbs b' htail
        exact ⟨a', List.mem_cons_of_mem _ ha', hof⟩

section detail
variable {ctx : RequestScope} {proposals : List ExchangeProposalDocument}
variable {o : ExchangeOfferDocument}

/-- The raiser reads all proposals on its offer. -/
theorem findProposals_raised (hctx : ActsFor ctx o.raisedByCompanyId)
    (hraised : ∀ p ∈ proposals, p.offerId = o.id → p.offerRaisedByCompanyId = o.raisedByCompanyId) :
    findProposals ctx proposals (.object [ofOffer o.id]) =
      .ok (proposals.filter fun p => decide (p.offerId = o.id)) := by
  obtain ⟨scope, hscope, hholds, hnames⟩ := hctx.proposalScope
  simp only [findProposals, hscope]
  refine congrArg Except.ok (List.filter_congr fun p hp => ?_)
  rw [merge_of_only_or (Conditions.get_object (by simp [ofOffer])) hnames,
    Conditions.holds_object (by simp), hholds]
  simp only [ofOffer, List.all_cons, List.all_nil, Bool.and_true]
  by_cases hid : p.offerId = o.id
  · simp [hid, ExchangeProposal.isFor, hraised p hp hid]
  · simp [hid]

/-- The detail for the raiser, from the proposals on the offer. -/
def raiserDetail (companies : List (Id × CompanyRecord)) (o : ExchangeOfferDocument)
    (found : List ExchangeProposalDocument) : Except String OfferDetail := do
  let raiserCompany ← findCompany companies o.raisedByCompanyId
  let shapes ← found.mapM (shapeForRaiser companies o)
  return {
    summary := toOfferSummary o true
    raisedByCompanyName := raiserCompany.name
    proposals := some shapes
    proposalCount := some (found.countP fun p => decide (p.outcome ≠ .declined))
    declineCount := some (found.countP fun p => decide (p.outcome = .declined)) }

theorem buildDetail_raiser (hctx : ActsFor ctx o.raisedByCompanyId)
    (hraised : ∀ p ∈ proposals, p.offerId = o.id → p.offerRaisedByCompanyId = o.raisedByCompanyId)
    (companies : List (Id × CompanyRecord)) :
    buildDetail ctx proposals companies o (some o.raisedByCompanyId) .fuelCompanyAdmin =
      raiserDetail companies o (proposals.filter fun p => decide (p.offerId = o.id)) := by
  unfold buildDetail raiserDetail
  cases findCompany companies o.raisedByCompanyId with
  | error e => rfl
  | ok company =>
      simp only [findProposals_raised hctx hraised]
      rfl

theorem shape_names {companies : List (Id × CompanyRecord)} {q : ExchangeProposalDocument}
    {shape : ProposalShape} (h : shapeForRaiser companies o q = .ok shape) {c : Id}
    (hc : shape.proposingCompanyId = some c) :
    q.outcome ≠ .declined ∧ q.proposingCompanyId = c := by
  unfold shapeForRaiser at h
  split_ifs at h with hdeclined
  · cases h
    cases hc
  · obtain ⟨company, -, h⟩ := except_bind_ok h
    cases h
    exact ⟨hdeclined, Option.some.inj hc⟩

theorem raiserDetail_counts {found : List ExchangeProposalDocument}
    {companies : List (Id × CompanyRecord)} {d : OfferDetail}
    (h : raiserDetail companies o found = .ok d) :
    d.declineCount = some (found.countP fun p => decide (p.outcome = .declined)) ∧
      d.proposalCount = some (found.countP fun p => decide (p.outcome ≠ .declined)) := by
  unfold raiserDetail at h
  obtain ⟨company, -, h⟩ := except_bind_ok h
  obtain ⟨shapes, -, h⟩ := except_bind_ok h
  cases h
  exact ⟨rfl, rfl⟩

/-- Nothing is shown of a company that has neither raised the offer nor won it nor
answered it with a price. -/
theorem raiserDetail_hides {found : List ExchangeProposalDocument}
    {companies : List (Id × CompanyRecord)} {d : OfferDetail} {c : Id}
    (hraiser : o.raisedByCompanyId ≠ c) (hwinner : o.awardedCompanyId ≠ some c)
    (hothers : ∀ q ∈ found, q.outcome ≠ .declined → q.proposingCompanyId ≠ c)
    (h : raiserDetail companies o found = .ok d) :
    c ∉ d.companyIds ∧ ∀ companies' : List (Id × CompanyRecord),
      (∀ c', c' ≠ c → companies'.lookup c' = companies.lookup c') →
      raiserDetail companies' o found = .ok d := by
  constructor
  · unfold raiserDetail at h
    obtain ⟨company, -, h⟩ := except_bind_ok h
    obtain ⟨shapes, hshapes, h⟩ := except_bind_ok h
    cases h
    intro hmem
    rcases List.mem_cons.mp hmem with hc | hrest
    · exact hraiser hc.symm
    · rcases List.mem_append.mp hrest with hwon | hshown
      · exact hwinner (Option.mem_toList.mp hwon)
      · obtain ⟨shape, hshape, hc⟩ := List.mem_filterMap.mp hshown
        rw [Option.getD_some, Option.toList_none, List.append_nil] at hshape
        obtain ⟨q, hq, hof⟩ := mem_of_mapM_ok hshapes shape hshape
        obtain ⟨hpriced, hauthor⟩ := shape_names hof hc
        exact hothers q hq hpriced hauthor
  · intro companies' hagree
    have hfind : ∀ {c'}, c' ≠ c → findCompany companies' c' = findCompany companies c' := by
      intro c' hne
      rw [findCompany, findCompany, hagree c' hne]
    have hshapes : found.mapM (shapeForRaiser companies' o) =
        found.mapM (shapeForRaiser companies o) := by
      apply mapM_congr
      intro q hq
      unfold shapeForRaiser
      split_ifs with hdeclined
      · rfl
      · rw [hfind (hothers q hq hdeclined)]
    rw [← h, raiserDetail, raiserDetail, hfind hraiser, hshapes]

end detail

/-! ### Declines over a run -/

/-- The offer as it stood in some state of the run. -/
def Stood (log : List (Event Doc Call.Reply)) (s : Store Doc) (id : Id)
    (o : ExchangeOffer) : Prop :=
  s.offer id = some o ∨ ∃ ev ∈ log, ev.before.offer id = some o

section runs
variable {P : Event Doc Call.Reply → Prop} {log : List (Event Doc Call.Reply)}
variable {s : Sys Doc Call.Reply HttpError Answer} {id : Id}

theorem sealed_run (h : Run machine Store.empty (fun ev => sparesDeclines ev = true) log s) :
    Sealed log s.store := by
  refine (traded h).logged ?_ fun log ev hev hP hbefore => commit_sealed hev hP.2 hP.1 hbefore
  constructor
  · exact List.nodup_nil
  · intro r hr
    cases hr
  · intro pid p hp
    cases hp

/-- The company an offer names as its winner has answered it with a price. -/
theorem winner_priced (h : Run machine Store.empty P log s) {o : ExchangeOffer}
    (ho : Stood log s.store id o) :
    (∃ o', s.store.offer id = some o' ∧ o'.raisedByCompanyId = o.raisedByCompanyId) ∧
    ∀ c, o.awardedCompanyId = some c → ∃ pid p, s.store.proposal pid = some p ∧ p.offerId = id ∧
      p.proposingCompanyId = c ∧ p.unitPrice ≠ none := by
  obtain ⟨hdecided, hdecidedBefore⟩ := decided_run (untouched_empty id) h
  obtain ⟨hnamed, hnamedBefore⟩ := named_run h
  obtain ⟨t, ht, honward, hdec, hname⟩ : ∃ t : Store Doc, t.offer id = some o ∧
      Onward t s.store ∧ Decided id t ∧ Named t := by
    rcases ho with ho | ⟨ev, hmem, ho⟩
    · exact ⟨s.store, ho, Onward.refl _, hdecided, hnamed⟩
    · exact ⟨ev.before, ho, onward_of_mem h ev hmem, hdecidedBefore ev hmem, hnamedBefore ev hmem⟩
  constructor
  · obtain ⟨o', ho', hterms, -⟩ := honward.offers id o ht
    exact ⟨o', ho', terms_raisedByCompanyId hterms⟩
  · intro c hc
    have hstate : o.state = .awarded := by
      by_contra hstate
      rw [hname id o ht hstate] at hc
      cases hc
    obtain ⟨pid, p, hp, hid, -, hto, -⟩ := hdec.awarded o ht hstate
    obtain ⟨p', hp', hterms⟩ := honward.proposals pid p hp
    refine ⟨pid, p', hp', (terms_offerId hterms).trans hid, ?_, ?_⟩
    · rw [terms_proposingCompanyId hterms]
      exact Option.some.inj (hto.company.symm.trans hc)
    · obtain ⟨price, hprice, -⟩ := hto.price
      rw [terms_unitPrice hterms, hprice]
      exact Option.some_ne_none price

/-- A company that declined has neither raised the offer nor won it nor answered it
with a price. -/
theorem decliner_apart (h : Run machine Store.empty (fun ev => sparesDeclines ev = true) log s)
    {o : ExchangeOffer} (ho : Stood log s.store id o) {r : ExchangeProposalDocument}
    (hr : r ∈ answers log) (hid : r.offerId = id) (hdeclined : r.outcome = .declined) :
    o.raisedByCompanyId ≠ r.proposingCompanyId ∧ o.awardedCompanyId ≠ some r.proposingCompanyId ∧
      ∀ q ∈ (proposalsOf s.store.docs).filter fun p => decide (p.offerId = id),
        q.outcome ≠ .declined → q.proposingCompanyId ≠ r.proposingCompanyId := by
  obtain ⟨p, hp, hterms, hout⟩ := (sealed_run h).stored r hr
  obtain ⟨⟨o', ho', hraiser⟩, hwinner⟩ := winner_priced h ho
  have hpid : p.offerId = id := (terms_offerId hterms).trans hid
  rw [← terms_proposingCompanyId hterms]
  refine ⟨?_, ?_, ?_⟩
  · obtain ⟨hsourced, -⟩ := sourced_run (sourced_empty id) h
    obtain ⟨o₁, ho₁, -, hauthor⟩ := hsourced r.id p hp hpid
    cases ho'.symm.trans ho₁
    exact fun heq => hauthor (heq.symm.trans hraiser.symm)
  · intro hc
    obtain ⟨pid, q, hq, hqid, hauthor, hpriced⟩ := hwinner _ hc
    obtain rfl := one_answer hq hp (hqid.trans hpid.symm) hauthor
    cases hq.symm.trans hp
    obtain ⟨hdecided, -⟩ := decided_run (untouched_empty id) h
    exact hpriced (hdecided.declines r.id p hp hpid (hout.mpr hdeclined))
  · intro q hq hpriced hauthor
    obtain ⟨hmem, hqid⟩ := List.mem_filter.mp hq
    have hfound := mem_proposalsOf.mp hmem
    have hsame := one_answer hfound hp ((of_decide_eq_true hqid).trans hpid.symm) hauthor
    rw [hsame] at hfound
    have heq : q.toExchangeProposal = p := Option.some.inj (hfound.symm.trans hp)
    rw [heq] at hpriced
    exact hpriced (hout.mpr hdeclined)

/-- If no award finds a decline to resolve, declines stay declines. The raiser is shown
no identifier and no record of a company that declined, and how many there are. -/
theorem declines_sealed
    (h : Run machine Store.empty (fun ev => sparesDeclines ev = true) log s) :
    (∀ r ∈ answers log, r.outcome = .declined →
      ∃ p, s.store.proposal r.id = some p ∧ p.outcome = .declined) ∧
    ∀ id o, Stood log s.store id o → ∀ ctx, ActsFor ctx o.raisedByCompanyId →
      ∀ (companies : List (Id × CompanyRecord)) (d : OfferDetail),
      buildDetail ctx (proposalsOf s.store.docs) companies (o.withId id) (some o.raisedByCompanyId)
        .fuelCompanyAdmin = .ok d →
      (∀ r ∈ answers log, r.offerId = id → r.outcome = .declined →
        r.proposingCompanyId ∉ d.companyIds ∧
        ∀ companies' : List (Id × CompanyRecord),
          (∀ c, c ≠ r.proposingCompanyId → companies'.lookup c = companies.lookup c) →
          buildDetail ctx (proposalsOf s.store.docs) companies' (o.withId id)
            (some o.raisedByCompanyId) .fuelCompanyAdmin = .ok d) ∧
      d.declineCount = some ((answers log).countP fun r =>
        decide (r.outcome = .declined) && decide (r.offerId = id)) ∧
      d.proposalCount = some ((answers log).countP fun r =>
        decide (r.outcome ≠ .declined) && decide (r.offerId = id)) := by
  have hsealed := sealed_run h
  refine ⟨fun r hr hdeclined => ?_, fun id o ho ctx hctx companies d hd => ?_⟩
  · obtain ⟨p, hp, -, hout⟩ := hsealed.stored r hr
    exact ⟨p, hp, hout.mpr hdeclined⟩
  · obtain ⟨⟨o', ho', hraiser⟩, hwinner⟩ := winner_priced h ho
    obtain ⟨hsourced, -⟩ := sourced_run (sourced_empty id) h
    have hraised : ∀ p ∈ proposalsOf s.store.docs, p.offerId = (o.withId id).id →
        p.offerRaisedByCompanyId = (o.withId id).raisedByCompanyId := by
      intro p hp hid
      obtain ⟨o₁, ho₁, hfrom, -⟩ := hsourced p.id _ (mem_proposalsOf.mp hp) hid
      cases ho'.symm.trans ho₁
      exact hfrom.trans hraiser
    have hdetail := buildDetail_raiser (o := o.withId id) hctx hraised
    have hshown := (hdetail companies).symm.trans hd
    obtain ⟨hdeclines, hprices⟩ := raiserDetail_counts hshown
    rw [List.countP_filter] at hdeclines hprices
    refine ⟨?_, ?_, ?_⟩
    · intro r hr hid hdeclined
      obtain ⟨hnotRaiser, hnotWinner, hothers⟩ := decliner_apart h ho hr hid hdeclined
      obtain ⟨hhidden, hany⟩ := raiserDetail_hides hnotRaiser hnotWinner hothers hshown
      exact ⟨hhidden, fun companies' hagree => (hdetail companies').trans (hany companies' hagree)⟩
    · rw [hdeclines]
      refine congrArg some (hsealed.count fun r hr p hp => ?_)
      obtain ⟨p₁, hp₁, hterms, hout⟩ := hsealed.stored r hr
      cases hp.symm.trans hp₁
      simp only [ExchangeProposal.withId, ExchangeOffer.withId, terms_offerId hterms, hout]
    · rw [hprices]
      refine congrArg some (hsealed.count fun r hr p hp => ?_)
      obtain ⟨p₁, hp₁, hterms, hout⟩ := hsealed.stored r hr
      cases hp.symm.trans hp₁
      simp only [ExchangeProposal.withId, ExchangeOffer.withId, terms_offerId hterms, ne_eq, hout]

end runs

/-! ### Sample runs -/

namespace Sample

def companies : List (Id × CompanyRecord) :=
  marketCompanies ++ [(14, marketCompany .fuel [(.diesel, 4)])]

/-- What company 10 is shown of offer 600. -/
def shown (s : Sys Doc Call.Reply HttpError Answer) (o : ExchangeOffer) :
    Except String OfferDetail :=
  buildDetail marketScope (proposalsOf s.store.docs) companies (o.withId 600) (some 10)
    .fuelCompanyAdmin

/-- Company 12 has declined offer 600. -/
def declined (r : ExchangeProposalDocument) : Bool :=
  r.outcome = .declined && r.proposingCompanyId = 12 && r.offerId = 600

/-- The detail names company 12 with its contact, and counts no decline. -/
def discloses (d : OfferDetail) : Bool :=
  d.companyIds.contains 12 && d.declineCount = some 0 && d.proposalCount = some 2 &&
    (d.proposals.getD []).any fun shape => shape.proposingCompanyId = some 12 &&
      shape.company = some (marketCompany .fuel [(.diesel, 3)]).contact

end Sample

theorem declines_sealed_answered :
    ∃ log s o d, Run machine Store.empty (fun ev => sparesDeclines ev = true) log s ∧
      s.store.offer 600 = some o ∧ Sample.shown s o = .ok d ∧
      (∃ r ∈ answers log, Sample.declined r = true) ∧ 12 ∉ d.companyIds := by
  obtain ⟨log, s, hrun, htest⟩ := exists_run machine Store.empty
    (fun ev => sparesDeclines ev = true) (Sample.opening ++ Sample.answers)
    (fun log s => (answers log).any Sample.declined && (s.store.offer 600).any fun o =>
      o.raisedByCompanyId = 10 && (Sample.shown s o).toOption.isSome) (by decide +kernel)
  obtain ⟨hanswer, hoffer⟩ := Bool.and_eq_true_iff.mp htest
  obtain ⟨r, hr, hr12⟩ := List.any_eq_true.mp hanswer
  obtain ⟨o, ho, hdetail⟩ := (Option.any_eq_true _ _).mp hoffer
  obtain ⟨hraised, hsome⟩ := Bool.and_eq_true_iff.mp hdetail
  have hraiser : o.raisedByCompanyId = 10 := of_decide_eq_true hraised
  obtain ⟨d, hd⟩ := Option.isSome_iff_exists.mp hsome
  have hshown := except_toOption_eq_some hd
  have hparts := hr12
  simp only [Sample.declined, Bool.and_eq_true, decide_eq_true_eq] at hparts
  obtain ⟨⟨hdeclined, hauthor⟩, hid⟩ := hparts
  have hctx : ActsFor marketScope o.raisedByCompanyId := by
    rw [hraiser]
    exact ⟨rfl, rfl⟩
  obtain ⟨-, hsealed⟩ := declines_sealed hrun
  obtain ⟨hnames, -⟩ := hsealed 600 o (Or.inl ho) marketScope hctx Sample.companies d
    (by rw [hraiser]; exact hshown)
  obtain ⟨hhidden, -⟩ := hnames r hr hid hdeclined
  rw [hauthor] at hhidden
  exact ⟨log, s, o, d, hrun, ho, hshown, ⟨r, hr, hr12⟩, hhidden⟩

/-- Company 12 declines, company 14 is awarded the offer, and the raiser is shown company 12. -/
theorem decline_disclosed :
    ∃ log s r p o d, Run machine Store.empty (fun _ => True) log s ∧ r ∈ answers log ∧
      Sample.declined r = true ∧ s.store.proposal r.id = some p ∧ p.outcome = .notSelected ∧
      s.store.offer 600 = some o ∧ o.raisedByCompanyId = 10 ∧ Sample.shown s o = .ok d ∧
      Sample.discloses d = true := by
  obtain ⟨log, s, hrun, htest⟩ := exists_run machine Store.empty (fun _ => True)
    (Sample.opening ++ Sample.answers ++ Sample.serve (.award 600 10 21 701) 6 6)
    (fun log s => ((answers log).any fun r => Sample.declined r &&
        (s.store.proposal r.id).any fun p => p.outcome = .notSelected) &&
      (s.store.offer 600).any fun o => o.raisedByCompanyId = 10 &&
        (Sample.shown s o).toOption.any Sample.discloses) (by decide +kernel)
  obtain ⟨hanswer, hoffer⟩ := Bool.and_eq_true_iff.mp htest
  obtain ⟨r, hr, hr12⟩ := List.any_eq_true.mp hanswer
  obtain ⟨hdeclined, hstored⟩ := Bool.and_eq_true_iff.mp hr12
  obtain ⟨p, hp, hout⟩ := (Option.any_eq_true _ _).mp hstored
  obtain ⟨o, ho, hdetail⟩ := (Option.any_eq_true _ _).mp hoffer
  obtain ⟨hraised, hshown⟩ := Bool.and_eq_true_iff.mp hdetail
  obtain ⟨d, hd, hdiscloses⟩ := (Option.any_eq_true _ _).mp hshown
  exact ⟨log, s, r, p, o, d, hrun, hr, hdeclined, hp, of_decide_eq_true hout, ho,
    of_decide_eq_true hraised, except_toOption_eq_some hd, hdiscloses⟩

end CiroFuel.Exchange
