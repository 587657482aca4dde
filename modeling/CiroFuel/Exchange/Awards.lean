import CiroFuel.Exchange.Listing
import CiroFuel.Exchange.Reads

/-!
# One winner, on the terms it proposed

However answers, awards and withdrawals of an offer interleave, the offer is
awarded exactly if one of its proposals is, it names that proposal, its author and
its price, and a closed offer is never changed again.
-/
namespace CiroFuel.Exchange
open Snapshot Discipline

/-- A price or a decline that no award has touched. -/
def ExchangeProposal.Unresolved (p : ExchangeProposal) : Prop :=
  (p.outcome = .proposed ∧ p.unitPrice.isSome) ∨ (p.outcome = .declined ∧ p.unitPrice = none)

/-- The offer names the proposal, its author, its price and the total. -/
structure AwardedTo (o : ExchangeOffer) (pid : Id) (p : ExchangeProposal) : Prop where
  proposal : o.awardedProposalId = some pid
  company : o.awardedCompanyId = some p.proposingCompanyId
  quantity : o.agreedQuantityLitres = some o.quantityLitres
  price : ∃ price, p.unitPrice = some price ∧ o.agreedUnitPrice = some price ∧
    o.agreedTotal = some (roundCurrency (price.amount * o.quantityLitres))

/-- The proposal is the winner of the offer. -/
def Wins (s : Store Doc) (id pid : Id) : Prop :=
  ∃ p, s.proposal pid = some p ∧ p.offerId = id ∧ p.outcome = .awarded

def IsAwarded (s : Store Doc) (id : Id) : Prop := ∃ o, s.offer id = some o ∧ o.state = .awarded

/-- The offer is open, and its proposals are as they were made. -/
structure Untouched (id : Id) (s : Store Doc) : Prop where
  offer : ∀ o, s.offer id = some o → o.state = .open_
  proposals : ∀ pid p, s.proposal pid = some p → p.offerId = id → p.Unresolved

/-- What holds of an offer and its proposals in every state. -/
structure Decided (id : Id) (s : Store Doc) : Prop where
  unresolved : ¬ IsAwarded s id → ∀ pid p, s.proposal pid = some p → p.offerId = id → p.Unresolved
  awarded : ∀ o, s.offer id = some o → o.state = .awarded →
    ∃ pid p, s.proposal pid = some p ∧ p.offerId = id ∧ p.outcome = .awarded ∧ AwardedTo o pid p ∧
      ∀ pid', Wins s id pid' → pid' = pid
  declines : ∀ pid p, s.proposal pid = some p → p.offerId = id → p.outcome = .declined →
    p.unitPrice = none

theorem Untouched.decided {id : Id} {s : Store Doc} (h : Untouched id s) : Decided id s where
  unresolved _ := h.proposals
  awarded o ho hstate := by
    rw [h.offer o ho] at hstate
    cases hstate
  declines pid p hp hid hdeclined := by
    rcases h.proposals pid p hp hid with ⟨hproposed, -⟩ | ⟨-, hnone⟩
    · rw [hdeclined] at hproposed
      cases hproposed
    · exact hnone

theorem not_awarded_of_open {s : Store Doc} {id : Id} {o : ExchangeOffer} (ho : s.offer id = some o)
    (hstate : o.state = .open_) : ¬ IsAwarded s id := by
  rintro ⟨o', ho', hstate'⟩
  cases ho.symm.trans ho'
  rw [hstate] at hstate'
  cases hstate'

theorem ExchangeProposal.Unresolved.not_awarded {p : ExchangeProposal} (h : p.Unresolved) :
    p.outcome ≠ .awarded := by
  rcases h with ⟨hout, -⟩ | ⟨hout, -⟩ <;> rw [hout] <;> decide

theorem proposalOf_unresolved {offer : ExchangeOfferDocument} {acting userId : Id}
    {dto : CreateProposalDto} {t : Instant} (h : dto.isDecline = dto.unitPrice.isNone) :
    (proposalOf offer acting userId dto t).Unresolved := by
  simp only [ExchangeProposal.Unresolved, proposalOf, h]
  cases dto.unitPrice <;> simp

/-! ### What is kept of a proposal -/

section terms
variable {p p' : ExchangeProposal} {o o' : ExchangeOffer}

theorem terms_offerId (h : p'.terms = p.terms) : p'.offerId = p.offerId :=
  congrArg (fun p => p.offerId) h

theorem terms_proposingCompanyId (h : p'.terms = p.terms) :
    p'.proposingCompanyId = p.proposingCompanyId :=
  congrArg (fun p => p.proposingCompanyId) h

theorem terms_offerRaisedByCompanyId (h : p'.terms = p.terms) :
    p'.offerRaisedByCompanyId = p.offerRaisedByCompanyId :=
  congrArg (fun p => p.offerRaisedByCompanyId) h

theorem terms_unitPrice (h : p'.terms = p.terms) : p'.unitPrice = p.unitPrice :=
  congrArg (fun p => p.unitPrice) h

theorem terms_proposal_isFor (h : p'.terms = p.terms) (c : Id) : p'.isFor c = p.isFor c :=
  congrArg (fun p => p.isFor c) h

theorem terms_quantityLitres (h : o'.terms = o.terms) : o'.quantityLitres = o.quantityLitres :=
  congrArg (fun o => o.quantityLitres) h

theorem terms_raisedByCompanyId (h : o'.terms = o.terms) :
    o'.raisedByCompanyId = o.raisedByCompanyId :=
  congrArg (fun o => o.raisedByCompanyId) h

end terms

/-- The call awards the offer. -/
def Call.Awards (c : Call) (id : Id) : Prop :=
  ∃ offer proposal acting userId now, c = .award offer proposal acting userId now ∧ offer.id = id

section commits
variable {ev : Event Doc Call.Reply} {id : Id}

/-- The proposal that an award names answers its offer. -/
theorem named_offerId (hholds : trading.Holds ev) {offer : ExchangeOfferDocument}
    {proposal : ExchangeProposalDocument} {acting userId : Id} {now : Instant}
    (hlabel : ev.label = .award offer proposal acting userId now) {p : ExchangeProposal}
    (hp : ev.before.proposal proposal.id = some p) : p.offerId = offer.id := by
  have hpre : ev.label.Checked ev.base := hholds.pre
  rw [hlabel] at hpre
  obtain ⟨-, ⟨p₀, hp₀, hterms⟩, -, hanswers, -⟩ := hpre
  obtain ⟨p₁, hp₁, hterms₁⟩ := hholds.base_before.proposals _ p₀ hp₀
  cases hp.symm.trans hp₁
  exact (terms_offerId (hterms₁.trans hterms)).trans hanswers

/-- Unless the offer is awarded, its proposals stay as they are. -/
theorem proposal_kept (hev : ev.Sound machine) (hholds : trading.Holds ev)
    (hother : ¬ ev.label.Awards id) {pid : Id} {p : ExchangeProposal}
    (hp : ev.before.proposal pid = some p) (hid : p.offerId = id) :
    ev.after.proposal pid = some p := by
  have hstep := proposal_step hev hholds.older pid
  rw [hp] at hstep
  generalize hafter : ev.after.proposal pid = x at hstep
  cases hstep with
  | same => rfl
  | won hlabel hwinner =>
      subst hwinner
      exact absurd ⟨_, _, _, _, _, hlabel, (named_offerId hholds hlabel hp).symm.trans hid⟩ hother
  | lost hlabel _ hoffer => exact absurd ⟨_, _, _, _, _, hlabel, hoffer.symm.trans hid⟩ hother

/-- Unless the offer is awarded, its proposals are the former ones and new answers. -/
theorem proposal_origin (hev : ev.Sound machine) (hholds : trading.Holds ev)
    (hother : ¬ ev.label.Awards id) {pid : Id} {p : ExchangeProposal}
    (hp : ev.after.proposal pid = some p) (hid : p.offerId = id) :
    ev.before.proposal pid = some p ∨ (ev.before.proposal pid = none ∧ p.Unresolved) := by
  cases hbefore : ev.before.proposal pid with
  | some p₀ =>
      obtain ⟨p₁, hp₁, hterms⟩ := (commit_onward hev hholds.older).proposals pid p₀ hbefore
      cases hp.symm.trans hp₁
      have hkept := proposal_kept hev hholds hother hbefore ((terms_offerId hterms).symm.trans hid)
      exact Or.inl (hkept.symm.trans hp)
  | none =>
      have hstep := proposal_step hev hholds.older pid
      rw [hbefore, hp] at hstep
      cases hstep with
      | answered hlabel =>
          have hpre : ev.label.Checked ev.base := hholds.pre
          rw [hlabel] at hpre
          exact Or.inr ⟨rfl, proposalOf_unresolved hpre.priced⟩

theorem awarded_before (hev : ev.Sound machine) (hholds : trading.Holds ev)
    (hother : ¬ ev.label.Awards id) {o : ExchangeOffer} (ho : ev.after.offer id = some o)
    (hstate : o.state = .awarded) : ev.before.offer id = some o := by
  have hoffer := offer_step hev hholds.older id
  rw [ho] at hoffer
  generalize ev.before.offer id = x at hoffer ⊢
  cases hoffer with
  | same => rfl
  | created => cases hstate
  | awarded hlabel hid _ _ => exact absurd ⟨_, _, _, _, _, hlabel, hid.symm⟩ hother
  | withdrawn => cases hstate

theorem commit_decided_other (hev : ev.Sound machine) (hholds : trading.Holds ev)
    (hother : ¬ ev.label.Awards id) (hbefore : Decided id ev.before) : Decided id ev.after := by
  have hstays : IsAwarded ev.before id → IsAwarded ev.after id := by
    rintro ⟨o, ho, hstate⟩
    obtain ⟨o', ho', -, hclosed⟩ := (commit_onward hev hholds.older).offers id o ho
    rw [hclosed (by rw [hstate]; decide)] at ho'
    exact ⟨o, ho', hstate⟩
  constructor
  · intro hnot pid p hp hid
    rcases proposal_origin hev hholds hother hp hid with hp₀ | ⟨-, hnew⟩
    · exact hbefore.unresolved (fun h => hnot (hstays h)) pid p hp₀ hid
    · exact hnew
  · intro o ho hstate
    obtain ⟨pid, p, hp, hid, hout, hto, honly⟩ := hbefore.awarded o
      (awarded_before hev hholds hother ho hstate) hstate
    refine ⟨pid, p, proposal_kept hev hholds hother hp hid, hid, hout, hto, ?_⟩
    rintro pid' ⟨p', hp', hid', hout'⟩
    rcases proposal_origin hev hholds hother hp' hid' with hp₀ | ⟨-, hnew⟩
    · exact honly pid' ⟨p', hp₀, hid', hout'⟩
    · exact absurd hout' hnew.not_awarded
  · intro pid p hp hid hdeclined
    rcases proposal_origin hev hholds hother hp hid with hp₀ | ⟨-, ⟨hout, -⟩ | ⟨-, hnone⟩⟩
    · exact hbefore.declines pid p hp₀ hid hdeclined
    · rw [hdeclined] at hout
      cases hout
    · exact hnone

/-- An award makes the named proposal, and no other, the winner. -/
theorem commit_decided_award (hev : ev.Sound machine) (hholds : trading.Holds ev)
    (hawards : ev.label.Awards id) (hbase : Decided id ev.base) (hbefore : Decided id ev.before) :
    Decided id ev.after := by
  obtain ⟨offer, proposal, acting, userId, now, hlabel, rfl⟩ := hawards
  obtain ⟨price, o, at_, hprice, hobase, ho, hopen, hafter, hresolved⟩ :=
    award_commit hev hholds.older hlabel
  have hstate : o.state = .open_ := of_decide_eq_true (Bool.and_eq_true_iff.mp hopen).1
  have hpre : ev.label.Checked ev.base := hholds.pre
  rw [hlabel] at hpre
  obtain ⟨⟨o₀, ho₀, hoterms⟩, ⟨p, hp, hterms⟩, -, hanswers, hfor⟩ := hpre
  cases hobase.symm.trans ho₀
  have hpid : p.offerId = offer.id := (terms_offerId hterms).trans hanswers
  have hunit : p.unitPrice = some price := (terms_unitPrice hterms).trans hprice
  have hproposed : p.outcome = .proposed := by
    have hopen₀ := hbase.unresolved (not_awarded_of_open hobase hstate) _ p hp hpid
    rcases hopen₀ with ⟨hout, -⟩ | ⟨-, hnone⟩
    · exact hout
    · rw [hunit] at hnone
      cases hnone
  have hwinner :
      resolved offer.id proposal.id acting now proposal.id p = p.resolve .awarded now := by
    rw [resolved, if_pos rfl, if_pos ((terms_proposal_isFor hterms acting).trans hfor)]
  have hchanged : resolved offer.id proposal.id acting now proposal.id p ≠ p := by
    rw [hwinner]
    intro heq
    have hout := congrArg (fun p => p.outcome) heq
    simp only [ExchangeProposal.resolve, hproposed] at hout
    cases hout
  obtain ⟨-, hwon⟩ := hresolved _ p hp hchanged
  rw [hwinner] at hwon
  have horigin : ∀ pid p', ev.after.proposal pid = some p' → p'.offerId = offer.id →
      pid = proposal.id ∨ p'.outcome = .notSelected ∨ p'.Unresolved := by
    intro pid p' hp' hid'
    have hstep := proposal_step hev hholds.older pid
    rw [hp'] at hstep
    generalize hold : ev.before.proposal pid = x at hstep
    cases hstep with
    | same =>
        exact Or.inr (Or.inr
          (hbefore.unresolved (not_awarded_of_open ho hstate) pid p' hold hid'))
    | answered hcall =>
        rw [hlabel] at hcall
        cases hcall
    | won hcall hwin =>
        rw [hlabel] at hcall
        cases hcall
        exact Or.inl hwin
    | lost => exact Or.inr (Or.inl rfl)
  constructor
  · intro hnot
    exact absurd ⟨_, hafter, rfl⟩ hnot
  · intro o' ho' _
    cases hafter.symm.trans ho'
    have hquantity := terms_quantityLitres hoterms
    refine ⟨proposal.id, _, hwon, hpid, rfl, ?_, ?_⟩
    · exact {
        proposal := rfl
        company := congrArg some (terms_proposingCompanyId hterms).symm
        quantity := congrArg some hquantity.symm
        price := ⟨price, hunit, hprice, by simp only [ExchangeOffer.award, hquantity]⟩ }
    · rintro pid ⟨p', hp', hid', hout'⟩
      rcases horigin pid p' hp' hid' with hpid' | hlost | hunresolved
      · exact hpid'
      · rw [hout'] at hlost
        cases hlost
      · exact absurd hout' hunresolved.not_awarded
  · intro pid p' hp' hid' hdeclined
    rcases horigin pid p' hp' hid' with rfl | hlost | ⟨hout, -⟩ | ⟨-, hnone⟩
    · cases hwon.symm.trans hp'
      cases hdeclined
    · rw [hdeclined] at hlost
      cases hlost
    · rw [hdeclined] at hout
      cases hout
    · exact hnone

theorem commit_decided (hev : ev.Sound machine) (hholds : trading.Holds ev)
    (hbase : Decided id ev.base) (hbefore : Decided id ev.before) : Decided id ev.after := by
  by_cases hawards : ev.label.Awards id
  · exact commit_decided_award hev hholds hawards hbase hbefore
  · exact commit_decided_other hev hholds hawards hbefore

end commits

/-! ### The winner of an offer -/

section runs
variable {P : Event Doc Call.Reply → Prop} {init : Store Doc} {log : List (Event Doc Call.Reply)}
variable {s : Sys Doc Call.Reply HttpError Answer} {id : Id}

/-- The final state is reached from every state of the run. -/
theorem onward_of_mem (h : Run machine init P log s) : ∀ ev ∈ log, Onward ev.before s.store := by
  refine (traded h).logged (J := fun log s => ∀ ev ∈ log, Onward ev.before s) ?_ ?_
  · intro ev hmem
    cases hmem
  · intro log ev hev hP ih ev' hmem
    have hstep := commit_onward hev hP.2.older
    cases hmem with
    | head => exact hstep
    | tail _ hmem => exact (ih ev' hmem).trans hstep

theorem decided_run (hinit : Untouched id init) (h : Run machine init P log s) :
    Decided id s.store ∧ ∀ ev ∈ log, Decided id ev.before := by
  obtain ⟨hs, hrun⟩ := (traded h).invariant (Decided id) hinit.decided
    fun ev hev hP hbase hbefore => commit_decided hev hP.2 hbase hbefore
  exact ⟨hs, fun ev hmem => (hrun.mem hmem).2.2.2.1⟩

theorem Decided.isAwarded_iff {s : Store Doc} (h : Decided id s) :
    IsAwarded s id ↔ ∃! pid, Wins s id pid := by
  constructor
  · rintro ⟨o, ho, hstate⟩
    obtain ⟨pid, p, hp, hid, hout, -, honly⟩ := h.awarded o ho hstate
    exact ⟨pid, ⟨p, hp, hid, hout⟩, honly⟩
  · rintro ⟨pid, ⟨p, hp, hid, hout⟩, -⟩
    by_contra hnot
    exact (h.unresolved hnot pid p hp hid).not_awarded hout

theorem Decided.awardedTo {s : Store Doc} (h : Decided id s) {o : ExchangeOffer}
    (ho : s.offer id = some o) (hstate : o.state = .awarded) {pid : Id} {p : ExchangeProposal}
    (hp : s.proposal pid = some p) (hid : p.offerId = id) (hout : p.outcome = .awarded) :
    AwardedTo o pid p := by
  obtain ⟨pid₀, p₀, hp₀, -, -, hto, honly⟩ := h.awarded o ho hstate
  obtain rfl := honly pid ⟨p, hp, hid, hout⟩
  cases hp.symm.trans hp₀
  exact hto

/-- From an open offer on, the offer is awarded exactly if one proposal wins it; it
names that proposal and its terms, and the winner was never a decline. An offer that
is not open stays as it is, and a refused call has written nothing. -/
theorem one_winner (hinit : Untouched id init) (h : Run machine init (fun _ => True) log s) :
    (IsAwarded s.store id ↔ ∃! pid, Wins s.store id pid) ∧
    (∀ o, s.store.offer id = some o → o.state = .awarded → ∀ pid p,
      s.store.proposal pid = some p → p.offerId = id → p.outcome = .awarded →
        AwardedTo o pid p ∧
        ∀ ev ∈ log, ∀ p', ev.before.proposal pid = some p' → p'.outcome ≠ .declined) ∧
    (∀ ev ∈ log, ∀ o, ev.before.offer id = some o → o.state ≠ .open_ →
      s.store.offer id = some o) ∧
    ∀ i t e, s.threads[i]? = some t → t.prog = .fail (.thrown e) → ∀ ev ∈ log, ev.thread ≠ i := by
  obtain ⟨hs, hlog⟩ := decided_run hinit h
  have honward := onward_of_mem h
  refine ⟨hs.isAwarded_iff, ?_, ?_, ?_⟩
  · intro o ho hstate pid p hp hid hout
    have hto := hs.awardedTo ho hstate hp hid hout
    refine ⟨hto, ?_⟩
    intro ev hmem p' hp' hdeclined
    obtain ⟨p₁, hp₁, hterms⟩ := (honward ev hmem).proposals pid p' hp'
    cases hp.symm.trans hp₁
    -- A decline has no price, and the price of a proposal is one of its terms.
    have hid' : p'.offerId = id := (terms_offerId hterms).symm.trans hid
    have hnone := (hlog ev hmem).declines pid p' hp' hid' hdeclined
    obtain ⟨price, hprice, -⟩ := hto.price
    rw [terms_unitPrice hterms, hnone] at hprice
    cases hprice
  · intro ev hmem o ho hclosed
    obtain ⟨o', ho', -, hsame⟩ := (honward ev hmem).offers id o ho
    rw [ho', hsame hclosed]
  · intro i t e ht hthrown
    exact h.thrown_uncommitted handle_throwsFirst ht hthrown

end runs

/-! ### Sample runs -/

namespace Sample

def serve (q : Request) (i n : ℕ) (firstId : ℕ := 0) : List (Act Request) :=
  .arrive q :: List.replicate n (.step i true firstId)

def diesel : CreateOfferDto where
  fuelType := .diesel
  quantityLitres := 1000
  deliveryAt := 86400000
  city := 1

/-- Three companies sell diesel, and company 10 raises offer 600. -/
def opening : List (Act Request) :=
  serve (.putCompany 10 (marketCompany .fuel [(.diesel, 2)])) 0 2 ++
    serve (.putCompany 12 (marketCompany .fuel [(.diesel, 3)])) 1 2 ++
    serve (.putCompany 14 (marketCompany .fuel [(.diesel, 4)])) 2 2 ++
    serve (.create 10 21 diesel) 3 5 600

/-- Company 12 declines and company 14 names a price. -/
def answers : List (Act Request) :=
  serve (.propose 600 12 22 { decline := some true }) 4 6 700 ++
    serve (.propose 600 14 24 { unitPrice := some (some 2) }) 5 7 701

/-- A withdrawal reads the open offer before the award commits. -/
def race : List (Act Request) :=
  opening ++ answers ++ serve (.award 600 10 21 701) 6 4 ++ serve (.withdraw 600 10 21) 7 3 ++
    [Act.step 6, .step 7]

def refused (t : Thread Doc Call.Reply HttpError Answer) : Bool :=
  match t.prog with
  | .fail (.thrown _) => true
  | _ => false

theorem refused_iff {t : Thread Doc Call.Reply HttpError Answer} (h : refused t = true) :
    ∃ e, t.prog = .fail (.thrown e) := by
  unfold refused at h
  split at h
  · rename_i e hprog
    exact ⟨e, hprog⟩
  · cases h

end Sample

theorem untouched_empty (id : Id) : Untouched id Store.empty := by
  constructor
  · intro o ho
    cases ho
  · intro pid p hp
    cases hp

theorem one_winner_race :
    ∃ log s, Run machine Store.empty (fun _ => True) log s ∧ (∃! pid, Wins s.store 600 pid) ∧
      log ≠ [] ∧ ∀ ev ∈ log, ev.thread ≠ 7 := by
  obtain ⟨log, s, hrun, htest⟩ := exists_run machine Store.empty (fun _ => True) Sample.race
    (fun log s => ((s.store.offer 600).any fun o => o.state = .awarded) &&
      !log.isEmpty && (s.threads[7]?).any Sample.refused) (by decide +kernel)
  simp only [Bool.and_eq_true, Bool.not_eq_true', List.isEmpty_eq_false_iff] at htest
  obtain ⟨⟨hoffer, hlog⟩, hthread⟩ := htest
  obtain ⟨o, ho, hstate⟩ := (Option.any_eq_true _ _).mp hoffer
  obtain ⟨t, ht, hrefused⟩ := (Option.any_eq_true _ _).mp hthread
  obtain ⟨e, hprog⟩ := Sample.refused_iff hrefused
  obtain ⟨hwon, -, -, hlost⟩ := one_winner (untouched_empty 600) hrun
  refine ⟨log, s, hrun, ?_, hlog, hlost 7 t e ht hprog⟩
  exact hwon.mp ⟨o, ho, of_decide_eq_true hstate⟩

end CiroFuel.Exchange
