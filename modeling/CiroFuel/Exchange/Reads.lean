import CiroFuel.Exchange.Steps
import CiroFuel.Snapshot.Discipline
import CiroFuel.Snapshot.Refusals

/-!
# What a handler has read

The terms of an offer and of a proposal never change, so what a handler has read
of them holds when its call commits, whatever has been committed meanwhile. Only
the state of the offer and the outcome of the proposal may have moved on.
-/
namespace CiroFuel.Exchange
open Snapshot Discipline Exchange.Handler

/-- The offer apart from how it has been resolved. -/
def ExchangeOffer.terms (o : ExchangeOffer) : ExchangeOffer :=
  { o with
    state := .open_
    awardedProposalId := none
    awardedCompanyId := none
    agreedUnitPrice := none
    agreedTotal := none
    agreedQuantityLitres := none
    currency := none
    resolvedBy := none
    resolvedAt := none
    updatedAt := 0 }

def ExchangeProposal.terms (p : ExchangeProposal) : ExchangeProposal :=
  { p with
    outcome := .proposed
    resolvedAt := none }

/-- Offers and proposals stay on their terms, and an offer that is closed stays as it is. -/
structure Onward (s s' : Store Doc) : Prop where
  offers : ∀ id o, s.offer id = some o →
    ∃ o', s'.offer id = some o' ∧ o'.terms = o.terms ∧ (o.state ≠ .open_ → o' = o)
  proposals : ∀ pid p, s.proposal pid = some p →
    ∃ p', s'.proposal pid = some p' ∧ p'.terms = p.terms

theorem Onward.refl (s : Store Doc) : Onward s s :=
  ⟨fun _ o ho => ⟨o, ho, rfl, fun _ => rfl⟩, fun _ p hp => ⟨p, hp, rfl⟩⟩

theorem Onward.trans {a b c : Store Doc} (hab : Onward a b) (hbc : Onward b c) : Onward a c := by
  constructor
  · intro id o ho
    obtain ⟨o₁, ho₁, hterms₁, hclosed₁⟩ := hab.offers id o ho
    obtain ⟨o₂, ho₂, hterms₂, hclosed₂⟩ := hbc.offers id o₁ ho₁
    refine ⟨o₂, ho₂, hterms₂.trans hterms₁, fun hstate => ?_⟩
    have heq := hclosed₁ hstate
    rw [← heq] at hstate
    exact (hclosed₂ hstate).trans heq
  · intro pid p hp
    obtain ⟨p₁, hp₁, hterms₁⟩ := hab.proposals pid p hp
    obtain ⟨p₂, hp₂, hterms₂⟩ := hbc.proposals pid p₁ hp₁
    exact ⟨p₂, hp₂, hterms₂.trans hterms₁⟩

theorem OfferStep.onward {c : Call} {id : Id} {o : ExchangeOffer} {x : Option ExchangeOffer}
    (h : OfferStep c id (some o) x) :
    ∃ o', x = some o' ∧ o'.terms = o.terms ∧ (o.state ≠ .open_ → o' = o) := by
  cases h with
  | same => exact ⟨o, rfl, rfl, fun _ => rfl⟩
  | awarded _ _ hopen _ => exact ⟨_, rfl, rfl, fun hstate => absurd hopen hstate⟩
  | withdrawn _ _ hopen => exact ⟨_, rfl, rfl, fun hstate => absurd hopen hstate⟩

theorem ProposalStep.onward {c : Call} {pid : Id} {p : ExchangeProposal}
    {x : Option ExchangeProposal} (h : ProposalStep c pid (some p) x) :
    ∃ p', x = some p' ∧ p'.terms = p.terms := by
  cases h with
  | same => exact ⟨p, rfl, rfl⟩
  | won _ _ => exact ⟨_, rfl, rfl⟩
  | lost _ _ _ => exact ⟨_, rfl, rfl⟩

theorem commit_onward {ev : Event Doc Call.Reply} (hev : ev.Sound machine)
    (holder : Store.Older ev.base ev.before) : Onward ev.before ev.after := by
  constructor
  · intro id o ho
    have hstep := offer_step hev holder id
    rw [ho] at hstep
    exact hstep.onward
  · intro pid p hp
    have hstep := proposal_step hev holder pid
    rw [hp] at hstep
    exact hstep.onward

/-! ### What calls rely on -/

def OfferRead (s : Store Doc) (offer : ExchangeOfferDocument) : Prop :=
  ∃ o, s.offer offer.id = some o ∧ o.terms = offer.toExchangeOffer.terms

def ProposalRead (s : Store Doc) (proposal : ExchangeProposalDocument) : Prop :=
  ∃ p, s.proposal proposal.id = some p ∧ p.terms = proposal.toExchangeProposal.terms

section read
variable {s s' : Store Doc} {offer : ExchangeOfferDocument} {proposal : ExchangeProposalDocument}

theorem OfferRead.onward (h : OfferRead s offer) (hs : Onward s s') : OfferRead s' offer := by
  obtain ⟨o, ho, hterms⟩ := h
  obtain ⟨o', ho', hterms', -⟩ := hs.offers _ o ho
  exact ⟨o', ho', hterms'.trans hterms⟩

theorem ProposalRead.onward (h : ProposalRead s proposal) (hs : Onward s s') :
    ProposalRead s' proposal := by
  obtain ⟨p, hp, hterms⟩ := h
  obtain ⟨p', hp', hterms'⟩ := hs.proposals _ p hp
  exact ⟨p', hp', hterms'.trans hterms⟩

end read

/-- What a company has established when it answers an offer. -/
structure Answerable (s : Store Doc) (offer : ExchangeOfferDocument) (acting : Id)
    (dto : CreateProposalDto) : Prop where
  offerRead : OfferRead s offer
  isFor : offer.isFor acting = true
  notRaiser : offer.raisedByCompanyId ≠ acting
  isOpen : offer.state = .open_
  priced : dto.isDecline = dto.unitPrice.isNone

/-- What the raiser has established when it awards an offer. -/
structure Awardable (s : Store Doc) (offer : ExchangeOfferDocument)
    (proposal : ExchangeProposalDocument) (acting : Id) : Prop where
  offerRead : OfferRead s offer
  proposalRead : ProposalRead s proposal
  raiser : offer.raisedByCompanyId = acting
  answers : proposal.offerId = offer.id
  isFor : proposal.isFor acting = true

def Call.Checked : Call → Store Doc → Prop
  | .propose offer acting _ dto _, s => Answerable s offer acting dto
  | .award offer proposal acting _ _, s => Awardable s offer proposal acting
  | _, _ => True

theorem Call.Checked.onward {c : Call} {s s' : Store Doc} (h : c.Checked s) (hs : Onward s s') :
    c.Checked s' := by
  cases c with
  | propose offer acting userId dto t => exact { h with offerRead := h.offerRead.onward hs }
  | award offer proposal acting userId now =>
      exact { h with
        offerRead := h.offerRead.onward hs
        proposalRead := h.proposalRead.onward hs }
  | create => trivial
  | withdraw => trivial
  | putCompany => trivial

/-- Every call is made on what its handler has read and checked. -/
def trading : Discipline Doc Call.Reply where
  inv _ := True
  rely := Onward
  pre c s _ := c.Checked s

theorem trading_coherent : trading.Coherent where
  refl := Onward.refl
  trans := Onward.trans
  stable h hs _ := h.onward hs

/-! ### The handlers -/

section rules
variable {A B : Type} {V : A → Store Doc → ℕ → Prop} {s : Store Doc} {c : ℕ}

theorem safe_require {e : HttpError} {o : Option B} {f : B → Handler A}
    (h : ∀ b, o = some b → trading.Safe V (f b) s c) : trading.Safe V (require e o >>= f) s c := by
  cases o with
  | none => trivial
  | some b => exact h b rfl

theorem safe_refuseIf {b : Bool} {e : HttpError} {f : Unit → Handler A}
    (h : b = false → trading.Safe V (f ()) s c) : trading.Safe V (refuseIf b e >>= f) s c := by
  cases b with
  | false => exact h rfl
  | true => trivial

theorem safe_readOffer {acting id : Id} {f : ExchangeOfferDocument → Handler A}
    (h : ∀ offer s' c', OfferRead s' offer → offer.isFor acting = true →
      trading.Safe V (f offer) s' c') : trading.Safe V (readOffer acting id >>= f) s c := by
  intro s' c' _
  change trading.Safe V ((require offerNotFound ((s'.offer id).filter fun o => o.isFor acting) >>=
    fun offer => pure (offer.withId id)) >>= f) s' c'
  cases hfound : (s'.offer id).filter fun o => o.isFor acting with
  | none => trivial
  | some o =>
      obtain ⟨ho, hfor⟩ := Option.filter_eq_some_iff.mp hfound
      exact h (o.withId id) s' c' ⟨o, ho, rfl⟩ hfor

theorem safe_readProposal {acting pid offerId : Id} {f : ExchangeProposalDocument → Handler A}
    (h : ∀ proposal s' c', trading.Later s c s' c' → ProposalRead s' proposal →
      proposal.offerId = offerId → proposal.isFor acting = true →
      trading.Safe V (f proposal) s' c') :
    trading.Safe V (readProposal acting pid offerId >>= f) s c := by
  intro s' c' hl
  change trading.Safe V ((require proposalNotFound ((s'.proposal pid).filter fun p =>
    decide (p.offerId = offerId) && p.isFor acting) >>= fun proposal =>
    pure (proposal.withId pid)) >>= f) s' c'
  cases hfound : (s'.proposal pid).filter fun p =>
      decide (p.offerId = offerId) && p.isFor acting with
  | none => trivial
  | some p =>
      obtain ⟨hp, hchecked⟩ := Option.filter_eq_some_iff.mp hfound
      rw [Bool.and_eq_true, decide_eq_true_iff] at hchecked
      exact h (p.withId pid) s' c' hl ⟨p, hp, rfl⟩ hchecked.1 hchecked.2

theorem require_callFree {e : HttpError} {o : Option A} : (require e o).CallFree := by
  cases o <;> trivial

theorem refuseIf_callFree {b : Bool} {e : HttpError} : (refuseIf b e).CallFree := by
  cases b <;> trivial

theorem sideEffect_callFree : sideEffect.CallFree := by
  intro b
  cases b <;> trivial

theorem readOffer_callFree (acting id : Id) : (readOffer acting id).CallFree :=
  (Prog.calls_find _).bind fun _ => require_callFree.bind fun _ => trivial

theorem readProposal_callFree (acting pid offerId : Id) :
    (readProposal acting pid offerId).CallFree :=
  (Prog.calls_find _).bind fun _ => require_callFree.bind fun _ => trivial

theorem isActive_callFree (id : Id) : (isActive id).CallFree :=
  (Prog.calls_find _).bind fun _ => trivial

theorem basePrice_callFree (id : Id) (fuelType : FuelType) : (basePrice id fuelType).CallFree :=
  (Prog.calls_find _).bind fun _ => trivial

end rules

theorem checkGrade_callFree (acting : Id) (fuelType : FuelType) (dto : CreateProposalDto) :
    (checkGrade acting fuelType dto).CallFree := by
  unfold checkGrade
  split_ifs
  · trivial
  · exact (basePrice_callFree _ _).bind fun _ => refuseIf_callFree

theorem propose_harmless (offerId acting userId : Id) (dto : CreateProposalDto) (s : Store Doc)
    (c : ℕ) : trading.Harmless (propose offerId acting userId dto) s c := by
  apply safe_readOffer
  intro offer s₁ c₁ hread hfor
  apply safe_refuseIf
  intro hraiser
  apply safe_refuseIf
  intro hopen
  refine safe_reads trading_coherent trivial (isActive_callFree _) fun active s₂ c₂ hl₂ => ?_
  apply safe_refuseIf
  intro _
  apply safe_refuseIf
  intro hpriced
  refine safe_reads trading_coherent trivial (checkGrade_callFree _ _ _) fun _ s₃ c₃ hl₃ => ?_
  apply safe_getTime
  intro s₄ c₄ hl₄
  apply safe_attempt
  · intro s₅ c₅ hl₅
    refine ⟨?_, hfor, of_decide_eq_false hraiser, not_not.mp (of_decide_eq_false hopen), ?_⟩
    · exact hread.onward
        (hl₂.rely.trans (hl₃.rely.trans (hl₄.rely.trans hl₅.rely)))
    · revert hpriced
      cases dto.isDecline <;> cases dto.unitPrice <;> simp
  · intro r s₅ c₅ _ _
    apply safe_callFree
    apply Prog.Calls.bind
    · cases r with
      | ok p => trivial
      | error e => cases e <;> trivial
    · intro _
      exact sideEffect_callFree.bind fun _ => trivial

theorem award_harmless (offerId acting userId proposalId : Id) (s : Store Doc) (c : ℕ) :
    trading.Harmless (award offerId acting userId proposalId) s c := by
  apply safe_readOffer
  intro offer s₁ c₁ hread hfor
  apply safe_refuseIf
  intro hraiser
  apply safe_readProposal
  intro proposal s₂ c₂ hl₂ hproposal hanswers hproposalFor
  apply safe_refuseIf
  intro _
  apply safe_getTime
  intro s₃ c₃ hl₃
  apply safe_perform
  · intro s₄ c₄ hl₄
    exact {
      offerRead := hread.onward (hl₂.rely.trans (hl₃.rely.trans hl₄.rely))
      proposalRead := hproposal.onward (hl₃.rely.trans hl₄.rely)
      raiser := not_not.mp (of_decide_eq_false hraiser)
      answers := hanswers
      isFor := hproposalFor }
  · intro a s₄ c₄ _ _
    apply safe_callFree
    exact sideEffect_callFree.bind fun _ => trivial

theorem withdraw_harmless (offerId acting userId : Id) (s : Store Doc) (c : ℕ) :
    trading.Harmless (withdraw offerId acting userId) s c := by
  apply safe_readOffer
  intro offer s₁ c₁ _ _
  apply safe_refuseIf
  intro _
  apply safe_getTime
  intro s₂ c₂ _
  apply safe_perform
  · intro s₃ c₃ _
    trivial
  · intro a s₃ c₃ _ _
    apply safe_callFree
    exact sideEffect_callFree.bind fun _ => trivial

theorem create_harmless (acting userId : Id) (dto : CreateOfferDto) (s : Store Doc) (c : ℕ) :
    trading.Harmless (create acting userId dto) s c := by
  apply safe_getTime
  intro s₁ c₁ _
  apply safe_refuseIf
  intro _
  apply safe_scan
  intro s₂ c₂ _
  apply safe_refuseIf
  intro _
  apply safe_perform
  · intro s₃ c₃ _
    trivial
  · intro a s₃ c₃ _ _
    apply safe_callFree
    exact sideEffect_callFree.bind fun _ => trivial

/-- The answer of a handler adds nothing to it. -/
theorem handle_harmless (q : Request) (s : Store Doc) (c : ℕ) :
    trading.Harmless (handle q) s c := by
  have shape : ∀ {α : Type} {p : Handler α} (f : α → Answer), trading.Harmless p s c →
      trading.Harmless (p >>= fun a => pure (f a)) s c := by
    intro α p f hp
    exact Safe.bind trading_coherent trivial hp fun _ _ _ _ _ => trivial
  cases q with
  | create acting userId dto => exact shape _ (create_harmless _ _ _ _ _)
  | propose offerId acting userId dto => exact shape _ (propose_harmless _ _ _ _ _ _)
  | award offerId acting userId proposalId => exact shape _ (award_harmless _ _ _ _ _ _)
  | withdraw offerId acting userId => exact shape _ (withdraw_harmless _ _ _ _ _)
  | putCompany id company =>
      apply safe_perform
      · intro s' c' _
        trivial
      · intro a s' c' _ _
        trivial

/-- Every commit of every run is made on what its handler has read. -/
theorem traded {P : Event Doc Call.Reply → Prop} {init : Store Doc}
    {log : List (Event Doc Call.Reply)} {s : Sys Doc Call.Reply HttpError Answer}
    (h : Run machine init P log s) :
    Run machine init (fun ev => P ev ∧ trading.Holds ev) log s := by
  have hlawful : trading.Lawful machine P :=
    { trading_coherent with
      handlers := fun q s c _ _ => handle_harmless q s c
      keep := fun ev hev _ _ _ _ holder _ => ⟨trivial, commit_onward hev holder, trivial⟩ }
  exact (hlawful.sound trivial h).2

/-! ### Refusals -/

theorem sideEffect_neverThrows {α : Type} (a : α) :
    (sideEffect >>= fun _ => (pure a : Handler α)).NeverThrows := by
  intro b
  cases b with
  | false =>
      intro e he
      cases he
  | true => trivial

/-- No handler throws once it has written. -/
theorem handle_throwsFirst (q : Request) : (handle q).ThrowsFirst := by
  have answer : ∀ {α : Type} {p : Handler α} (f : α → Answer), p.ThrowsFirst →
      (p >>= fun a => pure (f a)).ThrowsFirst :=
    fun f hp => hp.bind fun _ => trivial
  cases q with
  | create acting userId dto =>
      apply answer
      apply Prog.ThrowsFirst.reads Prog.calls_getTime
      intro now
      apply Prog.ThrowsFirst.reads refuseIf_callFree
      intro _
      apply Prog.ThrowsFirst.reads Prog.calls_scan
      intro docs
      apply Prog.ThrowsFirst.reads refuseIf_callFree
      intro _
      exact Prog.ThrowsFirst.perform fun offer => sideEffect_neverThrows offer
  | propose offerId acting userId dto =>
      apply answer
      apply Prog.ThrowsFirst.reads (readOffer_callFree _ _)
      intro offer
      apply Prog.ThrowsFirst.reads refuseIf_callFree
      intro _
      apply Prog.ThrowsFirst.reads refuseIf_callFree
      intro _
      apply Prog.ThrowsFirst.reads (isActive_callFree _)
      intro active
      apply Prog.ThrowsFirst.reads refuseIf_callFree
      intro _
      apply Prog.ThrowsFirst.reads refuseIf_callFree
      intro _
      apply Prog.ThrowsFirst.reads (checkGrade_callFree _ _ _)
      intro _
      apply Prog.ThrowsFirst.reads Prog.calls_getTime
      intro respondedAt
      apply Prog.ThrowsFirst.attempt
      · exact fun proposal => sideEffect_neverThrows proposal
      · intro e
        cases e <;> trivial
  | award offerId acting userId proposalId =>
      apply answer
      apply Prog.ThrowsFirst.reads (readOffer_callFree _ _)
      intro offer
      apply Prog.ThrowsFirst.reads refuseIf_callFree
      intro _
      apply Prog.ThrowsFirst.reads (readProposal_callFree _ _ _)
      intro proposal
      apply Prog.ThrowsFirst.reads refuseIf_callFree
      intro _
      apply Prog.ThrowsFirst.reads Prog.calls_getTime
      intro now
      exact Prog.ThrowsFirst.perform fun offer => sideEffect_neverThrows offer
  | withdraw offerId acting userId =>
      apply answer
      apply Prog.ThrowsFirst.reads (readOffer_callFree _ _)
      intro offer
      apply Prog.ThrowsFirst.reads refuseIf_callFree
      intro _
      apply Prog.ThrowsFirst.reads Prog.calls_getTime
      intro now
      exact Prog.ThrowsFirst.perform fun offer => sideEffect_neverThrows offer
  | putCompany id company => exact Prog.ThrowsFirst.perform fun _ => trivial

end CiroFuel.Exchange
