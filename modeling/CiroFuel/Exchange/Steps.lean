import CiroFuel.Exchange.Market

/-!
# What a commit does to offers and proposals

An offer is created open and changes once, by an award or a withdrawal that finds
it open. A proposal is created by an answer and changes when its offer is awarded.
What was read of either stays true of the stored document in everything but how
it was resolved.
-/
namespace CiroFuel.Exchange
open Snapshot

/-! ### The writes -/

section writes
variable {env : Env} {v w : View Doc} {acting userId : Id} {now : Instant}

theorem createOffer_find {dto : CreateOfferDto} {r : ExchangeOfferDocument}
    (h : (createOffer acting userId dto).run env v = .ok (r, w)) :
    ∃ id t, v.find (Key.offer id) = none ∧
      w.find (Key.offer id) = some (offerOf acting userId dto t) ∧
      ∀ k, k ≠ Key.offer id → w.find k = v.find k := by
  obtain ⟨t, u₁, ht, h⟩ := Tx.bind_ok h
  obtain ⟨rfl, rfl⟩ := Tx.getTime_ok ht
  simp only at h
  split_ifs at h
  · obtain ⟨id, u₂, hid, h⟩ := Tx.bind_ok h
    obtain ⟨rfl, rfl⟩ := Tx.freshId_ok hid
    obtain ⟨_, u₃, hinsert, h⟩ := Tx.bind_ok h
    obtain ⟨hnone, -, rfl⟩ := Tx.insert_ok hinsert
    obtain ⟨-, rfl⟩ := Tx.pure_ok h
    exact ⟨_, _, hnone, View.find_put_self _ _ _, fun k hk => View.find_put_ne _ _ hk⟩
  · exact (Tx.throw_ok h).elim

theorem createProposal_find {p : ExchangeProposal} {r : ExchangeProposalDocument}
    (h : (createProposal p).run env v = .ok (r, w)) :
    ∃ id, r = p.withId id ∧ v.find (Key.proposal id) = none ∧
      w.find (Key.proposal id) = some p ∧ ∀ k, k ≠ Key.proposal id → w.find k = v.find k := by
  obtain ⟨id, u₁, hid, h⟩ := Tx.bind_ok h
  obtain ⟨rfl, rfl⟩ := Tx.freshId_ok hid
  obtain ⟨_, u₂, hinsert, h⟩ := Tx.bind_ok h
  obtain ⟨hnone, -, rfl⟩ := Tx.insert_ok hinsert
  obtain ⟨rfl, rfl⟩ := Tx.pure_ok h
  exact ⟨_, rfl, hnone, View.find_put_self _ _ _, fun k hk => View.find_put_ne _ _ hk⟩

/-- What an award makes of a proposal. -/
def resolved (offerId proposalId acting : Id) (now : Instant) (pid : Id) (p : ExchangeProposal) :
    ExchangeProposal :=
  if pid = proposalId then if p.isFor acting then p.resolve .awarded now else p
  else if p.offerId = offerId ∧ p.isFor acting = true then p.resolve .notSelected now else p

theorem awardOffer_find {offer : ExchangeOfferDocument} {proposal : ExchangeProposalDocument}
    {r : ExchangeOfferDocument}
    (h : (awardOffer offer proposal acting userId now).run env v = .ok (r, w)) :
    ∃ price o at_, proposal.unitPrice = some price ∧ v.find (Key.offer offer.id) = some o ∧
      openFor acting o = true ∧
      w.find (Key.offer offer.id) = some (o.award proposal offer.quantityLitres
        (roundCurrency (price.amount * offer.quantityLitres)) userId now at_) ∧
      (∀ id, id ≠ offer.id → w.find (Key.offer id) = v.find (Key.offer id)) ∧
      ∀ pid, w.find (Key.proposal pid) =
        (v.find (Key.proposal pid)).map (resolved offer.id proposal.id acting now pid) := by
  unfold awardOffer at h
  cases hprice : proposal.unitPrice with
  | none =>
      rw [hprice] at h
      exact (Tx.throw_ok h).elim
  | some price =>
      rw [hprice] at h
      obtain ⟨t, u₁, ht, h⟩ := Tx.bind_ok h
      obtain ⟨rfl, rfl⟩ := Tx.getTime_ok ht
      obtain ⟨found, u₂, hfound, h⟩ := Tx.bind_ok h
      rcases Tx.findOneAndUpdate_ok hfound with ⟨o, ho, hopen, -, rfl, rfl⟩ | ⟨rfl, -, -⟩
      · obtain ⟨b, u₃, hwinner, h⟩ := Tx.bind_ok h
        obtain ⟨found', u₄, hfound', hb⟩ := Tx.bind_ok hwinner
        obtain ⟨-, rfl⟩ := Tx.pure_ok hb
        obtain ⟨hself, hother⟩ := Tx.findOneAndUpdate_find hfound'
        obtain ⟨_, u₅, hmany, h⟩ := Tx.bind_ok h
        obtain ⟨-, rfl⟩ := Tx.pure_ok h
        have hmany := Tx.updateMany_find hmany
        refine ⟨price, o, env.time v.readings, rfl, ho, hopen, ?_, fun id hid => ?_, fun pid => ?_⟩
        · rw [hmany, hother _ (by simp), View.find_put_self]
          rfl
        · have hne : Key.offer id ≠ Key.offer offer.id := by simpa using hid
          rw [hmany, hother _ (by simp), View.find_put_ne _ _ hne, View.find_tick]
          cases v.find (Key.offer id) <;> rfl
        · have hne : Key.proposal pid ≠ Key.offer offer.id := by simp
          by_cases hpid : pid = proposal.id
          · subst hpid
            rw [hmany, hself, View.find_put_ne _ _ hne, View.find_tick]
            cases hp : v.find (Key.proposal proposal.id) with
            | none => simp
            | some p => simp [rewrite, siblings, resolved]
          · have hne' : Key.proposal pid ≠ Key.proposal proposal.id := by simpa using hpid
            rw [hmany, hother _ hne', View.find_put_ne _ _ hne, View.find_tick]
            cases hp : v.find (Key.proposal pid) with
            | none => simp
            | some p => simp [rewrite, siblings, resolved, hpid, notSelected]
      · exact (Tx.throw_ok h).elim

theorem withdrawOffer_find {offerId : Id} {r : ExchangeOfferDocument}
    (h : (withdrawOffer offerId acting userId now).run env v = .ok (r, w)) :
    ∃ o at_, v.find (Key.offer offerId) = some o ∧ openFor acting o = true ∧
      w.find (Key.offer offerId) = some (o.withdraw userId now at_) ∧
      ∀ k, k ≠ Key.offer offerId → w.find k = v.find k := by
  obtain ⟨t, u₁, ht, h⟩ := Tx.bind_ok h
  obtain ⟨rfl, rfl⟩ := Tx.getTime_ok ht
  obtain ⟨found, u₂, hfound, h⟩ := Tx.bind_ok h
  rcases Tx.findOneAndUpdate_ok hfound with ⟨o, ho, hopen, -, rfl, rfl⟩ | ⟨rfl, -, -⟩
  · obtain ⟨-, rfl⟩ := Tx.pure_ok h
    exact ⟨o, _, ho, hopen, View.find_put_self _ _ _, fun k hk => View.find_put_ne _ _ hk⟩
  · exact (Tx.throw_ok h).elim

end writes

/-! ### Steps of one offer and of one proposal -/

inductive OfferStep (c : Call) (id : Id) : Option ExchangeOffer → Option ExchangeOffer → Prop where
  | same (o : Option ExchangeOffer) : OfferStep c id o o
  | created {acting userId dto t} (hcall : c = .create acting userId dto) :
      OfferStep c id none (some (offerOf acting userId dto t))
  | awarded {offer proposal acting userId now o price at_}
      (hcall : c = .award offer proposal acting userId now) (hid : id = offer.id)
      (hopen : o.state = .open_) (hprice : proposal.unitPrice = some price) :
      OfferStep c id (some o) (some (o.award proposal offer.quantityLitres
        (roundCurrency (price.amount * offer.quantityLitres)) userId now at_))
  | withdrawn {offer acting userId now o at_} (hcall : c = .withdraw offer acting userId now)
      (hid : id = offer.id) (hopen : o.state = .open_) :
      OfferStep c id (some o) (some (o.withdraw userId now at_))

inductive ProposalStep (c : Call) (pid : Id) :
    Option ExchangeProposal → Option ExchangeProposal → Prop where
  | same (p : Option ExchangeProposal) : ProposalStep c pid p p
  | answered {offer acting userId dto t} (hcall : c = .propose offer acting userId dto t) :
      ProposalStep c pid none (some (proposalOf offer acting userId dto t))
  | won {offer proposal acting userId now p} (hcall : c = .award offer proposal acting userId now)
      (hid : pid = proposal.id) :
      ProposalStep c pid (some p) (some (p.resolve .awarded now))
  | lost {offer proposal acting userId now p} (hcall : c = .award offer proposal acting userId now)
      (hid : pid ≠ proposal.id) (hoffer : p.offerId = offer.id) :
      ProposalStep c pid (some p) (some (p.resolve .notSelected now))

section bodies
variable {env : Env} {v w : View Doc} {c : Call} {r : c.Reply}

theorem body_offer (h : c.body.run env v = .ok (r, w)) (id : Id) :
    OfferStep c id (v.find (Key.offer id)) (w.find (Key.offer id)) := by
  cases c with
  | create acting userId dto =>
      obtain ⟨id', t, hnone, hsome, hframe⟩ := createOffer_find h
      by_cases hid : id = id'
      · subst hid
        rw [hnone, hsome]
        exact .created rfl
      · rw [hframe _ (by simpa using hid)]
        exact .same _
  | propose offer acting userId dto t =>
      obtain ⟨pid, -, -, -, hframe⟩ := createProposal_find h
      rw [hframe _ (by simp)]
      exact .same _
  | award offer proposal acting userId now =>
      obtain ⟨price, o, at_, hprice, ho, hopen, hawarded, hframe, -⟩ := awardOffer_find h
      by_cases hid : id = offer.id
      · rw [hid, ho, hawarded]
        exact .awarded rfl rfl (of_decide_eq_true (Bool.and_eq_true_iff.mp hopen).1) hprice
      · rw [hframe id hid]
        exact .same _
  | withdraw offer acting userId now =>
      obtain ⟨o, at_, ho, hopen, hwithdrawn, hframe⟩ := withdrawOffer_find h
      by_cases hid : id = offer.id
      · rw [hid, ho, hwithdrawn]
        exact .withdrawn rfl rfl (of_decide_eq_true (Bool.and_eq_true_iff.mp hopen).1)
      · rw [hframe _ (by simpa using hid)]
        exact .same _
  | putCompany id' company =>
      have hput : (Tx.upsert (Key.company id') company fun _ => company : Action Unit).run env v =
          .ok (r, w) := h
      obtain ⟨-, rfl⟩ := Tx.upsert_ok hput
      rw [View.find_put_ne _ _ (by simp)]
      exact .same _

theorem body_proposal (h : c.body.run env v = .ok (r, w)) (pid : Id) :
    ProposalStep c pid (v.find (Key.proposal pid)) (w.find (Key.proposal pid)) := by
  cases c with
  | create acting userId dto =>
      obtain ⟨id', t, -, -, hframe⟩ := createOffer_find h
      rw [hframe _ (by simp)]
      exact .same _
  | propose offer acting userId dto t =>
      obtain ⟨pid', -, hnone, hsome, hframe⟩ := createProposal_find h
      by_cases hid : pid = pid'
      · subst hid
        rw [hnone, hsome]
        exact .answered rfl
      · rw [hframe _ (by simpa using hid)]
        exact .same _
  | award offer proposal acting userId now =>
      obtain ⟨price, o, at_, -, -, -, -, -, hproposals⟩ := awardOffer_find h
      rw [hproposals pid]
      cases v.find (Key.proposal pid) with
      | none => exact .same _
      | some p =>
          rw [Option.map_some, resolved]
          split_ifs with hid hfor hother
          · exact .won rfl hid
          · exact .same _
          · exact .lost rfl hid hother.1
          · exact .same _
  | withdraw offer acting userId now =>
      obtain ⟨o, at_, -, -, -, hframe⟩ := withdrawOffer_find h
      rw [hframe _ (by simp)]
      exact .same _
  | putCompany id' company =>
      have hput : (Tx.upsert (Key.company id') company fun _ => company : Action Unit).run env v =
          .ok (r, w) := h
      obtain ⟨-, rfl⟩ := Tx.upsert_ok hput
      rw [View.find_put_ne _ _ (by simp)]
      exact .same _

end bodies

section commits
variable {ev : Event Doc Call.Reply} {id pid : Id}

theorem offer_step (hev : ev.Sound machine) (holder : Store.Older ev.base ev.before) (id : Id) :
    OfferStep ev.label id (ev.before.offer id) (ev.after.offer id) := by
  rcases hev.cases holder (Key.offer id) with ⟨hbefore, hafter⟩ | ⟨-, hsame, -⟩
  · have hstep := body_offer hev.ran id
    have hbase : (View.start ev.base.docs).find (Key.offer id) = ev.before.find (Key.offer id) :=
      hbefore
    rw [hbase, ← hafter] at hstep
    exact hstep
  · rw [Store.offer, Store.offer, hsame]
    exact .same _

theorem proposal_step (hev : ev.Sound machine) (holder : Store.Older ev.base ev.before) (pid : Id) :
    ProposalStep ev.label pid (ev.before.proposal pid) (ev.after.proposal pid) := by
  rcases hev.cases holder (Key.proposal pid) with ⟨hbefore, hafter⟩ | ⟨-, hsame, -⟩
  · have hstep := body_proposal hev.ran pid
    have hbase : (View.start ev.base.docs).find (Key.proposal pid) =
        ev.before.find (Key.proposal pid) := hbefore
    rw [hbase, ← hafter] at hstep
    exact hstep
  · rw [Store.proposal, Store.proposal, hsame]
    exact .same _

/-- An award finds the offer open and resolves the proposals of its snapshot. -/
theorem award_commit (hev : ev.Sound machine) (holder : Store.Older ev.base ev.before)
    {offer : ExchangeOfferDocument} {proposal : ExchangeProposalDocument} {acting userId : Id}
    {now : Instant} (hlabel : ev.label = .award offer proposal acting userId now) :
    ∃ price o at_, proposal.unitPrice = some price ∧ ev.base.offer offer.id = some o ∧
      ev.before.offer offer.id = some o ∧ openFor acting o = true ∧
      ev.after.offer offer.id = some (o.award proposal offer.quantityLitres
        (roundCurrency (price.amount * offer.quantityLitres)) userId now at_) ∧
      ∀ pid p, ev.base.proposal pid = some p →
        resolved offer.id proposal.id acting now pid p ≠ p →
        ev.before.proposal pid = some p ∧
          ev.after.proposal pid = some (resolved offer.id proposal.id acting now pid p) := by
  obtain ⟨i, label, base, env, began, ended, reply, view, before, after⟩ := ev
  obtain rfl := hlabel
  obtain ⟨price, o, at_, hprice, ho, hopen, hawarded, -, hproposals⟩ := awardOffer_find hev.ran
  have hstate : o.state = .open_ := of_decide_eq_true (Bool.and_eq_true_iff.mp hopen).1
  have hchanged : view.find (Key.offer offer.id) ≠ base.find (Key.offer offer.id) := by
    rw [hawarded]
    intro heq
    have hsame := Option.some.inj (heq.trans ho)
    have hcontra := congrArg (fun o => o.state) hsame
    simp only [ExchangeOffer.award, hstate] at hcontra
    cases hcontra
  obtain ⟨hbefore, hafter⟩ := hev.written holder hchanged
  refine ⟨price, o, at_, hprice, ho, hbefore.symm.trans ho, hopen, hafter.trans hawarded, ?_⟩
  intro pid p hp hne
  have hview : view.find (Key.proposal pid) =
      some (resolved offer.id proposal.id acting now pid p) := by
    have hbase : (View.start base.docs).find (Key.proposal pid) = some p := hp
    rw [hproposals pid, hbase, Option.map_some]
  have hchanged : view.find (Key.proposal pid) ≠ base.find (Key.proposal pid) := by
    rw [hview]
    intro heq
    exact hne (Option.some.inj (heq.trans hp))
  obtain ⟨hbefore, hafter⟩ := hev.written holder hchanged
  exact ⟨hbefore.symm.trans hp, hafter.trans hview⟩

end commits

end CiroFuel.Exchange
