import CiroFuel.Exchange.Awards

/-!
# Answers, and what becomes of them

An answer is stored on what its handler has read of the offer, and an award
resolves the proposals of its snapshot; nothing ties the two together. A price is
left hanging by an answer that overlaps the award, and by nothing else.
-/
namespace CiroFuel.Exchange
open Snapshot Discipline

/-- The proposal that a call has stored. -/
def Call.answer : (c : Call) → c.Reply → Option ExchangeProposalDocument
  | .propose .., proposal => some proposal
  | _, _ => none

def answers (log : List (Event Doc Call.Reply)) : List ExchangeProposalDocument :=
  log.filterMap fun ev => ev.label.answer ev.reply

/-- The proposals on the offer answer it as stored, for a company that has not raised it. -/
def Sourced (id : Id) (s : Store Doc) : Prop :=
  ∀ pid p, s.proposal pid = some p → p.offerId = id →
    ∃ o, s.offer id = some o ∧ p.offerRaisedByCompanyId = o.raisedByCompanyId ∧
      p.proposingCompanyId ≠ o.raisedByCompanyId

/-! ### The stored proposals -/

theorem mem_proposalsOf {d : Docs Doc} {p : ExchangeProposalDocument} :
    p ∈ proposalsOf d ↔ d.lookup (Key.proposal p.id) = some p.toExchangeProposal := by
  simp only [proposalsOf, List.mem_filterMap]
  constructor
  · rintro ⟨⟨k, x⟩, hmem, hx⟩
    cases k with
    | proposal id =>
        cases hx
        exact AList.mem_lookup_iff.mpr hmem
    | offer id => cases hx
    | company id => cases hx
  · intro hp
    exact ⟨_, AList.mem_lookup_iff.mp hp, rfl⟩

theorem proposalsOf_nodup (d : Docs Doc) : ((proposalsOf d).map fun p => p.id).Nodup := by
  rw [List.Nodup, List.pairwise_map]
  apply List.Pairwise.filterMap _ _ (List.NodupKeys.pairwise_ne d.nodupKeys)
  rintro ⟨k, x⟩ ⟨k', x'⟩ hne p hp p' hp' hid
  apply hne
  cases k with
  | proposal pid =>
      cases k' with
      | proposal pid' =>
          cases hp
          cases hp'
          exact congrArg Key.proposal hid
      | offer id => cases hp'
      | company id => cases hp'
  | offer id => cases hp
  | company id => cases hp

/-- An answer is stored under an identifier that was free, and nothing else is. -/
theorem answer_commit {ev : Event Doc Call.Reply} (hev : ev.Sound machine)
    (holder : Store.Older ev.base ev.before) {r : ExchangeProposalDocument}
    (h : ev.label.answer ev.reply = some r) :
    ∃ offer acting userId dto t, ev.label = .propose offer acting userId dto t ∧
      r.toExchangeProposal = proposalOf offer acting userId dto t ∧
      ev.before.proposal r.id = none ∧ ev.after.proposal r.id = some r.toExchangeProposal ∧
      ∀ pid, pid ≠ r.id → ev.after.proposal pid = ev.before.proposal pid := by
  obtain ⟨i, label, base, env, began, ended, reply, view, before, after⟩ := ev
  cases label with
  | propose offer acting userId dto t =>
      injection h with heq
      obtain ⟨id, hr, hnone, hsome, hframe⟩ := createProposal_find hev.ran
      obtain rfl := hr.symm.trans heq
      have hchanged : view.find (Key.proposal id) ≠ base.find (Key.proposal id) := by
        have hbase : base.find (Key.proposal id) = none := hnone
        rw [hsome, hbase]
        simp
      obtain ⟨hbefore, hafter⟩ := hev.written holder hchanged
      refine ⟨_, _, _, _, _, rfl, rfl, hbefore.symm.trans hnone, hafter.trans hsome, ?_⟩
      intro pid hpid
      exact hev.unwritten holder (hframe _ fun heq => hpid (Key.proposal.inj heq))
  | create => cases h
  | award => cases h
  | withdraw => cases h
  | putCompany => cases h

/-- Without an answer no proposal is added. -/
theorem unanswered_commit {ev : Event Doc Call.Reply} (hev : ev.Sound machine)
    (holder : Store.Older ev.base ev.before) (h : ev.label.answer ev.reply = none) {pid : Id}
    {p : ExchangeProposal} (hp : ev.after.proposal pid = some p) :
    ∃ p₀, ev.before.proposal pid = some p₀ := by
  have hstep := proposal_step hev holder pid
  rw [hp] at hstep
  generalize ev.before.proposal pid = x at hstep ⊢
  cases hstep with
  | same => exact ⟨p, rfl⟩
  | answered hlabel =>
      obtain ⟨i, label, base, env, began, ended, reply, view, before, after⟩ := ev
      obtain rfl := hlabel
      cases h
  | won => exact ⟨_, rfl⟩
  | lost => exact ⟨_, rfl⟩

section commits
variable {ev : Event Doc Call.Reply} {id : Id}

/-- What a call has read of an offer is stored when it commits. -/
theorem read_before (hholds : trading.Holds ev) {offer : ExchangeOfferDocument}
    (hread : OfferRead ev.base offer) :
    ∃ o, ev.before.offer offer.id = some o ∧ o.raisedByCompanyId = offer.raisedByCompanyId := by
  obtain ⟨o, ho, hterms⟩ := hread.onward hholds.base_before
  exact ⟨o, ho, terms_raisedByCompanyId hterms⟩

theorem commit_sourced (hev : ev.Sound machine) (hholds : trading.Holds ev)
    (hbefore : Sourced id ev.before) : Sourced id ev.after := by
  intro pid p hp hid
  have honward := commit_onward hev hholds.older
  have hsource : ∃ o, ev.before.offer id = some o ∧
      p.offerRaisedByCompanyId = o.raisedByCompanyId ∧
      p.proposingCompanyId ≠ o.raisedByCompanyId := by
    cases hold : ev.before.proposal pid with
    | some p₀ =>
        obtain ⟨p₁, hp₁, hterms⟩ := honward.proposals pid p₀ hold
        cases hp.symm.trans hp₁
        have hid₀ : p₀.offerId = id := (terms_offerId hterms).symm.trans hid
        obtain ⟨o, ho, hraised, hauthor⟩ := hbefore pid p₀ hold hid₀
        refine ⟨o, ho, ?_, ?_⟩
        · rw [terms_offerRaisedByCompanyId hterms]
          exact hraised
        · rw [terms_proposingCompanyId hterms]
          exact hauthor
    | none =>
        have hstep := proposal_step hev hholds.older pid
        rw [hold, hp] at hstep
        cases hstep with
        | @answered offer acting userId dto t hlabel =>
            have hpre : ev.label.Checked ev.base := hholds.pre
            rw [hlabel] at hpre
            obtain ⟨o, ho, hraised⟩ := read_before hholds hpre.offerRead
            have hoffer : offer.id = id := hid
            rw [hoffer] at ho
            refine ⟨o, ho, hraised.symm, ?_⟩
            rw [hraised]
            exact hpre.notRaiser.symm
  obtain ⟨o, ho, hraised, hauthor⟩ := hsource
  obtain ⟨o', ho', hterms, -⟩ := honward.offers id o ho
  rw [← terms_raisedByCompanyId hterms] at hraised hauthor
  exact ⟨o', ho', hraised, hauthor⟩

end commits

/-! ### Answers that overlap an award -/

/-- An answer commits on the offer as it was read, and an award on every open price. -/
def upToDate (ev : Event Doc Call.Reply) : Bool :=
  match ev.label with
  | .propose offer _ _ _ _ => decide (ev.before.offer offer.id = some offer.toExchangeOffer)
  | .award offer _ _ _ _ => (proposalsOf ev.before.docs).all fun p =>
      !(decide (p.offerId = offer.id) && decide (p.outcome = .proposed)) ||
        (ev.base.proposal p.id).isSome
  | _ => true

/-- The award has resolved every open price. -/
def Resolved (id : Id) (s : Store Doc) : Prop :=
  IsAwarded s id → ∀ pid p, s.proposal pid = some p → p.offerId = id → p.outcome ≠ .proposed

section commits
variable {ev : Event Doc Call.Reply} {id : Id}

theorem commit_resolved_other (hev : ev.Sound machine) (hholds : trading.Holds ev)
    (hup : upToDate ev = true) (hother : ¬ ev.label.Awards id) (hbefore : Resolved id ev.before) :
    Resolved id ev.after := by
  rintro ⟨o, ho, hstate⟩ pid p hp hid
  have ho₀ := awarded_before hev hholds hother ho hstate
  rcases proposal_origin hev hholds hother hp hid with hp₀ | ⟨hnone, -⟩
  · exact hbefore ⟨o, ho₀, hstate⟩ pid p hp₀ hid
  · -- A new answer is stored on the open offer that its handler read, and this one is awarded.
    exfalso
    have hstep := proposal_step hev hholds.older pid
    rw [hnone, hp] at hstep
    cases hstep with
    | @answered offer acting userId dto t hlabel =>
        have hpre : ev.label.Checked ev.base := hholds.pre
        simp only [upToDate, hlabel, decide_eq_true_eq] at hup
        rw [hlabel] at hpre
        have hoffer : offer.id = id := hid
        rw [hoffer, ho₀] at hup
        cases hup
        have hopen := hpre.isOpen
        rw [hstate] at hopen
        cases hopen

/-- An award that finds all open prices in its snapshot resolves them. -/
theorem commit_resolved_award (hev : ev.Sound machine) (hholds : trading.Holds ev)
    (hup : upToDate ev = true) (hawards : ev.label.Awards id) (hbase : Decided id ev.base)
    (hbefore : Decided id ev.before) (hsourced : Sourced id ev.before) : Resolved id ev.after := by
  obtain ⟨offer, proposal, acting, userId, now, hlabel, rfl⟩ := hawards
  obtain ⟨price, o, at_, -, hobase, ho, hopen, -, hresolved⟩ := award_commit hev hholds.older hlabel
  have hstate : o.state = .open_ := of_decide_eq_true (Bool.and_eq_true_iff.mp hopen).1
  rintro - pid p hp hid hproposed
  have hstep := proposal_step hev hholds.older pid
  rw [hp] at hstep
  generalize hold : ev.before.proposal pid = x at hstep
  cases hstep with
  | answered hcall =>
      rw [hlabel] at hcall
      cases hcall
  | won => cases hproposed
  | lost => cases hproposed
  | same =>
      have hpre : ev.label.Checked ev.base := hholds.pre
      rw [hlabel] at hpre
      simp only [upToDate, hlabel, List.all_eq_true] at hup
      have hpresent := hup (p.withId pid) (mem_proposalsOf.mpr hold)
      simp only [ExchangeProposal.withId, hid, hproposed, decide_true, Bool.and_self, Bool.not_true,
        Bool.false_or] at hpresent
      obtain ⟨p₀, hp₀⟩ := Option.isSome_iff_exists.mp hpresent
      obtain ⟨p₁, hp₁, hterms⟩ := hholds.base_before.proposals pid p₀ hp₀
      cases hold.symm.trans hp₁
      have hid₀ : p₀.offerId = offer.id := (terms_offerId hterms).symm.trans hid
      -- The price is open in the snapshot too, for its offer is.
      have hproposed₀ : p₀.outcome = .proposed := by
        have hopen₀ := hbase.unresolved (not_awarded_of_open hobase hstate) pid p₀ hp₀ hid₀
        rcases hopen₀ with ⟨hout, -⟩ | ⟨-, hnone⟩
        · exact hout
        · rcases hbefore.unresolved (not_awarded_of_open ho hstate) pid p hold hid with
            ⟨-, hsome⟩ | ⟨hout, -⟩
          · rw [terms_unitPrice hterms, hnone] at hsome
            cases hsome
          · rw [hproposed] at hout
            cases hout
      have hfor : p₀.isFor acting = true := by
        obtain ⟨o₁, ho₁, hraised, -⟩ := hsourced pid p hold hid
        cases ho.symm.trans ho₁
        obtain ⟨o₂, ho₂, hoterms⟩ := hpre.offerRead
        cases hobase.symm.trans ho₂
        rw [← terms_proposal_isFor hterms, ExchangeProposal.isFor, Bool.or_eq_true]
        apply Or.inr
        apply decide_eq_true
        exact hraised.trans ((terms_raisedByCompanyId hoterms).trans hpre.raiser)
      have hout : (resolved offer.id proposal.id acting now pid p₀).outcome ≠ .proposed := by
        by_cases hpid : pid = proposal.id
        · rw [resolved, if_pos hpid, if_pos hfor]
          intro hcontra
          cases hcontra
        · rw [resolved, if_neg hpid, if_pos ⟨hid₀, hfor⟩]
          intro hcontra
          cases hcontra
      have hchanged : resolved offer.id proposal.id acting now pid p₀ ≠ p₀ := by
        intro heq
        rw [heq] at hout
        exact hout hproposed₀
      obtain ⟨-, hafter⟩ := hresolved pid p₀ hp₀ hchanged
      cases hp.symm.trans hafter
      exact hout hproposed

theorem commit_resolved (hev : ev.Sound machine) (hholds : trading.Holds ev)
    (hup : upToDate ev = true) (hbase : Decided id ev.base) (hbefore : Decided id ev.before)
    (hsourced : Sourced id ev.before) (hresolved : Resolved id ev.before) :
    Resolved id ev.after := by
  by_cases hawards : ev.label.Awards id
  · exact commit_resolved_award hev hholds hup hawards hbase hbefore hsourced
  · exact commit_resolved_other hev hholds hup hawards hresolved

end commits

section runs
variable {P : Event Doc Call.Reply → Prop} {init : Store Doc} {log : List (Event Doc Call.Reply)}
variable {s : Sys Doc Call.Reply HttpError Answer} {id : Id}

theorem sourced_run (hinit : Sourced id init) (h : Run machine init P log s) :
    Sourced id s.store ∧ ∀ ev ∈ log, Sourced id ev.before := by
  obtain ⟨hs, hrun⟩ := (traded h).invariant (Sourced id) hinit
    fun ev hev hP _ hbefore => commit_sourced hev hP.2 hbefore
  exact ⟨hs, fun ev hmem => (hrun.mem hmem).2.2.2.1⟩

/-- If no answer and no award commit over each other, an award leaves no price
hanging, and every answer is stored while its offer is open. -/
theorem none_hanging (hinit : Untouched id init) (hsourced : Sourced id init)
    (h : Run machine init (fun ev => upToDate ev = true) log s) :
    (∀ o, s.store.offer id = some o → o.state = .awarded → ∀ pid p,
      s.store.proposal pid = some p → p.offerId = id → p.outcome ≠ .proposed ∧
        (p.unitPrice.isSome → p.outcome = .awarded ∨ p.outcome = .notSelected)) ∧
    ∀ ev ∈ log, ∀ r, ev.label.answer ev.reply = some r → r.offerId = id →
      ∃ o, ev.before.offer id = some o ∧ o.state = .open_ := by
  have hrun := traded h
  obtain ⟨⟨hdecided, -, hresolved⟩, -⟩ := hrun.invariant
    (fun s => Decided id s ∧ Sourced id s ∧ Resolved id s)
    ⟨hinit.decided, hsourced, fun ⟨o, ho, hstate⟩ => absurd ⟨o, ho, hstate⟩
      (not_awarded_of_open ho (hinit.offer o ho))⟩
    fun ev hev hP hbase hbefore => ⟨commit_decided hev hP.2 hbase.1 hbefore.1,
      commit_sourced hev hP.2 hbefore.2.1,
      commit_resolved hev hP.2 hP.1 hbase.1 hbefore.1 hbefore.2.1 hbefore.2.2⟩
  constructor
  · intro o ho hstate pid p hp hid
    have hout := hresolved ⟨o, ho, hstate⟩ pid p hp hid
    refine ⟨hout, ?_⟩
    intro hpriced
    cases houtcome : p.outcome with
    | proposed => exact absurd houtcome hout
    | declined =>
        rw [hdecided.declines pid p hp hid houtcome] at hpriced
        cases hpriced
    | awarded => exact Or.inl rfl
    | notSelected => exact Or.inr rfl
  · intro ev hmem r hr hid
    obtain ⟨hev, hup, hholds⟩ := hrun.mem hmem
    obtain ⟨offer, acting, userId, dto, t, hlabel, hproposal, -⟩ :=
      answer_commit hev hholds.older hr
    have hpre : ev.label.Checked ev.base := hholds.pre
    rw [hlabel] at hpre
    simp only [upToDate, hlabel, decide_eq_true_eq] at hup
    have hoffer : offer.id = id := by
      rw [← hid, hproposal]
      rfl
    rw [hoffer] at hup
    exact ⟨_, hup, hpre.isOpen⟩

end runs

/-! ### Sample runs -/

theorem sourced_empty (id : Id) : Sourced id Store.empty := by
  intro pid p hp
  cases hp

namespace Sample

def price (acting userId : Id) : Request :=
  .propose 600 acting userId { unitPrice := some (some 2) }

/-- Two prices, and one of them is awarded. -/
def twoPrices : List (Act Request) :=
  opening ++ serve (price 12 22) 4 7 700 ++ serve (price 14 24) 5 7 701 ++
    serve (.award 600 10 21 701) 6 6

/-- Company 12 has read the open offer; it answers when company 14 has been awarded it. -/
def lateAnswer : List (Act Request) :=
  opening ++ serve (price 12 22) 4 5 ++ serve (price 14 24) 5 7 701 ++
    serve (.award 600 10 21 701) 6 6 ++ [Act.step 4 true 700, .step 4]

/-- Company 12 answers between the snapshot of the award and its commit. -/
def overlappedAward : List (Act Request) :=
  opening ++ serve (price 14 24) 4 7 701 ++ serve (.award 600 10 21 701) 5 4 ++
    serve (price 12 22) 6 7 700 ++ [Act.step 5, .step 5]

def returned (t : Thread Doc Call.Reply HttpError Answer) : Bool :=
  match t.prog with
  | .pure _ => true
  | _ => false

/-- The offer is awarded, and proposal 700 answers it with a price nobody has resolved. -/
def hanging (s : Sys Doc Call.Reply HttpError Answer) : Bool :=
  s.threads.all returned && ((s.store.offer 600).any fun o => o.state = .awarded) &&
    (s.store.proposal 700).any fun p =>
      p.offerId = 600 && p.outcome = .proposed && p.unitPrice.isSome

/-- An answer was stored on an offer that was not open. -/
def storedLate (ev : Event Doc Call.Reply) : Bool :=
  (ev.label.answer ev.reply).any fun r =>
    r.id = 700 && !(ev.before.offer r.offerId).any fun o => o.state = .open_

end Sample

theorem none_hanging_twoPrices :
    ∃ log s p, Run machine Store.empty (fun ev => upToDate ev = true) log s ∧
      s.store.proposal 700 = some p ∧ p.outcome ≠ .proposed ∧
      (p.outcome = .awarded ∨ p.outcome = .notSelected) := by
  obtain ⟨log, s, hrun, htest⟩ := exists_run machine Store.empty (fun ev => upToDate ev = true)
    Sample.twoPrices
    (fun _ s => ((s.store.offer 600).any fun o => o.state = .awarded) &&
      (s.store.proposal 700).any fun p => p.offerId = 600 && p.unitPrice.isSome) (by decide +kernel)
  obtain ⟨hoffer, hproposal⟩ := Bool.and_eq_true_iff.mp htest
  obtain ⟨o, ho, hstate⟩ := (Option.any_eq_true _ _).mp hoffer
  obtain ⟨p, hp, hpriced⟩ := (Option.any_eq_true _ _).mp hproposal
  obtain ⟨hid, hprice⟩ := Bool.and_eq_true_iff.mp hpriced
  obtain ⟨hresolved, -⟩ := none_hanging (untouched_empty 600) (sourced_empty 600) hrun
  obtain ⟨hout, hwon⟩ := hresolved o ho (of_decide_eq_true hstate) 700 p hp (of_decide_eq_true hid)
  exact ⟨log, s, p, hrun, hp, hout, hwon hprice⟩

/-- All calls have returned and the offer is awarded, yet a price is left hanging. It
was stored after the award, or it was stored in time and the award did not see it. -/
theorem price_left_hanging :
    (∃ log s, Run machine Store.empty (fun _ => True) log s ∧
      (Sample.hanging s && log.any Sample.storedLate) = true) ∧
    ∃ log s, Run machine Store.empty (fun _ => True) log s ∧
      (Sample.hanging s && !log.any Sample.storedLate) = true := by
  constructor
  · exact exists_run machine Store.empty (fun _ => True) Sample.lateAnswer
      (fun log s => Sample.hanging s && log.any Sample.storedLate) (by decide +kernel)
  · exact exists_run machine Store.empty (fun _ => True) Sample.overlappedAward
      (fun log s => Sample.hanging s && !log.any Sample.storedLate) (by decide +kernel)

end CiroFuel.Exchange
