import CiroFuel.Exchange.Listing

/-!
# Bid blindness

What a fuel company reads of the exchange it reads of its view: every offer, less
the award where it has neither raised nor won the offer, and of the proposals its
own and those on the offers it has raised.
-/
namespace CiroFuel.Exchange
open Query

def ExchangeOfferDocument.wonBy (o : ExchangeOfferDocument) (c : Id) : Bool :=
  decide (o.state = .awarded) && decide (o.awardedCompanyId = some c)

def ExchangeOfferDocument.withoutAward (o : ExchangeOfferDocument) : ExchangeOfferDocument :=
  { o with
    awardedProposalId := none
    awardedCompanyId := none
    agreedUnitPrice := none
    agreedTotal := none
    agreedQuantityLitres := none
    currency := none }

/-- The company's own proposals, and those on offers it has raised. -/
def seen (c : Id) (offers : List ExchangeOfferDocument) (p : ExchangeProposalDocument) : Bool :=
  decide (p.proposingCompanyId = c) ||
    offers.any fun o => decide (o.id = p.offerId) && decide (o.raisedByCompanyId = c)

/-- The offers are the same, or differ in an award that `c` has no part in. -/
def SameButAward (c : Id) (o o' : ExchangeOfferDocument) : Prop :=
  o' = o ∨ (o.raisedByCompanyId ≠ c ∧ o.wonBy c = false ∧ o'.wonBy c = false ∧
    o'.withoutAward = o.withoutAward)

/-- The two states agree on everything except other companies' proposals on offers
that `c` did not raise, and the award of offers that it neither raised nor won. -/
structure AgreeFor (c : Id) (db db' : Database) : Prop where
  companies : db'.companies = db.companies
  offers : List.Forall₂ (SameButAward c) db.offers db'.offers
  proposals : db'.proposals.filter (seen c db'.offers) = db.proposals.filter (seen c db.offers)

/-! ### The view of a company -/

def masked (c : Id) (o : ExchangeOfferDocument) : ExchangeOfferDocument :=
  if o.raisedByCompanyId = c ∨ o.wonBy c = true then o else o.withoutAward

def Database.view (db : Database) (c : Id) : Database where
  offers := db.offers.map (masked c)
  proposals := db.proposals.filter (seen c db.offers)
  companies := db.companies

section masked
variable (c : Id) (o : ExchangeOfferDocument)

@[simp] theorem masked_id : (masked c o).id = o.id := by
  unfold masked
  split <;> rfl

@[simp] theorem masked_partyCompanyIds : (masked c o).partyCompanyIds = o.partyCompanyIds := by
  unfold masked
  split <;> rfl

@[simp] theorem masked_openToMarket : (masked c o).openToMarket = o.openToMarket := by
  unfold masked
  split <;> rfl

@[simp] theorem masked_raisedByCompanyId :
    (masked c o).raisedByCompanyId = o.raisedByCompanyId := by
  unfold masked
  split <;> rfl

@[simp] theorem masked_fuelType : (masked c o).fuelType = o.fuelType := by
  unfold masked
  split <;> rfl

@[simp] theorem masked_quantityLitres : (masked c o).quantityLitres = o.quantityLitres := by
  unfold masked
  split <;> rfl

@[simp] theorem masked_state : (masked c o).state = o.state := by
  unfold masked
  split <;> rfl

@[simp] theorem masked_resolvedAt : (masked c o).resolvedAt = o.resolvedAt := by
  unfold masked
  split <;> rfl

@[simp] theorem masked_position : (masked c o).position = o.position := by
  unfold masked
  split <;> rfl

@[simp] theorem masked_isFor : (masked c o).isFor c = o.isFor c := by
  simp [ExchangeOffer.isFor]

/-- Who has won is not masked from the winner. -/
@[simp] theorem masked_wonBy : (masked c o).wonBy c = o.wonBy c := by
  unfold masked
  split_ifs with h
  · rfl
  · rw [not_or, Bool.not_eq_true] at h
    rw [h.2]
    exact Bool.and_false _

/-- Summaries disclose the award to the raiser and the winner alone. -/
theorem toOfferSummary_masked :
    toOfferSummary (masked c o) (decide (o.raisedByCompanyId = c) || o.wonBy c) =
      toOfferSummary o (decide (o.raisedByCompanyId = c) || o.wonBy c) := by
  unfold masked
  split_ifs with h
  · rfl
  · rw [not_or, Bool.not_eq_true] at h
    rw [h.2, decide_eq_false h.1]
    rfl

end masked

theorem SameButAward.masked {c : Id} {o o' : ExchangeOfferDocument} (h : SameButAward c o o') :
    Exchange.masked c o' = Exchange.masked c o := by
  rcases h with rfl | ⟨hraised, hwon, hwon', heq⟩
  · rfl
  · have hraised' : o'.raisedByCompanyId ≠ c :=
      (congrArg (fun o => o.raisedByCompanyId) heq).trans_ne hraised
    rw [Exchange.masked, Exchange.masked, if_neg, if_neg, heq]
    · rw [hwon]
      exact not_or.mpr ⟨hraised, Bool.false_ne_true⟩
    · rw [hwon']
      exact not_or.mpr ⟨hraised', Bool.false_ne_true⟩

/-- States that agree for the company have one view. -/
theorem AgreeFor.view {c : Id} {db db' : Database} (h : AgreeFor c db db') :
    db'.view c = db.view c := by
  have hmap : ∀ {l l' : List ExchangeOfferDocument}, List.Forall₂ (SameButAward c) l l' →
      l'.map (masked c) = l.map (masked c) := by
    intro l l' hl
    induction hl with
    | nil => rfl
    | cons hhead _ ih => rw [List.map_cons, List.map_cons, ih, hhead.masked]
  rw [Database.view, Database.view, hmap h.offers, h.proposals, h.companies]

/-! ### Proposals -/

section proposals
variable {ctx : RequestScope} {c : Id} {offers : List ExchangeOfferDocument}
  {proposals : List ExchangeProposalDocument} {filter : Conditions String ExchangeProposalDocument}

/-- The merged filter is the filter where the plugin has no say. -/
theorem merged_holds (h : ActsFor ctx c) (hor : filter.get .or = none) :
    ∃ scope, proposalScope ctx = .ok scope ∧
      ∀ p, (filter.merge scope).holds p = true → filter.holds p = true := by
  obtain ⟨scope, hscope, -, hnames⟩ := h.proposalScope
  refine ⟨scope, hscope, fun p hp => ?_⟩
  rw [merge_of_only_or hor hnames, Bool.and_eq_true] at hp
  exact hp.1

/-- A query that asks only for what the company sees finds it among what it sees. -/
theorem findProposals_seen (h : ActsFor ctx c) (hor : filter.get .or = none)
    (hseen : ∀ p, filter.holds p = true → seen c offers p = true) :
    findProposals ctx (proposals.filter (seen c offers)) filter =
      findProposals ctx proposals filter := by
  obtain ⟨scope, hscope, hmerged⟩ := merged_holds h hor
  simp only [findProposals, hscope]
  refine congrArg Except.ok ?_
  rw [List.filter_filter]
  refine List.filter_congr fun p _ => ?_
  rw [Bool.eq_iff_iff, Bool.and_eq_true]
  exact ⟨And.left, fun hp => ⟨hp, hseen p (hmerged p hp)⟩⟩

theorem countProposals_seen (h : ActsFor ctx c) (hor : filter.get .or = none)
    (hseen : ∀ p, filter.holds p = true → seen c offers p = true) :
    countProposals ctx (proposals.filter (seen c offers)) filter =
      countProposals ctx proposals filter := by
  obtain ⟨scope, hscope, hmerged⟩ := merged_holds h hor
  simp only [countProposals, hscope]
  refine congrArg Except.ok ?_
  rw [List.countP_filter]
  refine List.countP_congr fun p _ => ?_
  rw [Bool.and_eq_true]
  exact ⟨And.left, fun hp => ⟨hp, hseen p (hmerged p hp)⟩⟩

/-- All proposals on an offer that the company has raised are seen. -/
theorem seen_of_raised {o : ExchangeOfferDocument} (ho : o ∈ offers) (hraised : o.raisedByCompanyId = c)
    {p : ExchangeProposalDocument} (hp : p.offerId = o.id) : seen c offers p = true := by
  rw [seen, Bool.or_eq_true, List.any_eq_true]
  refine Or.inr ⟨o, ho, ?_⟩
  simp [hp, hraised]

theorem ofOffer_holds {offerId : Id} {rest : List (Name String × (ExchangeProposalDocument → Bool))}
    (hnodup : ((ofOffer offerId :: rest).map Prod.fst).Nodup) {p : ExchangeProposalDocument}
    (hp : (Conditions.object (ofOffer offerId :: rest)).holds p = true) :
    p.offerId = offerId ∧ ∀ e ∈ rest, e.2 p = true := by
  rw [Conditions.holds_object hnodup, List.all_cons, Bool.and_eq_true, List.all_eq_true] at hp
  exact ⟨of_decide_eq_true hp.1, hp.2⟩

end proposals

theorem mapM_congr {ε α β : Type} {f g : α → Except ε β} {l : List α} (h : ∀ a ∈ l, f a = g a) :
    l.mapM f = l.mapM g := by
  induction l with
  | nil => rfl
  | cons a l ih =>
      obtain ⟨ha, hl⟩ := List.forall_mem_cons.mp h
      rw [List.mapM_cons, List.mapM_cons, ha, ih hl]

/-! ### The list, the detail and the summary -/

section view
variable {ctx : RequestScope} {c : Id} {offers : List ExchangeOfferDocument}
  {proposals : List ExchangeProposalDocument}

theorem shapeListItem_masked (h : ActsFor ctx c) (names : List (Id × String))
    {o : ExchangeOfferDocument} (ho : o ∈ offers) :
    shapeListItem ctx (proposals.filter (seen c offers)) names c (masked c o) =
      shapeListItem ctx proposals names c o := by
  have hcounts : o.raisedByCompanyId = c → ∀ q : ExchangeProposalDocument → Bool,
      countProposals ctx (proposals.filter (seen c offers))
          (.object [ofOffer o.id, (.field "outcome", q)]) =
        countProposals ctx proposals (.object [ofOffer o.id, (.field "outcome", q)]) := by
    intro hraised q
    refine countProposals_seen h (Conditions.get_object (by simp [ofOffer])) fun p hp => ?_
    exact seen_of_raised ho hraised (ofOffer_holds (by simp [ofOffer]) hp).1
  have hsummary := toOfferSummary_masked c o
  simp only [ExchangeOfferDocument.wonBy] at hsummary
  have hwon := masked_wonBy c o
  simp only [ExchangeOfferDocument.wonBy] at hwon
  simp only [shapeListItem, masked_raisedByCompanyId, hwon, hsummary, masked_id]
  by_cases hraised : o.raisedByCompanyId = c
  · simp only [hraised, decide_true, if_true, hcounts hraised]
  · simp only [hraised, decide_false, Bool.false_eq_true, if_false]

theorem shapeListItems_masked (h : ActsFor ctx c) (companies : List (Id × CompanyRecord))
    {items : List ExchangeOfferDocument} (hitems : ∀ o ∈ items, o ∈ offers) :
    shapeListItems ctx (proposals.filter (seen c offers)) companies (items.map (masked c)) c =
      shapeListItems ctx proposals companies items c := by
  have hraisers : (items.map (masked c)).map (fun o => o.raisedByCompanyId) =
      items.map fun o => o.raisedByCompanyId := by
    simp [Function.comp_def]
  simp only [shapeListItems, hraisers, List.mapM_map]
  congr 1
  funext names
  exact mapM_congr fun o ho => shapeListItem_masked h names (hitems o ho)

theorem asked_masked (companies : List (Id × CompanyRecord)) (direction : ExchangeDirection)
    (state : Option ExchangeOfferState) (o : ExchangeOfferDocument) :
    asked companies c direction state (masked c o) = asked companies c direction state o := by
  cases direction <;> simp [asked, directed, comesIn, goesOut]

theorem findAll_view (h : ActsFor ctx c) (db : Database) (direction : ExchangeDirection)
    (state : Option ExchangeOfferState) (cursor : Option (Position Numbers)) :
    findAll ctx (db.view c) c direction state cursor = findAll ctx db c direction state cursor := by
  obtain ⟨scope, hscope, hisFor, hor⟩ := h.partySetScope
  cases hfilter : listFilter db.companies c direction state with
  | error e => simp only [findAll, Database.view, hfilter, bind, Except.bind]
  | ok filter =>
      have hpage : paginate ExchangeOfferDocument.position scope (db.offers.map (masked c)) filter
          EXCHANGE_SORT_KEYS cursor DEFAULT_PAGE_SIZE = _ :=
        paginate_map_of_holds (masked_position c) fun o => by
          rw [listFilter_merged hisFor hor hfilter, listFilter_merged hisFor hor hfilter,
            asked_masked, masked_isFor, masked_position]
      simp only [findAll, Database.view, hfilter, hscope, bind, Except.bind, hpage]
      rw [shapeListItems_masked h db.companies fun o ho => mem_of_mem_page ho]

theorem findOfferById_view (h : ActsFor ctx c) (offers : List ExchangeOfferDocument) (id : Id) :
    findOfferById ctx (offers.map (masked c)) id =
      (findOfferById ctx offers id).map (Option.map (masked c)) := by
  obtain ⟨scope, hscope, hisFor, hor⟩ := h.partySetScope
  have hholds : ((Conditions.only (.field "_id") fun o : ExchangeOfferDocument =>
      decide (o.id = id)).merge scope).holds ∘ masked c =
      ((Conditions.only (.field "_id") fun o : ExchangeOfferDocument =>
        decide (o.id = id)).merge scope).holds := by
    funext o
    rw [Function.comp_apply, merge_of_only_or rfl hor, merge_of_only_or rfl hor]
    simp [hisFor]
  simp only [findOfferById, hscope, bind, Except.bind, pure, Except.pure, Except.map, List.find?_map,
    hholds]

theorem findOfferById_mem {id : Id} {o : ExchangeOfferDocument}
    (h : findOfferById ctx offers id = .ok (some o)) : o ∈ offers := by
  unfold findOfferById at h
  obtain ⟨scope, -, h⟩ := except_bind_ok h
  injection h with h
  exact List.mem_of_find?_eq_some h

/-- To a company that has neither raised nor won the offer, the detail shows the
offer and the company's own proposal. -/
theorem buildDetail_bystander {companies : List (Id × CompanyRecord)} {o : ExchangeOfferDocument}
    (hraised : o.raisedByCompanyId ≠ c) (hwon : o.wonBy c = false) :
    buildDetail ctx proposals companies o (some c) .fuelCompanyAdmin = (do
      let raiserCompany ← findCompany companies o.raisedByCompanyId
      let found ← findProposals ctx proposals (.object [ofOffer o.id,
        (.field "proposingCompanyId", fun p => decide (p.proposingCompanyId = c))])
      return {
        summary := toOfferSummary o false
        raisedByCompanyName := raiserCompany.name
        myProposal := found.head?.map fun p => toProposalShape p o.quantityLitres }) := by
  have hnot : ¬ c = o.raisedByCompanyId := fun heq => hraised heq.symm
  have hlost : (decide (o.state = .awarded) && decide (some c = o.awardedCompanyId)) = false := by
    have hcomm : some c = o.awardedCompanyId ↔ o.awardedCompanyId = some c := eq_comm
    rw [decide_eq_decide.mpr hcomm]
    exact hwon
  simp [buildDetail, hnot, hlost]

theorem buildDetail_masked (h : ActsFor ctx c) (companies : List (Id × CompanyRecord))
    {o : ExchangeOfferDocument} (ho : o ∈ offers) :
    buildDetail ctx (proposals.filter (seen c offers)) companies (masked c o) (some c)
        .fuelCompanyAdmin =
      buildDetail ctx proposals companies o (some c) .fuelCompanyAdmin := by
  have hown : ∀ q : ExchangeProposalDocument → Bool, (∀ p, q p = true → p.proposingCompanyId = c) →
      findProposals ctx (proposals.filter (seen c offers))
          (.object [ofOffer o.id, (.field "proposingCompanyId", q)]) =
        findProposals ctx proposals (.object [ofOffer o.id, (.field "proposingCompanyId", q)]) := by
    intro q hq
    refine findProposals_seen h (Conditions.get_object (by simp [ofOffer])) fun p hp => ?_
    have hmine := hq p ((ofOffer_holds (by simp [ofOffer]) hp).2 _ List.mem_cons_self)
    rw [seen, decide_eq_true hmine, Bool.true_or]
  have hall : o.raisedByCompanyId = c →
      findProposals ctx (proposals.filter (seen c offers)) (.object [ofOffer o.id]) =
        findProposals ctx proposals (.object [ofOffer o.id]) := by
    intro hraised
    refine findProposals_seen h (Conditions.get_object (by simp [ofOffer])) fun p hp => ?_
    exact seen_of_raised ho hraised (ofOffer_holds (by simp [ofOffer]) hp).1
  have hproposals : buildDetail ctx (proposals.filter (seen c offers)) companies o (some c)
      .fuelCompanyAdmin = buildDetail ctx proposals companies o (some c) .fuelCompanyAdmin := by
    simp only [buildDetail, hown _ fun p hp => of_decide_eq_true hp]
    by_cases hraised : o.raisedByCompanyId = c
    · rw [hall hraised]
    · have hnot : ¬ c = o.raisedByCompanyId := fun heq => hraised heq.symm
      simp [hnot]
  rw [← hproposals]
  by_cases hpart : o.raisedByCompanyId = c ∨ o.wonBy c = true
  · rw [masked, if_pos hpart]
  · obtain ⟨hraised, hwon⟩ := not_or.mp hpart
    rw [Bool.not_eq_true] at hwon
    have hraised' : (masked c o).raisedByCompanyId ≠ c := by rwa [masked_raisedByCompanyId]
    have hwon' : (masked c o).wonBy c = false := by rwa [masked_wonBy]
    rw [buildDetail_bystander hraised hwon, buildDetail_bystander hraised' hwon', masked_id,
      masked_raisedByCompanyId, masked_quantityLitres]
    have hsummary : toOfferSummary (masked c o) false = toOfferSummary o false := by
      simpa [hraised, hwon] using toOfferSummary_masked c o
    rw [hsummary]

theorem findOne_view (h : ActsFor ctx c) (db : Database) (id : Id) :
    findOne ctx (db.view c) id (some c) .fuelCompanyAdmin =
      findOne ctx db id (some c) .fuelCompanyAdmin := by
  simp only [findOne, Database.view, findOfferById_view h]
  cases hfind : findOfferById ctx db.offers id with
  | error e => rfl
  | ok found =>
      cases found with
      | none => rfl
      | some o => exact buildDetail_masked h db.companies (findOfferById_mem hfind)

theorem countOffers_view (h : ActsFor ctx c) {filter : Conditions String ExchangeOfferDocument}
    (hor : filter.get .or = none) (hmasked : ∀ o, filter.holds (masked c o) = filter.holds o)
    (offers : List ExchangeOfferDocument) :
    countOffers ctx (offers.map (masked c)) filter = countOffers ctx offers filter := by
  obtain ⟨scope, hscope, hisFor, hnames⟩ := h.partySetScope
  have hholds : (filter.merge scope).holds ∘ masked c = (filter.merge scope).holds := by
    funext o
    rw [Function.comp_apply, merge_of_only_or hor hnames, merge_of_only_or hor hnames, hmasked,
      hisFor, hisFor, masked_isFor]
  simp only [countOffers, hscope, bind, Except.bind, List.countP_map, hholds]

theorem answeredOfferIds_seen (offers : List ExchangeOfferDocument)
    (proposals : List ExchangeProposalDocument) (c : Id) :
    answeredOfferIds (proposals.filter (seen c offers)) c = answeredOfferIds proposals c := by
  rw [answeredOfferIds, answeredOfferIds, List.filter_filter]
  congr 2
  refine List.filter_congr fun p _ => ?_
  cases hp : decide (p.proposingCompanyId = c) <;> simp [seen, hp]

theorem summary_view (h : ActsFor ctx c) (db : Database) (month : Month) :
    summary ctx (db.view c) c month = summary ctx db c month := by
  have houtgoing : ∀ o, (outgoingOpenFilter c).holds (masked c o) = (outgoingOpenFilter c).holds o := by
    intro o
    rw [(outgoingOpenFilter_ok c).1, (outgoingOpenFilter_ok c).1]
    simp [goesOut]
  have hawarded : ∀ o, (awardedThisMonthFilter c month).holds (masked c o) =
      (awardedThisMonthFilter c month).holds o := by
    intro o
    have hwon := masked_wonBy c o
    rw [(awardedThisMonthFilter_ok c month).1, (awardedThisMonthFilter_ok c month).1]
    simp only [ExchangeOfferDocument.wonBy, masked_state] at hwon
    by_cases hstate : o.state = .awarded
    · simp only [hstate, decide_true, Bool.true_and] at hwon
      simp [goesOut, hwon]
    · simp [hstate]
  cases hincoming : buildIncomingFilter db.companies c with
  | error e => simp only [summary, Database.view, hincoming, bind, Except.bind]
  | ok incoming =>
      have hawaiting : ∀ answered o, (awaitingAnswerFilter incoming answered).holds (masked c o) =
          (awaitingAnswerFilter incoming answered).holds o := by
        intro answered o
        rw [(awaitingAnswerFilter_ok hincoming answered).1,
          (awaitingAnswerFilter_ok hincoming answered).1]
        simp [comesIn]
      simp only [summary, Database.view, hincoming, answeredOfferIds_seen, bind, Except.bind,
        countOffers_view h (awaitingAnswerFilter_ok hincoming _).2 (hawaiting _),
        countOffers_view h (outgoingOpenFilter_ok c).2 houtgoing,
        countOffers_view h (awardedThisMonthFilter_ok c month).2 hawarded]

end view

/-- Two states that differ only in other companies' proposals on offers that `c`
did not raise, and in the awards of offers that it neither raised nor won, are
one to `c`: list, detail and summary are the same. -/
theorem bids_blind (ctx : RequestScope) (c : Id) (hctx : ActsFor ctx c) (db db' : Database)
    (h : AgreeFor c db db') :
    (∀ direction state cursor, findAll ctx db' c direction state cursor =
      findAll ctx db c direction state cursor) ∧
    (∀ id, findOne ctx db' id (some c) .fuelCompanyAdmin =
      findOne ctx db id (some c) .fuelCompanyAdmin) ∧
    ∀ month, summary ctx db' c month = summary ctx db c month := by
  refine ⟨fun direction state cursor => ?_, fun id => ?_, fun month => ?_⟩
  · rw [← findAll_view hctx db', h.view, findAll_view hctx]
  · rw [← findOne_view hctx db', h.view, findOne_view hctx]
  · rw [← summary_view hctx db', h.view, summary_view hctx]

/-! ### An award between two other companies -/

/-- An offer of company 12, awarded to company 14 at the price. -/
def awardedElsewhere (unitPrice : ℚ) : ExchangeOfferDocument where
  id := 600
  partyCompanyIds := [12]
  openToMarket := true
  raisedByCompanyId := 12
  raisedByUserId := 22
  fuelType := .diesel
  quantityLitres := 1000
  deliveryAt := 90
  city := 1
  state := .awarded
  awardedProposalId := some 700
  awardedCompanyId := some 14
  agreedUnitPrice := some (some unitPrice)
  agreedTotal := some (unitPrice * 1000)
  agreedQuantityLitres := some 1000
  currency := some .sar
  resolvedAt := some 20
  createdAt := 10
  updatedAt := 20

def winningProposal (unitPrice : ℚ) : ExchangeProposalDocument where
  id := 700
  offerId := 600
  offerRaisedByCompanyId := 12
  proposingCompanyId := 14
  proposingUserId := 24
  outcome := .awarded
  unitPrice := some (some unitPrice)
  currency := some .sar
  respondedAt := 15

def soldElsewhere (unitPrice : ℚ) : Database where
  offers := [awardedElsewhere unitPrice]
  proposals := [winningProposal unitPrice]
  companies := marketCompanies

theorem bids_blind_elsewhere :
    (∀ direction state cursor, findAll marketScope (soldElsewhere 3) 10 direction state cursor =
      findAll marketScope (soldElsewhere 2) 10 direction state cursor) ∧
    (∀ id, findOne marketScope (soldElsewhere 3) id (some 10) .fuelCompanyAdmin =
      findOne marketScope (soldElsewhere 2) id (some 10) .fuelCompanyAdmin) ∧
    ∀ month, summary marketScope (soldElsewhere 3) 10 month =
      summary marketScope (soldElsewhere 2) 10 month :=
  bids_blind marketScope 10 ⟨rfl, rfl⟩ (soldElsewhere 2) (soldElsewhere 3)
    { companies := rfl
      offers := .cons (Or.inr ⟨by decide, by decide, by decide, rfl⟩) .nil
      proposals := rfl }

end CiroFuel.Exchange
