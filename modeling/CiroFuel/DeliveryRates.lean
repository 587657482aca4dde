import CiroFuel.TransportFees

/-!
# Saving delivery rates

A transporter saves the whole list of its rates. The list is checked before anything is read,
so no two of its entries are for one area. A save reads the stored list, to carry forward when
each rate was last changed, and then replaces it; another save may come in between.
-/
namespace CiroFuel.DeliveryRates

structure RateRecord extends DeliveryRate where
  updatedAt : Instant
deriving DecidableEq

structure CompanyRecord where
  type : CompanyType
  deliveryRates : List RateRecord := []
deriving DecidableEq

abbrev Companies := Id → Option CompanyRecord

/-- An entry that passes validation. -/
structure DeliveryRateEntryDto extends DeliveryRate where
  pricePerKm_nonneg : 0 ≤ pricePerKm
  minPrice_nonneg : 0 ≤ minPrice

inductive HttpError where
  | forbidden
  | companyNotFound
  | governorateOutsideRegion
  | duplicateArea
  | notTransporter
deriving DecidableEq

/-! ### The service -/

/-- The rate of an area in a map built from the list: later entries replace earlier ones. -/
def before (existing : List RateRecord) : ℕ × Option ℕ → Option RateRecord :=
  existing.foldl (fun before r => Function.update before r.area (some r)) fun _ => none

/-- The rate that is stored for an incoming one. -/
def next (prior : Option RateRecord) (incoming : DeliveryRate) (now : Instant) : RateRecord where
  toDeliveryRate := incoming
  updatedAt :=
    match prior with
    | some prior =>
        if prior.pricePerKm = incoming.pricePerKm ∧ prior.minPrice = incoming.minPrice then
          prior.updatedAt
        else now
    | none => now

def nextRates (existing : List RateRecord) (rates : List DeliveryRate) (now : Instant) :
    List RateRecord :=
  rates.map fun incoming => next (before existing incoming.area) incoming now

/-- `setDeliveryRates` as far as the list that is to be stored. -/
def prepare (companies : Companies) (id : Id) (rates : List DeliveryRate) (now : Instant) :
    Except HttpError (List RateRecord) :=
  match companies id with
  | none => .error .companyNotFound
  | some existing =>
      if existing.type ≠ .transport then .error .notTransporter
      else .ok (nextRates existing.deliveryRates rates now)

/-- The update that ends `setDeliveryRates`. -/
def store (companies : Companies) (id : Id) (rates : List RateRecord) :
    Except HttpError Companies :=
  match companies id with
  | none => .error .companyNotFound
  | some company =>
      .ok (Function.update companies id (some { company with deliveryRates := rates }))

def setDeliveryRates (companies : Companies) (id : Id) (rates : List DeliveryRate)
    (now : Instant) : Except HttpError Companies := do
  let next ← prepare companies id rates now
  store companies id next

/-! ### The endpoint -/

def assertCompanyAccess (user : AuthenticatedUser) (companyId : Id) : Bool :=
  user.role = .superAdmin || user.companyId = some companyId

/-- What is checked before the service is called; `belongs` is the table of the regions. -/
def check (belongs : ℕ → ℕ → Bool) (user : AuthenticatedUser) (id : Id)
    (rates : List DeliveryRate) : Except HttpError Unit :=
  if user.role ≠ .transportCompanyAdmin then .error .forbidden
  else if !assertCompanyAccess user id then .error .companyNotFound
  else if rates.any fun r => r.governorateCode.any fun g => !belongs g r.regionCode then
    .error .governorateOutsideRegion
  else if (rates.map DeliveryRate.area).dedup.length ≠ rates.length then .error .duplicateArea
  else .ok ()

/-! ### One list after another -/

section lists
variable {existing : List RateRecord} {rates : List DeliveryRate} {now : Instant}
variable {r : RateRecord}

theorem before_append (existing : List RateRecord) (r : RateRecord) :
    before (existing ++ [r]) = Function.update (before existing) r.area (some r) := by
  rw [before, List.foldl_append]
  rfl

/-- The last entry of an area is the only one. -/
theorem before_iff (h : (existing.map (·.area)).Nodup) {area : ℕ × Option ℕ} :
    before existing area = some r ↔ r ∈ existing ∧ r.area = area := by
  induction existing using List.reverseRecOn with
  | nil => simp [before]
  | append_singleton existing q ih =>
    rw [List.map_append, List.nodup_append] at h
    have hfresh : ∀ p ∈ existing, p.area ≠ q.area := fun p hp =>
      h.2.2 _ (List.mem_map_of_mem hp) _ (List.mem_singleton_self _)
    rw [before_append, List.mem_append, List.mem_singleton]
    by_cases harea : area = q.area
    · rw [harea, Function.update_self, Option.some.injEq]
      constructor
      · rintro rfl
        exact ⟨Or.inr rfl, rfl⟩
      · rintro ⟨hr | rfl, hsame⟩
        · exact absurd hsame (hfresh r hr)
        · rfl
    · rw [Function.update_of_ne harea, ih h.1]
      constructor
      · exact fun hr => ⟨Or.inl hr.1, hr.2⟩
      · rintro ⟨hr | rfl, hsame⟩
        · exact ⟨hr, hsame⟩
        · exact absurd hsame.symm harea

theorem nextRates_rates (existing : List RateRecord) (rates : List DeliveryRate) (now : Instant) :
    (nextRates existing rates now).map (·.toDeliveryRate) = rates := by
  rw [nextRates, List.map_map]
  exact List.map_id rates

theorem map_area (rates : List RateRecord) : rates.map (·.area) =
    (rates.map (·.toDeliveryRate)).map DeliveryRate.area := by
  rw [List.map_map]
  rfl

/-- A rate that does not change keeps its time, and another has the time of the save. -/
theorem next_updatedAt (h : (existing.map (·.area)).Nodup) (incoming : DeliveryRate) :
    next (before existing incoming.area) incoming now ∈ existing ∨
      (next (before existing incoming.area) incoming now).updatedAt = now ∧
        ∀ q ∈ existing, q.toDeliveryRate ≠ incoming := by
  cases hbefore : before existing incoming.area with
  | none =>
    refine Or.inr ⟨rfl, ?_⟩
    rintro q hq rfl
    have hsome := (before_iff h).2 ⟨hq, rfl⟩
    rw [hbefore] at hsome
    cases hsome
  | some prior =>
    obtain ⟨hprior, harea⟩ := (before_iff h).1 hbefore
    by_cases hsame : prior.pricePerKm = incoming.pricePerKm ∧ prior.minPrice = incoming.minPrice
    · left
      have hnext : next (some prior) incoming now = prior := by
        obtain ⟨⟨region, governorate, price, least⟩, updatedAt⟩ := prior
        obtain ⟨region', governorate', price', least'⟩ := incoming
        obtain ⟨rfl, rfl⟩ := Prod.mk.inj harea
        obtain ⟨rfl, rfl⟩ := hsame
        simp [next]
      rwa [hnext]
    · refine Or.inr ⟨if_neg hsame, ?_⟩
      rintro q hq rfl
      obtain rfl := Option.some.inj (((before_iff h).2 ⟨hq, rfl⟩).symm.trans hbefore)
      exact hsame ⟨rfl, rfl⟩

theorem mem_nextRates (h : (existing.map (·.area)).Nodup) : r ∈ nextRates existing rates now ↔
    r.toDeliveryRate ∈ rates ∧ (r ∈ existing ∨ r.updatedAt = now ∧
      ∀ q ∈ existing, q.toDeliveryRate ≠ r.toDeliveryRate) := by
  rw [nextRates, List.mem_map]
  constructor
  · rintro ⟨incoming, hincoming, rfl⟩
    exact ⟨hincoming, next_updatedAt h incoming⟩
  · rintro ⟨hrate, hr⟩
    refine ⟨r.toDeliveryRate, hrate, ?_⟩
    have hnext := @next_updatedAt existing now h r.toDeliveryRate
    generalize hx : next (before existing r.area) r.toDeliveryRate now = x at hnext ⊢
    have hsame : x.toDeliveryRate = r.toDeliveryRate := by rw [← hx]; rfl
    rcases hnext with hx | ⟨hstamp, hnone⟩
    · rcases hr with hr | ⟨-, hnone⟩
      · exact List.inj_on_of_nodup_map h hx hr (congrArg DeliveryRate.area hsame)
      · exact absurd hsame (hnone x hx)
    · rcases hr with hr | ⟨hnow, -⟩
      · exact absurd rfl (hnone r hr)
      · obtain ⟨rate, updatedAt⟩ := x
        obtain ⟨rate', updatedAt'⟩ := r
        obtain rfl : rate = rate' := hsame
        rw [show updatedAt = updatedAt' from hstamp.trans hnow.symm]

end lists

/-! ### Saves in a row -/

/-- A list that passes the check for areas. -/
structure RateList where
  rates : List DeliveryRate
  distinct : (rates.map DeliveryRate.area).Nodup

/-- What is stored after saves that do not overlap. -/
def saved (saves : List (Instant × RateList)) : List RateRecord :=
  saves.foldl (fun existing save => nextRates existing save.2.rates save.1) []

section saved
variable {saves : List (Instant × RateList)} {save : Instant × RateList} {r : RateRecord}

theorem saved_append (saves : List (Instant × RateList)) (save : Instant × RateList) :
    saved (saves ++ [save]) = nextRates (saved saves) save.2.rates save.1 := by
  rw [saved, List.foldl_append]
  rfl

theorem saved_distinct (saves : List (Instant × RateList)) :
    ((saved saves).map (·.area)).Nodup := by
  induction saves using List.reverseRecOn with
  | nil => exact List.nodup_nil
  | append_singleton saves save _ =>
    rw [saved_append, map_area, nextRates_rates]
    exact save.2.distinct

/-- A rate is stored if the last save has it. -/
theorem exists_saved_iff {rate : DeliveryRate} :
    (∃ q ∈ saved saves, q.toDeliveryRate = rate) ↔
      ∃ save ∈ saves.getLast?, rate ∈ save.2.rates := by
  rcases List.eq_nil_or_concat saves with rfl | ⟨saves, save, rfl⟩
  · simp [saved]
  · rw [List.concat_eq_append, saved_append, List.getLast?_concat]
    simp only [Option.mem_def, Option.some.injEq, exists_eq_left']
    rw [← List.mem_map, nextRates_rates]

/-- The time of a rate is that of the first of the saves that have had it since. -/
def StampedBy (saves : List (Instant × RateList)) (r : RateRecord) : Prop :=
  ∃ earlier save later, saves = earlier ++ save :: later ∧ r.updatedAt = save.1 ∧
    (∀ s ∈ save :: later, r.toDeliveryRate ∈ s.2.rates) ∧
      ∀ s ∈ earlier.getLast?, r.toDeliveryRate ∉ s.2.rates

theorem mem_saved_iff : r ∈ saved saves ↔ StampedBy saves r := by
  induction saves using List.reverseRecOn with
  | nil =>
    refine iff_of_false List.not_mem_nil ?_
    rintro ⟨earlier, save, later, hsaves, -⟩
    simp at hsaves
  | append_singleton saves save ih =>
    rw [saved_append, mem_nextRates (saved_distinct saves), ih]
    constructor
    · rintro ⟨hrate, ⟨earlier, s, later, rfl, hstamp, hsince, hbefore⟩ | ⟨hstamp, hnone⟩⟩
      · refine ⟨earlier, s, later ++ [save], by simp, hstamp, ?_, hbefore⟩
        rw [← List.cons_append]
        exact List.forall_mem_append.2 ⟨hsince, List.forall_mem_singleton.2 hrate⟩
      · refine ⟨saves, save, [], rfl, hstamp, List.forall_mem_singleton.2 hrate, ?_⟩
        intro s hs hmem
        obtain ⟨q, hq, hsame⟩ := exists_saved_iff.2 ⟨s, hs, hmem⟩
        exact hnone q hq hsame
    · rintro ⟨earlier, s, later, hsaves, hstamp, hsince, hbefore⟩
      rcases List.eq_nil_or_concat later with rfl | ⟨later, last, rfl⟩
      · obtain ⟨rfl, hlast⟩ := List.append_inj' hsaves rfl
        obtain rfl := List.singleton_inj.1 hlast
        refine ⟨hsince _ List.mem_cons_self, Or.inr ⟨hstamp, fun q hq hsame => ?_⟩⟩
        obtain ⟨s, hs, hmem⟩ := exists_saved_iff.1 ⟨q, hq, hsame⟩
        exact hbefore s hs hmem
      · rw [List.concat_eq_append, ← List.cons_append, ← List.append_assoc] at hsaves
        obtain ⟨rfl, hlast⟩ := List.append_inj' hsaves rfl
        obtain rfl := List.singleton_inj.1 hlast
        rw [List.concat_eq_append, ← List.cons_append] at hsince
        refine ⟨hsince _ (List.mem_append_right _ (List.mem_singleton_self _)), Or.inl ?_⟩
        exact ⟨earlier, s, later, rfl, hstamp,
          fun t ht => hsince t (List.mem_append_left _ ht), hbefore⟩

/-- Saves of one company, each after the last. -/
def saveAll (companies : Companies) (id : Id) (saves : List (Instant × RateList)) :
    Except HttpError Companies :=
  saves.foldlM (fun companies save => setDeliveryRates companies id save.2.rates save.1) companies

theorem setDeliveryRates_ok {companies : Companies} {id : Id} {existing : List RateRecord}
    (h : companies id = some ⟨.transport, existing⟩) (rates : List DeliveryRate) (now : Instant) :
    setDeliveryRates companies id rates now = .ok (Function.update companies id
      (some ⟨.transport, nextRates existing rates now⟩)) := by
  rw [setDeliveryRates, prepare, h]
  simp only [ne_eq, not_true_eq_false, if_false, store, h, bind, Except.bind]

theorem saveAll_ok {companies : Companies} {id : Id} (h : companies id = some ⟨.transport, []⟩)
    (saves : List (Instant × RateList)) :
    ∃ companies', saveAll companies id saves = .ok companies' ∧
      companies' id = some ⟨.transport, saved saves⟩ := by
  induction saves using List.reverseRecOn with
  | nil => exact ⟨companies, rfl, h⟩
  | append_singleton saves save ih =>
    obtain ⟨companies', hsaved, hcompany⟩ := ih
    rw [saveAll] at hsaved
    refine ⟨Function.update companies' id (some ⟨.transport, saved (saves ++ [save])⟩), ?_,
      Function.update_self _ _ _⟩
    rw [saveAll, List.foldlM_append, hsaved, saved_append]
    change (setDeliveryRates companies' id save.2.rates save.1 >>= pure) = _
    rw [bind_pure]
    exact setDeliveryRates_ok hcompany save.2.rates save.1

end saved

/-- After saves in a row, the rates of a transporter are those of the last list, and the time of
each is that of the first save since which every list has had it as it is. -/
theorem rates_stamped_since {companies : Companies} {id : Id}
    (h : companies id = some ⟨.transport, []⟩) (saves : List (Instant × RateList)) :
    ∃ companies' company, saveAll companies id saves = .ok companies' ∧
      companies' id = some company ∧
      company.deliveryRates.map (·.toDeliveryRate) = saves.getLast?.elim [] (·.2.rates) ∧
      ∀ r, r ∈ company.deliveryRates ↔ StampedBy saves r := by
  obtain ⟨companies', hsaved, hcompany⟩ := saveAll_ok h saves
  refine ⟨companies', _, hsaved, hcompany, ?_, fun r => mem_saved_iff⟩
  rcases List.eq_nil_or_concat saves with rfl | ⟨saves, save, rfl⟩
  · rfl
  · rw [List.concat_eq_append, List.getLast?_concat]
    change (saved (saves ++ [save])).map _ = _
    rw [saved_append, nextRates_rates]
    rfl

/-- A region, and then a governorate in it as well. -/
def Sample.saves : List (Instant × RateList) :=
  [(5, ⟨[⟨1, none, 2, 30⟩], by decide⟩), (8, ⟨[⟨1, none, 2, 30⟩, ⟨1, some 15, 4, 50⟩], by decide⟩)]

theorem rates_stamped_since_region : ∃ companies' company,
    saveAll (fun _ => some ⟨.transport, []⟩) 11 Sample.saves = .ok companies' ∧
      companies' 11 = some company ∧
      company.deliveryRates.map (·.toDeliveryRate) = [⟨1, none, 2, 30⟩, ⟨1, some 15, 4, 50⟩] ∧
      ∀ r, r ∈ company.deliveryRates ↔ StampedBy Sample.saves r :=
  @rates_stamped_since (fun _ => some ⟨.transport, []⟩) 11 rfl Sample.saves

/-! ### Saves that overlap -/

/-- A request that was let through, and when its list was put together. -/
structure Save where
  companyId : Id
  user : AuthenticatedUser
  rates : List DeliveryRateEntryDto
  now : Instant

structure State where
  companies : Companies := fun _ => none
  /-- Lists that are to be stored. -/
  pending : List (Id × List RateRecord) := []
  saves : List Save := []

inductive Step (belongs : ℕ → ℕ → Bool) (s : State) : State → Prop where
  | created {id : Id} {company : CompanyRecord} (hnew : s.companies id = none)
      (hrates : company.deliveryRates = []) :
      Step belongs s { s with companies := Function.update s.companies id (some company) }
  | reads {user : AuthenticatedUser} {id : Id} {rates : List DeliveryRateEntryDto} {now : Instant}
      {next : List RateRecord}
      (hcheck : check belongs user id (rates.map (·.toDeliveryRate)) = .ok ())
      (hnext : prepare s.companies id (rates.map (·.toDeliveryRate)) now = .ok next) :
      Step belongs s { s with
        pending := s.pending ++ [(id, next)]
        saves := s.saves ++ [⟨id, user, rates, now⟩] }
  | writes {n : ℕ} {id : Id} {next : List RateRecord} {companies : Companies}
      (hpending : s.pending[n]? = some (id, next))
      (hstore : store s.companies id next = .ok companies) :
      Step belongs s { s with companies := companies, pending := s.pending.eraseIdx n }
  | loses {n : ℕ} : Step belongs s { s with pending := s.pending.eraseIdx n }

abbrev Run (belongs : ℕ → ℕ → Bool) : State → State → Prop :=
  Relation.ReflTransGen (Step belongs)

/-- A list of rates of a company. -/
structure Sound (belongs : ℕ → ℕ → Bool) (saves : List Save) (id : Id) (rates : List RateRecord) :
    Prop where
  distinct : (rates.map (·.area)).Nodup
  inside : ∀ r ∈ rates, ∀ g ∈ r.governorateCode, belongs g r.regionCode = true
  nonneg : ∀ r ∈ rates, 0 ≤ r.pricePerKm ∧ 0 ≤ r.minPrice
  /-- The company's own administrator saved the rate as it is, at its time. -/
  own : ∀ r ∈ rates, ∃ save ∈ saves, save.companyId = id ∧ save.user.companyId = some id ∧
    save.user.role = .transportCompanyAdmin ∧ save.now = r.updatedAt ∧
      r.toDeliveryRate ∈ save.rates.map (·.toDeliveryRate)

structure Kept (belongs : ℕ → ℕ → Bool) (s : State) : Prop where
  stored : ∀ id company, s.companies id = some company →
    Sound belongs s.saves id company.deliveryRates ∧
      (company.deliveryRates ≠ [] → company.type = .transport)
  pending : ∀ p ∈ s.pending, Sound belongs s.saves p.1 p.2 ∧
    ∃ company, s.companies p.1 = some company ∧ company.type = .transport

section kept
variable {belongs : ℕ → ℕ → Bool} {saves : List Save} {id : Id} {s s' : State}
variable {existing rates : List RateRecord}

theorem check_ok {user : AuthenticatedUser} {rates : List DeliveryRate}
    (h : check belongs user id rates = .ok ()) : user.role = .transportCompanyAdmin ∧
      user.companyId = some id ∧
      (∀ r ∈ rates, ∀ g ∈ r.governorateCode, belongs g r.regionCode = true) ∧
      (rates.map DeliveryRate.area).Nodup := by
  unfold check at h
  split_ifs at h with hrole haccess hinside hdistinct
  have hrole' : user.role = .transportCompanyAdmin := not_not.1 hrole
  refine ⟨hrole', ?_, fun r hr g hg => ?_, ?_⟩
  · simpa [assertCompanyAccess, hrole'] using haccess
  · by_contra hbelongs
    refine hinside (List.any_eq_true.2 ⟨r, hr, (Option.any_eq_true _ _).2 ⟨g, hg, ?_⟩⟩)
    simpa using hbelongs
  · rw [← List.dedup_eq_self]
    refine (List.dedup_sublist _).eq_of_length ?_
    rw [List.length_map]
    exact not_not.1 hdistinct

theorem Sound.mono (h : Sound belongs saves id rates) {saves' : List Save} (hsub : saves ⊆ saves') :
    Sound belongs saves' id rates := by
  refine ⟨h.distinct, h.inside, h.nonneg, fun r hr => ?_⟩
  obtain ⟨save, hsave, hown⟩ := h.own r hr
  exact ⟨save, hsub hsave, hown⟩

theorem sound_nil : Sound belongs saves id [] where
  distinct := List.nodup_nil
  inside _ h := absurd h List.not_mem_nil
  nonneg _ h := absurd h List.not_mem_nil
  own _ h := absurd h List.not_mem_nil

/-- What a request puts together of a sound list is sound. -/
theorem Sound.next (h : Sound belongs saves id existing) {user : AuthenticatedUser}
    {dto : List DeliveryRateEntryDto} {now : Instant}
    (hcheck : check belongs user id (dto.map (·.toDeliveryRate)) = .ok ()) :
    Sound belongs (saves ++ [⟨id, user, dto, now⟩]) id
      (nextRates existing (dto.map (·.toDeliveryRate)) now) := by
  obtain ⟨hrole, hcompany, hinside, hdistinct⟩ := check_ok hcheck
  refine ⟨?_, fun r hr => ?_, fun r hr => ?_, fun r hr => ?_⟩
  · rwa [map_area, nextRates_rates]
  · exact hinside _ ((mem_nextRates h.distinct).1 hr).1
  · obtain ⟨entry, -, hentry⟩ := List.mem_map.1 ((mem_nextRates h.distinct).1 hr).1
    rw [← hentry]
    exact ⟨entry.pricePerKm_nonneg, entry.minPrice_nonneg⟩
  · obtain ⟨hrate, hold | ⟨hstamp, -⟩⟩ := (mem_nextRates h.distinct).1 hr
    · obtain ⟨save, hsave, hown⟩ := h.own r hold
      exact ⟨save, List.mem_append_left _ hsave, hown⟩
    · exact ⟨_, List.mem_append_right _ (List.mem_singleton_self _), rfl, hcompany, hrole,
        hstamp.symm, hrate⟩

theorem prepare_ok {companies : Companies} {rates : List DeliveryRate} {now : Instant}
    {next : List RateRecord} (h : prepare companies id rates now = .ok next) :
    ∃ existing, companies id = some ⟨.transport, existing⟩ ∧
      next = nextRates existing rates now := by
  unfold prepare at h
  cases hcompany : companies id with
  | none =>
    rw [hcompany] at h
    cases h
  | some company =>
    rw [hcompany] at h
    dsimp only at h
    split_ifs at h with htype
    obtain ⟨type, existing⟩ := company
    obtain rfl : type = .transport := not_not.1 htype
    exact ⟨existing, rfl, (Except.ok.inj h).symm⟩

theorem store_ok {companies companies' : Companies} {next : List RateRecord}
    (h : store companies id next = .ok companies') : ∃ company, companies id = some company ∧
      companies' = Function.update companies id (some { company with deliveryRates := next }) := by
  unfold store at h
  cases hcompany : companies id with
  | none =>
    rw [hcompany] at h
    cases h
  | some company =>
    rw [hcompany] at h
    exact ⟨company, rfl, (Except.ok.inj h).symm⟩

theorem kept_start : Kept belongs {} where
  stored _ _ h := absurd h (by simp)
  pending _ h := absurd h List.not_mem_nil

theorem Kept.created (hkept : Kept belongs s) {company : CompanyRecord}
    (hnew : s.companies id = none) (hrates : company.deliveryRates = []) :
    Kept belongs { s with companies := Function.update s.companies id (some company) } where
  stored id' company' h := by
    by_cases hid : id' = id
    · rw [hid] at h ⊢
      obtain rfl := Option.some.inj ((Function.update_self id _ s.companies).symm.trans h)
      rw [hrates]
      exact ⟨sound_nil, absurd rfl⟩
    · exact hkept.stored id' company' ((Function.update_of_ne hid _ s.companies).symm.trans h)
  pending p hp := by
    obtain ⟨hsound, company', hcompany, htype⟩ := hkept.pending p hp
    have hid : p.1 ≠ id := by
      rintro rfl
      rw [hnew] at hcompany
      cases hcompany
    exact ⟨hsound, company', (Function.update_of_ne hid _ s.companies).trans hcompany, htype⟩

theorem Kept.reads (hkept : Kept belongs s) {user : AuthenticatedUser}
    {dto : List DeliveryRateEntryDto} {now : Instant} {next : List RateRecord}
    (hcheck : check belongs user id (dto.map (·.toDeliveryRate)) = .ok ())
    (hnext : prepare s.companies id (dto.map (·.toDeliveryRate)) now = .ok next) :
    Kept belongs { s with
      pending := s.pending ++ [(id, next)]
      saves := s.saves ++ [⟨id, user, dto, now⟩] } where
  stored id' company h := by
    obtain ⟨hsound, htype⟩ := hkept.stored id' company h
    exact ⟨hsound.mono (List.subset_append_left _ _), htype⟩
  pending p hp := by
    rcases List.mem_append.1 hp with hp | hp
    · obtain ⟨hsound, hcompany⟩ := hkept.pending p hp
      exact ⟨hsound.mono (List.subset_append_left _ _), hcompany⟩
    · obtain rfl := List.mem_singleton.1 hp
      obtain ⟨existing, hcompany, rfl⟩ := prepare_ok hnext
      exact ⟨(hkept.stored id _ hcompany).1.next hcheck, _, hcompany, rfl⟩

theorem Kept.writes (hkept : Kept belongs s) {n : ℕ} {next : List RateRecord}
    {companies : Companies} (hpending : s.pending[n]? = some (id, next))
    (hstore : store s.companies id next = .ok companies) :
    Kept belongs { s with companies := companies, pending := s.pending.eraseIdx n } := by
  obtain ⟨hsound, company, hcompany, htype⟩ := hkept.pending _ (List.mem_of_getElem? hpending)
  obtain ⟨company', hcompany', rfl⟩ := store_ok hstore
  obtain rfl := Option.some.inj (hcompany.symm.trans hcompany')
  refine ⟨fun id' stored h => ?_, fun p hp => ?_⟩
  · by_cases hid : id' = id
    · rw [hid] at h ⊢
      obtain rfl := Option.some.inj ((Function.update_self id _ s.companies).symm.trans h)
      exact ⟨hsound, fun _ => htype⟩
    · exact hkept.stored id' stored ((Function.update_of_ne hid _ s.companies).symm.trans h)
  · obtain ⟨hp', other, hother, htype'⟩ := hkept.pending p (List.mem_of_mem_eraseIdx hp)
    refine ⟨hp', ?_⟩
    by_cases hid : p.1 = id
    · rw [hid]
      exact ⟨_, Function.update_self id _ s.companies, htype⟩
    · exact ⟨other, (Function.update_of_ne hid _ s.companies).trans hother, htype'⟩

theorem Step.kept (h : Step belongs s s') (hkept : Kept belongs s) : Kept belongs s' := by
  cases h with
  | created hnew hrates => exact hkept.created hnew hrates
  | reads hcheck hnext => exact hkept.reads hcheck hnext
  | writes hpending hstore => exact hkept.writes hpending hstore
  | loses => exact ⟨hkept.stored, fun p hp => hkept.pending p (List.mem_of_mem_eraseIdx hp)⟩

theorem run_kept (h : Run belongs {} s) : Kept belongs s := by
  induction h with
  | refl => exact kept_start
  | tail _ hstep ih => exact hstep.kept ih

end kept

/-- However saves overlap, the rates of a company are sound and only a transporter has any, and
so there is one rate that prices a place, or none. -/
theorem rates_sound {belongs : ℕ → ℕ → Bool} {s : State} (h : Run belongs {} s) {id : Id}
    {company : CompanyRecord} (hcompany : s.companies id = some company) :
    Sound belongs s.saves id company.deliveryRates ∧
      (company.deliveryRates ≠ [] → company.type = .transport) ∧
      ∀ target rate, rateFor (company.deliveryRates.map (·.toDeliveryRate)) target = some rate ↔
        Prices (company.deliveryRates.map (·.toDeliveryRate)) target rate := by
  obtain ⟨hsound, htype⟩ := (run_kept h).stored id company hcompany
  refine ⟨hsound, htype, fun target rate => rateFor_iff ?_⟩
  rw [← map_area]
  exact hsound.distinct

namespace Sample

def belongs (governorate region : ℕ) : Bool := governorate / 10 = region

def admin : AuthenticatedUser := ⟨31, .transportCompanyAdmin, some 11⟩

def region : DeliveryRateEntryDto := ⟨⟨1, none, 2, 30⟩, by norm_num, by norm_num⟩

def governorate : DeliveryRateEntryDto := ⟨⟨1, some 15, 4, 50⟩, by norm_num, by norm_num⟩

def opened : State where
  companies := Function.update (fun _ => none) 11 (some ⟨.transport, []⟩)

def asking : State where
  companies := opened.companies
  pending := [(11, nextRates [] [region.toDeliveryRate] 5)]
  saves := [⟨11, admin, [region], 5⟩]

/-- Two requests have read the list, and none has stored its own. -/
def asked : State where
  companies := opened.companies
  pending := asking.pending ++
    [(11, nextRates [] [region.toDeliveryRate, governorate.toDeliveryRate] 6)]
  saves := asking.saves ++ [⟨11, admin, [region, governorate], 6⟩]

def stored : State where
  companies := Function.update opened.companies 11
    (some ⟨.transport, nextRates [] [region.toDeliveryRate, governorate.toDeliveryRate] 6⟩)
  pending := [(11, nextRates [] [region.toDeliveryRate] 5)]
  saves := asked.saves

theorem run_stored : Run belongs {} stored := by
  have hopened : Step belongs {} opened := .created rfl rfl
  have hasking : Step belongs opened asking :=
    @Step.reads belongs opened admin 11 [region] 5 _ rfl rfl
  have hasked : Step belongs asking asked :=
    @Step.reads belongs asking admin 11 [region, governorate] 6 _ rfl rfl
  have hstored : Step belongs asked stored := @Step.writes belongs asked 1 11 _ _ rfl rfl
  exact (((Relation.ReflTransGen.single hopened).tail hasking).tail hasked).tail hstored

end Sample

theorem rates_sound_overlapping : ∃ company, Sample.stored.companies 11 = some company ∧
    company.deliveryRates.length = 2 ∧
    Sound Sample.belongs Sample.stored.saves 11 company.deliveryRates :=
  ⟨_, rfl, rfl, (rates_sound Sample.run_stored rfl).1⟩

end CiroFuel.DeliveryRates
