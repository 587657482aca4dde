import CiroFuel.Pricing
import Mathlib.Data.List.Infix
import Mathlib.Data.Fintype.EquivFin
import Mathlib.Tactic.NormNum
import Mathlib.Data.Rat.Cast.Order

/-!
# The history of fuel prices

A price list is saved as a whole. Each grade carries its previous price and the
instant of its last change forward. The history of a grade is taken from its last
stored entry, and its price from its first: a list that names a grade twice may
change with every save.
-/
namespace CiroFuel.PriceHistory

structure FuelPrice where
  fuelType : FuelType
  basePricePerLiter : ℚ
  previousPricePerLiter : Option ℚ := none
  priceChangedAt : Option Instant := none
deriving DecidableEq

structure FuelPriceEntryDto where
  fuelType : FuelType
  basePricePerLiter : ℚ
  atLeast : 1 / 100 ≤ basePricePerLiter

/-- A list that the endpoint accepts. -/
structure SetFuelPricesDto where
  prices : List FuelPriceEntryDto
  nonempty : prices ≠ []

inductive HttpError where
  | companyNotFound
deriving DecidableEq

/-- The price lists of the companies there are. -/
abbrev Companies := Id → Option (List FuelPrice)

/-- The entry of a grade in a map built from the list: later entries replace earlier ones. -/
def before (existing : List FuelPrice) : FuelType → Option FuelPrice :=
  existing.foldl (fun before p => Function.update before p.fuelType (some p)) fun _ => none

/-- The entry that is stored for an incoming one. -/
def next (prior : Option FuelPrice) (incoming : FuelPriceEntryDto) (now : Instant) : FuelPrice :=
  match prior with
  | none =>
      { fuelType := incoming.fuelType, basePricePerLiter := incoming.basePricePerLiter }
  | some prior =>
      if prior.basePricePerLiter = incoming.basePricePerLiter then
        { fuelType := incoming.fuelType
          basePricePerLiter := incoming.basePricePerLiter
          previousPricePerLiter := prior.previousPricePerLiter
          priceChangedAt := prior.priceChangedAt }
      else
        { fuelType := incoming.fuelType
          basePricePerLiter := incoming.basePricePerLiter
          previousPricePerLiter := some prior.basePricePerLiter
          priceChangedAt := some now }

/-- The list that replaces the stored one. -/
def nextPrices (existing : List FuelPrice) (fuelPrices : List FuelPriceEntryDto) (now : Instant) :
    List FuelPrice :=
  fuelPrices.map fun incoming => next (before existing incoming.fuelType) incoming now

def setFuelPrices (companies : Companies) (id : Id) (dto : SetFuelPricesDto) (now : Instant) :
    Except HttpError Companies :=
  match companies id with
  | none => .error .companyNotFound
  | some existing =>
      .ok (Function.update companies id (some (nextPrices existing dto.prices now)))

def getBasePrice (companies : Companies) (id : Id) (fuelType : FuelType) : Option ℚ :=
  (companies id).bind fun fuelPrices =>
    (fuelPrices.find? fun p => p.fuelType = fuelType).map (·.basePricePerLiter)

/-! ### What a save should do -/

/-- The same list saved again leaves the companies as the first save did. -/
def SavedOnce (companies : Companies) (id : Id) (dto : SetFuelPricesDto) : Prop :=
  ∀ now later saved, now ≤ later → setFuelPrices companies id dto now = .ok saved →
    setFuelPrices saved id dto later = .ok saved

/-- An entry has the time of the save, which no stored entry of its grade had. -/
def Stamped (existing : List FuelPrice) (p : FuelPrice) (now : Instant) : Prop :=
  p.priceChangedAt = some now ∧
    ∀ q ∈ existing, q.fuelType = p.fuelType → q.priceChangedAt ≠ some now

/-- Only a grade whose price changes is stamped, with the price it had. -/
def StampsChanges (companies : Companies) (id : Id) (dto : SetFuelPricesDto) : Prop :=
  ∀ now saved existing prices, setFuelPrices companies id dto now = .ok saved →
    companies id = some existing → saved id = some prices → ∀ p ∈ prices,
    Stamped existing p now →
      getBasePrice saved id p.fuelType ≠ getBasePrice companies id p.fuelType ∧
      p.previousPricePerLiter = getBasePrice companies id p.fuelType

/-- No grade is listed at two prices. -/
def SetFuelPricesDto.OnePrice (dto : SetFuelPricesDto) : Prop :=
  ∀ a ∈ dto.prices, ∀ b ∈ dto.prices, a.fuelType = b.fuelType →
    a.basePricePerLiter = b.basePricePerLiter

/-- A listed price that is not the last stored one of its grade replaces a grade whose
first stored price is the last. -/
def SetFuelPricesDto.Replaces (dto : SetFuelPricesDto) (existing : List FuelPrice) : Prop :=
  ∀ a ∈ dto.prices, ∀ first last,
    existing.find? (fun p => p.fuelType = a.fuelType) = some first →
    existing.reverse.find? (fun p => p.fuelType = a.fuelType) = some last →
    last.basePricePerLiter ≠ a.basePricePerLiter →
    first.basePricePerLiter = last.basePricePerLiter

/-! ### The map of the stored entries -/

theorem before_eq (existing : List FuelPrice) (fuelType : FuelType) :
    before existing fuelType = existing.reverse.find? fun p => p.fuelType = fuelType := by
  induction existing using List.reverseRecOn with
  | nil => rfl
  | append_singleton existing p ih =>
      rw [List.reverse_append, List.reverse_singleton, List.singleton_append, before,
        List.foldl_append, List.foldl_cons, List.foldl_nil]
      by_cases hgrade : p.fuelType = fuelType
      · rw [List.find?_cons_of_pos (by simpa using hgrade), hgrade, Function.update_self]
      · rw [List.find?_cons_of_neg (by simpa using hgrade),
          Function.update_of_ne (Ne.symm hgrade)]
        exact ih

section entries
variable {existing : List FuelPrice} {prior : Option FuelPrice} {a b : FuelPriceEntryDto}
variable {now later : Instant}

@[simp] theorem next_fuelType : (next prior a now).fuelType = a.fuelType := by
  unfold next
  split
  · rfl
  · split_ifs <;> rfl

@[simp] theorem next_basePricePerLiter :
    (next prior a now).basePricePerLiter = a.basePricePerLiter := by
  unfold next
  split
  · rfl
  · split_ifs <;> rfl

/-- What is stored depends on the grade and the price only. -/
theorem next_congr (hgrade : a.fuelType = b.fuelType)
    (hprice : a.basePricePerLiter = b.basePricePerLiter) : next prior a now = next prior b now := by
  unfold next
  rw [hgrade, hprice]

theorem next_unchanged {p : FuelPrice} (h : p.basePricePerLiter = a.basePricePerLiter) :
    next (some p) a now = ⟨a.fuelType, a.basePricePerLiter, p.previousPricePerLiter,
      p.priceChangedAt⟩ := if_pos h

theorem next_changed {p : FuelPrice} (h : p.basePricePerLiter ≠ a.basePricePerLiter) :
    next (some p) a now = ⟨a.fuelType, a.basePricePerLiter, some p.basePricePerLiter, some now⟩ :=
  if_neg h

/-- After an entry at the same price, an entry is stored as that one was. -/
theorem next_again (hgrade : b.fuelType = a.fuelType)
    (hprice : b.basePricePerLiter = a.basePricePerLiter) :
    next (some (next prior b now)) a later = next prior a now := by
  have hgrade' : (next prior b now).fuelType = a.fuelType := by rw [next_fuelType, hgrade]
  have hprice' : (next prior b now).basePricePerLiter = a.basePricePerLiter := by
    rw [next_basePricePerLiter, hprice]
  rw [next_unchanged hprice', ← next_congr hgrade hprice, ← hgrade', ← hprice']

/-- Some later save would give the entry another time than it has. -/
theorem exists_later (p : FuelPrice) (now : Instant) :
    ∃ later, now ≤ later ∧ p.priceChangedAt ≠ some later := by
  cases hstamp : p.priceChangedAt with
  | none => exact ⟨now, le_rfl, by simp⟩
  | some t =>
      have hlt : t < now + (t + 1) := (Nat.lt_succ_self t).trans_le (Nat.le_add_left _ _)
      exact ⟨now + (t + 1), Nat.le_add_right _ _, fun h => hlt.ne (Option.some.inj h)⟩

/-- A save at some time has a time that no entry has. -/
theorem exists_fresh (existing : List FuelPrice) :
    ∃ now, ∀ q ∈ existing, q.priceChangedAt ≠ some now := by
  obtain ⟨now, hnow⟩ := Infinite.exists_notMem_finset (existing.filterMap (·.priceChangedAt)).toFinset
  refine ⟨now, fun q hq hstamp => hnow ?_⟩
  rw [List.mem_toFinset, List.mem_filterMap]
  exact ⟨q, hq, hstamp⟩

end entries

/-! ### Saves -/

section saves
variable {existing : List FuelPrice} {fuelPrices : List FuelPriceEntryDto} {now later : Instant}

variable (existing now) in
/-- The entry a grade has last, and what it is stored as. -/
theorem before_nextPrices {a : FuelPriceEntryDto} (ha : a ∈ fuelPrices) :
    ∃ b ∈ fuelPrices, b.fuelType = a.fuelType ∧
      before (nextPrices existing fuelPrices now) a.fuelType =
        some (next (before existing a.fuelType) b now) := by
  have hsome : (fuelPrices.reverse.find? fun b => b.fuelType = a.fuelType).isSome = true := by
    rw [List.find?_isSome]
    exact ⟨a, List.mem_reverse.mpr ha, by simp⟩
  obtain ⟨b, hb⟩ := Option.isSome_iff_exists.mp hsome
  have hgrade : b.fuelType = a.fuelType := by simpa using List.find?_some hb
  refine ⟨b, List.mem_reverse.mp (List.mem_of_find?_eq_some hb), hgrade, ?_⟩
  rw [before_eq, nextPrices, ← List.map_reverse, List.find?_map]
  have hsame : ((fun p : FuelPrice => decide (p.fuelType = a.fuelType)) ∘
      fun incoming => next (before existing incoming.fuelType) incoming now) =
        fun incoming => decide (incoming.fuelType = a.fuelType) := by
    funext incoming
    simp
  rw [hsame, hb, Option.map_some, hgrade]

variable (existing now) in
/-- Saving a list again leaves it as it is, at any later time, just if no grade is in it
at two prices. -/
theorem nextPrices_again :
    (∀ later, now ≤ later →
      nextPrices (nextPrices existing fuelPrices now) fuelPrices later =
        nextPrices existing fuelPrices now) ↔
    ∀ a ∈ fuelPrices, ∀ b ∈ fuelPrices, a.fuelType = b.fuelType →
      a.basePricePerLiter = b.basePricePerLiter := by
  constructor
  · intro hsaved
    -- Every price of a grade is the last one of it.
    have hlast : ∀ a ∈ fuelPrices, ∀ b, b.fuelType = a.fuelType →
        before (nextPrices existing fuelPrices now) a.fuelType =
          some (next (before existing a.fuelType) b now) →
        b.basePricePerLiter = a.basePricePerLiter := by
      intro a ha b hgrade hbefore
      by_contra hprice
      obtain ⟨later, hlater, hstamp⟩ := exists_later (next (before existing a.fuelType) a now) now
      have hentry := List.map_inj_left.mp (hsaved later hlater) a ha
      rw [hbefore, next_changed (by rwa [next_basePricePerLiter])] at hentry
      rw [← hentry] at hstamp
      exact hstamp rfl
    intro a ha b hb hgrade
    obtain ⟨c, -, hc, hbefore⟩ := before_nextPrices existing now ha
    rw [← hlast a ha c hc hbefore]
    refine hlast b hb c (hc.trans hgrade) ?_
    rw [← hgrade]
    exact hbefore
  · intro hone later _
    refine List.map_inj_left.mpr fun a ha => ?_
    obtain ⟨b, hb, hgrade, hbefore⟩ := before_nextPrices existing now ha
    rw [hbefore]
    exact next_again hgrade (hone b hb a ha hgrade)

/-- The effective price of a listed grade in a list without a grade at two prices. -/
theorem find?_nextPrices
    (hone : ∀ a ∈ fuelPrices, ∀ b ∈ fuelPrices, a.fuelType = b.fuelType →
      a.basePricePerLiter = b.basePricePerLiter) {a : FuelPriceEntryDto} (ha : a ∈ fuelPrices) :
    ((nextPrices existing fuelPrices now).find? fun p => p.fuelType = a.fuelType).map
      (·.basePricePerLiter) = some a.basePricePerLiter := by
  have hsome : ((nextPrices existing fuelPrices now).find? fun p =>
      p.fuelType = a.fuelType).isSome = true := by
    rw [List.find?_isSome]
    exact ⟨_, List.mem_map_of_mem ha, by simp⟩
  obtain ⟨p, hp⟩ := Option.isSome_iff_exists.mp hsome
  obtain ⟨b, hb, rfl⟩ := List.mem_map.mp (List.mem_of_find?_eq_some hp)
  have hgrade : b.fuelType = a.fuelType := by simpa using List.find?_some hp
  rw [hp, Option.map_some, next_basePricePerLiter, hone b hb a ha hgrade]

/-- A stamped entry is one at another price than the last stored of its grade. -/
theorem stamped_next {a : FuelPriceEntryDto}
    (h : Stamped existing (next (before existing a.fuelType) a now) now) :
    ∃ last, existing.reverse.find? (fun p => p.fuelType = a.fuelType) = some last ∧
      last.basePricePerLiter ≠ a.basePricePerLiter ∧
      (next (before existing a.fuelType) a now).previousPricePerLiter =
        some last.basePricePerLiter := by
  obtain ⟨hstamp, hfresh⟩ := h
  rw [next_fuelType] at hfresh
  rw [before_eq] at hstamp ⊢
  cases hlast : existing.reverse.find? fun p => p.fuelType = a.fuelType with
  | none =>
      rw [hlast] at hstamp
      cases hstamp
  | some last =>
      rw [hlast] at hstamp
      refine ⟨last, rfl, ?_, ?_⟩
      · intro hprice
        rw [next_unchanged hprice] at hstamp
        have hmem := List.mem_reverse.mp (List.mem_of_find?_eq_some hlast)
        exact hfresh last hmem (by simpa using List.find?_some hlast) hstamp
      · by_cases hprice : last.basePricePerLiter = a.basePricePerLiter
        · rw [next_unchanged hprice] at hstamp
          have hmem := List.mem_reverse.mp (List.mem_of_find?_eq_some hlast)
          exact absurd hstamp (hfresh last hmem (by simpa using List.find?_some hlast))
        · rw [next_changed hprice]

end saves

section companies
variable {companies : Companies} {id : Id} {existing : List FuelPrice} {dto : SetFuelPricesDto}

theorem setFuelPrices_eq (hstored : companies id = some existing) (now : Instant) :
    setFuelPrices companies id dto now =
      .ok (Function.update companies id (some (nextPrices existing dto.prices now))) := by
  rw [setFuelPrices, hstored]

theorem savedOnce_iff (hstored : companies id = some existing) :
    SavedOnce companies id dto ↔ dto.OnePrice := by
  constructor
  · intro hsaved
    refine (nextPrices_again existing 0).mp fun later hle => ?_
    have hagain := hsaved 0 later _ hle (setFuelPrices_eq hstored 0)
    rw [setFuelPrices_eq (Function.update_self _ _ _), Function.update_idem] at hagain
    have hlist := congrFun (Except.ok.inj hagain) id
    rw [Function.update_self, Function.update_self] at hlist
    exact Option.some.inj hlist
  · intro hone now later saved hle hsave
    rw [setFuelPrices_eq hstored] at hsave
    cases hsave
    rw [setFuelPrices_eq (Function.update_self _ _ _), Function.update_idem,
      (nextPrices_again existing now).mpr hone later hle]

theorem stampsChanges_iff (hstored : companies id = some existing) (hone : dto.OnePrice) :
    StampsChanges companies id dto ↔ dto.Replaces existing := by
  have hbase : ∀ fuelType, getBasePrice companies id fuelType =
      (existing.find? fun p => p.fuelType = fuelType).map (·.basePricePerLiter) := by
    intro fuelType
    rw [getBasePrice, hstored, Option.bind_some]
  constructor
  · intro hstamps a ha first last hfirst hlast hprice
    obtain ⟨now, hfresh⟩ := exists_fresh existing
    have hnext : next (before existing a.fuelType) a now =
        ⟨a.fuelType, a.basePricePerLiter, some last.basePricePerLiter, some now⟩ := by
      rw [before_eq, hlast, next_changed hprice]
    obtain ⟨-, hprevious⟩ := hstamps now _ existing _ (setFuelPrices_eq hstored now) hstored
      (Function.update_self _ _ _) _ (List.mem_map_of_mem ha)
      ⟨by rw [hnext], fun q hq _ => hfresh q hq⟩
    rw [hnext, hbase, hfirst] at hprevious
    exact (Option.some.inj hprevious).symm
  · intro hreplaces now saved existing' prices hsave hstored' hprices p hp hstamp
    cases hstored.symm.trans hstored'
    rw [setFuelPrices_eq hstored] at hsave
    cases hsave
    rw [Function.update_self] at hprices
    cases hprices
    obtain ⟨a, ha, rfl⟩ := List.mem_map.mp hp
    obtain ⟨last, hlast, hprice, hprevious⟩ := stamped_next hstamp
    have hsome : (existing.find? fun p => p.fuelType = a.fuelType).isSome = true := by
      rw [List.find?_isSome]
      have hgrade : last.fuelType = a.fuelType := by simpa using List.find?_some hlast
      exact ⟨last, List.mem_reverse.mp (List.mem_of_find?_eq_some hlast), by simpa using hgrade⟩
    obtain ⟨first, hfirst⟩ := Option.isSome_iff_exists.mp hsome
    have hbefore : getBasePrice companies id a.fuelType = some last.basePricePerLiter := by
      rw [hbase, hfirst, Option.map_some, hreplaces a ha first last hfirst hlast hprice]
    have hafter : getBasePrice (Function.update companies id
        (some (nextPrices existing dto.prices now))) id a.fuelType = some a.basePricePerLiter := by
      rw [getBasePrice, Function.update_self, Option.bind_some, find?_nextPrices hone ha]
    rw [next_fuelType, hbefore, hafter]
    exact ⟨fun h => hprice (Option.some.inj h).symm, hprevious⟩

/-- Saving a list again changes nothing, and a save stamps changed prices only, just if no
grade is listed at two prices, and those it replaces were stored at one. -/
theorem history_kept_iff (hstored : companies id = some existing) :
    SavedOnce companies id dto ∧ StampsChanges companies id dto ↔
      dto.OnePrice ∧ dto.Replaces existing := by
  constructor
  · rintro ⟨hsaved, hstamps⟩
    have hone := (savedOnce_iff hstored).mp hsaved
    exact ⟨hone, (stampsChanges_iff hstored hone).mp hstamps⟩
  · rintro ⟨hone, hreplaces⟩
    exact ⟨(savedOnce_iff hstored).mpr hone, (stampsChanges_iff hstored hone).mpr hreplaces⟩

end companies

/-- Company 0 sells diesel at 2. -/
def Sample.companies : Companies :=
  fun id => if id = 0 then some [{ fuelType := .diesel, basePricePerLiter := 2 }] else none

/-- Diesel at 3 and petrol at 4. -/
def Sample.revised : SetFuelPricesDto where
  prices := [⟨.diesel, 3, by norm_num⟩, ⟨.petrol91, 4, by norm_num⟩]
  nonempty := by simp

/-- Diesel at 2 and at 3. -/
def Sample.repeated : SetFuelPricesDto where
  prices := [⟨.diesel, 2, by norm_num⟩, ⟨.diesel, 3, by norm_num⟩]
  nonempty := by simp

theorem history_kept_iff_revised : SavedOnce Sample.companies 0 Sample.revised ∧
    StampsChanges Sample.companies 0 Sample.revised := by
  apply (history_kept_iff (rfl : Sample.companies 0 = some _)).mpr
  constructor
  · intro a ha b hb hgrade
    simp only [Sample.revised, List.mem_cons, List.not_mem_nil, or_false] at ha hb
    rcases ha with rfl | rfl <;> rcases hb with rfl | rfl <;> first | rfl | cases hgrade
  · intro a _ first last hfirst hlast _
    have hsame : first = last := Option.some.inj (hfirst.symm.trans hlast)
    rw [hsame]

/-- The second save takes the diesel at 2 for a change from 3. -/
theorem history_lost : ¬ ∀ (companies : Companies) (id : Id) (existing : List FuelPrice)
    (dto : SetFuelPricesDto), companies id = some existing →
    SavedOnce companies id dto ∧ StampsChanges companies id dto := by
  intro hclaim
  obtain ⟨hsaved, -⟩ := hclaim Sample.companies 0 _ Sample.repeated rfl
  have hagain := hsaved 0 1 _ (Nat.zero_le 1) (setFuelPrices_eq rfl 0)
  rw [setFuelPrices_eq (Function.update_self _ _ _), Function.update_idem] at hagain
  have hlist := congrFun (Except.ok.inj hagain) 0
  rw [Function.update_self, Function.update_self] at hlist
  exact absurd hlist (by decide +kernel)

end CiroFuel.PriceHistory
