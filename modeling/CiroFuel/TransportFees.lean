import CiroFuel.AccountSteps
import CiroFuel.Returning
import CiroFuel.PriceLaws

/-!
# Transport fees

A transport company prices areas: whole regions, and governorates in them. The entry
for the governorate of the target is taken before the one for its region. No two
entries are for the same area, so the order in which they are stored does not matter.
The fee is what the entry charges for the way from the nearest warehouse.
-/
namespace CiroFuel
open Snapshot Handler

/-- The area an entry is for. -/
def DeliveryRate.area (rate : DeliveryRate) : ℕ × Option ℕ := (rate.regionCode, rate.governorateCode)

/-- The entry is for the governorate of the target. -/
def DeliveryRate.Governs (rate : DeliveryRate) (target : DeliveryTarget) : Prop :=
  target.governorateCode.isSome = true ∧ rate.area = (target.regionCode, target.governorateCode)

/-- The entry for the governorate of the target, or without one that for its whole region. -/
def Prices (rates : List DeliveryRate) (target : DeliveryTarget) (rate : DeliveryRate) : Prop :=
  rate ∈ rates ∧ (rate.Governs target ∨
    rate.area = (target.regionCode, none) ∧ ∀ rate' ∈ rates, ¬ rate'.Governs target)

section rates
variable {rates rates' : List DeliveryRate} {target : DeliveryTarget} {rate : DeliveryRate}

/-- A search finds the element it is for, wherever that is. -/
theorem find?_iff_of_unique {α : Type} {p : α → Bool} {xs : List α}
    (h : ∀ a ∈ xs, ∀ b ∈ xs, p a = true → p b = true → a = b) {a : α} :
    xs.find? p = some a ↔ a ∈ xs ∧ p a = true := by
  constructor
  · intro hfind
    exact ⟨List.mem_of_find?_eq_some hfind, List.find?_some hfind⟩
  · rintro ⟨hmem, hp⟩
    obtain ⟨b, hfind⟩ := Option.isSome_iff_exists.mp (List.find?_isSome.mpr ⟨a, hmem, hp⟩)
    rw [hfind, h b (List.mem_of_find?_eq_some hfind) a hmem (List.find?_some hfind) hp]

theorem governs_iff : rate.Governs target ↔
    (rate.regionCode = target.regionCode && target.governorateCode.isSome &&
      rate.governorateCode = target.governorateCode : Bool) = true := by
  simp only [DeliveryRate.Governs, DeliveryRate.area, Prod.mk.injEq, Bool.and_eq_true,
    decide_eq_true_eq]
  tauto

theorem regionWide_iff : rate.area = (target.regionCode, none) ↔
    (rate.regionCode = target.regionCode && rate.governorateCode.isNone : Bool) = true := by
  simp only [DeliveryRate.area, Prod.mk.injEq, Bool.and_eq_true, decide_eq_true_eq,
    Option.isNone_iff_eq_none]

/-- With no two entries for one area, the entry that is found is the one that prices the target. -/
theorem rateFor_iff (h : (rates.map DeliveryRate.area).Nodup) :
    rateFor rates target = some rate ↔ Prices rates target rate := by
  have hunique := List.inj_on_of_nodup_map h
  have hown : ∀ {r}, (rates.find? fun r => r.regionCode = target.regionCode &&
      target.governorateCode.isSome && r.governorateCode = target.governorateCode) = some r ↔
      r ∈ rates ∧ r.Governs target := by
    intro r
    rw [find?_iff_of_unique, ← governs_iff]
    intro a ha b hb hpa hpb
    exact hunique ha hb ((governs_iff.mpr hpa).2.trans (governs_iff.mpr hpb).2.symm)
  have hwide : ∀ {r}, (rates.find? fun r => r.regionCode = target.regionCode &&
      r.governorateCode.isNone) = some r ↔ r ∈ rates ∧ r.area = (target.regionCode, none) := by
    intro r
    rw [find?_iff_of_unique, ← regionWide_iff]
    intro a ha b hb hpa hpb
    exact hunique ha hb ((regionWide_iff.mpr hpa).trans (regionWide_iff.mpr hpb).symm)
  rw [rateFor, Option.or_eq_some_iff, hown, hwide, List.find?_eq_none]
  constructor
  · rintro (⟨hmem, hgoverns⟩ | ⟨hnone, hmem, harea⟩)
    · exact ⟨hmem, Or.inl hgoverns⟩
    · exact ⟨hmem, Or.inr ⟨harea, fun r hr hgoverns => hnone r hr (governs_iff.mp hgoverns)⟩⟩
  · rintro ⟨hmem, hgoverns | ⟨harea, hnone⟩⟩
    · exact Or.inl ⟨hmem, hgoverns⟩
    · exact Or.inr ⟨fun r hr hgoverns => hnone r hr (governs_iff.mpr hgoverns), hmem, harea⟩

/-- There is an entry for the target: for its governorate or for its region. -/
theorem exists_prices_iff : (∃ rate, Prices rates target rate) ↔
    ∃ rate ∈ rates, rate.Governs target ∨ rate.area = (target.regionCode, none) := by
  constructor
  · rintro ⟨rate, hmem, hgoverns | ⟨harea, -⟩⟩
    · exact ⟨rate, hmem, Or.inl hgoverns⟩
    · exact ⟨rate, hmem, Or.inr harea⟩
  · rintro ⟨rate, hmem, hentry⟩
    by_cases hown : ∃ r ∈ rates, r.Governs target
    · obtain ⟨r, hr, hgoverns⟩ := hown
      exact ⟨r, hr, Or.inl hgoverns⟩
    · have hnone : ∀ r ∈ rates, ¬ r.Governs target := fun r hr hgoverns => hown ⟨r, hr, hgoverns⟩
      exact ⟨rate, hmem, Or.inr ⟨hentry.resolve_left (hnone rate hmem), hnone⟩⟩

theorem Prices.perm (hperm : rates.Perm rates') :
    Prices rates target rate ↔ Prices rates' target rate := by
  simp only [Prices, hperm.mem_iff]

/-- The order of the entries does not matter. -/
theorem rateFor_perm (h : (rates.map DeliveryRate.area).Nodup) (hperm : rates.Perm rates') :
    rateFor rates target = rateFor rates' target := by
  have h' : (rates'.map DeliveryRate.area).Nodup := (hperm.map _).nodup_iff.mp h
  apply Option.ext
  intro rate
  rw [rateFor_iff h, rateFor_iff h', Prices.perm hperm]

end rates

/-! ### What an entry charges -/

theorem DeliveryRate.minPrice_le_fee (rate : DeliveryRate) (distanceMeters : ℚ) :
    roundCurrency rate.minPrice ≤ rate.fee distanceMeters :=
  roundCurrency_mono (le_max_left _ _)

theorem DeliveryRate.fee_mono {rate : DeliveryRate} (h : 0 ≤ rate.pricePerKm) {d d' : ℚ}
    (hd : d ≤ d') : rate.fee d ≤ rate.fee d' := by
  apply roundCurrency_mono
  apply max_le_max le_rfl
  apply mul_le_mul_of_nonneg_right _ h
  linarith

/-! ### The nearest warehouse -/

/-- In service, and stocking the grade. -/
def Warehouse.Supplies (warehouse : Warehouse) (fuelType : FuelType) : Prop :=
  warehouse.isActive = true ∧ fuelType ∈ warehouse.fuelTypes

theorem mem_collect_warehouse {d : Docs Doc} {id : Id} {warehouse : Warehouse} :
    (id, warehouse) ∈ Docs.collect pickWarehouse d ↔
      d.lookup (Key.warehouse id) = some warehouse := by
  rw [Docs.mem_collect]
  constructor
  · rintro ⟨k, x, hx, hpick⟩
    cases k with
    | warehouse id =>
        cases hpick
        exact hx
    | _ => cases hpick
  · intro h
    exact ⟨_, _, h, rfl⟩

section nearest
variable {cfg : Settings} {d : Docs Doc} {coordinates : GeoPoint} {fuelType : FuelType}

/-- A search for the nearest finds one of those it is given, unless there are none. -/
theorem foldl_nearest {α β : Type} (measured : α → β) (step : Option β → α → Option β)
    (hnone : ∀ a, step none a = some (measured a))
    (hstep : ∀ b a, step (some b) a = some b ∨ step (some b) a = some (measured a))
    (xs : List α) : xs = [] ∧ xs.foldl step none = none ∨
      ∃ a ∈ xs, xs.foldl step none = some (measured a) := by
  have kept : ∀ (xs : List α) (b : β), xs.foldl step (some b) = some b ∨
      ∃ a ∈ xs, xs.foldl step (some b) = some (measured a) := by
    intro xs
    induction xs with
    | nil => exact fun b => Or.inl rfl
    | cons x xs ih =>
        intro b
        rw [List.foldl_cons]
        rcases hstep b x with hsame | hx
        · rw [hsame]
          rcases ih b with hb | ⟨a, ha, hfound⟩
          · exact Or.inl hb
          · exact Or.inr ⟨a, List.mem_cons_of_mem x ha, hfound⟩
        · rw [hx]
          rcases ih (measured x) with hb | ⟨a, ha, hfound⟩
          · exact Or.inr ⟨x, List.mem_cons_self, hb⟩
          · exact Or.inr ⟨a, List.mem_cons_of_mem x ha, hfound⟩
  cases xs with
  | nil => exact Or.inl ⟨rfl, rfl⟩
  | cons x xs =>
      right
      rw [List.foldl_cons, hnone]
      rcases kept xs (measured x) with hb | ⟨a, ha, hfound⟩
      · exact ⟨x, List.mem_cons_self, hb⟩
      · exact ⟨a, List.mem_cons_of_mem x ha, hfound⟩

theorem mem_supplying {id : Id} {warehouse : Warehouse} :
    (id, warehouse) ∈ (Docs.collect pickWarehouse d).filter (fun w =>
        w.2.isActive && w.2.fuelTypes.contains fuelType) ↔
      d.lookup (Key.warehouse id) = some warehouse ∧ warehouse.Supplies fuelType := by
  rw [List.mem_filter, mem_collect_warehouse, Warehouse.Supplies, Bool.and_eq_true,
    List.contains_iff_mem]

variable (cfg d coordinates fuelType) in
/-- A warehouse that is found supplies the grade; none is found only if none does. -/
theorem findNearestSupplying_cases :
    findNearestSupplying cfg d coordinates fuelType = none ∧
      (∀ id warehouse, d.lookup (Key.warehouse id) = some warehouse →
        ¬ warehouse.Supplies fuelType) ∨
    ∃ id warehouse, d.lookup (Key.warehouse id) = some warehouse ∧ warehouse.Supplies fuelType ∧
      findNearestSupplying cfg d coordinates fuelType =
        some (id, warehouse, cfg.distanceMeters coordinates warehouse.location) := by
  let supplying := (Docs.collect pickWarehouse d).filter fun w =>
    w.2.isActive && w.2.fuelTypes.contains fuelType
  have hfold : supplying = [] ∧ findNearestSupplying cfg d coordinates fuelType = none ∨
      ∃ w ∈ supplying, findNearestSupplying cfg d coordinates fuelType =
        some (w.1, w.2, cfg.distanceMeters coordinates w.2.location) := by
    unfold findNearestSupplying
    refine foldl_nearest
      (fun w : Id × Warehouse => (w.1, w.2, cfg.distanceMeters coordinates w.2.location)) _
      (fun _ => rfl) (fun b a => ?_) supplying
    dsimp only
    split_ifs
    · exact Or.inr rfl
    · exact Or.inl rfl
  rcases hfold with ⟨hnil, hnone⟩ | ⟨⟨id, warehouse⟩, hmem, hfound⟩
  · refine Or.inl ⟨hnone, fun id warehouse hstored hsupplies => ?_⟩
    have hmem := mem_supplying.mpr ⟨hstored, hsupplies⟩
    cases List.eq_nil_iff_forall_not_mem.mp hnil _ hmem
  · obtain ⟨hstored, hsupplies⟩ := mem_supplying.mp hmem
    exact Or.inr ⟨id, warehouse, hstored, hsupplies, hfound⟩

end nearest

/-! ### The fee of a company -/

section fee
variable {cfg : Settings} {w : World} {n : ℕ} {s : Db} {id : Id} {company : Company}
variable {target : DeliveryTarget} {fuelType : FuelType}

/-- What `feeForCompany` answers on a store. -/
def feeAnswer (cfg : Settings) (w : World) (n : ℕ) (s : Db) (id : Id) (target : DeliveryTarget)
    (fuelType : FuelType) : Except (Failure Refusal) ℚ :=
  ((feeForCompany cfg id target fuelType).alone (machine cfg) w n s).1

variable (cfg w n target fuelType) in
theorem feeAnswer_eq (hcompany : s.find (Key.company id) = some company) :
    feeAnswer cfg w n s id target fuelType =
      match rateFor company.deliveryRates target,
        findNearestSupplying cfg s.docs target.coordinates fuelType with
      | none, _ => .error (.thrown .transportPriceNotSet)
      | some _, none => .error (.thrown .noWarehouseForGrade)
      | some rate, some (_, _, distanceMeters) => .ok (rate.fee distanceMeters) := by
  rw [feeAnswer, feeForCompany, Prog.alone_bind_ok (Prog.alone_find _), hcompany,
    Prog.alone_bind_ok (alone_require _ _)]
  cases rateFor company.deliveryRates target with
  | none => rfl
  | some rate =>
      rw [Prog.alone_bind_ok (alone_require _ _), Prog.alone_bind_ok Prog.alone_scan]
      cases findNearestSupplying cfg s.docs target.coordinates fuelType with
      | none => rfl
      | some nearest => rfl

variable (cfg w n target fuelType) in
/-- There is no entry for the target, or no warehouse that supplies the grade, or there is a fee. -/
theorem feeAnswer_cases (hcompany : s.find (Key.company id) = some company)
    (hareas : (company.deliveryRates.map DeliveryRate.area).Nodup) :
    (∀ rate, ¬ Prices company.deliveryRates target rate) ∧
      feeAnswer cfg w n s id target fuelType = .error (.thrown .transportPriceNotSet) ∨
    (∀ warehouseId warehouse, s.find (Key.warehouse warehouseId) = some warehouse →
      ¬ warehouse.Supplies fuelType) ∧
      feeAnswer cfg w n s id target fuelType = .error (.thrown .noWarehouseForGrade) ∨
    ∃ rate warehouseId warehouse, Prices company.deliveryRates target rate ∧
      s.find (Key.warehouse warehouseId) = some warehouse ∧ warehouse.Supplies fuelType ∧
      feeAnswer cfg w n s id target fuelType =
        .ok (rate.fee (cfg.distanceMeters target.coordinates warehouse.location)) := by
  have hanswer := feeAnswer_eq cfg w n target fuelType hcompany
  cases hrate : rateFor company.deliveryRates target with
  | none =>
      refine Or.inl ⟨fun rate hprices => ?_, by rw [hanswer, hrate]⟩
      rw [(rateFor_iff hareas).mpr hprices] at hrate
      cases hrate
  | some rate =>
      rcases findNearestSupplying_cases cfg s.docs target.coordinates fuelType with
        ⟨hnone, hnobody⟩ | ⟨warehouseId, warehouse, hstored, hsupplies, hfound⟩
      · exact Or.inr (Or.inl ⟨hnobody, by rw [hanswer, hrate, hnone]⟩)
      · refine Or.inr (Or.inr ⟨rate, warehouseId, warehouse, (rateFor_iff hareas).mp hrate, hstored,
          hsupplies, ?_⟩)
        rw [hanswer, hrate, hfound]

variable (cfg w n target fuelType) in
/-- A company answers with the fee of the entry that prices the target, for the way from a
warehouse that supplies the grade; and it refuses if there is no entry or no such warehouse. -/
theorem transport_fee_resolved (hcompany : s.find (Key.company id) = some company)
    (hareas : (company.deliveryRates.map DeliveryRate.area).Nodup)
    (hprices : ∀ rate ∈ company.deliveryRates, 0 ≤ rate.pricePerKm) :
    (∀ rate, rateFor company.deliveryRates target = some rate ↔
      Prices company.deliveryRates target rate) ∧
    (∀ rates', company.deliveryRates.Perm rates' →
      rateFor company.deliveryRates target = rateFor rates' target) ∧
    (∀ fee, feeAnswer cfg w n s id target fuelType = .ok fee →
      ∃ rate warehouseId warehouse, Prices company.deliveryRates target rate ∧
        s.find (Key.warehouse warehouseId) = some warehouse ∧ warehouse.Supplies fuelType ∧
        fee = rate.fee (cfg.distanceMeters target.coordinates warehouse.location)) ∧
    (∀ rate ∈ company.deliveryRates, ∀ distance distance', distance ≤ distance' →
      roundCurrency rate.minPrice ≤ rate.fee distance ∧ rate.fee distance ≤ rate.fee distance') ∧
    ((∃ e, feeAnswer cfg w n s id target fuelType = .error e) ↔
      (∀ rate ∈ company.deliveryRates,
        ¬ rate.Governs target ∧ rate.area ≠ (target.regionCode, none)) ∨
      ∀ warehouseId warehouse, s.find (Key.warehouse warehouseId) = some warehouse →
        ¬ warehouse.Supplies fuelType) := by
  have hcases := feeAnswer_cases cfg w n target fuelType hcompany hareas
  refine ⟨fun rate => rateFor_iff hareas, fun rates' => rateFor_perm hareas, ?_, ?_, ?_⟩
  · intro fee hfee
    rcases hcases with ⟨-, hanswer⟩ | ⟨-, hanswer⟩ |
      ⟨rate, warehouseId, warehouse, hrate, hstored, hsupplies, hanswer⟩
    · exact absurd (hfee.symm.trans hanswer) (by simp)
    · exact absurd (hfee.symm.trans hanswer) (by simp)
    · exact ⟨rate, warehouseId, warehouse, hrate, hstored, hsupplies,
        Except.ok.inj (hfee.symm.trans hanswer)⟩
  · intro rate hrate distance distance' hle
    exact ⟨rate.minPrice_le_fee distance, DeliveryRate.fee_mono (hprices rate hrate) hle⟩
  · constructor
    · rintro ⟨e, he⟩
      rcases hcases with ⟨hnone, -⟩ | ⟨hnobody, -⟩ | ⟨_, _, _, _, _, _, hanswer⟩
      · left
        intro rate hmem
        constructor
        · exact fun hgoverns => hnone rate ⟨hmem, Or.inl hgoverns⟩
        · intro harea
          obtain ⟨rate', hrate'⟩ := exists_prices_iff.mpr ⟨rate, hmem, Or.inr harea⟩
          exact hnone rate' hrate'
      · exact Or.inr hnobody
      · exact absurd (he.symm.trans hanswer) (by simp)
    · intro hnone
      rcases hcases with ⟨-, hanswer⟩ | ⟨-, hanswer⟩ |
        ⟨rate, warehouseId, warehouse, hrate, hstored, hsupplies, -⟩
      · exact ⟨_, hanswer⟩
      · exact ⟨_, hanswer⟩
      · rcases hnone with hnone | hnobody
        · obtain ⟨rate', hmem, hentry⟩ := exists_prices_iff.mp ⟨rate, hrate⟩
          obtain ⟨hown, hwide⟩ := hnone rate' hmem
          exact absurd hentry (not_or.mpr ⟨hown, hwide⟩)
        · exact absurd hsupplies (hnobody warehouseId warehouse hstored)

end fee

/-- A company that prices region 1 and, dearer, the governorate 5 in it. -/
def coastal : Company where
  type := .transport
  deliveryRates := [⟨1, none, 1, 30⟩, ⟨1, some 5, 2, 50⟩]

/-- The only warehouse. -/
def dieselDepot : Warehouse := ⟨"depot", "", ⟨0, 0⟩, [.diesel], true⟩

def sixtyKm : Settings := { defaultCommissionCeiling := 0, distanceMeters := fun _ _ => 60000 }

def coastalDb : Db :=
  Store.load ((AList.singleton (Key.company 0) coastal).insert (Key.warehouse 0) dieselDepot)
    fun e he => by
      rcases List.mem_cons.mp he with rfl | he
      · rfl
      · rw [List.mem_singleton.mp he]
        rfl

/-- 60 km into the governorate cost 120, by its own entry; kerosene is refused. -/
theorem transport_fee_resolved_governorate :
    (∃ rate warehouseId warehouse, Prices coastal.deliveryRates ⟨1, some 5, ⟨0, 0⟩⟩ rate ∧
      coastalDb.find (Key.warehouse warehouseId) = some warehouse ∧ warehouse.Supplies .diesel ∧
      120 = rate.fee 60000) ∧
    ∃ e, feeAnswer sixtyKm ⟨fun _ => 0, fun _ => Env.frozen 0 0, fun _ => true⟩ 0 coastalDb 0
      ⟨1, some 5, ⟨0, 0⟩⟩ .kerosene = .error e := by
  have hcompany : coastalDb.find (Key.company 0) = some coastal := rfl
  have hareas : (coastal.deliveryRates.map DeliveryRate.area).Nodup := by decide
  have hprices : ∀ rate ∈ coastal.deliveryRates, 0 ≤ rate.pricePerKm := by
    simp [coastal]
  constructor
  · obtain ⟨-, -, hfee, -⟩ := transport_fee_resolved sixtyKm
      ⟨fun _ => 0, fun _ => Env.frozen 0 0, fun _ => true⟩ 0 ⟨1, some 5, ⟨0, 0⟩⟩ FuelType.diesel
      hcompany hareas hprices
    have hanswer : feeAnswer sixtyKm ⟨fun _ => 0, fun _ => Env.frozen 0 0, fun _ => true⟩ 0
        coastalDb 0 ⟨1, some 5, ⟨0, 0⟩⟩ FuelType.diesel = .ok 120 := by decide +kernel
    exact hfee 120 hanswer
  · obtain ⟨-, -, -, -, hrefused⟩ := transport_fee_resolved sixtyKm
      ⟨fun _ => 0, fun _ => Env.frozen 0 0, fun _ => true⟩ 0 ⟨1, some 5, ⟨0, 0⟩⟩ FuelType.kerosene
      hcompany hareas hprices
    refine hrefused.mpr (Or.inr fun warehouseId warehouse hstored hsupplies => ?_)
    have hmem := mem_supplying.mpr ⟨hstored, hsupplies⟩
    cases hmem

end CiroFuel
