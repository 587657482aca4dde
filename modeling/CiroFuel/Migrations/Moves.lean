import CiroFuel.Migrations.Tiers

/-!
# What is moved

A fuel company without a transport company gets one, and its drivers and orders
go there. The company and the moves are separate writes, and a fuel company with
a transport company is passed over, so what a stopped run has left behind stays.
-/
namespace CiroFuel.TierMigration

/-! ### One fuel company -/

def moves (drivers : List (Id × UserRecord)) (transportCompanyId : Id) : List Write :=
  if drivers.isEmpty then [] else [.moveDrivers (drivers.map Prod.fst) transportCompanyId]

/-- The writes for a fuel company that has no transport company. -/
def conversion (fuelCompany : Id × CompanyRecord) (t : Id) (now : Instant)
    (drivers : List (Id × UserRecord)) : List Write :=
  .insertTransporter t (transporterOf fuelCompany now) ::
    (moves drivers t ++ [Write.moveOrders fuelCompany.1 t])

def UserRecord.reassign (c t : Id) (u : UserRecord) : UserRecord :=
  if u.drivesFor c then { u with companyId := some t } else u

section moves
variable {db : Database} {x : Id × CompanyRecord} {c t : Id} {now : Instant} {ws : List Write}

theorem notMem_identifiers {id : Id} : id ∉ db.identifiers ↔ id ∉ db.companies.keys ∧
    id ∉ db.users.keys ∧ id ∉ db.orders.keys ∧ id ∉ db.invoices.keys := by
  simp only [Database.identifiers, List.mem_append, not_or, and_assoc]

theorem reassignDrivers_ends {drivers : List (Id × UserRecord)} {u : Unit} :
    (reassignDrivers drivers t).Ends storage db ws u ↔ ws = moves drivers t := by
  unfold reassignDrivers moves
  split
  · exact ⟨fun h => h.1, fun h => ⟨h, rfl⟩⟩
  · rw [Script.ends_perform]
    exact ⟨fun h => h.2, fun h => ⟨rfl, h⟩⟩

theorem reassignDrivers_stops {drivers : List (Id × UserRecord)} :
    (reassignDrivers drivers t).Stops storage db ws ↔ ws = [] ∨ ws = moves drivers t := by
  unfold reassignDrivers moves
  split
  · exact ⟨Or.inl, fun h => h.elim id id⟩
  · rw [Script.stops_perform]
    exact ⟨Or.imp_right And.right, Or.imp_right fun h => ⟨rfl, h⟩⟩

theorem reassignOrders_stops : (reassignOrders c t).Stops storage db ws ↔
    ws = [] ∨ ws = [.moveOrders c t] := by
  constructor
  · rintro (h | ⟨-, rest, rfl, rfl⟩)
    · exact Or.inl h
    · exact Or.inr rfl
  · rintro (rfl | rfl)
    · exact Or.inl rfl
    · exact Or.inr ⟨rfl, [], rfl, rfl⟩

theorem createTransporter_writes : (createTransporter x).Writes storage db ws ↔ ∃ t now,
    t ∉ db.identifiers ∧ db.admits (.insertTransporter t (transporterOf x now)) = true ∧
      ws = conversion x t now (db.drivers x.1) := by
  constructor
  · rintro ⟨_, h⟩
    obtain ⟨_, _, _, rfl, ⟨rfl, rfl⟩, h⟩ := Script.ends_bind.1 h
    obtain ⟨_, _, ⟨t, now⟩, rfl, hdraw, h⟩ := Script.ends_bind.1 h
    obtain ⟨rfl, hfresh⟩ := Script.ends_generate.1 hdraw
    obtain ⟨_, _, _, rfl, hwrite, h⟩ := Script.ends_bind.1 h
    obtain ⟨hadmits, rfl⟩ := Script.ends_perform.1 hwrite
    obtain ⟨_, _, _, rfl, hdrivers, h⟩ := Script.ends_bind.1 h
    obtain rfl := reassignDrivers_ends.1 hdrivers
    obtain ⟨-, _, rfl, rfl, -⟩ := h
    exact ⟨t, now, of_decide_eq_true hfresh, hadmits, rfl⟩
  · rintro ⟨t, now, hfresh, hadmits, rfl⟩
    have hdrivers : ∀ s, (reassignDrivers (db.drivers x.1) t).Ends storage s
        (moves (db.drivers x.1) t) () := fun s => reassignDrivers_ends.2 rfl
    have horders : ∀ s, (reassignOrders x.1 t).Ends storage s [.moveOrders x.1 t]
        (s.legacyOrders x.1).length := fun s => ⟨rfl, [], rfl, rfl, rfl⟩
    exact ⟨_, Script.ends_bind.2 ⟨[], _, _, rfl, ⟨rfl, rfl⟩, Script.ends_bind.2 ⟨[], _, (t, now), rfl,
      Script.ends_generate.2 ⟨rfl, decide_eq_true hfresh⟩, Script.ends_bind.2 ⟨[_], _, (), rfl,
      Script.ends_perform.2 ⟨hadmits, rfl⟩, Script.ends_bind.2 ⟨_, _, (), rfl, hdrivers _,
      Script.ends_bind.2 ⟨_, [], _, rfl, horders _, rfl, rfl⟩⟩⟩⟩⟩⟩

/-- A stop comes before the first write, or it leaves a beginning of the conversion. -/
theorem createTransporter_stops (h : (createTransporter x).Stops storage db ws) : ws = [] ∨
    ∃ t now, t ∉ db.identifiers ∧
      db.admits (.insertTransporter t (transporterOf x now)) = true ∧
      (ws = [.insertTransporter t (transporterOf x now)] ∨
        ws = .insertTransporter t (transporterOf x now) :: moves (db.drivers x.1) t ∨
        ws = conversion x t now (db.drivers x.1)) := by
  rcases Script.stops_bind.1 (Script.stops_query.1 h) with hstop | ⟨_, _, ⟨t, now⟩, rfl, hdraw, h⟩
  · exact Or.inl (Script.stops_generate.1 hstop)
  obtain ⟨rfl, hfresh⟩ := Script.ends_generate.1 hdraw
  rcases Script.stops_bind.1 h with hstop | ⟨_, ws, _, rfl, hwrite, h⟩
  · rcases Script.stops_perform.1 hstop with rfl | ⟨hadmits, rfl⟩
    · exact Or.inl rfl
    · exact Or.inr ⟨t, now, of_decide_eq_true hfresh, hadmits, Or.inl rfl⟩
  obtain ⟨hadmits, rfl⟩ := Script.ends_perform.1 hwrite
  refine Or.inr ⟨t, now, of_decide_eq_true hfresh, hadmits, ?_⟩
  rcases Script.stops_bind.1 h with h | ⟨_, ws₂, _, rfl, hdrivers, h⟩
  · rcases reassignDrivers_stops.1 h with rfl | rfl
    · exact Or.inl rfl
    · exact Or.inr (Or.inl rfl)
  · obtain rfl := reassignDrivers_ends.1 hdrivers
    rcases reassignOrders_stops.1 (Script.stops_map.1 h) with rfl | rfl
    · rw [List.append_nil]
      exact Or.inr (Or.inl rfl)
    · exact Or.inr (Or.inr rfl)

theorem head_isSome : (db.transporters c).head?.isSome = true ↔ db.transporters c ≠ [] := by
  cases db.transporters c <;> simp

theorem migrateCompany_writes : (migrateCompany x).Writes storage db ws ↔
    if db.transporters x.1 ≠ [] then ws = [] else (createTransporter x).Writes storage db ws := by
  change (if ((db.transporters x.1).head?).isSome then pure {}
    else createTransporter x : Migration Moves).Writes storage db ws ↔ _
  simp only [head_isSome]
  split
  · exact Script.writes_nil
  · exact Iff.rfl

theorem migrateCompany_stops : (migrateCompany x).Stops storage db ws ↔
    if db.transporters x.1 ≠ [] then ws = [] else (createTransporter x).Stops storage db ws := by
  change (if ((db.transporters x.1).head?).isSome then pure {}
    else createTransporter x : Migration Moves).Stops storage db ws ↔ _
  simp only [head_isSome]
  split <;> exact Iff.rfl

end moves

/-! ### The effect -/

/-- A company whose transport company is there is passed over. -/
def Settled (x : Id × CompanyRecord) (db : Database) : Prop := db.transporters x.1 ≠ []

/-- The company still has drivers, or orders that were not moved. -/
def Left (c : Id) (db : Database) : Prop := db.drivers c ≠ [] ∨ db.legacyOrders c ≠ []

section effect
variable {db : Database} {x : Id × CompanyRecord} {c t : Id} {now : Instant} {ws : List Write}

theorem drivesFor_iff {u : UserRecord} :
    u.drivesFor c = true ↔ u.companyId = some c ∧ u.role = .driver := by
  simp [UserRecord.drivesFor]

theorem legacyOf_iff {o : OrderRecord} :
    o.legacyOf c = true ↔ o.companyId = some c ∧ o.fuelCompanyId = none := by
  simp [OrderRecord.legacyOf]

theorem not_left : ¬ Left c db ↔ db.drivers c = [] ∧ db.legacyOrders c = [] := by
  unfold Left
  rw [not_or, not_not, not_not]

theorem drivers_eq_nil : db.drivers c = [] ↔ ∀ d ∈ db.users.docs, d.2.drivesFor c = false := by
  simp [Database.drivers, Collection.find, List.filter_eq_nil_iff]

theorem legacyOrders_eq_nil :
    db.legacyOrders c = [] ↔ ∀ d ∈ db.orders.docs, d.2.legacyOf c = false := by
  simp [Database.legacyOrders, Collection.find, List.filter_eq_nil_iff]

/-- The drivers that were read are those that are moved. -/
theorem after_moves (db : Database) (c t : Id) : storage.after db (moves (db.drivers c) t) =
    { db with users := db.users.update fun _ u => u.reassign c t } := by
  have hmem : ∀ d ∈ db.users.docs, d.1 ∈ (db.drivers c).map Prod.fst ↔ d.2.drivesFor c = true := by
    intro d hd
    constructor
    · intro h
      obtain ⟨d', hd', heq⟩ := List.mem_map.1 h
      obtain ⟨hmem, hdrives⟩ := List.mem_filter.1 hd'
      obtain rfl : d' = d := List.inj_on_of_nodup_map db.users.nodup hmem hd heq
      exact hdrives
    · intro h
      exact List.mem_map_of_mem (List.mem_filter.2 ⟨hd, h⟩)
  unfold moves
  split
  · rename_i hnil
    have hdrivers := drivers_eq_nil.1 (List.isEmpty_iff.1 hnil)
    rw [Collection.update_eq_self fun d hd => ?_]
    · rfl
    · rw [UserRecord.reassign, hdrivers d hd, if_neg Bool.false_ne_true]
  · change Database.mk _ _ _ _ = _
    congr 1
    refine Collection.update_congr fun d hd => ?_
    unfold UserRecord.reassign
    simp only [hmem d hd]

theorem after_conversion (db : Database) (x : Id × CompanyRecord) (t : Id) (now : Instant) :
    storage.after db (conversion x t now (db.drivers x.1)) =
      { db with
        companies := db.companies.insert t (transporterOf x now)
        users := db.users.update fun _ u => u.reassign x.1 t
        orders := db.orders.update fun _ o => o.move x.1 t } := by
  unfold conversion
  rw [Storage.after_cons, Storage.after_append]
  have hmoves := after_moves (storage.apply (.insertTransporter t (transporterOf x now)) db) x.1 t
  change storage.after _ (moves (db.drivers x.1) t) = _ at hmoves
  rw [hmoves]
  rfl

theorem drivesFor_reassign {u : UserRecord} (hc : c ≠ x.1) (ht : c ≠ t) :
    (u.reassign x.1 t).drivesFor c = u.drivesFor c := by
  unfold UserRecord.reassign
  split
  · rename_i hdrives
    have hcompany := (drivesFor_iff.1 hdrives).1
    simp [UserRecord.drivesFor, hcompany, hc.symm, ht.symm]
  · rfl

theorem legacyOf_move {o : OrderRecord} (hc : c ≠ x.1) :
    (o.move x.1 t).legacyOf c = o.legacyOf c := by
  unfold OrderRecord.move
  split
  · rename_i hlegacy
    have hcompany := (legacyOf_iff.1 hlegacy).1
    simp [OrderRecord.legacyOf, hcompany, hc.symm]
  · rfl

/-- The conversion of one company leaves the others as they are. -/
theorem left_conversion_ne (hc : c ≠ x.1) (ht : c ≠ t) :
    Left c (storage.after db (conversion x t now (db.drivers x.1))) ↔ Left c db := by
  rw [after_conversion]
  have hdrivers := Collection.find_update_eq_nil (c := db.users)
    (p := fun _ u => u.drivesFor c) (f := fun _ u => u.reassign x.1 t)
    fun _ _ => drivesFor_reassign hc ht
  have horders := Collection.find_update_eq_nil (c := db.orders)
    (p := fun _ o => o.legacyOf c) (f := fun _ o => o.move x.1 t) fun _ _ => legacyOf_move hc
  exact or_congr (not_congr hdrivers) (not_congr horders)

/-- Nothing is left of a company that has been converted. -/
theorem not_left_conversion (ht : x.1 ≠ t) :
    ¬ Left x.1 (storage.after db (conversion x t now (db.drivers x.1))) := by
  rw [after_conversion, not_left, drivers_eq_nil, legacyOrders_eq_nil]
  constructor
  · rintro ⟨id, u'⟩ hu'
    obtain ⟨u, -, rfl⟩ := Collection.mem_update.1 hu'
    unfold UserRecord.reassign
    split
    · simp [UserRecord.drivesFor, ht.symm]
    · rename_i hdrives
      exact eq_false_of_ne_true hdrives
  · rintro ⟨id, o'⟩ ho'
    obtain ⟨o, -, rfl⟩ := Collection.mem_update.1 ho'
    unfold OrderRecord.move
    split
    · simp [OrderRecord.legacyOf]
    · rename_i hlegacy
      exact eq_false_of_ne_true hlegacy

theorem moveOrders_idle (h : db.legacyOrders c = []) :
    storage.apply (.moveOrders c t) db = db := by
  have hlegacy := legacyOrders_eq_nil.1 h
  have horders : (db.orders.update fun _ o => o.move c t) = db.orders := by
    refine Collection.update_eq_self fun d hd => ?_
    rw [OrderRecord.move, hlegacy d hd, if_neg Bool.false_ne_true]
  change Database.mk _ _ (db.orders.update fun _ o => o.move c t) _ = db
  rw [horders]

theorem transporters_insert (ht : t ∉ db.companies.keys) :
    (storage.apply (.insertTransporter t (transporterOf x now)) db).transporters c =
      db.transporters c ++ if x.1 = c then [(t, transporterOf x now)] else [] := by
  change (db.companies.insert t (transporterOf x now)).find _ = _
  rw [Collection.find_insert ht]
  simp only [transporterOf, Option.some.injEq, decide_eq_true_eq]
  rfl

theorem transporters_conversion (ht : t ∉ db.companies.keys) :
    (storage.after db (conversion x t now (db.drivers x.1))).transporters c =
      db.transporters c ++ if x.1 = c then [(t, transporterOf x now)] else [] := by
  rw [after_conversion]
  exact transporters_insert ht

theorem transporters_tag :
    (storage.apply .tagFuel db).transporters c = [] ↔ db.transporters c = [] := by
  refine Collection.find_update_eq_nil (c := db.companies)
    (p := fun _ company => decide (company.migratedFrom = some c)) (f := fun _ company => company.tag)
    fun d _ => ?_
  unfold CompanyRecord.tag
  split <;> rfl

/-- A company stays settled. -/
theorem Settled.apply (w : Write) (h : Settled x db) : Settled x (storage.apply w db) := by
  unfold Settled at h ⊢
  cases w with
  | tagFuel => exact fun heq => h (transporters_tag.1 heq)
  | insertTransporter id company =>
      change (db.companies.insert id company).find _ ≠ []
      by_cases hkey : id ∈ db.companies.keys
      · rw [Collection.insert, dif_pos hkey]
        exact h
      · rw [Collection.find_insert hkey]
        exact List.append_ne_nil_of_left_ne_nil h _
  | moveDrivers _ _ => exact h
  | moveOrders _ _ => exact h
  | placeClient _ _ => exact h
  | insertInvoice _ _ => exact h
  | setInvoice _ _ => exact h

theorem Settled.after (h : Settled x db) : Settled x (storage.after db ws) :=
  Storage.after_induction (fun w _ _ hs => hs.apply w) h

theorem settled_of_writes (h : (migrateCompany x).Writes storage db ws) :
    Settled x (storage.after db ws) := by
  rw [migrateCompany_writes] at h
  split at h
  · rename_i hsettled
    rw [h]
    exact hsettled
  · obtain ⟨t, now, hfresh, -, rfl⟩ := createTransporter_writes.1 h
    unfold Settled
    rw [transporters_conversion (notMem_identifiers.1 hfresh).1, if_pos rfl]
    exact List.append_ne_nil_of_right_ne_nil _ (List.cons_ne_nil _ _)

theorem writes_of_settled (hsettled : Settled x db) (h : (migrateCompany x).Writes storage db ws) :
    ws = [] := by
  unfold Settled at hsettled
  rw [migrateCompany_writes, if_pos hsettled] at h
  exact h

end effect

/-! ### A stop -/

/-- The transport company that a write inserts or moves drivers to. -/
def Write.transporter : Write → Option Id
  | .insertTransporter id _ => some id
  | .moveDrivers _ id => some id
  | _ => none

/-- The last write inserted a transport company or moved drivers to it, and its fuel company
still has drivers or orders. -/
def Cut (db : Database) (ws : List Write) : Prop :=
  ∃ w t company c, ws.getLast? = some w ∧ w.transporter = some t ∧
    (t, company) ∈ db.companies.docs ∧ company.migratedFrom = some c ∧ Left c db

section stops
variable {db : Database} {x : Id × CompanyRecord} {xs : List (Id × CompanyRecord)}
variable {c t : Id} {now : Instant} {ws ws₁ ws₂ : List Write}

theorem not_cut_nil : ¬ Cut db [] := by
  rintro ⟨_, _, _, _, hlast, -⟩
  cases hlast

theorem cut_append (h : ws₂ ≠ []) : Cut db (ws₁ ++ ws₂) ↔ Cut db ws₂ := by
  unfold Cut
  rw [List.getLast?_append_of_ne_nil ws₁ h]

theorem not_cut_of_last {w : Write} (hlast : ws.getLast? = some w) (hw : w.transporter = none) :
    ¬ Cut db ws := by
  rintro ⟨w', t, _, _, hlast', hw', -⟩
  obtain rfl := Option.some.inj (hlast.symm.trans hlast')
  rw [hw] at hw'
  cases hw'

theorem mem_insertTransporter (ht : t ∉ db.companies.keys) : (t, transporterOf x now) ∈
    (storage.apply (.insertTransporter t (transporterOf x now)) db).companies.docs := by
  change _ ∈ (db.companies.insert t (transporterOf x now)).docs
  rw [Collection.docs_insert ht]
  exact List.mem_append_right _ (List.mem_singleton_self _)

/-- The end of a conversion that has been begun. -/
theorem companies_begun {ms : List Write} (hms : ms = [] ∨ ms = moves (db.drivers x.1) t) :
    (storage.after db (.insertTransporter t (transporterOf x now) :: ms)).companies =
      db.companies.insert t (transporterOf x now) := by
  rcases hms with rfl | rfl
  · rfl
  · rw [Storage.after_cons]
    have hmoves := after_moves (storage.apply (.insertTransporter t (transporterOf x now)) db) x.1 t
    change storage.after _ (moves (db.drivers x.1) t) = _ at hmoves
    rw [hmoves]
    rfl

/-- A stop within a conversion is a cut exactly when something is left. -/
theorem cut_begun (ht : t ∉ db.companies.keys) {ms : List Write}
    (hms : ms = [] ∨ ms = moves (db.drivers x.1) t) :
    Cut (storage.after db (.insertTransporter t (transporterOf x now) :: ms))
        (.insertTransporter t (transporterOf x now) :: ms) ↔
      Left x.1 (storage.after db (.insertTransporter t (transporterOf x now) :: ms)) := by
  have hmem : (t, transporterOf x now) ∈ (storage.after db
      (.insertTransporter t (transporterOf x now) :: ms)).companies.docs := by
    rw [companies_begun hms]
    exact mem_insertTransporter ht
  have hlast : ∃ w, (Write.insertTransporter t (transporterOf x now) :: ms).getLast? = some w ∧
      w.transporter = some t := by
    rcases hms with rfl | rfl
    · exact ⟨_, rfl, rfl⟩
    · unfold moves
      split
      · exact ⟨_, rfl, rfl⟩
      · exact ⟨_, rfl, rfl⟩
  obtain ⟨w, hlast, hw⟩ := hlast
  constructor
  · rintro ⟨w', t', company, c, hlast', hw', hcompany, horigin, hleft⟩
    obtain rfl := Option.some.inj (hlast.symm.trans hlast')
    obtain rfl := Option.some.inj (hw.symm.trans hw')
    obtain rfl := Collection.eq_of_mem hcompany hmem
    obtain rfl := Option.some.inj horigin
    exact hleft
  · exact fun hleft => ⟨w, t, _, x.1, hlast, hw, hmem, rfl, hleft⟩

theorem not_cut_conversion : ¬ Cut (storage.after db (conversion x t now (db.drivers x.1)))
    (conversion x t now (db.drivers x.1)) := by
  refine not_cut_of_last (w := .moveOrders x.1 t) ?_ rfl
  unfold conversion
  rw [← List.cons_append, List.getLast?_append_of_ne_nil _ (List.cons_ne_nil _ _)]
  rfl

/-- A conversion of which nothing is left is as good as ended. -/
theorem after_conversion_of_begun {ms : List Write}
    (hms : ms = [] ∨ ms = moves (db.drivers x.1) t)
    (hleft : ¬ Left x.1 (storage.after db (.insertTransporter t (transporterOf x now) :: ms))) :
    storage.after db (conversion x t now (db.drivers x.1)) =
      storage.after db (.insertTransporter t (transporterOf x now) :: ms) := by
  have hnone := not_left.1 hleft
  have hdrivers : ms = moves (db.drivers x.1) t := by
    rcases hms with rfl | rfl
    · have hnil : db.drivers x.1 = [] := hnone.1
      rw [hnil]
      rfl
    · rfl
  unfold conversion
  rw [← List.cons_append, ← hdrivers, Storage.after_append]
  exact moveOrders_idle hnone.2

theorem migrateCompany_resumes (h : (migrateCompany x).Stops storage db ws)
    (hcut : ¬ Cut (storage.after db ws) ws) : (migrateCompany x).Resumes storage db ws := by
  rw [migrateCompany_stops] at h
  split at h
  · rw [h]
    exact Script.resumes_nil
  · rename_i hpending
    rcases createTransporter_stops h with rfl | ⟨t, now, hfresh, hadmits, hws⟩
    · exact Script.resumes_nil
    have hends : (migrateCompany x).Writes storage db (conversion x t now (db.drivers x.1)) := by
      rw [migrateCompany_writes, if_neg hpending]
      exact createTransporter_writes.2 ⟨t, now, hfresh, hadmits, rfl⟩
    have hafter : storage.after db (conversion x t now (db.drivers x.1)) = storage.after db ws := by
      have ht := (notMem_identifiers.1 hfresh).1
      rcases hws with rfl | rfl | rfl
      · exact after_conversion_of_begun (Or.inl rfl) fun hleft =>
          hcut ((cut_begun ht (Or.inl rfl)).2 hleft)
      · exact after_conversion_of_begun (Or.inr rfl) fun hleft =>
          hcut ((cut_begun ht (Or.inr rfl)).2 hleft)
      · rfl
    have hsettled := settled_of_writes hends
    rw [hafter] at hsettled
    intro ws₂ h₂
    rw [writes_of_settled hsettled h₂]
    exact ⟨_, hends, hafter⟩

/-- Where a run was cut there is a fuel company of which something is left behind. -/
theorem left_of_cut (h : (xs.mapM migrateCompany).Stops storage db ws)
    (hcut : Cut (storage.after db ws) ws) : ∃ x ∈ xs, db.transporters x.1 = [] ∧
      Settled x (storage.after db ws) ∧ Left x.1 (storage.after db ws) := by
  have hbody : ∀ {x : Id × CompanyRecord} {db : Database} {ws : List Write},
      (migrateCompany x).Stops storage db ws → Cut (storage.after db ws) ws →
      db.transporters x.1 = [] ∧ Settled x (storage.after db ws) ∧
        Left x.1 (storage.after db ws) := by
    intro x db ws h hcut
    rw [migrateCompany_stops] at h
    split at h
    · rw [h] at hcut
      exact absurd hcut not_cut_nil
    · rename_i hpending
      rcases createTransporter_stops h with rfl | ⟨t, now, hfresh, hadmits, hws⟩
      · exact absurd hcut not_cut_nil
      have ht := (notMem_identifiers.1 hfresh).1
      have hsettled : ∀ ms : List Write, Settled x
          (storage.after db (.insertTransporter t (transporterOf x now) :: ms)) := by
        intro ms
        rw [Storage.after_cons]
        refine Settled.after ?_
        unfold Settled
        rw [transporters_insert ht, if_pos rfl]
        exact List.append_ne_nil_of_right_ne_nil _ (List.cons_ne_nil _ _)
      rcases hws with rfl | rfl | rfl
      · exact ⟨not_not.1 hpending, hsettled _, (cut_begun ht (Or.inl rfl)).1 hcut⟩
      · exact ⟨not_not.1 hpending, hsettled _, (cut_begun ht (Or.inr rfl)).1 hcut⟩
      · exact absurd hcut not_cut_conversion
  induction xs generalizing db ws with
  | nil =>
      obtain rfl : ws = [] := h
      exact absurd hcut not_cut_nil
  | cons x xs ih =>
      rw [Script.mapM_cons] at h
      rcases Script.stops_both.1 h with h | ⟨ws₁, ws₂, rfl, h₁, h₂⟩
      · exact ⟨x, List.mem_cons_self, hbody h hcut⟩
      · by_cases hnil : ws₂ = []
        · rw [hnil, List.append_nil] at hcut ⊢
          exact ⟨x, List.mem_cons_self, hbody h₁.stops hcut⟩
        · rw [cut_append hnil, Storage.after_append] at hcut
          obtain ⟨y, hy, hpending, hsettled, hleft⟩ := ih h₂ hcut
          rw [← Storage.after_append] at hsettled hleft
          refine ⟨y, List.mem_cons_of_mem _ hy, ?_, hsettled, hleft⟩
          by_contra hne
          exact Settled.after hne hpending

end stops

/-! ### Runs over the fuel companies -/

/-- The drivers and the orders that the company had are its transport company's. -/
structure Moved (db db' : Database) (c t : Id) : Prop where
  transporter : ∃ company, (t, company) ∈ db'.companies.docs ∧ company.migratedFrom = some c
  drivers : ∀ id u, (id, u) ∈ db.users.docs → u.drivesFor c = true →
    ∃ u', (id, u') ∈ db'.users.docs ∧ u'.companyId = some t
  orders : ∀ id o, (id, o) ∈ db.orders.docs → o.legacyOf c = true →
    ∃ o', (id, o') ∈ db'.orders.docs ∧ o'.fuelCompanyId = some (some c) ∧
      o'.transportCompanyId = some t

section runs
variable {db db₁ : Database} {x y : Id × CompanyRecord} {xs : List (Id × CompanyRecord)}
variable {c t : Id} {now : Instant} {ws : List Write}

theorem keys_after (h : (migrateCompany x).Writes storage db ws) (hc : c ∈ db.companies.keys) :
    c ∈ (storage.after db ws).companies.keys := by
  rw [migrateCompany_writes] at h
  split at h
  · rw [h]
    exact hc
  · obtain ⟨t, now, -, -, rfl⟩ := createTransporter_writes.1 h
    rw [after_conversion]
    exact Collection.mem_keys_insert.2 (Or.inl hc)

/-- What is left of a company changes only when the company is converted, and then nothing is. -/
theorem left_body (h : (migrateCompany x).Writes storage db ws) (hc : c ∈ db.companies.keys) :
    (Left c (storage.after db ws) ↔ Left c db) ∨
      x.1 = c ∧ db.transporters c = [] ∧ ¬ Left c (storage.after db ws) := by
  rw [migrateCompany_writes] at h
  split at h
  · rw [h]
    exact Or.inl Iff.rfl
  · rename_i hpending
    obtain ⟨t, now, hfresh, -, rfl⟩ := createTransporter_writes.1 h
    have ht : c ≠ t := by
      rintro rfl
      exact (notMem_identifiers.1 hfresh).1 hc
    by_cases hx : x.1 = c
    · subst hx
      exact Or.inr ⟨rfl, not_not.1 hpending, not_left_conversion ht⟩
    · exact Or.inl (left_conversion_ne (Ne.symm hx) ht)

/-- What is left of a settled company stays. -/
theorem left_kept (h : (xs.mapM migrateCompany).Writes storage db ws)
    (hc : c ∈ db.companies.keys) (hsettled : db.transporters c ≠ []) (hleft : Left c db) :
    Left c (storage.after db ws) := by
  induction xs generalizing db ws with
  | nil =>
      obtain rfl := Script.writes_nil.1 h
      exact hleft
  | cons x xs ih =>
      rw [Script.mapM_cons] at h
      obtain ⟨ws₁, ws₂, rfl, h₁, h₂⟩ := Script.writes_both.1 h
      rw [Storage.after_append]
      have hsettled₁ : (storage.after db ws₁).transporters c ≠ [] :=
        Settled.after (x := (c, x.2)) hsettled
      refine ih h₂ (keys_after h₁ hc) hsettled₁ ?_
      rcases left_body h₁ hc with hiff | ⟨-, hnil, -⟩
      · exact hiff.2 hleft
      · exact absurd hnil hsettled

theorem not_left_kept (h : (xs.mapM migrateCompany).Writes storage db ws)
    (hc : c ∈ db.companies.keys) (hleft : ¬ Left c db) : ¬ Left c (storage.after db ws) := by
  induction xs generalizing db ws with
  | nil =>
      obtain rfl := Script.writes_nil.1 h
      exact hleft
  | cons x xs ih =>
      rw [Script.mapM_cons] at h
      obtain ⟨ws₁, ws₂, rfl, h₁, h₂⟩ := Script.writes_both.1 h
      rw [Storage.after_append]
      refine ih h₂ (keys_after h₁ hc) ?_
      rcases left_body h₁ hc with hiff | ⟨-, -, hnone⟩
      · exact fun h => hleft (hiff.1 h)
      · exact hnone

/-- A conversion moves what the company has. -/
theorem moved_conversion (ht : t ∉ db.companies.keys) :
    Moved db (storage.after db (conversion x t now (db.drivers x.1))) x.1 t := by
  rw [after_conversion]
  constructor
  · exact ⟨transporterOf x now, mem_insertTransporter ht, rfl⟩
  · intro id u hu hdrives
    refine ⟨u.reassign x.1 t, Collection.mem_update.2 ⟨u, hu, rfl⟩, ?_⟩
    rw [UserRecord.reassign, if_pos hdrives]
  · intro id o ho hlegacy
    refine ⟨o.move x.1 t, Collection.mem_update.2 ⟨o, ho, rfl⟩, ?_⟩
    rw [OrderRecord.move, if_pos hlegacy]
    exact ⟨congrArg some (legacyOf_iff.1 hlegacy).1, rfl⟩

/-- What has been moved stays, unless it is moved to a fuel company. -/
theorem Moved.body (hmoved : Moved db db₁ c t) (h : (migrateCompany y).Writes storage db₁ ws)
    (hy : y.1 ≠ t) : Moved db (storage.after db₁ ws) c t := by
  rw [migrateCompany_writes] at h
  split at h
  · rw [h]
    exact hmoved
  · obtain ⟨t', now, hfresh, -, rfl⟩ := createTransporter_writes.1 h
    rw [after_conversion]
    obtain ⟨⟨company, hcompany, horigin⟩, hdrivers, horders⟩ := hmoved
    constructor
    · refine ⟨company, ?_, horigin⟩
      change _ ∈ (db₁.companies.insert t' (transporterOf y now)).docs
      rw [Collection.docs_insert (notMem_identifiers.1 hfresh).1]
      exact List.mem_append_left _ hcompany
    · intro id u hu hdrives
      obtain ⟨u', hu', ht⟩ := hdrivers id u hu hdrives
      refine ⟨u', Collection.mem_update.2 ⟨u', hu', ?_⟩, ht⟩
      have hnot : ¬ u'.drivesFor y.1 = true := fun h =>
        hy (Option.some.inj ((drivesFor_iff.1 h).1.symm.trans ht))
      rw [UserRecord.reassign, if_neg hnot]
    · intro id o ho hlegacy
      obtain ⟨o', ho', hfuel, ht⟩ := horders id o ho hlegacy
      refine ⟨o', Collection.mem_update.2 ⟨o', ho', ?_⟩, hfuel, ht⟩
      have hnot : ¬ o'.legacyOf y.1 = true := fun h => by
        rw [(legacyOf_iff.1 h).2] at hfuel
        cases hfuel
      rw [OrderRecord.move, if_neg hnot]

theorem Moved.run (hmoved : Moved db db₁ c t) (h : (xs.mapM migrateCompany).Writes storage db₁ ws)
    (hxs : ∀ y ∈ xs, y.1 ≠ t) : Moved db (storage.after db₁ ws) c t := by
  induction xs generalizing db₁ ws with
  | nil =>
      obtain rfl := Script.writes_nil.1 h
      exact hmoved
  | cons y xs ih =>
      rw [Script.mapM_cons] at h
      obtain ⟨ws₁, ws₂, rfl, h₁, h₂⟩ := Script.writes_both.1 h
      rw [Storage.after_append]
      exact ih (hmoved.body h₁ (hxs y List.mem_cons_self)) h₂
        fun z hz => hxs z (List.mem_cons_of_mem _ hz)

/-- Another company's conversion leaves what is to be moved. -/
theorem Moved.of_body (h : (migrateCompany y).Writes storage db ws) (hy : y.1 ≠ c)
    (hmoved : Moved (storage.after db ws) db₁ c t) : Moved db db₁ c t := by
  rw [migrateCompany_writes] at h
  split at h
  · rw [h] at hmoved
    exact hmoved
  · obtain ⟨t', now, -, -, rfl⟩ := createTransporter_writes.1 h
    rw [after_conversion] at hmoved
    obtain ⟨htransporter, hdrivers, horders⟩ := hmoved
    refine ⟨htransporter, fun id u hu hdrives => ?_, fun id o ho hlegacy => ?_⟩
    · refine hdrivers id u (Collection.mem_update.2 ⟨u, hu, ?_⟩) hdrives
      have hnot : ¬ u.drivesFor y.1 = true := fun h =>
        hy (Option.some.inj ((drivesFor_iff.1 h).1.symm.trans (drivesFor_iff.1 hdrives).1))
      rw [UserRecord.reassign, if_neg hnot]
    · refine horders id o (Collection.mem_update.2 ⟨o, ho, ?_⟩) hlegacy
      have hnot : ¬ o.legacyOf y.1 = true := fun h =>
        hy (Option.some.inj ((legacyOf_iff.1 h).1.symm.trans (legacyOf_iff.1 hlegacy).1))
      rw [OrderRecord.move, if_neg hnot]

/-- A run that ends moves what every pending company has, and leaves nothing. -/
theorem moved_run (hnodup : (xs.map Prod.fst).Nodup) (hkeys : ∀ y ∈ xs, y.1 ∈ db.companies.keys)
    (h : (xs.mapM migrateCompany).Writes storage db ws) (hx : x ∈ xs)
    (hpending : db.transporters x.1 = []) : ¬ Left x.1 (storage.after db ws) ∧
      ∃ t, Moved db (storage.after db ws) x.1 t := by
  induction xs generalizing db ws with
  | nil => cases hx
  | cons y xs ih =>
      rw [List.map_cons, List.nodup_cons] at hnodup
      rw [Script.mapM_cons] at h
      obtain ⟨ws₁, ws₂, rfl, h₁, h₂⟩ := Script.writes_both.1 h
      rw [Storage.after_append]
      rcases List.mem_cons.1 hx with rfl | hx
      · have h₁' := h₁
        rw [migrateCompany_writes, if_neg (not_not.2 hpending)] at h₁'
        obtain ⟨t, now, hfresh, -, rfl⟩ := createTransporter_writes.1 h₁'
        have ht := (notMem_identifiers.1 hfresh).1
        have hne : ∀ z ∈ x :: xs, z.1 ≠ t := by
          rintro z hz rfl
          exact ht (hkeys z hz)
        refine ⟨not_left_kept h₂ (keys_after h₁ (hkeys x hx)) (not_left_conversion ?_), t, ?_⟩
        · exact hne x hx
        · exact (moved_conversion ht).run h₂ fun z hz => hne z (List.mem_cons_of_mem _ hz)
      · have hne : y.1 ≠ x.1 := by
          intro heq
          exact hnodup.1 (heq ▸ List.mem_map_of_mem hx)
        have hpending₁ : (storage.after db ws₁).transporters x.1 = [] := by
          rw [migrateCompany_writes] at h₁
          split at h₁
          · rw [h₁]
            exact hpending
          · obtain ⟨t, now, hfresh, -, rfl⟩ := createTransporter_writes.1 h₁
            rw [transporters_conversion (notMem_identifiers.1 hfresh).1, if_neg hne, hpending]
            rfl
        obtain ⟨hleft, t, hmoved⟩ := ih hnodup.2
          (fun z hz => keys_after h₁ (hkeys z (List.mem_cons_of_mem _ hz))) h₂ hx hpending₁
        exact ⟨hleft, t, hmoved.of_body h₁ hne⟩

end runs

end CiroFuel.TierMigration
