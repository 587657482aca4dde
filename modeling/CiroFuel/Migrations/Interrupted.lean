import CiroFuel.Migrations.Moves
import CiroFuel.Migrations.Offers

/-!
# Migrations that are stopped and run again

The multi-tier migration passes over what it takes for done. That covers every
stop but one kind: a stop between the insert of a transport company and the
writes that move what belongs to it. Those are not made up for by the next run.
The migration of requests has no run that ends with its summary.
-/
namespace CiroFuel.TierMigration

/-! ### The parts of the script -/

def Write.ofCompanies : Write → Prop
  | .insertTransporter _ company => company.type = some (some .transport)
  | .moveDrivers _ _ => True
  | .moveOrders _ _ => True
  | _ => False

def Write.ofClients : Write → Prop
  | .placeClient _ _ => True
  | _ => False

def Write.ofInvoices : Write → Prop
  | .insertInvoice _ _ => True
  | .setInvoice _ _ => True
  | _ => False

/-- No company is without a type. -/
def Typed (db : Database) : Prop := ∀ d ∈ db.companies.docs, d.2.type.isSome = true

theorem migrateMultiTier_eq : migrateMultiTier =
    Script.both (fun n r => summarise n r.1 r.2.1 r.2.2) tagCompanies
      (Script.both Prod.mk migrateCompanies (Script.both Prod.mk migrateClients issueInvoices)) := by
  simp [migrateMultiTier, Script.both]

section parts
variable {db : Database} {ws : List Write} {w : Write} {c t : Id}

theorem tagCompanies_writes : tagCompanies.Writes storage db ws ↔ ws = [.tagFuel] := by
  constructor
  · rintro ⟨_, -, _, rfl, rfl, -⟩
    rfl
  · rintro rfl
    exact ⟨_, rfl, [], rfl, rfl, rfl⟩

theorem tagCompanies_stops (h : tagCompanies.Stops storage db ws) : ws = [] ∨ ws = [.tagFuel] := by
  rcases h with h | ⟨-, _, rfl, rfl⟩
  · exact Or.inl h
  · exact Or.inr rfl

theorem migrateCompany_only (x : Id × CompanyRecord) :
    (migrateCompany x).Only Write.ofCompanies := by
  refine fun s => ?_
  change (if ((s.transporters x.1).head?).isSome then pure {}
    else createTransporter x : Migration Moves).Only _
  split
  · trivial
  · refine fun s g => ⟨rfl, ?_⟩
    refine Script.Only.bind (p := reassignDrivers _ _) ?_ fun _ => fun _ => ⟨trivial, trivial⟩
    unfold reassignDrivers
    split
    · trivial
    · exact ⟨trivial, trivial⟩

theorem migrateCompanies_only : migrateCompanies.Only Write.ofCompanies :=
  fun _ => Script.Only.mapM migrateCompany_only _

theorem migrateClient_only (x : Id × UserRecord) : (migrateClient x).Only Write.ofClients :=
  ⟨trivial, trivial⟩

theorem migrateClients_only : migrateClients.Only Write.ofClients :=
  fun _ => Script.Only.mapM migrateClient_only _

theorem issueInvoice_only (x : Id × OrderRecord) : (issueInvoice x).Only Write.ofInvoices := by
  refine fun s => ?_
  change (linkInvoice x (s.invoicesOf x.1).head?).Only _
  cases (s.invoicesOf x.1).head? with
  | some _ => exact ⟨trivial, trivial⟩
  | none => exact fun _ => ⟨trivial, trivial, trivial⟩

theorem issueInvoices_only : issueInvoices.Only Write.ofInvoices :=
  fun _ => Script.Only.mapM issueInvoice_only _

theorem migrateClient_writes {x : Id × UserRecord} : (migrateClient x).Writes storage db ws ↔
    ws = [.placeClient x.1 (stationOf x.2)] := by
  constructor
  · rintro ⟨_, -, _, rfl, rfl, -⟩
    rfl
  · rintro rfl
    exact ⟨_, rfl, [], rfl, rfl, rfl⟩

theorem migrateClient_stops {x : Id × UserRecord} (h : (migrateClient x).Stops storage db ws) :
    ws = [] ∨ ws = [.placeClient x.1 (stationOf x.2)] := by
  rcases h with h | ⟨-, _, rfl, rfl⟩
  · exact Or.inl h
  · exact Or.inr rfl

theorem linkInvoice_writes {x : Id × OrderRecord} {existing : Option (Id × InvoiceRecord)} :
    (linkInvoice x existing).Writes storage db ws ↔
      (∃ invoice, existing = some invoice ∧ ws = [.setInvoice x.1 invoice.1]) ∨
      existing = none ∧ ∃ id now, id ∉ db.identifiers ∧
        db.admits (.insertInvoice id (invoiceOf x now)) = true ∧
        ws = [.insertInvoice id (invoiceOf x now), .setInvoice x.1 id] := by
  cases existing with
  | some invoice =>
      constructor
      · rintro ⟨_, -, _, rfl, rfl, -⟩
        exact Or.inl ⟨invoice, rfl, rfl⟩
      · rintro (⟨_, heq, rfl⟩ | ⟨hnone, -⟩)
        · cases heq
          exact ⟨_, rfl, [], rfl, rfl, rfl⟩
        · cases hnone
  | none =>
      constructor
      · rintro ⟨_, ⟨id, now⟩, hfresh, hadmits, _, rfl, -, _, rfl, rfl, -⟩
        exact Or.inr ⟨rfl, id, now, of_decide_eq_true hfresh, hadmits, rfl⟩
      · rintro (⟨_, heq, -⟩ | ⟨-, id, now, hfresh, hadmits, rfl⟩)
        · cases heq
        · exact ⟨_, (id, now), decide_eq_true hfresh, hadmits, _, rfl, rfl, [], rfl, rfl, rfl⟩

/-- A run for an order is stopped at its start, at its end, or between the invoice and the
order. -/
theorem linkInvoice_stops {x : Id × OrderRecord} {existing : Option (Id × InvoiceRecord)}
    (h : (linkInvoice x existing).Stops storage db ws) : ws = [] ∨
      (linkInvoice x existing).Writes storage db ws ∨
      existing = none ∧ ∃ id now, id ∉ db.identifiers ∧
        db.admits (.insertInvoice id (invoiceOf x now)) = true ∧
        ws = [.insertInvoice id (invoiceOf x now)] := by
  cases existing with
  | some invoice =>
      rcases h with h | ⟨-, _, rfl, rfl⟩
      · exact Or.inl h
      · exact Or.inr (Or.inl (linkInvoice_writes.2 (Or.inl ⟨invoice, rfl, rfl⟩)))
  | none =>
      rcases h with h | ⟨⟨id, now⟩, hfresh, h⟩
      · exact Or.inl h
      rcases h with h | ⟨hadmits, _, rfl, h⟩
      · exact Or.inl h
      have hid := of_decide_eq_true hfresh
      rcases h with rfl | ⟨-, _, rfl, rfl⟩
      · exact Or.inr (Or.inr ⟨rfl, id, now, hid, hadmits, rfl⟩)
      · exact Or.inr (Or.inl (linkInvoice_writes.2 (Or.inr ⟨rfl, id, now, hid, hadmits, rfl⟩)))

end parts

/-! ### What the parts keep -/

section keeps
variable {db : Database} {ws : List Write} {w : Write} {c : Id}

theorem companies_apply (hw : w.ofClients ∨ w.ofInvoices) :
    (storage.apply w db).companies = db.companies := by
  cases w with
  | tagFuel => exact (hw.elim id id).elim
  | insertTransporter _ _ => exact (hw.elim id id).elim
  | _ => rfl

theorem users_apply (hw : w.ofInvoices) : (storage.apply w db).users = db.users := by
  cases w with
  | moveDrivers _ _ => exact hw.elim
  | placeClient _ _ => exact hw.elim
  | _ => rfl

theorem fuelCompanies_apply (hw : w.ofCompanies ∨ w.ofClients ∨ w.ofInvoices) :
    (storage.apply w db).fuelCompanies = db.fuelCompanies := by
  rcases hw with hw | hw
  · cases w with
    | insertTransporter id company =>
        change (db.companies.insert id company).find _ = _
        by_cases hkey : id ∈ db.companies.keys
        · rw [Collection.insert, dif_pos hkey]
          rfl
        · have htype : company.type = some (some .transport) := hw
          rw [Collection.find_insert hkey]
          simp only [htype, Option.some.injEq, reduceCtorEq, decide_false, Bool.false_eq_true,
            if_false, List.append_nil]
          rfl
    | moveDrivers _ _ => rfl
    | moveOrders _ _ => rfl
    | tagFuel => exact hw.elim
    | placeClient _ _ => exact hw.elim
    | insertInvoice _ _ => exact hw.elim
    | setInvoice _ _ => exact hw.elim
  · exact congrArg (fun cs : Collection Id CompanyRecord => cs.find _) (companies_apply hw)

theorem Typed.apply (h : Typed db) (hw : w.ofCompanies ∨ w.ofClients ∨ w.ofInvoices) :
    Typed (storage.apply w db) := by
  rcases hw with hw | hw
  · cases w with
    | insertTransporter id company =>
        change ∀ d ∈ (db.companies.insert id company).docs, _
        by_cases hkey : id ∈ db.companies.keys
        · rw [Collection.insert, dif_pos hkey]
          exact h
        · intro d hd
          rw [Collection.docs_insert hkey] at hd
          rcases List.mem_append.1 hd with hd | hd
          · exact h d hd
          · obtain rfl := List.mem_singleton.1 hd
            have htype : company.type = some (some .transport) := hw
            rw [htype]
            rfl
    | moveDrivers _ _ => exact h
    | moveOrders _ _ => exact h
    | tagFuel => exact hw.elim
    | placeClient _ _ => exact hw.elim
    | insertInvoice _ _ => exact hw.elim
    | setInvoice _ _ => exact hw.elim
  · unfold Typed
    rw [companies_apply hw]
    exact h

theorem CompanyRecord.tag_type (c : CompanyRecord) : c.tag.type.isSome = true := by
  unfold CompanyRecord.tag
  split
  · rfl
  · rename_i htype
    exact Option.isSome_iff_ne_none.2 fun h => htype (Option.isNone_iff_eq_none.2 h)

theorem typed_tag (db : Database) : Typed (storage.apply .tagFuel db) := by
  rintro ⟨id, c⟩ hc
  obtain ⟨c, -, rfl⟩ := Collection.mem_update.1 hc
  exact c.tag_type

theorem Typed.tag (h : Typed db) : storage.apply .tagFuel db = db := by
  have hcompanies : (db.companies.update fun _ c => c.tag) = db.companies := by
    refine Collection.update_eq_self fun d hd => if_neg ?_
    rw [Option.isNone_iff_eq_none]
    exact Option.isSome_iff_ne_none.1 (h d hd)
  change Database.mk (db.companies.update fun _ c => c.tag) _ _ _ = db
  rw [hcompanies]

/-- Only the conversion of companies changes what is left of one. -/
theorem left_apply (hw : w = .tagFuel ∨ w.ofClients ∨ w.ofInvoices) :
    Left c (storage.apply w db) ↔ Left c db := by
  rcases hw with rfl | hw
  · exact Iff.rfl
  · cases w with
    | placeClient id station =>
        have hdrivers := Collection.find_update_eq_nil (c := db.users)
          (p := fun _ u => u.drivesFor c)
          (f := fun id' u => if id' = id then u.place station else u) fun d _ => by
            split <;> rfl
        exact or_congr (not_congr hdrivers) Iff.rfl
    | insertInvoice _ _ => exact Iff.rfl
    | setInvoice id invoiceId =>
        have horders := Collection.find_update_eq_nil (c := db.orders)
          (p := fun _ o => o.legacyOf c)
          (f := fun id' o => if id' = id then o.setInvoice invoiceId else o) fun d _ => by
            split <;> rfl
        exact or_congr Iff.rfl (not_congr horders)
    | tagFuel => exact (hw.elim id id).elim
    | insertTransporter _ _ => exact (hw.elim id id).elim
    | moveDrivers _ _ => exact (hw.elim id id).elim
    | moveOrders _ _ => exact (hw.elim id id).elim

theorem left_after (hws : ∀ w ∈ ws, w = .tagFuel ∨ w.ofClients ∨ w.ofInvoices) :
    Left c (storage.after db ws) ↔ Left c db :=
  Storage.after_induction (P := fun s => Left c s ↔ Left c db)
    (fun w hw _ hs => (left_apply (hws w hw)).trans hs) Iff.rfl

end keeps

/-! ### The parts, run again -/

section again
variable {db : Database} {ws ws₂ : List Write}

theorem tagCompanies_resumes (h : tagCompanies.Stops storage db ws) :
    tagCompanies.Resumes storage db ws := by
  rcases tagCompanies_stops h with rfl | rfl
  · exact Script.resumes_nil
  · refine (tagCompanies_writes.2 rfl).resumes fun ws₂ h₂ => ?_
    rw [tagCompanies_writes.1 h₂]
    exact (typed_tag db).tag

theorem tagCompanies_idle (h : Typed db) : tagCompanies.Idle storage db := by
  intro ws hws
  rw [tagCompanies_writes.1 hws]
  exact h.tag

theorem fuelCompanies_after
    (hws : ∀ w ∈ ws, w.ofCompanies ∨ w.ofClients ∨ w.ofInvoices) :
    (storage.after db ws).fuelCompanies = db.fuelCompanies :=
  Storage.after_induction (P := fun s : Database => s.fuelCompanies = db.fuelCompanies)
    (fun w hw _ hs => (fuelCompanies_apply (hws w hw)).trans hs) rfl

theorem Typed.after (h : Typed db) (hws : ∀ w ∈ ws, w.ofCompanies ∨ w.ofClients ∨ w.ofInvoices) :
    Typed (storage.after db ws) :=
  Storage.after_induction (fun w hw _ hs => hs.apply (hws w hw)) h

theorem migrateCompanies_resumes (h : migrateCompanies.Stops storage db ws)
    (hcut : ¬ Cut (storage.after db ws) ws) : migrateCompanies.Resumes storage db ws := by
  refine Script.Resumes.query (fuelCompanies_after fun w hw =>
    Or.inl (migrateCompanies_only.stops h w hw)) ?_
  refine Script.resumes_mapM Settled
    (fun s ws => ¬ Cut (storage.after s ws) ws) (fun x s ws => writes_of_settled)
    (fun x s ws => settled_of_writes) (fun x w s => Settled.apply w) ?_
    (fun x s ws => migrateCompany_resumes) (Script.stops_query.1 h) hcut
  intro s ws₁ ws₂ hcut hne
  rwa [Storage.after_append, cut_append hne] at hcut

theorem migrateCompanies_idle (h : ∀ x ∈ db.fuelCompanies, Settled x db) :
    migrateCompanies.Idle storage db := by
  refine Script.idle_of_writes_nil fun ws hws => ?_
  have hrun := Script.writes_query.1 hws
  generalize db.fuelCompanies = xs at h hrun
  induction xs generalizing ws with
  | nil => exact Script.writes_nil.1 hrun
  | cons x xs ih =>
      rw [Script.mapM_cons] at hrun
      obtain ⟨ws₁, ws₂, rfl, h₁, h₂⟩ := Script.writes_both.1 hrun
      obtain rfl := writes_of_settled (h x List.mem_cons_self) h₁
      exact ih _ hws (fun y hy => h y (List.mem_cons_of_mem _ hy)) h₂

theorem migrateCompanies_settled (h : migrateCompanies.Writes storage db ws) :
    ∀ x ∈ db.fuelCompanies, Settled x (storage.after db ws) := by
  have hrun := Script.writes_query.1 h
  clear h
  generalize db.fuelCompanies = xs at hrun
  induction xs generalizing db ws with
  | nil => simp
  | cons x xs ih =>
      rw [Script.mapM_cons] at hrun
      obtain ⟨ws₁, ws₂, rfl, h₁, h₂⟩ := Script.writes_both.1 hrun
      rw [Storage.after_append]
      exact List.forall_mem_cons.2 ⟨(settled_of_writes h₁).after, ih h₂⟩

theorem clients_body (x : Id × UserRecord) (xs : List (Id × UserRecord)) (s : Database)
    (ws : List Write) (hpending : s.clients = x :: xs)
    (h : (migrateClient x).Writes storage s ws) : (storage.after s ws).clients = xs := by
  obtain rfl := migrateClient_writes.1 h
  change (s.users.updateOne x.1 (UserRecord.place _)).find _ = xs
  exact Collection.find_updateOne (b := x.2) hpending (by simp [UserRecord.place])

theorem migrateClients_resumes (h : migrateClients.Stops storage db ws) :
    migrateClients.Resumes storage db ws := by
  refine Script.resumes_pending (f := migrateClient) clients_body (fun x xs s ws hpending h => ?_) h
  rcases migrateClient_stops h with rfl | rfl
  · exact Or.inr ⟨hpending, Script.resumes_nil⟩
  · exact Or.inl (migrateClient_writes.2 rfl)

theorem migrateClients_idle (h : db.clients = []) : migrateClients.Idle storage db := by
  refine Script.idle_of_writes_nil fun ws hws => ?_
  have hrun := Script.writes_query.1 hws
  rw [h] at hrun
  exact Script.writes_nil.1 hrun

theorem paidOrders_body (x : Id × OrderRecord) (xs : List (Id × OrderRecord)) (s : Database)
    (ws : List Write) (hpending : s.paidOrders = x :: xs)
    (h : (issueInvoice x).Writes storage s ws) : (storage.after s ws).paidOrders = xs := by
  have hset : ∀ invoiceId, (s.orders.updateOne x.1 (OrderRecord.setInvoice invoiceId)).find
      (fun _ o => [OrderStatus.inTransit, .unloading, .delivered].contains o.status &&
        o.invoiceId.isNone) = xs := fun invoiceId =>
    Collection.find_updateOne (b := x.2) hpending (by simp [OrderRecord.setInvoice])
  have hlink : (linkInvoice x (s.invoicesOf x.1).head?).Writes storage s ws := h
  rcases linkInvoice_writes.1 hlink with ⟨invoice, -, rfl⟩ | ⟨-, id, now, -, -, rfl⟩
  · exact hset invoice.1
  · exact hset id

theorem issueInvoices_resumes (h : issueInvoices.Stops storage db ws) :
    issueInvoices.Resumes storage db ws := by
  refine Script.resumes_pending (f := issueInvoice) paidOrders_body (fun x xs s ws hpending h => ?_) h
  have hlink : (linkInvoice x (s.invoicesOf x.1).head?).Stops storage s ws := h
  rcases linkInvoice_stops hlink with rfl | hwrites | ⟨hnone, id, now, hfresh, hadmits, rfl⟩
  · exact Or.inr ⟨hpending, Script.resumes_nil⟩
  · exact Or.inl hwrites
  · refine Or.inr ⟨hpending, fun ws₂ h₂ => ?_⟩
    -- The next run finds the invoice and completes the order.
    have hfound : ((storage.after s [.insertInvoice id (invoiceOf x now)]).invoicesOf x.1).head? =
        some (id, invoiceOf x now) := by
      change ((s.invoices.insert id (invoiceOf x now)).find _).head? = _
      rw [Collection.find_insert (notMem_identifiers.1 hfresh).2.2.2]
      have hnil : s.invoicesOf x.1 = [] := List.head?_eq_none_iff.1 hnone
      unfold Database.invoicesOf at hnil
      rw [hnil]
      simp [invoiceOf]
    have hlink₂ : (linkInvoice x ((storage.after s
        [.insertInvoice id (invoiceOf x now)]).invoicesOf x.1).head?).Writes storage _ ws₂ := h₂
    rw [hfound] at hlink₂
    rcases linkInvoice_writes.1 hlink₂ with ⟨invoice, heq, rfl⟩ | ⟨heq, -⟩
    · cases heq
      have hboth : (linkInvoice x (s.invoicesOf x.1).head?).Writes storage s
          [.insertInvoice id (invoiceOf x now), .setInvoice x.1 id] :=
        linkInvoice_writes.2 (Or.inr ⟨hnone, id, now, hfresh, hadmits, rfl⟩)
      exact ⟨_, hboth, rfl⟩
    · cases heq

end again

/-! ### The whole script -/

section run
variable {db : Database} {ws ws₂ : List Write} {x : Id × CompanyRecord} {c t : Id}

/-- The parts of a run that ends. -/
theorem migrateMultiTier_writes : migrateMultiTier.Writes storage db ws ↔ ∃ ws₂ ws₃ ws₄,
    ws = [Write.tagFuel] ++ (ws₂ ++ (ws₃ ++ ws₄)) ∧
      migrateCompanies.Writes storage (storage.apply .tagFuel db) ws₂ ∧
      migrateClients.Writes storage (storage.after (storage.apply .tagFuel db) ws₂) ws₃ ∧
      issueInvoices.Writes storage
        (storage.after (storage.after (storage.apply .tagFuel db) ws₂) ws₃) ws₄ := by
  rw [migrateMultiTier_eq, Script.writes_both]
  simp only [tagCompanies_writes, Script.writes_both]
  constructor
  · rintro ⟨_, _, rfl, rfl, ws₂, _, rfl, h₂, ws₃, ws₄, rfl, h₃, h₄⟩
    exact ⟨ws₂, ws₃, ws₄, rfl, h₂, h₃, h₄⟩
  · rintro ⟨ws₂, ws₃, ws₄, rfl, h₂, h₃, h₄⟩
    exact ⟨_, _, rfl, rfl, ws₂, _, rfl, h₂, ws₃, ws₄, rfl, h₃, h₄⟩

/-- The part in which a run is stopped. -/
inductive StopsIn (db : Database) : List Write → Prop where
  | tag {ws : List Write} (h : ws = [] ∨ ws = [.tagFuel]) : StopsIn db ws
  | companies {ws : List Write}
      (h : migrateCompanies.Stops storage (storage.apply .tagFuel db) ws) :
      StopsIn db ([Write.tagFuel] ++ ws)
  | clients {ws₂ ws : List Write}
      (h₂ : migrateCompanies.Writes storage (storage.apply .tagFuel db) ws₂)
      (h : migrateClients.Stops storage (storage.after (storage.apply .tagFuel db) ws₂) ws) :
      StopsIn db ([Write.tagFuel] ++ (ws₂ ++ ws))
  | invoices {ws₂ ws₃ ws : List Write}
      (h₂ : migrateCompanies.Writes storage (storage.apply .tagFuel db) ws₂)
      (h₃ : migrateClients.Writes storage (storage.after (storage.apply .tagFuel db) ws₂) ws₃)
      (h : issueInvoices.Stops storage
        (storage.after (storage.after (storage.apply .tagFuel db) ws₂) ws₃) ws) :
      StopsIn db ([Write.tagFuel] ++ (ws₂ ++ (ws₃ ++ ws)))

theorem stopsIn_of_stops (h : migrateMultiTier.Stops storage db ws) : StopsIn db ws := by
  rw [migrateMultiTier_eq] at h
  rcases Script.stops_both.1 h with h | ⟨ws₁, _, rfl, h₁, h⟩
  · exact .tag (tagCompanies_stops h)
  obtain rfl := tagCompanies_writes.1 h₁
  rcases Script.stops_both.1 h with h | ⟨ws₂, _, rfl, h₂, h⟩
  · exact .companies h
  rcases Script.stops_both.1 h with h | ⟨ws₃, ws₄, rfl, h₃, h₄⟩
  · exact .clients h₂ h
  · exact .invoices h₂ h₃ h₄

theorem of_clients (h : migrateClients.Stops storage db ws) :
    ∀ w ∈ ws, w.ofClients ∨ w.ofInvoices :=
  fun w hw => Or.inl (migrateClients_only.stops h w hw)

theorem of_invoices (h : issueInvoices.Stops storage db ws) :
    ∀ w ∈ ws, w.ofClients ∨ w.ofInvoices :=
  fun w hw => Or.inr (issueInvoices_only.stops h w hw)

/-- The companies have been seen to when their part is over. -/
theorem settled_later {ws₃ : List Write}
    (h₂ : migrateCompanies.Writes storage db ws₂) (h₃ : ∀ w ∈ ws₃, w.ofClients ∨ w.ofInvoices) :
    ∀ x ∈ (storage.after (storage.after db ws₂) ws₃).fuelCompanies,
      Settled x (storage.after (storage.after db ws₂) ws₃) := by
  intro x hx
  rw [fuelCompanies_after fun w hw => Or.inr (h₃ w hw),
    fuelCompanies_after fun w hw => Or.inl (migrateCompanies_only.stops h₂.stops w hw)] at hx
  exact (migrateCompanies_settled h₂ x hx).after

theorem clients_after (hws : ∀ w ∈ ws, w.ofInvoices) :
    (storage.after db ws).clients = db.clients :=
  Storage.after_induction (P := fun s : Database => s.clients = db.clients)
    (fun w hw _ hs => (congrArg (fun us : Collection Id UserRecord => us.find _)
      (users_apply (hws w hw))).trans hs) rfl

/-- The next run completes a run that was not stopped before all of a company was moved. -/
theorem migrateMultiTier_resumes (hstop : migrateMultiTier.Stops storage db ws)
    (hcut : ¬ Cut (storage.after db ws) ws) : migrateMultiTier.Resumes storage db ws := by
  rw [migrateMultiTier_eq]
  have htag : tagCompanies.Writes storage db [.tagFuel] := tagCompanies_writes.2 rfl
  have htyped := typed_tag db
  cases stopsIn_of_stops hstop with
  | tag h =>
      refine Script.Resumes.left (tagCompanies_resumes ?_)
      rcases h with rfl | rfl
      · exact Script.stops_nil
      · exact htag.stops
  | @companies ws h =>
      have hidle : tagCompanies.Idle storage (storage.after db ([Write.tagFuel] ++ ws)) :=
        tagCompanies_idle (htyped.after fun w hw => Or.inl (migrateCompanies_only.stops h w hw))
      refine Script.Resumes.right htag hidle (Script.Resumes.left ?_)
      by_cases hnil : ws = []
      · rw [hnil]
        exact Script.resumes_nil
      · rw [cut_append hnil] at hcut
        exact migrateCompanies_resumes h hcut
  | @clients ws₂ ws h₂ h =>
      have hkinds : ∀ w ∈ ws₂ ++ ws, w.ofCompanies ∨ w.ofClients ∨ w.ofInvoices := by
        intro w hw
        rcases List.mem_append.1 hw with hw | hw
        · exact Or.inl (migrateCompanies_only.stops h₂.stops w hw)
        · exact Or.inr (of_clients h w hw)
      refine Script.Resumes.right htag (tagCompanies_idle (htyped.after hkinds)) ?_
      refine Script.Resumes.right h₂ ?_ (Script.Resumes.left (migrateClients_resumes h))
      rw [Storage.after_append]
      exact migrateCompanies_idle (settled_later h₂ (of_clients h))
  | @invoices ws₂ ws₃ ws h₂ h₃ h =>
      have hlater : ∀ w ∈ ws₃ ++ ws, w.ofClients ∨ w.ofInvoices := by
        intro w hw
        rcases List.mem_append.1 hw with hw | hw
        · exact of_clients h₃.stops w hw
        · exact of_invoices h w hw
      have hkinds : ∀ w ∈ ws₂ ++ (ws₃ ++ ws), w.ofCompanies ∨ w.ofClients ∨ w.ofInvoices := by
        intro w hw
        rcases List.mem_append.1 hw with hw | hw
        · exact Or.inl (migrateCompanies_only.stops h₂.stops w hw)
        · exact Or.inr (hlater w hw)
      refine Script.Resumes.right htag (tagCompanies_idle (htyped.after hkinds)) ?_
      refine Script.Resumes.right h₂ ?_ (Script.Resumes.right h₃ ?_ (issueInvoices_resumes h))
      · rw [Storage.after_append]
        exact migrateCompanies_idle (settled_later h₂ hlater)
      · rw [Storage.after_append]
        refine migrateClients_idle ?_
        rw [clients_after fun w hw => issueInvoices_only.stops h w hw]
        exact Script.pending_nil clients_body h₃

theorem transporter_later {w : Write} (hw : w.ofClients ∨ w.ofInvoices) : w.transporter = none := by
  cases w with
  | insertTransporter _ _ => exact (hw.elim id id).elim
  | moveDrivers _ _ => exact (hw.elim id id).elim
  | _ => rfl

/-- A run that is cut is stopped in the part about companies. -/
theorem companies_of_cut (hstop : migrateMultiTier.Stops storage db ws)
    (hcut : Cut (storage.after db ws) ws) : ∃ ws',
    migrateCompanies.Stops storage (storage.apply .tagFuel db) ws' ∧ ws = .tagFuel :: ws' ∧
      Cut (storage.after (storage.apply .tagFuel db) ws') ws' := by
  have hpart : ∀ ws₂ (later : List Write), migrateCompanies.Stops storage (storage.apply .tagFuel db) ws₂ →
      (∀ w ∈ later, w.ofClients ∨ w.ofInvoices) → ws = [Write.tagFuel] ++ (ws₂ ++ later) →
      ∃ ws', migrateCompanies.Stops storage (storage.apply .tagFuel db) ws' ∧
        ws = .tagFuel :: ws' ∧ Cut (storage.after (storage.apply .tagFuel db) ws') ws' := by
    rintro ws₂ later h hlater rfl
    obtain ⟨w, t, company, c, hlast, htransporter, hrest⟩ := id hcut
    by_cases hnil : later = []
    · rw [hnil, List.append_nil] at hcut ⊢
      refine ⟨ws₂, h, rfl, ?_⟩
      by_cases hnil₂ : ws₂ = []
      · rw [hnil₂] at hcut
        exact absurd hcut (not_cut_of_last rfl rfl)
      · exact (cut_append hnil₂).1 hcut
    · rw [← List.append_assoc, List.getLast?_append_of_ne_nil _ hnil] at hlast
      have hnone := transporter_later (hlater w (List.mem_of_getLast? hlast))
      rw [hnone] at htransporter
      cases htransporter
  cases stopsIn_of_stops hstop with
  | tag h =>
      rcases h with rfl | rfl
      · exact absurd hcut not_cut_nil
      · exact absurd hcut (not_cut_of_last rfl rfl)
  | @companies ws h => exact hpart ws [] h (by simp) (by rw [List.append_nil])
  | @clients ws₂ ws h₂ h => exact hpart ws₂ ws h₂.stops (of_clients h) rfl
  | @invoices ws₂ ws₃ ws h₂ h₃ h =>
      refine hpart ws₂ (ws₃ ++ ws) h₂.stops (fun w hw => ?_) rfl
      rcases List.mem_append.1 hw with hw | hw
      · exact of_clients h₃.stops w hw
      · exact of_invoices h w hw

/-- What is left of a settled company stays, whatever is run. -/
theorem left_rerun (h : migrateMultiTier.Writes storage db ws) (hc : c ∈ db.companies.keys)
    (hsettled : db.transporters c ≠ []) (hleft : Left c db) : Left c (storage.after db ws) := by
  obtain ⟨ws₂, ws₃, ws₄, rfl, h₂, h₃, h₄⟩ := migrateMultiTier_writes.1 h
  rw [Storage.after_append, Storage.after_append, Storage.after_append,
    left_after fun w hw => Or.inr (of_invoices h₄.stops w hw),
    left_after fun w hw => Or.inr (of_clients h₃.stops w hw)]
  refine left_kept (Script.writes_query.1 h₂) ?_ (fun hnil => hsettled (transporters_tag.1 hnil))
    ((left_apply (Or.inl rfl)).2 hleft)
  exact (Collection.keys_update (c := db.companies) fun _ c => c.tag).symm ▸ hc

/-- What is moved stays moved in the parts about clients and invoices. -/
theorem Moved.later {db₁ : Database} (h : Moved db db₁ c t)
    (hws : ∀ w ∈ ws, w.ofClients ∨ w.ofInvoices) : Moved db (storage.after db₁ ws) c t := by
  refine Storage.after_induction (P := fun s => Moved db s c t) (fun w hw s hs => ?_) h
  obtain ⟨htransporter, hdrivers, horders⟩ := hs
  have hkind := hws w hw
  cases w with
  | placeClient clientId station =>
      refine ⟨htransporter, fun id u hu hdrives => ?_, horders⟩
      obtain ⟨u', hu', ht⟩ := hdrivers id u hu hdrives
      refine ⟨_, Collection.mem_update.2 ⟨u', hu', rfl⟩, ?_⟩
      split <;> exact ht
  | insertInvoice _ _ => exact ⟨htransporter, hdrivers, horders⟩
  | setInvoice orderId invoiceId =>
      refine ⟨htransporter, hdrivers, fun id o ho hlegacy => ?_⟩
      obtain ⟨o', ho', hmoved⟩ := horders id o ho hlegacy
      refine ⟨_, Collection.mem_update.2 ⟨o', ho', rfl⟩, ?_⟩
      split <;> exact hmoved
  | tagFuel => exact (hkind.elim id id).elim
  | insertTransporter _ _ => exact (hkind.elim id id).elim
  | moveDrivers _ _ => exact (hkind.elim id id).elim
  | moveOrders _ _ => exact (hkind.elim id id).elim

/-- A run that ends moves everything of the companies that had no transport company. -/
theorem moved_of_writes (h : migrateMultiTier.Writes storage db ws)
    (hx : x ∈ (storage.apply .tagFuel db).fuelCompanies) (hpending : db.transporters x.1 = []) :
    ¬ Left x.1 (storage.after db ws) ∧ ∃ t, Moved db (storage.after db ws) x.1 t := by
  obtain ⟨ws₂, ws₃, ws₄, rfl, h₂, h₃, h₄⟩ := migrateMultiTier_writes.1 h
  have hclients := of_clients h₃.stops
  have hinvoices := of_invoices h₄.stops
  have hnodup : ((storage.apply .tagFuel db).fuelCompanies.map Prod.fst).Nodup :=
    (storage.apply .tagFuel db).companies.nodup.sublist (List.filter_sublist.map _)
  obtain ⟨hleft, t, hmoved⟩ := moved_run hnodup
    (fun y hy => Collection.mem_keys (List.mem_of_mem_filter hy)) (Script.writes_query.1 h₂) hx
    (transporters_tag.2 hpending)
  rw [Storage.after_append, Storage.after_append, Storage.after_append]
  refine ⟨?_, t, ?_⟩
  · rw [left_after fun w hw => Or.inr (hinvoices w hw),
      left_after fun w hw => Or.inr (hclients w hw)]
    exact hleft
  · have hdb : Moved db (storage.after (storage.apply .tagFuel db) ws₂) x.1 t :=
      ⟨hmoved.transporter, hmoved.drivers, hmoved.orders⟩
    exact (hdb.later hclients).later hinvoices

/-- No run that is not stopped leaves what a run that was cut and the next one leave. -/
theorem not_reached_of_cut (hstop : migrateMultiTier.Stops storage db ws)
    (hcut : Cut (storage.after db ws) ws)
    (h₂ : migrateMultiTier.Writes storage (storage.after db ws) ws₂) :
    ¬ ∃ ws', migrateMultiTier.Writes storage db ws' ∧
      storage.after db ws' = storage.after (storage.after db ws) ws₂ := by
  rintro ⟨ws', h', hafter⟩
  obtain ⟨ws, h, rfl, hpart⟩ := companies_of_cut hstop hcut
  obtain ⟨x, hx, hpending, hsettled, hleft⟩ := left_of_cut (Script.stops_query.1 h) hpart
  have hkey : x.1 ∈ (storage.after (storage.apply .tagFuel db) ws).companies.keys := by
    have hx' := hx
    rw [← fuelCompanies_after fun w hw => Or.inl (migrateCompanies_only.stops h w hw)] at hx'
    exact Collection.mem_keys (List.mem_of_mem_filter hx')
  have hrerun := left_rerun h₂ hkey hsettled hleft
  rw [← hafter] at hrerun
  exact (moved_of_writes h' hx (transporters_tag.1 hpending)).1 hrerun

end run

/-- A run that is not stopped may leave the database, and all that the fuel companies without a
transport company had is moved. -/
structure Converged (db db' : Database) : Prop where
  reached : ∃ ws, migrateMultiTier.Writes storage db ws ∧ storage.after db ws = db'
  moved : ∀ x ∈ (storage.apply .tagFuel db).fuelCompanies, db.transporters x.1 = [] →
    ∃ t, Moved db db' x.1 t

theorem converged_iff {db : Database} {ws ws₂ : List Write}
    (hstop : migrateMultiTier.Stops storage db ws)
    (h₂ : migrateMultiTier.Writes storage (storage.after db ws) ws₂) :
    Converged db (storage.after (storage.after db ws) ws₂) ↔ ¬ Cut (storage.after db ws) ws := by
  constructor
  · exact fun h hcut => not_reached_of_cut hstop hcut h₂ h.reached
  · intro hcut
    obtain ⟨ws', h', hafter⟩ := migrateMultiTier_resumes hstop hcut ws₂ h₂
    refine ⟨⟨ws', h', hafter⟩, fun x hx hpending => ?_⟩
    rw [← hafter]
    exact (moved_of_writes h' hx hpending).2

end CiroFuel.TierMigration

namespace CiroFuel.OfferMigration
open Exchange

/-- A run that ends with its summary may leave the database, and every offer in it that was
migrated and awarded has its awarded proposal. -/
structure Converged (db db' : Database) : Prop where
  reached : ∃ ws summary, (migrateExchangeRequestsToOffers false).run.Ends storage db ws
    (.ok summary) ∧ storage.after db ws = db'
  awarded : ∀ d ∈ db'.exchangeoffers.docs, d ∉ db.exchangeoffers.docs → d.2.state = .awarded →
    ∃ p ∈ db'.answers d.1, p.2.outcome = .awarded ∧
      d.2.awardedCompanyId = some p.2.proposingCompanyId

/-- After a stop of the first run, the script can be run again to its end, and this run reaches
what one run leaves. -/
def Completes (db : Database) (ws : List Write) : Prop :=
  ∃ ws₂ summary, (migrateExchangeRequestsToOffers false).run.Ends storage (storage.after db ws) ws₂
      (.ok summary) ∧
    Converged db (storage.after (storage.after db ws) ws₂)

theorem not_ends_ok {db : Database} {ws : List Write} {summary : MigrateExchangeRequestsSummary} :
    ¬ (migrateExchangeRequestsToOffers false).run.Ends storage db ws (.ok summary) := by
  intro h
  obtain ⟨-, hthrown⟩ := migrate_ends.1 h
  cases hthrown

theorem not_completes (db : Database) (ws : List Write) : ¬ Completes db ws := by
  rintro ⟨ws₂, summary, hends, -⟩
  exact not_ends_ok hends

end CiroFuel.OfferMigration

namespace CiroFuel

/-- The multi-tier migration, stopped anywhere and then run again to its end, leaves what one run
leaves, exactly if it was not stopped between a transport company and the last of what is moved
to it. The migration of requests stops before its first write and is never completed. -/
theorem rerun_converges_iff (tiers : TierMigration.Database)
    (exchange : OfferMigration.Database) :
    (∀ ws ws₂, TierMigration.migrateMultiTier.Stops TierMigration.storage tiers ws →
      TierMigration.migrateMultiTier.Writes TierMigration.storage
        (TierMigration.storage.after tiers ws) ws₂ →
      (TierMigration.Converged tiers
          (TierMigration.storage.after (TierMigration.storage.after tiers ws) ws₂) ↔
        ¬ TierMigration.Cut (TierMigration.storage.after tiers ws) ws)) ∧
    ∀ ws, (OfferMigration.migrateExchangeRequestsToOffers false).run.Stops OfferMigration.storage
        exchange ws →
      ws = [] ∧ ¬ OfferMigration.Completes exchange ws :=
  ⟨fun _ _ => TierMigration.converged_iff,
    fun ws hstop => ⟨OfferMigration.migrate_stops.1 hstop, OfferMigration.not_completes exchange ws⟩⟩

/-! ### A company with a driver, an order and a client, and a request that was accepted -/

def legacyTiers : TierMigration.Database where
  companies := { docs := [(1, { name := "Legacy Fuel Co" })] }
  users := { docs := [(5, { companyId := some 1, role := .driver }),
    (6, { companyId := some 1, role := .client })] }
  orders := { docs := [(7, {
    companyId := some 1
    assignedDriverId := some 5
    clientId := some 6
    status := .delivered
    finalPrice := some 250 })] }

def acceptedRequests : OfferMigration.Database :=
  .ofRequest 2 (OfferMigration.legacyRequest .accepted (some 22))

/-- The transport company is there, and the driver and the order are not its. -/
def begunTiers : List TierMigration.Write :=
  [.tagFuel, .insertTransporter 100 (TierMigration.transporterOf (1, {
    name := "Legacy Fuel Co"
    type := some (some .fuel)
    servedRegions := some [] }) 50)]

/-- Stopped after the insert of a transport company, and before the first write. -/
theorem rerun_diverges :
    (∃ ws₂, TierMigration.migrateMultiTier.Stops TierMigration.storage legacyTiers begunTiers ∧
      TierMigration.migrateMultiTier.Writes TierMigration.storage
        (TierMigration.storage.after legacyTiers begunTiers) ws₂ ∧
      (¬ ∃ ws', TierMigration.migrateMultiTier.Writes TierMigration.storage legacyTiers ws' ∧
        TierMigration.storage.after legacyTiers ws' = TierMigration.storage.after
          (TierMigration.storage.after legacyTiers begunTiers) ws₂) ∧
      TierMigration.Left 1 (TierMigration.storage.after
        (TierMigration.storage.after legacyTiers begunTiers) ws₂)) ∧
    (OfferMigration.migrateExchangeRequestsToOffers false).run.Stops OfferMigration.storage
        acceptedRequests [] ∧
      ¬ OfferMigration.Completes acceptedRequests [] := by
  constructor
  · have hstop : TierMigration.migrateMultiTier.Stops TierMigration.storage legacyTiers
        begunTiers := by
      have hplay : ∃ r, TierMigration.migrateMultiTier.play TierMigration.storage
          [(100, 50), (101, 51)] legacyTiers = some r ∧ r.1 = begunTiers ++ r.1.drop 2 :=
        ⟨_, rfl, by decide +kernel⟩
      obtain ⟨⟨full, summary⟩, hplay, hfull⟩ := hplay
      have hends := (Script.play_ends hplay).stops
      have hsplit : full = begunTiers ++ full.drop 2 := hfull
      rw [hsplit] at hends
      exact hends.of_append
    have hcut : TierMigration.Cut (TierMigration.storage.after legacyTiers begunTiers)
        begunTiers :=
      ⟨_, 100, _, 1, rfl, rfl, List.mem_cons_of_mem _ (List.mem_singleton_self _), rfl,
        Or.inl (by decide +kernel)⟩
    have hplay : ∃ r, TierMigration.migrateMultiTier.play TierMigration.storage [(101, 60)]
        (TierMigration.storage.after legacyTiers begunTiers) = some r ∧
        (TierMigration.storage.after (TierMigration.storage.after legacyTiers begunTiers)
          r.1).drivers 1 ≠ [] := ⟨_, rfl, by decide +kernel⟩
    obtain ⟨⟨ws₂, summary⟩, hplay, hleft⟩ := hplay
    have hwrites : TierMigration.migrateMultiTier.Writes TierMigration.storage
        (TierMigration.storage.after legacyTiers begunTiers) ws₂ :=
      ⟨summary, Script.play_ends hplay⟩
    exact ⟨ws₂, hstop, hwrites, TierMigration.not_reached_of_cut hstop hcut hwrites, Or.inl hleft⟩
  · exact ⟨OfferMigration.migrate_stops.2 rfl, OfferMigration.not_completes acceptedRequests []⟩

/-- Stopped after an invoice, before its order; and the other script before its first write. -/
theorem rerun_converges_invoice : (∃ ws ws₂,
    TierMigration.migrateMultiTier.Stops TierMigration.storage legacyTiers ws ∧ ws.length = 6 ∧
      TierMigration.migrateMultiTier.Writes TierMigration.storage
        (TierMigration.storage.after legacyTiers ws) ws₂ ∧
      TierMigration.Converged legacyTiers
        (TierMigration.storage.after (TierMigration.storage.after legacyTiers ws) ws₂)) ∧
    ¬ OfferMigration.Completes acceptedRequests [] := by
  have hplay : ∃ r, TierMigration.migrateMultiTier.play TierMigration.storage
      [(100, 50), (101, 51)] legacyTiers = some r ∧ (r.1.take 6).length = 6 ∧
      ((r.1.take 6).getLast?.bind TierMigration.Write.transporter) = none ∧
      (TierMigration.migrateMultiTier.play TierMigration.storage []
        (TierMigration.storage.after legacyTiers (r.1.take 6))).isSome = true :=
    ⟨_, rfl, by decide +kernel⟩
  obtain ⟨⟨full, summary⟩, hplay, hlength, hlast, hagain⟩ := hplay
  have hends := (Script.play_ends hplay).stops
  rw [← List.take_append_drop 6 full] at hends
  have hstop := hends.of_append
  obtain ⟨⟨ws₂, summary₂⟩, hplay₂⟩ := Option.isSome_iff_exists.1 hagain
  have hwrites : TierMigration.migrateMultiTier.Writes TierMigration.storage
      (TierMigration.storage.after legacyTiers (full.take 6)) ws₂ :=
    ⟨summary₂, Script.play_ends hplay₂⟩
  refine ⟨⟨full.take 6, ws₂, hstop, hlength, hwrites,
    ((rerun_converges_iff legacyTiers acceptedRequests).1 _ _ hstop hwrites).2 ?_⟩,
    ((rerun_converges_iff legacyTiers acceptedRequests).2 [] (OfferMigration.migrate_stops.2 rfl)).2⟩
  rintro ⟨w, t, company, c, hw, htransporter, -⟩
  rw [hw] at hlast
  exact absurd (hlast.symm.trans htransporter) (by simp)

end CiroFuel
