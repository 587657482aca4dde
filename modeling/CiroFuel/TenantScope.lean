import CiroFuel.Query.Conditions
import CiroFuel.Schemas
import Mathlib.Algebra.Order.Ring.Rat

/-!
# Tenant isolation

Two plugins scope every hooked operation to the acting user: on a collection
with several parties by the fuel company and the role's own id, on a collection
of one tenant by `companyId`. A query gets the scope merged into its filter and
an aggregation gets it as its first `$match`, right after a `$geoNear`.
-/
namespace CiroFuel
open Query

theorem except_bind_ok {ε α β : Type} {x : Except ε α} {f : α → Except ε β} {b : β}
    (h : x >>= f = .ok b) : ∃ a, x = .ok a ∧ f a = .ok b := by
  cases x with
  | error e => cases h
  | ok a => exact ⟨a, rfl, h⟩

/-- A string where an id is expected: it may be empty, or no id. -/
inductive IdString where
  | empty
  | id (id : Id)
  | other (s : String)
deriving DecidableEq

namespace IdString

def truthy (s : IdString) : Bool := decide (s ≠ .empty)

/-- `new Types.ObjectId(s)` -/
def objectId : IdString → Except String Id
  | .id i => .ok i
  | _ => .error "BSONError"

end IdString

/-- The store of the current request. -/
structure RequestScope where
  userId : Option IdString := none
  role : Option UserRole := none
  companyId : Option IdString := none
  parentFuelCompanyId : Option IdString := none

/-! ### Scopes -/

/-- The fuel company of whatever the acting user belongs to; none bypasses the scope. -/
def resolveFuelCompanyId (ctx : RequestScope) : Except String (Option IdString) :=
  match ctx.role with
  | none => .ok none
  | some .superAdmin => .ok none
  | some .transportCompanyAdmin =>
      match ctx.parentFuelCompanyId.filter IdString.truthy with
      | none => .error "Multi-party isolation violation: TRANSPORT_COMPANY_ADMIN context is missing parentFuelCompanyId"
      | some id => .ok (some id)
  | some _ =>
      -- An empty parent is no missing parent: it hides the company and then throws.
      match (ctx.parentFuelCompanyId.or ctx.companyId).filter IdString.truthy with
      | none => .error "Multi-party isolation violation: authenticated non-SUPER_ADMIN context is missing a resolvable fuelCompanyId"
      | some id => .ok (some id)

/-- The role's filter on a collection with several parties. -/
def resolveFilter (ctx : RequestScope) : Except String (Option (List (String × IdString))) := do
  let some fuelCompanyId ← resolveFuelCompanyId ctx | return none
  let some userId := ctx.userId.filter IdString.truthy
    | throw "Multi-party isolation violation: context has a role but no userId"
  match ctx.role with
  | some .fuelCompanyAdmin => return some [("fuelCompanyId", fuelCompanyId)]
  | some .transportCompanyAdmin =>
      let some companyId := ctx.companyId.filter IdString.truthy
        | throw "Multi-party isolation violation: TRANSPORT_COMPANY_ADMIN context is missing companyId"
      return some [("fuelCompanyId", fuelCompanyId), ("transportCompanyId", companyId)]
  | some .client => return some [("fuelCompanyId", fuelCompanyId), ("clientId", userId)]
  | some .driver => return some [("fuelCompanyId", fuelCompanyId), ("driverId", userId)]
  | _ => throw "Multi-party isolation violation: no scoping rule defined for role"

def resolveCompanyId (ctx : RequestScope) : Except String (Option IdString) :=
  match ctx.role with
  | none => .ok none
  | some .superAdmin => .ok none
  | some _ =>
      match ctx.companyId.filter IdString.truthy with
      | none => .error "Tenant isolation violation: authenticated non-SUPER_ADMIN context is missing companyId"
      | some id => .ok (some id)

/-- How a schema is marked. -/
inductive Marking where
  | multiParty
  | tenantScoped
deriving DecidableEq

def scopeOf (ctx : RequestScope) : Marking → Except String (Option (List (String × IdString)))
  | .multiParty => resolveFilter ctx
  | .tenantScoped => do
      let some companyId ← resolveCompanyId ctx | return none
      return some [("companyId", companyId)]

def castFilter (filter : List (String × IdString)) : Except String (List (String × Id)) :=
  filter.mapM fun e => do
    let id ← e.2.objectId
    return (e.1, id)

/-! ### Documents -/

inductive BsonValue where
  | objectId (id : Id)
  | number (x : ℚ)
  | text (s : String)
  | flag (b : Bool)
  | date (t : Instant)
  | point (p : GeoPoint)
deriving DecidableEq

/-- The fields of a document by path. -/
abbrev Document := List (String × BsonValue)

def Document.get (d : Document) (f : String) : Option BsonValue := d.lookup f

def Document.set (d : Document) (f : String) (v : BsonValue) : Document :=
  (f, v) :: d.filter fun e => e.1 ≠ f

def scopeConditions (filter : List (String × Id)) : Conditions String Document :=
  .object (filter.map fun e =>
    (.field e.1, fun d => decide (Document.get d e.1 = some (.objectId e.2))))

/-- The conditions a plugin adds; none bypasses it. -/
def pluginScope (ctx : RequestScope) (m : Marking) :
    Except String (Option (Conditions String Document)) := do
  let some filter ← scopeOf ctx m | return none
  let cast ← castFilter filter
  return some (scopeConditions cast)

/-- `this.where(scope)` -/
def scopedFilter (scope : Option (Conditions String Document)) (p : Conditions String Document) :
    Conditions String Document :=
  match scope with
  | none => p
  | some s => p.merge s

/-! ### Queries -/

inductive Reply where
  | documents (docs : List Document)
  | document (doc : Option Document)
  | count (n : ℕ)
  | updated (matched modified : ℕ)
  | deleted (n : ℕ)
  | duplicateKey
deriving DecidableEq

/-- The answer, the documents read, counted or written, and the collection afterwards. -/
structure Outcome where
  reply : Reply
  touched : List Document
  after : List Document
deriving DecidableEq

/-- Another document has the same values in every field of a unique index. -/
def clashes (unique : List (List String)) (d : Document) (others : List Document) : Bool :=
  unique.any fun fields => others.any fun o => fields.all fun f => decide (d.get f = Document.get o f)

structure Written where
  after : List Document
  touched : List Document
  refused : Bool

/-- Updates the targets one after another, up to the first that a unique index refuses. -/
def writeEach (unique : List (List String)) (update : Document → Document) :
    List Document → List Document → Written
  | [], docs => { after := docs, touched := [], refused := false }
  | t :: ts, docs =>
      if clashes unique (update t) (docs.erase t) then
        { after := docs, touched := [t], refused := true }
      else
        let rest := writeEach unique update ts (docs.replace t (update t))
        { rest with touched := t :: rest.touched }

structure QueryOptions where
  sort : Document → Document → Bool := fun _ _ => true
  skip : ℕ := 0
  limit : Option ℕ := none

def QueryOptions.select (o : QueryOptions) (docs : List Document) : List Document :=
  let rest := (docs.insertionSort fun x y => o.sort x y).drop o.skip
  match o.limit with
  | none => rest
  | some n => rest.take n

/-- The hooked operations with what each is given besides the filter. -/
inductive QueryOp where
  | find (o : QueryOptions) (projection : Document → Document)
  | findOne (o : QueryOptions) (projection : Document → Document)
  | findOneAndUpdate (o : QueryOptions) (update : Document → Document) (returnNew : Bool)
      (projection : Document → Document)
  | findOneAndDelete (o : QueryOptions) (projection : Document → Document)
  | findOneAndRemove (o : QueryOptions) (projection : Document → Document)
  | count (o : QueryOptions)
  | countDocuments (o : QueryOptions)
  | updateMany (update : Document → Document)
  | updateOne (update : Document → Document)
  | deleteMany
  | deleteOne

/-- Updates the targets and answers `reply`, unless a unique index refuses. -/
def updateTargets (unique : List (List String)) (update : Document → Document)
    (docs targets : List Document) (reply : Reply) : Outcome :=
  let w := writeEach unique update targets docs
  { reply := if w.refused then .duplicateKey else reply
    touched := w.touched
    after := w.after }

def deleteTargets (docs targets : List Document) (reply : Reply) : Outcome :=
  { reply := reply, touched := targets, after := docs.diff targets }

def modified (update : Document → Document) (targets : List Document) : ℕ :=
  targets.countP fun t => decide (update t ≠ t)

/-- Runs an operation on the documents that meet the condition. -/
def exec (unique : List (List String)) (docs : List Document) (p : Document → Bool) :
    QueryOp → Outcome
  | .find o projection =>
      let found := o.select (docs.filter p)
      { reply := .documents (found.map projection), touched := found, after := docs }
  | .findOne o projection =>
      let found := (o.select (docs.filter p)).take 1
      { reply := .document (found.head?.map projection), touched := found, after := docs }
  | .findOneAndUpdate o update returnNew projection =>
      let targets := (o.select (docs.filter p)).take 1
      let shown := if returnNew then targets.map update else targets
      updateTargets unique update docs targets (.document (shown.head?.map projection))
  | .findOneAndDelete o projection =>
      let targets := (o.select (docs.filter p)).take 1
      deleteTargets docs targets (.document (targets.head?.map projection))
  | .findOneAndRemove o projection =>
      let targets := (o.select (docs.filter p)).take 1
      deleteTargets docs targets (.document (targets.head?.map projection))
  | .count o =>
      let found := o.select (docs.filter p)
      { reply := .count found.length, touched := found, after := docs }
  | .countDocuments o =>
      let found := o.select (docs.filter p)
      { reply := .count found.length, touched := found, after := docs }
  | .updateMany update =>
      let targets := docs.filter p
      updateTargets unique update docs targets (.updated targets.length (modified update targets))
  | .updateOne update =>
      let targets := (docs.filter p).take 1
      updateTargets unique update docs targets (.updated targets.length (modified update targets))
  | .deleteMany =>
      let targets := docs.filter p
      deleteTargets docs targets (.deleted targets.length)
  | .deleteOne =>
      let targets := (docs.filter p).take 1
      deleteTargets docs targets (.deleted targets.length)

/-! ### Aggregations -/

structure GeoNear where
  key : String
  distance : GeoPoint → ℚ
  /-- Between `minDistance` and `maxDistance`. -/
  within : ℚ → Bool
  query : Document → Bool
  distanceField : String
  includeLocs : Option String

/-- A document in the pipeline and the stored one it was read from. -/
structure Row where
  source : Document
  doc : Document

/-- The row of a document near enough, with its distance. -/
def GeoNear.row (g : GeoNear) (d : Document) : Option (ℚ × Row) :=
  match d.get g.key with
  | some (.point p) =>
      if g.query d && g.within (g.distance p) then
        let doc := d.set g.distanceField (.number (g.distance p))
        some (g.distance p, ⟨d, (g.includeLocs.map fun f => doc.set f (.point p)).getD doc⟩)
      else none
  | _ => none

/-- Nearest first. -/
def GeoNear.rows (g : GeoNear) (docs : List Document) : List Row :=
  ((docs.filterMap g.row).insertionSort fun x y => x.1 ≤ y.1).map (·.2)

/-- A stage that reads no other collection. -/
inductive Stage where
  | geoNear (g : GeoNear)
  | matching (p : Conditions String Document)
  /-- `$project`, `$sort`, `$group` and the like. -/
  | transform (f : List Document → List Document)
  /-- `$collStats` and the like, which read the collection as a whole. -/
  | stats (f : List Document → List Document)
  /-- `$out` into the collection itself. -/
  | out

def Stage.isGeoNear : Stage → Bool
  | .geoNear _ => true
  | _ => false

def Stage.isOut : Stage → Bool
  | .out => true
  | _ => false

/-- The hook on `aggregate`. -/
def scopePipeline (scope : Conditions String Document) (pipeline : List Stage) : List Stage :=
  match pipeline.findIdx? Stage.isGeoNear with
  | some i => pipeline.take (i + 1) ++ .matching scope :: pipeline.drop (i + 1)
  | none => .matching scope :: pipeline

/-- The rows the first `$match` stages let through, and the stages after them. -/
def admitted : List Stage → List Row → List Row × List Stage
  | .matching p :: rest, rows => admitted rest (rows.filter fun r => p.holds r.doc)
  | stages, rows => (rows, stages)

/-- The stages after the first, with whether the last one writes. -/
def runStages : List Stage → List Document → Except String (List Document × Bool)
  | [], docs => .ok (docs, false)
  | .matching p :: rest, docs => runStages rest (docs.filter p.holds)
  | .transform f :: rest, docs => runStages rest (f docs)
  | .geoNear _ :: _, _ => .error "$geoNear is only valid as the first stage in a pipeline."
  | .stats _ :: _, _ => .error "$collStats is only valid as the first stage in a pipeline."
  | [.out], docs => .ok (docs, true)
  | .out :: _ :: _, _ => .error "$out can only be the final stage in the pipeline"

/-- What a pipeline answers that read `sources` of the collection. -/
def answer (docs sources : List Document) : List Document × Bool → Outcome
  | (result, true) => { reply := .documents [], touched := sources ++ docs, after := result }
  | (result, false) => { reply := .documents result, touched := sources, after := docs }

def finish (docs : List Document) (rows : List Row) (stages : List Stage) :
    Except String Outcome :=
  let (found, rest) := admitted stages rows
  (runStages rest (found.map (·.doc))).map (answer docs (found.map (·.source)))

def aggregate (docs : List Document) : List Stage → Except String Outcome
  | .geoNear g :: rest => finish docs (g.rows docs) rest
  | .stats f :: rest => (runStages rest (f docs)).map (answer docs docs)
  | stages => finish docs (docs.map fun d => ⟨d, d⟩) stages

/-! ### Scoped calls -/

inductive ScopedCall where
  | query (filter : Conditions String Document) (op : QueryOp)
  | aggregate (pipeline : List Stage)

/-- A call on a marked collection with the given unique indexes. -/
def runScoped (m : Marking) (unique : List (List String)) (ctx : RequestScope)
    (docs : List Document) (call : ScopedCall) : Except String Outcome := do
  let scope ← pluginScope ctx m
  match call, scope with
  | .query p op, scope => return exec unique docs (scopedFilter scope p).holds op
  | .aggregate pipeline, none => aggregate docs pipeline
  | .aggregate pipeline, some s => aggregate docs (scopePipeline s pipeline)

/-! ### The role's own documents -/

/-- The fuel company a request acts for. -/
def fuelCompanyOf (ctx : RequestScope) : Option IdString :=
  if ctx.role = some .transportCompanyAdmin then ctx.parentFuelCompanyId
  else ctx.parentFuelCompanyId.or ctx.companyId

/-- The field holds the id that the string is. -/
def Document.names (d : Document) (f : String) : Option IdString → Bool
  | some (.id i) => decide (d.get f = some (.objectId i))
  | _ => false

/-- What a role's own documents name, field by field. -/
def ownFields (ctx : RequestScope) : Marking → List (String × Option IdString)
  | .tenantScoped => [("companyId", ctx.companyId)]
  | .multiParty =>
      ("fuelCompanyId", fuelCompanyOf ctx) ::
        match ctx.role with
        | some .transportCompanyAdmin => [("transportCompanyId", ctx.companyId)]
        | some .client => [("clientId", ctx.userId)]
        | some .driver => [("driverId", ctx.userId)]
        | _ => []

def ownRecord (m : Marking) (ctx : RequestScope) (d : Document) : Bool :=
  (ownFields ctx m).all fun e => d.names e.1 e.2

theorem ownFields_nodup (ctx : RequestScope) (m : Marking) :
    ((ownFields ctx m).map Prod.fst).Nodup := by
  cases m with
  | tenantScoped => exact List.nodup_singleton _
  | multiParty =>
      cases hrole : ctx.role with
      | none => simp [ownFields, hrole]
      | some role => cases role <;> simp [ownFields, hrole]

theorem resolveFuelCompanyId_none {ctx : RequestScope} (h : resolveFuelCompanyId ctx = .ok none) :
    ctx.role = none ∨ ctx.role = some .superAdmin := by
  unfold resolveFuelCompanyId at h
  split at h
  · exact Or.inl ‹_›
  · exact Or.inr ‹_›
  · split at h <;> cases h
  · split at h <;> cases h

theorem resolveFuelCompanyId_some {ctx : RequestScope} {id : IdString}
    (h : resolveFuelCompanyId ctx = .ok (some id)) : fuelCompanyOf ctx = some id := by
  unfold resolveFuelCompanyId at h
  split at h
  · cases h
  · cases h
  · rename_i hrole
    split at h
    · cases h
    · rename_i hid
      cases h
      rw [fuelCompanyOf, if_pos hrole]
      exact (Option.filter_eq_some_iff.mp hid).1
  · rename_i hrole _
    split at h
    · cases h
    · rename_i hid
      cases h
      rw [fuelCompanyOf, if_neg fun htransport => ?_]
      · exact (Option.filter_eq_some_iff.mp hid).1
      · simp_all

/-- A role's filter demands the fields of the role's own documents, and no others. -/
theorem resolveFilter_spec {ctx : RequestScope} {filter : Option (List (String × IdString))}
    (h : resolveFilter ctx = .ok filter) :
    (filter = none ∧ (ctx.role = none ∨ ctx.role = some .superAdmin)) ∨
      ∃ l, filter = some l ∧ ownFields ctx .multiParty = l.map fun e => (e.1, some e.2) := by
  unfold resolveFilter at h
  obtain ⟨fuel, hfuel, h⟩ := except_bind_ok h
  cases fuel with
  | none =>
      cases h
      exact Or.inl ⟨rfl, resolveFuelCompanyId_none hfuel⟩
  | some fuelCompanyId =>
      right
      have hown := resolveFuelCompanyId_some hfuel
      cases huser : ctx.userId.filter IdString.truthy with
      | none =>
          rw [huser] at h
          cases h
      | some userId =>
          rw [huser] at h
          have huserId := (Option.filter_eq_some_iff.mp huser).1
          cases hrole : ctx.role with
          | none =>
              rw [hrole] at h
              cases h
          | some role =>
              rw [hrole] at h
              cases role with
              | superAdmin => cases h
              | fuelCompanyAdmin =>
                  cases h
                  exact ⟨_, rfl, by simp [ownFields, hrole, hown]⟩
              | transportCompanyAdmin =>
                  cases hcompany : ctx.companyId.filter IdString.truthy with
                  | none =>
                      simp only [hcompany] at h
                      cases h
                  | some companyId =>
                      simp only [hcompany] at h
                      cases h
                      have hcompanyId := (Option.filter_eq_some_iff.mp hcompany).1
                      exact ⟨_, rfl, by simp [ownFields, hrole, hown, hcompanyId]⟩
              | client =>
                  cases h
                  exact ⟨_, rfl, by simp [ownFields, hrole, hown, huserId]⟩
              | driver =>
                  cases h
                  exact ⟨_, rfl, by simp [ownFields, hrole, hown, huserId]⟩

theorem scopeOf_spec {ctx : RequestScope} {m : Marking}
    {filter : Option (List (String × IdString))} (h : scopeOf ctx m = .ok filter) :
    (filter = none ∧ (ctx.role = none ∨ ctx.role = some .superAdmin)) ∨
      ∃ l, filter = some l ∧ ownFields ctx m = l.map fun e => (e.1, some e.2) := by
  cases m with
  | multiParty => exact resolveFilter_spec h
  | tenantScoped =>
      simp only [scopeOf, resolveCompanyId] at h
      cases hrole : ctx.role with
      | none =>
          rw [hrole] at h
          cases h
          exact Or.inl ⟨rfl, Or.inl rfl⟩
      | some role =>
          rw [hrole] at h
          by_cases hsuper : role = .superAdmin
          · subst hsuper
            cases h
            exact Or.inl ⟨rfl, Or.inr rfl⟩
          · right
            cases hcompany : ctx.companyId.filter IdString.truthy with
            | none =>
                rw [hcompany] at h
                cases role <;> first | exact absurd rfl hsuper | cases h
            | some companyId =>
                rw [hcompany] at h
                have hcompanyId := (Option.filter_eq_some_iff.mp hcompany).1
                refine ⟨[("companyId", companyId)], ?_, by simp [ownFields, hcompanyId]⟩
                cases role <;> first | exact absurd rfl hsuper | (cases h; rfl)

theorem castFilter_cons {f : String} {s : IdString} {filter : List (String × IdString)}
    {cast : List (String × Id)} (h : castFilter ((f, s) :: filter) = .ok cast) :
    ∃ i rest, s = .id i ∧ castFilter filter = .ok rest ∧ cast = (f, i) :: rest := by
  cases s with
  | id i =>
      rw [castFilter, List.mapM_cons] at h
      obtain ⟨e, he, h⟩ := except_bind_ok h
      cases he
      obtain ⟨rest, hrest, h⟩ := except_bind_ok h
      cases h
      exact ⟨i, rest, rfl, hrest, rfl⟩
  | empty => cases h
  | other s => cases h

theorem castFilter_spec {filter : List (String × IdString)} {cast : List (String × Id)}
    (h : castFilter filter = .ok cast) : filter = cast.map fun e => (e.1, .id e.2) := by
  induction filter generalizing cast with
  | nil =>
      cases h
      rfl
  | cons e filter ih =>
      obtain ⟨i, rest, hs, hrest, rfl⟩ := castFilter_cons h
      rw [List.map_cons, ← ih hrest, ← hs]

/-- The conditions the plugin adds are met by the role's own documents only. -/
theorem scopeConditions_holds {ctx : RequestScope} {m : Marking}
    {filter : List (String × IdString)} {cast : List (String × Id)}
    (hown : ownFields ctx m = filter.map fun e => (e.1, some e.2))
    (hcast : castFilter filter = .ok cast) (d : Document) :
    (scopeConditions cast).holds d = ownRecord m ctx d := by
  have hfields : ownFields ctx m = cast.map fun e => (e.1, some (.id e.2)) := by
    rw [hown, castFilter_spec hcast, List.map_map]
    rfl
  have hnodup : (cast.map Prod.fst).Nodup := by
    have h := ownFields_nodup ctx m
    rwa [hfields, List.map_map] at h
  have hnames : ((cast.map fun e => ((Name.field e.1 : Name String),
      fun d => decide (Document.get d e.1 = some (.objectId e.2)))).map Prod.fst).Nodup := by
    rw [List.map_map]
    have hfield : Function.Injective (Name.field : String → Name String) := by
      rintro f f' ⟨⟩
      rfl
    simpa [Function.comp_def] using hnodup.map hfield
  rw [scopeConditions, Conditions.holds_object hnames, ownRecord, hfields]
  simp [Document.names, Function.comp_def]

theorem scopeConditions_get {filter : List (String × Id)} {n : Name String}
    (h : ((scopeConditions filter).get n).isSome) : ∃ e ∈ filter, n = .field e.1 := by
  by_contra hnone
  have hget : (scopeConditions filter).get n = none := by
    refine Conditions.get_object fun hmem => hnone ?_
    rw [List.map_map] at hmem
    obtain ⟨e, he, rfl⟩ := List.mem_map.mp hmem
    exact ⟨e, he, rfl⟩
  rw [hget] at h
  cases h

/-- A plugin adds no scope for the platform operator; for anyone else it demands the
fields of the role's own documents and nothing more. -/
theorem pluginScope_spec {ctx : RequestScope} {m : Marking}
    {scope : Option (Conditions String Document)} (h : pluginScope ctx m = .ok scope) :
    (scope = none ∧ (ctx.role = none ∨ ctx.role = some .superAdmin)) ∨
      ∃ s, scope = some s ∧ (∀ d, s.holds d = ownRecord m ctx d) ∧
        ∀ n, (s.get n).isSome → ∃ e ∈ ownFields ctx m, n = .field e.1 := by
  unfold pluginScope at h
  obtain ⟨filter, hscope, h⟩ := except_bind_ok h
  rcases scopeOf_spec hscope with ⟨rfl, hrole⟩ | ⟨filter, rfl, hfields⟩
  · cases h
    exact Or.inl ⟨rfl, hrole⟩
  · obtain ⟨cast, hcast, h⟩ := except_bind_ok h
    cases h
    refine Or.inr ⟨_, rfl, scopeConditions_holds hfields hcast, ?_⟩
    intro n hn
    obtain ⟨e, he, rfl⟩ := scopeConditions_get hn
    refine ⟨(e.1, some (.id e.2)), ?_, rfl⟩
    rw [hfields, castFilter_spec hcast, List.map_map]
    exact List.mem_map.mpr ⟨e, he, rfl⟩

/-! ### What an operation touches -/

theorem QueryOptions.mem_select {o : QueryOptions} {docs : List Document} {d : Document}
    (h : d ∈ o.select docs) : d ∈ docs := by
  have hrest : d ∈ (docs.insertionSort fun x y => o.sort x y).drop o.skip := by
    rw [select] at h
    cases hlimit : o.limit with
    | none => rwa [hlimit] at h
    | some n =>
        rw [hlimit] at h
        exact List.mem_of_mem_take h
  exact (List.mem_insertionSort _).mp (List.mem_of_mem_drop hrest)

theorem filter_sublist_erase {f : Document → Bool} {docs : List Document} {t : Document}
    (ht : f t = false) : (docs.filter f).Sublist (docs.erase t) := by
  induction docs with
  | nil => exact List.Sublist.slnil
  | cons d docs ih =>
      by_cases hd : d = t
      · subst hd
        rw [List.erase_cons_head, List.filter_cons_of_neg (by simp [ht])]
        exact List.filter_sublist
      · rw [List.erase_cons_tail (by simpa using hd), List.filter_cons]
        split_ifs
        · exact ih.cons_cons d
        · exact ih.cons d

theorem filter_sublist_replace {f : Document → Bool} {docs : List Document} {t d : Document}
    (ht : f t = false) : (docs.filter f).Sublist (docs.replace t d) := by
  induction docs with
  | nil => exact List.Sublist.slnil
  | cons x docs ih =>
      by_cases hx : x = t
      · subst hx
        rw [List.replace_cons_self, List.filter_cons_of_neg (by simp [ht])]
        exact List.filter_sublist.cons d
      · have hne : (t == x) = false := by simpa using fun h => hx h.symm
        rw [List.replace_cons, hne, List.filter_cons]
        split_ifs
        · exact ih.cons_cons x
        · exact ih.cons x

/-- A filter that rejects the removed documents keeps what it kept. -/
theorem filter_sublist_diff {f : Document → Bool} {docs targets : List Document}
    (h : ∀ t ∈ targets, f t = false) : (docs.filter f).Sublist (docs.diff targets) := by
  induction targets generalizing docs with
  | nil => exact List.filter_sublist
  | cons t targets ih =>
      obtain ⟨ht, hrest⟩ := List.forall_mem_cons.mp h
      rw [List.diff_cons]
      have hfirst : ((docs.filter f).filter f).Sublist ((docs.erase t).filter f) :=
        (filter_sublist_erase ht).filter f
      rw [List.filter_filter] at hfirst
      simp only [Bool.and_self] at hfirst
      exact hfirst.trans (ih hrest)

section writeEach
variable {unique : List (List String)} {update : Document → Document} {targets docs : List Document}

theorem writeEach_touched_subset :
    ∀ t ∈ (writeEach unique update targets docs).touched, t ∈ targets := by
  induction targets generalizing docs with
  | nil => simp [writeEach]
  | cons t targets ih =>
      rw [writeEach]
      split_ifs
      · simp
      · intro t' ht'
        rcases List.mem_cons.mp ht' with rfl | ht'
        · exact List.mem_cons_self
        · exact List.mem_cons_of_mem _ (ih t' ht')

theorem writeEach_touched (h : (writeEach unique update targets docs).refused = false) :
    (writeEach unique update targets docs).touched = targets := by
  induction targets generalizing docs with
  | nil => rfl
  | cons t targets ih =>
      rw [writeEach] at h ⊢
      split_ifs at h ⊢
      exact congrArg (t :: ·) (ih h)

theorem writeEach_after {f : Document → Bool} (h : ∀ t ∈ targets, f t = false) :
    (docs.filter f).Sublist (writeEach unique update targets docs).after := by
  induction targets generalizing docs with
  | nil => exact List.filter_sublist
  | cons t targets ih =>
      obtain ⟨ht, hrest⟩ := List.forall_mem_cons.mp h
      rw [writeEach]
      split_ifs
      · exact List.filter_sublist
      · have hfirst : ((docs.filter f).filter f).Sublist ((docs.replace t (update t)).filter f) :=
          (filter_sublist_replace ht).filter f
        rw [List.filter_filter] at hfirst
        simp only [Bool.and_self] at hfirst
        exact hfirst.trans (ih hrest)

end writeEach

/-- What is known of an operation that only looks at the documents meeting `p`. -/
structure Confined (p : Document → Bool) (docs : List Document) (o : Outcome) : Prop where
  touched : ∀ d ∈ o.touched, d ∈ docs.filter p
  untouched : ∀ f : Document → Bool, (∀ d, p d = true → f d = false) →
    (docs.filter f).Sublist o.after

theorem confined_read {p : Document → Bool} {docs found : List Document} (reply : Reply)
    (h : ∀ d ∈ found, d ∈ docs.filter p) :
    Confined p docs { reply := reply, touched := found, after := docs } where
  touched := h
  untouched _ _ := List.filter_sublist

theorem confined_update {p : Document → Bool} {unique : List (List String)}
    {update : Document → Document} {docs targets : List Document} (reply : Reply)
    (h : ∀ d ∈ targets, d ∈ docs.filter p) :
    Confined p docs (updateTargets unique update docs targets reply) where
  touched d hd := h d (writeEach_touched_subset d hd)
  untouched _ hf := writeEach_after fun d hd => hf d (List.mem_filter.mp (h d hd)).2

theorem confined_delete {p : Document → Bool} {docs targets : List Document} (reply : Reply)
    (h : ∀ d ∈ targets, d ∈ docs.filter p) :
    Confined p docs (deleteTargets docs targets reply) where
  touched := h
  untouched _ hf := filter_sublist_diff fun d hd => hf d (List.mem_filter.mp (h d hd)).2

theorem exec_confined (unique : List (List String)) (docs : List Document)
    (p : Document → Bool) (op : QueryOp) : Confined p docs (exec unique docs p op) := by
  have hselect : ∀ (o : QueryOptions), ∀ d ∈ o.select (docs.filter p), d ∈ docs.filter p :=
    fun o d hd => QueryOptions.mem_select hd
  have hfirst : ∀ (o : QueryOptions), ∀ d ∈ (o.select (docs.filter p)).take 1,
      d ∈ docs.filter p := fun o d hd => hselect o d (List.mem_of_mem_take hd)
  have hone : ∀ d ∈ (docs.filter p).take 1, d ∈ docs.filter p :=
    fun d hd => List.mem_of_mem_take hd
  have hall : ∀ d ∈ docs.filter p, d ∈ docs.filter p := fun d hd => hd
  cases op with
  | find o projection => exact confined_read _ (hselect o)
  | findOne o projection => exact confined_read _ (hfirst o)
  | findOneAndUpdate o update returnNew projection => exact confined_update _ (hfirst o)
  | findOneAndDelete o projection => exact confined_delete _ (hfirst o)
  | findOneAndRemove o projection => exact confined_delete _ (hfirst o)
  | count o => exact confined_read _ (hselect o)
  | countDocuments o => exact confined_read _ (hselect o)
  | updateMany update => exact confined_update _ hall
  | updateOne update => exact confined_update _ hone
  | deleteMany => exact confined_delete _ hall
  | deleteOne => exact confined_delete _ hone

/-- Two runs answer alike, unless one of them is refused by a unique index. -/
def SameUnlessRefused (o o' : Outcome) : Prop :=
  o.reply = .duplicateKey ∨ o'.reply = .duplicateKey ∨ (o'.reply = o.reply ∧ o'.touched = o.touched)

theorem updateTargets_same {unique : List (List String)} {update : Document → Document}
    (docs docs' targets : List Document) (reply : Reply) :
    SameUnlessRefused (updateTargets unique update docs targets reply)
      (updateTargets unique update docs' targets reply) := by
  cases hw : (writeEach unique update targets docs).refused with
  | true => exact Or.inl (by simp [updateTargets, hw])
  | false =>
      cases hw' : (writeEach unique update targets docs').refused with
      | true => exact Or.inr (Or.inl (by simp [updateTargets, hw']))
      | false =>
          refine Or.inr (Or.inr ⟨by simp [updateTargets, hw, hw'], ?_⟩)
          exact (writeEach_touched hw').trans (writeEach_touched hw).symm

/-- An operation depends on the documents meeting its condition alone. -/
theorem exec_same (unique : List (List String)) {docs docs' : List Document}
    {p : Document → Bool} (h : docs'.filter p = docs.filter p) (op : QueryOp) :
    SameUnlessRefused (exec unique docs p op) (exec unique docs' p op) := by
  cases op with
  | find o projection => exact Or.inr (Or.inr (by simp [exec, h]))
  | findOne o projection => exact Or.inr (Or.inr (by simp [exec, h]))
  | findOneAndUpdate o update returnNew projection =>
      simp only [exec, h]
      exact updateTargets_same _ _ _ _
  | findOneAndDelete o projection => exact Or.inr (Or.inr (by simp [exec, deleteTargets, h]))
  | findOneAndRemove o projection => exact Or.inr (Or.inr (by simp [exec, deleteTargets, h]))
  | count o => exact Or.inr (Or.inr (by simp [exec, h]))
  | countDocuments o => exact Or.inr (Or.inr (by simp [exec, h]))
  | updateMany update =>
      simp only [exec, h]
      exact updateTargets_same _ _ _ _
  | updateOne update =>
      simp only [exec, h]
      exact updateTargets_same _ _ _ _
  | deleteMany => exact Or.inr (Or.inr (by simp [exec, deleteTargets, h]))
  | deleteOne => exact Or.inr (Or.inr (by simp [exec, deleteTargets, h]))

/-! ### What an aggregation touches -/

theorem Document.get_set (d : Document) (f f' : String) (v : BsonValue) :
    (d.set f v).get f' = if f' = f then some v else d.get f' := by
  by_cases hf : f' = f
  · subst hf
    simp [set, get]
  · rw [if_neg hf, set, get, get, List.lookup_cons, beq_false_of_ne hf]
    change List.lookup f' (d.filter fun e => e.1 ≠ f) = List.lookup f' d
    induction d with
    | nil => rfl
    | cons e d ih =>
        rw [List.filter_cons]
        by_cases he : e.1 = f
        · rw [if_neg (by simpa using he), ih, List.lookup_cons,
            beq_false_of_ne (by rw [he]; exact hf)]
        · rw [if_pos (by simpa using he), List.lookup_cons, List.lookup_cons, ih]

/-- Overwriting a field with something that is no id never makes a document the role's own. -/
theorem ownRecord_of_set {m : Marking} {ctx : RequestScope} {d : Document} {f : String}
    {v : BsonValue} (hv : ∀ i, v ≠ .objectId i) (h : ownRecord m ctx (d.set f v) = true) :
    ownRecord m ctx d = true := by
  rw [ownRecord, List.all_eq_true] at h ⊢
  intro e he
  have hnames := h e he
  cases hs : e.2 with
  | none =>
      rw [hs] at hnames
      cases hnames
  | some s =>
      rw [hs] at hnames
      cases s with
      | empty => cases hnames
      | other s => cases hnames
      | id i =>
          simp only [Document.names, decide_eq_true_eq, Document.get_set] at hnames ⊢
          split_ifs at hnames
          · exact absurd (Option.some.inj hnames) (hv i)
          · exact hnames

theorem GeoNear.row_spec {g : GeoNear} {d : Document} {r : ℚ × Row} (h : g.row d = some r) :
    r.2.source = d ∧
      ∀ m ctx, ownRecord m ctx r.2.doc = true → ownRecord m ctx d = true := by
  unfold GeoNear.row at h
  split at h
  · rename_i p _
    split_ifs at h
    cases h
    refine ⟨rfl, fun m ctx hown => ?_⟩
    cases hlocs : g.includeLocs with
    | none =>
        rw [hlocs] at hown
        exact ownRecord_of_set (by rintro i ⟨⟩) hown
    | some f =>
        rw [hlocs] at hown
        exact ownRecord_of_set (by rintro i ⟨⟩) (ownRecord_of_set (by rintro i ⟨⟩) hown)
  · cases h

/-- Rows read from the documents that meet `q`, and from nothing else. -/
structure ReadsOnly (q : Document → Bool) (rows : List Document → List Row) : Prop where
  source : ∀ docs, ∀ r ∈ rows docs, r.source ∈ docs.filter q
  same : ∀ docs docs', docs'.filter q = docs.filter q → rows docs' = rows docs

theorem plain_readsOnly (q : Document → Bool) :
    ReadsOnly q fun docs => (docs.map fun d => ⟨d, d⟩).filter fun r : Row => q r.doc where
  source docs r hr := by
    obtain ⟨hmem, hq⟩ := List.mem_filter.mp hr
    obtain ⟨d, hd, rfl⟩ := List.mem_map.mp hmem
    exact List.mem_filter.mpr ⟨hd, hq⟩
  same docs docs' h := by
    have hrows : ∀ l : List Document, (l.map fun d => (⟨d, d⟩ : Row)).filter (fun r => q r.doc) =
        (l.filter q).map fun d => ⟨d, d⟩ := fun l => List.filter_map
    rw [hrows, hrows, h]

theorem filter_filterMap_of_pass {α β : Type} {f : α → Option β} {p : β → Bool} {q : α → Bool}
    (h : ∀ a b, f a = some b → p b = true → q a = true) (l : List α) :
    (l.filterMap f).filter p = ((l.filter q).filterMap f).filter p := by
  induction l with
  | nil => rfl
  | cons a l ih =>
      cases hf : f a with
      | none =>
          rw [List.filterMap_cons_none hf, List.filter_cons]
          split_ifs
          · rw [List.filterMap_cons_none hf, ih]
          · exact ih
      | some b =>
          rw [List.filterMap_cons_some hf, List.filter_cons, List.filter_cons]
          by_cases hb : p b = true
          · rw [if_pos hb, if_pos (h a b hf hb), List.filterMap_cons_some hf, List.filter_cons,
              if_pos hb, ih]
          · rw [if_neg hb]
            split_ifs
            · rw [List.filterMap_cons_some hf, List.filter_cons, if_neg hb, ih]
            · exact ih

/-- Scoping after the distances are sorted is scoping before. -/
theorem geoNear_readsOnly (g : GeoNear) (m : Marking) (ctx : RequestScope) :
    ReadsOnly (ownRecord m ctx) fun docs =>
      (g.rows docs).filter fun r => ownRecord m ctx r.doc where
  source docs r hr := by
    obtain ⟨hmem, hown⟩ := List.mem_filter.mp hr
    obtain ⟨r', hr', rfl⟩ := List.mem_map.mp hmem
    obtain ⟨d, hd, hrow⟩ := List.mem_filterMap.mp ((List.mem_insertionSort _).mp hr')
    obtain ⟨hsource, hback⟩ := GeoNear.row_spec hrow
    rw [hsource]
    exact List.mem_filter.mpr ⟨hd, hback m ctx hown⟩
  same docs docs' h := by
    have htotal : Std.Total fun x y : ℚ × Row => x.1 ≤ y.1 := ⟨fun x y => le_total x.1 y.1⟩
    have htrans : IsTrans (ℚ × Row) fun x y => x.1 ≤ y.1 := ⟨fun x y z => le_trans⟩
    have hrows : ∀ l : List Document, (g.rows l).filter (fun r => ownRecord m ctx r.doc) =
        ((((l.filter (ownRecord m ctx)).filterMap g.row).filter
          fun r => ownRecord m ctx r.2.doc).insertionSort fun x y => x.1 ≤ y.1).map (·.2) := by
      intro l
      rw [GeoNear.rows, List.filter_map, filter_insertionSort]
      congr 2
      exact filter_filterMap_of_pass (fun d r hrow => (GeoNear.row_spec hrow).2 m ctx) l
    rw [hrows, hrows, h]

theorem admitted_subset {stages : List Stage} {rows : List Row} :
    (∀ r ∈ (admitted stages rows).1, r ∈ rows) ∧
      ∀ s ∈ (admitted stages rows).2, s ∈ stages := by
  induction stages generalizing rows with
  | nil => exact ⟨fun r hr => hr, fun s hs => hs⟩
  | cons s stages ih =>
      cases s with
      | matching p =>
          obtain ⟨hrows, hstages⟩ := @ih (rows.filter fun r => p.holds r.doc)
          exact ⟨fun r hr => List.mem_of_mem_filter (hrows r hr),
            fun s hs => List.mem_cons_of_mem _ (hstages s hs)⟩
      | geoNear g => exact ⟨fun r hr => hr, fun s hs => hs⟩
      | transform f => exact ⟨fun r hr => hr, fun s hs => hs⟩
      | stats f => exact ⟨fun r hr => hr, fun s hs => hs⟩
      | out => exact ⟨fun r hr => hr, fun s hs => hs⟩

theorem admitted_geoNear {stages : List Stage} {rows : List Row}
    (h : stages.any Stage.isGeoNear = true) :
    (admitted stages rows).2.any Stage.isGeoNear = true := by
  induction stages generalizing rows with
  | nil => cases h
  | cons s stages ih =>
      cases s with
      | matching p => exact ih h
      | geoNear g => exact h
      | transform f => exact h
      | stats f => exact h
      | out => exact h

/-- A `$geoNear` that does not come first fails the pipeline. -/
theorem runStages_geoNear {stages : List Stage} {docs : List Document}
    (h : stages.any Stage.isGeoNear = true) : ∃ e, runStages stages docs = .error e := by
  induction stages generalizing docs with
  | nil => cases h
  | cons s stages ih =>
      cases s with
      | matching p => exact ih h
      | geoNear g => exact ⟨_, rfl⟩
      | transform f => exact ih h
      | stats f => exact ⟨_, rfl⟩
      | out =>
          cases stages with
          | nil => cases h
          | cons s' stages => exact ⟨_, rfl⟩

theorem runStages_reads {stages : List Stage} {docs : List Document}
    {r : List Document × Bool} (hout : stages.any Stage.isOut = false)
    (h : runStages stages docs = .ok r) : r.2 = false := by
  induction stages generalizing docs with
  | nil =>
      cases h
      rfl
  | cons s stages ih =>
      cases s with
      | matching p => exact ih hout h
      | geoNear g => cases h
      | transform f => exact ih hout h
      | stats f => cases h
      | out => cases hout

theorem finish_geoNear {docs : List Document} {rows : List Row} {stages : List Stage}
    (h : stages.any Stage.isGeoNear = true) : ∃ e, finish docs rows stages = .error e := by
  obtain ⟨e, he⟩ : ∃ e, runStages (admitted stages rows).2
      ((admitted stages rows).1.map (·.doc)) = .error e := runStages_geoNear (admitted_geoNear h)
  exact ⟨e, congrArg (Except.map _) he⟩

theorem aggregate_late_geoNear {docs : List Document} {s : Stage} {stages : List Stage}
    (hs : s.isGeoNear = false) (h : stages.any Stage.isGeoNear = true) :
    ∃ e, aggregate docs (s :: stages) = .error e := by
  have hany : (s :: stages).any Stage.isGeoNear = true := by rw [List.any_cons, h, Bool.or_true]
  cases s with
  | geoNear g => cases hs
  | stats f =>
      obtain ⟨e, he⟩ : ∃ e, runStages stages (f docs) = .error e := runStages_geoNear h
      exact ⟨e, congrArg (Except.map (answer docs docs)) he⟩
  | matching p => exact finish_geoNear hany
  | transform f => exact finish_geoNear hany
  | out => exact finish_geoNear hany

/-- A scoped pipeline fails, or it runs its remaining stages on rows of the role's
own documents. -/
theorem aggregate_scoped {m : Marking} {ctx : RequestScope} {scope : Conditions String Document}
    (hscope : ∀ d, scope.holds d = ownRecord m ctx d) (pipeline : List Stage) :
    (∀ docs, ∃ e, aggregate docs (scopePipeline scope pipeline) = .error e) ∨
      ∃ rows rest, ReadsOnly (ownRecord m ctx) rows ∧ (∀ s ∈ rest, s ∈ pipeline) ∧
        ∀ docs, aggregate docs (scopePipeline scope pipeline) = finish docs (rows docs) rest := by
  have hmatch : ∀ docs rows rest, finish docs rows (.matching scope :: rest) =
      finish docs (rows.filter fun r => ownRecord m ctx r.doc) rest := by
    intro docs rows rest
    simp only [finish, admitted, hscope]
  cases hi : pipeline.findIdx? Stage.isGeoNear with
  | none =>
      refine Or.inr ⟨_, pipeline, plain_readsOnly _, fun s hs => hs, fun docs => ?_⟩
      rw [scopePipeline, hi]
      exact hmatch _ _ _
  | some i =>
      have hpipeline : scopePipeline scope pipeline =
          pipeline.take (i + 1) ++ .matching scope :: pipeline.drop (i + 1) := by
        rw [scopePipeline, hi]
      rw [hpipeline]
      obtain ⟨hlt, hgeo, hbefore⟩ := List.findIdx?_eq_some_iff_getElem.mp hi
      cases pipeline with
      | nil => cases hi
      | cons s stages =>
          cases i with
          | zero =>
              cases s with
              | geoNear g =>
                  exact Or.inr ⟨_, stages, geoNear_readsOnly g m ctx,
                    fun s hs => List.mem_cons_of_mem _ hs, fun docs => hmatch _ _ _⟩
              | matching p => cases hgeo
              | transform f => cases hgeo
              | stats f => cases hgeo
              | out => cases hgeo
          | succ i =>
              have hs : s.isGeoNear = false := by simpa using hbefore 0 (Nat.succ_pos i)
              have hlater : stages.any Stage.isGeoNear = true :=
                List.any_eq_true.mpr ⟨_, List.getElem_mem _, hgeo⟩
              have htail : (stages.take (i + 1) ++ .matching scope :: stages.drop (i + 1)).any
                  Stage.isGeoNear = true := by
                rw [← List.take_append_drop (i + 1) stages, List.any_append] at hlater
                rw [List.any_append, List.any_cons]
                exact hlater
              exact Or.inl fun docs => aggregate_late_geoNear hs htail

/-! ### Isolation -/

def ScopedCall.writesCollection : ScopedCall → Bool
  | .query _ _ => false
  | .aggregate pipeline => pipeline.any Stage.isOut

/-- A call throws, or the actor is the platform operator, or it touches the role's own
documents only, leaves the others alone, and answers as in every collection that has
the same documents of the role's own; `agree` says when two answers are alike. -/
def Isolated (agree : Outcome → Outcome → Prop) (m : Marking) (unique : List (List String))
    (ctx : RequestScope) (call : ScopedCall) : Prop :=
  ∀ docs, (∃ e, runScoped m unique ctx docs call = .error e) ∨ ctx.role = some .superAdmin ∨
    ∃ o, runScoped m unique ctx docs call = .ok o ∧
      (∀ d ∈ o.touched, d ∈ docs ∧ ownRecord m ctx d = true) ∧
      (docs.filter fun d => !ownRecord m ctx d).Sublist o.after ∧
      ∀ docs', docs'.filter (ownRecord m ctx) = docs.filter (ownRecord m ctx) →
        ∃ o', runScoped m unique ctx docs' call = .ok o' ∧ agree o o'

section isolated
variable {m : Marking} {unique : List (List String)} {ctx : RequestScope}
  {scope : Conditions String Document}

theorem query_isolated {p : Conditions String Document} {op : QueryOp}
    (hscope : pluginScope ctx m = .ok (some scope))
    (hown : ∀ d, scope.holds d = ownRecord m ctx d) :
    Isolated SameUnlessRefused m unique ctx (.query p op) := by
  intro docs
  have hrun : ∀ l, runScoped m unique ctx l (.query p op) =
      .ok (exec unique l (p.merge scope).holds op) := by
    intro l
    rw [runScoped, hscope]
    rfl
  have hpass : ∀ d, (p.merge scope).holds d = true → ownRecord m ctx d = true := by
    intro d hd
    rw [← hown]
    exact (Conditions.holds_merge.mp hd).1
  have hconfined := exec_confined unique docs (p.merge scope).holds op
  refine Or.inr (Or.inr ⟨_, hrun docs, fun d hd => ?_, ?_, fun docs' hdocs => ⟨_, hrun docs', ?_⟩⟩)
  · obtain ⟨hmem, hp⟩ := List.mem_filter.mp (hconfined.touched d hd)
    exact ⟨hmem, hpass d hp⟩
  · exact hconfined.untouched _ fun d hd => by rw [hpass d hd]; rfl
  · refine exec_same unique ?_ op
    have hsplit : ∀ l : List Document, l.filter (p.merge scope).holds =
        (l.filter (ownRecord m ctx)).filter (p.merge scope).holds := by
      intro l
      rw [List.filter_filter]
      refine List.filter_congr fun d _ => ?_
      rw [Bool.eq_iff_iff, Bool.and_eq_true]
      exact ⟨fun hd => ⟨hd, hpass d hd⟩, And.left⟩
    rw [hsplit docs', hdocs, ← hsplit]

theorem aggregate_isolated {pipeline : List Stage} (hout : pipeline.any Stage.isOut = false)
    (hscope : pluginScope ctx m = .ok (some scope))
    (hown : ∀ d, scope.holds d = ownRecord m ctx d) :
    Isolated SameUnlessRefused m unique ctx (.aggregate pipeline) := by
  have hrun : ∀ l, runScoped m unique ctx l (.aggregate pipeline) =
      aggregate l (scopePipeline scope pipeline) := by
    intro l
    rw [runScoped, hscope]
    rfl
  intro docs
  simp only [hrun]
  rcases aggregate_scoped hown pipeline with hfail | ⟨rows, rest, hreads, hrest, hfinish⟩
  · exact Or.inl (hfail docs)
  · simp only [hfinish]
    cases hresult : runStages (admitted rest (rows docs)).2
        ((admitted rest (rows docs)).1.map (·.doc)) with
    | error e => exact Or.inl ⟨e, congrArg (Except.map _) hresult⟩
    | ok r =>
        have hnoOut : (admitted rest (rows docs)).2.any Stage.isOut = false := by
          rw [List.any_eq_false] at hout ⊢
          exact fun s hs => hout s (hrest s (admitted_subset.2 s hs))
        obtain ⟨result, writes⟩ := r
        obtain rfl : writes = false := runStages_reads hnoOut hresult
        have hanswer : ∀ l, rows l = rows docs → finish l (rows l) rest = .ok
            { reply := .documents result
              touched := (admitted rest (rows docs)).1.map (·.source)
              after := l } := by
          intro l hl
          rw [hl]
          exact congrArg (Except.map _) hresult
        refine Or.inr (Or.inr ⟨_, hanswer docs rfl, fun d hd => ?_, List.filter_sublist,
          fun docs' hdocs => ⟨_, hanswer docs' (hreads.same docs docs' hdocs),
            Or.inr (Or.inr ⟨rfl, rfl⟩)⟩⟩)
        obtain ⟨r, hr, rfl⟩ := List.mem_map.mp hd
        exact List.mem_filter.mp (hreads.source docs r (admitted_subset.1 r hr))

end isolated

/-- No call of an authenticated actor reads, counts or writes a document of another
tenant or party, and none answers differently because of one. -/
theorem scoped_calls_isolated (role : UserRole) (userId companyId parent : Option IdString)
    (m : Marking) (unique : List (List String)) (call : ScopedCall)
    (hreads : call.writesCollection = false) :
    Isolated SameUnlessRefused m unique
      { userId := userId, role := some role, companyId := companyId, parentFuelCompanyId := parent }
      call := by
  generalize hctx : RequestScope.mk userId (some role) companyId parent = ctx
  have hrole : ctx.role = some role := by rw [← hctx]
  cases hscope : pluginScope ctx m with
  | error e =>
      refine fun docs => Or.inl ⟨e, ?_⟩
      rw [runScoped, hscope]
      rfl
  | ok scope =>
      rcases pluginScope_spec hscope with ⟨rfl, hnone | hsuper⟩ | ⟨s, rfl, hown, -⟩
      · rw [hnone] at hrole
        cases hrole
      · exact fun docs => Or.inr (Or.inl hsuper)
      · cases call with
        | query p op => exact query_isolated hscope hown
        | aggregate pipeline => exact aggregate_isolated hreads hscope hown

/-! ### The client's own orders -/

/-- A client asks for the orders of another fuel company, nearest first; the scope
leaves its own. -/
theorem scoped_calls_isolated_client :
    Isolated SameUnlessRefused .multiParty [["orderNumber"]]
      { userId := some (.id 20), role := some .client, companyId := some (.id 10)
        parentFuelCompanyId := none }
      (.aggregate [.geoNear
        { key := "deliveryLocation"
          distance := fun p => p.latitude
          within := fun _ => true
          query := fun d => decide (d.get "fuelCompanyId" = some (.objectId 12))
          distanceField := "distance"
          includeLocs := none }]) :=
  scoped_calls_isolated .client (some (.id 20)) (some (.id 10)) none .multiParty
    [["orderNumber"]] _ rfl

/-- A unique index spans all tenants, so its refusal tells of a document of another
tenant; and `$out` replaces the documents of every tenant. -/
theorem scoped_calls_not_isolated :
    (¬ Isolated (fun o o' => o'.reply = o.reply) .tenantScoped [["code"]]
      { userId := some (.id 22), role := some .transportCompanyAdmin, companyId := some (.id 11)
        parentFuelCompanyId := some (.id 10) }
      (.query .empty (.updateOne fun d => d.set "code" (.text "T-2")))) ∧
    ¬ Isolated (fun o o' => o'.reply = o.reply) .multiParty []
      { userId := some (.id 20), role := some .client, companyId := some (.id 10)
        parentFuelCompanyId := none }
      (.aggregate [.out]) := by
  constructor
  · intro h
    let own : Document := [("companyId", .objectId 11), ("code", .text "T-1")]
    let foreign : Document := [("companyId", .objectId 12), ("code", .text "T-2")]
    rcases h [own] with ⟨e, he⟩ | hsuper | ⟨o, ho, -, -, hsame⟩
    · cases he
    · cases hsuper
    · obtain ⟨o', ho', hreply⟩ := hsame [own, foreign] (by decide)
      cases ho
      cases ho'
      exact absurd hreply (by decide)
  · intro h
    let own : Document :=
      [("orderNumber", .text "A"), ("fuelCompanyId", .objectId 10), ("clientId", .objectId 20)]
    let foreign : Document :=
      [("orderNumber", .text "B"), ("fuelCompanyId", .objectId 12), ("clientId", .objectId 40)]
    rcases h [own, foreign] with ⟨e, he⟩ | hsuper | ⟨o, ho, htouched, -, -⟩
    · cases he
    · cases hsuper
    · cases ho
      exact absurd (htouched foreign (by decide)).2 (by decide)

end CiroFuel
