import CiroFuel.Schemas
import CiroFuel.Snapshot.Single
import CiroFuel.Snapshot.Execution
import CiroFuel.Snapshot.History
import Mathlib.Data.List.MinMax

/-!
# The default station of a client

A client has any number of stations. The first one is the default; a station is
withdrawn by a flag, and the oldest of the others becomes the default if it was the
one. Each call reads, and then writes one document at a time. The index keeps two
stations of a client from being the default, and nothing keeps one of them there.
-/
namespace CiroFuel.Stations
open Snapshot

structure Station where
  clientId : Id
  companyId : Id
  name : Option String
  regionCode : ℕ
  governorateCode : ℕ
  location : GeoPoint
  addressText : String
  createdAt : Instant
  isDefault : Bool
  isFavourite : Bool := false
  isActive : Bool := true
deriving DecidableEq

inductive Key where
  | station (id : Id)
deriving DecidableEq

@[reducible] def Doc : Key → Type
  | .station _ => Station

/-- One default for a client, withdrawn or not. -/
instance : Indexed Doc Id where
  entries
    | .station _, (st : Station) => if st.isDefault then [st.clientId] else []

inductive HttpError where
  | stationNotFound
  | lastStation
deriving DecidableEq

structure StationDto where
  name : Option String := none
  regionCode : ℕ
  governorateCode : ℕ
  location : GeoPoint
  addressText : Option String := none
deriving DecidableEq

structure UpdateStationDto where
  name : Option String := none
  regionCode : Option ℕ := none
  governorateCode : Option ℕ := none
  location : Option GeoPoint := none
  addressText : Option String := none
deriving DecidableEq

def UpdateStationDto.set (dto : UpdateStationDto) (st : Station) : Station :=
  { st with
    name := dto.name.or st.name
    regionCode := dto.regionCode.getD st.regionCode
    governorateCode := dto.governorateCode.getD st.governorateCode
    location := dto.location.getD st.location
    addressText := dto.addressText.getD st.addressText }

abbrev Action := Tx Doc HttpError

/-! ### Calls -/

inductive Call where
  | create (clientId companyId : Id) (dto : StationDto) (isDefault : Bool)
  | update (id : Id) (dto : UpdateStationDto)
  | setFavourite (id clientId : Id) (isFavourite : Bool)
  | withdraw (id : Id)
  | promote (id : Id)

namespace Call

@[reducible] def Reply : Call → Type
  | .create .. => Id
  | .update .. => Option Station
  | .setFavourite .. => Option Station
  | .withdraw _ => Bool
  | .promote _ => Bool

def body : (c : Call) → Action c.Reply
  | .create clientId companyId dto isDefault => do
      let id ← Tx.freshId
      let createdAt ← Tx.getTime
      let taken : Option Station ← Tx.find (Key.station id)
      if taken.isSome then Tx.fail .unavailable
      else do
        Tx.insert (Key.station id)
          ({ clientId := clientId
             companyId := companyId
             name := dto.name
             regionCode := dto.regionCode
             governorateCode := dto.governorateCode
             location := dto.location
             addressText := dto.addressText.getD ""
             createdAt := createdAt
             isDefault := isDefault } : Station)
        return id
  | .update id dto => Tx.findOneAndUpdate (Key.station id) (fun _ => true) dto.set
  | .setFavourite id clientId isFavourite =>
      Tx.findOneAndUpdate (Key.station id) (fun st : Station => st.clientId = clientId)
        fun st : Station => { st with isFavourite := isFavourite }
  | .withdraw id =>
      Tx.updateOne (Key.station id) (fun _ => true) fun st : Station =>
        { st with isActive := false, isDefault := false }
  | .promote id =>
      Tx.updateOne (Key.station id) (fun _ => true) fun st : Station =>
        { st with isDefault := true }

end Call

/-! ### Handlers -/

abbrev Handler := Prog Doc Call.Reply HttpError

abbrev perform (l : Call) : Handler l.Reply := Prog.perform l

def activeStations (docs : Docs Doc) (clientId : Id) : List (Id × Station) :=
  docs.entries.filterMap fun e =>
    match e with
    | ⟨.station id, st⟩ =>
        if st.clientId = clientId && st.isActive then some (id, st) else none

def requireStation : Option Station → Handler Station
  | some st => return st
  | none => Prog.throw .stationNotFound

def create (clientId companyId : Id) (dto : StationDto) : Handler Id := do
  let existingCount := (activeStations (← Prog.scan) clientId).length
  perform (.create clientId companyId dto (existingCount = 0))

def update (id : Id) (dto : UpdateStationDto) : Handler Station := do
  let st ← perform (.update id dto)
  requireStation st

def setFavourite (id clientId : Id) (isFavourite : Bool) : Handler Station := do
  let st ← perform (.setFavourite id clientId isFavourite)
  requireStation st

/-- The oldest active station of the client other than the given one becomes the default. -/
def promoteNext (id clientId : Id) : Handler Unit := do
  let others := (activeStations (← Prog.scan) clientId).filter fun e => e.1 ≠ id
  match others.argmin (·.2.createdAt) with
  | none => return ()
  | some (next, _) => do
      let _ ← perform (.promote next)
      return ()

def remove (id : Id) : Handler Unit := do
  let found : Option Station ← Prog.find (Key.station id)
  let target ← requireStation (found.filter Station.isActive)
  let activeCount := (activeStations (← Prog.scan) target.clientId).length
  if activeCount ≤ 1 then Prog.throw .lastStation
  else do
    let _ ← perform (.withdraw id)
    if target.isDefault then promoteNext id target.clientId else return ()

inductive Answer where
  | done
  | created (id : Id)
  | station (st : Station)

inductive Request where
  | create (clientId companyId : Id) (dto : StationDto)
  | update (id : Id) (dto : UpdateStationDto)
  | setFavourite (id clientId : Id) (isFavourite : Bool)
  | remove (id : Id)

def handle : Request → Handler Answer
  | .create clientId companyId dto => do
      let id ← create clientId companyId dto
      return .created id
  | .update id dto => do
      let st ← update id dto
      return .station st
  | .setFavourite id clientId isFavourite => do
      let st ← setFavourite id clientId isFavourite
      return .station st
  | .remove id => do
      remove id
      return .done

def machine : Machine Doc Call.Reply HttpError Request Answer where
  body := Call.body
  isolated _ := false
  handle := handle
  admits _ _ _ := true

/-! ### What the clients have -/

def station (s : Store Doc) (id : Id) : Option Station := s.find (Key.station id)

/-- The client has, or has had, a station. -/
def Owns (s : Store Doc) (clientId : Id) : Prop :=
  ∃ id st, station s id = some st ∧ st.clientId = clientId

/-- The station is the client's active default. -/
def IsDefault (s : Store Doc) (clientId id : Id) : Prop :=
  ∃ st, station s id = some st ∧ st.clientId = clientId ∧ st.isActive = true ∧
    st.isDefault = true

structure Kept (s : Store Doc) (clientId : Id) : Prop where
  active : ∃ id st, station s id = some st ∧ st.clientId = clientId ∧ st.isActive = true
  default_ : ∃! id, IsDefault s clientId id

/-- Every client who has ever had a station has an active one, and exactly one default. -/
def AllKept (s : Store Doc) : Prop := ∀ clientId, Owns s clientId → Kept s clientId

/-- The call withdraws the active default of a client. -/
def Call.WithdrawsDefault (c : Call) (s : Store Doc) : Prop :=
  ∃ id clientId, c = .withdraw id ∧ IsDefault s clientId id

section defaults
variable {s : Store Doc} {clientId id id' : Id}

/-- The index: a client has one default at most. -/
theorem isDefault_unique (h : IsDefault s clientId id) (h' : IsDefault s clientId id') :
    id = id' := by
  obtain ⟨st, hst, hclient, -, hdefault⟩ := h
  obtain ⟨st', hst', hclient', -, hdefault'⟩ := h'
  have hmem : ∀ (k : Id) (x : Station), x.clientId = clientId → x.isDefault = true →
      clientId ∈ Indexed.entries (D := Doc) (Key.station k) x := by
    intro k x hx hxd
    simp [Indexed.entries, hx, hxd]
  have hkey := s.unique _ _ st st' clientId hst hst' (hmem id st hclient hdefault)
    (hmem id' st' hclient' hdefault')
  cases hkey
  rfl

theorem kept_iff : Kept s clientId ↔ ∃ id, IsDefault s clientId id := by
  constructor
  · intro h
    exact h.default_.exists
  · rintro ⟨id, hid⟩
    constructor
    · obtain ⟨st, hst, hclient, hactive, -⟩ := hid
      exact ⟨id, st, hst, hclient, hactive⟩
    · exact ⟨id, hid, fun id' hid' => isDefault_unique hid' hid⟩

theorem owns_of_activeStations (h : activeStations s.docs clientId ≠ []) : Owns s clientId := by
  obtain ⟨⟨id, st⟩, hmem⟩ := List.exists_mem_of_ne_nil _ h
  obtain ⟨⟨⟨k⟩, x⟩, he, hpick⟩ := List.mem_filterMap.mp hmem
  simp only [Option.ite_none_right_eq_some, Bool.and_eq_true, decide_eq_true_eq, Option.some.injEq,
    Prod.mk.injEq] at hpick
  obtain ⟨⟨hclient, -⟩, rfl, rfl⟩ := hpick
  exact ⟨_, _, AList.mem_lookup_iff.mpr he, hclient⟩

end defaults

/-! ### Commits -/

/-- What a commit does to the stations. -/
inductive CallStep (s s' : Store Doc) : Call → Prop where
  | same {c : Call} (hidle : ∀ id, c = .withdraw id → station s id = none)
      (h : ∀ id, station s' id = station s id) : CallStep s s' c
  | created {clientId companyId id : Id} {dto : StationDto} {b : Bool} {st : Station}
      (hnew : station s id = none) (h : Store.Puts s s' (Key.station id) st)
      (hclient : st.clientId = clientId) (hactive : st.isActive = true)
      (hdefault : st.isDefault = b) : CallStep s s' (.create clientId companyId dto b)
  | edited {c : Call} {id : Id} {st st' : Station} (hc : ∀ id, c ≠ .withdraw id)
      (hst : station s id = some st) (h : Store.Puts s s' (Key.station id) st') (hclient : st'.clientId = st.clientId)
      (hactive : st'.isActive = st.isActive) (hdefault : st'.isDefault = st.isDefault) :
      CallStep s s' c
  | withdrawn {id : Id} {st : Station} (hst : station s id = some st)
      (h : Store.Puts s s' (Key.station id) { st with isActive := false, isDefault := false }) :
      CallStep s s' (.withdraw id)
  | promoted {id : Id} {st : Station} (hst : station s id = some st)
      (h : Store.Puts s s' (Key.station id) { st with isDefault := true }) :
      CallStep s s' (.promote id)

theorem call_step {ev : Event Doc Call.Reply} (hev : ev.Sound machine) :
    CallStep ev.before ev.after ev.label := by
  have hputs := fun id st => hev.puts rfl (k := Key.station id) (x := st)
  have hsame := hev.untouched rfl
  have hbase := (hev.stored rfl).1
  obtain ⟨i, label, base, env, began, ended, reply, view, before, after⟩ := ev
  have hran : (Call.body label).run env (View.start base.docs) = .ok (reply, view) := hev.ran
  dsimp only at hbase hputs hsame ⊢
  subst hbase
  cases label with
  | create clientId companyId dto b =>
      obtain ⟨id, u, hid, h⟩ := Tx.bind_ok hran
      obtain ⟨-, rfl⟩ := Tx.freshId_ok hid
      obtain ⟨createdAt, u, ht, h⟩ := Tx.bind_ok h
      obtain ⟨-, rfl⟩ := Tx.getTime_ok ht
      obtain ⟨taken, u, htaken, h⟩ := Tx.bind_ok h
      obtain ⟨rfl, rfl⟩ := Tx.find_ok htaken
      split_ifs at h
      · cases h
      · obtain ⟨_, u, hinsert, h⟩ := Tx.bind_ok h
        obtain ⟨hnone, -, rfl⟩ := Tx.insert_ok hinsert
        obtain ⟨-, rfl⟩ := Tx.pure_ok h
        exact .created hnone (hputs id _ fun _ => rfl) rfl rfl rfl
  | update id dto =>
      rcases Tx.findOneAndUpdate_ok hran with ⟨st, hst, -, -, -, rfl⟩ | ⟨-, rfl, -⟩
      · exact .edited (fun _ h => by cases h) hst (hputs id _ fun _ => rfl) rfl rfl rfl
      · exact .same (fun _ h => by cases h) fun id' => hsame (fun _ => rfl) _
  | setFavourite id clientId isFavourite =>
      rcases Tx.findOneAndUpdate_ok hran with ⟨st, hst, -, -, -, rfl⟩ | ⟨-, rfl, -⟩
      · exact .edited (fun _ h => by cases h) hst (hputs id _ fun _ => rfl) rfl rfl rfl
      · exact .same (fun _ h => by cases h) fun id' => hsame (fun _ => rfl) _
  | withdraw id =>
      rcases Tx.updateOne_ok hran with ⟨st, hst, -, -, -, rfl⟩ | ⟨-, rfl, hmiss⟩
      · exact .withdrawn hst (hputs id _ fun _ => rfl)
      · refine .same ?_ fun id' => hsame (fun _ => rfl) _
        intro id' h
        cases h
        apply Option.eq_none_iff_forall_ne_some.mpr
        intro st hst
        cases hmiss st hst
  | promote id =>
      rcases Tx.updateOne_ok hran with ⟨st, hst, -, -, -, rfl⟩ | ⟨-, rfl, -⟩
      · exact .promoted hst (hputs id _ fun _ => rfl)
      · exact .same (fun _ h => by cases h) fun id' => hsame (fun _ => rfl) _

section steps
variable {s s' : Store Doc} {c : Call} {clientId id : Id}

theorem elsewhere_of_puts {k : Id} {x : Station} (h : Store.Puts s s' (Key.station k) x)
    (hne : id ≠ k) : station s' id = station s id :=
  h.elsewhere _ (by simpa using hne)

/-- A rewritten station stays its client's. -/
theorem owns_rewrite {k : Id} {o o' : Station} (ho : station s k = some o)
    (h : Store.Puts s s' (Key.station k) o') (hsame : o'.clientId = o.clientId) :
    Owns s' clientId ↔ Owns s clientId := by
  constructor
  · rintro ⟨id, st, hst, hclient⟩
    by_cases hid : id = k
    · subst hid
      cases hst.symm.trans h.here
      exact ⟨_, o, ho, hsame.symm.trans hclient⟩
    · exact ⟨id, st, (elsewhere_of_puts h hid).symm.trans hst, hclient⟩
  · rintro ⟨id, st, hst, hclient⟩
    by_cases hid : id = k
    · subst hid
      cases hst.symm.trans ho
      exact ⟨_, o', h.here, hsame.trans hclient⟩
    · exact ⟨id, st, (elsewhere_of_puts h hid).trans hst, hclient⟩

/-- Stations are withdrawn and never deleted. -/
theorem CallStep.owns (h : CallStep s s' c) (howns : Owns s clientId) : Owns s' clientId := by
  cases h with
  | same _ hsame =>
      obtain ⟨id, st, hst, hclient⟩ := howns
      exact ⟨id, st, (hsame id).trans hst, hclient⟩
  | @created _ _ k _ _ _ hnew hputs _ _ _ =>
      obtain ⟨id, st, hst, hclient⟩ := howns
      have hid : id ≠ k := by
        rintro rfl
        cases hnew.symm.trans hst
      exact ⟨id, st, (elsewhere_of_puts hputs hid).trans hst, hclient⟩
  | edited _ ho hputs hsame _ _ => exact (owns_rewrite ho hputs hsame).mpr howns
  | withdrawn ho hputs => exact (owns_rewrite ho hputs rfl).mpr howns
  | promoted ho hputs => exact (owns_rewrite ho hputs rfl).mpr howns

/-- A client who did not own a station before has been given this one. -/
theorem CallStep.owned (h : CallStep s s' c) (howns : Owns s' clientId) :
    Owns s clientId ∨ ∃ companyId dto b, c = .create clientId companyId dto b ∧
      (b = true → ∃ id, IsDefault s' clientId id) := by
  cases h with
  | same _ hsame =>
      obtain ⟨id, st, hst, hclient⟩ := howns
      exact Or.inl ⟨id, st, (hsame id).symm.trans hst, hclient⟩
  | @created _ companyId k dto b x _ hputs hx hactive hdefault =>
      obtain ⟨id, st, hst, hclient⟩ := howns
      by_cases hid : id = k
      · subst hid
        cases hst.symm.trans hputs.here
        right
        refine ⟨companyId, dto, b, by rw [← hx, hclient], fun hb => ?_⟩
        exact ⟨_, _, hputs.here, hclient, hactive, hdefault.trans hb⟩
      · exact Or.inl ⟨id, st, (elsewhere_of_puts hputs hid).symm.trans hst, hclient⟩
  | edited _ ho hputs hsame _ _ => exact Or.inl ((owns_rewrite ho hputs hsame).mp howns)
  | withdrawn ho hputs => exact Or.inl ((owns_rewrite ho hputs rfl).mp howns)
  | promoted ho hputs => exact Or.inl ((owns_rewrite ho hputs rfl).mp howns)

/-- A default stays one unless it is withdrawn. -/
theorem CallStep.keeps (h : CallStep s s' c) (hdefault : IsDefault s clientId id)
    (hnot : ¬ c.WithdrawsDefault s) : IsDefault s' clientId id := by
  obtain ⟨st, hst, hclient, hactive, hdef⟩ := hdefault
  have helsewhere : ∀ (k : Id) (x : Station), Store.Puts s s' (Key.station k) x → id ≠ k →
      IsDefault s' clientId id := fun k x hputs hid =>
    ⟨st, (elsewhere_of_puts hputs hid).trans hst, hclient, hactive, hdef⟩
  cases h with
  | same _ hsame => exact ⟨st, (hsame id).trans hst, hclient, hactive, hdef⟩
  | @created _ _ k _ _ _ hnew hputs _ _ _ =>
      apply helsewhere k _ hputs
      rintro rfl
      cases hnew.symm.trans hst
  | @edited _ k o o' _ ho hputs hsame hsameActive hsameDefault =>
      by_cases hid : id = k
      · subst hid
        cases hst.symm.trans ho
        exact ⟨o', hputs.here, hsame.trans hclient, hsameActive.trans hactive,
          hsameDefault.trans hdef⟩
      · exact helsewhere k o' hputs hid
  | @withdrawn k o ho hputs =>
      apply helsewhere k _ hputs
      rintro rfl
      exact hnot ⟨id, clientId, rfl, st, hst, hclient, hactive, hdef⟩
  | @promoted k o ho hputs =>
      by_cases hid : id = k
      · subst hid
        cases hst.symm.trans ho
        exact ⟨_, hputs.here, hclient, hactive, rfl⟩
      · exact helsewhere k _ hputs hid

/-- Withdrawing the default leaves its client without one. -/
theorem CallStep.lapses (h : CallStep s s' (.withdraw id)) (hdefault : IsDefault s clientId id)
    (id' : Id) : ¬ IsDefault s' clientId id' := by
  rintro ⟨st', hst', hclient', hactive', hdef'⟩
  cases h with
  | same hidle _ =>
      obtain ⟨st, hst, -⟩ := hdefault
      cases (hidle id rfl).symm.trans hst
  | edited hc => exact hc id rfl
  | withdrawn ho hputs =>
      by_cases hid : id' = id
      · subst hid
        cases hst'.symm.trans hputs.here
        cases hactive'
      · have hbefore : IsDefault s clientId id' :=
          ⟨st', (elsewhere_of_puts hputs hid).symm.trans hst', hclient', hactive', hdef'⟩
        exact hid (isDefault_unique hbefore hdefault)

/-- For a station that is not created as the default, its client has had one before. -/
def Call.Ready (c : Call) (s : Store Doc) : Prop :=
  ∀ clientId companyId dto, c = .create clientId companyId dto false → Owns s clientId

theorem CallStep.allKept (h : CallStep s s' c) (hkept : AllKept s) (hready : c.Ready s)
    (hnot : ¬ c.WithdrawsDefault s) : AllKept s' := by
  intro clientId howns
  rw [kept_iff]
  have hstays : Owns s clientId → ∃ id, IsDefault s' clientId id := by
    intro hbefore
    obtain ⟨id, hid⟩ := kept_iff.mp (hkept clientId hbefore)
    exact ⟨id, h.keeps hid hnot⟩
  rcases h.owned howns with hbefore | ⟨companyId, dto, b, rfl, hfirst⟩
  · exact hstays hbefore
  · cases b with
    | false => exact hstays (hready clientId companyId dto rfl)
    | true => exact hfirst rfl

end steps

/-! ### What the handlers have made sure of -/

def prepared : Discipline Doc Call.Reply where
  inv _ := True
  rely s s' := ∀ clientId, Owns s clientId → Owns s' clientId
  pre c s _ := c.Ready s

theorem prepared_coherent : prepared.Coherent where
  refl _ _ h := h
  trans hab hbc clientId h := hbc clientId (hab clientId h)
  stable hready hrely _ clientId companyId dto hc := hrely clientId (hready clientId companyId dto hc)

/-- Any call but a creation. -/
def Call.Plain (c : Call) : Prop := ∀ s, c.Ready s

section handlers
variable {s : Store Doc} {c : ℕ}

theorem withdraw_plain (id : Id) : (Call.withdraw id).Plain := fun _ _ _ _ h => by cases h

theorem promote_plain (id : Id) : (Call.promote id).Plain := fun _ _ _ _ h => by cases h

theorem update_plain (id : Id) (dto : UpdateStationDto) : (Call.update id dto).Plain :=
  fun _ _ _ _ h => by cases h

theorem setFavourite_plain (id clientId : Id) (b : Bool) :
    (Call.setFavourite id clientId b).Plain := fun _ _ _ _ h => by cases h

theorem safe_plain {α : Type} {p : Handler α} (h : p.Calls Call.Plain) : prepared.Harmless p s c :=
  Discipline.safe_calls (fun _ hl s _ => hl s) h

theorem requireStation_plain (st : Option Station) : (requireStation st).Calls Call.Plain := by
  cases st <;> trivial

theorem promoteNext_plain (id clientId : Id) : (promoteNext id clientId).Calls Call.Plain := by
  apply Prog.calls_scan.bind
  intro d
  simp only
  split
  · trivial
  · exact (Prog.calls_perform (promote_plain _)).bind fun _ => trivial

theorem remove_plain (id : Id) : (remove id).Calls Call.Plain := by
  apply (Prog.calls_find _).bind
  intro found
  apply (requireStation_plain _).bind
  intro target
  apply Prog.calls_scan.bind
  intro d
  simp only
  split
  · trivial
  · apply (Prog.calls_perform (withdraw_plain id)).bind
    intro _
    split
    · exact promoteNext_plain _ _
    · trivial

/-- A client who has an active station has had one. -/
theorem create_safe (clientId companyId : Id) (dto : StationDto) :
    prepared.Harmless (create clientId companyId dto) s c := by
  apply Discipline.safe_scan
  intro s₁ c₁ _
  refine ⟨?_, fun r s₂ c₂ _ _ => ?_⟩
  · intro s₂ c₂ h₂ clientId' companyId' dto' heq
    simp only [Call.create.injEq] at heq
    obtain ⟨rfl, -, -, hcount⟩ := heq
    apply h₂.rely
    apply owns_of_activeStations
    intro hnil
    rw [hnil] at hcount
    cases hcount
  · cases r <;> trivial

theorem handle_safe (q : Request) : prepared.Harmless (handle q) s c := by
  cases q with
  | create clientId companyId dto =>
      apply Discipline.Safe.bind prepared_coherent trivial (create_safe clientId companyId dto)
      intro id s' c' _ _
      trivial
  | update id dto =>
      apply safe_plain
      refine Prog.Calls.bind ?_ fun _ => trivial
      exact (Prog.calls_perform (update_plain id dto)).bind fun st => requireStation_plain st
  | setFavourite id clientId b =>
      apply safe_plain
      refine Prog.Calls.bind ?_ fun _ => trivial
      exact (Prog.calls_perform (setFavourite_plain id clientId b)).bind fun st =>
        requireStation_plain st
  | remove id => exact safe_plain ((remove_plain id).bind fun _ => trivial)

end handlers

/-! ### Runs -/

section run
variable {P : Event Doc Call.Reply → Prop} {init : Store Doc}
variable {log : List (Event Doc Call.Reply)} {s : Sys Doc Call.Reply HttpError Answer}

theorem run_steps (h : Run machine init P log s) :
    Run machine init (fun ev => P ev ∧ ev.label.Ready ev.before ∧
      CallStep ev.before ev.after ev.label) log s := by
  have hlawful : prepared.Lawful machine P :=
    { refl := prepared_coherent.refl
      trans := prepared_coherent.trans
      stable := prepared_coherent.stable
      handlers := fun q _ _ _ _ => handle_safe q
      keep := fun ev hev _ _ _ _ _ _ => ⟨trivial, fun _ => (call_step hev).owns, trivial⟩ }
  obtain ⟨-, hrun⟩ := hlawful.sound trivial h
  apply hrun.weaken
  intro ev hev hholds
  have hbase : ev.base = ev.before := hev.current rfl
  exact ⟨hholds.1, hbase ▸ hholds.2.pre, call_step hev⟩

/-- Every client has a default in every state reached exactly if no default is ever withdrawn. -/
theorem one_default_iff (h : Run machine Store.empty P log s) :
    (∀ later earlier, log = later ++ earlier → AllKept (leaves Store.empty earlier)) ↔
      ∀ ev ∈ log, ¬ ev.label.WithdrawsDefault ev.before := by
  constructor
  · rintro hkept ev hev ⟨id, clientId, hlabel, hdefault⟩
    obtain ⟨later, earlier, hlog⟩ := List.append_of_mem hev
    have hstep : CallStep ev.before ev.after (.withdraw id) := hlabel ▸ call_step (h.mem hev).1
    have hafter : AllKept ev.after := hkept (later ++ []) (ev :: earlier) (by simpa using hlog)
    have howns : Owns ev.before clientId := by
      obtain ⟨st, hst, hclient, -⟩ := hdefault
      exact ⟨id, st, hst, hclient⟩
    obtain ⟨id', hid'⟩ := kept_iff.mp (hafter clientId (hstep.owns howns))
    exact hstep.lapses hdefault id' hid'
  · intro hnot later earlier hlog
    induction earlier generalizing later with
    | nil =>
        rintro clientId ⟨id, st, hst, -⟩
        cases hst
    | cons ev earlier ih =>
        have hlog' : log = (later ++ [ev]) ++ earlier := by simpa using hlog
        have hbefore : AllKept (leaves Store.empty earlier) := ih _ hlog'
        have hmem : ev ∈ log := by
          rw [hlog]
          simp
        obtain ⟨-, ⟨-, hready, hstep⟩, s', hrun, hstore⟩ := (run_steps (hlog ▸ h)).upTo
        rw [← hrun.leaves, hstore] at hbefore
        exact hstep.allKept hbefore hready (hnot ev hmem)

end run
namespace Sample

def dto : StationDto where
  regionCode := 1
  governorateCode := 1
  location := ⟨0, 0⟩

/-- Client 20 has station 100, which is the default, and station 101. -/
def two : List (Act Request) :=
  serving (Request.create 20 10 dto) 0 3 100 ++ serving (Request.create 20 10 dto) 1 3 101

def returned (t : Thread Doc Call.Reply HttpError Answer) : Bool :=
  t.prog matches .pure _

def removed : List (Act Request) := two ++ serving (Request.remove 101) 2 4

/-- Both stations are removed at once; each call has counted two. -/
def emptied : List (Act Request) :=
  two ++ [Act.arrive (Request.remove 100), .arrive (.remove 101), .step 2, .step 2, .step 3, .step 3,
    .step 2, .step 2, .step 2, .step 3, .step 3, .step 2, .step 2]

end Sample

theorem one_default_removed : ∃ log s, Run machine Store.empty (fun _ => True) log s ∧
    activeStations s.store.docs 20 ≠ [] ∧
    ((∀ later earlier, log = later ++ earlier → AllKept (leaves Store.empty earlier)) ↔
      ∀ ev ∈ log, ¬ ev.label.WithdrawsDefault ev.before) := by
  obtain ⟨log, s, hrun, htest⟩ := exists_run machine Store.empty (fun _ => True) Sample.removed
    (fun log s => log.length = 3 && (activeStations s.store.docs 20).length = 1)
    (by decide +kernel)
  refine ⟨log, s, hrun, fun hnil => ?_, one_default_iff hrun⟩
  rw [hnil] at htest
  simp at htest

/-- Every call has returned, and the client is left with no active station. -/
theorem stations_emptied : ¬ ∀ (log : List (Event Doc Call.Reply))
    (s : Sys Doc Call.Reply HttpError Answer), Run machine Store.empty (fun _ => True) log s →
    (∀ t ∈ s.threads, ∃ a, t.prog = .pure a) → AllKept s.store := by
  intro hall
  obtain ⟨log, s, hrun, htest⟩ := exists_run machine Store.empty (fun _ => True) Sample.emptied
    (fun _ s => s.threads.all Sample.returned &&
      (activeStations s.store.docs 20).isEmpty &&
      (station s.store 100).any fun st => st.clientId = 20) (by decide +kernel)
  simp only [Bool.and_eq_true] at htest
  obtain ⟨⟨hreturned, hempty⟩, howned⟩ := htest
  obtain ⟨st, hst, hclient⟩ := (Option.any_eq_true _ _).mp howned
  have hpure : ∀ t ∈ s.threads, ∃ a, t.prog = .pure a := by
    intro t ht
    have hdone := List.all_eq_true.mp hreturned t ht
    unfold Sample.returned at hdone
    split at hdone
    · exact ⟨_, ‹_›⟩
    · cases hdone
  have hkept := hall log s hrun hpure 20 ⟨100, st, hst, of_decide_eq_true hclient⟩
  obtain ⟨id, x, hx, hxclient, hactive⟩ := hkept.active
  have hmem : (id, x) ∈ activeStations s.store.docs 20 := by
    apply List.mem_filterMap.mpr
    refine ⟨⟨Key.station id, x⟩, AList.mem_lookup_iff.mp hx, ?_⟩
    simp [hxclient, hactive]
  rw [List.isEmpty_iff.mp hempty] at hmem
  cases hmem

end CiroFuel.Stations
