import CiroFuel.Auth.Revocation
import CiroFuel.Snapshot.Clocked

/-!
# The cap on an administrator's sessions

The open sessions of an account are listed by age, and none is younger than the
snapshot of a sign-in: sorting the list together with the new session appends it.
What the cap then drops is a beginning of that list, and it is reported by name.
-/
namespace CiroFuel.Auth
open Snapshot

/-- The sessions that a sign-in reports as evicted. -/
def Call.evicted : (c : Call) → c.Reply → List String
  | .adminLogin .., sids => sids
  | .signInByCode .., sids => sids
  | _, _ => []

/-- The call ends the session of its own token. -/
def Call.Closes (id : Id) (sid : String) : Call → Prop
  | .signOut actor => actor.userId = id ∧ actor.closes = some sid
  | _ => False

/-! ### Keeping the youngest -/

section kept
variable {cap : ℕ} {merged : List ActiveSession}

theorem length_kept : (keptSessions cap merged).length = min cap merged.length := by
  rw [keptSessions, List.length_drop]
  omega

/-- What is not kept is a beginning of the list. -/
theorem dropped_append_kept :
    merged.take (merged.length - cap) ++ keptSessions cap merged = merged :=
  List.take_append_drop _ _

/-- A cap of at least one keeps the last session of the list. -/
theorem newest_kept (hcap : 1 ≤ cap) (sessions : List ActiveSession) (x : ActiveSession) :
    x ∈ keptSessions cap (sessions ++ [x]) := by
  have hle : (sessions ++ [x]).length - cap ≤ sessions.length := by
    rw [List.length_append, List.length_singleton]
    omega
  rw [keptSessions, List.drop_append_of_le_length hle]
  exact List.mem_append_right _ (List.mem_singleton_self x)

/-- If every session has its own name, the dropped ones are reported. -/
theorem evictedSids_eq (hnodup : (merged.map fun x => x.sid).Nodup) :
    evictedSids (keptSessions cap merged) merged =
      (merged.take (merged.length - cap)).map fun x => x.sid := by
  generalize hdropped : merged.take (merged.length - cap) = dropped
  generalize hkept : keptSessions cap merged = kept
  have hsplit : dropped ++ kept = merged := by
    rw [← hdropped, ← hkept]
    exact dropped_append_kept
  rw [← hsplit, List.map_append, List.nodup_append] at hnodup
  obtain ⟨-, -, hdisjoint⟩ := hnodup
  rw [evictedSids, ← hsplit, List.filter_append]
  have hall : dropped.filter (fun s => !(kept.map fun k => k.sid).contains s.sid) = dropped := by
    apply List.filter_eq_self.mpr
    intro x hx
    have hnot : x.sid ∉ kept.map fun k => k.sid := fun hmem =>
      hdisjoint _ (List.mem_map_of_mem hx) _ hmem rfl
    simpa using hnot
  have hnone : kept.filter (fun s => !(kept.map fun k => k.sid).contains s.sid) = [] := by
    apply List.filter_eq_nil_iff.mpr
    intro x hx
    have hmem : x.sid ∈ kept.map fun k => k.sid := List.mem_map_of_mem hx
    simpa using hmem
  rw [hall, hnone, List.append_nil]

end kept

/-- The sessions of an account are listed by age, and none is from the future. -/
structure User.ByAge (u : User) (now : Instant) : Prop where
  sorted : u.activeSessions.Pairwise fun a b => a.createdAt ≤ b.createdAt
  past : ∀ x ∈ u.activeSessions, x.createdAt ≤ now

section byAge
variable {u : User} {now now' : Instant} {sid : String}

theorem User.ByAge.mono (h : u.ByAge now) (hle : now ≤ now') : u.ByAge now' :=
  ⟨h.sorted, fun x hx => (h.past x hx).trans hle⟩

theorem User.ByAge.append (h : u.ByAge now) :
    List.Pairwise (fun a b : ActiveSession => a.createdAt ≤ b.createdAt)
      (u.activeSessions ++ [⟨sid, now⟩]) := by
  rw [List.pairwise_append]
  refine ⟨h.sorted, List.pairwise_singleton _ _, fun x hx y hy => ?_⟩
  rw [List.mem_singleton.mp hy]
  exact h.past x hx

/-- Sorting only appends the new session. -/
theorem User.ByAge.merged (h : u.ByAge now) :
    u.merged sid now = u.activeSessions ++ [⟨sid, now⟩] := by
  unfold User.merged
  apply List.Pairwise.insertionSort_eq
  exact h.append

theorem AccountStep.byAge {time : ℕ → Instant} {c : Call} {id : Id} {o o' : Option User}
    (h : AccountStep time c id o o') (hold : ∀ u, o = some u → u.ByAge now')
    (hopened : ∀ u i sid cap, o = some u → c.opens = some (id, sid, cap) →
      u.ByAge (time i) ∧ time i ≤ now') {u' : User} (hu' : o' = some u') : u'.ByAge now' := by
  have none_open : ∀ {u : User}, u.activeSessions = [] → u.ByAge now' := by
    intro u hnil
    constructor
    · rw [hnil]
      exact List.Pairwise.nil
    · intro x hx
      rw [hnil] at hx
      cases hx
  cases h with
  | same => exact hold u' hu'
  | created data passwordHash =>
      cases hu'
      exact none_open rfl
  | activated u =>
      cases hu'
      exact ⟨(hold u rfl).sorted, (hold u rfl).past⟩
  | deactivated u =>
      cases hu'
      exact none_open rfl
  | released u =>
      cases hu'
      exact none_open rfl
  | ended u =>
      cases hu'
      exact none_open rfl
  | closed u =>
      cases hu'
      exact ⟨(hold u rfl).sorted.filter _, fun x hx => (hold u rfl).past x (List.mem_filter.mp hx).1⟩
  | reset u =>
      cases hu'
      exact none_open rfl
  | @opened u sid cap i hcall =>
      cases hu'
      obtain ⟨hage, hle⟩ := hopened u i sid cap rfl hcall
      constructor
      · change (keptSessions cap (u.merged sid (time i))).Pairwise _
        rw [hage.merged]
        exact hage.append.sublist (List.drop_sublist _ _)
      · intro x hx
        rcases User.mem_merged.mp (mem_of_kept hx) with hmem | rfl
        · exact (hage.past x hmem).trans hle
        · exact hle

end byAge

/-! ### Commits that open a session -/

section opening
variable {C : Crypto} {cfg : AuthConfig} {ev : Event Doc Call.Reply} {id : Id} {sid : String}
variable {cap : ℕ}

theorem opens_isolated (h : ev.label.opens = some (id, sid, cap)) :
    (machine C cfg).isolated ev.label = true := by
  obtain ⟨i, label, base, env, began, ended, reply, view, before, after⟩ := ev
  cases label <;> first | rfl | cases h

/-- A sign-in reads the list of its snapshot, which no other commit has changed. -/
theorem opening_commit (hev : ev.Sound (machine C cfg)) (holder : Store.Older ev.base ev.before)
    (h : ev.label.opens = some (id, sid, cap)) :
    ∃ u i, ev.base.account id = some u ∧ ev.before.account id = some u ∧
      ev.label.evicted ev.reply =
        evictedSids (keptSessions cap (u.merged sid (ev.env.time i))) (u.merged sid (ev.env.time i)) ∧
      ev.after.account id =
        some { u with activeSessions := keptSessions cap (u.merged sid (ev.env.time i)) } := by
  obtain ⟨i, label, base, env, began, ended, reply, view, before, after⟩ := ev
  cases label with
  | adminLogin dto user s n =>
      cases h
      obtain ⟨u, i, hu, hevicted, hself, hmem, -⟩ := openAudited_ok hev.ran
      obtain ⟨hbefore, hafter⟩ := hev.wrote holder hmem
      exact ⟨u, i, hu, hbefore.symm.trans hu, hevicted, hafter.trans hself⟩
  | signInByCode record user s n =>
      cases h
      obtain ⟨u, i, _, hu, hevicted, hself, hmem, -, -⟩ := consumeLoginCode_ok hev.ran
      obtain ⟨hbefore, hafter⟩ := hev.wrote holder hmem
      exact ⟨u, i, hu, hbefore.symm.trans hu, hevicted, hafter.trans hself⟩
  | _ => cases h

end opening

/-! ### Commits that end sessions -/

/-- The session is among the open ones of the account. -/
def OpenAt (s : Store Doc) (id : Id) (sid : String) : Prop :=
  ∃ u, s.account id = some u ∧ u.hasSession sid = true

section ending
variable {C : Crypto} {cfg : AuthConfig} {ev : Event Doc Call.Reply} {id : Id} {sid : String}

theorem User.hasSession_closeSession (u : User) (sid : String) :
    (u.closeSession sid).hasSession sid = false := by
  apply Bool.eq_false_iff.mpr
  intro hhas
  obtain ⟨x, hx, hsid⟩ := User.hasSession_iff.mp hhas
  have hkept := (List.mem_filter.mp hx).2
  simp [hsid] at hkept

theorem not_openAt {s : Store Doc} {u : User} (hu : s.account id = some u)
    (h : u.hasSession sid = false) : ¬ OpenAt s id sid := by
  rintro ⟨u', hu', hhas⟩
  cases hu.symm.trans hu'
  simp [h] at hhas

/-- A sign-out that closes a session leaves it closed. -/
theorem closing_commit (hev : ev.Sound (machine C cfg)) (holder : Store.Older ev.base ev.before)
    (h : ev.label.Closes id sid) : ¬ OpenAt ev.after id sid := by
  obtain ⟨i, label, base, env, began, ended, reply, view, before, after⟩ := ev
  cases label with
  | signOut actor =>
      obtain ⟨rfl, hcloses⟩ := h
      obtain ⟨u, -, hself, -⟩ := signOut_ok hev.ran
      obtain ⟨-, hafter⟩ := hev.wrote holder (signOut_writes actor _ _ _ _ hev.ran)
      rw [hcloses] at hself
      exact not_openAt (hafter.trans hself) (u.hasSession_closeSession sid)
  | _ => cases h

/-- A call that ends the sessions of an account leaves none open. -/
theorem revoking_commit (hev : ev.Sound (machine C cfg)) (holder : Store.Older ev.base ev.before)
    (h : ev.label.EndsAll id) (sid : String) : ¬ OpenAt ev.after id sid := by
  obtain ⟨i, label, base, env, began, ended, reply, view, before, after⟩ := ev
  cases label with
  | deactivate acting userId =>
      cases h
      obtain ⟨u, -, hself | hself, -⟩ := deactivateUser_ok hev.ran
      all_goals
        obtain ⟨-, hafter⟩ := hev.wrote holder (deactivateUser_writes acting _ _ _ _ hev.ran)
        exact not_openAt (hafter.trans hself) rfl
  | mobileLogin dto user =>
      cases h
      obtain ⟨u, -, -, hself, -⟩ := displaceSessions_ok hev.ran
      obtain ⟨-, hafter⟩ := hev.wrote holder (displaceSessions_writes user _ _ _ _ hev.ran)
      exact not_openAt (hafter.trans hself) rfl
  | signOut actor =>
      obtain ⟨rfl, hcloses⟩ := h
      obtain ⟨u, -, hself, -⟩ := signOut_ok hev.ran
      obtain ⟨-, hafter⟩ := hev.wrote holder (signOut_writes actor _ _ _ _ hev.ran)
      rw [hcloses] at hself
      exact not_openAt (hafter.trans hself) rfl
  | complete resetToken record passwordHash =>
      cases h
      obtain ⟨u, t, -, hself, -, -⟩ := completeReset_ok hev.ran
      obtain ⟨-, hafter⟩ :=
        hev.wrote holder (completeReset_writes record passwordHash _ _ _ _ hev.ran)
      exact not_openAt (hafter.trans hself) rfl
  | _ => cases h

end ending

/-- A new name keeps the names of the listed sessions apart. -/
theorem User.merged_nodup {u : User} {sid : String} {now : Instant}
    (hnodup : (u.activeSessions.map fun x => x.sid).Nodup)
    (hfresh : sid ∉ u.activeSessions.map fun x => x.sid) :
    ((u.merged sid now).map fun x => x.sid).Nodup := by
  have hperm : ((u.merged sid now).map fun x => x.sid).Perm
      (List.map (fun x : ActiveSession => x.sid) (u.activeSessions ++ [⟨sid, now⟩])) :=
    (List.perm_insertionSort _ _).map _
  rw [hperm.nodup_iff, List.map_append, List.nodup_append]
  refine ⟨hnodup, List.nodup_singleton _, fun name hname name' hname' => ?_⟩
  rw [List.mem_singleton.mp hname']
  rintro rfl
  exact hfresh hname

/-- Every account lists its sessions by age. -/
def AllByAge (s : Store Doc) (now : ℕ) : Prop := ∀ id u, s.account id = some u → u.ByAge now

/-- Every open session was opened by a sign-in, and no two have one name. -/
def AllOpened (log : List (Event Doc Call.Reply)) (s : Store Doc) : Prop :=
  ∀ id u, s.account id = some u → (u.activeSessions.map fun x => x.sid).Nodup ∧
    ∀ x ∈ u.activeSessions, ∃ ev ∈ log, openedSid ev = some x.sid

/-- A name that no sign-in of the log drew is not listed. -/
theorem AllOpened.fresh {log : List (Event Doc Call.Reply)} {s : Store Doc} (h : AllOpened log s)
    {id : Id} {u : User} (hu : s.account id = some u) {sid : String}
    (hnew : ∀ ev ∈ log, openedSid ev ≠ some sid) : sid ∉ u.activeSessions.map fun x => x.sid := by
  intro hmem
  obtain ⟨x, hx, rfl⟩ := List.mem_map.mp hmem
  obtain ⟨ev, hev, hopened⟩ := (h id u hu).2 x hx
  exact hnew ev hev hopened

theorem openedSid_of_opens {ev : Event Doc Call.Reply} {id : Id} {sid : String} {cap : ℕ}
    (h : ev.label.opens = some (id, sid, cap)) : openedSid ev = some sid := by
  rw [openedSid, h]
  rfl

/-- A sign-in draws a name that no earlier one drew. -/
theorem DistinctSids.new {log : List (Event Doc Call.Reply)} {ev : Event Doc Call.Reply}
    (h : DistinctSids (ev :: log)) {id : Id} {sid : String} {cap : ℕ}
    (hopens : ev.label.opens = some (id, sid, cap)) : ∀ ev' ∈ log, openedSid ev' ≠ some sid := by
  intro ev' hev' hsame
  have hsplit : DistinctSids ([ev] ++ log) := h
  exact hsplit.later hev' List.mem_cons_self hsame (openedSid_of_opens hopens)

section runs
variable {C : Crypto} {cfg : AuthConfig} {P : Event Doc Call.Reply → Prop}
variable {log later earlier : List (Event Doc Call.Reply)} {ev : Event Doc Call.Reply}
variable {s : Sys Doc Call.Reply HttpError Answer}

/-- What a sign-in finds of the account on its snapshot. -/
structure Timely (C : Crypto) (cfg : AuthConfig) (ev : Event Doc Call.Reply) : Prop where
  ordered : ev.began ≤ ev.ended
  snapshot : (machine C cfg).isolated ev.label = true → AllByAge ev.base ev.began

theorem timely (h : Run (machine C cfg) Store.empty P log s) :
    Run (machine C cfg) Store.empty (fun ev => (P ev ∧ Known C cfg ev) ∧ Timely C cfg ev) log s := by
  have htimed := (known h).timed AllByAge
    (fun s c c' hs hle id u hu => (hs id u hu).mono hle)
    (fun id u hu => by simp [Store.account] at hu)
    (fun ev hsound hP hbase hbefore hle hiso id u' hu' => ?_)
  · exact htimed.2.weaken fun ev _ hev => ⟨hev.1, hev.2.1, hev.2.2⟩
  · apply (account_step hsound hP.2.older id).byAge (hbefore id) ?_ hu'
    intro u i sid cap hu hopens
    obtain ⟨-, hwithin⟩ := hsound.clock
    obtain ⟨u₀, -, hu₀, hu₁, -⟩ := opening_commit hsound hP.2.older hopens
    cases hu.symm.trans hu₁
    have hage := hiso (opens_isolated hopens) id u hu₀
    exact ⟨hage.mono (hwithin i).1, (hwithin i).2⟩

/-- Opening a session under a new name keeps names apart. -/
theorem commit_opened (hev : ev.Sound (machine C cfg)) (hknown : Known C cfg ev)
    (hdistinct : DistinctSids (ev :: log)) (h : AllOpened log ev.before) :
    AllOpened (ev :: log) ev.after := by
  intro id u' hu'
  have hstep := account_step hev hknown.older id
  constructor
  · generalize hb : ev.before.account id = o at hstep
    generalize ha : ev.after.account id = o' at hstep
    rw [ha] at hu'
    have hold : ∀ u, o = some u → (u.activeSessions.map fun x => x.sid).Nodup :=
      fun u hu => (h id u (hb.trans hu)).1
    cases hstep with
    | same => exact hold u' hu'
    | activated u =>
        cases hu'
        exact hold u rfl
    | closed u =>
        cases hu'
        exact (hold u rfl).sublist ((List.filter_sublist).map _)
    | @opened u sid cap i hcall =>
        cases hu'
        have hmerged : ((u.merged sid (ev.env.time i)).map fun x => x.sid).Nodup :=
          User.merged_nodup (hold u rfl) (h.fresh hb (hdistinct.new hcall))
        exact hmerged.sublist ((List.drop_sublist _ _).map _)
    | _ =>
        cases hu'
        exact List.nodup_nil
  · intro x hx
    rcases hstep.session hu' hx with ⟨u, hu, hold⟩ | ⟨i, cap, hcall, -⟩
    · obtain ⟨ev', hev', hopened⟩ := (h id u hu).2 x hold
      exact ⟨ev', List.mem_cons_of_mem _ hev', hopened⟩
    · exact ⟨ev, List.mem_cons_self, openedSid_of_opens hcall⟩

theorem all_opened (h : Run (machine C cfg) Store.empty P log s) (hdistinct : DistinctSids log) :
    AllOpened log s.store := by
  have hall := (known h).logged (J := fun log store => DistinctSids log → AllOpened log store)
    (fun _ id u hu => by simp [Store.account] at hu)
    (fun log ev hsound hP ih hd => commit_opened hsound hP.2 hd (ih ?_))
  · exact hall hdistinct
  · rw [DistinctSids, List.filterMap_cons] at hd
    split at hd
    · exact hd
    · exact (List.nodup_cons.mp hd).2

/-- What a sign-in does to the sessions of an administrator. -/
structure Opening (ev : Event Doc Call.Reply) (id : Id) (sid : String) (cap : ℕ) (u u' : User)
    (dropped : List ActiveSession) (now : Instant) : Prop where
  before : ev.before.account id = some u
  after : ev.after.account id = some u'
  capped : u'.activeSessions.length ≤ cap
  present : u'.hasSession sid = true
  split : u.activeSessions ++ [⟨sid, now⟩] = dropped ++ u'.activeSessions
  needed : dropped.length = u.activeSessions.length + 1 - cap
  oldest : ∀ x ∈ dropped, ∀ y ∈ u'.activeSessions, x.createdAt ≤ y.createdAt
  reported : ev.label.evicted ev.reply = dropped.map fun x => x.sid

/-- The sign-in drops what the cap does not allow, oldest first, and reports it. -/
theorem opening (hev : ev.Sound (machine C cfg)) (hknown : Known C cfg ev)
    (htimely : Timely C cfg ev) {id : Id} {sid : String} {cap : ℕ} (hcap : 1 ≤ cap)
    (hopens : ev.label.opens = some (id, sid, cap)) (hopened : AllOpened log ev.before)
    (hnew : ∀ ev' ∈ log, openedSid ev' ≠ some sid) :
    ∃ u u' dropped now, Opening ev id sid cap u u' dropped now := by
  obtain ⟨u, i, hbase, hbefore, hevicted, hafter⟩ := opening_commit hev hknown.older hopens
  obtain ⟨-, hwithin⟩ := hev.clock
  have hage : u.ByAge (ev.env.time i) :=
    (htimely.snapshot (opens_isolated hopens) id u hbase).mono (hwithin i).1
  have hmerged : u.merged sid (ev.env.time i) = u.activeSessions ++ [⟨sid, ev.env.time i⟩] :=
    hage.merged
  have hnames : ((u.merged sid (ev.env.time i)).map fun x => x.sid).Nodup :=
    User.merged_nodup (hopened id u hbefore).1 (hopened.fresh hbefore hnew)
  generalize hall : u.merged sid (ev.env.time i) = merged at hmerged hnames hevicted hafter
  have hlength : merged.length = u.activeSessions.length + 1 := by
    rw [hmerged, List.length_append, List.length_singleton]
  have hsorted : (merged.take (merged.length - cap) ++ keptSessions cap merged).Pairwise
      fun a b => a.createdAt ≤ b.createdAt := by
    rw [dropped_append_kept, hmerged]
    exact hage.append
  refine ⟨u, { u with activeSessions := keptSessions cap merged },
    merged.take (merged.length - cap), ev.env.time i, ?_⟩
  constructor
  · exact hbefore
  · exact hafter
  · change (keptSessions cap merged).length ≤ cap
    rw [length_kept]
    omega
  · apply User.hasSession_iff.mpr
    refine ⟨⟨sid, ev.env.time i⟩, ?_, rfl⟩
    change _ ∈ keptSessions cap merged
    rw [hmerged]
    exact newest_kept hcap _ _
  · rw [← hmerged]
    exact dropped_append_kept.symm
  · rw [List.length_take, hlength]
    omega
  · intro x hx y hy
    exact (List.pairwise_append.mp hsorted).2.2 x hx y hy
  · rw [hevicted, evictedSids_eq hnames]

/-- What becomes of an open session in a commit. -/
inductive Fate (ev : Event Doc Call.Reply) (id : Id) (x : ActiveSession) (u u' : User) : Prop where
  | kept (h : x ∈ u'.activeSessions)
  | closed (h : ev.label.Closes id x.sid)
  | revoked (h : ev.label.EndsAll id) (hgeneration : u'.generation = u.generation + 1)
      (hnone : u'.activeSessions = [])
  | evicted (h : x.sid ∈ ev.label.evicted ev.reply)

/-- No session is lost silently. -/
theorem accounted (hev : ev.Sound (machine C cfg)) (hknown : Known C cfg ev)
    (hdistinct : DistinctSids (ev :: log)) (hopened : AllOpened log ev.before) {id : Id} {u : User}
    (hu : ev.before.account id = some u) {x : ActiveSession} (hx : x ∈ u.activeSessions) :
    ∃ u', ev.after.account id = some u' ∧ Fate ev id x u u' := by
  have hstep := account_step hev hknown.older id
  obtain ⟨u', hu', -⟩ := hknown.onward id u hu
  refine ⟨u', hu', ?_⟩
  rw [hu, hu'] at hstep
  generalize hw : u' = w at hstep
  cases hstep with
  | same => exact .kept (hw ▸ hx)
  | activated => exact .kept hx
  | deactivated _ hcall => exact .revoked hcall rfl rfl
  | released _ hcall => exact .revoked hcall rfl rfl
  | ended _ cause hcall => exact .revoked hcall rfl rfl
  | @closed _ actor sid hcall hsid hid =>
      by_cases hsame : x.sid = sid
      · apply Fate.closed
        rw [hcall, hsame]
        exact ⟨hid, hsid⟩
      · exact .kept (List.mem_filter.mpr ⟨hx, by simpa using hsame⟩)
  | reset _ hcall hid =>
      refine .revoked ?_ rfl rfl
      rw [hcall]
      exact hid
  | @opened _ sid cap i hcall =>
      obtain ⟨u₀, j, -, hbefore, hevicted, hafter⟩ := opening_commit hev hknown.older hcall
      cases hu.symm.trans hbefore
      have hnames : ((u.merged sid (ev.env.time j)).map fun x => x.sid).Nodup :=
        User.merged_nodup (hopened id u hu).1 (hopened.fresh hu (hdistinct.new hcall))
      generalize hall : u.merged sid (ev.env.time j) = merged at hnames hevicted hafter
      have hmem : x ∈ merged.take (merged.length - cap) ++ keptSessions cap merged := by
        rw [dropped_append_kept, ← hall]
        exact User.mem_merged.mpr (Or.inl hx)
      rcases List.mem_append.mp hmem with hdropped | hkept
      · apply Fate.evicted
        rw [hevicted, evictedSids_eq hnames]
        exact List.mem_map_of_mem hdropped
      · apply Fate.kept
        rw [← hw, Option.some.inj (hu'.symm.trans hafter)]
        exact hkept

end runs

/-- An administrator never has more sessions than the cap allows once one has been
opened, every session is accounted for, a call that closes sessions leaves them
closed, and none that has been closed reappears. -/
theorem session_cap (C : Crypto) (cfg : AuthConfig) (P : Event Doc Call.Reply → Prop)
    {log : List (Event Doc Call.Reply)} {s : Sys Doc Call.Reply HttpError Answer}
    (h : Run (machine C cfg) Store.empty P log s) (hdistinct : DistinctSids log) :
    (∀ ev ∈ log, ∀ id sid cap, ev.label.opens = some (id, sid, cap) → 1 ≤ cap →
      ∃ u u' dropped now, Opening ev id sid cap u u' dropped now) ∧
    (∀ ev ∈ log, ∀ id u x, ev.before.account id = some u → x ∈ u.activeSessions →
      ∃ u', ev.after.account id = some u' ∧ Fate ev id x u u') ∧
    (∀ ev ∈ log, ∀ id sid, ev.label.Closes id sid → ¬ OpenAt ev.after id sid) ∧
    (∀ ev ∈ log, ∀ id, ev.label.EndsAll id → ∀ sid, ¬ OpenAt ev.after id sid) ∧
    ∀ later earlier, log = later ++ earlier → ∀ ev ∈ earlier, ∀ id sid cap,
      ev.label.opens = some (id, sid, cap) → ¬ OpenAt (leaves Store.empty earlier) id sid →
      ¬ OpenAt s.store id sid := by
  -- What is known at a commit, with the log before it.
  have hat : ∀ ev ∈ log, ∃ earlier, ev.Sound (machine C cfg) ∧ Known C cfg ev ∧
      Timely C cfg ev ∧ DistinctSids (ev :: earlier) ∧ AllOpened earlier ev.before := by
    intro ev hev
    obtain ⟨later, earlier, rfl⟩ := List.append_of_mem hev
    obtain ⟨hsound, hP, s', hrun, hbefore⟩ := (timely h).upTo
    have hsplit : DistinctSids (ev :: earlier) := by
      rw [DistinctSids, List.filterMap_append] at hdistinct
      exact (List.nodup_append.mp hdistinct).2.1
    have hearlier : DistinctSids earlier := by
      have hsub : (earlier.filterMap openedSid).Sublist ((ev :: earlier).filterMap openedSid) :=
        (List.sublist_cons_self ev earlier).filterMap openedSid
      exact List.Nodup.sublist hsub hsplit
    refine ⟨earlier, hsound, hP.1.2, hP.2, hsplit, ?_⟩
    rw [← hbefore]
    exact all_opened hrun hearlier
  refine ⟨fun ev hev id sid cap hopens hcap => ?_, fun ev hev id u x hu hx => ?_,
    fun ev hev id sid hcloses => ?_, fun ev hev id hends sid => ?_, ?_⟩
  · obtain ⟨earlier, hsound, hknown, htimely, hsplit, hopened⟩ := hat ev hev
    exact opening hsound hknown htimely hcap hopens hopened (hsplit.new hopens)
  · obtain ⟨earlier, hsound, hknown, -, hsplit, hopened⟩ := hat ev hev
    exact accounted hsound hknown hsplit hopened hu hx
  · obtain ⟨earlier, hsound, hknown, -⟩ := hat ev hev
    exact closing_commit hsound hknown.older hcloses
  · obtain ⟨earlier, hsound, hknown, -⟩ := hat ev hev
    exact revoking_commit hsound hknown.older hends sid
  · rintro later earlier rfl opening hopening id sid cap hopens hclosed
    apply (known h).since (J := fun store => ¬ OpenAt store id sid) hclosed
    intro ev hev hsound hP hshut hopen
    obtain ⟨u', hu', hhas⟩ := hopen
    obtain ⟨x, hx, rfl⟩ := User.hasSession_iff.mp hhas
    rcases (account_step hsound hP.2.older id).session hu' hx with ⟨u, hu, hold⟩ | ⟨i, n, hcall, -⟩
    · exact hshut ⟨u, hu, User.hasSession_iff.mpr ⟨x, hold, rfl⟩⟩
    · exact hdistinct.later hopening hev (openedSid_of_opens hopens) (openedSid_of_opens hcall)

namespace Sample

/-- An administrator who may have one session signs in twice. -/
def signsInTwice : List (Act Request) :=
  serving (Request.createUser admin "secret" "") 0 2 10 ++ serving (adminLogin "first") 1 4 20 ++
    serving (adminLogin "second") 2 4 30

end Sample

theorem session_cap_signsInTwice : ∃ log s ev u u' dropped now,
    Run (machine Sample.crypto { maxAdminSessions := some 1 }) Store.empty (fun _ => True) log s ∧
      ev ∈ log ∧ Opening ev 10 "second" 1 u u' dropped now ∧ dropped.length = 1 := by
  obtain ⟨log, s, hrun, htest⟩ := exists_run
    (machine Sample.crypto { maxAdminSessions := some 1 }) Store.empty (fun _ => True)
    Sample.signsInTwice
    (fun log _ => decide (DistinctSids log) && log.any fun ev =>
      decide (ev.label.opens = some (10, "second", 1)) &&
        (ev.before.account 10).any fun u => u.activeSessions.length = 1) (by decide +kernel)
  simp only [Bool.and_eq_true, decide_eq_true_eq, List.any_eq_true, Option.any_eq_true] at htest
  obtain ⟨hdistinct, ev, hev, hopens, u₀, hu₀, hone⟩ := htest
  obtain ⟨hopening, -⟩ := session_cap _ _ _ hrun hdistinct
  obtain ⟨u, u', dropped, now, hsplit⟩ := hopening ev hev 10 "second" 1 hopens le_rfl
  cases hu₀.symm.trans hsplit.before
  refine ⟨log, s, ev, u₀, u', dropped, now, hrun, hev, hsplit, ?_⟩
  rw [hsplit.needed, hone]

end CiroFuel.Auth
