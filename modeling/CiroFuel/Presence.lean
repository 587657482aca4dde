import CiroFuel.Movement
import Mathlib.Algebra.Order.Group.Int
import Mathlib.Algebra.Order.Group.Abs
import Mathlib.Logic.Relation

/-!
# Drivers on duty

A driver is online once heard of, and offline after too long a silence. The instants are
read off the clocks of the instances, which may be apart; an update is written some time
after its instant is read, or never; and sweeps overlap. None of this tells more than twice
the skew of the clocks.
-/
namespace CiroFuel.Presence
open Movement

structure Config where
  offlineThresholdMinutes : Option ℤ := none

def Config.thresholdMs (cfg : Config) : ℤ := cfg.offlineThresholdMinutes.getD 6 * 60000

/-- What a socket says: that it is there, or where its driver is. -/
inductive Contact (P : Type) where
  | connected (userId : Id) (role : UserRole)
  | frame (f : Frame P)

section service
variable {P : Type}

/-- The driver whose presence a connection touches. -/
def handleConnection (userId : Id) (role : UserRole) : Option Id :=
  if role = .driver then some userId else none

/-- A frame touches the presence of its driver, if the device is not displaced. -/
def frameTouches (frame : Frame P) (fleet : Fleet P) : Option Id :=
  if frame.role ≠ .driver then none
  else (fleet frame.userId).bind fun driver =>
    if frame.sgen.getD 0 ≠ driver.sessionGeneration.getD 0 then none else some frame.userId

def Contact.touches (fleet : Fleet P) : Contact P → Option Id
  | .connected userId role => handleConnection userId role
  | .frame f => frameTouches f fleet

/-- The filter of `markSilentDriversOffline`; every driver of the fleet has the role. -/
def silent (cutoff : ℤ) (d : Driver P) : Bool :=
  d.isOnline && d.lastSeenAt.any fun seen => seen < cutoff

/-- One document of its `updateMany`. -/
def markOffline (fleet : Fleet P) (id : Id) (cutoff : ℤ) : Fleet P :=
  fleet.modify id fun d => if silent cutoff d then { d with isOnline := false } else d

end service

/-! ### Instances -/

/-- A call of `touch`: the instant that was read, and when. -/
structure Touch where
  driverId : Id
  stamp : ℤ
  heardAt : ℤ

/-- A call of `markSilentDriversOffline`. -/
structure Sweep where
  cutoff : ℤ
  begunAt : ℤ
  completed : Bool := false

/-- The last touch of a driver that was written, and how many sweeps had begun by then. -/
structure Heard extends Touch where
  sweepsBegun : ℕ

structure State (P : Type) where
  fleet : Fleet P := fun _ => none
  now : ℤ := 0
  touches : List Touch := []
  sweeps : List Sweep := []
  heard : Id → Option Heard := fun _ => none

section steps
variable {P : Type}

/-- The update of a touch; it finds the driver, or nothing. -/
def State.write (s : State P) (touch : Touch) : State P :=
  { s with
    fleet := Movement.touch s.fleet touch.driverId touch.stamp
    heard := if (s.fleet touch.driverId).isSome then
      Function.update s.heard touch.driverId (some { touch with sweepsBegun := s.sweeps.length })
      else s.heard }

/-- What happens on any of the instances, whose clocks are at most `ε` from the time. -/
inductive Step (cfg : Config) (ε : ℤ) (s : State P) : State P → Prop where
  | passes {now : ℤ} (hlater : s.now ≤ now) : Step cfg ε s { s with now := now }
  | enrolled {id : Id} {d : Driver P} (hnew : s.fleet id = none) (hduty : d.toDuty = {}) :
      Step cfg ε s { s with fleet := Function.update s.fleet id (some d) }
  | edited {id : Id} {f : Driver P → Driver P} (honline : ∀ d, (f d).isOnline = d.isOnline)
      (hseen : ∀ d, (f d).lastSeenAt = d.lastSeenAt) :
      Step cfg ε s { s with fleet := s.fleet.modify id f }
  | hears {contact : Contact P} {id : Id} {reading : ℤ}
      (hcontact : contact.touches s.fleet = some id) (hclock : |reading - s.now| ≤ ε) :
      Step cfg ε s { s with touches := s.touches ++ [⟨id, reading, s.now⟩] }
  | writes {i : ℕ} {touch : Touch} (htouch : s.touches[i]? = some touch) :
      Step cfg ε s { s.write touch with touches := s.touches.eraseIdx i }
  | loses {i : ℕ} : Step cfg ε s { s with touches := s.touches.eraseIdx i }
  | sweeps {reading : ℤ} (hclock : |reading - s.now| ≤ ε) :
      Step cfg ε s { s with sweeps := s.sweeps ++ [⟨reading - cfg.thresholdMs, s.now, false⟩] }
  | examines {j : ℕ} {sweep : Sweep} {id : Id} (hsweep : s.sweeps[j]? = some sweep) :
      Step cfg ε s { s with fleet := markOffline s.fleet id sweep.cutoff }
  -- a query finds what meets its filter from its start to its end
  | completes {j : ℕ} {sweep : Sweep} (hsweep : s.sweeps[j]? = some sweep)
      (hdone : ∀ id d h, s.fleet id = some d → s.heard id = some h → h.sweepsBegun ≤ j →
        silent sweep.cutoff d = false) :
      Step cfg ε s { s with sweeps := s.sweeps.set j { sweep with completed := true } }

abbrev Reaches (cfg : Config) (ε : ℤ) : State P → State P → Prop :=
  Relation.ReflTransGen (Step cfg ε)

end steps

/-! ### A frame in one go -/

section frames
variable {P D : Type} [LinearOrder D] [NatCast D] {cfg : Movement.Config D} {dist : P → P → D}
variable {frame : Frame P} {fleet : Fleet P}

def presence (d : Driver P) : Bool × Option ℤ := (d.isOnline, d.lastSeenAt)

theorem modify_presence {f : Driver P → Driver P} (h : ∀ d, presence (f d) = presence d)
    (id id' : Id) : ((fleet.modify id f) id').map presence = (fleet id').map presence := by
  by_cases hid : id' = id
  · subst hid
    rw [modify_self, Option.map_map]
    exact congrArg (fun g => (fleet id').map g) (funext h)
  · rw [modify_other f hid]

/-- What a frame that is handled in one go does to presence is the touch, or nothing. -/
theorem locationUpdate_presence (id : Id) :
    ((locationUpdate cfg dist frame fleet).2.2 id).map presence =
      (((frameTouches frame fleet).elim fleet fun driver =>
        touch fleet driver frame.seenAt) id).map presence := by
  unfold locationUpdate frameTouches
  by_cases hrole : frame.role = .driver
  · rw [if_neg (not_not.mpr hrole), if_neg (not_not.mpr hrole)]
    cases hdriver : fleet frame.userId with
    | none => rfl
    | some driver =>
      dsimp only [Option.bind_some]
      split_ifs
      · rfl
      · rfl
      · rfl
      · exact modify_presence (f := fun d => d.record frame (hasMoved cfg dist driver frame))
          (fun _ => rfl) _ _
  · rw [if_pos hrole, if_pos hrole]
    rfl

end frames

/-! ### What is kept -/

section kept
variable {P : Type} {cfg : Config} {ε : ℤ} {s s' : State P}

/-- The document tells of the last touch that was written, and of the sweeps. -/
structure Tells (sweeps : List Sweep) (d : Driver P) (h : Heard) : Prop where
  seen : d.lastSeenAt = some h.stamp
  swept : d.isOnline = false → ∃ sweep ∈ sweeps, h.stamp < sweep.cutoff
  spared : d.isOnline = true → ∀ j sweep, sweeps[j]? = some sweep → h.sweepsBegun ≤ j →
    sweep.completed = true → sweep.cutoff ≤ h.stamp

structure Kept (cfg : Config) (ε : ℤ) (s : State P) : Prop where
  touched : ∀ touch ∈ s.touches, |touch.stamp - touch.heardAt| ≤ ε ∧ touch.heardAt ≤ s.now
  begun : ∀ sweep ∈ s.sweeps,
    |sweep.cutoff + cfg.thresholdMs - sweep.begunAt| ≤ ε ∧ sweep.begunAt ≤ s.now
  written : ∀ id h, s.heard id = some h → |h.stamp - h.heardAt| ≤ ε ∧ h.heardAt ≤ s.now ∧
    h.sweepsBegun ≤ s.sweeps.length ∧ s.fleet id ≠ none
  unheard : ∀ id d, s.fleet id = some d → s.heard id = none → presence d = (false, none)
  told : ∀ id d h, s.fleet id = some d → s.heard id = some h → Tells s.sweeps d h

theorem kept_start : Kept cfg ε ({} : State P) where
  touched := by simp
  begun := by simp
  written := by simp
  unheard := by simp
  told := by simp

theorem Tells.congr {sweeps : List Sweep} {d d' : Driver P} {h : Heard}
    (hd : presence d' = presence d) (htells : Tells sweeps d h) : Tells sweeps d' h := by
  obtain ⟨honline, hseen⟩ := Prod.mk.inj hd
  exact ⟨hseen.trans htells.seen, fun hoff => htells.swept (honline ▸ hoff),
    fun hon => htells.spared (honline ▸ hon)⟩

/-- What leaves presence, the sweeps and what was heard keeps all of it. -/
theorem Kept.congr (hkept : Kept cfg ε s) (hnow : s.now ≤ s'.now)
    (hfleet : ∀ id, (s'.fleet id).map presence = (s.fleet id).map presence)
    (htouches : ∀ touch ∈ s'.touches, |touch.stamp - touch.heardAt| ≤ ε ∧ touch.heardAt ≤ s'.now)
    (hsweeps : s'.sweeps = s.sweeps) (hheard : s'.heard = s.heard) : Kept cfg ε s' where
  touched := htouches
  begun sweep hsweep := by
    obtain ⟨hnear, hbegun⟩ := hkept.begun sweep (hsweeps ▸ hsweep)
    exact ⟨hnear, hbegun.trans hnow⟩
  written id h hh := by
    obtain ⟨hnear, hat, hbegun, hthere⟩ := hkept.written id h (hheard ▸ hh)
    refine ⟨hnear, hat.trans hnow, by rwa [hsweeps], fun hnone => hthere ?_⟩
    have := hfleet id
    rw [hnone] at this
    exact Option.map_eq_none_iff.mp this.symm
  unheard id d hd hh := by
    have := hfleet id
    rw [hd, Option.map_some] at this
    obtain ⟨d₀, hd₀, hsame⟩ := Option.map_eq_some_iff.mp this.symm
    exact hsame.symm.trans (hkept.unheard id d₀ hd₀ (hheard ▸ hh))
  told id d h hd hh := by
    have := hfleet id
    rw [hd, Option.map_some] at this
    obtain ⟨d₀, hd₀, hsame⟩ := Option.map_eq_some_iff.mp this.symm
    rw [hsweeps]
    exact (hkept.told id d₀ h hd₀ (hheard ▸ hh)).congr hsame.symm

theorem touched_later {now : ℤ} (hkept : Kept cfg ε s) (hnow : s.now ≤ now) :
    ∀ touch ∈ s.touches, |touch.stamp - touch.heardAt| ≤ ε ∧ touch.heardAt ≤ now := by
  intro touch htouch
  obtain ⟨hnear, hat⟩ := hkept.touched touch htouch
  exact ⟨hnear, hat.trans hnow⟩

theorem Kept.hears (hkept : Kept cfg ε s) {id : Id} {reading : ℤ}
    (hclock : |reading - s.now| ≤ ε) :
    Kept cfg ε { s with touches := s.touches ++ [⟨id, reading, s.now⟩] } := by
  refine hkept.congr le_rfl (fun _ => rfl) ?_ rfl rfl
  intro touch htouch
  rcases List.mem_append.mp htouch with hold | hnew
  · exact hkept.touched touch hold
  · obtain rfl := List.mem_singleton.mp hnew
    exact ⟨hclock, le_rfl⟩

theorem Kept.loses (hkept : Kept cfg ε s) (i : ℕ) :
    Kept cfg ε { s with touches := s.touches.eraseIdx i } :=
  hkept.congr le_rfl (fun _ => rfl)
    (fun touch htouch => hkept.touched touch (List.mem_of_mem_eraseIdx htouch)) rfl rfl

theorem Kept.enrolled (hkept : Kept cfg ε s) {id : Id} {d : Driver P} (hnew : s.fleet id = none)
    (hduty : d.toDuty = {}) : Kept cfg ε { s with fleet := Function.update s.fleet id (some d) } := by
  have hother : ∀ id', id' ≠ id → Function.update s.fleet id (some d) id' = s.fleet id' :=
    fun id' hid => Function.update_of_ne hid _ _
  have hsilent : s.heard id = none := by
    by_contra hheard
    obtain ⟨h, hh⟩ := Option.ne_none_iff_exists'.mp hheard
    exact (hkept.written id h hh).2.2.2 hnew
  refine ⟨hkept.touched, hkept.begun, fun id' h hh => ?_, fun id' d' hd' hh => ?_,
    fun id' d' h hd' hh => ?_⟩
  · obtain ⟨hnear, hat, hbegun, hthere⟩ := hkept.written id' h hh
    refine ⟨hnear, hat, hbegun, ?_⟩
    have hid : id' ≠ id := fun heq => hthere (heq ▸ hnew)
    exact fun hnone => hthere ((hother id' hid).symm.trans hnone)
  · by_cases hid : id' = id
    · subst hid
      have hself : Function.update s.fleet id' (some d) id' = some d := Function.update_self _ _ _
      obtain rfl := Option.some.inj (hself.symm.trans hd')
      rw [presence, hduty]
    · exact hkept.unheard id' d' ((hother id' hid).symm.trans hd') hh
  · have hid : id' ≠ id := by
      rintro rfl
      rw [hsilent] at hh
      cases hh
    exact hkept.told id' d' h ((hother id' hid).symm.trans hd') hh

/-- With a touch a driver is online, and no sweep has begun since. -/
theorem tells_touch {sweeps : List Sweep} {touch : Touch} {d : Driver P} :
    Tells sweeps { d with isOnline := true, lastSeenAt := some touch.stamp }
      { touch with sweepsBegun := sweeps.length } where
  seen := rfl
  swept hoff := by cases hoff
  spared _ j sweep hj hbegun _ := by
    have := (List.getElem?_eq_some_iff.mp hj).1
    dsimp only at hbegun
    omega

theorem Kept.writes (hkept : Kept cfg ε s) {touch : Touch}
    (hnear : |touch.stamp - touch.heardAt| ≤ ε ∧ touch.heardAt ≤ s.now) :
    Kept cfg ε (s.write touch) := by
  cases hdriver : s.fleet touch.driverId with
  | none =>
    refine hkept.congr le_rfl (fun id => ?_) hkept.touched rfl ?_
    · by_cases hid : id = touch.driverId
      · subst hid
        simp [State.write, Movement.touch, hdriver]
      · simp [State.write, Movement.touch, hid]
    · simp [State.write, hdriver]
  | some d =>
    have hself : (s.write touch).fleet touch.driverId =
        some { d with isOnline := true, lastSeenAt := some touch.stamp } := by
      simp [State.write, Movement.touch, hdriver]
    have hother : ∀ id, id ≠ touch.driverId → (s.write touch).fleet id = s.fleet id :=
      fun id hid => modify_other _ hid
    have hheard : (s.write touch).heard = Function.update s.heard touch.driverId
        (some { touch with sweepsBegun := s.sweeps.length }) := by
      simp [State.write, hdriver]
    refine ⟨hkept.touched, hkept.begun, fun id h hh => ?_, fun id d' hd' hh => ?_,
      fun id d' h hd' hh => ?_⟩
    all_goals
      rw [hheard] at hh
      by_cases hid : id = touch.driverId
    · subst hid
      rw [Function.update_self] at hh
      obtain rfl := Option.some.inj hh
      exact ⟨hnear.1, hnear.2, le_rfl, by simp [hself]⟩
    · rw [Function.update_of_ne hid] at hh
      rw [hother id hid]
      exact hkept.written id h hh
    · subst hid
      rw [Function.update_self] at hh
      cases hh
    · rw [Function.update_of_ne hid] at hh
      exact hkept.unheard id d' ((hother id hid).symm.trans hd') hh
    · subst hid
      rw [Function.update_self] at hh
      obtain rfl := Option.some.inj hh
      obtain rfl := Option.some.inj (hself.symm.trans hd')
      exact tells_touch
    · rw [Function.update_of_ne hid] at hh
      exact hkept.told id d' h ((hother id hid).symm.trans hd') hh

theorem Kept.sweeps (hkept : Kept cfg ε s) {reading : ℤ} (hclock : |reading - s.now| ≤ ε) :
    Kept cfg ε { s with sweeps := s.sweeps ++ [⟨reading - cfg.thresholdMs, s.now, false⟩] } where
  touched := hkept.touched
  begun sweep hsweep := by
    rcases List.mem_append.mp hsweep with hold | hnew
    · exact hkept.begun sweep hold
    · obtain rfl := List.mem_singleton.mp hnew
      refine ⟨?_, le_rfl⟩
      dsimp only
      rwa [sub_add_cancel]
  written id h hh := by
    obtain ⟨hnear, hat, hbegun, hthere⟩ := hkept.written id h hh
    refine ⟨hnear, hat, hbegun.trans ?_, hthere⟩
    rw [List.length_append]
    exact Nat.le_add_right _ _
  unheard := hkept.unheard
  told id d h hd hh := by
    obtain ⟨hseen, hswept, hspared⟩ := hkept.told id d h hd hh
    refine ⟨hseen, fun hoff => ?_, fun hon j sweep hj hbegun hdone => ?_⟩
    · obtain ⟨sweep, hsweep, hpast⟩ := hswept hoff
      exact ⟨sweep, List.mem_append_left _ hsweep, hpast⟩
    · by_cases hlt : j < s.sweeps.length
      · rw [List.getElem?_append_left hlt] at hj
        exact hspared hon j sweep hj hbegun hdone
      · rw [List.getElem?_append_right (not_lt.mp hlt)] at hj
        obtain rfl := List.mem_singleton.mp (List.mem_of_getElem? hj)
        cases hdone

theorem silent_iff {cutoff : ℤ} {d : Driver P} :
    silent cutoff d = true ↔ d.isOnline = true ∧ ∃ seen, d.lastSeenAt = some seen ∧ seen < cutoff := by
  cases hseen : d.lastSeenAt <;> simp [silent, hseen]

/-- A document that is examined is the same, or was silent and is offline. -/
theorem markOffline_cases {fleet : Fleet P} {id id' : Id} {cutoff : ℤ} {d' : Driver P}
    (h : markOffline fleet id cutoff id' = some d') :
    fleet id' = some d' ∨ ∃ d, fleet id' = some d ∧ silent cutoff d = true ∧
      presence d' = (false, d.lastSeenAt) := by
  by_cases hid : id' = id
  · subst hid
    rw [markOffline, modify_self] at h
    obtain ⟨d, hd, rfl⟩ := Option.map_eq_some_iff.mp h
    by_cases hsilent : silent cutoff d = true
    · rw [if_pos hsilent]
      exact .inr ⟨d, hd, hsilent, rfl⟩
    · rw [if_neg hsilent]
      exact .inl hd
  · rw [markOffline, modify_other _ hid] at h
    exact .inl h

theorem markOffline_none {fleet : Fleet P} {id id' : Id} {cutoff : ℤ} :
    markOffline fleet id cutoff id' = none ↔ fleet id' = none := by
  by_cases hid : id' = id
  · subst hid
    rw [markOffline, modify_self, Option.map_eq_none_iff]
  · rw [markOffline, modify_other _ hid]

theorem Kept.examines (hkept : Kept cfg ε s) {j : ℕ} {sweep : Sweep} (id : Id)
    (hsweep : s.sweeps[j]? = some sweep) :
    Kept cfg ε { s with fleet := markOffline s.fleet id sweep.cutoff } where
  touched := hkept.touched
  begun := hkept.begun
  written id' h hh := by
    obtain ⟨hnear, hat, hbegun, hthere⟩ := hkept.written id' h hh
    exact ⟨hnear, hat, hbegun, fun hnone => hthere (markOffline_none.mp hnone)⟩
  unheard id' d' hd' hh := by
    rcases markOffline_cases hd' with hd | ⟨d, hd, hsilent, -⟩
    · exact hkept.unheard id' d' hd hh
    · have hoff : d.isOnline = false := congrArg Prod.fst (hkept.unheard id' d hd hh)
      rw [(silent_iff.mp hsilent).1] at hoff
      cases hoff
  told id' d' h hd' hh := by
    rcases markOffline_cases hd' with hd | ⟨d, hd, hsilent, hmarked⟩
    · exact hkept.told id' d' h hd hh
    · obtain ⟨hoff, hseen⟩ := Prod.mk.inj hmarked
      have hstamp : d.lastSeenAt = some h.stamp := (hkept.told id' d h hd hh).seen
      refine ⟨hseen.trans hstamp, fun _ => ?_, fun hon => ?_⟩
      · obtain ⟨-, seen, hseen, hpast⟩ := silent_iff.mp hsilent
        obtain rfl := Option.some.inj (hstamp.symm.trans hseen)
        exact ⟨sweep, List.mem_of_getElem? hsweep, hpast⟩
      · rw [hoff] at hon
        cases hon

theorem mem_completed {sweeps : List Sweep} {j : ℕ} {sweep sweep' : Sweep}
    (hsweep : sweeps[j]? = some sweep) (h : sweep' ∈ sweeps) :
    ∃ after ∈ sweeps.set j { sweep with completed := true }, after.cutoff = sweep'.cutoff := by
  obtain ⟨i, hi⟩ := List.getElem?_of_mem h
  by_cases hij : j = i
  · subst hij
    obtain rfl := Option.some.inj (hsweep.symm.trans hi)
    exact ⟨_, List.mem_set (List.getElem?_eq_some_iff.mp hi).1 _, rfl⟩
  · refine ⟨sweep', List.mem_of_getElem? (i := i) ?_, rfl⟩
    rwa [List.getElem?_set_ne hij]

/-- A sweep that is over has met all that was silent, except what was heard of since. -/
theorem Kept.completes (hkept : Kept cfg ε s) {j : ℕ} {sweep : Sweep}
    (hsweep : s.sweeps[j]? = some sweep)
    (hdone : ∀ id d h, s.fleet id = some d → s.heard id = some h → h.sweepsBegun ≤ j →
      silent sweep.cutoff d = false) :
    Kept cfg ε { s with sweeps := s.sweeps.set j { sweep with completed := true } } where
  touched := hkept.touched
  begun sweep' hsweep' := by
    rcases List.mem_or_eq_of_mem_set hsweep' with hold | rfl
    · exact hkept.begun sweep' hold
    · exact hkept.begun sweep (List.mem_of_getElem? hsweep)
  written id h hh := by
    rw [List.length_set]
    exact hkept.written id h hh
  unheard := hkept.unheard
  told id d h hd hh := by
    obtain ⟨hseen, hswept, hspared⟩ := hkept.told id d h hd hh
    refine ⟨hseen, fun hoff => ?_, fun hon i sweep' hi hbegun hcompleted => ?_⟩
    · obtain ⟨sweep', hsweep', hpast⟩ := hswept hoff
      obtain ⟨after, hafter, hcutoff⟩ := mem_completed hsweep hsweep'
      exact ⟨after, hafter, hcutoff ▸ hpast⟩
    · by_cases hij : j = i
      · subst hij
        rw [List.getElem?_set_self (List.getElem?_eq_some_iff.mp hsweep).1] at hi
        obtain rfl := Option.some.inj hi
        refine not_lt.mp fun hpast => ?_
        have hspoken := hdone id d h hd hh hbegun
        rw [silent_iff.mpr ⟨hon, h.stamp, hseen, hpast⟩] at hspoken
        cases hspoken
      · rw [List.getElem?_set_ne hij] at hi
        exact hspared hon i sweep' hi hbegun hcompleted

theorem Step.kept (h : Step cfg ε s s') (hkept : Kept cfg ε s) : Kept cfg ε s' := by
  cases h with
  | passes hlater =>
      exact hkept.congr hlater (fun _ => rfl) (touched_later (s := s) hkept hlater) rfl rfl
  | enrolled hnew hduty => exact hkept.enrolled hnew hduty
  | edited honline hseen =>
      exact hkept.congr le_rfl
        (modify_presence (fun d => Prod.ext (honline d) (hseen d)) _) hkept.touched rfl rfl
  | hears _ hclock => exact hkept.hears hclock
  | writes htouch =>
      exact (hkept.writes (hkept.touched _ (List.mem_of_getElem? htouch))).loses _
  | loses => exact hkept.loses _
  | sweeps hclock => exact hkept.sweeps hclock
  | examines hsweep => exact hkept.examines _ hsweep
  | completes hsweep hdone => exact hkept.completes hsweep hdone

theorem reaches_kept (h : Reaches cfg ε {} s) : Kept cfg ε s := by
  induction h with
  | refl => exact kept_start
  | tail _ hstep ih => exact hstep.kept ih

/-- A driver who was never heard of is offline and was never seen. Any other was last seen
when last heard of; if offline, that was longer ago than the threshold, and if online, no
sweep that is over and began after the last touch was written came so much later. Clocks
that are apart by `ε` from the time blur both by twice that. -/
theorem presence_accurate (h : Reaches cfg ε {} s) {id : Id} {d : Driver P}
    (hd : s.fleet id = some d) :
    (s.heard id = none → d.isOnline = false ∧ d.lastSeenAt = none) ∧
      ∀ last, s.heard id = some last → d.lastSeenAt = some last.stamp ∧
        (d.isOnline = false → cfg.thresholdMs - 2 * ε < s.now - last.heardAt) ∧
        (d.isOnline = true → ∀ j sweep, s.sweeps[j]? = some sweep → last.sweepsBegun ≤ j →
          sweep.completed = true → sweep.begunAt - last.heardAt ≤ cfg.thresholdMs + 2 * ε) := by
  have hkept := reaches_kept h
  refine ⟨fun hnone => Prod.mk.inj (hkept.unheard id d hd hnone), fun last hlast => ?_⟩
  obtain ⟨hseen, hswept, hspared⟩ := hkept.told id d last hd hlast
  obtain ⟨hstamp, -⟩ := hkept.written id last hlast
  obtain ⟨hstamp_ge, hstamp_le⟩ := abs_le.mp hstamp
  refine ⟨hseen, fun hoff => ?_, fun hon j sweep hj hbegun hcompleted => ?_⟩
  · obtain ⟨sweep, hsweep, hpast⟩ := hswept hoff
    obtain ⟨hcutoff, hbegun⟩ := hkept.begun sweep hsweep
    have := (abs_le.mp hcutoff).2
    omega
  · have hpast := hspared hon j sweep hj hbegun hcompleted
    have := (abs_le.mp (hkept.begun sweep (List.mem_of_getElem? hj)).1).1
    omega

end kept

/-! ### Silence -/

namespace Sample

/-- A driver is heard of once, and six minutes later a sweep examines the document. -/
def enrolled : State ℕ := { fleet := Function.update (fun _ => none) 7 (some {}) }

def heard : State ℕ := { enrolled with touches := [⟨7, 0, 0⟩] }

def written : State ℕ := { heard.write ⟨7, 0, 0⟩ with touches := [] }

def later : State ℕ := { written with now := 360001 }

def swept : State ℕ := { later with sweeps := [⟨1, 360001, false⟩] }

def marked : State ℕ := { swept with fleet := markOffline swept.fleet 7 1 }

theorem reaches_marked : Reaches {} 0 {} marked := by
  have henrolled : Step {} 0 {} enrolled := .enrolled rfl rfl
  have hheard : Step {} 0 enrolled heard :=
    @Step.hears ℕ {} 0 enrolled (.connected 7 .driver) 7 0 rfl (by decide)
  have hwritten : Step {} 0 heard written := @Step.writes ℕ {} 0 heard 0 ⟨7, 0, 0⟩ rfl
  have hlater : Step {} 0 written later := .passes (by decide)
  have hswept : Step {} 0 later swept := @Step.sweeps ℕ {} 0 later 360001 (by decide)
  have hmarked : Step {} 0 swept marked := @Step.examines ℕ {} 0 swept 0 ⟨1, 360001, false⟩ 7 rfl
  exact (((((Relation.ReflTransGen.single henrolled).tail hheard).tail hwritten).tail hlater).tail
    hswept).tail hmarked

end Sample

theorem presence_accurate_silent : ∃ d, Sample.marked.fleet 7 = some d ∧ d.isOnline = false ∧
    d.lastSeenAt = some 0 ∧ ({} : Config).thresholdMs - 2 * 0 < 360001 - 0 := by
  have htold := (@presence_accurate ℕ {} 0 Sample.marked Sample.reaches_marked 7 _ rfl).2 _ rfl
  exact ⟨_, rfl, rfl, htold.1, htold.2.1 rfl⟩

end CiroFuel.Presence
