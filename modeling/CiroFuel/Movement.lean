import CiroFuel.Schemas

/-!
# Trucks that move

A driver's phone reports where the truck is. A fix is taken if the truck has gone some way
from where it was last seen, or has not been heard of for a while. Whether the truck has
moved is another matter: that is measured from where it was when it last moved, and a truck
that drifts about within the threshold of that place never moves.
-/
namespace CiroFuel.Movement

/-- Thresholds in metres and minutes; each has a default. -/
structure Config (D : Type) where
  displacementThresholdMeters : Option D := none
  heartbeatMinutes : Option ℚ := none
  movementMeters : Option D := none

/-- What other code writes of a driver's account. -/
structure Duty where
  sessionGeneration : Option ℕ := none
  isOnline : Bool := false
  lastSeenAt : Option ℤ := none
  activeOrderId : Option Id := none
deriving DecidableEq

/-- A driver's account, with instants in milliseconds. -/
structure Driver (P : Type) extends Duty where
  location : Option P := none
  locationUpdatedAt : Option ℤ := none
  lastMovedLocation : Option P := none
  lastMovedAt : Option ℤ := none
deriving DecidableEq

/-- A frame of a socket with its user, and the instants at which it is handled. -/
structure Frame (P : Type) where
  userId : Id
  role : UserRole := .driver
  sgen : Option ℕ := none
  fix : P
  recordedAt : String
  seenAt : ℤ
  now : ℤ

structure Ack where
  ok : Bool
  accepted : Option Bool := none
  reason : Option String := none
  error : Option String := none
deriving DecidableEq

/-- What is sent to the room of an order. -/
structure Broadcast (P : Type) where
  orderId : Id
  fix : P
  recordedAt : String
  receivedAt : ℤ
deriving DecidableEq

abbrev Fleet (P : Type) := Id → Option (Driver P)

def abuseCeilingMs : ℤ := 5000

section gateway
variable {P D : Type} [LinearOrder D] [NatCast D]

def Fleet.modify (fleet : Fleet P) (id : Id) (f : Driver P → Driver P) : Fleet P :=
  Function.update fleet id ((fleet id).map f)

/-- The driver has been heard of. -/
def touch (fleet : Fleet P) (id : Id) (now : ℤ) : Fleet P :=
  fleet.modify id fun d => { d with isOnline := true, lastSeenAt := some now }

/-- The fix is farther from the place than a threshold; from no place it is always. -/
def beyond (dist : P → P → D) (threshold : D) (place : Option P) (fix : P) : Bool :=
  place.all fun p => threshold < dist p fix

variable (cfg : Config D) (dist : P → P → D)

def Config.displacementThreshold : D := cfg.displacementThresholdMeters.getD (50 : ℕ)

def Config.heartbeatMs : ℚ := cfg.heartbeatMinutes.getD 3 * 60000

def Config.movementThreshold : D := cfg.movementMeters.getD (50 : ℕ)

/-- The fix is taken: the truck has gone some way, or has not been heard of for long. -/
def accepts (driver : Driver P) (frame : Frame P) : Bool :=
  beyond dist cfg.displacementThreshold driver.location frame.fix ||
    cfg.heartbeatMs ≤ (frame.now - driver.locationUpdatedAt.getD 0 : ℤ)

def hasMoved (driver : Driver P) (frame : Frame P) : Bool :=
  beyond dist cfg.movementThreshold driver.lastMovedLocation frame.fix

/-- What is written of a fix that is taken. -/
def Driver.record (d : Driver P) (frame : Frame P) (moved : Bool) : Driver P where
  toDuty := d.toDuty
  location := some frame.fix
  locationUpdatedAt := some frame.now
  lastMovedLocation := if moved then some frame.fix else d.lastMovedLocation
  lastMovedAt := if moved then some frame.now else d.lastMovedAt

def belowThreshold : Ack where
  ok := true
  accepted := some false
  reason := some "BELOW_THRESHOLD"

def locationUpdate (frame : Frame P) (fleet : Fleet P) :
    Ack × Option (Broadcast P) × Fleet P :=
  if frame.role ≠ .driver then ({ ok := false, error := some "FORBIDDEN_ROLE" }, none, fleet)
  else match fleet frame.userId with
  | none => ({ ok := false, error := some "FORBIDDEN_ROLE" }, none, fleet)
  | some driver =>
      if frame.sgen.getD 0 ≠ driver.sessionGeneration.getD 0 then
        ({ ok := false, error := some "SESSION_REVOKED" }, none, fleet)
      else
        let touched := touch fleet frame.userId frame.seenAt
        if frame.now - driver.locationUpdatedAt.getD 0 < abuseCeilingMs then
          (belowThreshold, none, touched)
        else if !accepts cfg dist driver frame then (belowThreshold, none, touched)
        else
          ({ ok := true, accepted := some true },
            driver.activeOrderId.map fun orderId =>
              { orderId, fix := frame.fix, recordedAt := frame.recordedAt, receivedAt := frame.now },
            touched.modify frame.userId fun d => d.record frame (hasMoved cfg dist driver frame))

/-- A frame, or a write of other code to the account of a driver. -/
inductive Event (P : Type) where
  | frame (f : Frame P)
  | written (id : Id) (duty : Duty)

def Event.after (fleet : Fleet P) : Event P → Fleet P
  | .frame f => (locationUpdate cfg dist f fleet).2.2
  | .written id duty => fleet.modify id fun d => { d with toDuty := duty }

/-- Each event with the fleet it meets. -/
def trace (fleet : Fleet P) : List (Event P) → List (Fleet P × Event P)
  | [] => []
  | e :: es => (fleet, e) :: trace (e.after cfg dist fleet) es

def run (fleet : Fleet P) (es : List (Event P)) : Fleet P := es.foldl (Event.after cfg dist) fleet

/-- Where a driver was when the truck last moved, and when that was. -/
def lastMoved (fleet : Fleet P) (id : Id) : Option P × Option ℤ :=
  ((fleet id).bind Driver.lastMovedLocation, (fleet id).bind Driver.lastMovedAt)

/-- The event is a fix of the driver that is accepted, and farther than the threshold from
where the truck last moved. -/
def movesOn (id : Id) (m : Fleet P × Event P) : Prop :=
  ∃ frame, m.2 = .frame frame ∧ frame.userId = id ∧
    (locationUpdate cfg dist frame m.1).1.accepted = some true ∧
      beyond dist cfg.movementThreshold (lastMoved m.1 id).1 frame.fix = true

end gateway

section moves
variable {P D : Type} [LinearOrder D] [NatCast D] {cfg : Config D} {dist : P → P → D}
variable {fleet : Fleet P} {frame : Frame P} {id : Id}

@[simp] theorem modify_self (f : Driver P → Driver P) :
    fleet.modify id f id = (fleet id).map f := Function.update_self _ _ _

@[simp] theorem modify_other {id' : Id} (f : Driver P → Driver P) (h : id' ≠ id) :
    fleet.modify id f id' = fleet id' := Function.update_of_ne h _ _

theorem lastMoved_modify_other {id' : Id} (f : Driver P → Driver P) (h : id' ≠ id) :
    lastMoved (fleet.modify id f) id' = lastMoved fleet id' := by
  simp only [lastMoved, modify_other f h]

/-- What leaves the two fields of a driver leaves those of all. -/
theorem lastMoved_modify {f : Driver P → Driver P}
    (hplace : ∀ d, (f d).lastMovedLocation = d.lastMovedLocation)
    (hwhen : ∀ d, (f d).lastMovedAt = d.lastMovedAt) (id' : Id) :
    lastMoved (fleet.modify id f) id' = lastMoved fleet id' := by
  by_cases h : id' = id
  · subst h
    cases hd : fleet id' with
    | none => simp [lastMoved, hd]
    | some d => simp [lastMoved, hd, hplace, hwhen]
  · exact lastMoved_modify_other f h

theorem lastMoved_touch (now : ℤ) (id' : Id) :
    lastMoved (touch fleet id now) id' = lastMoved fleet id' :=
  lastMoved_modify (f := fun d => { d with isOnline := true, lastSeenAt := some now })
    (fun _ => rfl) (fun _ => rfl) id'

/-- A frame is not accepted and moves no truck, or it is, and the fix is recorded. -/
theorem locationUpdate_cases (cfg : Config D) (dist : P → P → D) (frame : Frame P)
    (fleet : Fleet P) :
    ((locationUpdate cfg dist frame fleet).1.accepted ≠ some true ∧
      ∀ id, lastMoved (locationUpdate cfg dist frame fleet).2.2 id = lastMoved fleet id) ∨
    ∃ driver, fleet frame.userId = some driver ∧
      (locationUpdate cfg dist frame fleet).1.accepted = some true ∧
      (locationUpdate cfg dist frame fleet).2.2 =
        (touch fleet frame.userId frame.seenAt).modify frame.userId
          fun d => d.record frame (hasMoved cfg dist driver frame) := by
  unfold locationUpdate
  split_ifs with hrole
  · exact Or.inl ⟨by simp, fun _ => rfl⟩
  · split
    · exact Or.inl ⟨by simp, fun _ => rfl⟩
    · rename_i driver hdriver
      dsimp only
      split_ifs with hsession habuse haccepts
      · exact Or.inl ⟨by simp, fun _ => rfl⟩
      · exact Or.inl ⟨by simp [belowThreshold], lastMoved_touch _⟩
      · exact Or.inl ⟨by simp [belowThreshold], lastMoved_touch _⟩
      · exact Or.inr ⟨driver, hdriver, rfl, rfl⟩

/-- An accepted fix moves the truck if and only if it is beyond the threshold. -/
theorem lastMoved_accepted (h : (locationUpdate cfg dist frame fleet).1.accepted = some true) :
    lastMoved (locationUpdate cfg dist frame fleet).2.2 frame.userId =
      if beyond dist cfg.movementThreshold (lastMoved fleet frame.userId).1 frame.fix then
        (some frame.fix, some frame.now)
      else lastMoved fleet frame.userId := by
  rcases locationUpdate_cases cfg dist frame fleet with ⟨hnot, -⟩ | ⟨driver, hdriver, -, hfleet⟩
  · exact absurd h hnot
  · have hplace : (lastMoved fleet frame.userId).1 = driver.lastMovedLocation := by
      simp [lastMoved, hdriver]
    rw [hfleet, hplace, ← hasMoved]
    cases hmoved : hasMoved cfg dist driver frame with
    | false => simp [lastMoved, touch, hdriver, Driver.record]
    | true => simp [lastMoved, touch, hdriver, Driver.record]

/-- A frame of one driver leaves the others where they are. -/
theorem lastMoved_other (h : id ≠ frame.userId) :
    lastMoved (locationUpdate cfg dist frame fleet).2.2 id = lastMoved fleet id := by
  rcases locationUpdate_cases cfg dist frame fleet with ⟨-, hsame⟩ | ⟨driver, -, -, hfleet⟩
  · exact hsame id
  · rw [hfleet, lastMoved_modify_other _ h, lastMoved_touch]

/-- A truck moves only at an accepted fix beyond the threshold. -/
theorem movesOn_of_changed {e : Event P}
    (h : lastMoved (e.after cfg dist fleet) id ≠ lastMoved fleet id) :
    movesOn cfg dist id (fleet, e) := by
  cases e with
  | written id' duty =>
      refine absurd (lastMoved_modify (f := fun d => { d with toDuty := duty }) ?_ ?_ id) h
      · exact fun _ => rfl
      · exact fun _ => rfl
  | frame frame =>
      change lastMoved (locationUpdate cfg dist frame fleet).2.2 id ≠ _ at h
      have hid : frame.userId = id := by
        by_contra hother
        exact h (lastMoved_other (Ne.symm hother))
      subst hid
      have haccepted : (locationUpdate cfg dist frame fleet).1.accepted = some true := by
        by_contra hnot
        rcases locationUpdate_cases cfg dist frame fleet with ⟨-, hsame⟩ | ⟨driver, -, hyes, -⟩
        · exact h (hsame _)
        · exact hnot hyes
      refine ⟨frame, rfl, rfl, haccepted, ?_⟩
      by_contra hnear
      rw [lastMoved_accepted haccepted, if_neg hnear] at h
      exact h rfl

/-- While every fix of a driver is within the threshold of where the truck last moved, the
truck has not moved. -/
theorem lastMoved_run {es : List (Event P)} {p : P} (hplace : (lastMoved fleet id).1 = some p)
    (hnear : ∀ frame, .frame frame ∈ es → frame.userId = id →
      dist p frame.fix ≤ cfg.movementThreshold) :
    lastMoved (run cfg dist fleet es) id = lastMoved fleet id := by
  induction es generalizing fleet with
  | nil => rfl
  | cons e es ih =>
      have hstep : lastMoved (e.after cfg dist fleet) id = lastMoved fleet id := by
        by_contra hchanged
        obtain ⟨frame, he, hid, -, hbeyond⟩ := movesOn_of_changed hchanged
        dsimp only at he hbeyond
        subst he
        rw [hplace, beyond, Option.all_some, decide_eq_true_eq] at hbeyond
        exact absurd hbeyond (not_lt.mpr (hnear frame List.mem_cons_self hid))
      change lastMoved (run cfg dist (e.after cfg dist fleet) es) id = _
      rw [ih (hstep ▸ hplace) fun frame hmem => hnear frame (List.mem_cons_of_mem _ hmem), hstep]

end moves

/-- A truck moves only at an accepted fix that is farther than the threshold from where it
last moved, and at every such fix; so it never moves while every fix is within the
threshold of that place. -/
theorem parked_truck_stays {P D : Type} [LinearOrder D] [NatCast D] (cfg : Config D)
    (dist : P → P → D) (fleet : Fleet P) (es : List (Event P)) (id : Id) :
    (∀ m ∈ trace cfg dist fleet es,
      lastMoved (m.2.after cfg dist m.1) id ≠ lastMoved m.1 id → movesOn cfg dist id m) ∧
    (∀ m ∈ trace cfg dist fleet es, movesOn cfg dist id m → ∃ f, m.2 = .frame f ∧
      lastMoved (m.2.after cfg dist m.1) id = (some f.fix, some f.now)) ∧
    (∀ p, (lastMoved fleet id).1 = some p → (∀ f, .frame f ∈ es → f.userId = id →
      dist p f.fix ≤ cfg.movementThreshold) →
        lastMoved (run cfg dist fleet es) id = lastMoved fleet id) := by
  refine ⟨fun m _ hchanged => movesOn_of_changed hchanged, ?_, fun p => lastMoved_run⟩
  rintro ⟨s, e⟩ - ⟨f, rfl, rfl, haccepted, hbeyond⟩
  refine ⟨f, rfl, ?_⟩
  change lastMoved (locationUpdate cfg dist f s).2.2 f.userId = _
  rw [lastMoved_accepted haccepted, if_pos hbeyond]

namespace Sample

/-- A truck on a road, and where it is every five minutes. -/
def reports (places : List ℤ) : List (Event ℤ) :=
  places.mapIdx fun i place => .frame
    { userId := 1, fix := place, recordedAt := "", seenAt := 300000 * i, now := 300000 * i }

def parked : Fleet ℤ := fun _ => some {
  location := some 0
  locationUpdatedAt := some (-300000)
  lastMovedLocation := some 0
  lastMovedAt := some (-300000) }

def reported : Fleet ℤ :=
  run {} (fun x y : ℤ => (x - y).natAbs) parked (reports [40, -30, 50])

end Sample

/-- Each report is taken, and none is far from the place of the first. -/
theorem parked_truck_stays_reported :
    lastMoved Sample.reported 1 = (some 0, some (-300000)) ∧
      (Sample.reported 1).bind Driver.location = some 50 := by
  have hnear : ∀ f, Event.frame f ∈ Sample.reports [40, -30, 50] → f.userId = 1 →
      ((0 - f.fix).natAbs : ℕ) ≤ ({} : Config ℕ).movementThreshold := by
    intro f hf _
    simp only [Sample.reports, List.mapIdx_cons, List.mapIdx_nil, List.mem_cons, Event.frame.injEq,
      List.not_mem_nil, or_false] at hf
    rcases hf with rfl | rfl | rfl
    · decide
    · decide
    · decide
  have hstays := (parked_truck_stays {} (fun x y : ℤ => (x - y).natAbs) Sample.parked
    (Sample.reports [40, -30, 50]) 1).2.2 0 rfl hnear
  exact ⟨hstays, by decide +kernel⟩

end CiroFuel.Movement
