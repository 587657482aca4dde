import CiroFuel.Stops.Detection

/-!
# What the handlers have made sure of

The instants in the labels have been read off the clock before the call, the one of
the condition before the one that is stored. A job only claims a stop of an order
that it has read unfinished. Nothing else is known when a call begins.
-/
namespace CiroFuel.Stops
open Snapshot

/-- What a handler has made sure of when it makes the call. -/
def Call.Ready : Call → ℕ → Prop
  | .raiseStop _ now detectedAt _, c => now ≤ detectedAt ∧ detectedAt ≤ c
  | .declareStop _ _ now _, c => now ≤ c
  | .reportBlocked _ _ now _ _, c => now ≤ c
  | .claim order _ _, _ => order.status ∉ FINAL_STATUSES
  | _, _ => True

/-- Nothing has to be made sure of. -/
def Call.Plain (l : Call) : Prop := ∀ c, l.Ready c

def prepared : Discipline Doc Call.Reply where
  inv _ := True
  rely _ _ := True
  pre l _ c := l.Ready c

theorem prepared_coherent : prepared.Coherent where
  refl _ := trivial
  trans _ _ := trivial
  stable h _ _ := h

section calls

theorem notifyAll_plain (ns : List Notification) : (notifyAll ns).Calls Call.Plain := by
  induction ns with
  | nil => trivial
  | cons n ns ih =>
      apply (Prog.calls_attempt (fun _ => trivial)).bind
      intro sent
      apply ih.bind
      intro _
      cases sent <;> trivial

theorem notifyTransporter_plain (order : OrderDocument) (type : NotificationType) (stopId : Id)
    (reason : Option StopReason) :
    (notifyTransporter order type stopId reason).Calls Call.Plain :=
  Prog.calls_scan.bind fun _ => notifyAll_plain _

theorem requireOrder_plain (orderId : Id) : (requireOrder orderId).Calls Call.Plain := by
  apply (Prog.calls_find _).bind
  intro found
  cases found <;> trivial

theorem sideEffect_plain : sideEffect.Calls Call.Plain := by
  intro ok
  cases ok <;> trivial

theorem explainDeclineRefusal_plain (orderId driverId : Id) :
    (explainDeclineRefusal orderId driverId).Calls Call.Plain := by
  apply (Prog.calls_find _).bind
  intro found
  cases found with
  | none => trivial
  | some order =>
      simp only
      split_ifs <;> trivial

theorem explainReasonRefusal_plain (orderId driverId stopId : Id) :
    (explainReasonRefusal orderId driverId stopId).Calls Call.Plain := by
  apply (Prog.calls_find _).bind
  intro found
  cases found with
  | none => trivial
  | some order =>
      simp only
      split_ifs <;> trivial

theorem cancelTimers_plain (stops : List StopEvent) : (cancelTimers stops).Calls Call.Plain := by
  induction stops with
  | nil => trivial
  | cons stop stops ih =>
      rw [cancelTimers]
      split_ifs
      · exact sideEffect_plain.bind fun _ => ih
      · exact ih

theorem submitReason_plain (orderId driverId stopId : Id) (input : SubmitStopReasonDto) :
    (submitReason orderId driverId stopId input).Calls Call.Plain := by
  apply Prog.calls_getTime.bind
  intro now
  apply (Prog.calls_perform (fun _ => trivial)).bind
  intro answered
  cases answered with
  | false =>
      apply (explainReasonRefusal_plain orderId driverId stopId).bind
      intro _
      exact sideEffect_plain.bind fun _ => requireOrder_plain _
  | true => exact sideEffect_plain.bind fun _ => requireOrder_plain _

theorem resolveByAdmin_plain (orderId stopId adminUserId : Id) :
    (resolveByAdmin orderId stopId adminUserId).Calls Call.Plain := by
  apply Prog.calls_getTime.bind
  intro resolvedAt
  apply (Prog.calls_perform (fun _ => trivial)).bind
  intro resolved
  cases resolved with
  | false =>
      apply (Prog.calls_find _).bind
      intro found
      split_ifs <;> trivial
  | true => exact sideEffect_plain.bind fun _ => requireOrder_plain _

theorem resolveStop_plain (orderId stopId adminUserId : Id) (companyId : Option Id) :
    (resolveStop orderId stopId adminUserId companyId).Calls Call.Plain := by
  apply (requireOrder_plain orderId).bind
  intro order
  split_ifs
  · trivial
  · exact resolveByAdmin_plain orderId stopId adminUserId

theorem verifyDelivery_plain (orderId driverId : Id) :
    (verifyDelivery orderId driverId).Calls Call.Plain := by
  apply (requireOrder_plain orderId).bind
  intro order
  split_ifs
  · trivial
  · trivial
  · apply sideEffect_plain.bind
    intro _
    apply (Prog.calls_perform (fun _ => trivial)).bind
    intro updated
    exact (cancelTimers_plain _).bind fun _ => trivial

theorem forceComplete_plain (orderId : Id) : (forceComplete orderId).Calls Call.Plain := by
  apply (requireOrder_plain orderId).bind
  intro order
  split_ifs
  · trivial
  · apply (Prog.calls_perform (fun _ => trivial)).bind
    intro updated
    exact (cancelTimers_plain _).bind fun _ => trivial

theorem cancelOrder_plain (orderId : Id) (isClient : Bool) :
    (cancelOrder orderId isClient).Calls Call.Plain := by
  apply (requireOrder_plain orderId).bind
  intro order
  split_ifs
  · trivial
  · trivial
  · apply (Prog.calls_perform (fun _ => trivial)).bind
    intro updated
    exact (cancelTimers_plain _).bind fun _ => trivial

end calls

section safe
variable {s : Store Doc} {c : ℕ}

theorem safe_plain {α : Type} {p : Handler α} (h : p.Calls Call.Plain) :
    prepared.Harmless p s c :=
  Discipline.safe_calls (fun _ hl _ c => hl c) h

/-- The rest of a handler, where it makes sure of nothing. -/
theorem safe_then {α β : Type} {p : Handler α} {f : α → Handler β} (hp : prepared.Harmless p s c)
    (hf : ∀ a, (f a).Calls Call.Plain) : prepared.Harmless (p >>= f) s c :=
  Discipline.Safe.bind prepared_coherent trivial hp fun a _ _ _ _ => safe_plain (hf a)

theorem raiseStopFor_safe (driver : StalledDriver) :
    prepared.Harmless (raiseStopFor driver) s c := by
  apply Discipline.safe_getTime
  intro s₁ now _
  apply Discipline.safe_getTime
  intro s₂ detectedAt h₂
  apply Discipline.safe_perform
  · intro s₃ c₃ h₃
    exact ⟨h₂.clock, h₃.clock⟩
  · intro raised s₃ c₃ _ _
    cases raised with
    | none => trivial
    | some stopId =>
        apply safe_plain
        apply (Prog.calls_find _).bind
        intro found
        cases found with
        | none => trivial
        | some order =>
            exact (Prog.calls_perform (fun _ => trivial)).bind fun _ => sideEffect_plain

theorem raiseStops_safe (drivers : List StalledDriver) :
    prepared.Harmless (raiseStops drivers) s c := by
  induction drivers generalizing s c with
  | nil => trivial
  | cons driver drivers ih =>
      apply Discipline.Safe.bind prepared_coherent trivial (raiseStopFor_safe driver)
      intro _ s' c' _ _
      exact ih

theorem detectStalledDeliveries_safe (windowMinutes : ℕ) :
    prepared.Harmless (detectStalledDeliveries windowMinutes) s c := by
  apply Discipline.safe_getTime
  intro s₁ now _
  apply Discipline.safe_scan
  intro s₂ c₂ _
  exact raiseStops_safe _

theorem declareStop_safe (orderId driverId : Id) (input : DeclareStopDto) :
    prepared.Harmless (declareStop orderId driverId input) s c := by
  apply Discipline.safe_getTime
  intro s₁ now _
  apply Discipline.safe_perform
  · intro s₂ c₂ h₂
    exact h₂.clock
  · intro declared s₂ c₂ _ _
    apply safe_plain
    cases declared with
    | none => exact (explainDeclineRefusal_plain _ _).bind fun _ => requireOrder_plain _
    | some stopId => exact requireOrder_plain _

theorem reportBlocked_safe (orderId driverId : Id) (input : SubmitStopReasonDto) :
    prepared.Harmless (reportBlocked orderId driverId input) s c := by
  apply Discipline.safe_getTime
  intro s₁ now _
  apply Discipline.safe_find
  intro s₂ c₂ h₂
  apply Discipline.safe_perform
  · intro s₃ c₃ h₃
    exact h₂.clock.trans h₃.clock
  · intro reported s₃ c₃ _ _
    apply safe_plain
    cases reported with
    | none => exact (explainDeclineRefusal_plain _ _).bind fun _ => requireOrder_plain _
    | some stopId =>
        apply (requireOrder_plain _).bind
        intro order
        exact (notifyTransporter_plain _ _ _ _).bind fun _ => trivial

/-- The job goes on only with an order that it has read unfinished. -/
theorem escalate_safe (stopId orderId : Id) : prepared.Harmless (escalate stopId orderId) s c := by
  apply Discipline.safe_find
  intro s₁ c₁ _
  split
  · trivial
  · rename_i o _
    split_ifs with hfinal hknown
    · trivial
    · trivial
    · apply Discipline.safe_getTime
      intro s₂ escalatedAt _
      apply Discipline.safe_perform
      · intro s₃ c₃ _
        have hunfinished : o.status ∉ FINAL_STATUSES := by simpa using hfinal
        exact hunfinished
      · intro claimed s₃ c₃ _ _
        apply safe_plain
        split_ifs
        · exact notifyTransporter_plain _ _ _ _
        · trivial

theorem handle_safe (q : Request) : prepared.Harmless (handle q) s c := by
  cases q with
  | createOrder id fuelCompanyId =>
      exact safe_plain ((Prog.calls_perform (fun _ => trivial)).bind fun _ => trivial)
  | setParties orderId t d =>
      exact safe_plain ((Prog.calls_perform (fun _ => trivial)).bind fun _ => trivial)
  | putUser id user =>
      exact safe_plain ((Prog.calls_perform (fun _ => trivial)).bind fun _ => trivial)
  | transition orderId source target b =>
      exact safe_plain ((Prog.calls_perform (fun _ => trivial)).bind fun _ => trivial)
  | sweep windowMinutes =>
      exact safe_then (detectStalledDeliveries_safe windowMinutes) fun _ => trivial
  | declareStop orderId driverId input =>
      exact safe_then (declareStop_safe orderId driverId input) fun _ => trivial
  | reportBlocked orderId driverId input =>
      exact safe_then (reportBlocked_safe orderId driverId input) fun _ => trivial
  | submitReason orderId driverId stopId input =>
      exact safe_plain ((submitReason_plain orderId driverId stopId input).bind fun _ => trivial)
  | resolveStop orderId stopId adminUserId companyId =>
      exact safe_plain
        ((resolveStop_plain orderId stopId adminUserId companyId).bind fun _ => trivial)
  | escalate stopId orderId => exact safe_then (escalate_safe stopId orderId) fun _ => trivial
  | verifyDelivery orderId driverId =>
      exact safe_plain ((verifyDelivery_plain orderId driverId).bind fun _ => trivial)
  | forceComplete orderId => exact safe_plain ((forceComplete_plain orderId).bind fun _ => trivial)
  | cancelOrder orderId isClient =>
      exact safe_plain ((cancelOrder_plain orderId isClient).bind fun _ => trivial)

end safe

/-- Every call of a run was prepared, and ran on an earlier state of the store. -/
theorem run_prepared {P : Event Doc Call.Reply → Prop} {init : Store Doc}
    {log : List (Event Doc Call.Reply)} {s : Sys Doc Call.Reply HttpError Answer}
    (h : Run machine init P log s) :
    Run machine init (fun ev => P ev ∧ ev.label.Ready ev.began ∧ Store.Older ev.base ev.before)
      log s := by
  have hlawful : prepared.Lawful machine P :=
    { refl := prepared_coherent.refl
      trans := prepared_coherent.trans
      stable := prepared_coherent.stable
      handlers := fun q _ _ _ _ => handle_safe q
      keep := fun _ _ _ _ _ _ _ _ => ⟨trivial, trivial, trivial⟩ }
  obtain ⟨-, hrun⟩ := hlawful.sound trivial h
  exact hrun.weaken fun ev _ hev => ⟨hev.1, hev.2.pre, hev.2.older⟩

end CiroFuel.Stops
