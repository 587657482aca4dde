import CiroFuel.Auth.Credentials
import CiroFuel.Auth.Guesses
import CiroFuel.Handover.Codes
import CiroFuel.Query.Arrays
import CiroFuel.Snapshot.Discipline
import CiroFuel.Snapshot.History

/-!
# Guessing codes

The code of an order is found, compared and counted in three steps, like the codes
of the authentication service, and the count goes to the place in the array where
the code was found. Together the two give the cap on guesses for all three kinds.
-/
namespace CiroFuel.Handover
open Snapshot

/-- A code of an order, known by its hash and salt. -/
structure CodeRef where
  orderId : Id
  hash : String
  salt : String
deriving DecidableEq

def isCode (k : CodeRef) (r : OtpRecord) : Bool := r.hash = k.hash && r.salt = k.salt

def holds (k : CodeRef) : Slot → Bool := Slot.any (isCode k)

/-- The places of an order's array that hold the code. -/
def codes (k : CodeRef) : Option OrderCodes → List Slot
  | some o => o.otps.filter (holds k)
  | none => []

section events
variable (k : CodeRef) (ev : Event Doc Call.Reply)

def Call.compares : (c : Call) → c.Reply → Bool
  | .verifyOtp orderId record _, result =>
      orderId = k.orderId && record.any (isCode k) && result.compared
  | _, _ => false

def Call.wrong : (c : Call) → c.Reply → Bool
  | .verifyOtp orderId record _, result =>
      orderId = k.orderId && record.any (isCode k) && result = .mismatch
  | _, _ => false

/-- A submitted code was compared with the hash of the code. -/
def compared : Bool := Call.compares k ev.label ev.reply

def guessedWrong : Bool := Call.wrong k ev.label ev.reply

/-- An attempt is counted at the place that holds the code. -/
def Call.counts (c : Call) (x : Option OrderCodes) : Bool :=
  match c with
  | .addAttempt orderId index =>
      orderId = k.orderId && x.any fun o => o.otps[index]?.any (holds k)
  | _ => false

def Call.pushes : Call → Bool
  | .push orderId record => orderId = k.orderId && isCode k record
  | _ => false

def attemptCounted : Bool := Call.counts k ev.label (ev.before.find k.orderId)

def pushed : Bool := Call.pushes k ev.label

/-- The comparison is with a record as it is stored. -/
def comparesStored : Bool :=
  match ev.label with
  | .verifyOtp _ record _ => record.any fun r => (codes k (ev.before.find k.orderId)).contains (.code r)
  | _ => true

end events

@[reducible] def CountedInTime (k : CodeRef) : List (Event Doc Call.Reply) → Prop :=
  Otp.CountedInTime (compared k) (comparesStored k) (guessedWrong k) (attemptCounted k)

section orders
variable {k : CodeRef} {o : OrderCodes}

theorem holds_map (f : OtpRecord → OtpRecord) (hf : ∀ r, isCode k (f r) = isCode k r)
    (x : Slot) : holds k (x.map f) = holds k x := by
  cases x with
  | null | marked => rfl
  | code r => exact hf r

/-- The attempts counted in a record. -/
def attemptsOf (x : Slot) : Option ℕ := x.record.map fun r => r.attempts

theorem attemptsOf_map (f : OtpRecord → OtpRecord) (hf : ∀ r, (f r).attempts = r.attempts) (x : Slot) :
    attemptsOf (x.map f) = attemptsOf x := by
  cases x with
  | null | marked => rfl
  | code r => exact congrArg some (hf r)

theorem pullUnused_codes (purpose : OtpPurpose) :
    ((o.pullUnused purpose).otps.filter (holds k)).Sublist (o.otps.filter (holds k)) :=
  List.filter_sublist.filter _

theorem push_codes (record : OtpRecord) :
    (o.push record).otps.filter (holds k) =
      o.otps.filter (holds k) ++ if isCode k record then [.code record] else [] := by
  rw [OrderCodes.push, List.filter_append]
  congr 1
  cases hcode : isCode k record with
  | true => exact List.filter_cons_of_pos hcode
  | false => exact List.filter_cons_of_neg (by simp [holds, Slot.any, hcode])

theorem setUsed_codes (index : ℕ) (usedAt : Instant) :
    ((o.setUsed index usedAt).otps.filter (holds k)).map attemptsOf =
      (o.otps.filter (holds k)).map attemptsOf := by
  rw [holds, OrderCodes.setUsed_filter]
  apply filter_modify_map
  · exact holds_map _ fun _ => rfl
  · exact attemptsOf_map _ fun _ => rfl

theorem invalidate_codes (usedAt : Instant) :
    ((o.invalidate usedAt).otps.filter (holds k)).map attemptsOf =
      (o.otps.filter (holds k)).map attemptsOf := by
  have hholds : ∀ x : Slot, holds k (x.map fun r =>
      if r.usedAt.isNone then { r with usedAt := some usedAt } else r) = holds k x := by
    apply holds_map
    intro r
    split_ifs <;> rfl
  have hattempts : ∀ x : Slot, attemptsOf (x.map fun r =>
      if r.usedAt.isNone then { r with usedAt := some usedAt } else r) = attemptsOf x := by
    apply attemptsOf_map
    intro r
    split_ifs <;> rfl
  rw [OrderCodes.invalidate, List.filter_map, List.map_map]
  have hp : (holds k ∘ Slot.map fun r =>
      if r.usedAt.isNone then { r with usedAt := some usedAt } else r) = holds k := funext hholds
  rw [hp]
  congr 1
  exact funext hattempts

end orders

/-! ### Commits -/

/-- The attempts counted at the places that hold the code. -/
def tallies (k : CodeRef) (x : Option OrderCodes) : List (Option ℕ) := (codes k x).map attemptsOf

/-- What a commit does to the places that hold a code. -/
inductive TallyStep (k : CodeRef) (c : Call) (x x' : Option OrderCodes) : Prop where
  | counted (hcounts : c.counts k x = true) (hsome : tallies k x ≠ [])
      (hone : ∀ n, tallies k x = [some n] → tallies k x' = [some (n + 1)])
  | pushed (hpushes : c.pushes k = true) (hcounts : c.counts k x = false)
      (h : tallies k x' = tallies k x ∨ tallies k x' = tallies k x ++ [some 0])
  | dropped (hpushes : c.pushes k = false) (hcounts : c.counts k x = false)
      (h : (tallies k x').Sublist (tallies k x))

/-- A code is pushed without attempts. -/
def Call.Fresh : Call → Prop
  | .push _ record => record.attempts = 0
  | _ => True

section bodies
variable {C : Crypto} {env : Env} {v w : View Doc} {k : CodeRef}

theorem updateOrder_find {orderId : Id} {p : OrderCodes → Bool} {f : OrderCodes → OrderCodes}
    {r : Bool} (h : (Tx.updateOne orderId p f : Action Bool).run env v = .ok (r, w)) :
    w.find k.orderId = v.find k.orderId ∨
      orderId = k.orderId ∧ ∃ o, v.find k.orderId = some o ∧ w.find k.orderId = some (f o) := by
  rcases Tx.updateOne_ok h with ⟨o, ho, -, -, -, rfl⟩ | ⟨-, rfl, -⟩
  · by_cases hid : k.orderId = orderId
    · subst hid
      exact Or.inr ⟨rfl, o, ho, View.find_put_self _ _ _⟩
    · exact Or.inl (View.find_put_ne _ _ hid)
  · exact Or.inl rfl

theorem updateUnless_find {orderId : Id} {blocked p : OrderCodes → Bool} {f : OrderCodes → OrderCodes}
    {r : Bool} (h : (updateUnless blocked orderId p f).run env v = .ok (r, w)) :
    (Tx.updateOne orderId p f : Action Bool).run env v = .ok (r, w) := by
  obtain ⟨found, u, hfound, h⟩ := Tx.bind_ok h
  obtain ⟨rfl, rfl⟩ := Tx.find_ok hfound
  split at h
  · cases h
  · exact h

theorem body_tally {c : Call} {r : c.Reply} (h : (c.body C).run env v = .ok (r, w))
    (hfresh : c.Fresh) : TallyStep k c (v.find k.orderId) (w.find k.orderId) := by
  -- An update that keeps the attempts, or drops places, of the code.
  have kept : ∀ {orderId : Id} {f : OrderCodes → OrderCodes}, c.pushes k = false →
      c.counts k (v.find k.orderId) = false →
      (∀ o, (tallies k (some (f o))).Sublist (tallies k (some o))) →
      (w.find k.orderId = v.find k.orderId ∨
        orderId = k.orderId ∧ ∃ o, v.find k.orderId = some o ∧ w.find k.orderId = some (f o)) →
      TallyStep k c (v.find k.orderId) (w.find k.orderId) := by
    rintro orderId f hpushes hcounts hsub (hsame | ⟨-, o, ho, hw⟩)
    · apply TallyStep.dropped hpushes hcounts
      rw [hsame]
    · apply TallyStep.dropped hpushes hcounts
      rw [ho, hw]
      exact hsub o
  cases c with
  | createOrder id =>
      obtain ⟨hnone, -, rfl⟩ := Tx.insert_ok h
      apply TallyStep.dropped rfl rfl
      by_cases hid : k.orderId = id
      · subst hid
        rw [View.find_put_self]
        exact List.nil_sublist _
      · rw [View.find_put_ne _ _ hid]
  | dropStale orderId purpose =>
      apply kept rfl rfl ?_ (updateOrder_find h)
      intro o
      exact (pullUnused_codes purpose).map attemptsOf
  | push orderId record =>
      have hzero : attemptsOf (.code record) = some 0 := congrArg some hfresh
      cases hpushes : Call.pushes k (.push orderId record) with
      | true =>
          apply TallyStep.pushed hpushes rfl
          simp only [Call.pushes, Bool.and_eq_true] at hpushes
          rcases updateOrder_find (k := k) h with hsame | ⟨-, o, ho, hw⟩
          · left
            rw [hsame]
          · right
            rw [ho, hw, tallies, tallies, codes, codes, push_codes, if_pos hpushes.2,
              List.map_append, List.map_singleton, hzero]
      | false =>
          apply TallyStep.dropped hpushes rfl
          rcases updateOrder_find (k := k) h with hsame | ⟨rfl, o, ho, hw⟩
          · rw [hsame]
          · have hother : ¬ isCode k record = true := by
              intro hcode
              simp [Call.pushes, hcode] at hpushes
            rw [ho, hw, tallies, tallies, codes, codes, push_codes, if_neg hother, List.append_nil]
  | verifyOtp orderId record submittedOtp =>
      obtain ⟨t, u, ht, h⟩ := Tx.bind_ok h
      obtain ⟨-, rfl⟩ := Tx.getTime_ok ht
      obtain ⟨-, rfl⟩ := Tx.pure_ok h
      exact .dropped rfl rfl (List.Sublist.refl _)
  | addAttempt orderId index =>
      have hf : ∀ x : Slot, holds k (x.map fun r =>
          { r with attempts := r.attempts + 1 }) = holds k x := holds_map _ fun _ => rfl
      have hrun := updateUnless_find h
      cases hcounts : Call.counts k (.addAttempt orderId index) (v.find k.orderId) with
      | true =>
          simp only [Call.counts, Bool.and_eq_true, decide_eq_true_eq] at hcounts
          obtain ⟨hid, hany⟩ := hcounts
          obtain ⟨o, ho, hholds⟩ := (Option.any_eq_true _ _).mp hany
          obtain ⟨x, hx, hcode⟩ := (Option.any_eq_true _ _).mp hholds
          have hmem : x ∈ o.otps.filter (holds k) :=
            List.mem_filter.mpr ⟨List.mem_of_getElem? hx, hcode⟩
          refine TallyStep.counted (by simp [Call.counts, hid, ho, hx, hcode]) ?_ ?_
          · rw [ho, tallies, codes]
            intro hnil
            rw [List.map_eq_nil_iff.mp hnil] at hmem
            cases hmem
          · intro n hone
            have hwrote : w.find k.orderId = some (o.addAttempt index) := by
              subst hid
              rcases Tx.updateOne_ok hrun with ⟨o', ho', -, -, -, rfl⟩ | ⟨-, -, hnone⟩
              · cases ho.symm.trans ho'
                exact View.find_put_self _ _ _
              · have hshort := hnone o ho
                rw [List.getElem?_eq_none (Nat.le_of_not_lt (of_decide_eq_false hshort))] at hx
                cases hx
            rw [ho, tallies, codes] at hone
            obtain ⟨y, hy, hattempts⟩ := List.map_eq_singleton_iff.mp hone
            obtain ⟨rfl, hfilter⟩ := filter_modify_of_pos hf hx hcode hy
            rw [hwrote, tallies, codes, OrderCodes.addAttempt, hfilter, List.map_singleton]
            cases x with
            | null | marked => cases hattempts
            | code r =>
                cases hattempts
                rfl
      | false =>
          apply TallyStep.dropped rfl hcounts
          rcases updateOrder_find (k := k) hrun with hsame | ⟨rfl, o, ho, hw⟩
          · rw [hsame]
          · have hother : ∀ x, o.otps[index]? = some x → holds k x = false := by
              intro x hx
              rw [ho] at hcounts
              simpa [Call.counts, hx] using hcounts
            rw [ho, hw, tallies, tallies, codes, codes, OrderCodes.addAttempt,
              filter_modify_of_not hf hother]
  | setUsed orderId index =>
      obtain ⟨t, u, ht, h⟩ := Tx.bind_ok h
      obtain ⟨-, rfl⟩ := Tx.getTime_ok ht
      have hfind := updateOrder_find (k := k) (updateUnless_find h)
      apply kept rfl rfl ?_ hfind
      intro o
      rw [tallies, tallies, codes, codes, setUsed_codes]
  | invalidateActive orderId usedAt =>
      have hfind := updateOrder_find (k := k) (updateUnless_find h)
      apply kept rfl rfl ?_ hfind
      intro o
      rw [tallies, tallies, codes, codes, invalidate_codes]

end bodies

section commits
variable {C : Crypto} {expiryMinutes : ℕ} {k : CodeRef} {ev : Event Doc Call.Reply}

theorem tally_commit (hev : ev.Sound (machine C expiryMinutes))
    (holder : Store.Older ev.base ev.before) (hfresh : ev.label.Fresh) :
    TallyStep k ev.label (ev.before.find k.orderId) (ev.after.find k.orderId) := by
  have hbody := body_tally (k := k) hev.ran hfresh
  rcases hev.cases holder k.orderId with ⟨hbase, hafter⟩ | ⟨hview, hafter, -⟩
  · rw [hafter, ← hbase]
    exact hbody
  · cases hiso : ev.label.isolated with
    | false =>
        -- Outside a transaction the call works on the order as it is stored.
        have hsame : ev.base = ev.before := hev.current hiso
        rw [hafter, ← hsame]
        change TallyStep k ev.label (ev.base.find k.orderId) (ev.view.find k.orderId) at hbody
        rw [hview] at hbody
        exact hbody
    | true =>
        rw [hafter]
        generalize ev.label = c at hiso
        cases c with
        | invalidateActive orderId usedAt => exact .dropped rfl rfl (List.Sublist.refl _)
        | _ => cases hiso

/-- An attempt is counted by one call, and a code is pushed by another. -/
theorem pushed_of_counts (hcounts : ev.label.counts k (ev.before.find k.orderId) = true) :
    pushed k ev = false := by
  obtain ⟨i, label, base, env, began, ended, reply, view, before, after⟩ := ev
  cases label with
  | addAttempt orderId index => rfl
  | _ => cases hcounts

/-- A code that was pushed once is in one place at most, and the attempts counted there
are those of the log. -/
structure Tallied (k : CodeRef) (log : List (Event Doc Call.Reply)) (s : Store Doc) : Prop where
  length : (tallies k (s.find k.orderId)).length ≤ log.countP (pushed k)
  counted : ∀ x ∈ tallies k (s.find k.orderId), x = some (log.countP (attemptCounted k))
  unpushed : log.countP (pushed k) = 0 → log.countP (attemptCounted k) = 0

theorem commit_tallied {log : List (Event Doc Call.Reply)}
    (hev : ev.Sound (machine C expiryMinutes)) (holder : Store.Older ev.base ev.before)
    (hfresh : ev.label.Fresh) (honce : (ev :: log).countP (pushed k) ≤ 1)
    (h : Tallied k log ev.before) : Tallied k (ev :: log) ev.after := by
  have hlength := h.length
  cases tally_commit (k := k) hev holder hfresh with
  | counted hcounts hsome hone =>
      have hcounted : attemptCounted k ev = true := hcounts
      have hpushed : ¬ pushed k ev = true := by simp [pushed_of_counts hcounts]
      rw [List.countP_cons_of_neg hpushed] at honce
      obtain ⟨x, hx⟩ : ∃ x, tallies k (ev.before.find k.orderId) = [x] := by
        apply List.length_eq_one_iff.mp
        have hpos := List.length_pos_iff.mpr hsome
        omega
      have hcount : x = some (log.countP (attemptCounted k)) := by
        apply h.counted
        rw [hx]
        exact List.mem_singleton_self _
      subst hcount
      have hafter := hone _ hx
      rw [hx, List.length_singleton] at hlength
      constructor
      · rw [hafter, List.countP_cons_of_neg hpushed, List.length_singleton]
        exact hlength
      · intro y hy
        rw [hafter] at hy
        rw [List.mem_singleton.mp hy, List.countP_cons_of_pos hcounted]
      · intro hzero
        rw [List.countP_cons_of_neg hpushed] at hzero
        omega
  | pushed hpushes hcounts hor =>
      have hpushed : pushed k ev = true := hpushes
      have hcounted : ¬ attemptCounted k ev = true := by simp [attemptCounted, hcounts]
      rw [List.countP_cons_of_pos hpushed] at honce
      have hzero : log.countP (pushed k) = 0 := by omega
      have hnone : tallies k (ev.before.find k.orderId) = [] := by
        apply List.length_eq_zero_iff.mp
        omega
      have hcount := h.unpushed hzero
      rw [hnone] at hor
      constructor
      · rw [List.countP_cons_of_pos hpushed, hzero]
        rcases hor with hsame | hnew
        · rw [hsame]
          exact Nat.zero_le _
        · rw [hnew]
          exact le_rfl
      · intro x hx
        rw [List.countP_cons_of_neg hcounted, hcount]
        rcases hor with hsame | hnew
        · rw [hsame] at hx
          cases hx
        · rw [hnew] at hx
          exact List.mem_singleton.mp hx
      · intro hempty
        rw [List.countP_cons_of_pos hpushed] at hempty
        omega
  | dropped hpushes hcounts hsub =>
      have hpushed : ¬ pushed k ev = true := by simp [pushed, hpushes]
      have hcounted : ¬ attemptCounted k ev = true := by simp [attemptCounted, hcounts]
      constructor
      · rw [List.countP_cons_of_neg hpushed]
        exact hsub.length_le.trans hlength
      · intro x hx
        rw [List.countP_cons_of_neg hcounted]
        exact h.counted x (hsub.subset hx)
      · rw [List.countP_cons_of_neg hpushed, List.countP_cons_of_neg hcounted]
        exact h.unpushed

end commits

section calls
variable (C : Crypto) (expiryMinutes : ℕ)

theorem findOrder_calls {S : Call → Prop} (orderId : Id) : (findOrder orderId).Calls S := by
  apply (Prog.calls_find _).bind
  intro found
  cases found <;> trivial

theorem sideEffect_calls {S : Call → Prop} : sideEffect.Calls S := by
  intro ok
  cases ok <;> trivial

theorem settle_calls (orderId : Id) (index : Option ℕ) (result : Otp.OtpVerifyResult) :
    (settle orderId index result).Calls Call.Fresh := by
  unfold settle
  split
  · trivial
  · trivial
  · trivial
  · exact (Prog.calls_perform (by trivial)).bind fun _ => trivial
  · exact (Prog.calls_perform (by trivial)).bind fun _ => sideEffect_calls
  · trivial

theorem handle_calls (q : Request) : (handle C expiryMinutes q).Calls Call.Fresh := by
  cases q with
  | createOrder id => exact Prog.calls_perform trivial
  | issue orderId purpose code salt =>
      apply (findOrder_calls _).bind
      intro order
      apply Prog.calls_getTime.bind
      intro now
      split_ifs
      · trivial
      · trivial
      · apply Prog.calls_getTime.bind
        intro issuedAt
        apply sideEffect_calls.bind
        intro _
        apply Prog.calls_getTime.bind
        intro createdAt
        apply (Prog.calls_perform (by trivial)).bind
        intro _
        apply (Prog.calls_perform (by rfl)).bind
        intro _
        exact sideEffect_calls
  | verify orderId purpose submittedOtp =>
      apply (findOrder_calls _).bind
      intro order
      split_ifs
      · trivial
      · apply (Prog.calls_perform (by trivial)).bind
        intro result
        exact settle_calls _ _ _
  | invalidateActive orderId =>
      apply Prog.calls_getTime.bind
      intro usedAt
      apply sideEffect_calls.bind
      intro _
      apply (Prog.calls_perform (by trivial)).bind
      intro _
      trivial

end calls

section runs
variable {C : Crypto} {expiryMinutes : ℕ} {P : Event Doc Call.Reply → Prop} {k : CodeRef}
variable {log : List (Event Doc Call.Reply)} {s : Sys Doc Call.Reply HttpError Unit}

theorem known (h : Run (machine C expiryMinutes) Store.empty P log s) :
    Run (machine C expiryMinutes) Store.empty
      (fun ev => (P ev ∧ ev.label.Fresh) ∧ Store.Older ev.base ev.before) log s :=
  (Run.calls (fun q _ _ _ => handle_calls C expiryMinutes q) h).2.snapshots

theorem attempts_tallied (h : Run (machine C expiryMinutes) Store.empty P log s)
    (honce : log.countP (pushed k) ≤ 1) : Tallied k log s.store := by
  have hrun : log.countP (pushed k) ≤ 1 → Tallied k log s.store := by
    apply (known h).logged (J := fun log store => log.countP (pushed k) ≤ 1 → Tallied k log store)
    · intro _
      constructor
      · exact Nat.zero_le _
      · intro x hx
        cases hx
      · intro _
        rfl
    · intro log ev hsound hP hlog honce
      have htail : log.countP (pushed k) ≤ 1 :=
        ((List.sublist_cons_self ev log).countP_le).trans honce
      exact commit_tallied hsound hP.2 hP.1.2 honce (hlog htail)
  exact hrun honce

/-- A comparison with the stored record finds fewer attempts than the cap there. -/
theorem compares_commit {ev : Event Doc Call.Reply} (hev : ev.Sound (machine C expiryMinutes))
    (hcompares : compared k ev = true) (hstored : comparesStored k ev = true) :
    ∃ n, some n ∈ tallies k (ev.before.find k.orderId) ∧ n < MAX_ATTEMPTS := by
  obtain ⟨i, label, base, env, began, ended, reply, view, before, after⟩ := ev
  cases label with
  | verifyOtp orderId record submittedOtp =>
      simp only [compared, Call.compares, Bool.and_eq_true, decide_eq_true_eq] at hcompares
      obtain ⟨-, hcompared⟩ := hcompares
      obtain ⟨t, u, ht, hverify⟩ := Tx.bind_ok hev.ran
      obtain ⟨hreply, -⟩ := Tx.pure_ok hverify
      have hresult : reply = Otp.verify C (record.map toOtp) submittedOtp MAX_ATTEMPTS t := hreply
      rw [hresult] at hcompared
      obtain ⟨r, hrecord, -, -, hlt⟩ := Otp.verify_compared hcompared
      obtain ⟨r', rfl, rfl⟩ := Option.map_eq_some_iff.mp hrecord
      have hmem : .code r' ∈ codes k (before.find k.orderId) := List.contains_iff_mem.mp hstored
      exact ⟨r'.attempts, List.mem_map_of_mem hmem, hlt⟩
  | _ => cases hcompares

theorem guesses_guarded (h : Run (machine C expiryMinutes) Store.empty P log s)
    (htime : CountedInTime k log) (honce : log.countP (pushed k) ≤ 1) :
    Otp.Guarded (compared k) (guessedWrong k) MAX_ATTEMPTS log := by
  rintro later ev earlier rfl hcompares
  obtain ⟨hstored, hle⟩ := htime.upTo hcompares
  obtain ⟨hsound, -, s', hrun, hbefore⟩ := h.upTo
  obtain ⟨n, hn, hlt⟩ := compares_commit hsound hcompares hstored
  have honce' : earlier.countP (pushed k) ≤ 1 := by
    apply le_trans ?_ honce
    apply List.Sublist.countP_le
    exact (List.sublist_cons_self _ _).trans (List.sublist_append_right _ _)
  rw [← hbefore] at hn
  have hattempts := (attempts_tallied hrun honce').counted _ hn
  injection hattempts with hattempts
  omega

end runs

theorem compared_of_wrong {k : CodeRef} {ev : Event Doc Call.Reply}
    (h : guessedWrong k ev = true) : compared k ev = true := by
  obtain ⟨i, label, base, env, began, ended, reply, view, before, after⟩ := ev
  cases label with
  | verifyOtp orderId record submittedOtp =>
      simp only [guessedWrong, Call.wrong, Bool.and_eq_true, decide_eq_true_eq] at h
      obtain ⟨hcode, rfl⟩ := h
      simp [compared, Call.compares, hcode, Otp.OtpVerifyResult.compared]
  | _ => cases h

/-- Without a match a verification returns nothing. -/
theorem settle_refuses (orderId : Id) (index : Option ℕ) {result : Otp.OtpVerifyResult}
    (h : result ≠ .match_) : (settle orderId index result).Yields fun _ => False := by
  unfold settle
  split
  · trivial
  · trivial
  · trivial
  · exact Prog.yields_bind fun _ => trivial
  · exact absurd rfl h
  · trivial

/-- While every comparison is made on the stored record with the earlier guesses counted,
a code of any kind is guessed at most as often as its cap allows. -/
theorem guessing_capped (C : Crypto) :
    (∀ cfg P log s, Run (Auth.machine C cfg) Store.empty P log s → ∀ k,
      Auth.CountedInTime k log →
        Otp.Capped (Auth.compared k) (Auth.guessedWrong k) (cfg.maxAttempts k) log) ∧
    (∀ expiryMinutes P log s, Run (machine C expiryMinutes) Store.empty P log s → ∀ k,
      CountedInTime k log → log.countP (pushed k) ≤ 1 →
        Otp.Capped (compared k) (guessedWrong k) MAX_ATTEMPTS log) ∧
    ∀ result, result ≠ .match_ →
      (∀ record resetToken,
        (Auth.settleReset C record resetToken result).Yields fun _ => False) ∧
      (∀ cfg record sid, (Auth.settleCode cfg record sid result).Yields fun _ => False) ∧
      ∀ orderId index, (settle orderId index result).Yields fun _ => False := by
  refine ⟨?_, ?_, ?_⟩
  · intro cfg P log s h k htime
    apply (Auth.guesses_guarded h htime).capped
    intro ev hev
    exact Auth.Call.compares_of_wrong hev
  · intro expiryMinutes P log s h k htime honce
    apply (guesses_guarded h htime honce).capped
    intro ev hev
    exact compared_of_wrong hev
  · intro result hne
    refine ⟨?_, ?_, ?_⟩
    · intro record resetToken
      exact Auth.settleReset_refuses C record resetToken hne
    · intro cfg record sid
      exact Auth.settleCode_refuses cfg record sid hne
    · intro orderId index
      exact settle_refuses orderId index hne

namespace Sample

/-- Requests that all compare a code before one of them goes on. -/
def guesses {Q : Type} (request : Q) (first requests steps : ℕ) : List (Act Q) :=
  (List.range requests).flatMap fun i => serving request (first + i) steps

def codeGuesses : List (Act Auth.Request) :=
  Auth.Sample.codeSent ++ guesses (Auth.Request.verifyCode "+201" "000000" "sid") 2 6 4

/-- A driver has asked for a code to set a new password with. -/
def resetGuesses : List (Act Auth.Request) :=
  serving (Auth.Request.createUser Auth.Sample.driver "old" "") 0 2 10 ++
    serving (Auth.Request.requestReset "+202" "123456" "salt") 1 12 20 ++
    guesses (Auth.Request.verifyReset "+202" "000000" "token") 2 6 3

def arrivalCode : CodeRef :=
  { orderId := 7
    hash := Otp.hashOtp Auth.Sample.crypto "123456" "salt"
    salt := "salt" }

def codeIssued : List (Act Request) :=
  serving (Request.createOrder 7) 0 2 ++ serving (Request.issue 7 .arrival "123456" "salt") 1 9

def orderGuesses : List (Act Request) :=
  codeIssued ++ guesses (Request.verify 7 .arrival "000000") 2 6 3

/-- Five guesses come one after the other, and then the right code. -/
def orderLocked : List (Act Request) :=
  codeIssued ++ guesses (Request.verify 7 .arrival "000000") 2 5 5 ++
    serving (Request.verify 7 .arrival "123456") 7 3

end Sample

theorem guessing_uncapped :
    (∃ log s, Run (Auth.machine Auth.Sample.crypto {}) Store.empty (fun _ => True) log s ∧
      log.countP (Auth.guessedWrong (.loginCode 20)) = 6) ∧
    (∃ log s, Run (Auth.machine Auth.Sample.crypto {}) Store.empty (fun _ => True) log s ∧
      log.countP (Auth.guessedWrong (.passwordReset 20)) = 6) ∧
    (∃ log s, Run (machine Auth.Sample.crypto 30) Store.empty (fun _ => True) log s ∧
      log.countP (guessedWrong Sample.arrivalCode) = 6) ∧
    ({} : Auth.AuthConfig).maxAttempts (.loginCode 20) = 5 ∧
    ({} : Auth.AuthConfig).maxAttempts (.passwordReset 20) = 5 ∧ MAX_ATTEMPTS = 5 := by
  refine ⟨?_, ?_, ?_, rfl, rfl, rfl⟩
  · obtain ⟨log, s, hrun, htest⟩ := exists_run (Auth.machine Auth.Sample.crypto {}) Store.empty
      (fun _ => True) Sample.codeGuesses
      (fun log _ => decide (log.countP (Auth.guessedWrong (.loginCode 20)) = 6))
      (by decide +kernel)
    exact ⟨log, s, hrun, of_decide_eq_true htest⟩
  · obtain ⟨log, s, hrun, htest⟩ := exists_run (Auth.machine Auth.Sample.crypto {}) Store.empty
      (fun _ => True) Sample.resetGuesses
      (fun log _ => decide (log.countP (Auth.guessedWrong (.passwordReset 20)) = 6))
      (by decide +kernel)
    exact ⟨log, s, hrun, of_decide_eq_true htest⟩
  · obtain ⟨log, s, hrun, htest⟩ := exists_run (machine Auth.Sample.crypto 30) Store.empty
      (fun _ => True) Sample.orderGuesses
      (fun log _ => decide (log.countP (guessedWrong Sample.arrivalCode) = 6))
      (by decide +kernel)
    exact ⟨log, s, hrun, of_decide_eq_true htest⟩

theorem guessing_capped_orderLocked : ∃ log s,
    Run (machine Auth.Sample.crypto 30) Store.empty (fun _ => True) log s ∧
      Otp.Capped (compared Sample.arrivalCode) (guessedWrong Sample.arrivalCode) MAX_ATTEMPTS log ∧
      log.countP (guessedWrong Sample.arrivalCode) = 5 ∧
      (Auth.settleCode {} none "" .mismatch).Yields fun _ => False := by
  obtain ⟨log, s, hrun, htest⟩ := exists_run (machine Auth.Sample.crypto 30) Store.empty
    (fun _ => True) Sample.orderLocked
    (fun log _ => decide (CountedInTime Sample.arrivalCode log) &&
      decide (log.countP (pushed Sample.arrivalCode) ≤ 1) &&
      decide (log.countP (guessedWrong Sample.arrivalCode) = 5)) (by decide +kernel)
  simp only [Bool.and_eq_true, decide_eq_true_eq] at htest
  obtain ⟨⟨htime, honce⟩, hcount⟩ := htest
  obtain ⟨-, horders, hrefused⟩ := guessing_capped Auth.Sample.crypto
  exact ⟨log, s, hrun, horders _ _ log s hrun _ htime honce, hcount,
    (hrefused .mismatch (by decide)).2.1 {} none ""⟩

end CiroFuel.Handover
