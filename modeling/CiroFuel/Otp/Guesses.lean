import CiroFuel.Otp.Primitives

/-!
# Counting guesses

A history of comparisons, latest first. If none was made once the cap of wrong
ones was reached, there never were more wrong ones than the cap.
-/
namespace CiroFuel.Otp

variable {E : Type} {compares wrong : E → Bool} {cap : ℕ} {log : List E}

/-- Before every comparison there were fewer wrong ones than the cap. -/
def Guarded (compares wrong : E → Bool) (cap : ℕ) (log : List E) : Prop :=
  ∀ later ev earlier, log = later ++ ev :: earlier → compares ev = true →
    earlier.countP wrong < cap

theorem Guarded.tail {ev : E} (h : Guarded compares wrong cap (ev :: log)) :
    Guarded compares wrong cap log := by
  intro later ev' earlier hlog
  exact h (ev :: later) ev' earlier (by rw [hlog, List.cons_append])

theorem Guarded.count_le (hwrong : ∀ ev, wrong ev = true → compares ev = true)
    (h : Guarded compares wrong cap log) : log.countP wrong ≤ cap := by
  induction log with
  | nil => exact Nat.zero_le _
  | cons ev log ih =>
      have htail := ih h.tail
      cases hev : wrong ev with
      | true =>
          have hlt := h [] ev log rfl (hwrong ev hev)
          rw [List.countP_cons_of_pos hev]
          omega
      | false =>
          rw [List.countP_cons_of_neg (by simp [hev])]
          exact htail

/-- Once the cap is reached nothing is compared. -/
theorem Guarded.locked (h : Guarded compares wrong cap log) {later earlier : List E} {ev : E}
    (hlog : log = later ++ ev :: earlier) (hcap : cap ≤ earlier.countP wrong) :
    compares ev = false := by
  cases hev : compares ev with
  | false => rfl
  | true =>
      have hlt := h later ev earlier hlog hev
      omega

/-- There are no more wrong comparisons than the cap, and none of any kind after it. -/
structure Capped (compares wrong : E → Bool) (cap : ℕ) (log : List E) : Prop where
  within : log.countP wrong ≤ cap
  locked : ∀ later ev earlier, log = later ++ ev :: earlier → cap ≤ earlier.countP wrong →
    compares ev = false

theorem Guarded.capped (hwrong : ∀ ev, wrong ev = true → compares ev = true)
    (h : Guarded compares wrong cap log) : Capped compares wrong cap log := by
  constructor
  · exact h.count_le hwrong
  · intro later ev earlier hlog hcap
    exact h.locked hlog hcap

/-- Every comparison is made on the record as stored, after all earlier wrong ones have
been counted there. -/
def CountedInTime (compares stored wrong counted : E → Bool) : List E → Prop
  | [] => True
  | ev :: earlier =>
      (compares ev = true → stored ev = true ∧ earlier.countP wrong ≤ earlier.countP counted) ∧
        CountedInTime compares stored wrong counted earlier

instance decidableCountedInTime (compares stored wrong counted : E → Bool) :
    (log : List E) → Decidable (CountedInTime compares stored wrong counted log)
  | [] => isTrue trivial
  | _ :: earlier =>
      @instDecidableAnd _ _ inferInstance
        (decidableCountedInTime compares stored wrong counted earlier)

theorem CountedInTime.upTo {stored counted : E → Bool} {later earlier : List E} {ev : E}
    (h : CountedInTime compares stored wrong counted (later ++ ev :: earlier))
    (hev : compares ev = true) :
    stored ev = true ∧ earlier.countP wrong ≤ earlier.countP counted := by
  induction later with
  | nil => exact h.1 hev
  | cons ev' later ih => exact ih h.2

end CiroFuel.Otp
