import CiroFuel.Cards.Pairing

/-!
# Recognising a card

A driver presents a card at the truck. The forms it may be stored in are looked up one after
another, so that a truck that has the canonical form goes before one that has the bytes the
other way round.
-/
namespace CiroFuel.Cards
open Snapshot Numerals

/-- The first truck that passes, of those that the acting user may see. -/
def findTruck (docs : Docs Doc) (scope : Option Id) (p : Truck → Bool) : Option (Id × Truck) :=
  docs.entries.findSome? fun e =>
    match e with
    | ⟨.truck id, t⟩ =>
        if p t && scope.all (fun companyId => companyId = t.companyId) then some (id, t) else none

def resolveCredential (docs : Docs Doc) (scope : Option Id) (credential : String) :
    VerificationMethod → Option (Id × Truck)
  | .qrCode => findTruck docs scope fun t => t.qrToken = some credential
  | .nfcCard =>
      (cardUidLookupCandidates credential).findSome? fun candidate =>
        findTruck docs scope fun t => t.nfcCardUid = some candidate

/-! ### Canonical forms -/

/-- Nothing is left of case or separators. -/
def Stripped (cs : List Char) : Prop := ∀ c ∈ cs, c.isAlphanum = true ∧ c.toUpper = c

section canonical

theorem isAlphanum_lt {c : Char} (h : c.isAlphanum = true) : c.toNat < 128 := by
  delta Char.isAlphanum Char.isAlpha Char.isUpper Char.isLower Char.isDigit at h
  simp only [Bool.or_eq_true, Bool.and_eq_true, decide_eq_true_eq, UInt32.le_iff_toNat_le] at h
  change c.val.toNat < 128
  have hbounds : 'Z'.val.toNat = 90 ∧ 'z'.val.toNat = 122 ∧ '9'.val.toNat = 57 := by decide
  omega

theorem toUpper_stripped {c : Char} (h : c.isAlphanum = true) :
    c.toUpper.isAlphanum = true ∧ c.toUpper.toUpper = c.toUpper := by
  have hall : ∀ n < 128, (Char.ofNat n).isAlphanum = true →
      (Char.ofNat n).toUpper.isAlphanum = true ∧
        (Char.ofNat n).toUpper.toUpper = (Char.ofNat n).toUpper := by
    decide +kernel
  have hc := hall c.toNat (isAlphanum_lt h)
  rw [Char.ofNat_toNat] at hc
  exact hc h

theorem stripped_strip (cs : List Char) :
    Stripped ((cs.filter Char.isAlphanum).map Char.toUpper) := by
  intro c hc
  obtain ⟨c₀, hmem, rfl⟩ := List.mem_map.mp hc
  exact toUpper_stripped (List.mem_filter.mp hmem).2

theorem Stripped.strip {cs : List Char} (h : Stripped cs) :
    (cs.filter Char.isAlphanum).map Char.toUpper = cs := by
  rw [List.filter_eq_self.mpr fun c hc => (h c hc).1]
  exact (List.map_congr_left fun c hc => (h c hc).2).trans (List.map_id _)

/-- The digits are those of a decimal number that fits into four bytes. -/
def Decimal (cs : List Char) : Prop :=
  (cs.length = DECIMAL_UID_LENGTH ∧ cs.all Char.isDigit = true) ∧
    Nat.ofDigitChars 10 cs 0 ≤ MAX_UINT32

theorem normalizeCardUid_of (raw : String) {cs : List Char}
    (hstrip : (raw.toList.filter Char.isAlphanum).map Char.toUpper = cs) :
    (Decimal cs ∧ normalizeCardUid raw = String.ofList
      (((Nat.toDigits 16 (Nat.ofDigitChars 10 cs 0)).map Char.toUpper).leftpad 8 '0')) ∨
    (¬ Decimal cs ∧ normalizeCardUid raw = String.ofList cs) := by
  simp only [normalizeCardUid, hstrip]
  split_ifs with hempty hten hmax
  · rw [List.isEmpty_iff] at hempty
    rw [hempty]
    exact Or.inr ⟨fun h => absurd h.1.1 (by decide), rfl⟩
  · exact Or.inl ⟨⟨by simpa using hten, hmax⟩, rfl⟩
  · exact Or.inr ⟨fun h => hmax h.2, rfl⟩
  · exact Or.inr ⟨fun h => hten (by simpa using h.1), rfl⟩

/-- A canonical form is stripped, and no decimal number. -/
theorem normalizeCardUid_form (raw : String) :
    ∃ cs, normalizeCardUid raw = String.ofList cs ∧ Stripped cs ∧ ¬ Decimal cs := by
  rcases normalizeCardUid_of raw rfl with ⟨hdecimal, heq⟩ | ⟨hdecimal, heq⟩
  · rw [leftpad_upper (Nat.lt_of_le_of_lt hdecimal.2 (by decide))] at heq
    refine ⟨_, heq, fun c hc => ?_, fun h => ?_⟩
    · obtain ⟨d, hd, rfl⟩ := List.mem_map.mp hc
      have hhex : ∀ d < 16, (hexChar d).isAlphanum = true ∧ (hexChar d).toUpper = hexChar d := by
        decide
      exact hhex d (digits_lt (by decide) hd)
    · have hlength := h.1.1
      rw [List.length_map, length_digits] at hlength
      exact absurd hlength (by decide)
  · exact ⟨_, heq, stripped_strip _, hdecimal⟩

theorem normalizeCardUid_stripped {cs : List Char} (h : Stripped cs) (hdecimal : ¬ Decimal cs) :
    normalizeCardUid (String.ofList cs) = String.ofList cs := by
  have hstrip : ((String.ofList cs).toList.filter Char.isAlphanum).map Char.toUpper = cs := by
    rw [String.toList_ofList]
    exact h.strip
  rcases normalizeCardUid_of _ hstrip with ⟨hyes, -⟩ | ⟨-, heq⟩
  · exact absurd hyes hdecimal
  · exact heq

theorem normalizeCardUid_idempotent (raw : String) :
    normalizeCardUid (normalizeCardUid raw) = normalizeCardUid raw := by
  obtain ⟨cs, heq, hstripped, hdecimal⟩ := normalizeCardUid_form raw
  rw [heq]
  exact normalizeCardUid_stripped hstripped hdecimal

end canonical

/-! ### Lookups -/

section lookups
variable {s : Store Doc} {scope : Option Id} {p : Truck → Bool} {id : Id} {t : Truck}

theorem findTruck_some (h : findTruck s.docs scope p = some (id, t)) :
    s.find (Key.truck id) = some t ∧ p t = true := by
  obtain ⟨⟨⟨id'⟩, t'⟩, hmem, htest⟩ := List.exists_of_findSome?_eq_some h
  dsimp only at htest
  split_ifs at htest with hpass
  cases htest
  exact ⟨AList.mem_lookup_iff.mpr hmem, (Bool.and_eq_true_iff.mp hpass).1⟩

/-- The only truck that passes is found if it may be seen. -/
theorem findTruck_only (ht : s.find (Key.truck id) = some t) (hp : p t = true)
    (hscope : scope.all (fun companyId => companyId = t.companyId) = true)
    (honly : ∀ id' t', s.find (Key.truck id') = some t' → p t' = true → id' = id) :
    findTruck s.docs scope p = some (id, t) := by
  cases hfound : findTruck s.docs scope p with
  | none =>
      have hmem : (⟨Key.truck id, t⟩ : Sigma Doc) ∈ s.docs.entries := AList.mem_lookup_iff.mp ht
      have htest := List.findSome?_eq_none_iff.mp hfound _ hmem
      simp [hp, hscope] at htest
  | some found =>
      obtain ⟨id', t'⟩ := found
      obtain ⟨ht', hp'⟩ := findTruck_some hfound
      obtain rfl := honly id' t' ht' hp'
      obtain rfl := Option.some.inj (ht'.symm.trans ht)
      rfl

theorem uid_eq (ht : s.find (Key.truck id) = some t) : uid s id = t.nfcCardUid := by
  rw [uid, ht]
  rfl

/-- A form that the truck is stored in finds it, as no other truck has that form. -/
theorem find_uid {x : String} (ht : s.find (Key.truck id) = some t) (hx : t.nfcCardUid = some x)
    (hscope : scope.all (fun companyId => companyId = t.companyId) = true) :
    findTruck s.docs scope (fun t => t.nfcCardUid = some x) = some (id, t) := by
  refine findTruck_only ht (decide_eq_true hx) hscope fun id' t' ht' hx' => ?_
  exact uid_unique ((uid_eq ht').trans (of_decide_eq_true hx')) ((uid_eq ht).trans hx)

/-- Of the forms that are tried, one that the truck is stored in finds it, unless another truck
is stored in one before it. -/
theorem findSome_uid {x : String} (ht : s.find (Key.truck id) = some t)
    (hx : t.nfcCardUid = some x)
    (hscope : scope.all (fun companyId => companyId = t.companyId) = true)
    {candidates : List String} (hmem : x ∈ candidates)
    (hearlier : ∀ x' ∈ candidates.takeWhile (· ≠ x), ∀ id', uid s id' = some x' → id' = id) :
    candidates.findSome? (fun candidate =>
      findTruck s.docs scope fun t => t.nfcCardUid = some candidate) = some (id, t) := by
  induction candidates with
  | nil => cases hmem
  | cons x' candidates ih =>
      rw [List.findSome?_cons]
      by_cases hhead : x' = x
      · subst hhead
        rw [find_uid ht hx hscope]
      · rw [List.takeWhile_cons_of_pos (by simpa using hhead)] at hearlier
        have hmiss : findTruck s.docs scope (fun t => t.nfcCardUid = some x') = none := by
          cases hfound : findTruck s.docs scope fun t => t.nfcCardUid = some x' with
          | none => rfl
          | some found =>
              obtain ⟨id', t'⟩ := found
              obtain ⟨ht', hx'⟩ := findTruck_some hfound
              have huid : uid s id' = some x' := (uid_eq ht').trans (of_decide_eq_true hx')
              obtain rfl := hearlier x' List.mem_cons_self id' huid
              rw [uid_eq ht] at huid
              exact absurd (Option.some.inj (huid.symm.trans hx)) hhead
        rw [hmiss]
        exact ih ((List.mem_cons.mp hmem).resolve_left (Ne.symm hhead))
          fun x₁ hx₁ => hearlier x₁ (List.mem_cons_of_mem _ hx₁)

theorem cardUidLookupCandidates_head {raw : String} (h : normalizeCardUid raw ≠ "") :
    ∃ rest, cardUidLookupCandidates raw = normalizeCardUid raw :: rest := by
  simp only [cardUidLookupCandidates, if_neg h]
  cases reverseCardUidBytes (normalizeCardUid raw) with
  | none =>
      dsimp only
      split_ifs
      · exact ⟨_, rfl⟩
      · exact ⟨_, rfl⟩
  | some reversed =>
      dsimp only
      split_ifs
      · exact ⟨_, rfl⟩
      · exact ⟨_, rfl⟩
      · exact ⟨_, rfl⟩
      · exact ⟨_, rfl⟩

/-- The canonical form goes before all others. -/
theorem resolve_canonical {raw : String} (ht : s.find (Key.truck id) = some t)
    (hx : t.nfcCardUid = some (normalizeCardUid raw)) (hne : normalizeCardUid raw ≠ "")
    (hscope : scope.all (fun companyId => companyId = t.companyId) = true) :
    resolveCredential s.docs scope raw .nfcCard = some (id, t) := by
  obtain ⟨rest, hcandidates⟩ := cardUidLookupCandidates_head hne
  rw [resolveCredential, hcandidates]
  refine findSome_uid ht hx hscope List.mem_cons_self fun x' hx' => ?_
  rw [List.takeWhile_cons_of_neg (by simp)] at hx'
  cases hx'

end lookups

section runs
variable {P : Event Doc Call.Reply → Prop} {log : List (Event Doc Call.Reply)} {s₀ : Store Doc}
variable {s : Sys Doc Call.Reply HttpError Answer}

/-- A truck that was paired with a reading of a card is found by any other reading of it, unless
another truck is stored in a form that is tried before; the canonical form is tried first. -/
theorem card_recognised (h : Run machine s₀ P log s) (scope : Option Id) :
    (∀ (id : Id) (t : Truck) (x y : Reading), s.store.find (Key.truck id) = some t →
      scope.all (fun companyId => companyId = t.companyId) = true →
      pairedWith log id = some x → x.card = y.card →
      (∀ candidate ∈ (cardUidLookupCandidates y.raw).takeWhile (· ≠ normalizeCardUid x.raw),
        ∀ id', uid s.store id' = some candidate → id' = id) →
      resolveCredential s.store.docs scope y.raw .nfcCard = some (id, t)) ∧
    (∀ raw, normalizeCardUid (normalizeCardUid raw) = normalizeCardUid raw) ∧
    ∀ (id : Id) (t : Truck) (y : Reading), s.store.find (Key.truck id) = some t →
      scope.all (fun companyId => companyId = t.companyId) = true →
      t.nfcCardUid = some (normalizeCardUid y.raw) →
      resolveCredential s.store.docs scope y.raw .nfcCard = some (id, t) := by
  refine ⟨fun id t x y ht hscope hx hcard hearlier => ?_, normalizeCardUid_idempotent,
    fun id t y ht hscope hx => resolve_canonical ht hx (normalizeCardUid_reading_ne y) hscope⟩
  have huid : t.nfcCardUid = some (normalizeCardUid x.raw) :=
    (uid_eq ht).symm.trans (uid_of_pairedWith h hx)
  exact findSome_uid ht huid hscope (stored_mem_candidates hcard) hearlier

end runs

theorem exists_pairing {log : List (Event Doc Call.Reply)} {id : Id} {presented : Presented}
    (h : latest log id = some presented) :
    ∃ ev ∈ log, ev.label.pairs ev.reply = some (id, presented) := by
  induction log with
  | nil => cases h
  | cons ev log ih =>
      rw [latest] at h
      cases hpairs : ev.label.pairs ev.reply with
      | none =>
          rw [hpairs] at h
          obtain ⟨ev', hmem, hev'⟩ := ih h
          exact ⟨ev', List.mem_cons_of_mem _ hmem, hev'⟩
      | some paired =>
          obtain ⟨id', presented'⟩ := paired
          rw [hpairs] at h
          dsimp only at h
          split_ifs at h with hid
          · subst hid
            cases h
            exact ⟨ev, List.mem_cons_self, hpairs⟩
          · obtain ⟨ev', hmem, hev'⟩ := ih h
            exact ⟨ev', List.mem_cons_of_mem _ hmem, hev'⟩

/-- The phone has paired the card; the desk reader shows its bytes the other way round. -/
theorem card_recognised_reversed : ∃ log s t, Run machine Store.empty (fun _ => True) log s ∧
    resolveCredential s.store.docs (some 11) Sample.reversed.raw .nfcCard = some (1, t) := by
  obtain ⟨log, s, hrun, htest⟩ := exists_run machine Store.empty (fun _ => True) Sample.trucks
    (fun log s => (pairedWith log 1).any (fun r => r.card.uid = Sample.card.uid) &&
      Option.any (fun t : Truck => t.companyId = 11) (s.store.find (Key.truck 1)) &&
      log.all fun ev => (ev.label.pairs ev.reply).all (·.1 = 1))
    (by decide +kernel)
  obtain ⟨hfirst, honly⟩ := Bool.and_eq_true_iff.mp htest
  obtain ⟨hpaired, hstored⟩ := Bool.and_eq_true_iff.mp hfirst
  obtain ⟨r, hr, hcard⟩ := (Option.any_eq_true _ _).mp hpaired
  obtain ⟨t, ht, hcompany⟩ := (Option.any_eq_true _ _).mp hstored
  have hsame : r.card = Sample.reversed.card := Card.ext (of_decide_eq_true hcard)
  have hscope : (some 11 : Option Id).all (fun companyId => companyId = t.companyId) = true := by
    simpa [eq_comm] using hcompany
  refine ⟨log, s, t, hrun, (card_recognised hrun (some 11)).1 1 t r _ ht hscope hr hsame ?_⟩
  intro candidate hmem id' huid
  rw [run_recorded hrun] at huid
  cases hlatest : latest log id' with
  | none =>
      rw [hlatest] at huid
      cases huid
  | some presented =>
      obtain ⟨ev, hev, hpairs⟩ := exists_pairing hlatest
      have hone := List.all_eq_true.mp honly ev hev
      rw [hpairs] at hone
      exact of_decide_eq_true hone

end CiroFuel.Cards
