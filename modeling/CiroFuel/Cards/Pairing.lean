import CiroFuel.Cards.Uid
import CiroFuel.Snapshot.Single
import CiroFuel.Snapshot.Execution
import CiroFuel.Snapshot.History

/-!
# One truck per card

Pairing stores the canonical form of what the reader has shown. The index on it
keeps two trucks from having the same form, not from having the two forms of one
card. Which card was held to the reader is known to nobody but the log.
-/
namespace CiroFuel.Cards
open Snapshot

structure Truck where
  companyId : Id
  plateNumber : String
  nfcCardUid : Option String := none
  qrToken : Option String := none
deriving DecidableEq

inductive Key where
  | truck (id : Id)
deriving DecidableEq

@[reducible] def Doc : Key → Type
  | .truck _ => Truck

/-- What at most one truck may have. -/
inductive Unique where
  | plate (companyId : Id) (plateNumber : String)
  | card (nfcCardUid : String)
  | token (qrToken : String)
deriving DecidableEq

instance : Indexed Doc Unique where
  entries
    | .truck _, (t : Truck) =>
        .plate t.companyId t.plateNumber ::
          (t.nfcCardUid.map Unique.card).toList ++ (t.qrToken.map Unique.token).toList

inductive HttpError where
  | cardIdentifierRequired
  | truckNotFound
  | duplicatePlate
  | cardAlreadyPaired (heldByTruckId : Option Id) (heldByPlateNumber : Option String)
deriving DecidableEq

/-- What is sent as a card identifier: a reading of a card, or any other text. -/
inductive Presented where
  | card (reading : Reading)
  | text (raw : String)

def Presented.raw : Presented → String
  | .card reading => reading.raw
  | .text raw => raw

def Presented.reading : Presented → Option Reading
  | .card reading => some reading
  | .text _ => none

abbrev Action := Tx Doc HttpError

inductive Call where
  | create (id companyId : Id) (plateNumber : String)
  | update (id : Id) (plateNumber : Option String)
  | pairCard (id : Id) (presented : Presented)
  | setQrToken (id : Id) (qrToken : Option String)

namespace Call

@[reducible] def Reply : Call → Type
  | .create .. => Unit
  | .update .. => Option Truck
  | .pairCard .. => Option Truck
  | .setQrToken .. => Option Truck

def body : (c : Call) → Action c.Reply
  | .create id companyId plateNumber =>
      Tx.insert (Key.truck id) (⟨companyId, plateNumber, none, none⟩ : Truck)
  | .update id plateNumber =>
      Tx.findOneAndUpdate (Key.truck id) (fun _ => true) fun t : Truck =>
        { t with plateNumber := plateNumber.getD t.plateNumber }
  | .pairCard id presented =>
      Tx.findOneAndUpdate (Key.truck id) (fun _ => true) fun t : Truck =>
        { t with nfcCardUid := some (normalizeCardUid presented.raw), qrToken := none }
  | .setQrToken id qrToken =>
      Tx.findOneAndUpdate (Key.truck id) (fun _ => true) fun t : Truck =>
        { t with qrToken := qrToken }

end Call

abbrev Handler := Prog Doc Call.Reply HttpError

def holderOf (docs : Docs Doc) (nfcCardUid : String) : Option (Id × Truck) :=
  docs.entries.findSome? fun e =>
    match e with
    | ⟨.truck id, t⟩ => if t.nfcCardUid = some nfcCardUid then some (id, t) else none

abbrev perform (l : Call) : Handler l.Reply := Prog.perform l

abbrev attempt (l : Call) : Handler (Except (Failure HttpError) l.Reply) := Prog.attempt l

def requireTruck : Option Truck → Handler Truck
  | some truck => return truck
  | none => Prog.throw .truckNotFound

def create (id companyId : Id) (plateNumber : String) : Handler Unit := do
  match ← attempt (.create id companyId plateNumber) with
  | .ok _ => return ()
  | .error .duplicateKey => Prog.throw .duplicatePlate
  | .error e => .fail e

def update (id : Id) (plateNumber : Option String) : Handler Truck := do
  match ← attempt (.update id plateNumber) with
  | .ok truck => requireTruck truck
  | .error .duplicateKey => Prog.throw .duplicatePlate
  | .error e => .fail e

/-- The truck that has the card is looked up only to name it in the refusal. -/
def pairCard (id : Id) (presented : Presented) : Handler Truck := do
  let nfcCardUid := normalizeCardUid presented.raw
  if nfcCardUid = "" then Prog.throw .cardIdentifierRequired
  else do
    match ← attempt (.pairCard id presented) with
    | .ok truck => requireTruck truck
    | .error .duplicateKey => do
        let holder := holderOf (← Prog.scan) nfcCardUid
        Prog.throw (.cardAlreadyPaired (holder.map (·.1)) (holder.map (·.2.plateNumber)))
    | .error e => .fail e

def setQrToken (id : Id) (qrToken : Option String) : Handler Truck := do
  let truck ← perform (.setQrToken id qrToken)
  requireTruck truck

inductive Request where
  | create (id companyId : Id) (plateNumber : String)
  | update (id : Id) (plateNumber : Option String)
  | pairCard (id : Id) (presented : Presented)
  | mintQrToken (id : Id) (qrToken : String)
  | revokeQrToken (id : Id)

inductive Answer where
  | done
  | truck (truck : Truck)

def answering (handler : Handler Truck) : Handler Answer := do
  let truck ← handler
  return .truck truck

def handle : Request → Handler Answer
  | .create id companyId plateNumber => do
      create id companyId plateNumber
      return .done
  | .update id plateNumber => answering (update id plateNumber)
  | .pairCard id presented => answering (pairCard id presented)
  | .mintQrToken id qrToken => answering (setQrToken id (some qrToken))
  | .revokeQrToken id => answering (setQrToken id none)

def machine : Machine Doc Call.Reply HttpError Request Answer where
  body := Call.body
  isolated _ := false
  handle := handle
  admits _ _ _ := true

/-! ### Cards on trucks -/

/-- The truck that was paired, and with what. -/
def Call.pairs : (c : Call) → c.Reply → Option (Id × Presented)
  | .pairCard id presented, some _ => some (id, presented)
  | _, _ => none

/-- What the truck was last paired with; the log has its latest commit first. -/
def latest : List (Event Doc Call.Reply) → Id → Option Presented
  | [], _ => none
  | ev :: log, id =>
      match ev.label.pairs ev.reply with
      | some (id', presented) => if id' = id then some presented else latest log id
      | none => latest log id

/-- The card on the truck, and how it was read. -/
def pairedWith (log : List (Event Doc Call.Reply)) (id : Id) : Option Reading :=
  (latest log id).bind Presented.reading

def OneTruckPerCard (log : List (Event Doc Call.Reply)) : Prop :=
  ∀ id id' r r', pairedWith log id = some r → pairedWith log id' = some r' → r.card = r'.card →
    id = id'

/-- No other truck has the card that is paired, read in the other byte order. -/
def SameByteOrder (earlier : List (Event Doc Call.Reply)) (ev : Event Doc Call.Reply) : Prop :=
  ∀ id r, ev.label.pairs ev.reply = some (id, .card r) →
    ∀ id' r', pairedWith earlier id' = some r' → id' ≠ id → r'.card = r.card → r'.bytes = r.bytes

def uid (s : Store Doc) (id : Id) : Option String :=
  let truck : Option Truck := s.find (Key.truck id)
  truck.bind Truck.nfcCardUid

/-! ### Commits -/

section commits
variable {ev : Event Doc Call.Reply}

/-- A rewritten truck; the others are as they were. -/
theorem uid_put (hev : ev.Sound machine) (id : Id) (t : Truck)
    (hview : ev.view = (View.start ev.base.docs).put (Key.truck id) t) (id' : Id) :
    uid ev.after id' = if id' = id then t.nfcCardUid else uid ev.before id' := by
  obtain ⟨hbase, hafter⟩ := hev.stored rfl
  split_ifs with hid
  · rw [hid, uid, hafter, hview, View.find_put_self]
    rfl
  · rw [uid, hafter, hview, View.find_put_ne _ _ (by simpa using hid), uid, ← hbase]
    rfl

/-- A rewritten truck that keeps its card. -/
theorem uid_kept (hev : ev.Sound machine) (id : Id) (f : Truck → Truck) (r : Option Truck)
    (hf : ∀ t, (f t).nfcCardUid = t.nfcCardUid)
    (hrun : (Tx.findOneAndUpdate (Key.truck id) (fun _ => true) f : Action (Option Truck)).run
      ev.env (View.start ev.base.docs) = .ok (r, ev.view)) (id' : Id) :
    uid ev.after id' = uid ev.before id' := by
  rcases Tx.findOneAndUpdate_ok hrun with ⟨t, ht, -, -, -, hview⟩ | ⟨-, hview, -⟩
  · rw [uid_put hev _ _ hview]
    split_ifs with hid
    · obtain ⟨hbase, -⟩ := hev.stored rfl
      have hbefore : ev.before.find (Key.truck id) = some t := hbase ▸ ht
      rw [hf, hid, uid, hbefore]
      rfl
    · rfl
  · have hsame := hev.untouched rfl (fun k => by
      rw [hview, ← (hev.stored rfl).1]
      rfl)
    rw [uid, hsame, uid]

/-- A commit changes the card of the truck that it pairs, and no other. -/
theorem call_uid (hev : ev.Sound machine) (id' : Id) :
    uid ev.after id' = match ev.label.pairs ev.reply with
      | some (id, presented) =>
          if id = id' then some (normalizeCardUid presented.raw) else uid ev.before id'
      | none => uid ev.before id' := by
  have hput := uid_put hev
  have hkept := uid_kept hev
  have hsame := hev.untouched rfl
  have hbase := (hev.stored rfl).1
  obtain ⟨i, label, base, env, began, ended, reply, view, before, after⟩ := ev
  have hran : (Call.body label).run env (View.start base.docs) = .ok (reply, view) := hev.ran
  dsimp only at hbase hput hkept hsame ⊢
  cases label with
  | create id companyId plateNumber =>
      have hinsert : (Tx.insert (Key.truck id)
        (⟨companyId, plateNumber, none, none⟩ : Truck) : Action Unit).run env
          (View.start base.docs) = .ok (reply, view) := hran
      obtain ⟨hnone, -, hview⟩ := Tx.insert_ok hinsert
      have hbefore : before.find (Key.truck id) = none := hbase ▸ hnone
      rw [hput id _ hview]
      split_ifs with hid
      · rw [hid, uid, hbefore]
        rfl
      · rfl
  | update id plateNumber =>
      exact hkept id (fun t => { t with plateNumber := plateNumber.getD t.plateNumber }) reply
        (fun _ => rfl) hran id'
  | setQrToken id qrToken =>
      exact hkept id (fun t => { t with qrToken := qrToken }) reply (fun _ => rfl) hran id'
  | pairCard id presented =>
      rcases Tx.findOneAndUpdate_ok hran with ⟨t, -, -, -, hreply, hview⟩ | ⟨hreply, hview, -⟩
      · rw [hput id _ hview, hreply]
        simp only [Call.pairs, eq_comm]
      · rw [hreply]
        have hfind := hsame (fun k => by
          rw [hview, ← hbase]
          rfl)
        rw [uid, hfind]
        rfl

end commits

/-! ### Runs -/

section run
variable {P : Event Doc Call.Reply → Prop} {log : List (Event Doc Call.Reply)}
variable {s : Sys Doc Call.Reply HttpError Answer}

/-- A truck that has been paired has the canonical form of what it was last paired with, the
others have what they had at first. -/
theorem run_recorded {init : Store Doc} (h : Run machine init P log s) (id : Id) :
    uid s.store id = (latest log id).elim (uid init id) fun presented =>
      some (normalizeCardUid presented.raw) := by
  have hall : ∀ id, uid s.store id = (latest log id).elim (uid init id) fun presented =>
      some (normalizeCardUid presented.raw) := by
    refine Run.logged (J := fun log s => ∀ id, uid s id = (latest log id).elim (uid init id)
      fun presented => some (normalizeCardUid presented.raw)) ?_ ?_ h
    · intro id
      rfl
    · intro log ev hev _ ih id
      rw [call_uid hev, latest]
      cases ev.label.pairs ev.reply with
      | none => exact ih id
      | some paired =>
          simp only
          split_ifs
          · rfl
          · exact ih id
  exact hall id

/-- Two trucks do not have one canonical form. -/
theorem uid_unique {s : Store Doc} {id id' : Id} {x : String} (h : uid s id = some x)
    (h' : uid s id' = some x) : id = id' := by
  obtain ⟨t, ht, hcard⟩ := Option.bind_eq_some_iff.mp h
  obtain ⟨t', ht', hcard'⟩ := Option.bind_eq_some_iff.mp h'
  have hmem : ∀ t : Truck, t.nfcCardUid = some x →
      Unique.card x ∈ Indexed.entries (D := Doc) (Key.truck id) t := by
    intro t ht
    simp [Indexed.entries, ht]
  have hkey := s.unique _ _ t t' (Unique.card x) ht ht' (hmem t hcard) (hmem t' hcard')
  cases hkey
  rfl

theorem uid_of_pairedWith {init : Store Doc} (h : Run machine init P log s) {id : Id} {r : Reading}
    (hr : pairedWith log id = some r) : uid s.store id = some (normalizeCardUid r.raw) := by
  obtain ⟨presented, hlatest, hreading⟩ := Option.bind_eq_some_iff.mp hr
  rw [run_recorded h, hlatest]
  cases presented with
  | card r' =>
      cases hreading
      rfl
  | text raw => cases hreading

/-- Readings that show the same bytes are on the same truck. -/
theorem pairedWith_same (h : Run machine Store.empty P log s) {id id' : Id} {r r' : Reading}
    (hr : pairedWith log id = some r) (hr' : pairedWith log id' = some r')
    (hbytes : r.bytes = r'.bytes) : id = id' := by
  apply uid_unique (uid_of_pairedWith h hr)
  rw [normalizeCardUid_congr hbytes]
  exact uid_of_pairedWith h hr'

theorem pairedWith_cons (ev : Event Doc Call.Reply) (log : List (Event Doc Call.Reply)) (id : Id) :
    pairedWith (ev :: log) id = match ev.label.pairs ev.reply with
      | some (id', presented) => if id' = id then presented.reading else pairedWith log id
      | none => pairedWith log id := by
  rw [pairedWith, latest]
  cases ev.label.pairs ev.reply with
  | none => rfl
  | some paired =>
      simp only
      split_ifs
      · rfl
      · rfl

/-- Another truck that has the same card has been read in the same byte order, if the
condition is met, so it is the same truck. -/
theorem paired_apart {ev : Event Doc Call.Reply} {id id' : Id} {presented : Presented}
    {r r' : Reading} (h : Run machine Store.empty P (ev :: log) s)
    (hpairs : ev.label.pairs ev.reply = some (id, presented)) (hcard : presented.reading = some r)
    (hr' : pairedWith log id' = some r') (hsame : r.card = r'.card) (horder : SameByteOrder log ev) :
    id = id' := by
  by_contra hne
  have hpresented : presented = .card r := by
    cases presented with
    | card r₀ =>
        cases hcard
        rfl
    | text raw => cases hcard
  rw [hpresented] at hpairs
  have hbytes := horder id r hpairs id' r' hr' (fun heq => hne heq.symm) hsame.symm
  have hself : pairedWith (ev :: log) id = some r := by
    rw [pairedWith_cons, hpairs]
    exact if_pos rfl
  have hother : pairedWith (ev :: log) id' = some r' := by
    rw [pairedWith_cons, hpairs]
    exact (if_neg hne).trans hr'
  exact hne (pairedWith_same h hself hother hbytes.symm)

theorem one_truck_step {ev : Event Doc Call.Reply}
    (h : Run machine Store.empty P (ev :: log) s) (hone : OneTruckPerCard log)
    (horder : SameByteOrder log ev) : OneTruckPerCard (ev :: log) := by
  intro id id' r r' hr hr' hcard
  rw [pairedWith_cons] at hr hr'
  cases hpairs : ev.label.pairs ev.reply with
  | none =>
      rw [hpairs] at hr hr'
      exact hone id id' r r' hr hr' hcard
  | some paired =>
      obtain ⟨k, presented⟩ := paired
      rw [hpairs] at hr hr'
      simp only at hr hr'
      split_ifs at hr hr' with hid hid' hid'
      · exact hid.symm.trans hid'
      · subst hid
        exact paired_apart h hpairs hr hr' hcard horder
      · subst hid'
        exact (paired_apart h hpairs hr' hr hcard.symm horder).symm
      · exact hone id id' r r' hr hr' hcard

/-- No card is ever on two trucks exactly if no pairing presents a card, read in the other
byte order, that another truck has. -/
theorem one_truck_per_card_iff (h : Run machine Store.empty P log s) :
    (∀ later earlier, log = later ++ earlier → OneTruckPerCard earlier) ↔
      ∀ later ev earlier, log = later ++ ev :: earlier → SameByteOrder earlier ev := by
  constructor
  · intro hone later ev earlier hlog id r hpairs id' r' hr' hne hcard
    have hself : pairedWith (ev :: earlier) id = some r := by
      rw [pairedWith_cons, hpairs]
      exact if_pos rfl
    have hother : pairedWith (ev :: earlier) id' = some r' := by
      rw [pairedWith_cons, hpairs]
      exact (if_neg hne.symm).trans hr'
    exact absurd (hone later _ hlog id' id r' r hother hself hcard) hne
  · intro horder later earlier hlog
    induction earlier generalizing later with
    | nil =>
        intro id id' r r' hr
        cases hr
    | cons ev earlier ih =>
        have hone : OneTruckPerCard earlier := by
          apply ih (later ++ [ev])
          rw [hlog, List.append_assoc]
          rfl
        rw [hlog] at h
        obtain ⟨s', hrun⟩ := h.cut
        exact one_truck_step hrun hone (horder later ev earlier hlog)

end run
namespace Sample

def card : Card := ⟨[0x04, 0xa2, 0xb3, 0xc4], by decide, by decide⟩

def otherCard : Card := ⟨[0x04, 0x1a, 0x2b, 0x3c, 0x4d, 0x5e, 0x6f], by decide, by decide⟩

/-- What a reader that shows hexadecimal digits makes of a card. -/
def hexadecimal (card : Card) (order : ByteOrder) (raw : String)
    (h : (raw.toList.filter Char.isAlphanum).map Char.toUpper = card.shown order .hexadecimal) :
    Reading where
  card := card
  order := order
  radix := .hexadecimal
  raw := raw
  four h := by cases h
  dresses := dresses_iff.mpr h

def phone : Reading := hexadecimal card .forward "04:a2:b3:c4" (by decide +kernel)

def reversed : Reading := hexadecimal card .backward "C4 B3 A2 04" (by decide +kernel)

def other : Reading := hexadecimal otherCard .forward "041a2b3c4d5e6f" (by decide +kernel)

def desk : Reading where
  card := card
  order := .forward
  radix := .decimal
  raw := "0077771716"
  four _ := rfl
  dresses := dresses_iff.mpr (by decide +kernel)

def trucks : List (Act Request) :=
  serving (Request.create 1 11 "T-1") 0 2 ++ serving (Request.create 2 11 "T-2") 1 2 ++
    serving (Request.pairCard 1 (.card phone)) 2 2

/-- The desk reader's decimal number is refused until truck 1 has another card. -/
def moved : List (Act Request) :=
  trucks ++ serving (Request.pairCard 2 (.card desk)) 3 3 ++
    serving (Request.pairCard 1 (.card other)) 4 2 ++
    serving (Request.pairCard 2 (.card desk)) 5 2

def doubled : List (Act Request) := trucks ++ serving (Request.pairCard 2 (.card reversed)) 3 2

end Sample

theorem one_truck_per_card_moved : ∃ log s, Run machine Store.empty (fun _ => True) log s ∧
    (pairedWith log 2).isSome ∧
    ((∀ later earlier, log = later ++ earlier → OneTruckPerCard earlier) ↔
      ∀ later ev earlier, log = later ++ ev :: earlier → SameByteOrder earlier ev) := by
  obtain ⟨log, s, hrun, htest⟩ := exists_run machine Store.empty (fun _ => True) Sample.moved
    (fun log _ => (pairedWith log 2).isSome) (by decide +kernel)
  exact ⟨log, s, hrun, htest, one_truck_per_card_iff hrun⟩

/-- The two byte orders of one card are on two trucks. -/
theorem one_card_two_trucks : ¬ ∀ (log : List (Event Doc Call.Reply))
    (s : Sys Doc Call.Reply HttpError Answer), Run machine Store.empty (fun _ => True) log s →
    OneTruckPerCard log := by
  intro hall
  obtain ⟨log, s, hrun, htest⟩ := exists_run machine Store.empty (fun _ => True) Sample.doubled
    (fun log _ => (pairedWith log 1).any (fun r => r.card.uid = Sample.card.uid) &&
      (pairedWith log 2).any fun r => r.card.uid = Sample.card.uid) (by decide +kernel)
  obtain ⟨hfirst, hsecond⟩ := Bool.and_eq_true_iff.mp htest
  obtain ⟨r, hr, huid⟩ := (Option.any_eq_true _ _).mp hfirst
  obtain ⟨r', hr', huid'⟩ := (Option.any_eq_true _ _).mp hsecond
  have hcard : r.card = r'.card := by
    apply Card.ext
    exact (of_decide_eq_true huid).trans (of_decide_eq_true huid').symm
  cases hall log s hrun 1 2 r r' hr hr' hcard

end CiroFuel.Cards
