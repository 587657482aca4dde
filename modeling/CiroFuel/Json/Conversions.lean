import CiroFuel.Json.Values
import CiroFuel.Encoding.Dates

/-!
# Dates from values

A date can be made of any value. A number is an instant if it is in range, a text is
read, and an array or an object is first made a text. An object has no text when a
member takes the place of the method that makes one, and then the conversion throws.
Texts in other formats than that of dates are read as the engine likes.
-/
namespace CiroFuel.Json
open Encoding

/-- The text of a code unit that stands alone. -/
def unitChar (u : UInt16) : Char := .ofNat u.toNat

theorem map_unitChar {cs : List Char} (h : ∀ c ∈ cs, c.toNat < 0x10000) :
    (ofText cs).map unitChar = cs := by
  induction cs with
  | nil => rfl
  | cons c cs ih =>
      have hc : c.toNat < 0x10000 := h c List.mem_cons_self
      have hunit : unitChar (.ofNat c.toNat) = c := by
        rw [unitChar, UInt16.toNat_ofNat_of_lt' hc, Char.ofNat_toNat]
      rw [ofText, List.flatMap_cons, codeUnits, if_pos hc, List.singleton_append, List.map_cons,
        hunit, ← ofText, ih fun c hc => h c (List.mem_cons_of_mem _ hc)]

/-! ### Texts -/

def toStringName : JsString := ofText "toString".toList

mutual

/-- The text of an element of an array, unless making it throws. -/
def Value.joined : Value → Option JsString
  | .null => some []
  | .bool true => some (ofText "true".toList)
  | .bool false => some (ofText "false".toList)
  | .number n => some (ofText n.text)
  | .string s => some s
  | .array xs => joinElements xs
  | .object ms =>
      if ms.any fun m => m.1 = toStringName then none else some (ofText "[object Object]".toList)

/-- The texts of the elements, with commas between them. -/
def joinElements : List Value → Option JsString
  | [] => some []
  | [x] => x.joined
  | x :: y :: xs => x.joined.bind fun s => (joinElements (y :: xs)).map fun rest => s ++ 44 :: rest

end

/-! ### Instants -/

/-- What making a date comes to. -/
inductive DateValue where
  | thrown
  | invalid
  | time (t : ℤ)
deriving DecidableEq

def DateValue.ofOption : Option ℤ → DateValue
  | some t => time t
  | none => invalid

/-- A number of milliseconds, cut off at the point. -/
def timeClip : Number → Option ℤ
  | .finite x =>
      if |x.value| ≤ 8640000000000000 then some (if 0 ≤ x.value then ⌊x.value⌋ else ⌈x.value⌉)
      else none
  | .infinite _ => none

section toDate
variable (otherDate : JsString → Option ℤ)

def parseDate (s : JsString) : Option ℤ :=
  (Dates.ofISOString (s.map unitChar)).or (otherDate s)

/-- The date of a value, or of none. -/
def toDate : Option Value → DateValue
  | none => .invalid
  | some .null => .time 0
  | some (.bool b) => .time (if b then 1 else 0)
  | some (.number n) => .ofOption (timeClip n)
  | some (.string s) => .ofOption (parseDate otherDate s)
  | some v =>
      match v.joined with
      | some s => .ofOption (parseDate otherDate s)
      | none => .thrown

/-- A date that was written is read. -/
theorem toDate_ISOString {t : ℤ} {cs : List Char} (h : Dates.toISOString t = some cs) :
    toDate otherDate (some (.string (ofText cs))) = .time t := by
  have htext : (ofText cs).map unitChar = cs :=
    map_unitChar fun c hc => (Dates.toISOString_ascii h c hc).trans (by decide)
  rw [toDate, parseDate, htext, Dates.ofISOString_eq h]
  rfl

end toDate
end CiroFuel.Json
