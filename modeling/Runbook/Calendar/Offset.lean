import Runbook.Text.Blank
import Runbook.Text.AsciiCase
import Runbook.Text.Split
import Runbook.Text.Decimal

set_option autoImplicit false

/-!
Offsets from UTC, in seconds and less than a day, and their texts: `+HH:MM` with either sign, the
minutes being optional, or one of the names of UTC. Texts know whole minutes only.
-/
namespace Runbook.Calendar

open Text

/-- A fixed difference of local time from UTC. -/
structure Offset where
  seconds : Int
  less_than_day : seconds.natAbs < 86400 := by decide
  deriving DecidableEq, Repr

/-- No difference. -/
def Offset.utc : Offset := ⟨0, by decide⟩

instance : Inhabited Offset := ⟨.utc⟩

/-- An offset of hours and minutes in one direction, if it is in range. -/
def Offset.ofClock? (negative : Bool) (hours minutes : Nat) : Option Offset :=
  if h : hours ≤ 23 ∧ minutes ≤ 59 then
    let total : Int := 3600 * hours + 60 * minutes
    some ⟨if negative then -total else total, by
      simp only [total]
      split <;> omega⟩
  else none

/-- Reads the part of an offset after its sign. -/
def Offset.unsigned? (negative : Bool) (cs : List Char) : Option Offset := do
  let (h, m) := (cut ':' cs).getD (cs, ['0'])
  Offset.ofClock? negative (← natural? h) (← natural? m)

/-- Reads an offset without blanks around it. -/
def Offset.ofChars? (cs : List Char) : Option Offset :=
  if cs = [] ∨ lower cs = ['z'] ∨ lower cs = ['u', 't', 'c'] then some .utc
  else
    match cs with
    | '+' :: rest => Offset.unsigned? false rest
    | '-' :: rest => Offset.unsigned? true rest
    | _ => none

/-- Reads an offset; blanks around it do not matter. -/
def Offset.parse? (s : String) : Option Offset :=
  Offset.ofChars? (trim s.toList)

/-- The text `+HH:MM` or `-HH:MM` of an offset, to the nearest minute. -/
def Offset.text (o : Offset) : String :=
  let m := (o.seconds.natAbs + 30) / 60
  (if o.seconds < 0 then "-" else "+") ++ padded 2 (m / 60) ++ ":" ++ padded 2 (m % 60)

/-- What is said of a text that is no offset. -/
def Offset.invalidMessage (s : String) : String :=
  "invalid timezone offset '" ++ trimmed s ++ "' (expected +HH:MM or -HH:MM)"

end Runbook.Calendar
