import Runbook.Calendar.Instant

set_option autoImplicit false

/-!
Reading timestamps of RFC 3339: a date and a time of day in nineteen characters, perhaps a
fraction of the second, and an offset.
-/
namespace Runbook.Calendar

open Text (isDigit digitValue digitsValue tenTo)

/-- Why a text is no timestamp. -/
inductive TimestampError
  | tooShort | invalid | outOfRange | tooLong
  deriving DecidableEq, Repr

def TimestampError.message : TimestampError → String
  | .tooShort => "premature end of input"
  | .invalid => "input contains invalid characters"
  | .outOfRange => "input is out of range"
  | .tooLong => "trailing input"

namespace Timestamp

/-- Reads a number of a fixed count of digits, given the number before them; gives also what is
left, as do all readers below. -/
def number (before : Nat) : Nat → List Char → Except TimestampError (Nat × List Char)
  | 0, cs => .ok (before, cs)
  | _ + 1, [] => .error .invalid
  | count + 1, c :: cs =>
    if isDigit c then number (10 * before + digitValue c) count cs else .error .invalid

/-- Reads one of some characters. -/
def mark (allowed : List Char) : List Char → Except TimestampError (List Char)
  | [] => .error .invalid
  | c :: cs => if allowed.contains c then .ok cs else .error .invalid

def date (cs : List Char) : Except TimestampError (Date × List Char) := do
  let (year, cs) ← number 0 4 cs
  let cs ← mark ['-'] cs
  let (month, cs) ← number 0 2 cs
  let cs ← mark ['-'] cs
  let (day, cs) ← number 0 2 cs
  if (Date.mk year month day).Valid then .ok (⟨year, month, day⟩, cs) else .error .outOfRange

/-- Reads a fraction of a second after its point, in nanoseconds. -/
def fraction : List Char → Except TimestampError (Nat × List Char)
  | [] => .error .tooShort
  | c :: cs =>
    if isDigit c then
      let (ds, rest) := (c :: cs).span isDigit
      -- Digits after the ninth do not count.
      let ds := ds.take 9
      .ok (digitsValue ds * tenTo (9 - ds.length), rest)
    else .error .invalid

def fraction? : List Char → Except TimestampError (Nat × List Char)
  | '.' :: cs => fraction cs
  | cs => .ok (0, cs)

/-- Reads a time of day: its second and the nanoseconds. -/
def clock (cs : List Char) : Except TimestampError ((Nat × Nat) × List Char) := do
  let (hour, cs) ← number 0 2 cs
  let cs ← mark [':'] cs
  let (minute, cs) ← number 0 2 cs
  let cs ← mark [':'] cs
  let (second, cs) ← number 0 2 cs
  let (nanos, cs) ← fraction? cs
  if hour < 24 ∧ minute < 60 ∧ second ≤ 60 then
    let seconds := 3600 * hour + 60 * minute
    -- A leap second is the second before it, with more nanoseconds than a second has.
    if second = 60 then .ok ((seconds + 59, nanosPerSecond + nanos), cs)
    else .ok ((seconds + second, nanos), cs)
  else .error .outOfRange

/-- Reads two characters, as they are; `none` if there are not two bytes. -/
def pair : List Char → Except TimestampError (Char × Char × List Char)
  | a :: b :: cs => .ok (a, b, cs)
  | [a] => if a.utf8Size < 2 then .error .tooShort else .error .invalid
  | [] => .error .tooShort

def twoDigits (a b : Char) : Except TimestampError Nat :=
  if isDigit a ∧ isDigit b then .ok (digitsValue [a, b]) else .error .invalid

def offsetClock (cs : List Char) : Except TimestampError ((Nat × Nat) × List Char) := do
  let (a, b, cs) ← pair cs
  let hours ← twoDigits a b
  let cs ← match cs with
    | [] => .error .tooShort
    | cs => mark [':'] cs
  let (a, b, cs) ← pair cs
  let minutes ← twoDigits a b
  if minutes < 60 then .ok ((hours, minutes), cs) else .error .outOfRange

/-- The signs that an offset west of Greenwich may have. -/
def minusSigns : List Char := ['-', Char.ofNat 0x2212]

def offset : List Char → Except TimestampError Offset
  | [] => .error .tooShort
  | c :: cs =>
    if c = 'Z' ∨ c = 'z' then if cs = [] then .ok .utc else .error .tooLong
    else if c = '+' ∨ minusSigns.contains c then do
      let ((hours, minutes), rest) ← offsetClock cs
      if rest ≠ [] then .error .tooLong
      else
        match Offset.ofClock? (c ≠ '+') hours minutes with
        | some o => .ok o
        | none => .error .outOfRange
    else .error .invalid

end Timestamp

/-- The fewest bytes of a timestamp without its offset. -/
def Timestamp.leastSize : Nat := "YYYY-MM-DDTHH:MM:SS".length

def Moment.parse (s : String) : Except TimestampError Moment := do
  if s.utf8ByteSize < Timestamp.leastSize then .error .tooShort
  else
    let (date, cs) ← Timestamp.date s.toList
    let cs ← Timestamp.mark ['T', 't', ' '] cs
    let ((second, nanos), cs) ← Timestamp.clock cs
    let offset ← Timestamp.offset cs
    return ⟨⟨date.toDays * secondsPerDay + second - offset.seconds, nanos⟩, offset⟩

end Runbook.Calendar
