import Runbook.Calendar.Date
import Runbook.Calendar.Offset

set_option autoImplicit false

/-!
Instants and moments. An instant counts seconds of Unix time and nanoseconds; a moment is an
instant seen at an offset. From 10⁹ nanoseconds on an instant lies in a leap second, which is read
as second 60 and counts as the second before it.
-/
namespace Runbook.Calendar

open Text (padded decimal wordCount)

structure Instant where
  seconds : Int
  nanos : Nat := 0
  deriving DecidableEq, Repr, Inhabited

def nanosPerSecond : Nat := 1000000000

def secondsPerDay : Int := 86400

def Instant.isLeap (t : Instant) : Bool :=
  nanosPerSecond ≤ t.nanos

/-- The first year that dates are computed for. -/
def firstYear : Int := -262143

/-- The last year that dates are computed for. -/
def lastYear : Int := 262142

def yearInRange (y : Int) : Bool :=
  firstYear ≤ y && y ≤ lastYear

/-- The first second in range. -/
def firstSecond : Int :=
  (Date.mk firstYear 1 1).toDays * secondsPerDay

/-- The last second in range. -/
def lastSecond : Int :=
  ((Date.mk lastYear 12 31).toDays + 1) * secondsPerDay - 1

/-- An instant whose date at UTC is in range. -/
def Instant.InRange (t : Instant) : Prop :=
  firstSecond ≤ t.seconds ∧ t.seconds ≤ lastSecond

instance (t : Instant) : Decidable t.InRange :=
  inferInstanceAs (Decidable (_ ∧ _))

/-- The instant itself, if it is in range. -/
def Instant.inRange? (t : Instant) : Option Instant :=
  if t.InRange then some t else none

/-- The instant a number of seconds later. -/
def Instant.addSeconds? (t : Instant) (n : Int) : Option Instant :=
  if t.isLeap ∧ n ≠ 0 then
    -- A leap second is left backwards from its end, and forwards from its beginning.
    let start := if n < 0 then t.seconds + 1 else t.seconds
    Instant.inRange? ⟨start + n, t.nanos - nanosPerSecond⟩
  else Instant.inRange? ⟨t.seconds + n, t.nanos⟩

def Instant.millis (t : Instant) : Int :=
  1000 * t.seconds + (t.nanos / 1000000 : Nat)

/-- An instant seen at an offset. -/
structure Moment where
  instant : Instant
  offset : Offset
  deriving DecidableEq, Repr, Inhabited

/-- The local seconds: those that the local calendar counts. -/
def Moment.localSeconds (m : Moment) : Int :=
  m.instant.seconds + m.offset.seconds

def Moment.localDay (m : Moment) : Int :=
  m.localSeconds / secondsPerDay

def Moment.secondOfDay (m : Moment) : Nat :=
  (m.localSeconds % secondsPerDay).toNat

def Moment.date (m : Moment) : Date :=
  .ofDays m.localDay

def Moment.hour (m : Moment) : Nat :=
  m.secondOfDay / 3600

def Moment.minute (m : Moment) : Nat :=
  m.secondOfDay / 60 % 60

/-- The second of the minute; 60 in a leap second. -/
def Moment.second (m : Moment) : Nat :=
  m.secondOfDay % 60 + m.instant.nanos / nanosPerSecond

def Moment.nanos (m : Moment) : Nat :=
  m.instant.nanos % nanosPerSecond

def Moment.addSeconds? (m : Moment) (n : Int) : Option Moment :=
  (m.instant.addSeconds? n).map ({ m with instant := · })

/-- The moment at the same local time of day on another local date. -/
def Moment.onDate? (m : Moment) (d : Date) : Option Moment :=
  if yearInRange d.year then
    let seconds := d.toDays * secondsPerDay + m.secondOfDay - m.offset.seconds
    (Instant.inRange? { m.instant with seconds }).map ({ m with instant := · })
  else none

/-- The moment a number of months later, at the same local time of day. The day of the month
stays, unless the month is too short for it: then it is the last. -/
def Moment.addMonths? (m : Moment) (n : Int) : Option Moment :=
  if n = 0 then some m else m.onDate? (.inMonth (m.date.monthIndex + n) m.date.day)

/-- The moment a number of months later or, if the number is negative, earlier. They are counted in an
unsigned word of 32 bits, to which their direction does not belong. -/
def Moment.shiftMonths? (m : Moment) (n : Int) : Option Moment :=
  if n.natAbs < wordCount 32 then
    if 0 ≤ n then m.addMonths? n.natAbs else m.addMonths? (-n.natAbs)
  else none

/-- A year with at least four digits; outside 0 to 9999 it carries its sign. -/
def yearText (y : Int) : String :=
  if 0 ≤ y ∧ y ≤ 9999 then padded 4 y.toNat
  else (if y < 0 then "-" else "+") ++ padded 4 y.natAbs

/-- The fraction of a second: as many groups of three digits as are needed, with the point. -/
def fractionText (nanos : Nat) : String :=
  if nanos = 0 then ""
  else if nanos % 1000000 = 0 then "." ++ padded 3 (nanos / 1000000)
  else if nanos % 1000 = 0 then "." ++ padded 6 (nanos / 1000)
  else "." ++ padded 9 nanos

/-- The text of a moment by RFC 3339. -/
def Moment.rfc3339 (m : Moment) : String :=
  yearText m.date.year ++ "-" ++ padded 2 m.date.month ++ "-" ++ padded 2 m.date.day ++ "T" ++
    padded 2 m.hour ++ ":" ++ padded 2 m.minute ++ ":" ++ padded 2 m.second ++
    fractionText m.nanos ++ m.offset.text

end Runbook.Calendar
