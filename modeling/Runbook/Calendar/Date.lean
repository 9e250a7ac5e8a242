set_option autoImplicit false

/-!
Dates of the proleptic Gregorian calendar and their numbering by days: day 0 is 1 January 1970.
-/
namespace Runbook.Calendar

/-- A calendar date. Year 0 is the year before year 1. -/
structure Date where
  year : Int
  month : Nat
  day : Nat
  deriving DecidableEq, Repr

/-- Every fourth year is a leap year, of the hundreds only every fourth. -/
def isLeap (y : Int) : Bool :=
  y % 4 == 0 && (y % 100 != 0 || y % 400 == 0)

def monthLengths (y : Int) : List Nat :=
  [31, if isLeap y then 29 else 28, 31, 30, 31, 30, 31, 31, 30, 31, 30, 31]

/-- The number of days of month `m`, counted from 1. -/
def daysInMonth (y : Int) (m : Nat) : Nat :=
  (monthLengths y)[m - 1]?.getD 31

/-- A date that exists. -/
def Date.Valid (d : Date) : Prop :=
  1 ≤ d.month ∧ d.month ≤ 12 ∧ 1 ≤ d.day ∧ d.day ≤ daysInMonth d.year d.month

instance (d : Date) : Decidable d.Valid :=
  inferInstanceAs (Decidable (_ ∧ _ ∧ _ ∧ _))

/-- The days from 1 January of year 0 to 1 January of year `y`. -/
def daysBeforeYear (y : Int) : Int :=
  365 * y + (y + 3) / 4 - (y + 99) / 100 + (y + 399) / 400

/-- The days of a year before its month `m`. -/
def daysBeforeMonth (y : Int) (m : Nat) : Nat :=
  ((monthLengths y).take (m - 1)).foldl (· + ·) 0

/-- The days from 1 January of year 0 to 1 January 1970. -/
def epochShift : Int := 719528

def Date.toDays (d : Date) : Int :=
  daysBeforeYear d.year + daysBeforeMonth d.year d.month + (d.day - 1 : Nat) - epochShift

/-- The year in which a day falls, counted from 1 January of year 0. -/
def yearOfDay (n : Int) : Int :=
  -- The mean length of a year gives it up to one.
  let y := n * 400 / 146097
  if n < daysBeforeYear y then y - 1
  else if daysBeforeYear (y + 1) ≤ n then y + 1
  else y

/-- The month, counted from 0, and the day of the month, counted from 0, of a day of the year. -/
def splitMonths : List Nat → Nat → Nat × Nat
  | [], d => (0, d)
  | len :: lens, d =>
    if d < len then (0, d)
    else
      let (m, r) := splitMonths lens (d - len)
      (m + 1, r)

def Date.ofDays (n : Int) : Date :=
  let n := n + epochShift
  let y := yearOfDay n
  let (m, d) := splitMonths (monthLengths y) (n - daysBeforeYear y).toNat
  ⟨y, m + 1, d + 1⟩

/-- The day of the week of a number, Sunday being 0. -/
def weekday (n : Int) : Nat :=
  ((n + 4) % 7).toNat

/-- The months of the calendar counted without a break: month `m` of year `y` is `12 y + m - 1`. -/
def Date.monthIndex (d : Date) : Int :=
  12 * d.year + (d.month - 1 : Nat)

/-- The date in the month of that index whose day is `day`, or the last day of the month if that
is less. -/
def Date.inMonth (index : Int) (day : Nat) : Date :=
  let year := index / 12
  let month := (index % 12).toNat + 1
  ⟨year, month, min day (daysInMonth year month)⟩

def monthNames : List String :=
  ["January", "February", "March", "April", "May", "June", "July", "August", "September",
    "October", "November", "December"]

/-- The full English names of the days of the week, from Sunday. -/
def weekdayNames : List String :=
  ["Sunday", "Monday", "Tuesday", "Wednesday", "Thursday", "Friday", "Saturday"]

/-- The first three letters of a name. -/
def shortName (name : String) : String :=
  String.ofList (name.toList.take 3)

end Runbook.Calendar
