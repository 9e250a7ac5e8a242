import Runbook.DateToken.Basic
import Runbook.Calendar.Instant
import Runbook.Keyed

set_option autoImplicit false

/-!
What a token stands for: the shifted moment, its writing in each output and style, and the bundle
of variables, whose names start with `$`, that describe the moment in full.
-/
namespace Runbook.DateToken

open Calendar Text

/-- A number that fits a signed word of 64 bits. -/
def word64? (n : Int) : Option Int :=
  if -wordCount 63 ≤ n ∧ n < wordCount 63 then some n else none

/-- The moment a token's shift leads to; `none` when it is out of range. -/
def Shift.apply? (s : Shift) (at_ : Moment) : Option Moment :=
  match s.span with
  | .years => (word64? (s.amount * 12)).bind at_.shiftMonths?
  | .months => at_.shiftMonths? s.amount
  | .days => at_.addSeconds? (86400 * s.amount)
  | .hours => at_.addSeconds? (3600 * s.amount)
  | .minutes => at_.addSeconds? (60 * s.amount)
  | .seconds => at_.addSeconds? s.amount

/-- The moment a token stands for, seen from the present. -/
def shifted? (t : DateToken) (now : Moment) : Option Moment :=
  match t.shift with
  | none => some now
  | some s => s.apply? now

def monthName (m : Moment) : String :=
  monthNames[m.date.month - 1]?.getD ""

def weekdayName (m : Moment) : String :=
  weekdayNames[weekday m.localDay]?.getD ""

/-- The last two digits of the year. -/
def shortYear (m : Moment) : String :=
  padded 2 (m.date.year % 100).toNat

def hour12 (m : Moment) : String :=
  decimal (if m.hour % 12 = 0 then 12 else m.hour % 12)

def halfOfDay (m : Moment) : String :=
  if m.hour < 12 then "AM" else "PM"

def dateText (m : Moment) : Style → String
  | .short => decimal m.date.month ++ "/" ++ decimal m.date.day ++ "/" ++ shortYear m
  | .medium => shortName (monthName m) ++ " " ++ decimal m.date.day ++ ", " ++ yearText m.date.year
  | .long => monthName m ++ " " ++ decimal m.date.day ++ ", " ++ yearText m.date.year
  | .full => weekdayName m ++ ", " ++ monthName m ++ " " ++ decimal m.date.day ++ ", " ++
      yearText m.date.year

def timeText (m : Moment) : Style → String
  | .short => hour12 m ++ ":" ++ padded 2 m.minute ++ " " ++ halfOfDay m
  | .medium => hour12 m ++ ":" ++ padded 2 m.minute ++ ":" ++ padded 2 m.second ++ " " ++
      halfOfDay m
  | .long | .full => hour12 m ++ ":" ++ padded 2 m.minute ++ ":" ++ padded 2 m.second ++ " " ++
      halfOfDay m ++ " " ++ m.offset.text

def write (m : Moment) : Output → Style → String
  | .date, s => dateText m s
  | .time, s => timeText m s
  | .datetime, s => dateText m s ++ " " ++ timeText m s
  | .year, .short => shortYear m
  | .year, _ => yearText m.date.year
  | .month, .short => decimal m.date.month
  | .month, .medium => padded 2 m.date.month
  | .month, .long => shortName (monthName m)
  | .month, .full => monthName m
  | .day, .short => decimal m.date.day
  | .day, _ => padded 2 m.date.day
  | .weekday, .short | .weekday, .medium => shortName (weekdayName m)
  | .weekday, _ => weekdayName m
  | .hours, .short => decimal m.hour
  | .hours, _ => padded 2 m.hour
  | .minutes, _ => padded 2 m.minute
  | .seconds, _ => padded 2 m.second

/-- The outputs that the bundle holds in every style. -/
def styledOutputs : List Output :=
  [.date, .time, .datetime, .year, .month, .day, .weekday]

def entryName (o : Output) (s : Style) : String :=
  "$" ++ s.name ++ o.name

def bundleEntries (m : Moment) : List (String × String) :=
  (Style.all.flatMap fun s => styledOutputs.map fun o => (entryName o s, write m o s)) ++
    [("$hours24", padded 2 m.hour), ("$hours12", hour12 m), ("$minutes", padded 2 m.minute),
      ("$seconds", padded 2 m.second), ("$ampm", halfOfDay m),
      ("$millis", padded 3 (m.nanos / 1000000)), ("$timestamp", integer m.instant.millis)]

def bundle (m : Moment) : Keyed String :=
  .ofList (bundleEntries m)

end Runbook.DateToken
