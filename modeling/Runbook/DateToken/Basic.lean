import Runbook.Text.Decimal

set_option autoImplicit false

/-!
Date tokens: `%date[+|-N unit][,output][,style]%`. A token says how far the present moment is
shifted, and which part of the shifted moment is written in which style.
-/
namespace Runbook

namespace DateToken

/-- The unit of a shift. -/
inductive Span
  | years | months | days | hours | minutes | seconds
  deriving DecidableEq, Repr

/-- What a token is written as. -/
inductive Output
  | date | time | datetime | year | month | day | weekday | hours | minutes | seconds
  deriving DecidableEq, Repr, Inhabited

/-- How fully it is written. -/
inductive Style
  | short | medium | long | full
  deriving DecidableEq, Repr, Inhabited

structure Shift where
  amount : Int
  span : Span
  deriving DecidableEq, Repr

/-- Why a text is no date token, or a token stands for no moment. -/
inductive Error
  | notAToken (token : String)
  | invalidShift (token shift reason : String)
  | unknownUnit (token unit : String)
  | unknownOutput (name : String)
  | unknownStyle (name : String)
  | tooManyFields (token : String)
  | outOfRange (token : String)
  deriving DecidableEq, Repr

def Error.message : Error → String
  | .notAToken token =>
    "not a date token: '" ++ token ++ "' (expected %date[+|-N unit][,type][,style]%)"
  | .invalidShift token shift reason =>
    "invalid date shift '" ++ shift ++ "' in '" ++ token ++ "': " ++ reason
  | .unknownUnit token unit =>
    "unknown date unit '" ++ unit ++ "' in '" ++ token ++
      "' (expected years, months, days, hours, minutes or seconds)"
  | .unknownOutput name =>
    "unknown output type '" ++ name ++ "' (expected date, time, datetime, year, month, day, " ++
      "weekday, hours, minutes or seconds)"
  | .unknownStyle name =>
    "unknown output style '" ++ name ++ "' (expected short, medium, long or full)"
  | .tooManyFields token => "too many fields in date token '" ++ token ++ "'"
  | .outOfRange token => "date shift in '" ++ token ++ "' is out of range"

/-- All units. -/
def Span.all : List Span := [.years, .months, .days, .hours, .minutes, .seconds]

/-- The name of a unit, in the plural. -/
def Span.name : Span → String
  | .years => "years"
  | .months => "months"
  | .days => "days"
  | .hours => "hours"
  | .minutes => "minutes"
  | .seconds => "seconds"

/-- The name of a unit, in the singular. -/
def Span.singular : Span → String
  | .years => "year"
  | .months => "month"
  | .days => "day"
  | .hours => "hour"
  | .minutes => "minute"
  | .seconds => "second"

/-- All outputs. -/
def Output.all : List Output :=
  [.date, .time, .datetime, .year, .month, .day, .weekday, .hours, .minutes, .seconds]

def Output.name : Output → String
  | .date => "date"
  | .time => "time"
  | .datetime => "datetime"
  | .year => "year"
  | .month => "month"
  | .day => "day"
  | .weekday => "weekday"
  | .hours => "hours"
  | .minutes => "minutes"
  | .seconds => "seconds"

/-- The names an output answers to: the three parts of a time also in the singular. -/
def Output.names : Output → List String
  | .hours => ["hours", "hour"]
  | .minutes => ["minutes", "minute"]
  | .seconds => ["seconds", "second"]
  | o => [o.name]

/-- All styles. -/
def Style.all : List Style := [.short, .medium, .long, .full]

def Style.name : Style → String
  | .short => "short"
  | .medium => "medium"
  | .long => "long"
  | .full => "full"

end DateToken

structure DateToken where
  shift : Option DateToken.Shift := none
  output : DateToken.Output := .date
  style : DateToken.Style := .short
  deriving DecidableEq, Repr, Inhabited

namespace DateToken

/-- The text of a shift: its sign, its amount and its unit in the plural. -/
def Shift.text (s : Shift) : String :=
  (if s.amount < 0 then "-" else "+") ++ Text.decimal s.amount.natAbs ++ s.span.name

/-- The text of a token, with its output and its style. -/
def text (t : DateToken) : String :=
  "%date" ++ (t.shift.map Shift.text).getD "" ++ "," ++ t.output.name ++ "," ++ t.style.name ++ "%"

end DateToken
end Runbook
