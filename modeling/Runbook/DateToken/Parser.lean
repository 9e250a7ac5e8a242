import Runbook.DateToken.Basic
import Runbook.Text.Blank
import Runbook.Text.AsciiCase
import Runbook.Text.Split

set_option autoImplicit false

/-!
Reading date tokens. What stands between `%date` and the final `%` is cut at commas into at most
three fields: the shift, the output and the style. Blank fields stand for no shift, a date and
the short style.
-/
namespace Runbook.DateToken

open Text

/-- The text between `%date` and the final `%`, if the text is enclosed in them. -/
def body? (cs : List Char) : Option (List Char) :=
  if lower (cs.take 5) = "%date".toList ∧ (cs.drop 5).getLast? = some '%' then
    some (cs.drop 5).dropLast
  else none

/-- Whether a text has the outer form of a date token, whatever blanks surround it. -/
def isToken (s : String) : Bool :=
  (body? (trim s.toList)).isSome

def maxAmount : Nat := wordCount 63 - 1

/-- The unit of a name, in the singular or the plural. -/
def Span.ofChars? (cs : List Char) : Option Span :=
  let name := String.ofList (lower cs)
  Span.all.find? fun u => name = u.name ∨ name = u.singular

def Output.ofChars (cs : List Char) : Except Error Output :=
  let name := String.ofList (lower (trim cs))
  match Output.all.find? fun o => o.names.contains name with
  | some o => .ok o
  | none => .error (.unknownOutput name)

def Style.ofChars (cs : List Char) : Except Error Style :=
  let name := String.ofList (lower (trim cs))
  match Style.all.find? fun s => name = s.name with
  | some s => .ok s
  | none => .error (.unknownStyle name)

/-- Reads the amount and the unit of a shift after its sign. -/
def Shift.afterSign (token : String) (field : List Char) (negative : Bool) (cs : List Char) :
    Except Error Shift :=
  let invalid := Error.invalidShift token (String.ofList field)
  let cs := trimStart cs
  let amount := cs.takeWhile isDigit
  let unit := trim (cs.dropWhile isDigit)
  if amount = [] then .error (invalid "missing amount")
  else if digitsValue amount > maxAmount then .error (invalid "amount is too large")
  else if unit = [] then .error (invalid "missing unit")
  else
    match Span.ofChars? unit with
    | none => .error (.unknownUnit token (String.ofList unit))
    | some span =>
      let n : Int := digitsValue amount
      .ok ⟨if negative then -n else n, span⟩

/-- Reads a shift that is not blank. -/
def Shift.ofChars (token : String) : List Char → Except Error Shift
  | '+' :: rest => Shift.afterSign token ('+' :: rest) false rest
  | '-' :: rest => Shift.afterSign token ('-' :: rest) true rest
  | cs => .error (.invalidShift token (String.ofList cs) "must start with '+' or '-'")

def ofFields (token : String) (shift output style : List Char) : Except Error DateToken := do
  let shift ← if trim shift = [] then pure none
    else some <$> Shift.ofChars token (trim shift)
  let output ← if trim output = [] then pure .date else Output.ofChars output
  let style ← if trim style = [] then pure .short else Style.ofChars style
  return { shift, output, style }

/-- Reads a token; blanks around it do not matter. -/
def parse (token : String) : Except Error DateToken :=
  match body? (trim token.toList) with
  | none => .error (.notAToken token)
  | some body =>
    match splitAt ',' body with
    | [shift] => ofFields token shift [] []
    | [shift, output] => ofFields token shift output []
    | [shift, output, style] => ofFields token shift output style
    | _ => .error (.tooManyFields token)

end Runbook.DateToken
