import Runbook.Config.Value
import Runbook.Text.Numeral

set_option autoImplicit false

/-!
What a plain scalar of YAML stands for: nothing, a truth value, a number, or itself as a text.
-/
namespace Runbook.Config.Yaml

open Text

/-- Digits after a leading zero, perhaps with a sign: no number, but a text. -/
def isPaddedNumber (cs : List Char) : Bool :=
  let body := match cs with
    | '+' :: rest => rest
    | '-' :: rest => rest
    | _ => cs
  match body with
  | '0' :: c :: rest => (c :: rest).all isDigit
  | _ => false

/-- An unsigned number in a told base or in base ten, of at most 128 bits. -/
def unsigned? (cs : List Char) : Option Nat :=
  ((inToldBase? cs).orElse fun _ => if isPaddedNumber cs then none else natural? cs).filter
    (· < wordCount 128)

def integer? : List Char → Option Int
  | '+' :: cs => (unsigned? cs).map fun n => (n : Int)
  | '-' :: cs => ((unsigned? cs).filter (· ≤ wordCount 127)).map fun n => -(n : Int)
  | cs => (unsigned? cs).map fun n => (n : Int)

/-- Whether a scalar is an infinity, a number that is none, or a finite numeral. -/
def isFraction (cs : List Char) : Bool :=
  let special := [".inf", ".Inf", ".INF"].map String.toList
  let noNumber := [".nan", ".NaN", ".NAN"].map String.toList
  let finite := fun body => ((Numeral.unsigned? body).map Numeral.isFinite).getD false
  noNumber.contains cs ||
    match cs with
    | '+' :: body => special.contains body || finite body
    | '-' :: body => special.contains body || finite body
    | _ => special.contains cs || finite cs

/-- Whether a scalar is one of the words for nothing, or is left out. -/
def isNull (word : String) : Bool :=
  ["", "~", "null", "Null", "NULL"].contains word

/-- Whether a scalar is one of the words for truth values. -/
def isTruth (word : String) : Bool :=
  ["true", "True", "TRUE", "false", "False", "FALSE"].contains word

def resolve (cs : List Char) : Value :=
  let word := String.ofList cs
  if isNull word then .null
  else if isTruth word then .other
  else
    match integer? cs with
    | some n => .int n
    | none => if !isPaddedNumber cs && isFraction cs then .other else .str word

end Runbook.Config.Yaml
