import Runbook.Text.Decimal
import Runbook.Json.Parser

set_option autoImplicit false

/-!
Numerals with a point and an exponent, and numerals of other bases than ten.
-/
namespace Runbook.Text

/-- The number `mantissa · 10 ^ exponent`. -/
structure Numeral where
  mantissa : Nat
  exponent : Int
  deriving DecidableEq, Repr

namespace Numeral

/-- Reads an exponent without its letter: a sign or none, and digits. -/
def exponent? : List Char → Option Int
  | '-' :: cs => (natural? cs).map fun n => -(n : Int)
  | '+' :: cs => (natural? cs).map fun n => (n : Int)
  | cs => (natural? cs).map fun n => (n : Int)

/-- The part of a numeral before its exponent, and the exponent with its letter. -/
def splitExponent (cs : List Char) : List Char × List Char :=
  cs.span fun c => c != 'e' && c != 'E'

/-- Reads a numeral without a sign. -/
def unsigned? (cs : List Char) : Option Numeral := do
  let (body, power) := splitExponent cs
  let exponent ← match power with
    | [] => some 0
    | _ :: power => exponent? power
  let (whole, tail) := body.span isDigit
  let fraction ← match tail with
    | [] => some []
    | '.' :: fraction => if fraction.all isDigit then some fraction else none
    | _ => none
  -- There has to be a digit before the point or after it.
  if whole ++ fraction = [] then none
  else some ⟨digitsValue (whole ++ fraction), exponent - fraction.length⟩

/-- Reads a numeral that may have a sign, and forgets the sign. -/
def magnitude? : List Char → Option Numeral
  | '+' :: cs => unsigned? cs
  | '-' :: cs => unsigned? cs
  | cs => unsigned? cs

/-- The least number that rounds to no number of 64 bits with a floating point. -/
def overflow : Nat := wordCount 1024 - wordCount 970

/-- Whether a numeral rounds to a finite number of 64 bits with a floating point. -/
def isFinite (n : Numeral) : Bool :=
  -- The count of its digits decides, unless it is that of `overflow`.
  let places : Int := (digits n.mantissa).length + n.exponent
  if n.mantissa = 0 ∨ places < 309 then true
  else if 309 < places then false
  else if 0 ≤ n.exponent then n.mantissa * tenTo n.exponent.toNat < overflow
  else n.mantissa < overflow * tenTo n.exponent.natAbs

end Numeral

/-- The value of a digit in a base up to sixteen. -/
def digitIn? (base : Nat) (c : Char) : Option Nat :=
  (Json.hexValue c).filter (· < base)

/-- Reads one or more digits of a base up to sixteen. -/
def inBase? (base : Nat) (cs : List Char) : Option Nat :=
  if cs = [] then none else cs.foldlM (fun n c => (digitIn? base c).map (base * n + ·)) 0

/-- Reads digits of the base that the letter after a leading zero tells. -/
def inToldBase? : List Char → Option Nat
  | '0' :: 'x' :: cs => inBase? 16 cs
  | '0' :: 'o' :: cs => inBase? 8 cs
  | '0' :: 'b' :: cs => inBase? 2 cs
  | _ => none

end Runbook.Text
