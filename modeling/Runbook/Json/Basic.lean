set_option autoImplicit false

/-!
JSON values as they stand in a text: members keep their order and may repeat, integers are exact,
and a number with a fraction or an exponent keeps its spelling.
-/
namespace Runbook

inductive Json
  | null
  | bool (value : Bool)
  /-- A number written without fraction and exponent. -/
  | int (value : Int)
  /-- Any other number, as it is spelled. -/
  | real (spelling : String)
  | str (value : String)
  /-- A string with an unpaired surrogate escape, which no text can hold, or an object with such a
  member name. -/
  | illFormed
  | arr (items : List Json)
  | obj (members : List (String × Json))
  deriving Inhabited

namespace Json

def nat (n : Nat) : Json :=
  .int n

def strs (ss : List String) : Json :=
  .arr (ss.map .str)

def str? : Json → Option String
  | .str s => some s
  | _ => none

/-- The truth value a value is. -/
def bool? : Json → Option Bool
  | .bool b => some b
  | _ => none

def int? : Json → Option Int
  | .int i => some i
  | _ => none

/-- The natural number up to `bound` a value is. -/
def natUpTo? (bound : Nat) : Json → Option Nat
  | .int i => if 0 ≤ i ∧ i.toNat ≤ bound then some i.toNat else none
  | _ => none

def arr? : Json → Option (List Json)
  | .arr items => some items
  | _ => none

def obj? : Json → Option (List (String × Json))
  | .obj members => some members
  | _ => none

/-- An array of strings. -/
def strs? (j : Json) : Option (List String) :=
  j.arr?.bind fun items => items.mapM str?

/-- The value of the first member of that name, if the value is an object that has one. -/
def get? (j : Json) (name : String) : Option Json :=
  j.obj?.bind fun members => (members.find? fun m => m.1 == name).map (·.2)

end Json
end Runbook
