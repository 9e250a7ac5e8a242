import Runbook.Text.Blank
import Runbook.Text.AsciiCase
import Runbook.Text.LowerCase

set_option autoImplicit false

/-!
Comparing an actual text with an expected one.
-/
namespace Runbook

open Text

inductive VerifyMode
  | equals | equalsIgnoringCase | notEquals | contains | startsWith | endsWith | empty | notEmpty
  deriving DecidableEq, Repr, Inhabited

namespace VerifyMode

/-- All modes. -/
def all : List VerifyMode :=
  [.equals, .equalsIgnoringCase, .notEquals, .contains, .startsWith, .endsWith, .empty, .notEmpty]

def name : VerifyMode → String
  | .equals => "equals"
  | .equalsIgnoringCase => "equalsignorecase"
  | .notEquals => "notequals"
  | .contains => "contains"
  | .startsWith => "startswith"
  | .endsWith => "endswith"
  | .empty => "empty"
  | .notEmpty => "notempty"

def names : VerifyMode → List String
  | .equals => ["equals", "eq", "="]
  | .equalsIgnoringCase => ["equalsignorecase", "ieq"]
  | .notEquals => ["notequals", "ne", "!="]
  | m => [m.name]

def parse? (s : String) : Option VerifyMode :=
  all.find? fun m => m.names.contains (lowered (trimmed s))

/-- Whether `part` occurs in a text. -/
def occursIn (part : List Char) : List Char → Bool
  | [] => part.isEmpty
  | c :: cs => part.isPrefixOf (c :: cs) || occursIn part cs

/-- Whether the texts compare as the mode wants it. -/
def holds (actual expected : String) : VerifyMode → Bool
  | .equals => actual == expected
  | .equalsIgnoringCase => lowerCase actual == lowerCase expected
  | .notEquals => actual != expected
  | .contains => occursIn expected.toList actual.toList
  | .startsWith => expected.toList.isPrefixOf actual.toList
  | .endsWith => expected.toList.isSuffixOf actual.toList
  | .empty => actual == ""
  | .notEmpty => actual != ""

/-- What is said of texts that do not compare. -/
def mismatch (actual expected : String) : VerifyMode → String
  | .empty => "expected empty value, got '" ++ actual ++ "'"
  | .notEmpty => "expected a non-empty value"
  | m => "'" ++ actual ++ "' does not satisfy " ++ m.name ++ " '" ++ expected ++ "'"

/-- Compares two texts; `none` when they compare as the mode wants it. -/
def verify (m : VerifyMode) (actual expected : String) : Option String :=
  if m.holds actual expected then none else some (m.mismatch actual expected)

end VerifyMode
end Runbook
