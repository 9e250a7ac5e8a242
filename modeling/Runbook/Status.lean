import Runbook.Text.Blank
import Runbook.Text.AsciiCase

set_option autoImplicit false

/-!
The keywords of a step's life: its outcome and its activation flag. Keywords are read without
regard to the case of ASCII letters and to blanks around them.
-/
namespace Runbook

open Text

inductive Status
  | pass | fail | skip
  deriving DecidableEq, Repr, Inhabited

def Status.text : Status → String
  | .pass => "PASS"
  | .fail => "FAIL"
  | .skip => "SKIP"

def Status.parse? (s : String) : Option Status :=
  [Status.pass, .fail, .skip].find? fun x => sameIgnoringCase (trimmed s) x.text

/-- What an activation flag says. -/
inductive Activation
  | active | inactive | unset
  deriving DecidableEq, Repr, Inhabited

/-- Reads a flag: a blank one is unset, other than yes and no keywords are not understood. -/
def Activation.parse? (s : String) : Option Activation :=
  let flag := lowered (trimmed s)
  if flag = "" then some .unset
  else if ["true", "yes", "y", "1", "on"].contains flag then some .active
  else if ["false", "no", "n", "0", "off"].contains flag then some .inactive
  else none

/-- Only an explicit no makes a step inactive. -/
def Activation.isActive (a : Activation) : Bool :=
  a != .inactive

end Runbook
