import Runbook.Params
import Runbook.Status
import Runbook.Text.Decimal

set_option autoImplicit false

/-!
What happens after a step. A row states it with the reserved parameters `onpass` and `onfail`, an
action may ask for it; both become directives, which are merged.
-/
namespace Runbook

open Text

/-- One decision about what follows a step. -/
inductive PolicyAction
  | proceed
  | quitCase
  | quitSession
  | skip (steps : Nat)
  deriving DecidableEq, Repr, Inhabited

namespace PolicyAction

/-- Reads a decision; `none` when it is none. -/
def parse? (s : String) : Option PolicyAction :=
  let cs := lower (trim s.toList)
  let word := String.ofList cs
  if word = "" ∨ word = "continue" then some .proceed
  else if word = "quitcase" ∨ word = "quit_case" then some .quitCase
  else if word = "quitsession" ∨ word = "quit_session" then some .quitSession
  else if cs.take 5 = "skip:".toList then
    -- A number of steps has at most 32 bits.
    (unsigned? maxWord32 (trim (cs.drop 5))).map .skip
  else none

def text : PolicyAction → String
  | .proceed => "continue"
  | .quitCase => "quitcase"
  | .quitSession => "quitsession"
  | .skip n => "skip:" ++ decimal n

/-- What is said of a text that is no decision. -/
def invalidMessage (s : String) : String :=
  "invalid post-test policy '" ++ trimmed s ++
    "' (expected continue, quitcase, quitsession or skip:N)"

/-- Reads a decision, or says what is wrong with it. -/
def parse (s : String) : Except String PolicyAction :=
  match parse? s with
  | some a => .ok a
  | none => .error (invalidMessage s)

end PolicyAction

/-- The key of the decision after a step that passed. -/
def onPassKey : String := "onpass"

/-- The key of the decision after a step that failed. -/
def onFailKey : String := "onfail"

/-- Whether a key is read by the runner rather than by an action. -/
def isPolicyKey (key : String) : Bool :=
  key == onPassKey || key == onFailKey

/-- The decisions a row states. -/
structure Policy where
  onPass : PolicyAction := .proceed
  onFail : PolicyAction := .proceed
  deriving DecidableEq, Repr, Inhabited

namespace Policy

/-- Reads the decisions from parameters, or says what is wrong with the first that is none. -/
def ofParams (p : Params) : Except String Policy := do
  let onPass ← PolicyAction.parse (p.getD onPassKey "")
  let onFail ← PolicyAction.parse (p.getD onFailKey "")
  return { onPass, onFail }

/-- The decision that applies after an outcome; a skipped step has none. -/
def after (p : Policy) : Status → PolicyAction
  | .pass => p.onPass
  | .fail => p.onFail
  | .skip => .proceed

end Policy

/-- What is asked of the runner after a step. -/
structure Directive where
  quitCase : Bool := false
  quitSession : Bool := false
  skipSteps : Nat := 0
  deriving DecidableEq, Repr, Inhabited

namespace Directive

/-- The directive of a decision. -/
def ofAction : PolicyAction → Directive
  | .proceed => {}
  | .quitCase => { quitCase := true }
  | .quitSession => { quitSession := true }
  | .skip n => { skipSteps := n }

/-- Both directives at once: what either asks for is done, the larger number of steps is skipped. -/
def merge (a b : Directive) : Directive :=
  ⟨a.quitCase || b.quitCase, a.quitSession || b.quitSession, max a.skipSteps b.skipSteps⟩

/-- Whether the current program has to stop. -/
def stops (d : Directive) : Bool :=
  d.quitCase || d.quitSession

/-- The word for what a directive stops. -/
def label (d : Directive) : String :=
  if d.quitSession then "quitsession" else if d.quitCase then "quitcase" else "continue"

end Directive
end Runbook
