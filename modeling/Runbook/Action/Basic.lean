import Runbook.Program.Loader
import Runbook.Report.Basic
import Runbook.Session
import Runbook.Keyed

set_option autoImplicit false

/-!
Actions: what carries out a row. An action sees the record, the session and the surroundings of
its program, and answers with comments, errors and a directive, or with an error of its own. Apart
from that it may set variables and ask for an interrupt. Two kinds of actions run programs: one
runs the program that a parameter names and is carried out by the runner itself, the other makes up
programs of its own and sees how each of them ends.
-/
namespace Runbook

open Text

/-- What an action reports. A check that does not hold is one of the errors. -/
structure Action.Outcome where
  comments : List String := []
  errors : List String := []
  directive : Directive := {}
  deriving DecidableEq, Inhabited

/-- Why an action has no outcome. -/
inductive Action.Error
  | missingParam (name : String)
  | invalidParam (name reason : String)
  /-- A nested program would be deeper than allowed. -/
  | depthExceeded (level max : Nat)
  /-- A step of a nested program raised an exception. -/
  | nestedException (program : String) (step : Nat) (exception : String)
  | inputOutput (text : String)
  | failed (text : String)
  deriving DecidableEq, Repr

def Action.Error.message : Action.Error → String
  | .missingParam name => "missing required parameter '" ++ name ++ "'"
  | .invalidParam name reason => "invalid value for parameter '" ++ name ++ "': " ++ reason
  | .depthExceeded level max =>
    "nesting level " ++ decimal level ++ " exceeds max-depth " ++ decimal max
  | .nestedException program step exception =>
    "nested program '" ++ program ++ "' raised an exception at step " ++ decimal step ++ ": " ++
      exception
  | .inputOutput text => "I/O error: " ++ text
  | .failed text => text

/-- Whether the row is at fault, which makes a plain error; all else is an exception. -/
def Action.Error.isSetup : Action.Error → Bool
  | .missingParam _ => true
  | .invalidParam _ _ => true
  | _ => false

structure Action.Call where
  record : Record
  session : Session
  maxDepth : Nat
  baseDir : Option String
  loader : Loader

/-- What an action does to the run. -/
structure Action.Touch where
  vars : Variables
  /-- Whether the run is to stop before its next step. -/
  interrupts : Bool := false
  /-- The time it takes, in milliseconds. -/
  waits : Nat := 0

structure Action.Effect extends Action.Touch where
  answer : Except Action.Error Action.Outcome

/-- What is left to do for an action that makes up programs. -/
inductive Action.Script
  | answer (effect : Action.Effect)
  /-- Runs some rows one level below the record and goes on from their summary. -/
  | run (touch : Action.Touch) (name : String) (rows : List Row) (baseDir : Option String)
      (next : FrameSummary → Action.Call → Action.Script)

inductive Action.Body
  /-- By itself. -/
  | direct (act : Action.Call → Action.Effect)
  /-- By running the program that one of the parameters names. -/
  | runProgram
  /-- By running programs that it makes up. -/
  | hosting (script : Action.Call → Action.Script)

structure Action where
  name : String
  interactive : Bool := false
  body : Action.Body

instance : Inhabited Action := ⟨{ name := "", body := .runProgram }⟩

namespace Action

def Outcome.ofComment (comment : String) : Outcome :=
  { comments := [comment] }

def Outcome.ofError (error : String) : Outcome :=
  { errors := [error] }

/-- An outcome without errors. -/
def Outcome.passed (o : Outcome) : Bool :=
  o.errors.isEmpty

end Action

structure Registry where
  actions : Keyed Action := .empty
  deriving Inhabited

namespace Registry

/-- Adds an action, in place of one whose name differs only in case. -/
def register (r : Registry) (a : Action) : Registry :=
  ⟨r.actions.insert (lowered a.name) a⟩

/-- The action of a name; blanks around the name do not matter. -/
def find? (r : Registry) (name : String) : Option Action :=
  r.actions.get? (lowered (trimmed name))

/-- The actions in the order of their lower-cased names. -/
def toList (r : Registry) : List Action :=
  r.actions.values

/-- The names of the actions as they were given. -/
def names (r : Registry) : List String :=
  r.toList.map (·.name)

end Registry
end Runbook
