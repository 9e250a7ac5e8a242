import Runbook.Row.Basic
import Runbook.Variables
import Runbook.Policy

set_option autoImplicit false

/-!
Records: a row and what happens to it in a run. A record is first placed, which fixes its position
and the texts that depend on the variables of that moment; a record that is to be carried out is
then resolved, which reads its parameters; comments, errors and an exception are noted as they
come.
-/
namespace Runbook

open Text

structure Position where
  /-- Its place in its program, from 1. -/
  seq : Nat := 0
  /-- How deep its program is nested, from 1. -/
  level : Nat := 0
  /-- The step that started its program, 0 for the outermost. -/
  parentStep : Nat := 0
  /-- The number of the step in the session. -/
  step : Nat := 0
  deriving DecidableEq, Repr, Inhabited

/-- A step as it is reported. -/
structure StepResult where
  seq : Nat
  level : Nat
  step : Nat
  parentStep : Nat
  id : String
  action : String
  description : String := ""
  status : Status
  comments : List String := []
  errors : List String := []
  exception : Option String := none
  deriving DecidableEq, Inhabited

/-- A row in a run. -/
structure Record where
  row : Row
  position : Position := {}
  placed : Bool := false
  description : String
  parametersText : String
  activation : Activation := .unset
  forcedSkip : Bool := false
  params : Params := {}
  policy : Policy := {}
  comments : List String := []
  errors : List String := []
  exception : Option String := none
  deriving DecidableEq, Inhabited

namespace Record

/-- The record of a row before the run. -/
def ofRow (row : Row) : Record :=
  { row, description := row.description, parametersText := row.parameters }

/-- Whether the row is no instruction. -/
def isEmpty (r : Record) : Bool :=
  r.row.isEmpty

def action (r : Record) : String :=
  r.row.actionName

def param? (r : Record) (key : String) : Option String :=
  r.params.get? key

def addComment (r : Record) (comment : String) : Record :=
  { r with comments := r.comments ++ [comment] }

/-- Notes an error, unless the last one says the same. -/
def addError (r : Record) (error : String) : Record :=
  if r.errors.getLast? = some error then r else { r with errors := r.errors ++ [error] }

def setException (r : Record) (exception : String) : Record :=
  { r with exception := some exception }

def hasErrors (r : Record) : Bool :=
  !r.errors.isEmpty || r.exception.isSome

/-- Whether the record is to be carried out. -/
def isActive (r : Record) : Bool :=
  !r.forcedSkip && r.activation.isActive

/-- The outcome: failed once anything is noted against it, otherwise skipped unless active. -/
def status (r : Record) : Status :=
  if r.hasErrors then .fail else if r.isActive then .pass else .skip

/-- What is said of an activation flag that is not understood. -/
def flagComment (flag : String) : String :=
  "unrecognised activation flag '" ++ trimmed flag ++ "', treating as active"

/-- Puts the record at its position and substitutes the variables in its description, its
parameters and its activation flag. -/
def place (r : Record) (position : Position) (vars : Variables) : Record :=
  let flag := vars.substitute r.row.activation
  let r := { r with
    position
    placed := true
    description := vars.substitute r.row.description
    parametersText := vars.substitute r.row.parameters }
  match Activation.parse? flag with
  | some activation => { r with activation }
  -- A flag that is not understood counts as active.
  | none => { r.addComment (flagComment flag) with activation := .active }

/-- Reads the parameters of a row; each value is substituted on its own. -/
def readParams (row : Row) (syn : Params.Syntax) (vars : Variables) : Except Params.Error Params :=
  (Params.parse syn row.parameters).map fun p => p.mapValues fun _ value => vars.substitute value

/-- Replaces the values that are date tokens by what they stand for, setting their bundles; a
token that cannot be expanded is an error and stays. -/
def expandTokens (r : Record) (vars : Variables) : List (String × String) → Record × Variables
  | [] => (r, vars)
  | (key, token) :: rest =>
    match vars.expandDate token with
    | (.ok expansion, vars) =>
      expandTokens { r with params := r.params.set key expansion.value } vars rest
    | (.error e, vars) =>
      expandTokens (r.addError ("parameter '" ++ key ++ "': " ++ e.message)) vars rest

def readPolicy (r : Record) : Record :=
  match Policy.ofParams r.params with
  | .ok policy => { r with policy }
  | .error message => { r.addError message with policy := {} }

/-- Reads the parameters and the decisions of a record that is to be carried out. -/
def resolve (r : Record) (syn : Params.Syntax) (vars : Variables) : Record × Variables :=
  let r := match readParams r.row syn vars with
    | .ok params => { r with params }
    | .error e => { r.addError ("invalid parameters: " ++ e.message) with params := {} }
  -- Every token is told before the first is expanded, so what it becomes is not expanded again.
  let tokens := r.params.entries.filter fun e => DateToken.isToken e.2
  let (r, vars) := r.expandTokens vars tokens
  (r.readPolicy, vars)

/-- Marks the record to be skipped whatever its flag says. -/
def forceSkip (r : Record) (comment : String) : Record :=
  { r with forcedSkip := true }.addComment comment

def result (r : Record) : StepResult where
  seq := r.position.seq
  level := r.position.level
  step := r.position.step
  parentStep := r.position.parentStep
  id := r.row.id
  action := r.action
  description := r.description
  status := r.status
  comments := r.comments
  errors := r.errors
  exception := r.exception

end Record
end Runbook
