import Runbook.Row.Basic
import Runbook.Template
import Runbook.Policy
import Runbook.DateToken.Parser

set_option autoImplicit false

/-!
Checking rows before a run. What depends on variables is not checked: texts with placeholders are
passed over.
-/
namespace Runbook.Check

open Text

inductive Severity
  | warning | error
  deriving DecidableEq, Repr, Inhabited

def Severity.name : Severity → String
  | .warning => "warning"
  | .error => "error"

structure Issue where
  /-- The place of the row, from 1. -/
  row : Nat
  id : String
  severity : Severity
  message : String
  deriving DecidableEq, Inhabited

def Issue.text (i : Issue) : String :=
  "row " ++ decimal i.row ++ (if i.id = "" then "" else " (" ++ i.id ++ ")") ++ ": " ++
    i.severity.name ++ ": " ++ i.message

def Issue.toJson (i : Issue) : Json :=
  .obj [("row", .nat i.row), ("id", .str i.id), ("severity", .str i.severity.name),
    ("message", .str i.message)]

/-- What is said about a row, before it is known which row it is. -/
abbrev Remark := Severity × String

/-- Whether an action may be used; with no known actions every action may. -/
def isKnown (known : List String) (action : String) : Bool :=
  known.isEmpty || known.any fun k => sameIgnoringCase k action

def actionRemarks (known : List String) (r : Row) : List Remark :=
  if isKnown known r.actionName then []
  else [(.error, "unknown action '" ++ r.actionName ++ "'")]

/-- The form in which identifiers are compared. -/
def idKey (r : Row) : String :=
  lowered (trimmed r.id)

/-- What is said about the identifier of a row, given those of the rows before it. -/
def idRemarks (seen : List String) (r : Row) : List Remark :=
  if idKey r ≠ "" ∧ seen.contains (idKey r) then
    [(.warning, "duplicate id '" ++ trimmed r.id ++ "'")]
  else []

def flagRemarks (r : Row) : List Remark :=
  if !Template.hasPlaceholder r.activation && (Activation.parse? r.activation).isNone then
    [(.warning, "unrecognised activation flag '" ++ trimmed r.activation ++ "'")]
  else []

/-- What is said about a parameter that is a decision on what follows. -/
def policyRemarks (key value : String) : List Remark :=
  if isPolicyKey key then
    match PolicyAction.parse value with
    | .ok _ => []
    | .error message => [(.error, message)]
  else []

/-- What is said about a parameter that is a date token. -/
def tokenRemarks (key value : String) : List Remark :=
  if DateToken.isToken value then
    match DateToken.parse value with
    | .ok _ => []
    | .error e => [(.error, "parameter '" ++ key ++ "': " ++ e.message)]
  else []

def paramRemarks (e : String × String) : List Remark :=
  if Template.hasPlaceholder e.2 then [] else policyRemarks e.1 e.2 ++ tokenRemarks e.1 e.2

def blobRemarks (syn : Params.Syntax) (r : Row) : List Remark :=
  match Params.parse syn r.parameters with
  | .ok p => p.entries.flatMap paramRemarks
  | .error e => [(.error, "invalid parameters: " ++ e.message)]

/-- Everything that is said about a row, given the identifiers of the rows before it. -/
def rowRemarks (syn : Params.Syntax) (known seen : List String) (r : Row) : List Remark :=
  if r.isEmpty then [(.warning, "blank action, row will be ignored")]
  else actionRemarks known r ++ idRemarks seen r ++ flagRemarks r ++ blobRemarks syn r

/-- The identifiers that later rows are compared with. -/
def nextSeen (seen : List String) (r : Row) : List String :=
  if r.isEmpty then seen else idKey r :: seen

/-- The findings about rows from place `i` on. -/
def issuesFrom (syn : Params.Syntax) (known seen : List String) (i : Nat) : List Row → List Issue
  | [] => []
  | r :: rest =>
    ((rowRemarks syn known seen r).map fun m => ⟨i, r.id, m.1, m.2⟩) ++
      issuesFrom syn known (nextSeen seen r) (i + 1) rest

/-- The findings about rows, in their order. -/
def issues (syn : Params.Syntax) (known : List String) (rows : List Row) : List Issue :=
  issuesFrom syn known [] 1 rows

end Runbook.Check
