import Runbook.Text.Blank
import Runbook.Json.Record

set_option autoImplicit false

/-!
Instruction rows: eight texts in a fixed order, blank where nothing is given.
-/
namespace Runbook

open Text

/-- One instruction as its source gives it. -/
structure Row where
  id : String := ""
  action : String := ""
  locatorKind : String := ""
  locatorSpec : String := ""
  query : String := ""
  activation : String := ""
  parameters : String := ""
  description : String := ""
  deriving DecidableEq, Inhabited

namespace Row

/-- The eight fields in their order. -/
def fields (r : Row) : List String :=
  [r.id, r.action, r.locatorKind, r.locatorSpec, r.query, r.activation, r.parameters,
    r.description]

def fieldCount : Nat :=
  (fields {}).length

/-- The row of fields in their order; missing ones are blank, more than eight are ignored. -/
def ofFields (fs : List String) : Row :=
  let at_ (i : Nat) : String := fs[i]?.getD ""
  ⟨at_ 0, at_ 1, at_ 2, at_ 3, at_ 4, at_ 5, at_ 6, at_ 7⟩

/-- A row without an action is no instruction. -/
def isEmpty (r : Row) : Bool :=
  isBlankText r.action

/-- The name of the action, without blanks around it. -/
def actionName (r : Row) : String :=
  trimmed r.action

/-- A row as a JSON object; identifier and action are always there, other fields when they are
not empty. -/
def toJson (r : Row) : Json :=
  let given (name value : String) : List (String × Json) :=
    if value = "" then [] else [(name, .str value)]
  .obj ([("id", .str r.id), ("action", .str r.action)] ++ given "locator_kind" r.locatorKind ++
    given "locator_spec" r.locatorSpec ++ given "query_function" r.query ++
    given "activation" r.activation ++ given "parameters" r.parameters ++
    given "description" r.description)

/-- Reads a row from JSON. -/
def ofJson? (j : Json) : Option Row := do
  guard (j.isRecord 8)
  let text (position : Nat) (names : List String) : Option String :=
    j.optional ⟨position, names⟩ "" Json.str?
  return {
    id := ← text 0 ["id"]
    action := ← text 1 ["action"]
    locatorKind := ← text 2 ["locator_kind", "locatorKind"]
    locatorSpec := ← text 3 ["locator_spec", "locatorSpec"]
    query := ← text 4 ["query_function", "queryFunction"]
    activation := ← text 5 ["activation", "activationFlag", "active"]
    parameters := ← text 6 ["parameters"]
    description := ← text 7 ["description"] }

theorem ofFields_fields (r : Row) : ofFields r.fields = r := rfl

end Row
end Runbook
