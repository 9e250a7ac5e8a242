import Runbook.Json.Basic

set_option autoImplicit false

/-!
Records read from JSON. A record is written as an object, or as an array that lists its fields
in their order and may leave out the last ones. Members with other names are ignored; a field
given twice, under its name or under another name it answers to, makes the record unreadable.
-/
namespace Runbook.Json

/-- A field of a record: its position, and the names it answers to. -/
structure Field where
  position : Nat
  names : List String

/-- The members of an object that belong to a field. -/
def Field.matching (f : Field) (members : List (String × Json)) : List Json :=
  (members.filter fun m => f.names.contains m.1).map (·.2)

/-- A value that may stand for a record of `size` fields. -/
def isRecord (size : Nat) : Json → Bool
  | .obj _ => true
  | .arr items => items.length ≤ size
  | _ => false

/-- What a record holds for a field: `none` when it is unreadable, `some none` when it is absent. -/
def field (j : Json) (f : Field) : Option (Option Json) :=
  match j with
  | .obj members =>
    match f.matching members with
    | [] => some none
    | [v] => some (some v)
    | _ => none
  | .arr items => some items[f.position]?
  | _ => none

/-- A field that has to be there. -/
def required {α : Type} (j : Json) (f : Field) (read : Json → Option α) : Option α := do
  match ← j.field f with
  | some v => read v
  | none => none

/-- A field that stands for `absent` when it is left out. -/
def optional {α : Type} (j : Json) (f : Field) (absent : α) (read : Json → Option α) : Option α := do
  match ← j.field f with
  | some v => read v
  | none => some absent

/-- The keyword a value names: a string, or an object whose only member is the keyword with
`null`. -/
def keyword? : Json → Option String
  | .str s => some s
  | .obj [(name, .null)] => some name
  | _ => none

/-- A value or `null`. -/
def nullable {α : Type} (read : Json → Option α) : Json → Option (Option α)
  | .null => some none
  | j => (read j).map some

end Runbook.Json
