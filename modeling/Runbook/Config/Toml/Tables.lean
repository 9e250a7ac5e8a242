import Runbook.Config.Value

set_option autoImplicit false

/-!
The tables of a TOML document while it is read. A name is given once: a table may be opened again
only by a header, and only if it was no more than passed on the way of another header; a table
that longer keys have made takes only what longer keys say.
-/
namespace Runbook.Config.Toml

/-- The names on the way from a table to something in it. -/
abbrev Key := List String

/-- How a table came about. -/
inductive Origin
  /-- A header or braces state it. -/
  | stated
  /-- A header leads through it. -/
  | passed
  /-- The key of a value leads through it. -/
  | dotted
  deriving DecidableEq

/-- What stands under a name. -/
inductive Item
  | value (v : Value)
  | table (origin : Origin) (entries : List (String × Item))
  /-- Tables that headers add one after the other. -/
  | elements (tables : List (List (String × Item)))

/-- Items under names, in the order of the names. -/
abbrev Entries := List (String × Item)

mutual

def Item.toValue : Item → Value
  | .value v => v
  | .table _ entries => .table (layerOf entries)
  | .elements tables => .list (valuesOf tables)

/-- The named values that entries are. -/
def layerOf : Entries → Layer
  | [] => []
  | (name, item) :: rest => (name, item.toValue) :: layerOf rest

def valuesOf : List Entries → List Value
  | [] => []
  | entries :: rest => .table (layerOf entries) :: valuesOf rest

end

/-- Changes the table that a key leads to. -/
def editAt (byDots : Bool) (edit : Origin → Entries → Option Entries) :
    Key → Origin → Entries → Option Entries
  | [], origin, entries => edit origin entries
  | name :: key, _, entries => do
    let item ← match Keyed.find name entries with
      -- Tables that are missing on the way are made.
      | none =>
        let origin := if byDots then .dotted else .passed
        (editAt byDots edit key origin []).map (Item.table origin)
      | some (.value _) => none
      | some (.table origin inner) =>
        -- A way by dots does not lead into a table that is stated.
        if byDots ∧ origin = .stated then none
        else (editAt byDots edit key origin inner).map (Item.table origin)
      | some (.elements tables) =>
        (editAt byDots edit key .stated (tables.getLastD [])).map fun last =>
          .elements (tables.dropLast ++ [last])
    return Keyed.place name item entries

def addValue (key : Key) (v : Value) : Origin → Entries → Option Entries :=
  editAt true (fun origin entries =>
    let name := key.getLastD ""
    if (origin = .dotted) ↔ (key.length = 1) then none
    else if (Keyed.find name entries).isSome then none
    else some (Keyed.place name (.value v) entries)) key.dropLast

/-- The entries of the outermost table with the table that a header opens. -/
def openTable (key : Key) : Entries → Option Entries :=
  editAt false (fun _ entries =>
    let name := key.getLastD ""
    match Keyed.find name entries with
    | none => some (Keyed.place name (.table .stated []) entries)
    | some (.table .passed inner) => some (Keyed.place name (.table .stated inner) entries)
    | some _ => none) key.dropLast .stated

/-- The entries of the outermost table with the table that a header adds to a list of tables. -/
def addElement (key : Key) : Entries → Option Entries :=
  editAt false (fun _ entries =>
    let name := key.getLastD ""
    match Keyed.find name entries with
    | none => some (Keyed.place name (.elements [[]]) entries)
    | some (.elements tables) => some (Keyed.place name (.elements (tables ++ [[]])) entries)
    | some _ => none) key.dropLast .stated

/-- The entries of the outermost table with a value under a key in the table of a header. -/
def addValueIn (header key : Key) (v : Value) : Entries → Option Entries :=
  editAt false (addValue key v) header .stated

end Runbook.Config.Toml
