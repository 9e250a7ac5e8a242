import Runbook.Config.Yaml.Document
import Runbook.Config.Yaml.Scalar

set_option autoImplicit false

/-!
What the nodes of a YAML document stand for. A node that refers to an anchor stands for what the
node with the anchor does; how often this may happen and how deep collections may nest is limited,
so every document is read to an end. A document that holds nothing is an empty table.
-/
namespace Runbook.Config.Yaml

/-- A step of finding out what nodes stand for; the state is how many more references may be
followed. -/
abbrev Evaluation := StateT Nat Option

/-- The node that a node refers to, or the node itself. -/
def Node.target (anchored : List (Nat × Node)) : Node → Evaluation Node
  | .alias number => do
    match ← get with
    | 0 => failure
    | left + 1 => set left
    -- Of anchors with the same number the last counts.
    match anchored.reverse.lookup number with
    | some n => return n
    | none => failure
  | n => return n

/-- A value under the name of its custom tag, if it has one. -/
def Properties.wrap (p : Properties) (v : Value) : Value :=
  match p.tag with
  | some (.custom name) => .table [(name, v)]
  | _ => v

/-- A value that a text has to be. -/
def demanded? (tag text : String) : Option (Option Value) :=
  let cs := text.toList
  match tag with
  | "tag:yaml.org,2002:null" => some (if text ≠ "" ∧ isNull text then some .null else none)
  | "tag:yaml.org,2002:bool" => some (if isTruth text then some .other else none)
  | "tag:yaml.org,2002:int" => some ((integer? cs).map .int)
  | "tag:yaml.org,2002:float" => some (if isFraction cs then some .other else none)
  | _ => none

/-- What a scalar stands for. -/
def scalarValue (p : Properties) (plain : Bool) (text : String) : Option Value :=
  let v := if plain then resolve text.toList else .str text
  match p.tag with
  -- A tag that is known everywhere may demand a kind of value.
  | some (.known name) => (demanded? name text).getD (some (.str text))
  | _ => some (p.wrap v)

/-- The text that the name of an entry is. -/
def nameOf (anchored : List (Nat × Node)) (n : Node) : Evaluation String := do
  match ← n.target anchored with
  | .scalar _ _ text => return text
  | _ => failure

/-- What a node stands for; so many collections may lie within each other in it. -/
def valueOf (anchored : List (Nat × Node)) : Nat → Node → Evaluation Value
  | nesting, n => do
    match ← n.target anchored, nesting with
    | .scalar p plain text, _ => liftM (scalarValue p plain text)
    | .list p items, nesting + 1 =>
      return p.wrap (.list (← items.mapM (valueOf anchored nesting)))
    | .table p entries, nesting + 1 =>
      let members ← entries.mapM fun (k, v) => do
        return (← nameOf anchored k, ← valueOf anchored nesting v)
      return p.wrap (.table (Layer.ofEntries members))
    | _, _ => failure

/-- How many collections may lie within each other. -/
def maxNesting : Nat := 128

/-- How many references may be followed for each mark of a document. -/
def maxReferences : Nat := 100

/-- The layer that a document is. -/
def layerOf? : Node → Option Layer
  | .scalar _ true "" => some []
  | .table p entries => do
    -- The tag of the table does not matter.
    let n := Node.table { p with tag := none } entries
    match ← (valueOf n.anchored maxNesting n).run' (maxReferences * n.size) with
    | .table entries => some entries
    | _ => none
  | _ => none

/-- Reads a text as a document that is a table. -/
def layer? (text : String) : Option Layer := do
  match ← document? (← tokens text) with
  | none => return []
  | some n => layerOf? n

end Runbook.Config.Yaml
