import Runbook.Config.Yaml.Tag

set_option autoImplicit false

/-!
The nodes of a YAML document: values as they are written. Anchors have numbers, by which other nodes
refer to theirs.
-/
namespace Runbook.Config.Yaml

/-- What stands before the value of a node. -/
structure Properties where
  /-- The number of the anchor. -/
  anchor : Option Nat := none
  tag : Option Tag := none

inductive Node
  /-- The node whose anchor has a number. -/
  | alias (number : Nat)
  | scalar (properties : Properties) (plain : Bool) (text : String)
  | list (properties : Properties) (items : List Node)
  | table (properties : Properties) (entries : List (Node × Node))
  deriving Inhabited

/-- The node that is left out. -/
def Node.empty : Node :=
  .scalar {} true ""

mutual

/-- How many marks a node takes to write: one for a scalar or an alias, and two for the ends of a
collection. -/
def Node.size : Node → Nat
  | .alias _ => 1
  | .scalar _ _ _ => 1
  | .list _ items => sizeOfItems items + 2
  | .table _ entries => sizeOfEntries entries + 2

def sizeOfItems : List Node → Nat
  | [] => 0
  | n :: rest => n.size + sizeOfItems rest

def sizeOfEntries : List (Node × Node) → Nat
  | [] => 0
  | (k, v) :: rest => k.size + v.size + sizeOfEntries rest

end

/-- A node under the number of its anchor, if it has one. -/
def Properties.listed (p : Properties) (n : Node) : List (Nat × Node) :=
  (p.anchor.map (·, n)).toList

mutual

/-- The nodes with anchors in a node, in their order. -/
def Node.anchored : Node → List (Nat × Node)
  | .alias _ => []
  | .scalar p plain text => p.listed (.scalar p plain text)
  | .list p items => p.listed (.list p items) ++ anchoredItems items
  | .table p entries => p.listed (.table p entries) ++ anchoredEntries entries

def anchoredItems : List Node → List (Nat × Node)
  | [] => []
  | n :: rest => n.anchored ++ anchoredItems rest

def anchoredEntries : List (Node × Node) → List (Nat × Node)
  | [] => []
  | (k, v) :: rest => k.anchored ++ v.anchored ++ anchoredEntries rest

end

end Runbook.Config.Yaml
