import Runbook.Config.Yaml.Node
import Runbook.Config.Yaml.Token

set_option autoImplicit false

/-!
Reading the nodes of a YAML document from its tokens. There is at most one document in a text.
-/
namespace Runbook.Config.Yaml

/-- What is left of a document, and what its names mean so far. -/
structure Reading where
  tokens : List Token
  handles : Handles := []
  /-- The numbers of the anchors, the last ones first. -/
  anchors : List (String × Nat) := []

/-- A step of reading a document. -/
abbrev Read := StateT Reading Option

namespace Read

def next? : Read (Option Token) := do
  return (← get).tokens.head?

def pass : Read Unit :=
  modify fun r => { r with tokens := r.tokens.drop 1 }

/-- Passes over a token, which has to be a certain one. -/
def expect (t : Token) : Read Unit := do
  if (← next?) = some t then pass else failure

/-- Gives an anchor its number: how many names there were before. -/
def anchorNumber (name : String) : Read Nat := do
  let anchors := (← get).anchors
  let number := anchors.length
  modify fun r => { r with anchors := (name, number) :: anchors.filter (·.1 != name) }
  return number

/-- The number of an anchor that was given before. -/
def knownAnchor (name : String) : Read Nat := do
  match (← get).anchors.lookup name with
  | some number => return number
  | none => failure

/-- The properties of a node: an anchor and a tag, in either order. Says also whether there are
any. -/
def properties : Read (Properties × Bool) := do
  let before ← anchor?
  let tag ← match ← next? with
    | some (.tag t) =>
      match t.fullBytes? (← get).handles with
      | some bytes => do
        pass
        pure (some (Tag.ofBytes? bytes))
      | none => failure
    | _ => pure none
  let name ← if before.isNone then anchor? else pure before
  let anchor ← match name with
    | some name => some <$> anchorNumber name
    | none => pure none
  return (⟨anchor, tag.join⟩, name.isSome || tag.isSome)
where
  /-- The name of an anchor, if there is one. -/
  anchor? : Read (Option String) := do
    match ← next? with
    | some (.anchor name) => do
      pass
      return some name
    | _ => return none

/-- Whether the next token is one of some. -/
def nextIn (ts : List Token) : Read Bool := do
  return (← next?).any ts.contains

/-- The node of properties whose value is left out. -/
def propertiesAlone (p : Properties) (given : Bool) : Read Node :=
  if given then return .scalar p true "" else failure

mutual

/-- Reads a node. -/
def node (brackets indented : Bool) : Nat → Read Node
  | 0 => failure
  | fuel + 1 => do
    if let some (.alias name) ← next? then
      pass
      return .alias (← knownAnchor name)
    let (p, given) ← properties
    match ← next? with
    | some (.scalar plain text) =>
      pass
      return .scalar (if p.tag = some (.custom "") then { p with tag := none } else p) plain text
    | some .openList =>
      pass
      return .list p (← bracketItems true fuel)
    | some .openTable =>
      pass
      return .table p (← bracketEntries true fuel)
    -- Outside brackets a node may be a collection with its parts below each other, and, after a
    -- key, a list that is not indented.
    | t =>
      if t = some .item ∧ !brackets ∧ !indented then return .list p (← items true fuel)
      else if t = some .listStart ∧ !brackets then
        pass
        return .list p (← items false fuel)
      else if t = some .tableStart ∧ !brackets then
        pass
        return .table p (← entries fuel)
      else propertiesAlone p given

/-- Reads a node that may be left out before some tokens. -/
def nodeUnless (before : List Token) (brackets indented : Bool) : Nat → Read Node
  | 0 => failure
  | fuel + 1 => do
    if ← nextIn before then return .empty else node brackets indented fuel

/-- Reads the items of a list that stand below each other. -/
def items (sameColumn : Bool) : Nat → Read (List Node)
  | 0 => failure
  | fuel + 1 => do
    match ← next? with
    | some .item =>
      pass
      let before := if sameColumn then [.item, .key, .value, .collectionEnd]
        else [Token.item, .collectionEnd]
      let first ← nodeUnless before false true fuel
      return first :: (← items sameColumn fuel)
    | some .collectionEnd =>
      if !sameColumn then pass
      return []
    -- A list that is not indented ends before whatever is no item.
    | _ => if sameColumn then return [] else failure

/-- Reads the entries of a table that stand below each other. -/
def entries : Nat → Read (List (Node × Node))
  | 0 => failure
  | fuel + 1 => do
    match ← next? with
    | some .key =>
      pass
      let before := [Token.key, .value, .collectionEnd]
      let k ← nodeUnless before false false fuel
      let v ← if ← nextIn [.value] then do
          pass
          nodeUnless before false false fuel
        else pure .empty
      return (k, v) :: (← entries fuel)
    | some .collectionEnd =>
      pass
      return []
    | _ => failure

/-- Reads the value of an entry in brackets, which may be left out. -/
def bracketValue (close : Token) : Nat → Read Node
  | 0 => failure
  | fuel + 1 => do
    if ← nextIn [.value] then do
      pass
      nodeUnless [.comma, close] true true fuel
    else return .empty

/-- Reads the items of a list in brackets. An item may be an entry of a table. -/
def bracketItems (first : Bool) : Nat → Read (List Node)
  | 0 => failure
  | fuel + 1 => do
    if ← nextIn [.closeList] then
      pass
      return []
    if !first then expect .comma
    match ← next? with
    | some .closeList =>
      pass
      return []
    | some .key =>
      pass
      -- Where the key is left out, the token in its place is passed over.
      let k ← if ← nextIn [.value, .comma, .closeList] then do
          pass
          pure .empty
        else node true true fuel
      let v ← bracketValue .closeList fuel
      return .table {} [(k, v)] :: (← bracketItems false fuel)
    | _ =>
      let n ← node true true fuel
      return n :: (← bracketItems false fuel)

def bracketEntries (first : Bool) : Nat → Read (List (Node × Node))
  | 0 => failure
  | fuel + 1 => do
    if ← nextIn [.closeTable] then
      pass
      return []
    if !first then expect .comma
    match ← next? with
    | some .closeTable =>
      pass
      return []
    | some .key =>
      pass
      let k ← nodeUnless [.value, .comma, .closeTable] true true fuel
      let v ← bracketValue .closeTable fuel
      return (k, v) :: (← bracketEntries false fuel)
    | _ =>
      let k ← node true true fuel
      return (k, .empty) :: (← bracketEntries false fuel)

end

/-- Reads directives: at most one version, which has to be a known one, and at most one meaning of
each handle. -/
def directives (versionGiven : Bool) : Nat → Read Unit
  | 0 => failure
  | fuel + 1 => do
    match ← next? with
    | some (.directive (.version major minor)) =>
      if versionGiven ∨ major ≠ 1 ∨ (minor ≠ 1 ∧ minor ≠ 2) then failure
      pass
      directives true fuel
    | some (.directive (.handle handle bytes)) =>
      let handles := (← get).handles
      if (handles.lookup handle).isSome then failure
      modify fun r => { r with handles := handles ++ [(handle, bytes)] }
      pass
      directives versionGiven fuel
    | _ => pure ()

/-- Reads the document of a text, if there is one. -/
def document (fuel : Nat) : Read (Option Node) := do
  let start := (← get).tokens
  if start = [] then return none
  directives false fuel
  modify fun r => { r with handles := r.handles ++ usualHandles }
  let n ←
    if (← next?) = some .documentStart then do
      pass
      if ← atDocumentEnd then pure .empty else node false true fuel
    else if (← get).tokens = start then node false true fuel
    else failure
  -- Nothing may follow a document but marks of its end.
  if (← get).tokens.all (· = .documentEnd) then return some n else failure
where
  /-- Whether a document ends before it has begun. -/
  atDocumentEnd : Read Bool := do
    match ← next? with
    | none => return true
    | some .documentStart => return true
    | some .documentEnd => return true
    | some (.directive _) => return true
    | _ => return false

end Read

/-- The document of tokens, if there is one. -/
def document? (ts : List Token) : Option (Option Node) :=
  -- Reading a token takes three steps at most.
  (Read.document (3 * ts.length + 3)).run' { tokens := ts }

end Runbook.Config.Yaml
