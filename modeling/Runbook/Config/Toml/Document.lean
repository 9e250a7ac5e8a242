import Runbook.Config.Toml.Scalar
import Runbook.Config.Toml.Tables

set_option autoImplicit false

/-!
Reading TOML. A document is a list of statements: values under keys, and headers that say which
table the keys after them belong to. A name that is given twice makes a document invalid.
-/
namespace Runbook.Config.Toml

inductive Statement
  | value (key : Key) (v : Value)
  | table (key : Key)
  /-- A new table at the end of a list of tables. -/
  | element (key : Key)

/-- How many lists and tables may lie within each other, and how many names a key may have. -/
def maxNesting : Nat := 79

/-- A text without the blanks it starts with. -/
def skipBlanks (cs : List Char) : List Char :=
  cs.dropWhile fun c => c == ' ' || c == '\t'

/-- The rest of a comment's line. `none` if a character may not stand in it. -/
def skipComment : List Char → Option (List Char)
  | [] => some []
  | c :: cs => if c = '\n' then some (c :: cs) else if isOrdinary c then skipComment cs else none

/-- Reads what may follow a statement in its line. -/
def endOfLine (cs : List Char) : Option (List Char) :=
  match skipBlanks cs with
  | [] => some []
  | '\n' :: rest => some rest
  | '#' :: rest => (skipComment rest).map (·.drop 1)
  | _ => none

/-- Passes over blanks, comments and line breaks. -/
def skipLines : Nat → List Char → Option (List Char)
  | 0, cs => some cs
  | fuel + 1, cs =>
    match skipBlanks cs with
    | '\n' :: rest => skipLines fuel rest
    | '#' :: rest => (skipComment rest).bind (skipLines fuel)
    | rest => some rest

/-- Whether a character may stand in a name without quotes. -/
def isNameChar (c : Char) : Bool :=
  c.isAlphanum || c == '_' || c == '-'

def name (cs : List Char) : Option (String × List Char) :=
  if cs.head? = some '"' ∨ cs.head? = some '\'' then
    (lineString cs).map fun (s, rest) => (String.ofList s, rest)
  else
    let (s, rest) := cs.span isNameChar
    if s = [] then none else some (String.ofList s, rest)

/-- Reads names with points between them. -/
def names : Nat → List Char → Option (Key × List Char)
  | 0, _ => none
  | fuel + 1, cs => do
    let (first, rest) ← name (skipBlanks cs)
    match skipBlanks rest with
    | '.' :: rest =>
      let (more, rest) ← names fuel rest
      return (first :: more, rest)
    | rest => return ([first], rest)

def key (cs : List Char) : Option (Key × List Char) :=
  names maxNesting cs

def inlineTable (members : List (Key × Value)) : Option Value :=
  (members.foldlM (fun entries (k, v) => addValue k v .stated entries) []).map fun entries =>
    .table (layerOf entries)

mutual

/-- Reads a value. So many lists and tables may lie within each other in it. -/
def value : Nat → Nat → List Char → Option (Value × List Char)
  | 0, _, _ => none
  | fuel + 1, nesting, cs =>
    match cs, nesting with
    | '[' :: rest, nesting + 1 => do
      let (items, rest) ← items fuel nesting (← skipLines rest.length rest)
      return (.list items, rest)
    | '{' :: rest, nesting + 1 =>
      match skipBlanks rest with
      | '}' :: rest => some (.table [], rest)
      | rest => do
        let (members, rest) ← members fuel nesting rest
        return (← inlineTable members, rest)
    | _, _ =>
      if cs.head? = some '"' ∨ cs.head? = some '\'' then
        (string cs).map fun (s, rest) => (.str (String.ofList s), rest)
      else
        let (w, rest) := word cs
        (wordValue? w).map fun v => (v, rest)

/-- Reads the items of a list, and its end. -/
def items : Nat → Nat → List Char → Option (List Value × List Char)
  | 0, _, _ => none
  | fuel + 1, nesting, cs =>
    match cs with
    | ']' :: rest => some ([], rest)
    | _ => do
      let (item, rest) ← value fuel nesting cs
      match ← skipLines rest.length rest with
      | ',' :: rest =>
        let (more, rest) ← items fuel nesting (← skipLines rest.length rest)
        return (item :: more, rest)
      | ']' :: rest => return ([item], rest)
      | _ => none

/-- Reads the members of a table in one line, and its end. -/
def members : Nat → Nat → List Char → Option (List (Key × Value) × List Char)
  | 0, _, _ => none
  | fuel + 1, nesting, cs => do
    let (k, rest) ← key cs
    match rest with
    | '=' :: rest =>
      let (v, rest) ← value fuel nesting (skipBlanks rest)
      match skipBlanks rest with
      | ',' :: rest =>
        let (more, rest) ← members fuel nesting rest
        return ((k, v) :: more, rest)
      | '}' :: rest => return ([(k, v)], rest)
      | _ => none
    | _ => none

end

/-- Reads a statement and the end of its line. -/
def statement (cs : List Char) : Option (Statement × List Char) := do
  match cs with
  | '[' :: '[' :: rest =>
    let (k, rest) ← key rest
    match rest with
    | ']' :: ']' :: rest => return (.element k, ← endOfLine rest)
    | _ => none
  | '[' :: rest =>
    let (k, rest) ← key rest
    match rest with
    | ']' :: rest => return (.table k, ← endOfLine rest)
    | _ => none
  | _ =>
    let (k, rest) ← key cs
    match rest with
    | '=' :: rest =>
      let (v, rest) ← value (rest.length + 1) maxNesting (skipBlanks rest)
      return (.value k v, ← endOfLine rest)
    | _ => none

/-- Reads statements up to the end of the text. -/
def statements : Nat → List Char → Option (List Statement)
  | 0, _ => none
  | fuel + 1, cs => do
    match ← skipLines cs.length cs with
    | [] => return []
    | rest =>
      let (s, rest) ← statement rest
      return s :: (← statements fuel rest)

/-- The outermost table of a document, from the entries of it that are known and the table of the
last header. -/
def outermost : Key → Entries → List Statement → Option Entries
  | _, entries, [] => some entries
  | header, entries, .value k v :: rest => do
    outermost header (← addValueIn header k v entries) rest
  | _, entries, .table k :: rest => do outermost k (← openTable k entries) rest
  | _, entries, .element k :: rest => do outermost k (← addElement k entries) rest

/-- A text with its line ends as line feeds; a carriage return stands nowhere else. -/
def withLineFeeds : List Char → List Char
  | '\r' :: '\n' :: rest => '\n' :: withLineFeeds rest
  | c :: rest => c :: withLineFeeds rest
  | [] => []

def layer? (text : String) : Option Layer := do
  let cs := match text.toList with
    | c :: cs => if c = Char.ofNat 0xFEFF then cs else c :: cs
    | [] => []
  let cs := withLineFeeds cs
  let entries ← outermost [] [] (← statements (cs.length + 1) cs)
  return layerOf entries

end Runbook.Config.Toml
