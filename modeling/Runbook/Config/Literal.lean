import Runbook.Config.Toml.Scalar
import Runbook.Text.AsciiCase
import Runbook.Text.Blank
import Runbook.Text.Split
import Runbook.Environment

set_option autoImplicit false

/-!
Values in environments. A text that is a literal (a number, a truth value, a string in quotes, a
list in brackets or a table in braces) stands for its value, any other for itself.
-/
namespace Runbook.Config.Literal

open Text

/-- The blanks between the parts of a literal. -/
def isSpace (c : Char) : Bool :=
  [' ', '\t', '\n', '\r', Char.ofNat 12].contains c

/-- A text without the blanks it starts with. -/
def skipSpace (cs : List Char) : List Char :=
  cs.dropWhile isSpace

/-- Characters that end a word. -/
def isSeparator (c : Char) : Bool :=
  [',', '[', ']', '{', '}'].contains c

/-- An integer of 64 bits, with a sign or without one. -/
def integer? : List Char → Option Int
  | '-' :: cs => ((natural? cs).filter (· ≤ wordCount 63)).map fun n => -(n : Int)
  | cs => (unsigned? maxWord64 cs).map fun n => (n : Int)

def wordValue (cs : List Char) : Value :=
  if cs.contains '.' ∧ (Numeral.magnitude? cs).isSome then .other
  else
    match integer? cs with
    | some n => .int n
    | none => .str (String.ofList cs)

/-- The characters that fit into so many bytes. -/
def takeBytes (n : Nat) : List Char → List Char
  | [] => []
  | c :: cs => if c.utf8Size ≤ n then c :: takeBytes (n - c.utf8Size) cs else []

/-- Reads a text in double quotes, after the first. -/
def quoted (cs : List Char) : Option (String × List Char) := do
  let (text, rest) ← Toml.basic false false cs
  let (plain, tail) := cs.span fun c => c != '\\' && c != '"'
  -- Before an escape as many bytes are kept as there are characters.
  let n := plain.length
  let text := if tail.head? = some '\\' then takeBytes n plain ++ text.drop n else text
  return (String.ofList text, rest)

/-- Whether a character may stand in a name without quotes. -/
def isNameChar (c : Char) : Bool :=
  c.isAlphanum || c == '_' || c == '-'

/-- Reads a name of a table. -/
def name (cs : List Char) : Option (String × List Char) :=
  match cs with
  | '"' :: rest => quoted rest
  | _ =>
    let (s, rest) := cs.span isNameChar
    if s = [] then none else some (String.ofList s, rest)

mutual

/-- Reads a literal, and the blanks around it. -/
def value : Nat → List Char → Option (Value × List Char)
  | 0, _ => none
  | fuel + 1, cs => do
    let (v, rest) ← match skipSpace cs with
      | 't' :: 'r' :: 'u' :: 'e' :: rest => some (.other, rest)
      | 'f' :: 'a' :: 'l' :: 's' :: 'e' :: rest => some (.other, rest)
      | '"' :: rest => (quoted rest).map fun (s, rest) => (.str s, rest)
      | '\'' :: c :: '\'' :: rest => some (.str (String.ofList [c]), rest)
      | '\'' :: _ => none
      | '[' :: rest => (items fuel rest).map fun (items, rest) => (.list items, rest)
      | '{' :: rest => (members fuel rest).map fun (members, rest) =>
          (.table (Layer.ofEntries members), rest)
      | rest =>
        let (w, rest) := rest.span fun c => !isSeparator c
        some (wordValue (trim w), rest)
    return (v, skipSpace rest)

/-- Reads the items of a list, and its end. -/
def items : Nat → List Char → Option (List Value × List Char)
  | 0, _ => none
  | fuel + 1, cs =>
    match cs with
    | ']' :: rest => some ([], rest)
    | _ => do
      let (item, rest) ← value fuel cs
      match rest with
      | ',' :: rest =>
        let (more, rest) ← items fuel rest
        return (item :: more, rest)
      | ']' :: rest => return ([item], rest)
      | _ => none

/-- Reads the members of a table, and its end. -/
def members : Nat → List Char → Option (List (String × Value) × List Char)
  | 0, _ => none
  | fuel + 1, cs =>
    match cs with
    | '}' :: rest => some ([], rest)
    | _ => do
      let (k, rest) ← name (skipSpace cs)
      match skipSpace rest with
      | '=' :: rest =>
        let (v, rest) ← value fuel rest
        match rest with
        | ',' :: rest =>
          let (more, rest) ← members fuel rest
          return ((k, v) :: more, rest)
        | '}' :: rest => return ([(k, v)], rest)
        | _ => none
      | _ => none

end

def read (text : String) : Value :=
  match value (text.length + 1) text.toList with
  | some (v, []) => v
  | _ => .str text

/-- What the names of settings in environments begin with, in letters of either case. -/
def settingMark : String := "TABULA_"

/-- The name of a setting as layers have it, from its name in an environment. -/
def settingName? (given : String) : Option String :=
  let cs := trim given.toList
  let n := settingMark.length
  let rest := trim (lower ((cs.drop n).map fun c => if c = '_' then '-' else c))
  if lower (cs.take n) = lower settingMark.toList ∧ rest ≠ [] then some (String.ofList rest)
  else none

/-- The layer that holds a value under names, each in the table of the one before it. -/
def nested (names : List String) (v : Value) : Layer :=
  match names with
  | [] => []
  | [name] => [(name, v)]
  | name :: names => [(name, .table (nested names v))]

/-- The layer of one variable. -/
def variableLayer (given text : String) : Layer :=
  match settingName? given with
  | none => []
  | some name =>
    -- A point in the name leads into a table.
    let names := (splitAt '.' name.toList).map String.ofList
    if names.contains "" then [] else nested names (read text)

/-- The settings that an environment states. -/
def layer (env : Environment) : Layer :=
  env.foldl (fun layer (given, text) => Layer.merge layer (variableLayer given text)) []

end Runbook.Config.Literal
