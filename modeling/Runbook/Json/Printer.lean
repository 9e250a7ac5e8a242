import Runbook.Json.Basic
import Runbook.Text.Decimal

set_option autoImplicit false

/-!
Written JSON. `compact` uses no white space at all, so a value never spans two lines; `pretty`
puts every item and member on a line of its own, two blanks deeper than what holds it.
-/
namespace Runbook.Json

open Text (integer)

/-- The small hexadecimal digit of a number below sixteen. -/
def hexDigit (n : Nat) : Char :=
  if n < 10 then Char.ofNat (0x30 + n) else Char.ofNat (0x57 + n)

/-- How a character is written inside a string: quote, backslash and control characters are
escaped, all others stand for themselves. -/
def escapeChar (c : Char) : List Char :=
  if c = '"' then ['\\', '"']
  else if c = '\\' then ['\\', '\\']
  else if c = '\n' then ['\\', 'n']
  else if c = '\r' then ['\\', 'r']
  else if c = '\t' then ['\\', 't']
  else if c.toNat = 8 then ['\\', 'b']
  else if c.toNat = 12 then ['\\', 'f']
  else if c.toNat < 32 then
    ['\\', 'u', '0', '0', hexDigit (c.toNat / 16), hexDigit (c.toNat % 16)]
  else [c]

def quoted (s : String) : List Char :=
  '"' :: (s.toList.flatMap escapeChar ++ ['"'])

mutual

/-- A value without white space. -/
def compact : Json → List Char
  | .null => "null".toList
  | .bool true => "true".toList
  | .bool false => "false".toList
  | .int i => (integer i).toList
  | .real spelling => spelling.toList
  | .str s => quoted s
  | .illFormed => "null".toList
  | .arr [] => ['[', ']']
  | .arr (item :: items) => '[' :: (compact item ++ compactItems items)
  | .obj [] => ['{', '}']
  | .obj ((name, value) :: members) =>
    '{' :: (quoted name ++ ':' :: (compact value ++ compactMembers members))

/-- The items after the first, and the closing bracket. -/
def compactItems : List Json → List Char
  | [] => [']']
  | item :: items => ',' :: (compact item ++ compactItems items)

/-- The members after the first, and the closing brace. -/
def compactMembers : List (String × Json) → List Char
  | [] => ['}']
  | (name, value) :: members =>
    ',' :: (quoted name ++ ':' :: (compact value ++ compactMembers members))

end

def newline (depth : Nat) : List Char :=
  '\n' :: List.replicate (2 * depth) ' '

mutual

/-- A value laid out over several lines, `depth` levels deep. -/
def prettyAt (depth : Nat) : Json → List Char
  | .arr (item :: items) =>
    '[' :: (newline (depth + 1) ++ prettyAt (depth + 1) item ++ prettyItems depth items)
  | .obj ((name, value) :: members) =>
    '{' :: (newline (depth + 1) ++ quoted name ++ [':', ' '] ++ prettyAt (depth + 1) value ++
      prettyMembers depth members)
  | .null => "null".toList
  | .bool true => "true".toList
  | .bool false => "false".toList
  | .int i => (integer i).toList
  | .real spelling => spelling.toList
  | .str s => quoted s
  | .illFormed => "null".toList
  | .arr [] => ['[', ']']
  | .obj [] => ['{', '}']

/-- The items after the first, and the closing bracket on its line. -/
def prettyItems (depth : Nat) : List Json → List Char
  | [] => newline depth ++ [']']
  | item :: items =>
    ',' :: (newline (depth + 1) ++ prettyAt (depth + 1) item ++ prettyItems depth items)

/-- The members after the first, and the closing brace on its line. -/
def prettyMembers (depth : Nat) : List (String × Json) → List Char
  | [] => newline depth ++ ['}']
  | (name, value) :: members =>
    ',' :: (newline (depth + 1) ++ quoted name ++ [':', ' '] ++ prettyAt (depth + 1) value ++
      prettyMembers depth members)

end

def print (j : Json) : String :=
  String.ofList j.compact

def pretty (j : Json) : String :=
  String.ofList (j.prettyAt 0)

end Runbook.Json
