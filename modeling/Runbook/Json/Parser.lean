import Runbook.Json.Basic
import Runbook.Text.Decimal

set_option autoImplicit false

/-!
Reading JSON. The grammar is the strict one: no comments, no trailing commas, no leading zeros,
no raw control characters in strings. A string may hold an unpaired surrogate escape; it is then
read as `Json.illFormed`, which no field accepts, and so is an object with a member name of that
kind.
-/
namespace Runbook.Json

open Text (isDigit digitsValue)

def isSpace (c : Char) : Bool :=
  c == ' ' || c == '\t' || c == '\n' || c == '\r'

/-- The text after the white space it starts with. -/
def skipSpace (cs : List Char) : List Char :=
  cs.dropWhile isSpace

/-- The number a hexadecimal digit of either case stands for. -/
def hexValue (c : Char) : Option Nat :=
  if isDigit c then some (c.toNat - 0x30)
  else if 'a' ≤ c ∧ c ≤ 'f' then some (c.toNat - 0x57)
  else if 'A' ≤ c ∧ c ≤ 'F' then some (c.toNat - 0x37)
  else none

/-- The 16-bit unit of four hexadecimal digits. -/
def hexUnit (a b c d : Char) : Option Nat := do
  return 4096 * (← hexValue a) + 256 * (← hexValue b) + 16 * (← hexValue c) + (← hexValue d)

/-- The first of a pair of surrogates. -/
def isHighSurrogate (u : Nat) : Bool :=
  0xD800 ≤ u && u ≤ 0xDBFF

/-- The second of a pair of surrogates. -/
def isLowSurrogate (u : Nat) : Bool :=
  0xDC00 ≤ u && u ≤ 0xDFFF

/-- The character of a pair of surrogates. -/
def surrogatePair (high low : Nat) : Char :=
  Char.ofNat (0x10000 + (high - 0xD800) * 0x400 + (low - 0xDC00))

def shortEscape : Char → Option Char
  | '"' => some '"'
  | '\\' => some '\\'
  | '/' => some '/'
  | 'b' => some (Char.ofNat 8)
  | 'f' => some (Char.ofNat 12)
  | 'n' => some '\n'
  | 'r' => some '\r'
  | 't' => some '\t'
  | _ => none

/-- What stands for a character in a string: the character itself or a letter escape for it, or a
16-bit unit given by its number. -/
inductive Piece
  | char (c : Char)
  | unit (u : Nat)
  deriving DecidableEq

/-- The characters of a string; `none` when a surrogate is unpaired. -/
def joinPieces : List Piece → Option (List Char)
  | [] => some []
  | .char c :: ps => (joinPieces ps).map (c :: ·)
  | .unit u :: .unit v :: ps =>
    if isHighSurrogate u then
      if isLowSurrogate v then (joinPieces ps).map (surrogatePair u v :: ·) else none
    else if isLowSurrogate u then none
    else (joinPieces (.unit v :: ps)).map (Char.ofNat u :: ·)
  | .unit u :: ps =>
    if isHighSurrogate u ∨ isLowSurrogate u then none
    else (joinPieces ps).map (Char.ofNat u :: ·)

/-- Reads the pieces of a string up to its closing quote. -/
def stringPieces : List Char → Option (List Piece × List Char)
  | [] => none
  | '"' :: rest => some ([], rest)
  | '\\' :: 'u' :: a :: b :: c :: d :: rest => do
    let u ← hexUnit a b c d
    let (ps, rest) ← stringPieces rest
    return (.unit u :: ps, rest)
  | '\\' :: e :: rest => do
    let c ← shortEscape e
    let (ps, rest) ← stringPieces rest
    return (.char c :: ps, rest)
  | c :: rest =>
    if c.toNat < 32 ∨ c = '\\' then none
    else do
      let (ps, rest) ← stringPieces rest
      return (.char c :: ps, rest)

/-- A string value from its pieces. -/
def ofPieces (ps : List Piece) : Json :=
  match joinPieces ps with
  | some cs => .str (String.ofList cs)
  | none => .illFormed

/-- The digits a text starts with, and the rest. -/
def spanDigits (cs : List Char) : List Char × List Char :=
  cs.span isDigit

/-- Reads a fraction: a point and at least one digit. A text without a point has none. -/
def fraction : List Char → Option (List Char × List Char)
  | '.' :: rest =>
    match spanDigits rest with
    | ([], _) => none
    | (ds, rest') => some ('.' :: ds, rest')
  | cs => some ([], cs)

/-- The sign an exponent may start with, and the rest. -/
def exponentSign : List Char → List Char × List Char
  | '+' :: rest => (['+'], rest)
  | '-' :: rest => (['-'], rest)
  | rest => ([], rest)

/-- Reads an exponent: its letter, a sign or none, and at least one digit. -/
def exponent : List Char → Option (List Char × List Char)
  | c :: rest =>
    if c = 'e' ∨ c = 'E' then
      let (sign, rest') := exponentSign rest
      match spanDigits rest' with
      | ([], _) => none
      | (ds, rest'') => some (c :: sign ++ ds, rest'')
    else some ([], c :: rest)
  | [] => some ([], [])

/-- Reads an unsigned number, given whether a minus sign stood before it. -/
def unsignedNumber (negative : Bool) (cs : List Char) : Option (Json × List Char) :=
  match spanDigits cs with
  | ([], _) => none
  | (ds, rest) =>
    -- A zero is followed by no other digit.
    if ds.head? = some '0' ∧ ds.length ≠ 1 then none
    else do
      let (frac, rest) ← fraction rest
      let (exp, rest) ← exponent rest
      -- A negative zero is not an integer.
      if frac = [] ∧ exp = [] ∧ ¬(negative ∧ ds = ['0']) then
        let n : Int := digitsValue ds
        return (.int (if negative then -n else n), rest)
      else
        let sign := if negative then ['-'] else []
        return (.real (String.ofList (sign ++ ds ++ frac ++ exp)), rest)

def number : List Char → Option (Json × List Char)
  | '-' :: rest => unsignedNumber true rest
  | cs => unsignedNumber false cs

/-- The text after `word`, if it starts with `word`. -/
def dropWord : List Char → List Char → Option (List Char)
  | [], cs => some cs
  | w :: ws, c :: cs => if w = c then dropWord ws cs else none
  | _ :: _, [] => none

/-- A member name, `none` when it is ill-formed, and the text after the colon behind it. -/
def memberName (cs : List Char) : Option (Option String × List Char) :=
  match skipSpace cs with
  | '"' :: rest =>
    match stringPieces rest with
    | some (ps, rest) =>
      match skipSpace rest with
      | ':' :: rest => some ((joinPieces ps).map String.ofList, rest)
      | _ => none
    | none => none
  | _ => none

/-- A member whose name may be ill-formed. -/
abbrev Member := Option String × Json

/-- An object value from its members. -/
def ofMembers (ms : List Member) : Json :=
  match ms.mapM fun m => m.1.map (·, m.2) with
  | some members => .obj members
  | none => .illFormed

mutual

/-- Reads a value, after white space; `fuel` bounds the depth and the number of items. -/
def value : Nat → List Char → Option (Json × List Char)
  | 0, _ => none
  | fuel + 1, cs =>
    match skipSpace cs with
    | '"' :: rest => (stringPieces rest).map fun (ps, rest) => (ofPieces ps, rest)
    | '[' :: rest =>
      match skipSpace rest with
      | ']' :: rest => some (.arr [], rest)
      | rest => do
        let (item, rest) ← value fuel rest
        let (items, rest) ← moreItems fuel rest
        return (.arr (item :: items), rest)
    | '{' :: rest =>
      match skipSpace rest with
      | '}' :: rest => some (.obj [], rest)
      | rest => do
        let (name, rest) ← memberName rest
        let (item, rest) ← value fuel rest
        let (members, rest) ← moreMembers fuel rest
        return (ofMembers ((name, item) :: members), rest)
    | 't' :: rest => (dropWord ['r', 'u', 'e'] rest).map (.bool true, ·)
    | 'f' :: rest => (dropWord ['a', 'l', 's', 'e'] rest).map (.bool false, ·)
    | 'n' :: rest => (dropWord ['u', 'l', 'l'] rest).map (.null, ·)
    | rest => number rest

/-- Reads the items after the first, and the closing bracket. -/
def moreItems : Nat → List Char → Option (List Json × List Char)
  | 0, _ => none
  | fuel + 1, cs =>
    match skipSpace cs with
    | ']' :: rest => some ([], rest)
    | ',' :: rest => do
      let (item, rest) ← value fuel rest
      let (items, rest) ← moreItems fuel rest
      return (item :: items, rest)
    | _ => none

/-- Reads the members after the first, and the closing brace. -/
def moreMembers : Nat → List Char → Option (List Member × List Char)
  | 0, _ => none
  | fuel + 1, cs =>
    match skipSpace cs with
    | '}' :: rest => some ([], rest)
    | ',' :: rest => do
      let (name, rest) ← memberName rest
      let (item, rest) ← value fuel rest
      let (members, rest) ← moreMembers fuel rest
      return ((name, item) :: members, rest)
    | _ => none

end

/-- Reads a whole text as one value; every step of the reader takes a character. -/
def parseChars (cs : List Char) : Option Json :=
  match value (cs.length + 1) cs with
  | some (j, rest) => if (skipSpace rest).isEmpty then some j else none
  | none => none

def parse? (s : String) : Option Json :=
  parseChars s.toList

end Runbook.Json
