import Runbook.Config.Yaml.Block
import Runbook.Config.Yaml.Tag

set_option autoImplicit false

/-!
Cutting a YAML text into tokens. Outside brackets the columns of lines open and close collections.
A key is found out only by the colon after it: the tokens that say so are put in where it started,
which has to be in the same line.
-/
namespace Runbook.Config.Yaml

inductive Token
  | directive (d : Directive)
  | documentStart
  | documentEnd
  /-- A list whose items stand below each other starts. -/
  | listStart
  /-- A table whose entries stand below each other starts. -/
  | tableStart
  /-- A collection that is not in brackets ends. -/
  | collectionEnd
  | openList
  | closeList
  | openTable
  | closeTable
  | item
  | comma
  | key
  | value
  | alias (name : String)
  | anchor (name : String)
  | tag (tag : WrittenTag)
  | scalar (plain : Bool) (text : String)
  deriving DecidableEq

/-- A place where a key may turn out to have started. -/
structure PossibleKey where
  /-- How many tokens stand before it. -/
  number : Nat
  spot : Spot
  /-- Whether nothing but a key can stand there. -/
  required : Bool

/-- How many bytes there may be from the start of a key to its colon. -/
def maxKeyLength : Nat := 1024

/-- Whether a key may go from a possible start up to a place. -/
def PossibleKey.reaches (k : PossibleKey) (p : Place) : Bool :=
  k.spot.line == p.line && p.bytes ≤ k.spot.bytes + maxKeyLength

/-- A text that is being cut into tokens. -/
structure Lexer where
  place : Place
  /-- The tokens so far, the last first. -/
  tokens : List Token := []
  /-- Whether a key may start at the place. -/
  keyAllowed : Bool := true
  /-- The columns of the open collections that are not in brackets, the innermost first. -/
  columns : List Nat := []
  /-- The possible key outside brackets or within the innermost ones. -/
  possible : Option PossibleKey := none
  /-- The possible keys outside the innermost brackets and so on. -/
  outside : List (Option PossibleKey) := []

namespace Lexer

/-- Whether the place is within brackets. -/
def inBrackets (x : Lexer) : Bool :=
  !x.outside.isEmpty

/-- The least column of what belongs to an entry of the innermost collection. -/
def indent (x : Lexer) : Nat :=
  match x.columns with
  | [] => 0
  | column :: _ => column + 1

def push (x : Lexer) (t : Token) : Lexer :=
  { x with tokens := t :: x.tokens }

/-- One more token, of one character. -/
def take (x : Lexer) (t : Token) : Lexer :=
  { x.push t with place := x.place.advance 1 }

/-- Puts tokens in before the token of a number. -/
def putIn (x : Lexer) (number : Nat) (ts : List Token) : Lexer :=
  let (after, before) := x.tokens.splitAt (x.tokens.length - number)
  { x with tokens := after ++ ts.reverse ++ before }

/-- Gives up the possible key; `none` if nothing but a key could stand there. -/
def giveUpKey (x : Lexer) : Option Lexer :=
  if x.possible.any (·.required) then none else some { x with possible := none }

/-- Takes note of the place as the start of a possible key. -/
def noteKey (x : Lexer) : Option Lexer :=
  if x.keyAllowed then do
    let p := x.place
    let required := !x.inBrackets && x.columns.head? == some p.column
    return { ← x.giveUpKey with possible := some ⟨x.tokens.length, p.toSpot, required⟩ }
  else some x

/-- Closes the collections that end before a column. -/
def closeTo (x : Lexer) (column : Nat) : Lexer :=
  if x.inBrackets then x
  else
    let (closed, columns) := x.columns.span (column < ·)
    { x with columns, tokens := closed.map (fun _ => .collectionEnd) ++ x.tokens }

/-- Closes all collections. -/
def closeAll (x : Lexer) : Lexer :=
  if x.inBrackets then x
  else { x with columns := [], tokens := x.columns.map (fun _ => .collectionEnd) ++ x.tokens }

/-- Opens a collection at a column, before the token of a number, unless one is open there. -/
def openAt (x : Lexer) (column number : Nat) (t : Token) : Lexer :=
  if x.inBrackets || x.columns.any (column ≤ ·) then x
  else { x.putIn number [t] with columns := column :: x.columns }

/-- Opens a collection at the place, which must be one where a key may start. -/
def openHere (x : Lexer) (t : Token) : Option Lexer :=
  if x.inBrackets then some x
  else if x.keyAllowed then some (x.openAt x.place.column x.tokens.length t)
  else none

def enter (x : Lexer) (t : Token) : Option Lexer := do
  let x ← x.noteKey
  return { x.take t with keyAllowed := true, possible := none, outside := x.possible :: x.outside }

def leave (x : Lexer) (t : Token) : Option Lexer := do
  let x ← x.giveUpKey
  let x := { x.take t with keyAllowed := false }
  return match x.outside with
    | [] => x
    | possible :: outside => { x with possible, outside }

def comma (x : Lexer) : Option Lexer :=
  x.giveUpKey.map fun x => { x.take .comma with keyAllowed := true }

def item (x : Lexer) : Option Lexer := do
  let x ← (← x.openHere .listStart).giveUpKey
  return { x.take .item with keyAllowed := true }

def key (x : Lexer) : Option Lexer := do
  let x ← (← x.openHere .tableStart).giveUpKey
  return { x.take .key with keyAllowed := !x.inBrackets }

/-- Takes a colon. -/
def value (x : Lexer) : Option Lexer :=
  -- What stands before the colon is a key if one may reach so far.
  match x.possible.filter (·.reaches x.place) with
  | some k =>
    let x := (x.putIn k.number [.key]).openAt k.spot.column k.number .tableStart
    some { x.take .value with keyAllowed := false, possible := none }
  | none => do
    let x ← (← x.giveUpKey).openHere .tableStart
    return { x.take .value with keyAllowed := !x.inBrackets }

def name (x : Lexer) (t : String → Token) : Option Lexer := do
  let x ← x.noteKey
  let (name, left) ← anchorName (x.place.rest.drop 1)
  return { x.push (t name) with keyAllowed := false, place := x.place.at left }

def tag (x : Lexer) : Option Lexer := do
  let x ← x.noteKey
  let (tag, left) ← writtenTag x.place.rest
  guard (endsTag x.inBrackets left)
  return { x.push (.tag tag) with keyAllowed := false, place := x.place.at left }

def block (x : Lexer) (folded : Bool) : Option Lexer := do
  let x ← x.giveUpKey
  let (text, place) ← x.place.block folded x.indent
  return { x.push (.scalar false text) with keyAllowed := true, place }

def quoted (x : Lexer) : Option Lexer := do
  let x ← x.noteKey
  let (text, place) ← x.place.quoted
  return { x.push (.scalar false text) with keyAllowed := false, place }

def plain (x : Lexer) : Option Lexer := do
  let x ← x.noteKey
  let (text, place, broken) ← x.place.plain x.inBrackets x.indent
  return { x.push (.scalar true text) with keyAllowed := broken, place }

def directive (x : Lexer) : Option Lexer := do
  let x ← x.closeAll.giveUpKey
  let (d, left) ← Yaml.directive (x.place.rest.drop 1)
  let left ← endOfLine left
  return { x.push (.directive d) with keyAllowed := false, place := x.place.at left }

def documentMark (x : Lexer) : Option Lexer := do
  let x ← x.closeAll.giveUpKey
  let mark := if x.place.rest.head? = some '-' then Token.documentStart else .documentEnd
  return { x.push mark with keyAllowed := false, place := x.place.advance 3 }

/-- Takes the token that starts at the place. -/
def takeToken (x : Lexer) : Option Lexer :=
  let p := x.place
  if p.column = 0 ∧ p.rest.head? = some '%' then x.directive
  else if p.column = 0 ∧ atMark p.rest then x.documentMark
  else
    match p.rest with
    | [] => none
    | '[' :: _ => x.enter .openList
    | '{' :: _ => x.enter .openTable
    | ']' :: _ => x.leave .closeList
    | '}' :: _ => x.leave .closeTable
    | ',' :: _ => x.comma
    | '*' :: _ => x.name .alias
    | '&' :: _ => x.name .anchor
    | '!' :: _ => x.tag
    | '\'' :: _ => x.quoted
    | '"' :: _ => x.quoted
    | c :: cs =>
      if c = '-' ∧ atGap cs then x.item
      else if c = '?' ∧ (x.inBrackets ∨ atGap cs) then x.key
      else if c = ':' ∧ (x.inBrackets ∨ atGap cs) then x.value
      else if (c = '|' ∨ c = '>') ∧ ¬x.inBrackets then x.block (c == '>')
      else if startsPlain x.inBrackets p.rest then x.plain
      else none

/-- Goes on to the next token and closes the collections that end before it. -/
def skip (x : Lexer) : Lexer :=
  let (place, keyAllowed) := x.place.skip x.inBrackets x.keyAllowed
  closeTo { x with place, keyAllowed } place.column

/-- The tokens of a text in their order; each has at least one character. -/
def tokens? : Nat → Lexer → Option (List Token)
  | 0, _ => none
  | fuel + 1, x =>
    let x := x.skip
    if x.place.rest = [] then x.closeAll.giveUpKey.map fun x => x.tokens.reverse
    else x.takeToken.bind (tokens? fuel)

end Lexer

/-- Whether a character may stand in a YAML text. -/
def isAllowed (c : Char) : Bool :=
  let n := c.toNat
  n == 9 || n == 10 || n == 13 || (0x20 ≤ n && n ≤ 0x7E) || n == 0x85 || (0xA0 ≤ n && n ≤ 0xD7FF) ||
    (0xE000 ≤ n && n ≤ 0xFFFD) || 0x10000 ≤ n

def tokens (text : String) : Option (List Token) :=
  let cs := text.toList
  if cs.all isAllowed then
    let cs := withLineFeeds cs
    Lexer.tokens? (cs.length + 1) { place := { rest := cs } }
  else none

end Runbook.Config.Yaml
