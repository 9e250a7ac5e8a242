import Runbook.Json.Parser

set_option autoImplicit false

/-!
The texts of YAML scalars. A scalar may go on over several lines: blanks around a line break are
dropped, one line break reads as a blank, and of several all but the first are kept.
-/
namespace Runbook.Config.Yaml

/-- The separators of lines and of paragraphs, which count as line breaks beside the line feed. -/
def separators : List Char := [Char.ofNat 0x2028, Char.ofNat 0x2029]

/-- The characters that end a line. -/
def isBreak (c : Char) : Bool :=
  c == '\n' || separators.contains c

/-- The blanks within a line. -/
def isInline (c : Char) : Bool :=
  c == ' ' || c == '\t'

/-- Whether a text starts with a blank or a line break, or is empty. -/
def atGap : List Char → Bool
  | [] => true
  | c :: _ => isInline c || isBreak c

/-- Whether the mark of a document's start or end stands at the beginning of a line. -/
def atMark : List Char → Bool
  | '-' :: '-' :: '-' :: rest => atGap rest
  | '.' :: '.' :: '.' :: rest => atGap rest
  | _ => false

/-- A text with all its line breaks as line feeds, except the separators. -/
def withLineFeeds : List Char → List Char
  | [] => []
  | '\r' :: '\n' :: rest => '\n' :: withLineFeeds rest
  | c :: rest =>
    (if c = '\r' ∨ c = Char.ofNat 0x85 then '\n' else c) :: withLineFeeds rest

/-- A text that is being read over several lines. -/
structure Folding where
  /-- What is settled, the last character first. -/
  settled : List Char := []
  /-- The blanks since then in the same line, the last first. -/
  blanks : List Char := []
  /-- The line breaks since then. -/
  breaks : List Char := []
  /-- The line was continued on purpose, without a blank. -/
  continued : Bool := false

namespace Folding

/-- What line breaks between two parts of a text read as. -/
def ofBreaks : List Char → List Char
  | ['\n'] => [' ']
  | '\n' :: more => more
  | breaks => breaks

/-- Settles the blanks and line breaks. -/
def settle (f : Folding) : Folding :=
  let gap := if f.continued then f.breaks.reverse
    else if f.breaks = [] then f.blanks
    else (ofBreaks f.breaks).reverse
  { settled := gap ++ f.settled }

def add (f : Folding) (c : Char) : Folding :=
  let f := f.settle
  { f with settled := c :: f.settled }

/-- One more blank; only within a line it may be part of the text. -/
def blank (f : Folding) (c : Char) : Folding :=
  if f.breaks = [] ∧ ¬f.continued then { f with blanks := c :: f.blanks } else f

def lineBreak (f : Folding) (c : Char) : Folding :=
  { f with blanks := [], breaks := f.breaks ++ [c] }

/-- The line goes on after a break that is no part of the text. -/
def goOn (f : Folding) : Folding :=
  { f.settle with continued := true }

def text (f : Folding) : List Char :=
  f.settled.reverse

end Folding

/-- The character of an escape of one letter in a scalar between double quotes. -/
def letterEscape (c : Char) : Option Char :=
  match c with
  | '0' => some (Char.ofNat 0)
  | 'a' => some (Char.ofNat 7)
  | 'b' => some (Char.ofNat 8)
  | 't' | '\t' => some '\t'
  | 'n' => some '\n'
  | 'v' => some (Char.ofNat 11)
  | 'f' => some (Char.ofNat 12)
  | 'r' => some '\r'
  | 'e' => some (Char.ofNat 27)
  | ' ' | '"' | '/' | '\\' => some c
  | 'N' => some (Char.ofNat 0x85)
  | '_' => some (Char.ofNat 0xA0)
  | 'L' => some (Char.ofNat 0x2028)
  | 'P' => some (Char.ofNat 0x2029)
  | _ => none

def numberEscape (ds : List Char) : Option Char := do
  let n ← ds.foldlM (fun n d => (Json.hexValue d).map (16 * n + ·)) 0
  if Nat.isValidChar n then some (Char.ofNat n) else none

/-- Reads a scalar between double quotes, after the first. -/
def doubleQuoted : Folding → List Char → Option (List Char × List Char)
  | _, [] => none
  | f, '"' :: rest => some (f.settle.text, rest)
  | f, '\\' :: 'x' :: a :: b :: rest =>
    match numberEscape [a, b] with
    | some c => doubleQuoted (f.add c) rest
    | none => none
  | f, '\\' :: 'u' :: a :: b :: c :: d :: rest =>
    match numberEscape [a, b, c, d] with
    | some c => doubleQuoted (f.add c) rest
    | none => none
  | f, '\\' :: 'U' :: a :: b :: c :: d :: a' :: b' :: c' :: d' :: rest =>
    match numberEscape [a, b, c, d, a', b', c', d'] with
    | some c => doubleQuoted (f.add c) rest
    | none => none
  | f, '\\' :: e :: rest =>
    if isBreak e then (if atMark rest then none else doubleQuoted f.goOn rest)
    else
      match letterEscape e with
      | some c => doubleQuoted (f.add c) rest
      | none => none
  | f, c :: rest =>
    if isBreak c then (if atMark rest then none else doubleQuoted (f.lineBreak c) rest)
    else doubleQuoted (if isInline c then f.blank c else f.add c) rest

/-- Reads a scalar between single quotes, after the first. -/
def singleQuoted : Folding → List Char → Option (List Char × List Char)
  | _, [] => none
  -- A quote in it is written twice.
  | f, '\'' :: '\'' :: rest => singleQuoted (f.add '\'') rest
  | f, '\'' :: rest => some (f.settle.text, rest)
  | f, c :: rest =>
    if isBreak c then (if atMark rest then none else singleQuoted (f.lineBreak c) rest)
    else singleQuoted (if isInline c then f.blank c else f.add c) rest

/-- Reads a scalar between quotes of either kind. -/
def quoted : List Char → Option (List Char × List Char)
  | '"' :: rest => doubleQuoted {} rest
  | '\'' :: rest => singleQuoted {} rest
  | _ => none

end Runbook.Config.Yaml
