import Runbook.Config.Yaml.Scalar
import Runbook.Config.Yaml.Text
import Runbook.Text.Split

set_option autoImplicit false

/-!
Writing settings as YAML. A text is written plain where that reads back as the same text,
otherwise between single quotes, between double quotes if it holds characters that have to be
escaped, or as a literal block if it has several lines.
-/
namespace Runbook.Config.Yaml

open Text

/-- Whether a character may be written as it is. -/
def isPrintable (c : Char) : Bool :=
  let n := c.toNat
  n == 10 || (0x20 ≤ n && n ≤ 0x7E) || (0xA0 ≤ n && n ≤ 0xD7FF) ||
    (0xE000 ≤ n && n ≤ 0xFFFD && n != 0xFEFF) || 0x10000 ≤ n

/-- Whether two characters of two classes follow each other in a text. -/
def followed (p q : Char → Bool) (cs : List Char) : Bool :=
  (cs.zip (cs.drop 1)).any fun (a, b) => p a && q b

/-- Whether a text cannot be written but between double quotes. -/
def needsEscapes (cs : List Char) : Bool :=
  !cs.all isPrintable || followed (· == ' ') isBreak cs

/-- Whether the first character of a text would be taken for a mark. -/
def startsWithMark : List Char → Bool
  | [] => false
  | c :: cs =>
    indicatorsAtStart.contains c || (['?', ':', '-'].contains c && atGap cs)
where
  /-- The characters that mean something at the start of any scalar. -/
  indicatorsAtStart : List Char :=
    ['#', ',', '[', ']', '{', '}', '&', '*', '!', '|', '>', '\'', '"', '%', '@', Char.ofNat 0x60]

/-- Whether a colon before a gap, or a number sign after one, stands behind the first
character. -/
def holdsMark : List Char → Bool
  | [] => false
  | c :: cs =>
    (match cs with
      | ':' :: rest => atGap rest
      | '#' :: _ => atGap [c]
      | _ => false) || holdsMark cs

/-- Whether a text would be taken for the mark of a document. -/
def startsLikeDocument (cs : List Char) : Bool :=
  cs.take 3 == ['-', '-', '-'] || cs.take 3 == ['.', '.', '.']

/-- Whether a text of one line is written without quotes. -/
def isPlain (cs : List Char) : Bool :=
  let resolved := match resolve cs with
    | .str _ => !isPaddedNumber cs
    | _ => false
  resolved && !needsEscapes cs && !cs.any isBreak && cs.head? != some ' ' &&
    cs.getLast? != some ' ' && !startsLikeDocument cs && !startsWithMark cs && !holdsMark cs

def hexDigit (n : Nat) : Char :=
  if n < 10 then Char.ofNat (0x30 + n) else Char.ofNat (0x37 + n)

/-- A number in base sixteen, in so many places. -/
def hexPlaces : Nat → Nat → List Char
  | 0, _ => []
  | places + 1, n => hexPlaces places (n / 16) ++ [hexDigit (n % 16)]

def escaped (c : Char) : List Char :=
  let letter := ['0', 'a', 'b', 't', 'n', 'v', 'f', 'r', 'e', '"', '\\', 'N', 'L', 'P'].find?
    fun e => letterEscape e == some c
  match letter with
  | some e => ['\\', e]
  | none =>
    let n := c.toNat
    if isPrintable c then [c]
    else if n ≤ 0xFF then '\\' :: 'x' :: hexPlaces 2 n
    else if n ≤ 0xFFFF then '\\' :: 'u' :: hexPlaces 4 n
    else '\\' :: 'U' :: hexPlaces 8 n

def inDoubleQuotes (cs : List Char) : List Char :=
  '"' :: cs.flatMap escaped ++ ['"']

/-- The blanks that values on lines of their own begin with. -/
def valueIndent : List Char := [' ', ' ']

/-- A text between single quotes, given whether a line has just begun. -/
def singleQuotedFrom (lineBegun : Bool) : List Char → List Char
  | [] => if lineBegun then valueIndent else []
  | c :: cs =>
    if isBreak c then c :: singleQuotedFrom true cs
    else
      (if lineBegun then valueIndent else []) ++ (if c = '\'' then ['\'', '\''] else [c]) ++
        singleQuotedFrom false cs

def inSingleQuotes (cs : List Char) : List Char :=
  '\'' :: singleQuotedFrom false cs ++ ['\'']

/-- What the first line of a block says: how far it is indented, where that cannot be seen, and
what becomes of the line breaks at its end. -/
def blockHints (cs : List Char) : List Char :=
  let opensBlank := (cs.head?.map fun c => c == ' ' || isBreak c).getD false
  let ending := match cs.reverse with
    | [] => ['-']
    | c :: before =>
      if !isBreak c then ['-']
      else if (before.head?.map isBreak).getD true then ['+']
      else []
  (if opensBlank then ['2'] else []) ++ ending

/-- The lines of a block, given whether a line has just begun. -/
def blockBody (lineBegun : Bool) : List Char → List Char
  | [] => []
  | c :: cs =>
    if isBreak c then c :: blockBody true cs
    else (if lineBegun then valueIndent else []) ++ c :: blockBody false cs

/-- A text as a literal block. -/
def inBlock (cs : List Char) : List Char :=
  '|' :: blockHints cs ++ '\n' :: blockBody true cs

def scalarLine (text : String) : String :=
  let cs := text.toList
  let spaced := followed isBreak (· == ' ') cs
  if cs.contains '\n' then
    if needsEscapes cs || cs.getLast? == some ' ' then String.ofList (inDoubleQuotes cs) ++ "\n"
    else
      String.ofList (inBlock cs) ++ (if (cs.getLast?.map isBreak).getD false then "" else "\n")
  else
    String.ofList
      (if isPlain cs then cs
      else if needsEscapes cs || spaced then inDoubleQuotes cs
      else inSingleQuotes cs) ++ "\n"

def textLine (name text : String) : String :=
  name ++ ": " ++ scalarLine text

def numberLine (name : String) (n : Nat) : String :=
  name ++ ": " ++ decimal n ++ "\n"

/-- A list of texts under its name, each in a line of its own. -/
def listLines (name : String) (texts : List String) : String :=
  if texts.isEmpty then name ++ ": []\n"
  else name ++ ":\n" ++ String.join (texts.map fun text => "- " ++ scalarLine text)

def document (c : Config) : String :=
  textLine "delimiter" c.delimiter ++
    textLine "valid-delimiters" c.validDelimiters ++
    numberLine "max-depth" c.maxDepth ++
    numberLine "step-delay-ms" c.stepDelayMs ++
    textLine "screenshot" c.screenshot.name ++
    listLines "unreported-actions" c.unreportedActions ++
    textLine "timezone-offset" c.timezoneOffset ++
    (match c.reportPath with
      | some path => textLine "report-path" path
      | none => "")

end Runbook.Config.Yaml
