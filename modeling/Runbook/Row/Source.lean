import Runbook.Row.Basic
import Runbook.Json.Parser
import Runbook.Json.Printer
import Runbook.Text.AsciiCase
import Runbook.Text.Line

set_option autoImplicit false

/-!
Files of rows. In JSON Lines every line that is not blank is one row. In tab-separated files a
line holds the eight fields; blank lines and lines that start with `#` are passed over, and the
first other line is passed over as well when its second field is the word `action`.
-/
namespace Runbook

open Text

/-- How a file holds rows. -/
inductive RowFormat
  | jsonl | tsv
  deriving DecidableEq, Repr, Inhabited

namespace RowFormat

def name : RowFormat → String
  | .jsonl => "jsonl"
  | .tsv => "tsv"

/-- Reads the name of a format, or says that it is none. -/
def parse (s : String) : Except String RowFormat :=
  let word := lowered (trimmed s)
  if word = "jsonl" ∨ word = "json" then .ok .jsonl
  else if word = "tsv" ∨ word = "tab" then .ok .tsv
  else .error ("unknown row format '" ++ word ++ "' (expected jsonl or tsv)")

def ofExtension : Option String → RowFormat
  | some ext => if lowered ext = "jsonl" ∨ lowered ext = "json" then .jsonl else .tsv
  | none => .tsv

end RowFormat

namespace Row

/-- Why a line of a file is no row: its bytes are not UTF-8, or it is not the JSON of a row. -/
inductive ReadError
  | notText
  | notJson (line : Nat)
  deriving DecidableEq, Repr

def ReadError.message : ReadError → String
  | .notText => "I/O error: stream did not contain valid UTF-8"
  | .notJson line => "JSON error at line " ++ decimal line ++ ": invalid row"

/-- Reads the rows of JSON Lines, `number` being the number of the line before them. -/
def readJsonlFrom (number : Nat) : List Line → List (Except ReadError Row)
  | [] => []
  -- Lines that are not text are not numbered.
  | none :: rest => .error .notText :: readJsonlFrom number rest
  | some cs :: rest =>
    if allBlank cs then readJsonlFrom (number + 1) rest
    else
      match (Json.parseChars (trim cs)).bind ofJson? with
      | some row => .ok row :: readJsonlFrom (number + 1) rest
      | none => .error (.notJson (number + 1)) :: readJsonlFrom (number + 1) rest

def readJsonl (ls : List Line) : List (Except ReadError Row) :=
  readJsonlFrom 0 ls

/-- A line of a tab-separated file without the carriage returns at its end. -/
def dropReturns (cs : List Char) : List Char :=
  trimEndOf (fun c => c == '\r' || c == '\n') cs

/-- A line that holds no row: a blank one or a comment. -/
def isComment (cs : List Char) : Bool :=
  allBlank cs || (trimStart cs).head? == some '#'

/-- A line that names the fields. -/
def isHeader (fs : List (List Char)) : Bool :=
  match fs[1]? with
  | some f => lower (trim f) == "action".toList
  | none => false

/-- Reads the rows of a tab-separated file; a header may come when no row was seen before. -/
def readTsvFrom (seen : Bool) : List Line → List (Except ReadError Row)
  | [] => []
  | none :: rest => .error .notText :: readTsvFrom seen rest
  | some cs :: rest =>
    let line := dropReturns cs
    if isComment line then readTsvFrom seen rest
    else
      let fs := splitAt '\t' line
      if !seen && isHeader fs then readTsvFrom true rest
      else .ok (ofFields (fs.map String.ofList)) :: readTsvFrom true rest

def readTsv (ls : List Line) : List (Except ReadError Row) :=
  readTsvFrom false ls

def read : RowFormat → List Line → List (Except ReadError Row)
  | .jsonl, ls => readJsonl ls
  | .tsv, ls => readTsv ls

/-- All rows of a file, or the first error in it. -/
def readAll (format : RowFormat) (ls : List Line) : Except ReadError (List Row) :=
  (read format ls).mapM fun item => item

def writeJsonl (rows : List Row) : String :=
  String.ofList (rows.flatMap fun r => r.toJson.compact ++ ['\n'])

/-- The names of the fields in the first line of a tab-separated file. -/
def headerFields : List String :=
  ["id", "action", "locatorKind", "locatorSpec", "queryFunction", "activationFlag", "parameters",
    "description"]

def tsvLine (fs : List String) : List Char :=
  joinAt '\t' (fs.map String.toList) ++ ['\n']

/-- Rows as a tab-separated file with a header. -/
def writeTsv (rows : List Row) : String :=
  String.ofList (tsvLine headerFields ++ rows.flatMap fun r => tsvLine r.fields)

end Row
end Runbook
