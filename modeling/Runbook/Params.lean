import Runbook.Text.Blank
import Runbook.Text.AsciiCase
import Runbook.Text.Split

set_option autoImplicit false

/-!
Parameter blobs: `key1=value1;key2=value2`. Segments stand between delimiters; blank ones are
passed over. A blob may start with one of the valid delimiters, which then delimits this blob.
Keys are trimmed and lower-cased and must differ; values are kept as they are.
-/
namespace Runbook

open Text

/-- How a blob is cut into segments. -/
structure Params.Syntax where
  delimiter : Char := ';'
  validDelimiters : String := ";|,^~"
  deriving DecidableEq, Inhabited

/-- Parameters in the order of their blob. -/
structure Params where
  entries : List (String × String) := []
  deriving DecidableEq, Inhabited

namespace Params

inductive Error
  | missingSeparator (segment : String)
  | blankKey (segment : String)
  | duplicateKey (key : String)
  deriving DecidableEq, Repr

def Error.message : Error → String
  | .missingSeparator segment => "parameter '" ++ segment ++ "' is missing '='"
  | .blankKey segment => "parameter '" ++ segment ++ "' has a blank name"
  | .duplicateKey key => "duplicate parameter '" ++ key ++ "'"

/-- The value under a key, whatever the case of its letters. -/
def get? (p : Params) (key : String) : Option String :=
  (p.entries.find? fun e => sameIgnoringCase e.1 key).map (·.2)

/-- The value under a key, or `absent`. -/
def getD (p : Params) (key absent : String) : String :=
  (p.get? key).getD absent

/-- Whether a key has a value. -/
def contains (p : Params) (key : String) : Bool :=
  (p.get? key).isSome

/-- The form in which keys are stored. -/
def normalKey (key : String) : String :=
  lowered (trimmed key)

/-- Entries with the value under a stored key replaced, or a new entry at the end. -/
def setEntry (key value : String) : List (String × String) → List (String × String)
  | [] => [(key, value)]
  | (k, v) :: rest => if k = key then (k, value) :: rest else (k, v) :: setEntry key value rest

/-- The parameters with a value under a key; a key that is there keeps its place. -/
def set (p : Params) (key value : String) : Params :=
  ⟨setEntry (normalKey key) value p.entries⟩

/-- The parameters with every value replaced. -/
def mapValues (p : Params) (f : String → String → String) : Params :=
  ⟨p.entries.map fun e => (e.1, f e.1 e.2)⟩

/-- The keys in order. -/
def keys (p : Params) : List String :=
  p.entries.map (·.1)

/-- The delimiter of a blob and the text it delimits. -/
def delimited (syn : Params.Syntax) (blob : List Char) : Char × List Char :=
  match trimStart blob with
  | c :: rest => if syn.validDelimiters.toList.contains c then (c, rest) else (syn.delimiter, c :: rest)
  | [] => (syn.delimiter, [])

/-- The segments of a blob that are not blank. -/
def segments (syn : Params.Syntax) (blob : List Char) : List (List Char) :=
  let (d, body) := delimited syn blob
  (splitAt d body).filter fun segment => !allBlank segment

def entry (segment : List Char) : Except Error (String × String) :=
  match cut '=' segment with
  | none => .error (.missingSeparator (String.ofList (trim segment)))
  | some (key, value) =>
    let key := lower (trim key)
    if key = [] then .error (.blankKey (String.ofList (trim segment)))
    else .ok (String.ofList key, String.ofList value)

/-- Reads segments after those whose parameters are in `p`. -/
def readSegments (p : Params) : List (List Char) → Except Error Params
  | [] => .ok p
  | segment :: rest =>
    match entry segment with
    | .error e => .error e
    | .ok (key, value) =>
      if p.contains key then .error (.duplicateKey key)
      else readSegments ⟨p.entries ++ [(key, value)]⟩ rest

def parse (syn : Params.Syntax) (blob : String) : Except Error Params :=
  readSegments {} (segments syn blob.toList)

end Params
end Runbook
