import Runbook.Program.Basic
import Runbook.Row.Source
import Runbook.FileTree.Basic

set_option autoImplicit false

/-!
Finding the rows of a program. A reference names a provider and a source: a file of rows, or rows
that were registered under a name. A relative file name is taken from the directory of the program
that refers to it, if such a file is there.
-/
namespace Runbook

open Text

/-- Where rows come from. -/
inductive Provider
  | jsonl | tsv | inline
  deriving DecidableEq, Repr, Inhabited

/-- Why a file yields no rows. -/
inductive RowsError
  | file (e : FileError)
  | row (e : Row.ReadError)
  deriving DecidableEq, Repr

def RowsError.message : RowsError → String
  | .file e => "I/O error: " ++ e.message
  | .row e => e.message

/-- Why a reference leads to no rows. -/
inductive LoadError
  | invalidReference (reference : String)
  | unknownProvider (name : String)
  | notRegistered (name : String)
  | unreadable (path : String) (cause : RowsError)
  deriving DecidableEq, Repr

def LoadError.message : LoadError → String
  | .invalidReference reference =>
    "invalid input spec '" ++ reference ++ "' (expected <provider>:<source>)"
  | .unknownProvider name =>
    "unknown provider '" ++ name ++ "' (expected jsonl, tsv or inline)"
  | .notRegistered name => "inline program '" ++ name ++ "' is not registered"
  | .unreadable path cause => "failed to read " ++ path ++ ": " ++ cause.message

namespace Provider

def name : Provider → String
  | .jsonl => "jsonl"
  | .tsv => "tsv"
  | .inline => "inline"

def parse (s : String) : Except LoadError Provider :=
  let word := lowered (trimmed s)
  if word = "jsonl" ∨ word = "json" then .ok .jsonl
  else if word = "tsv" then .ok .tsv
  else if word = "inline" then .ok .inline
  else .error (.unknownProvider word)

end Provider

structure Reference where
  provider : Provider
  source : String
  deriving DecidableEq, Repr, Inhabited

/-- Reads a reference: a provider and a source that is not blank, with a colon between them. -/
def Reference.parse (s : String) : Except LoadError Reference :=
  match cut ':' s.toList with
  | some (provider, source) =>
    if allBlank source then .error (.invalidReference s)
    else do
      let provider ← Provider.parse (String.ofList provider)
      return ⟨provider, String.ofList (trim source)⟩
  | none => .error (.invalidReference s)

/-- Rows that were found, with the name they have as a program. -/
structure Loaded where
  name : String
  rows : List Row
  /-- The directory that file names in the rows are taken from. -/
  dir : Option String
  deriving DecidableEq, Inhabited

/-- The outermost program of rows that were found. -/
def Loaded.toProgram (l : Loaded) : Program :=
  { name := l.name, rows := l.rows, baseDir := l.dir }

/-- Where a runner looks for rows: those registered by name, and files. -/
structure Loader where
  inline : Keyed (List Row) := .empty
  files : FileTree := {}
  deriving Inhabited

namespace Loader

/-- Registers rows under a name; the case of its letters does not matter. -/
def register (l : Loader) (name : String) (rows : List Row) : Loader :=
  { l with inline := l.inline.insert (lowered (trimmed name)) rows }

/-- All rows of a file. -/
def readRows (l : Loader) (path : String) (format : RowFormat) : Except RowsError (List Row) :=
  match l.files.readLines path with
  | .error e => .error (.file e)
  | .ok ls =>
    match Row.readAll format ls with
    | .error e => .error (.row e)
    | .ok rows => .ok rows

/-- The rows of a file, which is the directory for file names in them. -/
def loadFile (l : Loader) (path : String) (format : RowFormat) : Except LoadError Loaded :=
  match l.readRows path format with
  | .error e => .error (.unreadable path e)
  | .ok rows => .ok ⟨(Path.stem? path).getD path, rows, Path.parent? path⟩

/-- The rows of a file whose format is told by its name. -/
def loadPath (l : Loader) (path : String) : Except LoadError Loaded :=
  l.loadFile path (.ofExtension (Path.extension? path))

/-- The path of a source: from the base directory if a relative source is there. -/
def sourcePath (l : Loader) (source : String) (baseDir : Option String) : String :=
  match baseDir with
  | some dir =>
    if !Path.isAbsolute source && l.files.contains (Path.join dir source) then Path.join dir source
    else source
  | none => source

/-- The rows that a reference in a program of that directory leads to. -/
def resolve (l : Loader) (reference : String) (baseDir : Option String) :
    Except LoadError Loaded := do
  let ref ← Reference.parse reference
  match ref.provider with
  | .inline =>
    match l.inline.get? (lowered ref.source) with
    | some rows => .ok ⟨ref.source, rows, baseDir⟩
    | none => .error (.notRegistered ref.source)
  | .jsonl => l.loadFile (l.sourcePath ref.source baseDir) .jsonl
  | .tsv => l.loadFile (l.sourcePath ref.source baseDir) .tsv

end Loader
end Runbook
