import Runbook.FileTree.Path
import Runbook.Keyed
import Runbook.Text.Line

set_option autoImplicit false

/-!
A tree of files and directories with a working directory. Files hold bytes. Paths are followed
component by component, each from a directory that exists.
-/
namespace Runbook

/-- What stands at a place of the tree. -/
inductive FileTree.Node
  | file (bytes : ByteArray)
  | dir
  /-- Reads as an empty file and forgets what is written. -/
  | void

/-- Whether two places hold the same. -/
def FileTree.Node.same : Node → Node → Bool
  | .file a, .file b => a.data == b.data
  | .dir, .dir => true
  | .void, .void => true
  | _, _ => false

inductive FileError
  | noEntry
  | exists
  | notDirectory
  | isDirectory
  | nameTooLong
  | notText
  /-- The path holds a character that ends paths. -/
  | nulInPath
  deriving DecidableEq, Repr

def FileError.message : FileError → String
  | .noEntry => "No such file or directory (os error 2)"
  | .exists => "File exists (os error 17)"
  | .notDirectory => "Not a directory (os error 20)"
  | .isDirectory => "Is a directory (os error 21)"
  | .nameTooLong => "File name too long (os error 36)"
  | .nulInPath => "file name contained an unexpected NUL byte"
  | .notText => "stream did not contain valid UTF-8"

/-- Files and directories under their absolute paths, and the working directory. The root is
always there. -/
structure FileTree where
  nodes : Keyed FileTree.Node := .empty
  /-- The names on the way from the root to the working directory. -/
  workDir : List String := []
  deriving Inhabited

namespace FileTree

/-- The absolute path of a place. -/
def pathOf (place : List String) : String :=
  "/" ++ Text.joined "/" place

/-- What stands at a place. -/
def at? (t : FileTree) (place : List String) : Option Node :=
  if place = [] then some .dir else t.nodes.get? (pathOf place)

/-- The tree with something put at a place. -/
def putAt (t : FileTree) (place : List String) (n : Node) : FileTree :=
  { t with nodes := t.nodes.insert (pathOf place) n }

/-- The most bytes a name may have. -/
def maxNameBytes : Nat := 255

/-- The most bytes a path may have. -/
def maxPathBytes : Nat := 4095

/-- Follows components from a place. -/
def walk (t : FileTree) (place : List String) : List String → Except FileError (List String)
  | [] => .ok place
  | name :: names =>
    match t.at? place with
    | none => .error .noEntry
    | some (.file _) => .error .notDirectory
    | some .void => .error .notDirectory
    | some .dir =>
      if name = "" ∨ name = "." then t.walk place names
      else if name = ".." then t.walk place.dropLast names
      else if maxNameBytes < name.utf8ByteSize then .error .nameTooLong
      else t.walk (place ++ [name]) names

/-- The place to which some of the pieces of a path lead. -/
def locatePieces (t : FileTree) (p : String) (pieces : List String) :
    Except FileError (List String) :=
  if p = "" then .error .noEntry
  else if p.toList.contains '\x00' then .error .nulInPath
  else if maxPathBytes < p.utf8ByteSize then .error .nameTooLong
  else t.walk (if Path.isAbsolute p then [] else t.workDir) pieces

/-- The place a path leads to; nothing has to stand there. -/
def locate (t : FileTree) (p : String) : Except FileError (List String) :=
  t.locatePieces p (Path.pieces p)

/-- The place of a file that is made if it is not there. -/
def locateFile (t : FileTree) (p : String) : Except FileError (List String) := do
  let pieces := Path.pieces p
  -- A path that ends with a slash leads to no file, whatever is there.
  if p ≠ "" ∧ pieces.getLast? = some "" then
    let named := (pieces.reverse.dropWhile (· == "")).reverse
    let _ ← t.locatePieces p (named.dropLast ++ [""])
    .error .isDirectory
  else t.locate p

/-- The place a path leads to and what stands there. -/
def find (t : FileTree) (p : String) : Except FileError (List String × Node) := do
  let place ← t.locate p
  match t.at? place with
  | some n => .ok (place, n)
  | none => .error .noEntry

def contains (t : FileTree) (p : String) : Bool :=
  match t.find p with
  | .ok _ => true
  | .error _ => false

def isDir (t : FileTree) (p : String) : Bool :=
  match t.find p with
  | .ok (_, .dir) => true
  | _ => false

def isFile (t : FileTree) (p : String) : Bool :=
  match t.find p with
  | .ok (_, .file _) => true
  | _ => false

def read (t : FileTree) (p : String) : Except FileError ByteArray := do
  match ← t.find p with
  | (_, .file bytes) => .ok bytes
  | (_, .dir) => .error .isDirectory
  | (_, .void) => .ok .empty

def readLines (t : FileTree) (p : String) : Except FileError (List Text.Line) :=
  (t.read p).map fun bytes => Text.byteLines bytes.toList

def readText (t : FileTree) (p : String) : Except FileError String := do
  match String.fromUTF8? (← t.read p) with
  | some s => .ok s
  | none => .error .notText

def write (t : FileTree) (p text : String) : Except FileError FileTree := do
  let place ← t.locateFile p
  match t.at? place with
  | some .dir => .error .isDirectory
  | some .void => .ok t
  | _ => .ok (t.putAt place (.file text.toUTF8))

/-- The tree with a text added at the end of the file a path leads to, which need not be there. -/
def append (t : FileTree) (p text : String) : Except FileError FileTree := do
  let place ← t.locateFile p
  match t.at? place with
  | some .dir => .error .isDirectory
  | some .void => .ok t
  | some (.file bytes) => .ok (t.putAt place (.file (bytes ++ text.toUTF8)))
  | none => .ok (t.putAt place (.file text.toUTF8))

/-- A path without the slashes it ends with. -/
def withoutFinalSlashes (p : String) : String :=
  String.ofList (p.toList.reverse.dropWhile (· == '/')).reverse

def makeDir (t : FileTree) (p : String) : Except FileError FileTree := do
  let place ← t.locate (withoutFinalSlashes p)
  match t.at? place with
  | some _ => .error .exists
  | none => .ok (t.putAt place .dir)

/-- Makes a directory and those on the way to it, at most `depth` of them. -/
def makeDirsIn (t : FileTree) : Nat → String → Except FileError FileTree
  | 0, _ => .error .noEntry
  | depth + 1, p =>
    if p = "" then .ok t
    else
      let settle (t : FileTree) (e : FileError) : Except FileError FileTree :=
        if t.isDir p then .ok t else .error e
      match t.makeDir p with
      | .ok t => .ok t
      | .error .noEntry => do
        let t ← t.makeDirsIn depth ((Path.parent? p).getD "")
        match t.makeDir p with
        | .ok t => .ok t
        | .error e => settle t e
      | .error e => settle t e

/-- Makes a directory and those on the way to it, as far as they are not there. -/
def makeDirs (t : FileTree) (p : String) : Except FileError FileTree :=
  t.makeDirsIn (p.length + 1) p

/-- The directories from a place up to the root, as places. -/
def ancestors (place : List String) : List (List String) :=
  (List.range (place.length + 1)).reverse.map place.take

/-- The tree with a directory and those on the way to it, given by their names. -/
def addDir (t : FileTree) (place : List String) : FileTree :=
  (ancestors place).foldl (fun t p => if p = [] then t else t.putAt p .dir) t

/-- The tree with something at a place and the directories on the way to it. -/
def addAt (t : FileTree) (place : List String) (n : Node) : FileTree :=
  (t.addDir place.dropLast).putAt place n

end FileTree
end Runbook
