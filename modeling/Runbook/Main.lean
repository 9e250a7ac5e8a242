import Runbook.CommandLine.Commands
import Std.Time.DateTime.Timestamp

set_option autoImplicit false

/-!
The program itself: it takes in the files and the environment, performs the command line, and
puts the result into effect.
-/
namespace Runbook.Shell

open CommandLine

/-- The pieces of a run of bytes between zeros. -/
def splitAtZeros (bytes : List UInt8) : List (List UInt8) :=
  let (pieces, last) := bytes.foldr
    (fun b (pieces, piece) => if b = 0 then (piece :: pieces, []) else (pieces, b :: piece)) ([], [])
  last :: pieces

def readEnvironment : IO Environment := do
  let bytes ← IO.FS.readBinFile "/proc/self/environ"
  return (splitAtZeros bytes.toList).filterMap fun piece => do
    let (name, value) ← Text.cut '=' (← Text.decodeUtf8 piece)
    return (String.ofList name, String.ofList value)

/-- The names on the way from the root to where a path leads, if something is there. -/
def placeOf? (path : String) : IO (Option (List String)) := do
  try
    let path := (← IO.FS.realPath path).toString
    return some ((Path.pieces path).filter (· != ""))
  catch _ => return none

/-- The tree with what stands at a place and, so many levels deep, below it. -/
def takeIn : Nat → FileTree → List String → IO FileTree
  | 0, t, _ => return t
  | depth + 1, t, place => do
    try
      let path ← IO.FS.realPath (FileTree.pathOf place)
      match (← path.metadata).type with
      | .dir =>
        let entries ← path.readDir
        entries.foldlM (fun t e => takeIn depth t (place ++ [e.fileName])) (t.addDir place)
      | .file => return t.addAt place (.file (← IO.FS.readBinFile path))
      -- What is neither a directory nor a file holds nothing.
      | _ => return t.addAt place .void
    catch _ => return t

/-- The greatest depth to which directories are taken in. -/
def greatestDepth : Nat := 8

/-- The paths that a command line and an environment may mean, beside those in the working
directory: arguments, values attached to options, and a project directory. -/
def meantPaths (arguments : List String) (env : Environment) : List String :=
  let attached := arguments.filterMap fun a => (Text.cut '=' a.toList).map fun (_, v) => String.ofList v
  let files := (arguments ++ attached).filter fun a => a != "" && !looksLikeOption a
  files ++ files.filterMap Path.parent? ++ (env.get? Project.dirVariable).toList

/-- The files that a command line may need: what is in the working directory, the project
directories above it, and what else is meant. -/
def readFiles (arguments : List String) (env : Environment) : IO FileTree := do
  let workDir := (← placeOf? ".").getD []
  let t ← takeIn greatestDepth { workDir } workDir
  let t ← (FileTree.ancestors workDir).foldlM (fun t place =>
    takeIn greatestDepth t (place ++ [Project.dirName])) t
  (meantPaths arguments env).foldlM (fun t path => do
    match ← placeOf? path with
    | some place => if workDir.isPrefixOf place then return t else takeIn greatestDepth t place
    | none => return t) t

/-- Makes what is new or different in a tree. -/
def writeFiles (before after : FileTree) : IO Unit :=
  after.nodes.entries.forM fun (path, node) => do
    unless (before.nodes.get? path).any node.same do
      match node with
      | .dir => IO.FS.createDirAll path
      | .file bytes => IO.FS.writeBinFile path bytes
      | .void => pure ()

/-- Waits for a number of milliseconds, a day at a time. -/
def wait (millis : Nat) : IO Unit := do
  let day := 86400000
  for _ in [0 : millis / day] do
    IO.sleep day.toUInt32
  IO.sleep (millis % day).toUInt32

def readClock : IO Calendar.Instant := do
  return ⟨(← Std.Time.Timestamp.now).toSecondsSinceUnixEpoch.val, 0⟩

def run (arguments : List String) : IO UInt32 := do
  let environment ← readEnvironment
  let files ← readFiles arguments environment
  let out ← IO.getStdout
  let style := if ← out.isTty then Console.Style.colored else .plain
  let r := perform { files, environment, now := ← readClock, style } arguments
  wait r.waited
  writeFiles files r.files
  out.putStr r.out
  out.flush
  (← IO.getStderr).putStr r.err
  return r.exitCode.toUInt32

end Runbook.Shell

def main (arguments : List String) : IO UInt32 :=
  Runbook.Shell.run arguments
