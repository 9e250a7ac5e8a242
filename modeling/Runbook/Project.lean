import Runbook.Config.Basic
import Runbook.Environment

set_option autoImplicit false

/-!
Project directories: where the settings of a project lie. The environment may name one; otherwise
the nearest one is found going up from a directory.
-/
namespace Runbook.Project

def dirName : String := ".tabula"

/-- The name under which an environment names a project directory. -/
def dirVariable : String := "TABULA_DIR"

/-- The project directory that an environment names, if it is there. -/
def named? (t : FileTree) (env : Environment) : Option String :=
  (env.get? dirVariable).filter t.isDir

/-- The nearest project directory in a directory or above it. -/
def nearest? (t : FileTree) (start : String) : Option String :=
  match t.find start with
  | .error _ => none
  | .ok (place, _) =>
    ((FileTree.ancestors place).map fun p => FileTree.pathOf (p ++ [dirName])).find? t.isDir

/-- The project directory for a directory: the one that the environment names, else the
nearest. -/
def find? (t : FileTree) (env : Environment) (start : String) : Option String :=
  (named? t env).orElse fun _ => nearest? t start

/-- The project directory for a directory, which has to be there. -/
def require (t : FileTree) (env : Environment) (start : String) : Except ConfigError String :=
  match find? t env start with
  | some dir => .ok dir
  | none => .error .projectDirNotFound

/-- The path of the project directory in a directory, which may already be one. -/
def dirIn (path : String) : String :=
  if Path.last? path = some dirName then path else Path.join path dirName

/-- Makes the project directory in a directory, unless it is there. -/
def ensure (t : FileTree) (path : String) : Except ConfigError (String × FileTree) :=
  match t.makeDirs (dirIn path) with
  | .ok t => .ok (dirIn path, t)
  | .error e => .error (.file e)

end Runbook.Project
