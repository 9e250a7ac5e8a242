import Runbook.Config.Literal
import Runbook.Config.Toml.Document
import Runbook.Config.Yaml.Reader
import Runbook.Config.Yaml.Writer

set_option autoImplicit false

/-!
The settings of a project: the usual ones, over them those of the two files in the project's
directory, over them those of the environment. Saved settings are a file of the first kind.
-/
namespace Runbook.Config

def yamlName : String := "config.yaml"

def tomlName : String := "config.toml"

/-- The file a path leads to, seen from the working directory or one above it. -/
def searchFile (t : FileTree) (path : String) : Option String :=
  if Path.isAbsolute path then [path].find? t.isFile
  else
    ((FileTree.ancestors t.workDir).map fun place => Path.join (FileTree.pathOf place) path).find?
      t.isFile

/-- The layer of a file; it is empty if there is none. -/
def fileLayer (t : FileTree) (read : String → Option Layer) (path : String) :
    Except ConfigError Layer :=
  match searchFile t path with
  | none => .ok []
  | some path =>
    match t.readText path with
    | .error _ => .error .unreadable
    | .ok text =>
      match read text with
      | some layer => .ok layer
      | none => .error .unreadable

/-- The layers of the files in a directory, the lower one first. -/
def fileLayers (t : FileTree) (dir : Option String) : Except ConfigError (List Layer) :=
  match dir with
  | none => .ok []
  | some dir => do
    let lower ← fileLayer t Yaml.layer? (Path.join dir yamlName)
    let upper ← fileLayer t Toml.layer? (Path.join dir tomlName)
    return [lower, upper]

/-- The settings of a project directory, if there is one, and of an environment, checked. -/
def load (t : FileTree) (env : Environment) (dir : Option String) : Except ConfigError Config := do
  let c ← ofLayers ((← fileLayers t dir) ++ [Literal.layer env])
  return (← c.check).config

/-- Writes settings into a directory, which is made if it is not there. -/
def save (t : FileTree) (dir : String) (c : Config) : Except ConfigError FileTree :=
  match (t.makeDirs dir).bind fun t => t.write (Path.join dir yamlName) (Yaml.document c) with
  | .ok t => .ok t
  | .error e => .error (.file e)

end Runbook.Config
