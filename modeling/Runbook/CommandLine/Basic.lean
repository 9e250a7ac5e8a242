import Runbook.Calendar.Rfc3339
import Runbook.CommandLine.Request
import Runbook.Config.Layers
import Runbook.Console.Style
import Runbook.Json.Printer
import Runbook.Program.Loader
import Runbook.Project

set_option autoImplicit false

/-!
What a command is given and what comes of it. A command that cannot do its work fails with a
chain of causes, the outermost first.
-/
namespace Runbook.CommandLine

open Text

/-- What a command finds when it starts. -/
structure Surroundings where
  files : FileTree
  environment : Environment
  now : Calendar.Instant
  /-- The manner of the output where the environment asks for none. -/
  style : Console.Style := .plain

/-- What a command leaves behind. -/
structure Result where
  out : String := ""
  err : String := ""
  exitCode : Nat := 0
  files : FileTree
  /-- The time that was waited, in milliseconds. -/
  waited : Nat := 0
  deriving Inhabited

/-- Why a command cannot do its work: the causes, the outermost first. -/
abbrev Failure := List String

/-- The exit code of a command that cannot do its work. -/
def setupExitCode : Nat := 2

def Failure.text (f : Failure) : String :=
  joined ": " f

def Failure.result (f : Failure) (s : Surroundings) (json : Bool) : Result where
  err :=
    if json then Json.pretty (.obj [("error", .str f.text)]) ++ "\n"
    else "Error: " ++ f.text ++ "\n"
  exitCode := setupExitCode
  files := s.files

/-- The result of a command that changes no file. -/
def Surroundings.printing (s : Surroundings) (out : String) (exitCode : Nat) : Result :=
  { out, exitCode, files := s.files }

/-- The result of a command that shows JSON. -/
def Surroundings.printingJson (s : Surroundings) (j : Json) (exitCode : Nat) : Result :=
  s.printing (Json.pretty j ++ "\n") exitCode

def Surroundings.outStyle (s : Surroundings) : Console.Style :=
  (Console.Style.asked? s.environment).getD s.style

/-- A value, or a failure by an error of known causes. -/
def orFail {ε α : Type} (causes : ε → Failure) : Except ε α → Except Failure α
  | .ok a => .ok a
  | .error e => .error (causes e)

def configCauses (e : ConfigError) : Failure :=
  match e with
  | .file cause => [e.message, cause.message]
  | _ => [e.message]

def rowsCauses (e : RowsError) : Failure :=
  match e with
  | .file cause => [e.message, cause.message]
  | .row .notText => [e.message, FileError.notText.message]
  | .row (.notJson _) => [e.message]

def loadCauses (e : LoadError) : Failure :=
  match e with
  | .unreadable _ cause => e.message :: rowsCauses cause
  | _ => [e.message]

def projectDir? (s : Surroundings) (c : Common) : Option String :=
  c.dir.orElse fun _ =>
    Project.find? s.files s.environment (FileTree.pathOf s.files.workDir)

def loadConfig (s : Surroundings) (c : Common) : Except Failure Config :=
  let dir := projectDir? s c
  let place := match dir with
    | some dir => " from " ++ dir
    | none => ""
  orFail (fun e => ("failed to load configuration" ++ place) :: configCauses e)
    (Config.load s.files s.environment dir)

/-- The rows of the file that a command is given. -/
def loadRows (files : FileTree) (file : String) : Except Failure Loaded :=
  orFail (fun e => ("failed to load program " ++ file) :: loadCauses e)
    (Loader.loadPath { files } file)

/-- The instant that stands for the present. -/
def present (s : Surroundings) (instant : Option String) : Except Failure Calendar.Instant :=
  match instant with
  | none => .ok s.now
  | some text =>
    match Calendar.Moment.parse (trimmed text) with
    | .ok m => .ok m.instant
    | .error e =>
      .error ["invalid --at '" ++ text ++ "': expected an RFC 3339 timestamp", e.message]

end Runbook.CommandLine
