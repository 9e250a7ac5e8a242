import Runbook.CommandLine.Arguments
import Runbook.Config.Basic

set_option autoImplicit false

/-!
What a command line asks for: one of the commands with its own options, and the options that may
stand before and after the command.
-/
namespace Runbook.CommandLine

open Text

/-- The options of every command. -/
structure Common where
  /-- The project directory to be used in place of the nearest one. -/
  dir : Option String := none
  json : Bool := false
  verbose : Bool := false
  quiet : Bool := false
  deriving DecidableEq, Inhabited

structure RunOptions where
  file : String
  /-- Variables set before the run, as they are given. -/
  vars : List String := []
  report : Option String := none
  maxDepth : Option Nat := none
  delayMs : Option Nat := none
  /-- The timestamp that stands for the present. -/
  instant : Option String := none
  deriving DecidableEq, Inhabited

inductive Command
  | run (o : RunOptions)
  | check (file : String)
  | actions
  | date (token : String) (instant offset : Option String)
  | init (force : Bool)
  | version
  /-- No command is given. -/
  | overview
  deriving DecidableEq

/-- Texts that may be paths. -/
def isPath (s : String) : Bool :=
  s != ""

/-- Reads a number of 64 bits. -/
def word? (s : String) : Option Nat :=
  unsigned? maxWord64 s.toList

/-- The options that may stand at every level. -/
def commonOptions : List OptionRule :=
  [{ name := "dir", value := some { accepts := isPath } }, { name := "json" },
    { name := "verbose", short := some 'v' }, { name := "quiet", short := some 'q' },
    { name := "help", short := some 'h', stop := some .help },
    { name := "version", short := some 'V', stop := some (.version none) }]

/-- The commands in the order they are explained. -/
def commandNames : List String :=
  ["run", "check", "lint", "actions", "date", "init", "version", "help"]

/-- What may stand before a command. -/
def outerLevel : Level :=
  { options := commonOptions, commands := commandNames }

/-- What may stand after a command. -/
def commandLevel (command : String) : Level :=
  match command with
  | "run" =>
    let number : ValueRule := { accepts := fun s => (word? s).isSome }
    { words := 1
      acceptsWord := isPath
      options := commonOptions ++
        [{ name := "var", value := some { repeats := true } },
          { name := "report", value := some { accepts := isPath } },
          { name := "max-depth", value := some number },
          { name := "delay-ms", value := some number },
          { name := "at", value := some {} }] }
  | "check" => { words := 1, acceptsWord := isPath, options := commonOptions }
  | "lint" => { words := 1, acceptsWord := isPath, options := commonOptions }
  | "date" =>
    { words := 1
      options := commonOptions ++
        [{ name := "at", value := some {} },
          { name := "offset", value := some { dashes := true } }] }
  | "init" => { options := commonOptions ++ [{ name := "force" }] }
  | _ => { options := commonOptions }

/-- The command that was given with its options. -/
def commandOf (command : String) (g : Given) : Except Stop Command :=
  match command, g.words with
  | "run", [file] =>
    .ok (.run {
      file
      vars := g.all "var"
      report := g.value? "report"
      maxDepth := (g.value? "max-depth").bind word?
      delayMs := (g.value? "delay-ms").bind word?
      instant := g.value? "at" })
  | "check", [file] => .ok (.check file)
  | "lint", [file] => .ok (.check file)
  | "actions", [] => .ok .actions
  | "date", [token] => .ok (.date token (g.value? "at") (g.value? "offset"))
  | "init", [] => .ok (.init (g.has "force"))
  | "version", [] => .ok .version
  | _, _ => .error (.misuse command)

/-- The common options given before and after a command. Those after it count more. -/
def commonOf (outer inner : Given) : Common where
  dir := (inner.value? "dir").orElse fun _ => outer.value? "dir"
  json := outer.has "json" || inner.has "json"
  verbose := outer.has "verbose" || inner.has "verbose"
  quiet := outer.has "quiet" || inner.has "quiet"

/-- Help is given on at most one command. -/
def helpOn : List String → Stop
  | [] => .help
  | [command] => if commandNames.contains command then .help else .misuse command
  | _ :: argument :: _ => .misuse argument

/-- Why reading ends, said of the command after which it ends. -/
def Stop.after (command : String) : Stop → Stop
  | .version _ => .version (some (if command = "lint" then "check" else command))
  | stop => stop

def readArguments (arguments : List String) : Except Stop (Common × Command) := do
  match ← outerLevel.read {} arguments with
  | (outer, none) => return (commonOf outer {}, .overview)
  | (outer, some (command, rest)) =>
    if command = "help" then .error (helpOn rest)
    else
      let (inner, _) ← ((commandLevel command).read {} rest).mapError (Stop.after command)
      return (commonOf outer inner, ← commandOf command inner)

end Runbook.CommandLine
