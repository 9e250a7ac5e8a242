import Runbook.Check
import Runbook.CommandLine.RunProgram
import Runbook.Console.Table

set_option autoImplicit false

/-!
The commands, and what a command line does as a whole.
-/
namespace Runbook.CommandLine

open Text Calendar

/-- What is found about the rows of a file, as JSON. -/
def checkReport (loaded : Loaded) (issues : List Check.Issue) (errors : Nat) : Json :=
  .obj [("program", .str loaded.name), ("rows", .nat loaded.rows.length), ("errors", .nat errors),
    ("warnings", .nat (issues.length - errors)), ("issues", .arr (issues.map Check.Issue.toJson))]

/-- The line of a finding; a quiet check shows only errors. -/
def issueLine? (style : Console.Style) (quiet : Bool) (i : Check.Issue) : Option String :=
  match i.severity with
  | .error => some (style.paint .bad i.text)
  | .warning => if quiet then none else some (style.paint .caution i.text)

def checkLine (style : Console.Style) (loaded : Loaded) (issues : List Check.Issue)
    (errors : Nat) : String :=
  style.paint (if 0 < errors then .bad else .good)
    (loaded.name ++ ": " ++ decimal loaded.rows.length ++ " rows, " ++ decimal errors ++
      " errors, " ++ decimal (issues.length - errors) ++ " warnings")

def checkFile (s : Surroundings) (c : Common) (file : String) : Except Failure Result := do
  let config ← loadConfig s c
  let params ← orFail configCauses config.paramSyntax
  let loaded ← loadRows s.files file
  let issues := Check.issues params Registry.builtin.names loaded.rows
  let errors := issues.countP (·.severity == .error)
  let exitCode := if 0 < errors then 1 else 0
  if c.json then return s.printingJson (checkReport loaded issues errors) exitCode
  else
    let style := s.outStyle
    let closing := if c.quiet then [] else [checkLine style loaded issues errors]
    let lines := issues.filterMap (issueLine? style c.quiet) ++ closing
    return s.printing (String.join (lines.map (· ++ "\n"))) exitCode

def listActions (s : Surroundings) (c : Common) : Result :=
  let all := Registry.builtin.toList
  if c.json then
    s.printingJson (.arr (all.map fun a =>
      .obj [("interactive", .bool a.interactive), ("name", .str a.name)])) 0
  else
    s.printing (Console.Table.render ["ACTION", "INTERACTIVE"]
      (all.map fun a => [a.name, if a.interactive then "yes" else "no"])) 0

def dateOffset (s : Surroundings) (c : Common) (given : Option String) : Except Failure Offset :=
  match given with
  | some text =>
    match Offset.parse? text with
    | some o => .ok o
    | none => .error [Offset.invalidMessage text]
  | none => do
    let config ← loadConfig s c
    orFail configCauses config.offset

/-- Expands a date token and shows the variables that come with it. -/
def expandDate (s : Surroundings) (c : Common) (token : String)
    (instant offset : Option String) : Except Failure Result := do
  let offset ← dateOffset s c offset
  let clock ← present s instant
  let vars : Variables := { clock, offset }
  let (expansion, _) ← orFail (fun e => ["cannot expand '" ++ token ++ "'", e.message])
    (vars.expand token)
  let bundle := expansion.bundle.entries
  if c.json then
    return s.printingJson (.obj [("bundle", .obj (bundle.map fun e => (e.1, .str e.2))),
      ("token", .str token), ("value", .str expansion.value)]) 0
  else
    let lines := if c.quiet then [] else bundle.map fun e => "  " ++ e.1 ++ " = " ++ e.2
    return s.printing (String.join ((expansion.value :: lines).map (· ++ "\n"))) 0

def initProject (s : Surroundings) (c : Common) (force : Bool) : Except Failure Result := do
  let base := c.dir.getD (FileTree.pathOf s.files.workDir)
  let (dir, files) ← orFail (fun e => ("failed to create " ++ base) :: configCauses e)
    (Project.ensure s.files base)
  let path := Path.join dir Config.yamlName
  if files.contains path && !force then
    .error [path ++ " already exists\n\nUse --force to overwrite it with defaults."]
  else
    let files ← orFail (fun e => ("failed to write " ++ path) :: configCauses e)
      (Config.save files dir {})
    let s := { s with files }
    if c.json then return s.printingJson (.obj [("config", .str path)]) 0
    else if c.quiet then return s.printing "" 0
    else return s.printing ("Initialized tabula project in " ++ dir ++ "\n") 0

def versionNumber : String := "0.1.0"

/-- What tells builds of one version apart. -/
def buildName : String := "dev"

def systemName : String := "linux"

def machineName : String := "x86_64"

def formatNames : List String :=
  [RowFormat.jsonl, RowFormat.tsv].map RowFormat.name

def tellVersion (s : Surroundings) (c : Common) : Result :=
  let names := Registry.builtin.names
  if c.json then
    s.printingJson (.obj [("version", .str versionNumber), ("build", .str buildName),
      ("os", .str systemName), ("arch", .str machineName), ("row_fields", .nat Row.fieldCount),
      ("row_formats", .strs formatNames), ("actions", .strs names)]) 0
  else
    let headline := "tabula version " ++ versionNumber ++ " (" ++ buildName ++ ") " ++ systemName ++
      "/" ++ machineName ++ "\n"
    let abilities := decimal Row.fieldCount ++ "-field rows (" ++ joined ", " formatNames ++ "), " ++
      decimal names.length ++ " built-in actions\n"
    s.printing (if c.quiet then headline else headline ++ abilities) 0

def usage : String :=
  "Data-driven instruction interpreter\n\n" ++
  "Usage: tabula [OPTIONS] [COMMAND]\n\n" ++
  "Commands:\n" ++
  "  run FILE       Run a program file\n" ++
  "  check FILE     Check a program file for problems without running it\n" ++
  "  actions        List the registered actions\n" ++
  "  date TOKEN     Expand a date token and print the generated variables\n" ++
  "  init           Create .tabula/config.yaml with default settings\n" ++
  "  version        Print version information\n\n" ++
  "Options:\n" ++
  "  --dir DIR      Project directory\n" ++
  "  --json         Output in JSON format\n" ++
  "  -v, --verbose  Tell more on the error output\n" ++
  "  -q, --quiet    Suppress non-essential output\n" ++
  "  -h, --help     Print help\n" ++
  "  -V, --version  Print version\n"

def Command.execute (command : Command) (s : Surroundings) (c : Common) : Except Failure Result :=
  match command with
  | .run o => runProgram s c o
  | .check file => checkFile s c file
  | .actions => .ok (listActions s c)
  | .date token instant offset => expandDate s c token instant offset
  | .init force => initProject s c force
  | .version => .ok (tellVersion s c)
  | .overview => .ok (s.printing (usage ++ "\n") 0)

/-- The result of arguments that are not read to their end. -/
def Stop.result (stop : Stop) (s : Surroundings) : Result :=
  match stop with
  | .help => s.printing usage 0
  | .version command =>
    let subject := "tabula" ++ (command.map ("-" ++ ·)).getD ""
    s.printing (subject ++ " " ++ versionNumber ++ "\n") 0
  | .misuse argument =>
    { err := "error: unexpected or incomplete argument '" ++ argument ++ "'\n\n" ++ usage
      exitCode := setupExitCode
      files := s.files }

/-- What a command line does. -/
def perform (s : Surroundings) (arguments : List String) : Result :=
  match readArguments arguments with
  | .error stop => stop.result s
  | .ok (c, command) =>
    match command.execute s c with
    | .ok r => r
    | .error f => f.result s c.json

end Runbook.CommandLine
