import Runbook.CommandLine.Basic
import Runbook.Console.Rendering
import Runbook.Report.Jsonl
import Runbook.Run.Basic

set_option autoImplicit false

/-!
Running a program from the command line. Steps, programs and the session are shown as lines for a
reader, or as the lines of a report. A report may also be added to a file, line by line as programs
end.
-/
namespace Runbook.CommandLine

open Text

/-- The settings with the options of the command put over them. -/
def RunOptions.over (o : RunOptions) (c : Config) : Config :=
  { c with
    maxDepth := o.maxDepth.getD c.maxDepth
    stepDelayMs := o.delayMs.getD c.stepDelayMs
    reportPath := o.report.orElse fun _ => c.reportPath }

/-- Reads a variable: its name, an equals sign and its value. -/
def readVariable (given : String) : Except Failure (String × String) :=
  match cut '=' given.toList with
  | none => .error ["invalid variable format '" ++ given ++ "': expected key=value"]
  | some (name, value) =>
    if allBlank name then .error ["invalid variable format '" ++ given ++ "': key is empty"]
    else .ok (String.ofList (trim name), String.ofList value)

/-- The files with the report file among them, if there is to be one. -/
def openReport (files : FileTree) (path : Option String) : Except Failure FileTree :=
  match path with
  | none => .ok files
  | some path =>
    orFail (fun e => ["failed to open report file " ++ path, "I/O error: " ++ e.message, e.message])
      (files.append path "")

/-- The files with the report of a program or of the session added to the report file. -/
def addReport (path : Option String) : Reporter
  | .step _, files => files
  | event, files =>
    match path with
    | none => files
    | some path =>
      match files.append path (Event.reportText [event]) with
      | .ok files => files
      | .error _ => files

def runProgram (s : Surroundings) (c : Common) (o : RunOptions) : Except Failure Result := do
  let config := o.over (← loadConfig s c)
  let runner ← orFail (fun e => "invalid option" :: configCauses e) (Runner.ofConfig config)
  let runner := { runner with reporter := addReport config.reportPath }
  let pairs ← o.vars.mapM readVariable
  let clock ← present s o.instant
  let loaded ← loadRows s.files o.file
  let files ← openReport s.files config.reportPath
  let session := runner.newSession
  let vars := { session.vars with clock }.setAll pairs
  let done := runner.run loaded.toProgram { session := { session with vars }, files }
  return {
    out :=
      if c.json then Event.reportText done.events
      else s.outStyle.events c.quiet done.events
    exitCode := done.summary.verdict.exitCode
    files := done.state.files
    waited := done.state.waited }

end Runbook.CommandLine
