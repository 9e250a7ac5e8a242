import Runbook.Action.Builtin
import Runbook.Config.Basic
import Runbook.Run.Log

set_option autoImplicit false

/-!
Running programs. A runner carries out the rows of a program one after the other. Each row that
has an action is counted, placed and, when it is active, resolved and carried out; its directive
then decides whether rows are skipped or the program stops. A program run by a step shares the
session and lies one level deeper. The depth is bounded, so every run ends: an action that makes up
programs is kept to the same bound as one that names them.

A run answers with its log. What it reports is the list of the events in the log, in order.
Reporters and captures may change files, and that is all of them that can come back into a run.
The mark that a run is interrupted is there from the start or set by an action. One that is set from
outside would be looked at in the same places, before each instruction, but it may come between any
two entries of a log, such as a row that names a program and the first row of that program; here only
actions set it.
-/
namespace Runbook

open Text

/-- Captures the surface of an interactive action: the path of the picture, if there is one, or
why it could not be taken, and the files after it. -/
structure Capture where
  take : Record → FileTree → Except String (Option String) × FileTree

/-- A capture that leaves the files as they are. -/
instance : Coe (Record → Except String (Option String)) Capture where
  coe picture := ⟨fun record files => (picture record, files)⟩

instance : Inhabited Capture := ⟨⟨fun _ files => (.ok none, files)⟩⟩

/-- What becomes of the files when something is reported. -/
abbrev Reporter := Event → FileTree → FileTree

/-- What is fixed for a run. -/
structure Runner where
  config : Config := {}
  params : Params.Syntax := {}
  offset : Calendar.Offset := .utc
  registry : Registry := .builtin
  /-- The rows that are registered by name. -/
  inline : Keyed (List Row) := .empty
  capture : Capture := default
  reporter : Reporter := fun _ files => files
  deriving Inhabited

namespace Run

/-- The comment on a record that is skipped because of an earlier one. -/
def skipComment : String := "skipped by prior step's post-test policy"

/-- What a program's run leaves behind. -/
structure FrameRun where
  summary : FrameSummary
  /-- The log of the program and of those nested in it. -/
  log : Log
  state : RunState

def FrameRun.events (f : FrameRun) : List Event :=
  eventsOf f.log

/-- How a nested program is run; at the deepest level there is no way. -/
abbrev Deeper := Option (Program → RunState → FrameRun)

/-- What carrying out a record leaves behind. -/
structure Execution where
  record : Record
  directive : Directive := {}
  /-- Whether the action worked on a surface that can be captured. -/
  interactive : Bool := false
  log : Log := []
  state : RunState

/-- What a record takes from the answer of its action. -/
def applyAnswer (r : Record) : Except Action.Error Action.Outcome → Record × Directive
  | .ok o =>
    let r := o.comments.foldl Record.addComment r
    (o.errors.foldl Record.addError r, o.directive)
  | .error e =>
    if e.isSetup then (r.addError e.message, {})
    else
      ((r.setException e.message).addError (r.action ++ " raised an exception: " ++ e.message), {})

/-- What a step takes from the program it ran: an exception in it is an exception of the step; all
else is only told. -/
def foldSummary (s : FrameSummary) : Except Action.Error Action.Outcome :=
  match s.firstException? with
  | some (step, exception) => .error (.nestedException s.program step.step exception)
  | none =>
    .ok { comments := ("nested program '" ++ s.program ++ "' " ++ s.state.name ++ ": " ++
      s.counters.text) :: (s.errors ++ s.comments) }

/-- The key of the parameter that names a nested program. -/
def referenceKey : String := "inputspecs"

def referenceName : String := "InputSpecs"

/-- The program that a record refers to. -/
def nestedProgram (r : Runner) (files : FileTree) (record : Record) (baseDir : Option String) :
    Except Action.Error Program := do
  let reference := trimmed ((record.param? referenceKey).getD "")
  if reference = "" then .error (.missingParam referenceName)
  else if record.position.level + 1 > r.config.maxDepth then
    .error (.depthExceeded (record.position.level + 1) r.config.maxDepth)
  else
    match Loader.resolve ⟨r.inline, files⟩ reference baseDir with
    | .ok l => .ok (.childOf record l.name l.rows l.dir)
    | .error e => .error (.invalidParam referenceName e.message)

def runNested (r : Runner) (deeper : Deeper) (record : Record) (baseDir : Option String)
    (st : RunState) : Except Action.Error Action.Outcome × Log × RunState :=
  match nestedProgram r st.files record baseDir, deeper with
  | .error e, _ => (.error e, [], st)
  | .ok _, none =>
    (.error (.depthExceeded (record.position.level + 1) r.config.maxDepth), [], st)
  | .ok p, some run =>
    let f := run p st
    (foldSummary f.summary, f.log, f.state)

/-- What an action sees of the run when it is called. -/
def callOf (r : Runner) (record : Record) (baseDir : Option String) (st : RunState) :
    Action.Call :=
  ⟨record, st.session, r.config.maxDepth, baseDir, ⟨r.inline, st.files⟩⟩

/-- The state after what an action did to it. -/
def touched (st : RunState) (t : Action.Touch) : RunState :=
  { st with
    session := { st.session with vars := t.vars }
    interrupted := st.interrupted || t.interrupts
    waited := st.waited + t.waits }

/-- Carries out the script of an action, with the programs that it makes up. -/
def perform (r : Runner) (deeper : Deeper) (record : Record) (baseDir : Option String) :
    Action.Script → RunState → Except Action.Error Action.Outcome × Log × RunState
  | .answer effect, st => (effect.answer, [], touched st effect.toTouch)
  | .run touch name rows dir next, st =>
    let st := touched st touch
    let refused := .error (.depthExceeded (record.position.level + 1) r.config.maxDepth)
    if record.position.level + 1 > r.config.maxDepth then (refused, [], st)
    else
      match deeper with
      | none => (refused, [], st)
      | some run =>
        let f := run (.childOf record name rows dir) st
        let (answer, log, st) :=
          perform r deeper record baseDir (next f.summary (callOf r record baseDir f.state)) f.state
        (answer, f.log ++ log, st)

def dispatch (r : Runner) (deeper : Deeper) (record : Record) (baseDir : Option String)
    (st : RunState) : Execution :=
  if record.action = "" then { record := record.addError "Action is required", state := st }
  else
    match r.registry.find? record.action with
    | none =>
      { record := record.addError ("Action not implemented: '" ++ record.action ++ "'")
        state := st }
    | some a =>
      match a.body with
      | .direct act =>
        let effect := act (callOf r record baseDir st)
        let (record, directive) := applyAnswer record effect.answer
        { record, directive, interactive := a.interactive, state := touched st effect.toTouch }
      | .runProgram =>
        let (answer, log, state) := runNested r deeper record baseDir st
        let (record, directive) := applyAnswer record answer
        { record, directive, interactive := a.interactive, log, state }
      | .hosting script =>
        let (answer, log, state) :=
          perform r deeper record baseDir (script (callOf r record baseDir st)) st
        let (record, directive) := applyAnswer record answer
        { record, directive, interactive := a.interactive, log, state }

/-- What is captured after an action, when the settings want it: the path of the picture, if there
is one, and the files after it. -/
def picture (r : Runner) (e : Execution) : Option String × FileTree :=
  if e.interactive && r.config.screenshot.applies (e.record.status == .fail) then
    let (taken, files) := r.capture.take e.record e.state.files
    (taken.toOption.join, files)
  else (none, e.state.files)

/-- The record with a note on what was captured. -/
def captured (r : Runner) (e : Execution) : Record :=
  match (picture r e).1 with
  | some path => e.record.addComment ("captured " ++ path)
  | none => e.record

/-- Carries out a record unless it already has errors. -/
def dispatchSound (r : Runner) (deeper : Deeper) (record : Record) (baseDir : Option String)
    (st : RunState) : Execution :=
  if record.hasErrors then { record, state := st } else dispatch r deeper record baseDir st

/-- Carries out a record that is active and resolved, and merges its own decision into the
directive. -/
def execute (r : Runner) (deeper : Deeper) (record : Record) (baseDir : Option String)
    (st : RunState) : Execution :=
  let e := dispatchSound r deeper record baseDir st
  let status := e.record.status
  { e with
    record := captured r e
    directive := (Directive.ofAction (record.policy.after status)).merge e.directive
    state := { e.state with
      waited := e.state.waited + r.config.stepDelayMs
      files := (picture r e).2 } }

structure StepRun where
  result : StepResult
  directive : Directive
  /-- How many of the next records are to be skipped. -/
  skips : Nat
  log : Log
  state : RunState

/-- The part of a step in which the record is carried out, if it is active. -/
def attempt (r : Runner) (deeper : Deeper) (record : Record) (baseDir : Option String)
    (st : RunState) : Execution :=
  if record.isActive then
    let (record, vars) := record.resolve r.params st.session.vars
    execute r deeper record baseDir (st.withVars vars)
  else { record, state := st }

/-- Places a record in the run, to be skipped if earlier records asked for it. -/
def placeRecord (row : Row) (position : Position) (skips : Nat) (vars : Variables) : Record :=
  let record := (Record.ofRow row).place position vars
  if skips = 0 then record else record.forceSkip skipComment

/-- Whether the steps of a row count in the reportable tier. -/
def isReported (r : Runner) (row : Row) : Bool :=
  !r.config.isUnreported row.actionName

/-- The state in which a step of a row is begun. -/
def opened (r : Runner) (row : Row) (st : RunState) : RunState :=
  { st with session := st.session.begin (isReported r row) }

/-- The state in which a step of a row is over: the session is terminated if that was asked for, and
the outcome is counted and reported. -/
def closed (r : Runner) (row : Row) (e : Execution) : RunState :=
  let session := if e.directive.quitSession then e.state.session.terminate else e.state.session
  { e.state with
    session := session.record e.record.status (isReported r row)
    files := r.reporter (.step e.record.result) e.state.files }

def begunRecord (p : Program) (seq : Nat) (row : Row) (skips : Nat) (st : RunState) : Record :=
  placeRecord row ⟨seq, p.level, p.parentStep, st.session.counters.done⟩ skips st.session.vars

/-- What a step leaves behind that was begun in a state and whose record was carried out. -/
def finished (r : Runner) (row : Row) (skips : Nat) (record : Record) (st : RunState)
    (e : Execution) : StepRun where
  result := e.record.result
  directive := e.directive
  skips := if record.isActive then e.directive.skipSteps else skips - 1
  log := ⟨.began record, st⟩ :: e.log ++ [⟨.ended e.record e.directive, closed r row e⟩]
  state := closed r row e

/-- One step: a row that has an action. -/
def step (r : Runner) (deeper : Deeper) (p : Program) (seq : Nat) (row : Row) (skips : Nat)
    (st : RunState) : StepRun :=
  let st := opened r row st
  let record := begunRecord p seq row skips st
  finished r row skips record st (attempt r deeper record p.baseDir st)

inductive Ending
  /-- Its last row was done. -/
  | completed
  /-- A step stopped it, and perhaps the whole session. -/
  | stopped (wholeSession : Bool) (reason : String) (step : Nat) (id : String)
  /-- The run was interrupted before the row at a place. -/
  | interrupted (seq : Nat)
  deriving DecidableEq

def Ending.state : Ending → FrameState
  | .completed => .completed
  | .stopped true _ _ _ => .sessionTerminated
  | .stopped false _ _ _ => .caseTerminated
  | .interrupted _ => .sessionTerminated

def Ending.note? (level : Nat) : Ending → Option String
  | .completed => none
  | .stopped _ reason step id =>
    some ("level " ++ decimal level ++ " stopped by " ++ reason ++ " at step " ++ decimal step ++
      " (id '" ++ id ++ "')")
  | .interrupted seq =>
    some ("level " ++ decimal level ++ " interrupted before instruction " ++ decimal seq)

/-- Why a step stops its program, if it does. -/
def stopReason? (s : StepRun) : Option String :=
  if s.directive.stops then some s.directive.label
  else if s.state.session.terminated then
    some (if s.state.interrupted then "interrupt" else "quitsession in nested program")
  else none

structure Progress where
  counters : Counters := {}
  steps : List StepResult := []

def Progress.add (g : Progress) (s : StepResult) : Progress :=
  ⟨g.counters.begin.record s.status, g.steps ++ [s]⟩

/-- What running the rows of a program leaves behind. -/
structure RowsRun where
  progress : Progress
  ending : Ending
  log : Log
  state : RunState

/-- Carries out the rows of a program from the one at place `seq` on. -/
def rows (r : Runner) (deeper : Deeper) (p : Program) :
    List Row → Nat → Nat → Progress → RunState → RowsRun
  | [], _, _, g, st => ⟨g, .completed, [], st⟩
  | row :: rest, seq, skips, g, st =>
    if row.isEmpty then rows r deeper p rest (seq + 1) skips g st
    else if st.interrupted then
      let st := { st with session := st.session.terminate }
      ⟨g, .interrupted seq, [⟨.interrupted seq, st⟩], st⟩
    else
      let s := step r deeper p seq row skips st
      let g := g.add s.result
      match stopReason? s with
      | some reason =>
        ⟨g, .stopped s.state.session.terminated reason s.result.step s.result.id, s.log, s.state⟩
      | none =>
        let more := rows r deeper p rest (seq + 1) s.skips g s.state
        { more with log := s.log ++ more.log }

/-- The summary of a program whose rows were run. -/
def summarize (p : Program) (run : RowsRun) : FrameSummary :=
  let note := (run.ending.note? p.level).toList
  let failed := run.progress.counters.hasFailures
  { program := p.name
    level := p.level
    parentStep := p.parentStep
    state := run.ending.state
    counters := run.progress.counters
    reportable := run.state.session.reportable
    -- The note on the end is an error when a step failed.
    comments := if failed then [] else note
    errors := if failed then note else []
    steps := run.progress.steps }

/-- Runs a program, given how nested ones are run. -/
def frameWith (r : Runner) (deeper : Deeper) (p : Program) (st : RunState) : FrameRun :=
  let run := rows r deeper p p.rows 1 0 {} st
  let summary := summarize p run
  let state := { run.state with
    session := run.state.session.resetReportable
    files := r.reporter (.frame summary) run.state.files }
  { summary, log := ⟨.entered p, st⟩ :: run.log ++ [⟨.left summary, state⟩], state }

/-- Runs a program below which so many levels may be nested. -/
def frameAt (r : Runner) : Nat → Program → RunState → FrameRun
  | 0, p, st => frameWith r none p st
  | depth + 1, p, st => frameWith r (some fun p st => frameAt r depth p st) p st

end Run

namespace Runner

/-- A runner with the built-in actions, after its settings were checked. -/
def ofConfig (c : Config) : Except ConfigError Runner :=
  c.check.map fun checked =>
    { config := checked.config, params := checked.params, offset := checked.offset }

/-- A new session, whose local time is that of the settings. -/
def newSession (r : Runner) : Session :=
  { vars := { offset := r.offset } }

/-- Runs a program with all that is nested in it. -/
def runFrame (r : Runner) (p : Program) (st : RunState) : Run.FrameRun :=
  Run.frameAt r (r.config.maxDepth - p.level) p st

structure Finished where
  summary : SessionSummary
  log : Run.Log
  state : RunState

/-- What a run reports, the session last. -/
def Finished.events (f : Finished) : List Event :=
  Run.eventsOf f.log ++ [.session f.summary]

/-- Runs a program as the outermost one, and sums up the session. -/
def run (r : Runner) (p : Program) (st : RunState) : Finished :=
  let f := r.runFrame p st
  let summary := SessionSummary.of p.name f.state.session.counters f.state.session.terminated
  ⟨summary, f.log, { f.state with files := r.reporter (.session summary) f.state.files }⟩

end Runner
end Runbook
