import Runbook.Record
import Runbook.Counters

set_option autoImplicit false

/-!
What a run reports: one event for each step, for each program that has ended, and for the session.
-/
namespace Runbook

/-- How far a program has come. -/
inductive FrameState
  | ready
  | running
  /-- Stopped early; the programs around it go on. -/
  | caseTerminated
  /-- Stopped early together with all programs around it. -/
  | sessionTerminated
  | completed
  deriving DecidableEq, Repr, Inhabited

namespace FrameState

def name : FrameState → String
  | .ready => "ready"
  | .running => "running"
  | .caseTerminated => "case-terminated"
  | .sessionTerminated => "session-terminated"
  | .completed => "completed"

/-- All states. -/
def all : List FrameState :=
  [.ready, .running, .caseTerminated, .sessionTerminated, .completed]

/-- Whether the program has ended. -/
def isFinished : FrameState → Bool
  | .ready => false
  | .running => false
  | _ => true

end FrameState

/-- What one program did. -/
structure FrameSummary where
  program : String
  level : Nat
  parentStep : Nat
  state : FrameState
  /-- The steps of this program alone. -/
  counters : Counters
  /-- The reportable tier when the program ended. -/
  reportable : Counters
  comments : List String := []
  errors : List String := []
  steps : List StepResult
  deriving DecidableEq, Inhabited

namespace FrameSummary

/-- Whether a step failed or the program itself has an error. -/
def failed (f : FrameSummary) : Bool :=
  f.counters.hasFailures || !f.errors.isEmpty

/-- The first step with an exception, and the exception. -/
def firstException? (f : FrameSummary) : Option (StepResult × String) :=
  f.steps.findSome? fun s => s.exception.map (s, ·)

end FrameSummary

/-- The verdict on a run. -/
inductive Verdict
  | passed | failed | terminated
  deriving DecidableEq, Repr, Inhabited

namespace Verdict

def name : Verdict → String
  | .passed => "passed"
  | .failed => "failed"
  | .terminated => "terminated"

/-- All verdicts. -/
def all : List Verdict := [.passed, .failed, .terminated]

def exitCode : Verdict → Nat
  | .passed => 0
  | _ => 1

/-- The verdict on counters and the mark of termination. -/
def of (counters : Counters) (terminated : Bool) : Verdict :=
  if terminated then .terminated else if counters.hasFailures then .failed else .passed

end Verdict

/-- What a run did as a whole. -/
structure SessionSummary where
  program : String
  counters : Counters
  terminated : Bool
  verdict : Verdict
  deriving DecidableEq, Inhabited

def SessionSummary.of (program : String) (counters : Counters) (terminated : Bool) :
    SessionSummary :=
  ⟨program, counters, terminated, .of counters terminated⟩

/-- What is reported, in the order it happens. -/
inductive Event
  | step (result : StepResult)
  | frame (summary : FrameSummary)
  | session (summary : SessionSummary)
  deriving DecidableEq

end Runbook
