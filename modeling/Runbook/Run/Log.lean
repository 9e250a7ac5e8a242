import Runbook.Program.Basic
import Runbook.Report.Basic
import Runbook.Session
import Runbook.FileTree.Basic

set_option autoImplicit false

/-!
The log of a run: what happens in it, in order, each with the state it leads to. A program is
entered and left, a step is begun and ended, and what is begun last is over first. What a run
reports is the part of its log that concerns finished steps and programs.
-/
namespace Runbook

/-- What changes in a run. -/
structure RunState where
  session : Session := {}
  /-- The run is to stop before its next step. -/
  interrupted : Bool := false
  /-- The time that actions and delays have taken, in milliseconds. -/
  waited : Nat := 0
  /-- The files that nested programs are read from. -/
  files : FileTree := {}
  deriving Inhabited

/-- The state with other variables. -/
def RunState.withVars (st : RunState) (vars : Variables) : RunState :=
  { st with session := { st.session with vars } }

namespace Run

/-- What happens in a run. -/
inductive Happening
  /-- A program is started. -/
  | entered (p : Program)
  /-- A step is begun: its record is counted and placed. -/
  | began (record : Record)
  /-- A step is over: its record has its outcome, and something may be asked of the runner. -/
  | ended (record : Record) (directive : Directive)
  /-- An interrupt is noticed before the row at a place. -/
  | interrupted (seq : Nat)
  /-- A program has ended and is reported. -/
  | left (summary : FrameSummary)

/-- An entry of a log: what happened and the state it led to. -/
structure LogEntry where
  what : Happening
  state : RunState

abbrev Log := List LogEntry

def LogEntry.event? (e : LogEntry) : Option Event :=
  match e.what with
  | .ended record _ => some (.step record.result)
  | .left summary => some (.frame summary)
  | _ => none

def eventsOf (l : Log) : List Event :=
  l.filterMap LogEntry.event?

end Run
end Runbook
