import Runbook.Counters
import Runbook.Variables

set_option autoImplicit false

/-!
What outlives a program: the variables, two tiers of counters and the mark that the session is
terminated. The session tier counts every step; the reportable tier counts those of reported
actions since the last report.
-/
namespace Runbook

/-- The state of a session. -/
structure Session where
  vars : Variables := {}
  counters : Counters := {}
  reportable : Counters := {}
  terminated : Bool := false
  deriving DecidableEq, Inhabited

namespace Session

/-- A step is picked up; its number is then the count of steps begun. -/
def begin (s : Session) (reported : Bool) : Session :=
  { s with
    counters := s.counters.begin
    reportable := if reported then s.reportable.begin else s.reportable }

def record (s : Session) (status : Status) (reported : Bool) : Session :=
  { s with
    counters := s.counters.record status
    reportable := if reported then s.reportable.record status else s.reportable }

/-- A report was made. -/
def resetReportable (s : Session) : Session :=
  { s with reportable := .zero }

/-- Every program of the session is to stop. -/
def terminate (s : Session) : Session :=
  { s with terminated := true }

/-- Everything starts anew; only clock and offset stay. -/
def reset (s : Session) : Session :=
  { vars := s.vars.clear }

end Session
end Runbook
