import Runbook.Console.Style
import Runbook.Report.Basic
import Runbook.Text.Split

set_option autoImplicit false

/-!
Steps, programs and sessions as lines for a terminal. Nested programs are indented; what was noted
on a step or a program hangs below it.
-/
namespace Runbook.Console

open Text (decimal joined)

def times (n : Nat) (text : String) : String :=
  String.join (List.replicate n text)

def alignedRight (width : Nat) (text : String) : String :=
  times (width - text.length) " " ++ text

def indentation (level : Nat) : String :=
  times (level - 1) "  "

/-- What a note below a line begins with. -/
def branch : String := "⎿ "

def icon : Status → String
  | .pass => "✓"
  | .fail => "✖"
  | .skip => "-"

def warningIcon : String := "⚠"

namespace Style

/-- A text in the manner of an outcome: only failures are bold. -/
def byStatus (s : Style) (status : Status) (text : String) : String :=
  match status with
  | .pass => s.paint .good text
  | .fail => s.boldPaint .bad text
  | .skip => s.paint .muted text

def statusIcon (s : Style) (status : Status) : String :=
  s.byStatus status (icon status)

def status (s : Style) (status : Status) : String :=
  s.byStatus status status.text

/-- Counters in words; failures stand out. -/
def counters (s : Style) (c : Counters) : String :=
  let fail := "fail=" ++ decimal c.fail
  "done=" ++ decimal c.done ++ " pass=" ++ decimal c.pass ++ " " ++
    (if c.hasFailures then s.paint .bad fail else fail) ++ " skip=" ++ decimal c.skip

/-- The line of a step and its notes: comments, errors and the exception. -/
def step (s : Style) (r : StepResult) : String :=
  let indent := indentation r.level
  let head := indent ++ s.statusIcon r.status ++ " " ++ alignedRight 4 (decimal r.step) ++ " " ++
    s.paint .muted r.id ++ " " ++ s.bold r.action ++ " " ++ s.status r.status ++
    (if r.description = "" then "" else "  " ++ r.description)
  let below := indent ++ "       " ++ branch
  let notes := r.comments.map (s.paint .muted) ++ r.errors.map (s.paint .bad) ++
    (r.exception.map fun e => s.paint .caution warningIcon ++ " " ++ s.paint .bad e).toList
  joined "\n" (head :: notes.map (below ++ ·))

/-- The line that closes a program, and its notes. -/
def frame (s : Style) (f : FrameSummary) : String :=
  let indent := indentation f.level
  let state := s.paint (if f.failed then .bad else .muted) f.state.name
  let head := indent ++ s.bold f.program ++ " (level " ++ decimal f.level ++ ") " ++ state ++ ": " ++
    s.counters f.counters
  let notes := f.errors.map (s.paint .bad) ++ f.comments.map (s.paint .muted)
  joined "\n" (head :: notes.map (indent ++ branch ++ ·))

def verdict (s : Style) : Verdict → String
  | .passed => s.paint .good "PASSED"
  | .failed => s.paint .bad "FAILED"
  | .terminated => s.paint .caution "TERMINATED"

def session (s : Style) (r : SessionSummary) : String :=
  s.verdict r.verdict ++ " " ++ r.program ++ ": " ++ s.counters r.counters

/-- What is shown of an event; a quiet console shows only steps with errors and the session. -/
def event? (s : Style) (quiet : Bool) : Event → Option String
  | .step r =>
    if quiet && r.errors.isEmpty && r.exception.isNone then none else some (s.step r)
  | .frame f => if quiet then none else some (s.frame f)
  | .session r => some (s.session r)

/-- What a console shows of events, a line or several for each. -/
def events (s : Style) (quiet : Bool) (es : List Event) : String :=
  String.join ((es.filterMap (s.event? quiet)).map (· ++ "\n"))

end Style
end Runbook.Console
