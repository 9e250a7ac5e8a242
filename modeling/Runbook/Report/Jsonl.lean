import Runbook.Report.Basic
import Runbook.Json.Printer
import Runbook.Json.Record
import Runbook.Text.Decimal

set_option autoImplicit false

/-!
Reports as JSON. Fields that hold nothing are left out; in a report file every program and every
session is one line that says its kind first.
-/
namespace Runbook

open Text

/-- A member that is left out when the list is empty. -/
def unlessEmpty (name : String) (texts : List String) : List (String × Json) :=
  if texts.isEmpty then [] else [(name, .strs texts)]

/-- A number of 64 bits. -/
def word64? : Json → Option Nat :=
  Json.natUpTo? maxWord64

namespace Counters

def toJson (c : Counters) : Json :=
  .obj [("done", .nat c.done), ("pass", .nat c.pass), ("fail", .nat c.fail), ("skip", .nat c.skip)]

def ofJson? (j : Json) : Option Counters := do
  guard (j.isRecord 4)
  return {
    done := ← j.required ⟨0, ["done"]⟩ word64?
    pass := ← j.required ⟨1, ["pass"]⟩ word64?
    fail := ← j.required ⟨2, ["fail"]⟩ word64?
    skip := ← j.required ⟨3, ["skip"]⟩ word64? }

end Counters

namespace Directive

def toJson (d : Directive) : Json :=
  .obj [("quit_case", .bool d.quitCase), ("quit_session", .bool d.quitSession),
    ("skip_steps", .nat d.skipSteps)]

def ofJson? (j : Json) : Option Directive := do
  guard (j.isRecord 3)
  return {
    quitCase := ← j.optional ⟨0, ["quit_case"]⟩ false Json.bool?
    quitSession := ← j.optional ⟨1, ["quit_session"]⟩ false Json.bool?
    skipSteps := ← j.optional ⟨2, ["skip_steps"]⟩ 0 (Json.natUpTo? maxWord32) }

end Directive

namespace PolicyAction

def toJson : PolicyAction → Json
  | .skip n => .obj [("skip", .nat n)]
  | a => .str a.text

end PolicyAction

namespace StepResult

def members (s : StepResult) : List (String × Json) :=
  [("seq", .nat s.seq), ("level", .nat s.level), ("step", .nat s.step),
    ("parent_step", .nat s.parentStep), ("id", .str s.id), ("action", .str s.action)] ++
  (if s.description = "" then [] else [("description", .str s.description)]) ++
  [("status", .str s.status.text)] ++
  unlessEmpty "comments" s.comments ++ unlessEmpty "errors" s.errors ++
  (s.exception.map fun e => ("exception", Json.str e)).toList

def toJson (s : StepResult) : Json :=
  .obj s.members

def ofJson? (j : Json) : Option StepResult := do
  guard (j.isRecord 11)
  return {
    seq := ← j.required ⟨0, ["seq"]⟩ word64?
    level := ← j.required ⟨1, ["level"]⟩ word64?
    step := ← j.required ⟨2, ["step"]⟩ word64?
    parentStep := ← j.required ⟨3, ["parent_step"]⟩ word64?
    id := ← j.required ⟨4, ["id"]⟩ Json.str?
    action := ← j.required ⟨5, ["action"]⟩ Json.str?
    description := ← j.optional ⟨6, ["description"]⟩ "" Json.str?
    status := ← j.required ⟨7, ["status"]⟩ fun v => v.str?.bind Status.parse?
    comments := ← j.optional ⟨8, ["comments"]⟩ [] Json.strs?
    errors := ← j.optional ⟨9, ["errors"]⟩ [] Json.strs?
    exception := ← j.optional ⟨10, ["exception"]⟩ none (Json.nullable Json.str?) }

end StepResult

def Json.oneOf? {α : Type} (values : List α) (name : α → String) (j : Json) : Option α :=
  j.keyword?.bind fun k => values.find? fun v => name v == k

namespace FrameSummary

def members (f : FrameSummary) : List (String × Json) :=
  [("program", .str f.program), ("level", .nat f.level), ("parent_step", .nat f.parentStep),
    ("state", .str f.state.name), ("counters", f.counters.toJson),
    ("reportable", f.reportable.toJson)] ++
  unlessEmpty "comments" f.comments ++ unlessEmpty "errors" f.errors ++
  [("steps", .arr (f.steps.map StepResult.toJson))]

def toJson (f : FrameSummary) : Json :=
  .obj f.members

def ofJson? (j : Json) : Option FrameSummary := do
  guard (j.isRecord 9)
  return {
    program := ← j.required ⟨0, ["program"]⟩ Json.str?
    level := ← j.required ⟨1, ["level"]⟩ word64?
    parentStep := ← j.required ⟨2, ["parent_step"]⟩ word64?
    state := ← j.required ⟨3, ["state"]⟩ (Json.oneOf? FrameState.all FrameState.name)
    counters := ← j.required ⟨4, ["counters"]⟩ Counters.ofJson?
    reportable := ← j.required ⟨5, ["reportable"]⟩ Counters.ofJson?
    comments := ← j.optional ⟨6, ["comments"]⟩ [] Json.strs?
    errors := ← j.optional ⟨7, ["errors"]⟩ [] Json.strs?
    steps := ← j.required ⟨8, ["steps"]⟩ fun v => v.arr?.bind fun l => l.mapM StepResult.ofJson? }

end FrameSummary

namespace SessionSummary

def members (s : SessionSummary) : List (String × Json) :=
  [("program", .str s.program), ("counters", s.counters.toJson),
    ("terminated", .bool s.terminated), ("outcome", .str s.verdict.name)]

def toJson (s : SessionSummary) : Json :=
  .obj s.members

def ofJson? (j : Json) : Option SessionSummary := do
  guard (j.isRecord 4)
  return {
    program := ← j.required ⟨0, ["program"]⟩ Json.str?
    counters := ← j.required ⟨1, ["counters"]⟩ Counters.ofJson?
    terminated := ← j.required ⟨2, ["terminated"]⟩ Json.bool?
    verdict := ← j.required ⟨3, ["outcome"]⟩ (Json.oneOf? Verdict.all Verdict.name) }

end SessionSummary

namespace Event

/-- The line of a report file for an event; steps have none of their own. -/
def line? : Event → Option Json
  | .step _ => none
  | .frame f => some (.obj (("kind", .str "frame") :: f.members))
  | .session s => some (.obj (("kind", .str "session") :: s.members))

/-- The text an event adds to a report file. -/
def reportChars (e : Event) : List Char :=
  match e.line? with
  | some j => j.compact ++ ['\n']
  | none => []

def reportText (es : List Event) : String :=
  String.ofList (es.flatMap reportChars)

end Event
end Runbook
