import Runbook.Params
import Runbook.Calendar.Offset
import Runbook.FileTree.Basic
import Runbook.Json.Record
import Runbook.Text.Decimal

set_option autoImplicit false

/-!
The settings of a runner: how parameters are cut, how deep programs may nest, what is captured and
reported, and the offset that date tokens are read by.
-/
namespace Runbook

open Text Calendar

/-- When the surface of an interactive action is captured. -/
inductive CapturePolicy
  | never | onFailure | always
  deriving DecidableEq, Repr, Inhabited

namespace CapturePolicy

def name : CapturePolicy → String
  | .never => "never"
  | .onFailure => "on-failure"
  | .always => "always"

/-- All policies. -/
def all : List CapturePolicy := [.never, .onFailure, .always]

def ofName? (s : String) : Option CapturePolicy :=
  all.find? fun p => p.name == s

/-- Whether a step is captured, given whether it failed. -/
def applies (p : CapturePolicy) (failed : Bool) : Bool :=
  match p with
  | .never => false
  | .onFailure => failed
  | .always => true

end CapturePolicy

structure Config where
  delimiter : String := ";"
  validDelimiters : String := ";|,^~"
  maxDepth : Nat := 32
  stepDelayMs : Nat := 0
  screenshot : CapturePolicy := .onFailure
  unreportedActions : List String := []
  timezoneOffset : String := "+00:00"
  reportPath : Option String := none
  deriving DecidableEq, Inhabited

/-- What is wrong with settings, or with reading and writing them. -/
inductive ConfigError
  | invalidValue (key reason : String)
  | projectDirNotFound
  | file (e : FileError)
  /-- A layer cannot be read, or a value in it has the wrong type. -/
  | unreadable
  deriving DecidableEq, Repr

def ConfigError.message : ConfigError → String
  | .invalidValue key reason => "invalid configuration value for key '" ++ key ++ "': " ++ reason
  | .projectDirNotFound => "no .tabula directory found (run 'tabula init' first)"
  | .file e => "failed to access config file: " ++ e.message
  | .unreadable => "failed to load configuration: a layer cannot be read"

namespace Config

/-- How parameters are cut: one delimiter, which is not the equals sign. -/
def paramSyntax (c : Config) : Except ConfigError Params.Syntax :=
  match c.delimiter.toList with
  | [d] =>
    if d = '=' then .error (delimiterError c)
    else if c.validDelimiters.toList.contains '=' then
      .error (.invalidValue "valid-delimiters" "'=' cannot be a delimiter")
    else .ok ⟨d, c.validDelimiters⟩
  | _ => .error (delimiterError c)
where
  /-- What is said of a delimiter that is none. -/
  delimiterError (c : Config) : ConfigError :=
    .invalidValue "delimiter" ("expected a single character other than '=', got '" ++ c.delimiter ++ "'")

def offset (c : Config) : Except ConfigError Offset :=
  match Offset.parse? c.timezoneOffset with
  | some o => .ok o
  | none => .error (.invalidValue "timezone-offset" (Offset.invalidMessage c.timezoneOffset))

/-- Whether an action is left out of the reportable counters. -/
def isUnreported (c : Config) (action : String) : Bool :=
  c.unreportedActions.any fun a => sameIgnoringCase (trimmed a) (trimmed action)

/-- The settings a runner works with, in the form it needs them. -/
structure Checked where
  config : Config
  params : Params.Syntax
  offset : Offset
  deriving Inhabited

/-- Checks all settings; the first that is wrong is reported. -/
def check (c : Config) : Except ConfigError Checked := do
  let params ← c.paramSyntax
  let offset ← c.offset
  if c.maxDepth = 0 then .error (.invalidValue "max-depth" "must be at least 1")
  else .ok ⟨c, params, offset⟩

def toJson (c : Config) : Json :=
  .obj ([("delimiter", .str c.delimiter), ("valid-delimiters", .str c.validDelimiters),
    ("max-depth", .nat c.maxDepth), ("step-delay-ms", .nat c.stepDelayMs),
    ("screenshot", .str c.screenshot.name), ("unreported-actions", .strs c.unreportedActions),
    ("timezone-offset", .str c.timezoneOffset)] ++
    (c.reportPath.map fun p => ("report-path", Json.str p)).toList)

/-- Reads settings from JSON; what is left out has its usual value. -/
def ofJson? (j : Json) : Option Config := do
  guard (j.isRecord 8)
  let usual : Config := {}
  return {
    delimiter := ← j.optional ⟨0, ["delimiter"]⟩ usual.delimiter Json.str?
    validDelimiters := ← j.optional ⟨1, ["valid-delimiters"]⟩ usual.validDelimiters Json.str?
    maxDepth := ← j.optional ⟨2, ["max-depth"]⟩ usual.maxDepth (Json.natUpTo? maxWord64)
    stepDelayMs := ← j.optional ⟨3, ["step-delay-ms"]⟩ usual.stepDelayMs (Json.natUpTo? maxWord64)
    screenshot := ← j.optional ⟨4, ["screenshot"]⟩ usual.screenshot
      fun v => v.keyword?.bind CapturePolicy.ofName?
    unreportedActions := ← j.optional ⟨5, ["unreported-actions"]⟩ [] Json.strs?
    timezoneOffset := ← j.optional ⟨6, ["timezone-offset"]⟩ usual.timezoneOffset Json.str?
    reportPath := ← j.optional ⟨7, ["report-path"]⟩ none (Json.nullable Json.str?) }

end Config
end Runbook
