import Runbook.Action.Basic
import Runbook.Verification

set_option autoImplicit false

/-!
The built-in actions: setting and clearing variables, comments, checks, failing on purpose,
pausing, nested programs and directives.
-/
namespace Runbook.Action

open Text

/-- An action that only answers. -/
def answering (f : Record → Except Error Outcome) : Body :=
  .direct fun call => { vars := call.session.vars, answer := f call.record }

/-- The value of a parameter that has to be there. -/
def required (r : Record) (key name : String) : Except Error String :=
  match r.param? key with
  | some value => .ok value
  | none => .error (.missingParam name)

/-- A parameter that says yes or no; no when it is left out or blank. -/
def flag (r : Record) (key name : String) : Except Error Bool :=
  match r.param? key with
  | none => .ok false
  | some value =>
    match Activation.parse? value with
    | some a => .ok (a == .active)
    | none => .error (.invalidParam name ("expected yes or no, got '" ++ value ++ "'"))

/-- A parameter that is an unsigned number up to a bound, if it is there. -/
def number? (r : Record) (key name : String) (bound : Nat) : Except Error (Option Nat) :=
  match r.param? key with
  | none => .ok none
  | some value =>
    match unsigned? bound (trim value.toList) with
    | some n => .ok (some n)
    | none => .error (.invalidParam name ("expected a number, got '" ++ value ++ "'"))

/-- The parameters that an action sets as variables: all but the decisions on what follows. -/
def assignments (r : Record) : List (String × String) :=
  r.params.entries.filter fun e => !isPolicyKey e.1

/-- Sets every parameter as a variable. -/
def setVars : Action where
  name := "SetVars"
  body := .direct fun call =>
    let pairs := assignments call.record
    { vars := call.session.vars.setAll pairs
      answer := .ok (.ofComment ("set " ++ decimal pairs.length ++ " variable(s)")) }

/-- Removes variables one after the other and counts those that were set. -/
def eraseNames (v : Variables) : List String → Variables × Nat
  | [] => (v, 0)
  | name :: names =>
    let (v', n) := eraseNames (v.erase name) names
    (v', if v.contains name then n + 1 else n)

/-- Removes the variables named between commas, or all that are not reserved. -/
def clearVars : Action where
  name := "ClearVars"
  body := .direct fun call =>
    let vars := call.session.vars
    match call.record.param? "names" with
    | none =>
      { vars := vars.clearUser, answer := .ok (.ofComment "cleared all variables") }
    | some list =>
      let names := (splitAt ',' list.toList).map trim |>.filter (· ≠ []) |>.map String.ofList
      let (vars', n) := eraseNames vars names
      { vars := vars'
        answer := .ok (.ofComment ("cleared " ++ decimal n ++ " variable(s)")) }

def comment : Action where
  name := "Comment"
  body := answering fun r =>
    let text := trimmed r.description
    .ok (if text = "" then {} else .ofComment text)

/-- What an action that fails on purpose says: its message, else its description. -/
def failureText (r : Record) : String :=
  let message := trimmed ((r.param? "message").getD "")
  let description := trimmed r.description
  if message ≠ "" then message
  else if description ≠ "" then description
  else "failed by instruction"

def fail : Action where
  name := "Fail"
  body := answering fun r => .ok (.ofError (failureText r))

def pause : Action where
  name := "Pause"
  body := .direct fun call =>
    let millis : Except Error Nat := do
      let _ ← required call.record "millis" "Millis"
      return (← number? call.record "millis" "Millis" maxWord64).getD 0
    { vars := call.session.vars
      waits := match millis with
        | .ok n => n
        | .error _ => 0
      answer := millis.map fun n => .ofComment ("paused " ++ decimal n ++ "ms") }

def setPolicy : Action where
  name := "SetPolicy"
  body := answering fun r => do
    let quitCase ← flag r "quitcase" "QuitCase"
    let quitSession ← flag r "quitsession" "QuitSession"
    let skipSteps := (← number? r "skip" "Skip" maxWord32).getD 0
    return { directive := { quitCase, quitSession, skipSteps } }

/-- The mode of a check: the usual one unless a name is given. -/
def verifyMode (r : Record) : Except Error VerifyMode :=
  let name := trimmed ((r.param? "mode").getD "")
  if name = "" then .ok .equals
  else
    match VerifyMode.parse? name with
    | some m => .ok m
    | none =>
      .error (.invalidParam "Mode" ("unknown mode '" ++ name ++ "' (expected one of " ++
        joined ", " (VerifyMode.all.map VerifyMode.name) ++ ")"))

def verify : Action where
  name := "Verify"
  body := answering fun r => do
    let mode ← verifyMode r
    let actual ← required r "actual" "Actual"
    let expected ←
      if mode = .empty ∨ mode = .notEmpty then pure ((r.param? "expected").getD "")
      else required r "expected" "Expected"
    return match mode.verify actual expected with
      | none => .ofComment ("verified " ++ mode.name)
      | some mismatch => .ofError mismatch

def runProgram : Action where
  name := "RunProgram"
  body := .runProgram

def builtins : List Action :=
  [setVars, clearVars, comment, verify, fail, pause, runProgram, setPolicy]

end Runbook.Action

namespace Runbook.Registry

def builtin : Registry :=
  Action.builtins.foldl register {}

end Runbook.Registry
