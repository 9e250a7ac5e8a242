import Runbook.Config.Basic

set_option autoImplicit false

/-!
Values that layers of settings hold, and the settings that layers amount to. Layers are merged:
what a later one states counts more, except that a table is merged with a table. What no layer has
keeps its usual value.
-/
namespace Runbook.Config

inductive Value
  | null
  | int (n : Int)
  /-- A truth value or a fraction: no setting is one. -/
  | other
  | str (s : String)
  | list (items : List Value)
  /-- Values under names, in the order of the names. -/
  | table (entries : List (String × Value))
  deriving Inhabited

/-- Named values in the order of their names. -/
abbrev Layer := List (String × Value)

/-- The layer of named values in any order. Of two with the same name the later counts. -/
def Layer.ofEntries (entries : List (String × Value)) : Layer :=
  entries.foldl (fun layer e => Keyed.place e.1 e.2 layer) []

namespace Value

/-- The text that a value is. -/
def str? : Value → Option String
  | .str s => some s
  | _ => none

/-- The number of 64 bits that a value is. -/
def word? : Value → Option Nat
  | .int n => if 0 ≤ n ∧ n ≤ Text.maxWord64 then some n.toNat else none
  | _ => none

/-- The texts that a value lists. -/
def strs? : Value → Option (List String)
  | .list items => items.mapM str?
  | _ => none

/-- A text, or none if the value is null. -/
def optionalStr? : Value → Option (Option String)
  | .null => some none
  | v => v.str?.map some

/-- A policy given by its name, or by a table whose least name is that of a policy and stands for
nothing. -/
def policy? : Value → Option CapturePolicy
  | .str s => CapturePolicy.ofName? s
  | .table ((name, .null) :: _) => CapturePolicy.ofName? name
  | _ => none

end Value

mutual

/-- A value merged with one that counts more. -/
def Value.merge : Value → Value → Value
  | .table lower, .table upper => .table (Layer.merge lower upper)
  | _, upper => upper

def Layer.merge : Layer → Layer → Layer
  | lower, [] => lower
  | lower, (name, v) :: upper =>
    let v := match Keyed.find name lower with
      | some w => Value.merge w v
      | none => v
    Layer.merge (Keyed.place name v lower) upper

end

/-- A setting from a layer. -/
def setting {α : Type} (layer : Layer) (name : String) (usual : α)
    (read : Value → Option α) : Except ConfigError α :=
  match Keyed.find name layer with
  | none => .ok usual
  | some v =>
    match read v with
    | some a => .ok a
    | none => .error .unreadable

def ofLayers (layers : List Layer) : Except ConfigError Config := do
  let usual : Config := {}
  let merged := layers.foldl Layer.merge []
  return {
    delimiter := ← setting merged "delimiter" usual.delimiter Value.str?
    validDelimiters := ← setting merged "valid-delimiters" usual.validDelimiters Value.str?
    maxDepth := ← setting merged "max-depth" usual.maxDepth Value.word?
    stepDelayMs := ← setting merged "step-delay-ms" usual.stepDelayMs Value.word?
    screenshot := ← setting merged "screenshot" usual.screenshot Value.policy?
    unreportedActions := ← setting merged "unreported-actions" [] Value.strs?
    timezoneOffset := ← setting merged "timezone-offset" usual.timezoneOffset Value.str?
    reportPath := ← setting merged "report-path" none Value.optionalStr? }

end Runbook.Config
