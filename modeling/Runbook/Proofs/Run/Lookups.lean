import Runbook.Proofs.Run.Nesting

set_option autoImplicit false

/-!
Which programs the steps of a run look up. A step that runs a program looks for it from the
directory of the program that it stands in itself, the innermost that is open. What is looked up in
a run is what is looked up in its parts, each part with what was open before it.
-/
namespace Runbook

def Record.reference (r : Record) : String :=
  Text.trimmed ((r.param? Run.referenceKey).getD "")

def Runner.runsPrograms (r : Runner) (action : String) : Bool :=
  match (r.registry.find? action).map Action.body with
  | some .runProgram => true
  | _ => false

theorem Runner.runsPrograms_of_found {r : Runner} {action : String} {a : Action}
    (found : r.registry.find? action = some a) (body : a.body = .runProgram) :
    r.runsPrograms action = true := by
  rw [runsPrograms, found, Option.map_some, body]

theorem Runner.runsPrograms_of_hosts {r : Runner} {action : String} {a : Action}
    (found : r.registry.find? action = some a) (hosts : a.hosts = true) :
    r.runsPrograms action = false := by
  rw [runsPrograms, found, Option.map_some]
  cases body : a.body with
  | direct act => rfl
  | hosting script => rfl
  | runProgram =>
    rw [Action.hosts, body] at hosts
    cases hosts

namespace Run

/-- A reference to a program and the directory from which it is looked up. -/
structure Lookup where
  reference : String
  dir : Option String
  deriving DecidableEq

def LogEntry.lookup? (r : Runner) (stack : List Opening) (e : LogEntry) : Option Lookup :=
  match e.what with
  | .ended record _ =>
    if r.runsPrograms record.action then
      some ⟨record.reference, (stack.filterMap Opening.program?).head?.bind (·.baseDir)⟩
    else none
  | _ => none

/-- What the steps of a log have looked up, given what was open before it. -/
def lookups (r : Runner) : List Opening → Log → List Lookup
  | _, [] => []
  | stack, e :: l => (e.lookup? r stack).toList ++ lookups r (e.openings stack) l

variable {r : Runner}

theorem lookups_append (stack : List Opening) (l l' : Log) :
    lookups r stack (l ++ l') = lookups r stack l ++ lookups r (openAfter stack l) l' := by
  induction l generalizing stack with
  | nil => rfl
  | cons e l ih => rw [List.cons_append, lookups, ih, lookups, List.append_assoc, openAfter_cons]

theorem lookups_frame (inner : Log) (p : Program) (f : FrameSummary)
    (st st' : RunState) (stack : List Opening) :
    lookups r stack (⟨.entered p, st⟩ :: inner ++ [⟨.left f, st'⟩]) =
      lookups r (.program p :: stack) inner := by
  rw [List.cons_append, lookups, lookups_append]
  exact List.append_nil _

theorem lookups_step {inner : Log} (closed : ∀ stack, openAfter stack inner = stack)
    (record record' : Record) (directive : Directive) (p : Program) (st st' : RunState)
    (stack : List Opening) :
    lookups r (.program p :: stack)
        (⟨.began record, st⟩ :: inner ++ [⟨.ended record' directive, st'⟩]) =
      lookups r (.step record :: .program p :: stack) inner ++
        if r.runsPrograms record'.action then [⟨record'.reference, p.baseDir⟩] else [] := by
  rw [List.cons_append, lookups, lookups_append]
  change lookups r (.step record :: .program p :: stack) inner ++
    lookups r (openAfter (.step record :: .program p :: stack) inner) _ = _
  rw [closed]
  simp only [lookups, LogEntry.lookup?, List.append_nil]
  split
  · rfl
  · rfl

end Run
end Runbook
