import Runbook.Record

set_option autoImplicit false

/-!
Programs: rows to be carried out one after the other at one level of nesting.
-/
namespace Runbook

/-- The step that started a program. -/
structure Program.Parent where
  step : Nat
  level : Nat
  id : String
  action : String
  deriving DecidableEq, Inhabited

structure Program where
  name : String
  rows : List Row
  level : Nat := 1
  parent : Option Program.Parent := none
  /-- The directory that file names in it are taken from. -/
  baseDir : Option String := none
  deriving DecidableEq, Inhabited

namespace Program

def Parent.ofRecord (r : Record) : Parent :=
  ⟨r.position.step, r.position.level, r.row.id, r.action⟩

/-- A program started by a record, one level below it. -/
def childOf (r : Record) (name : String) (rows : List Row) (baseDir : Option String) : Program :=
  ⟨name, rows, r.position.level + 1, some (.ofRecord r), baseDir⟩

/-- The number of the step that started the program, 0 for the outermost. -/
def parentStep (p : Program) : Nat :=
  (p.parent.map (·.step)).getD 0

end Program
end Runbook
