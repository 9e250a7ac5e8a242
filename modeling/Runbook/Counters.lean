import Runbook.Status
import Runbook.Text.Decimal

set_option autoImplicit false

/-!
Step counters. A step is counted as begun when it is picked up and under its outcome when it is
finished; counters are balanced when no step is open.
-/
namespace Runbook

structure Counters where
  done : Nat := 0
  pass : Nat := 0
  fail : Nat := 0
  skip : Nat := 0
  deriving DecidableEq, Repr, Inhabited

namespace Counters

/-- No step counted. -/
def zero : Counters := {}

/-- One more step begun. -/
def begin (c : Counters) : Counters :=
  { c with done := c.done + 1 }

/-- One more step finished. -/
def record (c : Counters) : Status → Counters
  | .pass => { c with pass := c.pass + 1 }
  | .fail => { c with fail := c.fail + 1 }
  | .skip => { c with skip := c.skip + 1 }

def add (a b : Counters) : Counters :=
  ⟨a.done + b.done, a.pass + b.pass, a.fail + b.fail, a.skip + b.skip⟩

instance : Add Counters := ⟨add⟩

/-- No step is open. -/
def Balanced (c : Counters) : Prop :=
  c.done = c.pass + c.fail + c.skip

instance (c : Counters) : Decidable c.Balanced :=
  inferInstanceAs (Decidable (_ = _))

def hasFailures (c : Counters) : Bool :=
  0 < c.fail

def text (c : Counters) : String :=
  "done=" ++ Text.decimal c.done ++ " pass=" ++ Text.decimal c.pass ++ " fail=" ++
    Text.decimal c.fail ++ " skip=" ++ Text.decimal c.skip

end Counters
end Runbook
