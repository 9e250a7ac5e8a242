import Mathlib.Algebra.BigOperators.Group.List.Basic
import Mathlib.Tactic.Abel
import Runbook.Record
import Runbook.Session

set_option autoImplicit false

/-!
Counters as sums. Counters add up componentwise, and the counters of finished steps are the sum of
one count for each step.
-/
namespace Runbook.Counters

attribute [ext] Counters

instance : Zero Counters := ⟨zero⟩

@[simp] theorem done_zero : (0 : Counters).done = 0 := rfl
@[simp] theorem pass_zero : (0 : Counters).pass = 0 := rfl
@[simp] theorem fail_zero : (0 : Counters).fail = 0 := rfl
@[simp] theorem skip_zero : (0 : Counters).skip = 0 := rfl
@[simp] theorem done_add (a b : Counters) : (a + b).done = a.done + b.done := rfl
@[simp] theorem pass_add (a b : Counters) : (a + b).pass = a.pass + b.pass := rfl
@[simp] theorem fail_add (a b : Counters) : (a + b).fail = a.fail + b.fail := rfl
@[simp] theorem skip_add (a b : Counters) : (a + b).skip = a.skip + b.skip := rfl

instance : AddCommMonoid Counters where
  add_assoc a b c := by ext <;> simp [Nat.add_assoc]
  zero_add a := by ext <;> simp
  add_zero a := by ext <;> simp
  add_comm a b := by ext <;> simp [Nat.add_comm]
  nsmul := nsmulRec

def ofStatus (s : Status) : Counters :=
  (0 : Counters).begin.record s

theorem record_begin (c : Counters) (s : Status) : c.begin.record s = c + ofStatus s := by
  cases s <;> ext <;> simp [begin, record, ofStatus]

theorem record_begin_add (c d : Counters) (s : Status) :
    (c.begin + d).record s = c + (d + ofStatus s) := by
  cases s <;> ext <;> simp [begin, record, ofStatus] <;> omega

def ofSteps (l : List StepResult) : Counters :=
  (l.map fun s => ofStatus s.status).sum

@[simp] theorem ofSteps_nil : ofSteps [] = 0 := rfl

@[simp] theorem ofSteps_cons (s : StepResult) (l : List StepResult) :
    ofSteps (s :: l) = ofStatus s.status + ofSteps l :=
  List.sum_cons

@[simp] theorem ofSteps_append (l l' : List StepResult) :
    ofSteps (l ++ l') = ofSteps l + ofSteps l' := by
  simp [ofSteps]

theorem ofSteps_perm {l l' : List StepResult} (h : l.Perm l') : ofSteps l = ofSteps l' :=
  (h.map fun s : StepResult => ofStatus s.status).sum_eq

theorem ofSteps_flatMap {α : Type} (f : α → List StepResult) (l : List α) :
    ofSteps (l.flatMap f) = (l.map fun a => ofSteps (f a)).sum := by
  induction l with
  | nil => rfl
  | cons a l ih => simp [ih]

theorem done_ofSteps (l : List StepResult) : (ofSteps l).done = l.length := by
  induction l with
  | nil => rfl
  | cons s l ih =>
    have one : (ofStatus s.status).done = 1 := by cases s.status <;> rfl
    rw [ofSteps_cons, done_add, one, ih, List.length_cons, Nat.add_comm]

def under (c : Counters) : Status → Nat
  | .pass => c.pass
  | .fail => c.fail
  | .skip => c.skip

@[simp] theorem under_add (a b : Counters) (x : Status) :
    (a + b).under x = a.under x + b.under x := by
  cases x <;> rfl

private theorem under_ofStatus (s x : Status) : (ofStatus s).under x = if s = x then 1 else 0 := by
  cases s <;> cases x <;> rfl

theorem under_ofSteps (l : List StepResult) (x : Status) :
    (ofSteps l).under x = l.countP fun s => s.status = x := by
  induction l with
  | nil => cases x <;> rfl
  | cons s l ih =>
    rw [ofSteps_cons, under_add, ih, under_ofStatus, List.countP_cons, Nat.add_comm]
    simp

theorem balanced_ofSteps (l : List StepResult) : (ofSteps l).Balanced := by
  induction l with
  | nil => rfl
  | cons s l ih =>
    have one : (ofStatus s.status).Balanced := by cases s.status <;> rfl
    simp only [Balanced, ofSteps_cons, done_add, pass_add, fail_add, skip_add] at *
    omega

theorem hasFailures_ofSteps (l : List StepResult) :
    (ofSteps l).hasFailures = false ↔ ∀ s ∈ l, s.status ≠ .fail := by
  have fails := under_ofSteps l .fail
  simp only [under] at fails
  simp [hasFailures, fails]

end Runbook.Counters
