import Mathlib.Data.List.Forall2
import Runbook.Proofs.Run.Log
import Runbook.Proofs.Run.Step

set_option autoImplicit false

/-!
Logs are well nested. What is open at a point of a log is a stack of programs and steps, the
innermost first: a program is left and a step is ended only when it is the innermost, and each
program is reported as the one that was entered.
-/
namespace Runbook

/-- A summary under the name, the level and the calling step of a program. -/
structure FrameSummary.IsOf (f : FrameSummary) (p : Program) : Prop where
  program : f.program = p.name
  level : f.level = p.level
  parentStep : f.parentStep = p.parentStep

namespace Run

/-- What is open in a run: a program that was entered or a step that was begun. -/
inductive Opening
  | program (p : Program)
  | step (record : Record)

def Opening.program? : Opening → Option Program
  | .program p => some p
  | .step _ => none

def Opening.record? : Opening → Option Record
  | .program _ => none
  | .step record => some record

def LogEntry.openings (e : LogEntry) (stack : List Opening) : List Opening :=
  match e.what with
  | .entered p => .program p :: stack
  | .began record => .step record :: stack
  | .interrupted _ => stack
  | .ended _ _ => stack.tail
  | .left _ => stack.tail

def openAfter (stack : List Opening) (l : Log) : List Opening :=
  l.foldl (fun stack e => e.openings stack) stack

/-- The programs that are open after a log, the innermost first. -/
def openPrograms (l : Log) : List Program :=
  (openAfter [] l).filterMap Opening.program?

def openSteps (l : Log) : List Record :=
  (openAfter [] l).filterMap Opening.record?

theorem openAfter_append (stack : List Opening) (l l' : Log) :
    openAfter stack (l ++ l') = openAfter (openAfter stack l) l' :=
  List.foldl_append

theorem openAfter_cons (stack : List Opening) (e : LogEntry) (l : Log) :
    openAfter stack (e :: l) = openAfter (e.openings stack) l :=
  rfl

/-- The parts that logs are made of: what the rows of a program do, and the programs that are run
in a step. -/
inductive Part
  | rows
  | calls

/-- Logs of such parts: steps with the programs they run in between, and perhaps an interrupt at the
end. -/
inductive PartLog : Part → Log → Prop
  | nil (part : Part) : PartLog part []
  | interrupted (seq : Nat) (st : RunState) : PartLog .rows [⟨.interrupted seq, st⟩]
  | step {record record' : Record} {calls l : Log} (directive : Directive) (st st' : RunState) :
      record.Continues record' → PartLog .calls calls → PartLog .rows l →
        PartLog .rows (⟨.began record, st⟩ :: calls ++ ⟨.ended record' directive, st'⟩ :: l)
  | call {p : Program} {f : FrameSummary} {inner l : Log} (st st' : RunState) :
      f.IsOf p → PartLog .rows inner → PartLog .calls l →
        PartLog .calls (⟨.entered p, st⟩ :: inner ++ ⟨.left f, st'⟩ :: l)

abbrev RowsLog : Log → Prop := PartLog .rows

abbrev CallsLog : Log → Prop := PartLog .calls

/-- Logs of a program: it is entered, its rows are carried out, and it is left. -/
inductive FrameLog (p : Program) : Log → Prop
  | intro {f : FrameSummary} {inner : Log} (st st' : RunState) :
      f.IsOf p → RowsLog inner → FrameLog p (⟨.entered p, st⟩ :: inner ++ [⟨.left f, st'⟩])

/-- Induction over the programs that were run in a step, each with its rows as a whole. -/
@[elab_as_elim]
theorem CallsLog.induct {motive : (l : Log) → CallsLog l → Prop} (nil : motive [] (.nil _))
    (call : ∀ {p : Program} {f : FrameSummary} {inner l : Log} (st st' : RunState)
      (isOf : f.IsOf p) (rows : RowsLog inner) (later : CallsLog l),
      motive l later → motive _ (.call st st' isOf rows later))
    {l : Log} (h : CallsLog l) : motive l h := by
  suffices all : ∀ part l, PartLog part l → part = .calls → ∀ h : CallsLog l, motive l h from
    all _ _ h rfl h
  intro part l h
  induction h with
  | nil => exact fun _ _ => nil
  | interrupted => intro calls; cases calls
  | step => intro calls; cases calls
  | call st st' isOf rows later _ ih =>
    exact fun _ _ => call st st' isOf rows later (ih rfl later)

/-- Induction over rows that were carried out, each with its calls as a whole. -/
@[elab_as_elim]
theorem RowsLog.induct {motive : (l : Log) → RowsLog l → Prop} (nil : motive [] (.nil _))
    (interrupted : ∀ seq st, motive _ (.interrupted seq st))
    (step : ∀ {record record' : Record} {calls l : Log} (directive : Directive)
      (st st' : RunState) (same : record.Continues record') (balanced : CallsLog calls)
      (later : RowsLog l), motive l later → motive _ (.step directive st st' same balanced later))
    {l : Log} (h : RowsLog l) : motive l h := by
  suffices all : ∀ part l, PartLog part l → part = .rows → ∀ h : RowsLog l, motive l h from
    all _ _ h rfl h
  intro part l h
  induction h with
  | nil => exact fun _ _ => nil
  | interrupted seq st => exact fun _ _ => interrupted seq st
  | step directive st st' same balanced later _ ih =>
    exact fun _ _ => step directive st st' same balanced later (ih rfl later)
  | call => intro rows; cases rows

theorem FrameLog.callsLog {p : Program} {l : Log} (h : FrameLog p l) : CallsLog l := by
  obtain ⟨st, st', isOf, inner⟩ := h
  exact .call st st' isOf inner (.nil _)

/-- A log that is over with all that is open: each entry that closes something closes the innermost
opening, and nothing stays open. -/
def Closes : List Opening → Log → Prop
  | stack, [] => stack = []
  | stack, e :: l =>
    match e.what with
    | .entered p => Closes (.program p :: stack) l
    | .began record => Closes (.step record :: stack) l
    | .interrupted _ => Closes stack l
    | .ended record _ =>
      ∃ begun rest, stack = .step begun :: rest ∧ begun.Continues record ∧ Closes rest l
    | .left f => ∃ p rest, stack = .program p :: rest ∧ f.IsOf p ∧ Closes rest l

theorem PartLog.closes_append {part : Part} {l : Log} (h : PartLog part l) {stack : List Opening}
    {l' : Log} (rest : Closes stack l') : Closes stack (l ++ l') := by
  induction h generalizing stack l' with
  | nil => exact rest
  | interrupted seq st => exact rest
  | @step record _ calls l directive st st' same _ _ ih ih' =>
    rw [List.append_assoc]
    change Closes (.step record :: stack) (calls ++ _)
    exact ih ⟨record, stack, rfl, same, ih' rest⟩
  | @call p _ inner l st st' isOf _ _ ih ih' =>
    rw [List.append_assoc]
    change Closes (.program p :: stack) (inner ++ _)
    exact ih ⟨p, stack, rfl, isOf, ih' rest⟩

theorem FrameLog.closes {p : Program} {l : Log} (h : FrameLog p l) : Closes [] l := by
  obtain ⟨st, st', isOf, inner⟩ := h
  exact inner.closes_append ⟨p, [], rfl, isOf, rfl⟩

theorem Closes.after {stack : List Opening} {l l' : Log} (h : Closes stack (l ++ l')) :
    Closes (openAfter stack l) l' := by
  induction l generalizing stack with
  | nil => exact h
  | cons e l ih =>
    obtain ⟨what, st⟩ := e
    cases what with
    | entered p => exact ih h
    | began record => exact ih h
    | interrupted seq => exact ih h
    | ended record directive =>
      obtain ⟨begun, rest, rfl, _, closed⟩ := h
      change Closes (openAfter rest l) l'
      exact ih closed
    | left f =>
      obtain ⟨p, rest, rfl, _, closed⟩ := h
      change Closes (openAfter rest l) l'
      exact ih closed

/-- The programs that were open before a log and are left in it, when so many others are open that
were entered in between. -/
def leftIn : Nat → Log → List FrameSummary
  | _, [] => []
  | others, e :: l =>
    match e.what, others with
    | .entered _, _ => leftIn (others + 1) l
    | .left f, 0 => f :: leftIn 0 l
    | .left _, others + 1 => leftIn others l
    | _, _ => leftIn others l

/-- How many programs are open that were entered in a log, when so many were before it. -/
def othersAfter (others : Nat) (l : Log) : Nat :=
  l.foldl (fun others e =>
    match e.what with
    | .entered _ => others + 1
    | .left _ => others - 1
    | _ => others) others

theorem othersAfter_append (others : Nat) (l l' : Log) :
    othersAfter others (l ++ l') = othersAfter (othersAfter others l) l' :=
  List.foldl_append

theorem PartLog.othersAfter_eq {part : Part} {l : Log} (h : PartLog part l) (others : Nat) :
    othersAfter others l = others := by
  induction h generalizing others with
  | nil => rfl
  | interrupted seq st => rfl
  | @step record record' calls l directive st st' _ _ _ ih ih' =>
    rw [othersAfter_append]
    change othersAfter (othersAfter others calls) l = others
    rw [ih, ih']
  | @call p f inner l st st' _ _ _ ih ih' =>
    rw [othersAfter_append]
    change othersAfter (othersAfter (others + 1) inner - 1) l = others
    rw [ih, Nat.add_sub_cancel, ih']

theorem leftIn_append (others : Nat) (l l' : Log) :
    leftIn others (l ++ l') = leftIn others l ++ leftIn (othersAfter others l) l' := by
  induction l generalizing others with
  | nil => rfl
  | cons e l ih =>
    obtain ⟨what, st⟩ := e
    cases what with
    | entered p => exact ih (others + 1)
    | began record => exact ih others
    | interrupted seq => exact ih others
    | ended record directive => exact ih others
    | left f =>
      cases others with
      | zero => exact congrArg (f :: ·) (ih 0)
      | succ others => exact ih others

theorem mem_leftIn {others : Nat} {l : Log} {f : FrameSummary} (h : f ∈ leftIn others l) :
    ∃ x st y, l = x ++ ⟨.left f, st⟩ :: y ∧ othersAfter others x = 0 := by
  induction l generalizing others with
  | nil => exact absurd h List.not_mem_nil
  | cons e l ih =>
    have later {others' : Nat} (next : othersAfter others [e] = others') (h : f ∈ leftIn others' l) :
        ∃ x st y, e :: l = x ++ ⟨.left f, st⟩ :: y ∧ othersAfter others x = 0 := by
      obtain ⟨x, st, y, rfl, settled⟩ := ih h
      exact ⟨e :: x, st, y, rfl, by rw [← settled, ← next]; rfl⟩
    obtain ⟨what, st⟩ := e
    cases what with
    | entered p => exact later rfl h
    | began record => exact later rfl h
    | interrupted seq => exact later rfl h
    | ended record directive => exact later rfl h
    | left f' =>
      cases others with
      | succ others => exact later rfl h
      | zero =>
        rcases List.mem_cons.1 h with rfl | h
        · exact ⟨[], st, l, rfl, rfl⟩
        · exact later rfl h

/-- The programs that are open are left one after the other, from the innermost outwards. -/
theorem Closes.leftIn {stack : List Opening} {l : Log} (h : Closes stack l) (others : Nat) :
    List.Forall₂ FrameSummary.IsOf (leftIn others l)
      ((stack.filterMap Opening.program?).drop others) := by
  induction l generalizing stack others with
  | nil =>
    obtain rfl : stack = [] := h
    rw [List.filterMap_nil, List.drop_nil]
    exact .nil
  | cons e l ih =>
    obtain ⟨what, st⟩ := e
    cases what with
    | entered p => exact @ih (.program p :: stack) h (others + 1)
    | began record => exact @ih (.step record :: stack) h others
    | interrupted seq => exact ih h others
    | ended record directive =>
      obtain ⟨begun, rest, rfl, _, closed⟩ := h
      exact ih closed others
    | left f =>
      obtain ⟨p, rest, rfl, same, closed⟩ := h
      cases others with
      | zero => exact .cons same (ih closed 0)
      | succ others => exact ih closed others

structure Stacks {α : Type} (keep : List α → LogEntry → List α) : Prop where
  entered : ∀ p st, ∃ x, ∀ stack, keep stack ⟨.entered p, st⟩ = x :: stack
  began : ∀ record st, ∃ x, ∀ stack, keep stack ⟨.began record, st⟩ = x :: stack
  interrupted : ∀ seq st stack, keep stack ⟨.interrupted seq, st⟩ = stack
  ended : ∀ record directive st stack, keep stack ⟨.ended record directive, st⟩ = stack.tail
  left : ∀ f st stack, keep stack ⟨.left f, st⟩ = stack.tail

theorem PartLog.foldl_eq {α : Type} {keep : List α → LogEntry → List α} (kept : Stacks keep)
    {part : Part} {l : Log} (h : PartLog part l) (stack : List α) :
    l.foldl keep stack = stack := by
  induction h generalizing stack with
  | nil => rfl
  | interrupted seq st => exact kept.interrupted seq st stack
  | @step record record' calls l directive st st' _ _ _ ih ih' =>
    obtain ⟨x, began⟩ := kept.began record st
    rw [List.foldl_append, List.foldl_cons, kept.ended, List.foldl_cons, began, ih]
    exact ih' stack
  | @call p f inner l st st' _ _ _ ih ih' =>
    obtain ⟨x, entered⟩ := kept.entered p st
    rw [List.foldl_append, List.foldl_cons, kept.left, List.foldl_cons, entered, ih]
    exact ih' stack

theorem PartLog.openAfter_eq {part : Part} {l : Log} (h : PartLog part l) (stack : List Opening) :
    openAfter stack l = stack :=
  h.foldl_eq ⟨fun _ _ => ⟨_, fun _ => rfl⟩, fun _ _ => ⟨_, fun _ => rfl⟩, fun _ _ _ => rfl,
    fun _ _ _ _ => rfl, fun _ _ _ => rfl⟩ stack

private theorem prefix_append_cases {x l l' : Log} (h : x <+: l ++ l') :
    x <+: l ∨ ∃ y, x = l ++ y ∧ y <+: l' := by
  rcases List.prefix_or_prefix_of_prefix h (List.prefix_append l l') with within | beyond
  · exact .inl within
  · obtain ⟨y, rfl⟩ := beyond
    exact .inr ⟨y, rfl, (List.prefix_append_right_inj l).1 h⟩

section Brackets

variable {o : Opening} {e e' : LogEntry} {inner l x : Log}

private theorem prefix_bracket_cases (first : x <+: e :: inner ++ e' :: l) :
    x = [] ∨ (∃ y, x = e :: y ∧ y <+: inner) ∨ ∃ z, x = e :: inner ++ e' :: z ∧ z <+: l := by
  rcases prefix_append_cases first with within | ⟨y, rfl, beyond⟩
  · rcases List.prefix_cons_iff.1 within with rfl | ⟨y, rfl, rest⟩
    · exact .inl rfl
    · exact .inr (.inl ⟨y, rfl, rest⟩)
  · rcases List.prefix_cons_iff.1 beyond with rfl | ⟨z, rfl, rest⟩
    · exact .inr (.inl ⟨inner, List.append_nil _, List.prefix_refl _⟩)
    · exact .inr (.inr ⟨z, rfl, rest⟩)

theorem eq_bracket_cases {last : LogEntry} {y : Log}
    (split : e :: inner ++ [last] = x ++ e' :: y) :
    e' = e ∨ e' = last ∨ ∃ x' y', x = e :: x' ∧ inner = x' ++ e' :: y' := by
  cases x with
  | nil => exact .inl (List.cons.inj split).1.symm
  | cons e₀ x =>
    obtain ⟨rfl, rest⟩ := List.cons.inj split
    rcases List.eq_nil_or_concat y with rfl | ⟨y, last', rfl⟩
    · obtain ⟨-, same⟩ := List.append_inj' rest rfl
      exact .inr (.inl (List.cons.inj same).1.symm)
    · rw [List.concat_eq_append] at rest
      have whole : inner ++ [last] = (x ++ e' :: y) ++ [last'] := by
        rw [List.append_assoc]
        exact rest
      exact .inr (.inr ⟨x, y, rfl, (List.append_inj' whole rfl).1⟩)

private theorem openAfter_bracket (opens : ∀ stack, e.openings stack = o :: stack)
    (closes : ∀ stack, e'.openings stack = stack.tail)
    (balanced : ∀ stack, openAfter stack inner = stack) (stack : List Opening) :
    openAfter stack (e :: inner ++ e' :: l) = openAfter stack l := by
  rw [openAfter_append, openAfter_cons, closes, openAfter_cons, opens, balanced]
  rfl

private theorem openAfter_eq_append_bracket (opens : ∀ stack, e.openings stack = o :: stack)
    (closes : ∀ stack, e'.openings stack = stack.tail)
    (balanced : ∀ stack, openAfter stack inner = stack)
    (within : ∀ x, x <+: inner → ∀ stack, openAfter stack x = openAfter [] x ++ stack)
    (after : ∀ x, x <+: l → ∀ stack, openAfter stack x = openAfter [] x ++ stack)
    (first : x <+: e :: inner ++ e' :: l) (stack : List Opening) :
    openAfter stack x = openAfter [] x ++ stack := by
  rcases prefix_bracket_cases first with rfl | ⟨y, rfl, rest⟩ | ⟨z, rfl, rest⟩
  · rfl
  · rw [openAfter_cons, opens, within y rest, openAfter_cons, opens, within y rest [o],
      List.append_assoc, List.singleton_append]
  · rw [openAfter_bracket opens closes balanced, openAfter_bracket opens closes balanced]
    exact after z rest stack

end Brackets

/-- What was open before a first part of a log stays open below what the part leaves open. -/
theorem PartLog.openAfter_eq_append {part : Part} {l : Log} (h : PartLog part l) (x : Log)
    (first : x <+: l) (stack : List Opening) : openAfter stack x = openAfter [] x ++ stack := by
  induction h generalizing x stack with
  | nil =>
    obtain rfl := List.prefix_nil.1 first
    rfl
  | interrupted seq st =>
    rcases List.prefix_cons_iff.1 first with rfl | ⟨y, rfl, rest⟩
    · rfl
    · obtain rfl := List.prefix_nil.1 rest
      rfl
  | step directive st st' _ balanced _ ih ih' =>
    exact openAfter_eq_append_bracket (fun _ => rfl) (fun _ => rfl) balanced.openAfter_eq ih ih'
      first stack
  | call st st' _ balanced _ ih ih' =>
    exact openAfter_eq_append_bracket (fun _ => rfl) (fun _ => rfl) balanced.openAfter_eq ih ih'
      first stack

theorem PartLog.suffix_openAfter {part : Part} {l : Log} (h : PartLog part l) (x : Log)
    (first : x <+: l) (stack : List Opening) : stack <:+ openAfter stack x :=
  ⟨_, (h.openAfter_eq_append x first stack).symm⟩

private theorem not_closed {stack : List Opening} {record : Record} {x : Log}
    (h : .step record :: stack <:+ openAfter (.step record :: stack) x) :
    (openAfter (.step record :: stack) x).filterMap Opening.record? ≠ [] := by
  obtain ⟨above, same⟩ := h
  rw [← same, List.filterMap_append]
  exact List.append_ne_nil_of_right_ne_nil _ (List.cons_ne_nil record _)

theorem RowsLog.of_prefix {l : Log} (h : RowsLog l) (x : Log) (first : x <+: l)
    (stack : List Opening) (closed : (openAfter stack x).filterMap Opening.record? = []) :
    RowsLog x := by
  induction h using RowsLog.induct generalizing x with
  | nil =>
    obtain rfl := List.prefix_nil.1 first
    exact .nil _
  | interrupted seq st =>
    rcases List.prefix_cons_iff.1 first with rfl | ⟨y, rfl, rest⟩
    · exact .nil _
    · obtain rfl := List.prefix_nil.1 rest
      exact .interrupted seq st
  | step directive st st' same balanced _ ih =>
    rcases prefix_bracket_cases first with rfl | ⟨y, rfl, rest⟩ | ⟨z, rfl, rest⟩
    · exact .nil _
    · exact absurd closed (not_closed (balanced.suffix_openAfter y rest _))
    · rw [openAfter_bracket (fun _ => rfl) (fun _ => rfl) balanced.openAfter_eq] at closed
      exact .step directive st st' same balanced (ih z rest closed)

variable {r : Runner} {deeper : Deeper}

theorem CallsLog.append {l l' : Log} (h : CallsLog l) (h' : CallsLog l') : CallsLog (l ++ l') := by
  induction h using CallsLog.induct with
  | nil => exact h'
  | call st st' isOf rows _ ih =>
    rw [List.append_assoc, List.cons_append]
    exact .call st st' isOf rows ih

theorem DescendsBy.callsLog {between : RunState → RunState → Prop} {fits : Program → Prop}
    {st st' : RunState} {log : Log}
    (h : ∀ run, deeper = some run → ∀ p st, FrameLog p (run p st).log)
    (descends : DescendsBy between deeper fits st log st') : CallsLog log :=
  descends.fold (R := fun _ l _ => CallsLog l) (fun _ => .nil _) .append
    fun run deep child _ st => (h run deep child st).callsLog

theorem step_rowsLog (h : ∀ run, deeper = some run → ∀ p st, FrameLog p (run p st).log)
    (p : Program) (seq : Nat) (row : Row) (skips : Nat) (st : RunState) {l : Log}
    (rest : RowsLog l) : RowsLog ((step r deeper p seq row skips st).log ++ l) := by
  obtain ⟨record, e, same, -, continues, descends⟩ := step_cases r deeper p seq row skips st
  rw [same, finished, List.append_assoc]
  exact .step _ _ _ continues (descends.callsLog h) rest

theorem rows_rowsLog (h : ∀ run, deeper = some run → ∀ p st, FrameLog p (run p st).log)
    (p : Program) (l : List Row) (seq skips : Nat) (g : Progress) (st : RunState) :
    RowsLog (rows r deeper p l seq skips g st).log := by
  fun_induction rows r deeper p l seq skips g st with
  | case1 seq skips g st => exact .nil _
  | case2 row rest seq skips g st empty ih => exact ih
  | case3 row rest seq skips g st _ _ stopped => exact .interrupted seq stopped
  | case4 row rest seq skips g st _ _ s g' reason _ =>
    rw [← List.append_nil s.log]
    exact step_rowsLog h p seq row skips st (.nil _)
  | case5 row rest seq skips g st _ _ s g' _ more ih => exact step_rowsLog h p seq row skips st ih

theorem frameAt_frameLog (r : Runner) (depth : Nat) (p : Program) (st : RunState) :
    FrameLog p (frameAt r depth p st).log :=
  frameAt_induction (P := fun p _ f => FrameLog p f.log)
    (fun _ h p st => .intro _ _ ⟨rfl, rfl, rfl⟩ (rows_rowsLog h p p.rows 1 0 {} st)) depth p st

theorem getLast?_frameAt (r : Runner) (depth : Nat) (p : Program) (st : RunState) :
    let f := frameAt r depth p st
    f.log.getLast? = some ⟨.left f.summary, f.state⟩ ∧ f.summary.IsOf p :=
  frameAt_induction
    (P := fun p _ f => f.log.getLast? = some ⟨.left f.summary, f.state⟩ ∧ f.summary.IsOf p)
    (fun _ _ _ _ => ⟨List.getLast?_concat, rfl, rfl, rfl⟩) depth p st

def noteRow (parameters : String) : Row :=
  { id := "note", action := "Comment", parameters }

def callRow : Row :=
  { id := "call", action := "RunProgram", parameters := "InputSpecs=inline:child" }

def caller : Program :=
  { name := "caller", rows := [callRow, noteRow ""] }

/-- A runner under which a program is registered as `child`. -/
def withChild (child : List Row) : Runner :=
  { inline := .ofList [("child", child)] }

/-- The script of an action that runs programs one after the other, whatever comes of them. -/
def hostScript : List (List Row) → Action.Call → Action.Script
  | [], call => .answer { vars := call.session.vars, answer := .ok {} }
  | rows :: rest, call =>
    .run { vars := call.session.vars } "part" rows none fun _ call => hostScript rest call

/-- The runner with an action that runs programs of its own. -/
def hosting (r : Runner) (programs : List (List Row)) : Runner :=
  { r with
    registry := r.registry.register { name := "Host", body := .hosting (hostScript programs) } }

def host : Program :=
  { name := "host", rows := [{ id := "host", action := "Host" }, noteRow ""] }

def look : Action where
  name := "Look"
  interactive := true
  body := .direct fun call => { vars := call.session.vars, answer := .ok {} }

end Run
end Runbook
