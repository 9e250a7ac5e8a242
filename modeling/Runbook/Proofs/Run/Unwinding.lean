import Runbook.Proofs.Run.Ledger
import Runbook.Proofs.Run.OwnSteps

set_option autoImplicit false

/-!
Unwinding. Where the flag of a run is raised its log is cut in two: before, steps were begun in
programs, one inside the other, and are open; afterwards nothing is begun, and what is open is ended
from the innermost outwards. An action that makes up programs may still enter some on the way, which
begin nothing. A cut tells what is open and what is ended, and it is built up the way the run is,
step by step and program by program.
-/
namespace Runbook

def Program.HasMore (p : Program) (seq : Nat) : Prop :=
  ∃ row ∈ p.rows.drop seq, row.isEmpty = false

namespace Run

def Unbegun (l : Log) : Prop :=
  ∀ e ∈ l, ∀ record, e.what ≠ .began record

theorem Unbegun.nil : Unbegun [] :=
  List.forall_mem_nil _

theorem Unbegun.append {l l' : Log} (h : Unbegun l) (h' : Unbegun l') : Unbegun (l ++ l') := by
  intro e member
  rcases List.mem_append.1 member with first | later
  · exact h e first
  · exact h' e later

theorem Unbegun.singleton {e : LogEntry} (h : ∀ record, e.what ≠ .began record) :
    Unbegun [e] := by
  intro e' member
  rw [List.mem_singleton.1 member]
  exact h

private theorem counters_ledgerAfter {l : Log} (h : Unbegun l) (r : Runner) (b : Ledger) :
    (ledgerAfter r b l).counters =
      (endedSteps l).foldl (fun n s => n.record s.record.status) b.counters := by
  induction l generalizing b with
  | nil => rfl
  | cons e l ih =>
    have rest : Unbegun l := fun e' member => h e' (List.mem_cons_of_mem e member)
    obtain ⟨what, st⟩ := e
    change (ledgerAfter r (what.change r b) l).counters = _
    rw [ih rest]
    cases what with
    | began record => exact absurd rfl (h _ List.mem_cons_self record)
    | entered | ended | interrupted | left => rfl

theorem Replayed.counters_after {r : Runner} {st st' : RunState} {front post : Log} {e : LogEntry}
    (h : Replayed r st (front ++ e :: post) st') (unbegun : Unbegun post) :
    st'.session.counters =
      (endedSteps post).foldl (fun n s => n.record s.record.status) e.state.session.counters := by
  have there : e.state.session.ledger = ledgerAfter r st.session.ledger (front ++ [e]) :=
    h.kept.at_entry
  have total := h.total
  rw [List.append_cons, ledgerAfter_append, ← there] at total
  have counted := congrArg Ledger.counters total
  rw [counters_ledgerAfter unbegun] at counted
  exact counted

def Calm (l : Log) : Prop :=
  ∀ e ∈ l, e.state.interrupted = false

theorem Calm.nil : Calm [] :=
  List.forall_mem_nil _

theorem Calm.append {l l' : Log} (h : Calm l) (h' : Calm l') : Calm (l ++ l') := by
  intro e member
  rcases List.mem_append.1 member with first | later
  · exact h e first
  · exact h' e later

theorem Calm.cons {e : LogEntry} {l : Log} (here : e.state.interrupted = false) (h : Calm l) :
    Calm (e :: l) :=
  List.forall_mem_cons.2 ⟨here, h⟩

theorem Calm.split_unique {l l' m m' : Log} {e e' : LogEntry} (calm : Calm l)
    (raised : e.state.interrupted = true) (calm' : Calm l') (raised' : e'.state.interrupted = true)
    (same : l ++ e :: m = l' ++ e' :: m') : l = l' ∧ e = e' ∧ m = m' := by
  induction l generalizing l' with
  | nil =>
    cases l' with
    | nil =>
      obtain ⟨rfl, rfl⟩ := List.cons.inj same
      exact ⟨rfl, rfl, rfl⟩
    | cons x l' =>
      obtain ⟨rfl, -⟩ := List.cons.inj same
      have lowered := calm' e List.mem_cons_self
      rw [raised] at lowered
      exact nomatch lowered
  | cons x l ih =>
    cases l' with
    | nil =>
      obtain ⟨rfl, -⟩ := List.cons.inj same
      have lowered := calm x List.mem_cons_self
      rw [raised'] at lowered
      exact nomatch lowered
    | cons y l' =>
      obtain ⟨rfl, rest⟩ := List.cons.inj same
      obtain ⟨rfl, rfl, rfl⟩ := ih (fun e member => calm e (List.mem_cons_of_mem x member))
        (fun e member => calm' e (List.mem_cons_of_mem x member)) rest
      exact ⟨rfl, rfl, rfl⟩

structure Still (before after : RunState) : Prop extends Quiet before after where
  same : after.interrupted = before.interrupted

instance : Trans Still Still Still :=
  ⟨fun h h' => ⟨h.toQuiet.trans h'.toQuiet, h'.same.trans h.same⟩⟩

/-- Actions that make up programs do not raise the flag. -/
def CalmHosts (r : Runner) : Prop :=
  ∀ name a script, r.registry.find? name = some a → a.body = .hosting script →
    ∀ call, (script call).Touches fun t => t.interrupts = false

theorem calmHosts_of_plain {r : Runner} (plain : r.registry.Plain) : CalmHosts r := by
  intro name a script found body
  have single := plain.of_find? found
  rw [Action.hosts, body] at single
  cases single

/-- The action of a record that is begun raises the flag. -/
def Interrupting (r : Runner) (baseDir : Option String) (record : Record) (st : RunState) : Prop :=
  let resolved := (record.resolve r.params st.session.vars).1
  record.isActive = true ∧ resolved.hasErrors = false ∧
    ∃ a act, r.registry.find? record.action = some a ∧ a.body = .direct act ∧
      (act (callOf r resolved baseDir (resolvedState r record st))).interrupts = true

section Raising

variable {r : Runner} (calm : CalmHosts r) (deeper : Deeper) (record : Record)
  (baseDir : Option String) (st : RunState)

include calm

private theorem dispatch_still :
    let e := dispatch r deeper record baseDir st
    DescendsBy Still deeper (Under r record) st e.log e.state ∨
      (e.log = [] ∧ Quiet st e.state ∧ e.state.interrupted = true ∧
        ∃ a act, r.registry.find? record.action = some a ∧ a.body = .direct act ∧
          (act (callOf r record baseDir st)).interrupts = true) := by
  have idle : Still st st := ⟨.refl st, rfl⟩
  have touches (st : RunState) (t : Action.Touch) (still : t.interrupts = false) :
      Still st (touched st t) :=
    ⟨quiet_touched st t, by simp [touched, still]⟩
  unfold dispatch
  split
  · exact .inl (.idle idle)
  · cases found : r.registry.find? record.action with
    | none => exact .inl (.idle idle)
    | some a =>
      cases body : a.body with
      | direct act =>
        simp only [body]
        cases asked : (act (callOf r record baseDir st)).interrupts with
        | false => exact .inl (.idle (touches st _ asked))
        | true =>
          exact .inr ⟨trivial, quiet_touched st _, by simp [touched, asked], a, act, rfl, body, asked⟩
      | runProgram =>
        simp only [body]
        rcases runNested_cases r deeper record baseDir st with
          ⟨_, nothing⟩ | ⟨run, child, ok, below, _, ran⟩
        · rw [nothing]
          exact .inl (.idle idle)
        · rw [ran]
          exact .inl (.once idle below (nestedProgram_ok ok) ⟨.refl _, rfl⟩)
      | hosting script =>
        simp only [body]
        exact .inl (perform_descendsBy touches r deeper record baseDir _
          (calm _ a script found body _) st)

/-- While a record is carried out the flag is raised by its own action, which then runs no program,
or in programs that are run. -/
theorem attempt_still :
    let e := attempt r deeper record baseDir st
    DescendsBy Still deeper (Under r record) st e.log e.state ∨
      (e.log = [] ∧ Quiet st e.state ∧ e.state.interrupted = true ∧
        Interrupting r baseDir record st) := by
  cases active : record.isActive with
  | false =>
    rw [attempt_of_inactive active]
    exact .inl (.idle ⟨.refl st, rfl⟩)
  | true =>
    rw [attempt_of_active active]
    have start : Still st (resolvedState r record st) := ⟨quiet_withVars st _, rfl⟩
    have continues := Record.Continues.resolve record r.params st.session.vars
    have same : (record.resolve r.params st.session.vars).1.action = record.action :=
      congrArg Row.actionName continues.row
    have ended (e : Execution) : Still e.state { e.state with
        waited := e.state.waited + r.config.stepDelayMs
        files := (picture r e).2 } := ⟨⟨rfl, rfl, rfl, id⟩, rfl⟩
    simp only [execute]
    unfold dispatchSound
    split
    · exact .inl (.idle (Trans.trans start (ended _)))
    · next sound =>
      rcases dispatch_still calm deeper _ baseDir (resolvedState r record st) with
        descends | ⟨log, quiet, raised, a, act, found, body, asked⟩
      · refine .inl (((descends.after (ended _)).before start).imp fun child under => ?_)
        exact ⟨by rw [under.level, continues.position], under.level_le,
          by rw [under.parentStep, continues.position]⟩
      · rw [same] at found
        exact .inr ⟨log, start.toQuiet.trans (quiet.trans (ended _).toQuiet), raised, active,
          Bool.eq_false_iff.2 sound, a, act, found, body, asked⟩

end Raising

/-- A part of a run that begins when the flag is raised: nothing is begun in it. -/
structure Late (before : RunState) (log : Log) (after : RunState) : Prop where
  unbegun : Unbegun log
  unended : endedSteps log = []
  unleft : leftIn 0 log = []
  settled : othersAfter 0 log = 0
  terminated : after.session.terminated = true ↔ before.session.terminated = true ∨
    ∃ q ∈ log.filterMap LogEntry.entered?, q.HasMore 0
  raised : after.interrupted = true

namespace Late

variable {a b c : RunState} {l l' : Log}

theorem of_still (raised : a.interrupted = true) (still : Still a b) : Late a [] b := by
  refine ⟨.nil, rfl, rfl, rfl, ?_, still.same.trans raised⟩
  simp [still.terminated]

theorem append (h : Late a l b) (h' : Late b l' c) : Late a (l ++ l') c := by
  refine ⟨h.unbegun.append h'.unbegun, ?_, ?_, ?_, ?_, h'.raised⟩
  · rw [endedSteps_append, h.unended, h'.unended]
    rfl
  · rw [leftIn_append, h.unleft, h.settled, h'.unleft]
    rfl
  · rw [othersAfter_append, h.settled, h'.settled]
  · rw [h'.terminated, h.terminated, List.filterMap_append, or_assoc]
    simp only [List.mem_append, or_and_right, exists_or]

end Late

/-- A program that is open when the flag is raised: its record that is begun, how its step ends, and
what it is left with. -/
structure Caught where
  program : Program
  begun : Record
  ended : EndedStep
  summary : FrameSummary

namespace Caught

def openings (c : Caught) : List Opening :=
  [.step c.begun, .program c.program]

/-- It comes to look at the flag: an instruction follows its open step, whose directive does not
stop it alone. -/
def Notices (c : Caught) : Prop :=
  c.program.HasMore c.begun.position.seq ∧ c.ended.directive.quitCase = false

def Terminates (c : Caught) : Prop :=
  c.Notices ∨ c.ended.directive.quitSession = true

structure Unwound (c : Caught) : Prop where
  continues : c.begun.Continues c.ended.record
  isOf : c.summary.IsOf c.program
  last : c.summary.steps.getLast? = some c.ended.record.result
  noticed : c.Notices → c.summary.state = .sessionTerminated

end Caught

/-- A log that is cut where the flag is raised, with what is open there, and ended, left and entered
from then on. -/
structure CutAt (r : Runner) (base : List Opening) (pre : Log) (e : LogEntry) (post : Log)
    (start : RunState) (opened : List Opening) (ended : List EndedStep) (left : List FrameSummary)
    (late : List Program) : Prop where
  calm : Calm pre
  raised : e.state.interrupted = true
  /-- The last entry before begins a step of the innermost program, whose action raises the flag. -/
  raiser : ∃ before record q around, pre = before ++ [⟨.began record, start⟩] ∧
    opened = .step record :: .program q :: around ∧ Interrupting r q.baseDir record start
  opened : ∀ stack, openAfter (base ++ stack) pre = opened ++ stack
  ended : endedSteps (e :: post) = ended
  left : leftIn 0 post = left
  settled : othersAfter 0 post = 0
  late : post.filterMap LogEntry.entered? = late
  unbegun : Unbegun (e :: post)

def Cut (r : Runner) (base : List Opening) (l : Log) (start : RunState) (opened : List Opening)
    (ended : List EndedStep) (left : List FrameSummary) (late : List Program) : Prop :=
  ∃ pre e post, l = pre ++ e :: post ∧ CutAt r base pre e post start opened ended left late

namespace Cut

variable {r : Runner} {base opened : List Opening} {l : Log} {start : RunState}
  {ended : List EndedStep} {left : List FrameSummary} {late : List Program}

theorem after (h : Cut r base l start opened ended left late) {x : Log} (calm : Calm x)
    (balanced : ∀ stack, openAfter stack x = stack) :
    Cut r base (x ++ l) start opened ended left late := by
  obtain ⟨pre, e, post, rfl, here⟩ := h
  refine ⟨x ++ pre, e, post, (List.append_assoc x pre _).symm, ?_⟩
  obtain ⟨before, record, q, around, split, top, asks⟩ := here.raiser
  exact {
    here with
    calm := calm.append here.calm
    raiser := ⟨x ++ before, record, q, around, by rw [split, List.append_assoc], top, asks⟩
    opened := by
      intro stack
      rw [openAfter_append, balanced]
      exact here.opened stack }

theorem append (h : Cut r base l start opened ended left late) {x : Log} (unbegun : Unbegun x)
    (settled : othersAfter 0 x = 0) :
    Cut r base (l ++ x) start opened (ended ++ endedSteps x) (left ++ leftIn 0 x)
      (late ++ x.filterMap LogEntry.entered?) := by
  obtain ⟨pre, e, post, rfl, here⟩ := h
  refine ⟨pre, e, post ++ x, List.append_assoc pre _ x, ?_⟩
  exact {
    here with
    ended := by rw [← List.cons_append, endedSteps_append, here.ended]
    left := by rw [leftIn_append, here.left, here.settled]
    settled := by rw [othersAfter_append, here.settled, settled]
    late := by rw [List.filterMap_append, here.late]
    unbegun := here.unbegun.append unbegun }

theorem entered {p : Program} (h : Cut r [.program p] l start opened ended left late)
    {st : RunState} (calm : st.interrupted = false) :
    Cut r [] (⟨.entered p, st⟩ :: l) start opened ended left late := by
  obtain ⟨pre, e, post, rfl, here⟩ := h
  refine ⟨⟨.entered p, st⟩ :: pre, e, post, rfl, ?_⟩
  obtain ⟨before, record, q, around, rfl, top, asks⟩ := here.raiser
  exact {
    here with
    calm := .cons calm here.calm
    raiser := ⟨⟨.entered p, st⟩ :: before, record, q, around, rfl, top, asks⟩
    opened := here.opened }

theorem called (h : Cut r [] l start opened ended left late) (record : Record) {st : RunState}
    (calm : st.interrupted = false) (p : Program) :
    Cut r [.program p] (⟨.began record, st⟩ :: l) start (opened ++ [.step record, .program p]) ended
      left late := by
  obtain ⟨pre, e, post, rfl, here⟩ := h
  refine ⟨⟨.began record, st⟩ :: pre, e, post, rfl, ?_⟩
  obtain ⟨before, record', q, around, rfl, rfl, asks⟩ := here.raiser
  exact {
    here with
    calm := .cons calm here.calm
    raiser := ⟨⟨.began record, st⟩ :: before, record', q, _, rfl, rfl, asks⟩
    opened := by
      intro stack
      rw [List.append_assoc]
      exact here.opened (.step record :: .program p :: stack) }

theorem raised {p : Program} {record record' : Record} {directive : Directive}
    {st st' : RunState} (calm : st.interrupted = false) (raised : st'.interrupted = true)
    (asks : Interrupting r p.baseDir record st) :
    Cut r [.program p] [⟨.began record, st⟩, ⟨.ended record' directive, st'⟩] st
      [.step record, .program p] [⟨record', directive⟩] [] [] := by
  refine ⟨[⟨.began record, st⟩], ⟨.ended record' directive, st'⟩, [], rfl, ?_⟩
  exact {
    calm := .cons calm .nil
    raised
    raiser := ⟨[], record, p, [], rfl, rfl, asks⟩
    opened := fun _ => rfl
    ended := rfl
    left := rfl
    settled := rfl
    late := rfl
    unbegun := .singleton (by rintro record ⟨⟩) }

end Cut

theorem programs_openings (caught : List Caught) :
    (caught.flatMap Caught.openings).filterMap Opening.program? = caught.map (·.program) := by
  induction caught with
  | nil => rfl
  | cons c rest ih =>
    rw [List.flatMap_cons, List.filterMap_append, ih]
    rfl

theorem records_openings (caught : List Caught) :
    (caught.flatMap Caught.openings).filterMap Opening.record? = caught.map (·.begun) := by
  induction caught with
  | nil => rfl
  | cons c rest ih =>
    rw [List.flatMap_cons, List.filterMap_append, ih]
    rfl

end Run
end Runbook
