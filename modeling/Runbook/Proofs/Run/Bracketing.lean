import Runbook.Proofs.Report.Jsonl
import Runbook.Proofs.Run.Numbering

set_option autoImplicit false

/-!
The order of reports. Steps take their numbers when they are begun but are reported when they are
over, so that what is reported of a program that a step ran comes right before the report of that
step. The reports of a run are therefore well bracketed, with a program at the end of what is nested
in it, and the lines of a report file name every program before the one that called it.
-/
namespace Runbook

def StepResult.IsOf (s : StepResult) (record : Record) : Prop :=
  ∃ record', record.Continues record' ∧ record'.result = s

/-- What is reported of steps of a program: right before each step the program that it ran and the
steps of that. -/
inductive Bracketed : (level number : Nat) → List StepResult → List Event → Prop
  | nil (level n : Nat) : Bracketed level n [] []
  | plain {level n : Nat} {s : StepResult} {own : List StepResult} {es : List Event} :
      s.level = level → n < s.step → Bracketed level s.step own es →
      Bracketed level n (s :: own) (.step s :: es)
  | calling {level n : Nat} {s : StepResult} {own : List StepResult} {f : FrameSummary}
      {inner es : List Event} :
      s.level = level → n < s.step → f.level = level + 1 → f.parentStep = s.step →
      Bracketed f.level f.parentStep f.steps inner → Bracketed level s.step own es →
      Bracketed level n (s :: own) (inner ++ .frame f :: .step s :: es)

private theorem split_cases {α : Type} {pre post l l' : List α} {a b : α}
    (h : l ++ b :: l' = pre ++ a :: post) :
    (∃ more, l = pre ++ a :: more ∧ post = more ++ b :: l') ∨ (pre = l ∧ a = b ∧ post = l') ∨
      ∃ more, pre = l ++ b :: more ∧ l' = more ++ a :: post := by
  rcases List.append_eq_append_iff.1 h with ⟨more, rfl, rest⟩ | ⟨more, rfl, rest⟩
  · cases more with
    | nil =>
      obtain ⟨rfl, rfl⟩ := List.cons.inj rest
      exact .inr (.inl ⟨List.append_nil l, rfl, rfl⟩)
    | cons c more =>
      obtain ⟨rfl, rfl⟩ := List.cons.inj rest
      exact .inr (.inr ⟨more, rfl, rfl⟩)
  · cases more with
    | nil =>
      obtain ⟨rfl, rfl⟩ := List.cons.inj rest
      exact .inr (.inl ⟨(List.append_nil pre).symm, rfl, rfl⟩)
    | cons c more =>
      obtain ⟨rfl, rfl⟩ := List.cons.inj rest
      exact .inl ⟨more, rfl, rfl⟩

namespace Bracketed

variable {level n : Nat} {own : List StepResult} {es : List Event}

private theorem earlier {n' : Nat} (h : Bracketed level n own es) (le : n' ≤ n) :
    Bracketed level n' own es := by
  cases h with
  | nil => exact .nil level n'
  | plain here number rest => exact .plain here (Nat.lt_of_le_of_lt le number) rest
  | calling here number below link inner rest =>
    exact .calling here (Nat.lt_of_le_of_lt le number) below link inner rest

/-- Each program that is reported stands before the one that called it, unless it was called by one
of the steps themselves. -/
private theorem caller_after (h : Bracketed level n own es) {pre post : List FrameSummary}
    {f : FrameSummary}
    (split : framesIn es = pre ++ f :: post) :
    (∃ g ∈ post, f.level = g.level + 1 ∧ g.Calls f) ∨
      f.level = level + 1 ∧ f.parentStep ∈ own.map (·.step) := by
  induction h generalizing pre post with
  | nil => exact absurd split (by simp)
  | plain here _ _ ih =>
    rcases ih split with called | ⟨below, own⟩
    · exact .inl called
    · exact .inr ⟨below, List.mem_cons_of_mem _ own⟩
  | @calling level n s own f' inner es _ _ below link _ _ ih ih' =>
    rw [framesIn_append] at split
    rcases split_cases split with ⟨more, inside, rfl⟩ | ⟨-, rfl, rfl⟩ | ⟨more, -, later⟩
    · left
      rcases ih inside with ⟨g, member, below, calls⟩ | ⟨below, own⟩
      · exact ⟨g, List.mem_append_left _ member, below, calls⟩
      · exact ⟨f', List.mem_append_right _ List.mem_cons_self, below, own⟩
    · refine .inr ⟨below, ?_⟩
      rw [link]
      exact List.mem_cons_self
    · rcases ih' later with called | ⟨below, own⟩
      · exact .inl called
      · exact .inr ⟨below, List.mem_cons_of_mem _ own⟩

private theorem lines (h : Bracketed level n own es) :
    es.filterMap (fun e => e.line?.map Json.compact) = (framesIn es).map FrameSummary.line := by
  induction h with
  | nil => rfl
  | plain _ _ _ ih => exact ih
  | calling _ _ _ _ _ _ ih ih' =>
    rw [List.filterMap_append, framesIn_append, List.map_append, ih]
    exact congrArg _ (congrArg _ ih')

end Bracketed

/-- Reports that answer to what was begun, each to one and to each one. -/
def Answered {α β : Type} (Of : β → α → Prop) (begun : List α) (reports : List β) : Prop :=
  ∃ l, l.Perm reports ∧ List.Forall₂ Of l begun

namespace Answered

variable {α β : Type} {Of : β → α → Prop} {begun begun' : List α} {reports reports' : List β}

private theorem nil : Answered Of [] [] :=
  ⟨[], .nil, .nil⟩

private theorem append (h : Answered Of begun reports) (h' : Answered Of begun' reports') :
    Answered Of (begun ++ begun') (reports ++ reports') := by
  obtain ⟨l, perm, answers⟩ := h
  obtain ⟨l', perm', answers'⟩ := h'
  exact ⟨l ++ l', perm.append perm', List.rel_append answers answers'⟩

private theorem around {a : α} {b : β} (answer : Of b a) (h : Answered Of begun reports) :
    Answered Of (a :: begun) (reports ++ [b]) := by
  obtain ⟨l, perm, answers⟩ := h
  exact ⟨b :: l, (perm.cons b).trans (List.perm_append_singleton b reports).symm,
    .cons answer answers⟩

end Answered

namespace Run

/-- Everything that is begun in a log is reported in it. -/
structure Answers (l : Log) : Prop where
  steps : Answered StepResult.IsOf (l.filterMap LogEntry.begun?) (stepsIn (eventsOf l))
  programs : Answered FrameSummary.IsOf (l.filterMap LogEntry.entered?) (framesIn (eventsOf l))

namespace Answers

variable {l l' : Log}

private theorem nil : Answers [] :=
  ⟨.nil, .nil⟩

private theorem append (h : Answers l) (h' : Answers l') : Answers (l ++ l') := by
  constructor
  · rw [List.filterMap_append, eventsOf_append, stepsIn_append]
    exact h.steps.append h'.steps
  · rw [List.filterMap_append, eventsOf_append, framesIn_append]
    exact h.programs.append h'.programs

private theorem step {record record' : Record} (continues : record.Continues record')
    (h : Answers l)
    (directive : Directive) (st st' : RunState) :
    Answers (⟨.began record, st⟩ :: l ++ [⟨.ended record' directive, st'⟩]) := by
  constructor
  · rw [eventsOf_step, stepsIn_append, List.filterMap_append]
    simp only [List.filterMap_cons, LogEntry.begun?, List.filterMap_nil, List.append_nil]
    exact h.steps.around ⟨record', continues, rfl⟩
  · rw [eventsOf_step, framesIn_append, framesIn_step, List.filterMap_append]
    simp only [List.filterMap_cons, LogEntry.entered?, List.filterMap_nil, List.append_nil]
    exact h.programs

private theorem program {p : Program} {f : FrameSummary} (isOf : f.IsOf p) (h : Answers l)
    (st st' : RunState) : Answers (⟨.entered p, st⟩ :: l ++ [⟨.left f, st'⟩]) := by
  constructor
  · rw [eventsOf_frame, stepsIn_append, stepsIn_frame, List.filterMap_append]
    simp only [List.filterMap_cons, LogEntry.begun?, List.filterMap_nil, List.append_nil]
    exact h.steps
  · rw [eventsOf_frame, framesIn_append, List.filterMap_append]
    simp only [List.filterMap_cons, LogEntry.entered?, List.filterMap_nil, List.append_nil]
    exact h.programs.around isOf

end Answers

private theorem PartLog.answers {part : Part} {l : Log} (h : PartLog part l) : Answers l := by
  induction h with
  | nil => exact .nil
  | interrupted seq st => exact ⟨.nil, .nil⟩
  | step directive st st' continues _ _ ih ih' =>
    rw [List.append_cons]
    exact (ih.step continues directive st st').append ih'
  | call st st' isOf _ _ ih ih' =>
    rw [List.append_cons]
    exact (ih.program isOf st st').append ih'

private theorem FrameLog.answers {p : Program} {l : Log} (h : FrameLog p l) : Answers l := by
  obtain ⟨st, st', isOf, inner⟩ := h
  exact inner.answers.program isOf st st'

def Reports (p : Program) (st : RunState) (f : FrameRun) : Prop :=
  f.summary.IsOf p ∧ ∃ inner, f.events = inner ++ [.frame f.summary] ∧
    Bracketed p.level st.session.counters.done f.summary.steps inner

variable {r : Runner} (plain : r.registry.Plain)

include plain

private theorem step_bracketed (p : Program) (nested : OfNested r Reports p) (seq : Nat) (row : Row)
    (skips : Nat) (st : RunState) {own : List StepResult} {es : List Event} :
    let s := step r (below r) p seq row skips st
    Bracketed p.level s.state.session.counters.done own es →
      Bracketed p.level st.session.counters.done (s.result :: own) (eventsOf s.log ++ es) := by
  obtain ⟨e, same, continues, outcome⟩ :=
    step_calls r (below r) p seq row skips st fun _ => plain.of_find?
  have position := continues.position.trans (begunRecord_placed _ _ _ _ _).position
  have level : e.record.result.level = p.level := congrArg Position.level position
  have number : e.record.result.step = st.session.counters.done + 1 :=
    congrArg Position.step position
  have later : st.session.counters.done < e.record.result.step := by omega
  rw [same]
  simp only [finished, eventsOf_step, List.append_assoc, List.singleton_append, done_closed]
  intro rest
  rcases outcome with ⟨log, quiet⟩ | ⟨run, child, start, deep, started, before, log, quiet⟩
  · rw [quiet.counters] at rest
    rw [log]
    exact .plain level later (rest.earlier number.le)
  · obtain rfl := Option.some.inj deep
    obtain ⟨isOf, inner, events, bracketed⟩ := nested child started.level started.level_le start
    -- The step is begun before its program, so the program's steps are numbered after it, and the next
    -- step of the same program after them.
    have counted : start.session.counters.done = e.record.result.step := by
      rw [number]
      exact congrArg Counters.done before.counters
    obtain ⟨_, -, -, numbered⟩ := runFrame_countsOn plain child start
    have link : (r.runFrame child start).summary.parentStep = e.record.result.step :=
      (isOf.parentStep.trans started.parentStep).trans number.symm
    have below := isOf.level.trans started.level
    rw [counted, ← isOf.level, ← link] at bracketed
    have grown := numbered.le
    rw [counted, ← quiet.counters] at grown
    have split : eventsOf e.log = inner ++ [.frame (r.runFrame child start).summary] := by
      rw [log]
      exact events
    rw [split, List.append_assoc, List.singleton_append]
    rw [← level] at below rest ⊢
    exact .calling rfl later below link bracketed (rest.earlier grown)

private theorem rows_bracketed (p : Program) (nested : OfNested r Reports p) (l : List Row)
    (seq skips : Nat) (g : Progress) (st : RunState) :
    let run := rows r (below r) p l seq skips g st
    ∃ own, run.progress.steps = g.steps ++ own ∧
      Bracketed p.level st.session.counters.done own (eventsOf run.log) := by
  fun_induction rows r (below r) p l seq skips g st with
  | case1 seq skips g st => exact ⟨[], (List.append_nil _).symm, .nil _ _⟩
  | case2 row rest seq skips g st empty ih => exact ih
  | case3 row rest seq skips g st _ _ stopped => exact ⟨[], (List.append_nil _).symm, .nil _ _⟩
  | case4 row rest seq skips g st _ _ s g' reason _ =>
    have bracketed := step_bracketed plain p nested seq row skips st (.nil _ _)
    rw [List.append_nil] at bracketed
    exact ⟨[s.result], rfl, bracketed⟩
  | case5 row rest seq skips g st _ _ s g' _ more ih =>
    obtain ⟨own, steps, bracketed⟩ := ih
    refine ⟨s.result :: own, ?_, ?_⟩
    · rw [steps]
      exact List.append_assoc g.steps [s.result] own
    · rw [eventsOf_append]
      exact step_bracketed plain p nested seq row skips st bracketed

private theorem runFrame_reports (p : Program) (st : RunState) :
    Reports p st (r.runFrame p st) := by
  refine runFrame_induction (P := Reports) ?_ p st
  intro p nested st
  obtain ⟨own, steps, bracketed⟩ := rows_bracketed plain p nested p.rows 1 0 {} st
  have all : (frameWith r (below r) p st).summary.steps = own := steps
  refine ⟨⟨rfl, rfl, rfl⟩, _, events_frameWith _ p st, ?_⟩
  rw [all]
  exact bracketed

omit plain

/-- The order of reports. When no action makes up programs, programs are reported between the step
before and the step that ran them. -/
theorem reports_bracketed (r : Runner) (plain : r.registry.Plain) (p : Program) (st : RunState) :
    let run := r.run p st
    (∃ inner root, run.events = inner ++ [.frame root, .session run.summary] ∧ root.IsOf p ∧
      Bracketed root.level st.session.counters.done root.steps inner) ∧
    Answered StepResult.IsOf (run.log.filterMap LogEntry.begun?) (stepsIn run.events) ∧
    run.state.session.counters.done =
      st.session.counters.done + (stepsIn run.events).length ∧
    Answered FrameSummary.IsOf (run.log.filterMap LogEntry.entered?) (framesIn run.events) ∧
    Text.lines (Event.reportText run.events).toList =
      (framesIn run.events).map FrameSummary.line ++ [run.summary.line] ∧
    ∀ pre f post, framesIn run.events = pre ++ f :: post → post ≠ [] →
      ∃ g ∈ post, f.level = g.level + 1 ∧ g.Calls f := by
  intro run
  obtain ⟨isOf, inner, events, bracketed⟩ := runFrame_reports plain p st
  have answers := (runFrame_frameLog r p st).answers
  have booked : Booked st run.log [] run.state := run_booked r p st
  have all : run.events = inner ++ [.frame (r.runFrame p st).summary] ++
      [.session run.summary] := by
    rw [← events]
    rfl
  have steps : stepsIn run.events = stepsIn (eventsOf run.log) := by
    rw [Runner.Finished.events, stepsIn_append, stepsIn_session, List.append_nil]
  have frames : framesIn run.events = framesIn (eventsOf run.log) := by
    rw [Runner.Finished.events, framesIn_append, framesIn_session, List.append_nil]
  rw [← isOf.level] at bracketed
  refine ⟨⟨inner, _, ?_, isOf, bracketed⟩, ?_, ?_, ?_, ?_, ?_⟩
  · rw [all, List.append_assoc]
    rfl
  · rw [steps]
    exact answers.steps
  · rw [booked.counted, steps, Counters.done_add, Counters.done_ofSteps]
  · rw [frames]
    exact answers.programs
  · rw [Event.lines_reportText, all, List.filterMap_append, List.filterMap_append, bracketed.lines,
      framesIn_append, framesIn_append, framesIn_frame, framesIn_session, List.append_nil,
      List.map_append]
    rfl
  · intro pre f post split more
    rw [all, framesIn_append, framesIn_append, framesIn_session, List.append_nil] at split
    rcases split_cases split with ⟨between, inside, rfl⟩ | ⟨-, -, rfl⟩ | ⟨between, -, later⟩
    · rcases bracketed.caller_after inside with ⟨g, member, below, calls⟩ | ⟨below, own⟩
      · exact ⟨g, List.mem_append_left _ member, below, calls⟩
      · exact ⟨_, List.mem_append_right _ List.mem_cons_self, below, own⟩
    · exact absurd rfl more
    · exact absurd later (by simp)

/-- In the run of a program and the one that it runs, the nested one is told of first. -/
theorem numberedRun_bracketed :
    Registry.builtin.Plain ∧
    Text.lines (Event.reportText numberedRun.events).toList =
      (framesIn numberedRun.events).map FrameSummary.line ++ [numberedRun.summary.line] ∧
    (framesIn numberedRun.events).map (·.program) = ["child", "caller"] ∧
    (stepsIn numberedRun.events).map (·.step) = [2, 3, 1, 4] := by
  obtain ⟨-, -, -, -, lines, -⟩ :=
    reports_bracketed (withChild [noteRow "", noteRow ""]) Registry.plain_builtin caller {}
  exact ⟨Registry.plain_builtin, lines, by decide +kernel, by decide +kernel⟩

end Run
end Runbook
