import Runbook.Proofs.Run.Depth
import Runbook.Proofs.Run.OwnSteps
import Runbook.Proofs.Run.Termination

set_option autoImplicit false

/-!
What a step takes from the program that its row names. An exception of a step of that program, the
first one, is an exception of the step itself, and so an exception that is raised anywhere reaches
the steps around it, up to one whose action makes up programs: what such an action makes of an
exception is its own affair. Failures are only told: without an exception the step passes, and what
is told are the summary of the program, its errors and its comments. In neither case does the step
ask for more than its own row does, though a session that is terminated stays so.
-/
namespace Runbook

namespace FrameSummary

variable {f : FrameSummary}

private theorem firstException?_eq_none_iff :
    f.firstException? = none ↔ ∀ s ∈ f.steps, s.exception = none := by
  simp [firstException?, List.findSome?_eq_none_iff]

private theorem firstException?_eq_some_iff {s : StepResult} {exception : String} :
    f.firstException? = some (s, exception) ↔
      ∃ before after, f.steps = before ++ s :: after ∧ (∀ s' ∈ before, s'.exception = none) ∧
        s.exception = some exception := by
  rw [firstException?, List.findSome?_eq_some_iff]
  constructor
  · rintro ⟨before, first, after, split, found, earlier⟩
    obtain ⟨_, raised, same⟩ := Option.map_eq_some_iff.1 found
    obtain ⟨rfl, rfl⟩ := Prod.mk.inj same
    exact ⟨before, after, split, fun s' member => Option.map_eq_none_iff.1 (earlier s' member),
      raised⟩
  · rintro ⟨before, after, split, earlier, raised⟩
    exact ⟨before, s, after, split, by rw [raised]; rfl,
      fun s' member => Option.map_eq_none_iff.2 (earlier s' member)⟩

end FrameSummary

namespace Run

def raisedText (f : FrameSummary) (s : StepResult) (exception : String) : String :=
  "nested program '" ++ f.program ++ "' raised an exception at step " ++ Text.decimal s.step ++
    ": " ++ exception

def toldLines (f : FrameSummary) : List String :=
  ("nested program '" ++ f.program ++ "' " ++ f.state.name ++ ": " ++ f.counters.text) ::
    (f.errors ++ f.comments)

/-- What a step that ran a program takes from it: the record as it was begun, and as it is when the
program is over. -/
structure Folds (a : Action) (f : FrameSummary) (begun record : Record) : Prop where
  raised : ∀ before s after exception, f.steps = before ++ s :: after →
    (∀ s' ∈ before, s'.exception = none) → s.exception = some exception →
      record.status = .fail ∧ record.exception = some (raisedText f s exception) ∧
        record.errors =
          [begun.action ++ " raised an exception: " ++ raisedText f s exception]
  told : (∀ s ∈ f.steps, s.exception = none) →
    record.status = .pass ∧ record.errors = [] ∧ record.exception = none ∧
      ∃ notes, record.comments = begun.comments ++ toldLines f ++ notes ∧
        (a.interactive = false → notes = [])

def Raises (l : List StepResult) : Prop :=
  ∃ s ∈ l, s.exception ≠ none

private theorem Folds.exception_ne_none {a : Action} {f : FrameSummary} {begun record : Record}
    (h : Folds a f begun record) (raises : Raises f.steps) :
    record.status = .fail ∧ record.exception ≠ none := by
  cases first : f.firstException? with
  | none =>
    obtain ⟨s, member, raised⟩ := raises
    exact absurd (FrameSummary.firstException?_eq_none_iff.1 first s member) raised
  | some found =>
    obtain ⟨before, after, split, earlier, raised⟩ :=
      FrameSummary.firstException?_eq_some_iff.1 first
    obtain ⟨fails, exception, -⟩ := h.raised before _ after _ split earlier raised
    refine ⟨fails, ?_⟩
    rw [exception]
    exact Option.some_ne_none _

variable {r : Runner} {deeper : Deeper}

/-- A step that starts a program folds what the program does into its record, and asks for nothing
but what its row decides for its outcome. -/
private theorem attempt_folds {record : Record} {baseDir : Option String} {st : RunState}
    {run : Program → RunState → FrameRun} {child : Program} (active : record.isActive = true)
    (counted : record.row.isEmpty = false)
    (starts : Starts r deeper (record.resolve r.params st.session.vars).1 baseDir
      (resolvedState r record st) run child) :
    let e := attempt r deeper record baseDir st
    ∃ a, r.registry.find? record.action = some a ∧ a.body = .runProgram ∧
      Folds a (run child (resolvedState r record st)).summary record e.record ∧
      e.directive = .ofAction
        ((record.resolve r.params st.session.vars).1.policy.after e.record.status) := by
  intro e
  have continues := Record.Continues.resolve record r.params st.session.vars
  have named : (record.resolve r.params st.session.vars).1.action = record.action :=
    congrArg Row.actionName continues.row
  obtain ⟨a, found, body⟩ := starts.action
  rw [named] at found
  have runs : RunsProgram r st.session.vars record a := ⟨active, starts.clean, found, body⟩
  obtain ⟨-, directive, notes, noted, plain⟩ :=
    attempt_of_runsProgram runs counted deeper baseDir
  have answer : (runNested r deeper (record.resolve r.params st.session.vars).1 baseDir
      (resolvedState r record st)).1 =
        foldSummary (run child (resolvedState r record st)).summary := by
    unfold runNested
    rw [starts.child, starts.deeper]
  rw [answer] at directive noted
  rw [Record.policy_applyAnswer, ← noted.status] at directive
  refine ⟨a, found, body, ?_, directive⟩
  generalize (run child (resolvedState r record st)).summary = f at noted
  refine ⟨?_, ?_⟩
  · intro before s after exception split earlier raised
    have first := FrameSummary.firstException?_eq_some_iff.2 ⟨before, after, split, earlier, raised⟩
    rw [foldSummary, first] at noted
    obtain ⟨fails, exception, errors⟩ := applyAnswer_exception starts.clean
      (e := .nestedException f.program s.step exception) rfl
    rw [named] at errors
    exact ⟨noted.status.trans fails, noted.exception.trans exception, noted.errors.trans errors⟩
  · intro earlier
    have none := FrameSummary.firstException?_eq_none_iff.2 earlier
    rw [foldSummary, none] at noted
    have isActive : (record.resolve r.params st.session.vars).1.isActive = true :=
      continues.isActive.trans active
    obtain ⟨passes, errors, exception, comments⟩ :=
      applyAnswer_comments isActive starts.clean (toldLines f)
    rw [Record.comments_resolve] at comments
    exact ⟨noted.status.trans passes, noted.errors.trans errors, noted.exception.trans exception,
      notes, noted.comments.trans (congrArg (· ++ notes) comments), plain⟩

/-- A log with an exception of a step around which no open step has an action that makes up
programs. -/
def RaisedIn (r : Runner) (l : Log) : Prop :=
  ∃ x record directive st y, l = x ++ ⟨.ended record directive, st⟩ :: y ∧
    record.exception ≠ none ∧ ∀ around ∈ (openSteps x).tail, Single r around.action

namespace RaisedIn

private theorem exists_ended {l : Log} (h : RaisedIn r l) :
    ∃ e ∈ l, ∃ record directive, e.what = .ended record directive := by
  obtain ⟨x, record, directive, st, y, rfl, -⟩ := h
  exact ⟨_, List.mem_append_right _ List.mem_cons_self, record, directive, rfl⟩

private theorem append {l l' : Log} (h : RaisedIn r (l ++ l')) (balanced : RowsLog l) :
    RaisedIn r l ∨ RaisedIn r l' := by
  obtain ⟨x, record, directive, st, y, split, raised, relayed⟩ := h
  rcases List.append_eq_append_iff.1 split with ⟨x', rfl, rest⟩ | ⟨y', rfl, rest⟩
  · refine .inr ⟨x', record, directive, st, y, rest, raised, ?_⟩
    rw [openSteps, openAfter_append, balanced.openAfter_eq] at relayed
    exact relayed
  · cases y' with
    | nil =>
      refine .inr ⟨[], record, directive, st, y, rest.symm, raised, ?_⟩
      exact fun around absurd => (List.not_mem_nil absurd).elim
    | cons e y' =>
      obtain ⟨rfl, -⟩ := List.cons.inj rest
      exact .inl ⟨x, record, directive, st, y', rfl, raised, relayed⟩

private theorem step {record record' : Record} {calls : Log} {directive : Directive}
    {st st' : RunState}
    (h : RaisedIn r (⟨.began record, st⟩ :: calls ++ [⟨.ended record' directive, st'⟩]))
    (balanced : CallsLog calls) :
    record'.exception ≠ none ∨ Single r record.action ∧ RaisedIn r calls := by
  obtain ⟨x, ended, directive', st₂, y, split, raised, relayed⟩ := h
  rcases eq_bracket_cases split with absurd | own | ⟨x, y, rfl, rfl⟩
  · exact nomatch absurd
  · obtain ⟨⟨⟩, -⟩ := LogEntry.mk.inj own
    exact .inl raised
  · -- The step that has the exception is open before it ends, within the step around it.
    have closes : Closes [] (x ++ ⟨.ended ended directive', st₂⟩ :: y ++ []) :=
      balanced.closes_append rfl
    rw [List.append_nil] at closes
    obtain ⟨begun, rest, opened, -⟩ := closes.after
    have around : openSteps (⟨.began record, st⟩ :: x) = openSteps x ++ [record] := by
      change (openAfter [.step record] x).filterMap Opening.record? = _
      rw [balanced.openAfter_eq_append x (List.prefix_append _ _), List.filterMap_append]
      rfl
    have nonempty : openSteps x ≠ [] := by
      rw [openSteps, opened]
      exact List.cons_ne_nil begun _
    rw [around, List.tail_append_of_ne_nil nonempty] at relayed
    exact .inr ⟨relayed record (by simp), x, ended, directive', st₂, y, rfl, raised,
      fun around member => relayed around (List.mem_append_left _ member)⟩

private theorem frame {p : Program} {f : FrameSummary} {inner : Log} {st st' : RunState}
    (h : RaisedIn r (⟨.entered p, st⟩ :: inner ++ [⟨.left f, st'⟩])) (balanced : RowsLog inner) :
    RaisedIn r inner := by
  obtain ⟨x, ended, directive, st₂, y, split, raised, relayed⟩ := h
  rcases eq_bracket_cases split with absurd | absurd | ⟨x, y, rfl, rfl⟩
  · exact nomatch absurd
  · exact nomatch absurd
  · have around : openSteps (⟨.entered p, st⟩ :: x) = openSteps x := by
      change (openAfter [.program p] x).filterMap Opening.record? = _
      rw [balanced.openAfter_eq_append x (List.prefix_append _ _), List.filterMap_append]
      exact List.append_nil _
    rw [around] at relayed
    exact ⟨x, ended, directive, st₂, y, rfl, raised, relayed⟩

end RaisedIn

/-- A program's run in which no exception that is handed on stays below: some step of the program
itself has one. -/
def RaisesUp (r : Runner) (run : FrameRun) : Prop :=
  RaisedIn r run.log → Raises run.summary.steps

section Raising

variable {p : Program} (nested : OfNested r (fun _ _ run => RaisesUp r run) p)

include nested

private theorem step_raises (seq : Nat) (row : Row) (counted : row.isEmpty = false) (skips : Nat)
    (st : RunState) (raised : RaisedIn r (step r (below r) p seq row skips st).log) :
    (step r (below r) p seq row skips st).result.exception ≠ none := by
  have placed := begunRecord_placed p seq row skips (opened r row st)
  have calls := attempt_callsLog (r := r) (below_frameLog r)
    (begunRecord p seq row skips (opened r row st)) p.baseDir (opened r row st)
  simp only [step, finished] at raised ⊢
  generalize begunRecord p seq row skips (opened r row st) = record at placed raised calls ⊢
  rcases raised.step calls with own | ⟨single, inner⟩
  · exact own
  · rcases attempt_starts r (below r) record p.baseDir (opened r row st) single with
      ⟨idle, -⟩ | ⟨run, child, active, starts, log, -⟩
    · rw [idle] at inner
      obtain ⟨e, absurd, -⟩ := inner.exists_ended
      cases absurd
    · -- What is raised within the step is raised by the program that it runs.
      obtain rfl := Option.some.inj starts.deeper
      obtain ⟨level, level_le, -⟩ := nestedProgram_ok starts.child
      rw [(Record.Continues.resolve record _ _).position, placed.position] at level
      rw [log] at inner
      rw [← placed.row] at counted
      obtain ⟨a, -, -, folds, -⟩ := attempt_folds active counted starts
      exact (folds.exception_ne_none (nested child level level_le _ inner)).2

private theorem rows_raises (l : List Row) (seq skips : Nat) (g : Progress) (st : RunState)
    (raised : RaisedIn r (rows r (below r) p l seq skips g st).log) :
    Raises (rows r (below r) p l seq skips g st).progress.steps := by
  fun_induction rows r (below r) p l seq skips g st with
  | case1 seq skips g st =>
    obtain ⟨e, absurd, -⟩ := raised.exists_ended
    cases absurd
  | case2 row rest seq skips g st empty ih => exact ih raised
  | case3 row rest seq skips g st _ _ stopped =>
    obtain ⟨e, member, _, _, ended⟩ := raised.exists_ended
    obtain rfl := List.mem_singleton.1 member
    cases ended
  | case4 row rest seq skips g st counted _ s g' reason _ =>
    have raised := step_raises nested seq row (Bool.eq_false_iff.2 counted) skips st raised
    exact ⟨s.result, List.mem_append_right _ (List.mem_singleton.2 rfl), raised⟩
  | case5 row rest seq skips g st counted _ s g' _ more ih =>
    have balanced : RowsLog s.log := by
      rw [← List.append_nil s.log]
      exact step_rowsLog (below_frameLog r) p seq row skips st (.nil _)
    rcases raised.append balanced with first | later
    · have raised := step_raises nested seq row (Bool.eq_false_iff.2 counted) skips st first
      obtain ⟨steps, -, -⟩ := ownSteps_rows (r := r) (below_frameLog r) p rest (seq + 1)
        s.skips g' s.state
      refine ⟨s.result, ?_, raised⟩
      dsimp only
      rw [steps]
      exact List.mem_append_left _ (List.mem_append_right _ (List.mem_singleton.2 rfl))
    · exact ih later

end Raising

private theorem runFrame_raisesUp (r : Runner) (p : Program) (st : RunState) :
    RaisesUp r (r.runFrame p st) := by
  refine runFrame_induction (P := fun _ _ run => RaisesUp r run) ?_ p st
  intro p nested st raised
  exact rows_raises nested p.rows 1 0 {} st
    (raised.frame (rows_rowsLog (below_frameLog r) p p.rows 1 0 {} st))

/-- Nested results are folded as `Folds` says, and exceptions rise through the steps around them. -/
theorem nested_results_folded (r : Runner) (p : Program) (st : RunState) :
    let run := r.run p st
    (∀ pre begun st₁ child st₂ post a,
      run.log = pre ++ ⟨.began begun, st₁⟩ :: ⟨.entered child, st₂⟩ :: post →
      r.registry.find? begun.action = some a → a.body = .runProgram →
      ∃ inner f st₃ record st₄ rest,
        let policy := (begun.resolve r.params st₁.session.vars).1.policy
        post = inner ++ ⟨.left f, st₃⟩ ::
          ⟨.ended record (.ofAction (policy.after record.status)), st₄⟩ :: rest ∧
        RowsLog inner ∧ f.IsOf child ∧
        f.steps = (ownSteps inner).map (fun s => s.record.result) ∧ begun.Continues record ∧
        Folds a f begun record ∧
        (RaisedIn r inner → record.status = .fail ∧ record.exception ≠ none)) ∧
    ∀ pre q st₁ post, run.log = pre ++ ⟨.entered q, st₁⟩ :: post →
      ∃ inner f st₂ rest, post = inner ++ ⟨.left f, st₂⟩ :: rest ∧ RowsLog inner ∧ f.IsOf q ∧
        let own := ownSteps inner
        ((f.state = .completed ∧
            own.map (fun s => s.record.row) = q.rows.filter (fun row => !row.isEmpty)) ∨
          (f.state = .caseTerminated ∧
            ∃ s, own.getLast? = some s ∧ s.directive.stops = true) ∨
          (f.state = .sessionTerminated ∧ st₂.session.terminated = true)) := by
  intro run
  have carried : Carried r run.log := runFrame_carried r p st
  have frameLog := below_frameLog r
  refine ⟨?_, ?_⟩
  · intro pre begun st₁ child st₂ post a split found body
    rw [split] at carried
    obtain ⟨-, -, baseDir, -, counted, rest, followed⟩ := carried.after_began
    have continues := attempt_continues r (below r) begun baseDir st₁
    have single : Single r begun.action := by
      intro a' same
      obtain rfl := Option.some.inj (found.symm.trans same)
      rw [Action.hosts, body]
    rcases attempt_starts r (below r) begun baseDir st₁ single with
      ⟨idle, -⟩ | ⟨start, child', active, starts, log, -⟩
    · rw [idle] at followed
      obtain ⟨absurd, -⟩ := List.cons.inj followed
      cases absurd
    · obtain rfl := Option.some.inj starts.deeper
      obtain ⟨a', found', -, folds, directive⟩ := attempt_folds active counted starts
      obtain rfl := Option.some.inj (found.symm.trans found')
      rw [log, directive] at followed
      rw [runFrame_eq] at folds followed
      obtain ⟨first, more⟩ := List.cons.inj followed
      obtain ⟨⟨⟩, ⟨⟩⟩ := LogEntry.mk.inj first
      obtain ⟨steps, -⟩ := ownSteps_rows (r := r) frameLog child child.rows 1 0 {}
        (resolvedState r begun st₁)
      refine ⟨_, _, _, _, _, rest, more.trans (List.append_assoc _ _ _),
        rows_rowsLog frameLog _ _ _ _ _ _, ⟨rfl, rfl, rfl⟩, steps, continues, folds, ?_⟩
      intro raised
      refine folds.exception_ne_none (rows_raises ?_ _ _ _ _ _ raised)
      intro child _ _
      exact runFrame_raisesUp r child
  · intro pre q st₁ post split
    rw [split] at carried
    obtain ⟨st₂, rest, followed, session⟩ := carried.after_entered
    refine ⟨_, _, st₂, rest, followed, rows_rowsLog frameLog _ _ _ _ _ _, ⟨rfl, rfl, rfl⟩, ?_⟩
    rcases rows_ending (r := r) frameLog q q.rows 1 0 {} st₁ with completed | stopped | terminated
    · obtain ⟨-, -, all⟩ := ownSteps_rows (r := r) frameLog q q.rows 1 0 {} st₁
      exact .inl ⟨congrArg Ending.state completed, all completed⟩
    · exact .inr (.inl stopped)
    · rw [session]
      exact .inr (.inr terminated)

theorem endlessRun_folded :
    ∃ inner f s st record directive st' rest,
      endlessRun.log.drop 3 = inner ++ ⟨.left f, st⟩ :: ⟨.ended record directive, st'⟩ :: rest ∧
      f.program = "child" ∧ s.step = 2 ∧ record.status = .fail ∧
      record.exception = some (raisedText f s "nesting level 3 exceeds max-depth 2") := by
  -- What is read off the run: the two entries, and what `child` reports.
  have evaluated : (endlessRun.log[1]?.bind LogEntry.begun?).map (·.action) = some "RunProgram" ∧
      (endlessRun.log[2]?.bind LogEntry.entered?).map (·.name) = some "child" ∧
      ∀ f ∈ framesIn (eventsOf (endlessRun.log.drop 3)), f.program = "child" →
        f.steps.map (fun s => (s.step, s.exception)) =
          [(2, some "nesting level 3 exceeds max-depth 2")] := by
    decide +kernel
  obtain ⟨begins, enters, steps⟩ := evaluated
  obtain ⟨begun, begins, action⟩ := Option.map_eq_some_iff.1 begins
  obtain ⟨child, enters, named⟩ := Option.map_eq_some_iff.1 enters
  obtain ⟨e, -, split⟩ := eq_take_began_drop begins
  obtain ⟨e', second, entered⟩ := Option.bind_eq_some_iff.1 enters
  rw [drop_eq_cons second, LogEntry.eq_of_entered? entered] at split
  have found : endlessRunner.registry.find? begun.action = some Action.runProgram := by
    rw [action]
    rfl
  obtain ⟨inner, f, st, record, st', rest, followed, -, isOf, -, -, folds, -⟩ :=
    (nested_results_folded endlessRunner caller {}).1 _ _ _ _ _ _ _ split found rfl
  have reported : f ∈ framesIn (eventsOf (endlessRun.log.drop 3)) := by
    refine mem_framesIn_eventsOf.2 ⟨st, ?_⟩
    rw [followed]
    exact List.mem_append_right _ List.mem_cons_self
  have program : f.program = "child" := isOf.program.trans named
  obtain ⟨s, only, same⟩ := List.map_eq_singleton_iff.1 (steps f reported program)
  obtain ⟨step, exception⟩ := Prod.mk.inj same
  obtain ⟨fails, raised, -⟩ := folds.raised [] s [] _ only nofun exception
  exact ⟨inner, f, s, st, record, _, st', rest, followed, program, step, fails, raised⟩

def boom : Action :=
  { name := "Boom"
    body := .direct fun call => { vars := call.session.vars, answer := .error (.failed "boom") } }

def droppingRun : Runner.Finished :=
  let r := hosting (withChild [{ action := "Host" }]) [[{ action := "Boom" }]]
  ({ r with registry := r.registry.register boom } : Runner).run caller {}

/-- The exception does not reach the step that runs `child`; and a session that `child` terminates
stops the program that runs it. -/
theorem exceptions_dropped :
    ((framesIn droppingRun.events).map fun f =>
        (f.program, f.steps.map fun s => (s.action, s.status, s.exception))) =
      [("part", [("Boom", .fail, some "boom")]), ("child", [("Host", .pass, none)]),
        ("caller", [("RunProgram", .pass, none), ("Comment", .pass, none)])] ∧
    ((framesIn quittingRun.events).map fun f =>
        (f.program, f.state, f.steps.map fun s => (s.action, s.status))) =
      [("child", .sessionTerminated, [("Comment", .pass)]),
        ("caller", .sessionTerminated, [("RunProgram", .pass)])] := by
  decide +kernel

end Run
end Runbook
