import Runbook.Proofs.Run.Matching
import Runbook.Proofs.Run.OwnSteps
import Runbook.Proofs.Run.Termination

set_option autoImplicit false

/-!
The life cycle of a program. A program that was entered while the session was not terminated carries
out its instructions one after the other, until all are carried out, or a directive stops it, or the
session is terminated by a program that a step ran or by an interrupt. In every case but the first
it is left with one note that says so, which is an error when a step failed. Nothing else ends a
program: no failure, no exception, and no stop of a program that a step ran. A program that was
entered when the session was terminated, by an action that makes up programs, ends after its first
instruction.
-/
namespace Runbook.Run

/-- How the rows of a program come to their end, from their log: with which ending and which mark of
the session. -/
inductive Ends (level : Nat) (told : List (Row × Nat)) (l : Log) : Ending → Bool → Prop
  /-- Every instruction was carried out, and none stopped the program. -/
  | completed (all : (ownSteps l).map EndedStep.instruction = told)
      (goesOn : ∀ s ∈ ownSteps l, s.directive.stops = false) : Ends level told l .completed false
  /-- The directive of the last step stops the program alone. -/
  | quitCase (s : EndedStep) (last : (ownSteps l).getLast? = some s)
      (asked : s.directive.quitCase = true) :
      Ends level told l (.stopped false "quitcase" s.record.position.step s.record.row.id) false
  /-- The directive of the last step terminates the session. -/
  | quitSession (s : EndedStep) (last : (ownSteps l).getLast? = some s)
      (asked : s.directive.quitSession = true) :
      Ends level told l (.stopped true "quitsession" s.record.position.step s.record.row.id) true
  /-- A program that the last step ran was left as terminated with the session. -/
  | nested (s : EndedStep) (last : (ownSteps l).getLast? = some s) (front back : Log)
      (child : FrameSummary) (st st' : RunState)
      (ran : l = front ++ ⟨.left child, st⟩ :: (back ++ [⟨.ended s.record s.directive, st'⟩]))
      (later : CallsLog back) (quit : child.state = .sessionTerminated)
      (below : child.level = level + 1)
      (called : child.parentStep = s.record.position.step) (reason : String) :
      Ends level told l (.stopped true reason s.record.position.step s.record.row.id) true
  /-- An interrupt was noticed before the next instruction. -/
  | interrupted (row : Row) (seq : Nat) (front : Log) (st : RunState)
      (noticed : l = front ++ [⟨.interrupted seq, st⟩])
      (next : (ownSteps l).map EndedStep.instruction ++ [(row, seq)] <+: told)
      (goesOn : ∀ s ∈ ownSteps l, s.directive.stops = false) :
      Ends level told l (.interrupted seq) true

/-- How the rows of a program come to their end that was entered when the session was terminated. -/
inductive Halts (told : List (Row × Nat)) (l : Log) : Ending → Prop
  /-- There is no instruction. -/
  | idle (none : told = []) (unbegun : ownSteps l = []) : Halts told l .completed
  /-- The first instruction was carried out. -/
  | first (s : EndedStep) (only : ownSteps l = [s]) (instruction : told.head? = some s.instruction)
      (reason : String) :
      Halts told l (.stopped true reason s.record.position.step s.record.row.id)
  /-- An interrupt was noticed before the first instruction. -/
  | interrupted (row : Row) (seq : Nat) (next : told.head? = some (row, seq))
      (unbegun : ownSteps l = []) : Halts told l (.interrupted seq)

private theorem Ends.after_step {level : Nat} {told : List (Row × Nat)} {first l : Log}
    {s : EndedStep}
    {ending : Ending} {terminated : Bool} (h : Ends level told l ending terminated)
    (own : ownSteps (first ++ l) = s :: ownSteps l) (goes : s.directive.stops = false) :
    Ends level (s.instruction :: told) (first ++ l) ending terminated := by
  have still {s' : EndedStep} (last : (ownSteps l).getLast? = some s') :
      (ownSteps (first ++ l)).getLast? = some s' := by
    rw [own, List.getLast?_cons, last]
    rfl
  have goesOn (rest : ∀ s ∈ ownSteps l, s.directive.stops = false) :
      ∀ s ∈ ownSteps (first ++ l), s.directive.stops = false := by
    rw [own]
    exact List.forall_mem_cons.2 ⟨goes, rest⟩
  cases h with
  | completed all rest =>
    refine .completed ?_ (goesOn rest)
    rw [own, List.map_cons, all]
  | quitCase s' last asked => exact .quitCase s' (still last) asked
  | quitSession s' last asked => exact .quitSession s' (still last) asked
  | nested s' last front back child st st' ran later quit below called reason =>
    refine .nested s' (still last) (first ++ front) back child st st' ?_ later quit below called
      reason
    rw [ran, List.append_assoc]
  | interrupted row seq front st noticed next rest =>
    refine .interrupted row seq (first ++ front) st ?_ ?_ (goesOn rest)
    · rw [noticed, List.append_assoc]
    · rw [own, List.map_cons]
      exact (List.prefix_cons_inj _).2 next

private theorem runFrame_left (r : Runner) (p : Program) (st : RunState)
    (running : st.session.terminated = false) :
    let run := r.runFrame p st
    ∃ front f, run.log = front ++ [⟨.left f, run.state⟩] ∧ f.IsOf p ∧
      (f.state = .sessionTerminated ↔ run.state.session.terminated = true) := by
  intro run
  have whole : run = frameWith r (below r) p st := runFrame_eq r p st
  have terminated := rows_terminated_iff r (below r) p p.rows 1 0 {} st
  rw [whole]
  exact ⟨_, _, rfl, ⟨rfl, rfl, rfl⟩, terminated.trans (and_iff_left (.inl running))⟩

theorem stopReason?_cases {s : StepRun} {reason : String} (h : stopReason? s = some reason) :
    (s.directive.stops = true ∧ s.directive.label = reason) ∨
      (s.directive.stops = false ∧ s.state.session.terminated = true) := by
  unfold stopReason? at h
  split at h
  · next asked => exact .inl ⟨asked, Option.some.inj h⟩
  · next goes =>
    split at h
    · next terminated => exact .inr ⟨Bool.eq_false_iff.2 goes, terminated⟩
    · exact nomatch h

section Rows

variable {r : Runner}

private theorem left_of_terminated {fits : Program → Prop} {st st' : RunState} {log : Log}
    (h : Descends (below r) fits st log st') (running : st.session.terminated = false)
    (terminated : st'.session.terminated = true) :
    ∃ front f st₂ back, log = front ++ ⟨.left f, st₂⟩ :: back ∧ CallsLog back ∧
      f.state = .sessionTerminated ∧ ∃ child, fits child ∧ f.IsOf child := by
  induction h with
  | idle quiet =>
    rw [quiet.terminated, running] at terminated
    cases terminated
  | @call st start st' run child log before deep fit rest ih =>
    obtain rfl := Option.some.inj deep
    obtain ⟨front, f, left, isOf, heeds⟩ :=
      runFrame_left r child start (before.terminated.trans running)
    cases mark : (r.runFrame child start).state.session.terminated with
    | true =>
      exact ⟨front, f, _, log, by rw [left, List.append_assoc]; rfl,
        DescendsBy.callsLog (below_frameLog r) rest, heeds.2 mark, child, fit, isOf⟩
    | false =>
      obtain ⟨front', f', st₂, back, split, later⟩ := ih mark terminated
      exact ⟨(r.runFrame child start).log ++ front', f', st₂, back, by rw [split, List.append_assoc],
        later⟩

private theorem step_ends (p : Program) (seq : Nat) (row : Row) (skips : Nat) (st : RunState)
    (running : st.session.terminated = false) (told : List (Row × Nat)) {reason : String}
    (stops : stopReason? (step r (below r) p seq row skips st) = some reason) :
    let s := step r (below r) p seq row skips st
    Ends p.level told s.log (.stopped s.state.session.terminated reason s.result.step s.result.id)
      s.state.session.terminated := by
  obtain ⟨e, same, continues, descends⟩ := step_descends r (below r) p seq row skips st
  have inner := descends.callsLog (below_frameLog r)
  have placed := begunRecord_placed p seq row skips (opened r row st)
  have step_ : e.record.position.step = (opened r row st).session.counters.done := by
    rw [continues.position, placed.position]
  have last := congrArg List.getLast? (ownSteps_finished inner r row skips
    (begunRecord p seq row skips (opened r row st)) (opened r row st) [])
  rw [List.append_nil] at last
  have why := stopReason?_cases stops
  rw [same] at why ⊢
  intro s
  have mark : s.state.session.terminated =
      (e.directive.quitSession || e.state.session.terminated) := terminated_closed r row e
  change (e.directive.stops = true ∧ e.directive.label = reason) ∨
    (e.directive.stops = false ∧ s.state.session.terminated = true) at why
  change Ends p.level told s.log (.stopped s.state.session.terminated reason
    e.record.position.step e.record.row.id) s.state.session.terminated
  rw [mark] at why ⊢
  -- The reason that is told is the directive's, and of its two stops that of the session comes first.
  cases quits : e.directive.quitSession with
  | true =>
    obtain rfl : "quitsession" = reason := by
      simpa [Directive.stops, Directive.label, quits] using why
    exact .quitSession ⟨e.record, e.directive⟩ last quits
  | false =>
    cases terminated : e.state.session.terminated with
    | false =>
      obtain ⟨asked, rfl⟩ : e.directive.quitCase = true ∧ "quitcase" = reason := by
        cases asked : e.directive.quitCase with
        | false => simp [Directive.stops, quits, asked, terminated] at why
        | true => simpa [Directive.stops, Directive.label, quits, asked] using why
      exact .quitCase ⟨e.record, e.directive⟩ last asked
    | true =>
      obtain ⟨front, f, st', back, ran, later, quit, child, started, isOf⟩ :=
        left_of_terminated descends running terminated
      refine .nested ⟨e.record, e.directive⟩ last
        (⟨.began (begunRecord p seq row skips (opened r row st)), opened r row st⟩ :: front) back f
        st' (closed r row e) ?_ later quit (isOf.level.trans started.level)
        ((isOf.parentStep.trans started.parentStep).trans step_.symm) reason
      simp only [finished, ran, List.cons_append, List.append_assoc]

private theorem rows_ends (p : Program) (l : List Row) (seq skips : Nat) (g : Progress)
    (st : RunState)
    (running : st.session.terminated = false) :
    let run := rows r (below r) p l seq skips g st
    Ends p.level (instructionsFrom seq l) run.log run.ending run.state.session.terminated := by
  have frameLog := below_frameLog r
  -- Rows are only reached while the session is not terminated, so `running` is carried along.
  fun_induction rows r (below r) p l seq skips g st with
  | case1 seq skips g st =>
    dsimp only
    rw [running]
    exact .completed rfl (by simp [ownSteps, stepsAt])
  | case2 row rest seq skips g st empty ih =>
    rw [instructionsFrom_of_empty empty]
    exact ih running
  | case3 row rest seq skips g st counted _ stopped =>
    rw [instructionsFrom_of_counted (Bool.eq_false_iff.2 counted)]
    exact .interrupted row seq [] stopped rfl (List.prefix_append [(row, seq)] _)
      (by simp [ownSteps, stepsAt])
  | case4 row rest seq skips g st counted _ s g' reason stops =>
    exact step_ends p seq row skips st running _ stops
  | case5 row rest seq skips g st counted _ s g' goes more ih =>
    obtain ⟨record, own, -, continues, -⟩ :=
      ownSteps_step (r := r) frameLog p seq row skips st more.log
    have place := instruction_of_continues (s := ⟨record, s.directive⟩) continues
    rw [instructionsFrom_of_counted (Bool.eq_false_iff.2 counted), ← place]
    exact (ih (running_of_stopReason?_eq_none goes)).after_step own
      (stops_of_stopReason?_eq_none goes)

private theorem rows_halts (p : Program) (l : List Row) (seq skips : Nat) (g : Progress)
    (st : RunState)
    (terminated : st.session.terminated = true) :
    let run := rows r (below r) p l seq skips g st
    Halts (instructionsFrom seq l) run.log run.ending := by
  have frameLog := below_frameLog r
  fun_induction rows r (below r) p l seq skips g st with
  | case1 seq skips g st => exact .idle rfl rfl
  | case2 row rest seq skips g st empty ih =>
    rw [instructionsFrom_of_empty empty]
    exact ih terminated
  | case3 row rest seq skips g st counted _ stopped =>
    rw [instructionsFrom_of_counted (Bool.eq_false_iff.2 counted)]
    exact .interrupted row seq rfl rfl
  | case4 row rest seq skips g st counted _ s g' reason _ =>
    obtain ⟨record, own, result, continues, -⟩ :=
      ownSteps_step (r := r) frameLog p seq row skips st []
    have place := instruction_of_continues (s := ⟨record, s.directive⟩) continues
    have still := ((step_replayed (below_replayed r) p seq row skips st).stays_terminated terminated).2
    change s.state.session.terminated = true at still
    change s.result = record.result at result
    rw [List.append_nil] at own
    change Halts _ s.log (.stopped s.state.session.terminated reason s.result.step s.result.id)
    rw [instructionsFrom_of_counted (Bool.eq_false_iff.2 counted), ← place, still, result]
    exact .first ⟨record, s.directive⟩ own rfl reason
  | case5 row rest seq skips g st _ _ s g' goes more ih =>
    -- The step would have to take the mark back.
    have still : s.state.session.terminated = true :=
      ((step_replayed (below_replayed r) p seq row skips st).stays_terminated terminated).2
    rw [running_of_stopReason?_eq_none goes] at still
    exact (Bool.false_ne_true still).elim

end Rows

/-- A program's notes: what there is to say on its end is an error when a step failed, and a comment
otherwise. -/
structure Noted (f : FrameSummary) (note : Option String) : Prop where
  errors : f.errors = if 0 < f.counters.fail then note.toList else []
  comments : f.comments = if 0 < f.counters.fail then [] else note.toList

theorem summarize_noted (p : Program) (run : RowsRun) :
    Noted (summarize p run) (run.ending.note? p.level) := by
  have fails : (summarize p run).counters = run.progress.counters := rfl
  constructor
  · simp [summarize, Counters.hasFailures]
  · simp [summarize, Counters.hasFailures]

private theorem Noted.failed_iff {f : FrameSummary} {note : Option String} (h : Noted f note) :
    f.failed = true ↔ 0 < f.counters.fail := by
  rw [FrameSummary.failed, h.errors, Counters.hasFailures]
  by_cases fails : 0 < f.counters.fail
  · simp [fails]
  · simp [fails]

private theorem note?_eq_none_iff {level : Nat} {ending : Ending} :
    ending.note? level = none ↔ ending.state = .completed := by
  cases ending with
  | completed => simp [Ending.note?, Ending.state]
  | stopped whole reason step id => cases whole <;> simp [Ending.note?, Ending.state]
  | interrupted seq => simp [Ending.note?, Ending.state]

private theorem Ends.completed_of_undisturbed {level : Nat} {told : List (Row × Nat)} {l : Log}
    {ending : Ending} {terminated : Bool} (h : Ends level told l ending terminated)
    (goesOn : ∀ s ∈ ownSteps l, s.directive.stops = false)
    (nested : ∀ child st, ⟨.left child, st⟩ ∈ l → child.state ≠ .sessionTerminated)
    (unnoticed : ∀ seq st, ⟨.interrupted seq, st⟩ ∉ l) : ending = .completed := by
  cases h with
  | completed => rfl
  | quitCase s last asked =>
    have stops := goesOn s (List.mem_of_getLast? last)
    simp [Directive.stops, asked] at stops
  | quitSession s last asked =>
    have stops := goesOn s (List.mem_of_getLast? last)
    simp [Directive.stops, asked] at stops
  | nested s last front back child st st' ran _ quit =>
    refine absurd quit (nested child st ?_)
    rw [ran]
    exact List.mem_append_right _ List.mem_cons_self
  | interrupted row seq front st noticed =>
    refine absurd ?_ (unnoticed seq st)
    rw [noticed]
    exact List.mem_append_right _ List.mem_cons_self

def stoppedChildRun : Runner.Finished :=
  (withChild [noteRow "OnPass=quitcase", noteRow ""]).run caller {}

end Runbook.Run
