import Runbook.Proofs.Run.Conservation

set_option autoImplicit false

/-!
The verdict on a run. A step fails exactly when an error or an exception is noted on it, every
failed step is counted by the session, and so the exit code tells whether anything was noted on a
step of any program.
-/
namespace Runbook

def StepResult.Clean (s : StepResult) : Prop :=
  s.errors = [] ∧ s.exception = none

instance (s : StepResult) : Decidable s.Clean :=
  inferInstanceAs (Decidable (_ ∧ _))

theorem Record.status_eq_fail_iff (record : Record) :
    record.status = .fail ↔ record.hasErrors = true := by
  unfold Record.status
  cases record.hasErrors with
  | true => simp
  | false =>
    rw [if_neg Bool.false_ne_true]
    split
    · simp
    · simp

theorem Record.clean_result_iff (record : Record) :
    record.result.Clean ↔ record.result.status ≠ .fail := by
  have fails := record.status_eq_fail_iff
  change record.errors = [] ∧ record.exception = none ↔ record.status ≠ .fail
  rw [ne_eq, fails, Record.hasErrors]
  cases record.exception with
  | none => simp
  | some exception => simp

namespace Verdict

private theorem exitCode_of_eq_zero_iff (counters : Counters) (terminated : Bool) :
    (Verdict.of counters terminated).exitCode = 0 ↔
      terminated = false ∧ counters.hasFailures = false := by
  unfold Verdict.of
  cases terminated with
  | true => simp [exitCode]
  | false =>
    cases counters.hasFailures with
    | true => simp [exitCode]
    | false => simp [exitCode]

private theorem of_eq_of_exitCode_ne_zero {counters : Counters} {terminated : Bool}
    (h : (Verdict.of counters terminated).exitCode ≠ 0) :
    Verdict.of counters terminated = if terminated then .terminated else .failed := by
  unfold Verdict.of at h ⊢
  cases terminated with
  | true => rfl
  | false =>
    cases failures : counters.hasFailures with
    | true => rfl
    | false =>
      rw [failures] at h
      exact absurd rfl h

end Verdict

namespace Run

private theorem clean_iff_of_reported {s : StepResult} {l : Log} (h : s ∈ stepsIn (eventsOf l)) :
    s.Clean ↔ s.status ≠ .fail := by
  obtain ⟨record, directive, st, -, rfl⟩ := mem_stepsIn_eventsOf.1 h
  exact record.clean_result_iff

/-- No failure disappears from the exit code: it is 0 exactly when nothing terminates the session
and every step is clean. -/
theorem exitCode_eq_zero_iff (r : Runner) (p : Program) (st : RunState)
    (fresh : st.session.counters = .zero) :
    let run := r.run p st
    (run.summary.verdict.exitCode = 0 ↔
      run.state.session.terminated = false ∧
        ∀ f ∈ framesIn run.events, ∀ s ∈ f.steps, s.errors = [] ∧ s.exception = none) ∧
    (run.summary.verdict.exitCode ≠ 0 →
      run.summary.verdict = if run.state.session.terminated then .terminated else .failed) ∧
    ∀ s, s ∈ stepsIn run.events ↔ ∃ f ∈ framesIn run.events, s ∈ f.steps := by
  intro run
  have booked : Booked st run.log [] run.state := run_booked r p st
  have steps : stepsIn run.events = stepsIn (eventsOf run.log) := by
    rw [Runner.Finished.events, stepsIn_append, stepsIn_session, List.append_nil]
  have frames : framesIn run.events = framesIn (eventsOf run.log) := by
    rw [Runner.Finished.events, framesIn_append, framesIn_session, List.append_nil]
  have reported : ∀ s, s ∈ stepsIn run.events ↔ ∃ f ∈ framesIn run.events, s ∈ f.steps := by
    intro s
    rw [steps, frames, ← booked.steps.mem_iff, List.nil_append, List.mem_flatMap]
  have counted : run.state.session.counters = .ofSteps (stepsIn (eventsOf run.log)) := by
    rw [booked.counted, fresh]
    exact zero_add _
  have clean : run.state.session.counters.hasFailures = false ↔
      ∀ f ∈ framesIn run.events, ∀ s ∈ f.steps, s.Clean := by
    rw [counted, Counters.hasFailures_ofSteps, ← steps]
    constructor
    · intro passes f member s step
      have found := (reported s).2 ⟨f, member, step⟩
      have passed := passes s found
      rw [steps] at found
      exact (clean_iff_of_reported found).2 passed
    · intro cleans s found
      obtain ⟨f, member, step⟩ := (reported s).1 found
      rw [steps] at found
      exact (clean_iff_of_reported found).1 (cleans f member s step)
  refine ⟨?_, ?_, reported⟩
  · have exit := Verdict.exitCode_of_eq_zero_iff run.state.session.counters
      run.state.session.terminated
    rw [clean] at exit
    exact exit
  · intro fails
    exact Verdict.of_eq_of_exitCode_ne_zero fails

def failingRun : Runner.Finished :=
  (withChild [{ id := "fail", action := "Fail" }]).run caller {}

/-- The step that ran the failed program passes, the run does not. -/
theorem failingRun_fails :
    ({} : RunState).session.counters = .zero ∧
    (∃ s ∈ stepsIn failingRun.events, s.action = "RunProgram" ∧ s.status = .pass) ∧
    failingRun.summary.verdict.exitCode ≠ 0 ∧ failingRun.summary.verdict = .failed := by
  obtain ⟨exit, verdict, -⟩ :=
    exitCode_eq_zero_iff (withChild [{ id := "fail", action := "Fail" }]) caller {} rfl
  have noted : ¬ ∀ f ∈ framesIn failingRun.events, ∀ s ∈ f.steps, s.Clean := by
    decide +kernel
  have fails : failingRun.summary.verdict.exitCode ≠ 0 := by
    intro passes
    exact noted (exit.1 passes).2
  have running : failingRun.state.session.terminated = false := by
    decide +kernel
  have judged : failingRun.summary.verdict =
      if failingRun.state.session.terminated then .terminated else .failed := verdict fails
  rw [running] at judged
  exact ⟨rfl, by decide +kernel, fails, judged⟩

end Run
end Runbook
