import Runbook.Proofs.Counters
import Runbook.Proofs.Run.Nesting

set_option autoImplicit false

/-!
The books of a run. A step is begun in the session's counters before the program it runs and ended
in them after it, so the counters are out of balance at every nested point; over a whole step, and
so over a whole program, they grow by exactly what the reported programs count.
-/
namespace Runbook

def FrameSummary.Tallied (f : FrameSummary) : Prop :=
  f.counters = .ofSteps f.steps

namespace Run

/-- The books of a part of a run: what the programs reported in it count, the session, and what is
still open. -/
structure Booked (before : RunState) (log : Log) (own : List StepResult) (after : RunState) :
    Prop where
  tallied : ∀ f ∈ framesIn (eventsOf log), f.Tallied
  steps : (own ++ (framesIn (eventsOf log)).flatMap (·.steps)).Perm (stepsIn (eventsOf log))
  counted : after.session.counters =
    before.session.counters + .ofSteps (stepsIn (eventsOf log))

namespace Booked

private theorem idle {before after : RunState} {log : Log} (silent : eventsOf log = [])
    (same : after.session.counters = before.session.counters) : Booked before log [] after where
  tallied := by simp [silent]
  steps := by simp [silent]
  counted := by simp [silent, same]

private theorem append {a b c : RunState} {l l' : Log} {own own' : List StepResult}
    (h : Booked a l own b) (h' : Booked b l' own' c) : Booked a (l ++ l') (own ++ own') c where
  tallied f hf := by
    rw [eventsOf_append, framesIn_append] at hf
    exact (List.mem_append.1 hf).elim (h.tallied f) (h'.tallied f)
  steps := by
    rw [eventsOf_append, framesIn_append, stepsIn_append, List.flatMap_append]
    refine .trans ?_ (h.steps.append h'.steps)
    simp only [List.append_assoc]
    refine .append_left own ?_
    rw [← List.append_assoc, ← List.append_assoc]
    exact .append_right _ List.perm_append_comm
  counted := by
    rw [h'.counted, h.counted, eventsOf_append, stepsIn_append, Counters.ofSteps_append, add_assoc]

private theorem step {r : Runner} {row : Row} {st : RunState} {e : Execution} (skips : Nat)
    (record : Record) (h : Booked (opened r row st) e.log [] e.state) :
    let s := finished r row skips record (opened r row st) e
    Booked st s.log [s.result] s.state := by
  have events := eventsOf_step record e.record e.directive (opened r row st) (closed r row e) e.log
  constructor
  · simp only [finished, events, framesIn_append, framesIn_step, List.append_nil]
    exact h.tallied
  · simp only [finished, events, framesIn_append, stepsIn_append, framesIn_step, stepsIn_step,
      List.append_nil]
    exact List.perm_append_comm.trans (h.steps.append_right _)
  · have ended : (closed r row e).session.counters =
        e.state.session.counters.record e.record.status := by
      unfold closed Session.record
      split <;> rfl
    have begun : (opened r row st).session.counters = st.session.counters.begin := rfl
    simp only [finished, events, stepsIn_append, stepsIn_step]
    rw [ended, h.counted, begun, Counters.record_begin_add, Counters.ofSteps_append,
      Counters.ofSteps_cons, Counters.ofSteps_nil, add_zero]
    rfl

end Booked

variable {r : Runner} {deeper : Deeper}

private theorem step_booked
    (h : ∀ run, deeper = some run → ∀ p st, Booked st (run p st).log [] (run p st).state)
    (p : Program) (seq : Nat) (row : Row) (skips : Nat) (st : RunState) :
    let s := step r deeper p seq row skips st
    Booked st s.log [s.result] s.state := by
  obtain ⟨record, e, same, -, -, descends⟩ := step_cases r deeper p seq row skips st
  rw [same]
  refine .step skips record ?_
  exact descends.fold (R := fun a l b => Booked a l [] b) (fun quiet => .idle rfl quiet.counters)
    .append fun run deep child _ => h run deep child

private theorem rows_booked
    (h : ∀ run, deeper = some run → ∀ p st, Booked st (run p st).log [] (run p st).state)
    (p : Program) (l : List Row) (seq skips : Nat) (g : Progress) (st : RunState)
    (tallied : g.counters = .ofSteps g.steps) :
    let run := rows r deeper p l seq skips g st
    run.progress.counters = .ofSteps run.progress.steps ∧
      ∃ own, run.progress.steps = g.steps ++ own ∧ Booked st run.log own run.state := by
  have added (g : Progress) (s : StepResult) (tallied : g.counters = .ofSteps g.steps) :
      (g.add s).counters = .ofSteps (g.add s).steps := by
    simp [Progress.add, tallied, Counters.record_begin]
  fun_induction rows r deeper p l seq skips g st with
  | case1 seq skips g st => exact ⟨tallied, [], by simp, .idle rfl rfl⟩
  | case2 row rest seq skips g st empty ih => exact ih tallied
  | case3 row rest seq skips g st _ _ stopped => exact ⟨tallied, [], by simp, .idle rfl rfl⟩
  | case4 row rest seq skips g st _ _ s g' reason _ =>
    exact ⟨added g s.result tallied, [s.result], rfl, step_booked h p seq row skips st⟩
  | case5 row rest seq skips g st _ _ s g' _ more ih =>
    obtain ⟨balanced, own, steps, booked⟩ := ih (added g s.result tallied)
    refine ⟨balanced, s.result :: own, ?_, (step_booked h p seq row skips st).append booked⟩
    rw [steps]
    simp [g', Progress.add]

theorem events_frameWith (deeper : Deeper) (p : Program) (st : RunState) :
    (frameWith r deeper p st).events =
      eventsOf (rows r deeper p p.rows 1 0 {} st).log ++
        [.frame (frameWith r deeper p st).summary] :=
  eventsOf_frame p _ _ _ _

private theorem frameWith_booked
    (h : ∀ run, deeper = some run → ∀ p st, Booked st (run p st).log [] (run p st).state)
    (p : Program) (st : RunState) :
    Booked st (frameWith r deeper p st).log [] (frameWith r deeper p st).state := by
  obtain ⟨tallied, own, steps, booked⟩ := rows_booked (r := r) h p p.rows 1 0 {} st rfl
  have events := events_frameWith (r := r) deeper p st
  -- The steps of the rows are those of the new summary, which takes them from the open ones.
  have reported : (frameWith r deeper p st).summary.steps = own := by
    rw [← List.nil_append own]
    exact steps
  constructor
  · intro f member
    rw [← FrameRun.events, events, framesIn_append, framesIn_frame] at member
    rcases List.mem_append.1 member with inner | last
    · exact booked.tallied f inner
    · obtain rfl := List.mem_singleton.1 last
      exact tallied
  · rw [← FrameRun.events, events, framesIn_append, stepsIn_append, framesIn_frame, stepsIn_frame,
      List.flatMap_append, List.nil_append, List.append_nil, List.flatMap_singleton, reported]
    exact List.perm_append_comm.trans booked.steps
  · rw [← FrameRun.events, events, stepsIn_append, stepsIn_frame, List.append_nil]
    exact booked.counted

private theorem frameAt_booked (r : Runner) (depth : Nat) (p : Program) (st : RunState) :
    Booked st (frameAt r depth p st).log [] (frameAt r depth p st).state :=
  frameAt_induction (P := fun _ st f => Booked st f.log [] f.state)
    (fun _ h p st => frameWith_booked h p st) depth p st

theorem run_booked (r : Runner) (p : Program) (st : RunState) :
    Booked st (r.run p st).log [] (r.run p st).state := by
  have booked := frameAt_booked r (r.config.maxDepth - p.level) p st
  exact ⟨booked.tallied, booked.steps, booked.counted⟩

private theorem frameAt_reports_last (r : Runner) (depth : Nat) (p : Program)
    (st : RunState) :
    (framesIn (frameAt r depth p st).events).getLast? =
      some (frameAt r depth p st).summary :=
  frameAt_induction (P := fun _ _ f => (framesIn f.events).getLast? = some f.summary)
    (fun deeper _ p st => by simp [events_frameWith]) depth p st

/-- Counters are conserved: each program counts exactly its own steps, and the session what all of
them count. -/
theorem counters_conserved (r : Runner) (p : Program) (st : RunState) :
    let run := r.runFrame p st
    (∀ f ∈ framesIn run.events,
      f.counters.done = f.steps.length ∧
      f.counters.done = f.counters.pass + f.counters.fail + f.counters.skip ∧
      f.counters.pass = f.steps.countP (fun s => s.status = .pass) ∧
      f.counters.fail = f.steps.countP (fun s => s.status = .fail) ∧
      f.counters.skip = f.steps.countP (fun s => s.status = .skip)) ∧
    (framesIn run.events).getLast? = some run.summary ∧
    run.state.session.counters =
      st.session.counters + ((framesIn run.events).map (·.counters)).sum := by
  intro run
  have booked : Booked st run.log [] run.state := frameAt_booked _ _ _ _
  refine ⟨?_, frameAt_reports_last _ _ _ _, ?_⟩
  · intro f member
    have tallied : f.counters = .ofSteps f.steps := booked.tallied f member
    rw [tallied]
    exact ⟨Counters.done_ofSteps _, Counters.balanced_ofSteps _, Counters.under_ofSteps _ .pass,
      Counters.under_ofSteps _ .fail, Counters.under_ofSteps _ .skip⟩
  · have same : (framesIn run.events).map (·.counters) =
        (framesIn run.events).map fun f => Counters.ofSteps f.steps :=
      List.map_congr_left booked.tallied
    rw [booked.counted, ← Counters.ofSteps_perm booked.steps, List.nil_append,
      Counters.ofSteps_flatMap, same]
    rfl

def stoppingRun : FrameRun :=
  (withChild [{ id := "fail", action := "Fail", parameters := "OnFail=quitcase" },
    noteRow ""]).runFrame caller {}

theorem stoppingRun_conserves :
    (framesIn stoppingRun.events).map (·.counters) = [⟨1, 0, 1, 0⟩, ⟨2, 2, 0, 0⟩] ∧
    stoppingRun.state.session.counters = ⟨3, 2, 1, 0⟩ := by
  have frames : (framesIn stoppingRun.events).map (·.counters) =
      [⟨1, 0, 1, 0⟩, ⟨2, 2, 0, 0⟩] := by
    decide +kernel
  obtain ⟨-, -, total⟩ := counters_conserved
    (withChild [{ id := "fail", action := "Fail", parameters := "OnFail=quitcase" }, noteRow ""])
    caller {}
  change stoppingRun.state.session.counters =
    Counters.zero + ((framesIn stoppingRun.events).map (·.counters)).sum at total
  rw [frames] at total
  exact ⟨frames, total⟩

end Run
end Runbook
