import Runbook.Proofs.Run.Conservation

set_option autoImplicit false

/-!
What the reports of the reportable tier add up to. A report takes what is in the tier and leaves it
empty, in the middle of the steps that ran the program, so that a step may be counted as begun in
one report and under its outcome in another. A single report can therefore be out of balance, but
all of them, together with what is left in the tier, count every reported step once.
-/
namespace Runbook

private theorem Counters.add_record (a b : Counters) (s : Status) :
    a + b.record s = (a + b).record s := by
  cases s <;> ext <;> simp [Counters.record, Nat.add_assoc]

namespace Run

/-- The reportable tiers that the programs among events are reported with, taken together. -/
def snapshots (es : List Event) : Counters :=
  ((framesIn es).map (·.reportable)).sum

def countedSteps (r : Runner) (es : List Event) : List StepResult :=
  (stepsIn es).filter fun s => !r.config.isUnreported s.action

@[simp] theorem snapshots_append (es es' : List Event) :
    snapshots (es ++ es') = snapshots es + snapshots es' := by
  simp [snapshots]

@[simp] theorem snapshots_step (s : StepResult) : snapshots [.step s] = 0 := rfl

@[simp] theorem snapshots_frame (f : FrameSummary) : snapshots [.frame f] = f.reportable := by
  simp [snapshots]

@[simp] theorem countedSteps_append (r : Runner) (es es' : List Event) :
    countedSteps r (es ++ es') = countedSteps r es ++ countedSteps r es' := by
  simp [countedSteps]

@[simp] theorem countedSteps_frame (r : Runner) (f : FrameSummary) :
    countedSteps r [.frame f] = [] := rfl

private theorem countedSteps_result (r : Runner) (record : Record) :
    countedSteps r [.step record.result] =
      if isReported r record.row then [record.result] else [] := by
  have same : isReported r record.row = !r.config.isUnreported record.result.action := rfl
  rw [countedSteps, stepsIn_step, List.filter_cons, List.filter_nil, same]

/-- A part of a run whose reports took exactly what its steps and the tier before it put in, but for
what is left in the tier. -/
def Settled (r : Runner) (before : RunState) (log : Log) (after : RunState) : Prop :=
  snapshots (eventsOf log) + after.session.reportable =
    before.session.reportable + .ofSteps (countedSteps r (eventsOf log))

namespace Settled

variable {r : Runner}

private theorem idle {before after : RunState} {log : Log} (silent : eventsOf log = [])
    (same : after.session.reportable = before.session.reportable) : Settled r before log after := by
  simp [Settled, silent, same, snapshots, countedSteps]

private theorem append {a b c : RunState} {l l' : Log} (h : Settled r a l b)
    (h' : Settled r b l' c) :
    Settled r a (l ++ l') c := by
  unfold Settled at *
  rw [eventsOf_append, snapshots_append, countedSteps_append, Counters.ofSteps_append, add_assoc,
    h', ← add_assoc, h, add_assoc]

private theorem step {row : Row} {st : RunState} {e : Execution} (skips : Nat) (record : Record)
    (ofRow : e.record.row = row) (h : Settled r (opened r row st) e.log e.state) :
    let s := finished r row skips record (opened r row st) e
    Settled r st s.log s.state := by
  have begun : (opened r row st).session.reportable =
      if isReported r row then st.session.reportable.begin else st.session.reportable := rfl
  have ended : (closed r row e).session.reportable =
      if isReported r row then e.state.session.reportable.record e.record.status
      else e.state.session.reportable := by
    unfold closed Session.record
    split <;> rfl
  have events := eventsOf_step record e.record e.directive (opened r row st) (closed r row e) e.log
  unfold Settled at h ⊢
  simp only [finished, events, snapshots_append, snapshots_step, add_zero, countedSteps_append,
    countedSteps_result, ofRow, Counters.ofSteps_append]
  rw [begun] at h
  rw [ended]
  cases reported : isReported r row with
  | false =>
    simp only [reported, Bool.false_eq_true, if_false] at h ⊢
    rw [h, Counters.ofSteps_nil, add_zero]
  | true =>
    simp only [reported, if_true] at h ⊢
    rw [Counters.add_record, h, Counters.record_begin_add, Counters.ofSteps_cons,
      Counters.ofSteps_nil, add_zero]
    rfl

private theorem report {before after after' : RunState} {log : Log} {f : FrameSummary} (p : Program)
    (h : Settled r before log after) (taken : f.reportable = after.session.reportable)
    (left : after'.session.reportable = .zero) :
    Settled r before (⟨.entered p, before⟩ :: log ++ [⟨.left f, after'⟩]) after' := by
  have none_left : after'.session.reportable = 0 := left
  unfold Settled at h ⊢
  rw [eventsOf_frame, snapshots_append, snapshots_frame, countedSteps_append, countedSteps_frame,
    List.append_nil, taken, none_left, add_zero]
  exact h

end Settled

variable {r : Runner} {deeper : Deeper}

private theorem step_settled
    (h : ∀ run, deeper = some run → ∀ p st, Settled r st (run p st).log (run p st).state)
    (p : Program) (seq : Nat) (row : Row) (skips : Nat) (st : RunState) :
    let s := step r deeper p seq row skips st
    Settled r st s.log s.state := by
  obtain ⟨record, e, same, ofRow, continues, descends⟩ := step_cases r deeper p seq row skips st
  rw [same]
  apply Settled.step skips record (continues.row.trans ofRow)
  exact descends.fold (R := Settled r) (fun quiet => .idle rfl quiet.reportable) .append
    fun run deep child _ => h run deep child

private theorem rows_settled
    (h : ∀ run, deeper = some run → ∀ p st, Settled r st (run p st).log (run p st).state)
    (p : Program) (l : List Row) (seq skips : Nat) (g : Progress) (st : RunState) :
    let run := rows r deeper p l seq skips g st
    Settled r st run.log run.state := by
  fun_induction rows r deeper p l seq skips g st with
  | case1 seq skips g st => exact .idle rfl rfl
  | case2 row rest seq skips g st empty ih => exact ih
  | case3 row rest seq skips g st _ _ stopped => exact .idle rfl rfl
  | case4 row rest seq skips g st _ _ s g' reason _ => exact step_settled h p seq row skips st
  | case5 row rest seq skips g st _ _ s g' _ more ih =>
    exact (step_settled h p seq row skips st).append ih

private theorem frameAt_settled (r : Runner) (depth : Nat) (p : Program) (st : RunState) :
    Settled r st (frameAt r depth p st).log (frameAt r depth p st).state := by
  apply frameAt_induction (P := fun _ st f => Settled r st f.log f.state)
  intro deeper h p st
  exact (rows_settled h p p.rows 1 0 {} st).report p rfl rfl

/-- Reports lose nothing and tell nothing twice: the tiers of all programs add up to what is
counted. -/
theorem reports_exact (r : Runner) (p : Program) (st : RunState)
    (fresh : st.session.reportable = .zero) :
    let run := r.run p st
    let total := ((framesIn run.events).map (·.reportable)).sum
    let counted := (stepsIn run.events).filter fun s => !r.config.isUnreported s.action
    (total.done = counted.length ∧
      total.pass = counted.countP (fun s => s.status = .pass) ∧
      total.fail = counted.countP (fun s => s.status = .fail) ∧
      total.skip = counted.countP (fun s => s.status = .skip)) ∧
    run.state.session.reportable = .zero ∧
    ((framesIn run.events).flatMap (·.steps)).Perm (stepsIn run.events) := by
  intro run total counted
  have frames : framesIn run.events = framesIn (eventsOf run.log) := by
    rw [Runner.Finished.events, framesIn_append, framesIn_session, List.append_nil]
  have steps : stepsIn run.events = stepsIn (eventsOf run.log) := by
    rw [Runner.Finished.events, stepsIn_append, stepsIn_session, List.append_nil]
  have emptied : run.state.session.reportable = .zero := by
    obtain ⟨deeper, same, -⟩ := frameAt_eq_frameWith r (r.config.maxDepth - p.level) p st
    change (frameAt r (r.config.maxDepth - p.level) p st).state.session.reportable = _
    rw [same]
    rfl
  have settled := frameAt_settled r (r.config.maxDepth - p.level) p st
  have booked : Booked st run.log [] run.state := run_booked r p st
  have sums : total = .ofSteps counted := by
    have start : st.session.reportable = 0 := fresh
    have rest : (frameAt r (r.config.maxDepth - p.level) p st).state.session.reportable = 0 :=
      emptied
    unfold Settled at settled
    rw [start, rest, add_zero, zero_add] at settled
    simp only [total, counted, frames, steps]
    exact settled
  refine ⟨?_, emptied, ?_⟩
  · rw [sums]
    exact ⟨Counters.done_ofSteps _, Counters.under_ofSteps _ .pass, Counters.under_ofSteps _ .fail,
      Counters.under_ofSteps _ .skip⟩
  · rw [frames, steps]
    exact booked.steps

def sparingRunner : Runner :=
  { withChild [{ id := "fail", action := "Fail" }, noteRow ""] with
    config := { unreportedActions := ["Fail"] } }

def sparingRun : Runner.Finished :=
  sparingRunner.run caller {}

/-- Both reports are out of balance, what they add up to is not. -/
theorem sparingRun_exact :
    ({} : RunState).session.reportable = .zero ∧
    (framesIn sparingRun.events).map (·.reportable) = [⟨2, 1, 0, 0⟩, ⟨1, 2, 0, 0⟩] ∧
    ((stepsIn sparingRun.events).filter
      fun s => !sparingRunner.config.isUnreported s.action).length = 3 ∧
    sparingRun.state.session.reportable = .zero := by
  have frames : (framesIn sparingRun.events).map (·.reportable) =
      [⟨2, 1, 0, 0⟩, ⟨1, 2, 0, 0⟩] := by
    decide +kernel
  obtain ⟨⟨done, -⟩, emptied, -⟩ := reports_exact sparingRunner caller {} rfl
  change (snapshots sparingRun.events).done = _ at done
  rw [snapshots, frames] at done
  exact ⟨rfl, frames, done.symm, emptied⟩

end Run
end Runbook
