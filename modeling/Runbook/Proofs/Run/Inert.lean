import Runbook.Proofs.Run.Rows

set_option autoImplicit false

/-!
Rows that are skipped. What a row says to its action, its parameters and where to look, is read when
its step is carried out and not before. Two runs of programs that differ in these texts of one row
are compared: when the row is not carried out in one of them, nothing that is reported and nothing
that is left behind tells the two apart.
-/
namespace Runbook

/-- The row with other texts for its action to read. -/
def Row.withArguments (row : Row) (parameters locatorKind locatorSpec query : String) : Row :=
  { row with parameters, locatorKind, locatorSpec, query }

namespace Run

/-- The step of the row at a place is not carried out, if it is begun: its flag says so, or an
earlier step. -/
def SkippedAt (level place : Nat) (l : Log) : Prop :=
  ∀ e ∈ l, ∀ record ∈ e.begun?, record.position.level = level → record.position.seq = place →
    record.isActive = false

instance (level place : Nat) (l : Log) : Decidable (SkippedAt level place l) :=
  inferInstanceAs (Decidable (∀ e ∈ l, ∀ record ∈ e.begun?, record.position.level = level →
    record.position.seq = place → record.isActive = false))

structure StepRun.Alike (s s' : StepRun) : Prop where
  result : s'.result = s.result
  directive : s'.directive = s.directive
  skips : s'.skips = s.skips
  events : eventsOf s'.log = eventsOf s.log
  state : s'.state = s.state

structure RowsRun.Alike (run run' : RowsRun) : Prop where
  progress : run'.progress = run.progress
  ending : run'.ending = run.ending
  events : eventsOf run'.log = eventsOf run.log
  state : run'.state = run.state

private theorem RowsRun.Alike.refl (run : RowsRun) : run.Alike run :=
  ⟨rfl, rfl, rfl, rfl⟩

private theorem RowsRun.Alike.after {run run' : RowsRun} (h : run.Alike run') {l l' : Log}
    (same : eventsOf l' = eventsOf l) : (run.after l).Alike (run'.after l') where
  progress := h.progress
  ending := h.ending
  events := by rw [RowsRun.after, RowsRun.after, eventsOf_append, eventsOf_append, same, h.events]
  state := h.state

private theorem StepRun.Alike.stopped {s s' : StepRun} (h : s.Alike s') (g : Progress)
    (reason : String) :
    (s.stopped g reason).Alike (s'.stopped g reason) where
  progress := by simp only [StepRun.stopped, h.result]
  ending := by simp only [StepRun.stopped, h.result, h.state]
  events := h.events
  state := h.state

section Rewriting

variable {r : Runner} {deeper : Deeper} {p : Program} {row : Row} {seq skips : Nat}
  {st : RunState} (parameters locatorKind locatorSpec query : String)

theorem begunRecord_withArguments (p : Program) (row : Row) (seq skips : Nat) (st : RunState) :
    let record := begunRecord p seq row skips st
    begunRecord p seq (row.withArguments parameters locatorKind locatorSpec query) skips st =
      { record with
        row := record.row.withArguments parameters locatorKind locatorSpec query
        parametersText := st.session.vars.substitute parameters } := by
  simp only [begunRecord, placeRecord, Record.place, Record.ofRow, Row.withArguments]
  cases Activation.parse? (st.session.vars.substitute row.activation) with
  | none => split <;> rfl
  | some activation => split <;> rfl

private theorem step_withArguments
    (skipped : (begunRecord p seq row skips (opened r row st)).isActive = false) :
    (step r deeper p seq row skips st).Alike
      (step r deeper p seq (row.withArguments parameters locatorKind locatorSpec query) skips
        st) := by
  have rewritten := begunRecord_withArguments parameters locatorKind locatorSpec query p row seq
    skips (opened r row st)
  have same : opened r (row.withArguments parameters locatorKind locatorSpec query) st =
      opened r row st := rfl
  simp only [step, same, rewritten]
  generalize begunRecord p seq row skips (opened r row st) = record at skipped ⊢
  rw [attempt_of_inactive skipped, attempt_of_inactive]
  · exact ⟨rfl, rfl, rfl, rfl, rfl⟩
  · exact skipped

private theorem rows_withArguments {after : List Row} {g : Progress}
    (skipped : SkippedAt p.level seq (rows r deeper p (row :: after) seq skips g st).log) :
    (rows r deeper p (row :: after) seq skips g st).Alike
      (rows r deeper p (row.withArguments parameters locatorKind locatorSpec query :: after) seq
        skips g st) := by
  have same : (row.withArguments parameters locatorKind locatorSpec query).isEmpty = row.isEmpty :=
    rfl
  cases empty : row.isEmpty with
  | true =>
    rw [rows_of_empty empty, rows_of_empty (same.trans empty)]
    exact .refl _
  | false =>
    have counted := same.trans empty
    cases raised : st.interrupted with
    | true =>
      rw [rows_of_raised empty raised, rows_of_raised counted raised]
      exact .refl _
    | false =>
      -- The row is begun in any case, so that it is skipped says something of its record.
      have alike_of (first : ∀ e ∈ (step r deeper p seq row skips st).log,
          e ∈ (rows r deeper p (row :: after) seq skips g st).log) :
          (step r deeper p seq row skips st).Alike (step r deeper p seq
            (row.withArguments parameters locatorKind locatorSpec query) skips st) := by
        have placed := begunRecord_placed p seq row skips (opened r row st)
        apply step_withArguments
        apply skipped _ (first _ List.mem_cons_self) _ rfl
        · rw [placed.position]
        · rw [placed.position]
      cases stops : stopReason? (step r deeper p seq row skips st) with
      | some reason =>
        have alike := alike_of fun e member => by
          rw [rows_of_stops empty raised stops]
          exact member
        rw [rows_of_stops empty raised stops,
          rows_of_stops counted raised ((stopReason?_congr alike.directive alike.state).trans stops)]
        exact alike.stopped g reason
      | none =>
        have alike := alike_of fun e member => by
          rw [rows_of_goes empty raised stops]
          exact List.mem_append_left _ member
        rw [rows_of_goes empty raised stops,
          rows_of_goes counted raised ((stopReason?_congr alike.directive alike.state).trans stops),
          alike.result, alike.skips, alike.state]
        exact .after (.refl _) alike.events

end Rewriting

/-- Rows that are skipped are inert: with other texts for its action in such a row the run reports
and leaves behind the same. -/
theorem skipped_rows_inert (r : Runner) (p : Program) (st : RunState)
    (before : List Row) (row : Row) (after : List Row)
    (parameters locatorKind locatorSpec query : String)
    (skipped : SkippedAt p.level (before.length + 1)
      (r.run { p with rows := before ++ row :: after } st).log) :
    let run := r.run { p with rows := before ++ row :: after } st
    let row' := { row with parameters, locatorKind, locatorSpec, query }
    let run' := r.run { p with rows := before ++ row' :: after } st
    run'.events = run.events ∧ run'.summary = run.summary ∧ run'.state = run.state := by
  intro run row' run'
  have alike : (rows r (below r) p (before ++ row :: after) 1 0 {} st).Alike
      (rows r (below r) p (before ++ row' :: after) 1 0 {} st) := by
    rw [run_withRows] at skipped
    rcases rows_append r (below r) p before 1 0 {} st with complete | ⟨skips', further⟩
    · rw [complete, complete]
      exact .refl _
    · rw [further, Nat.add_comm] at skipped
      rw [further, further]
      apply RowsRun.Alike.after _ rfl
      apply rows_withArguments
      intro e member
      apply skipped e
      exact List.mem_append_left _ (List.mem_cons_of_mem _ (List.mem_append_right _ member))
  have summary : summarize p (rows r (below r) p (before ++ row' :: after) 1 0 {} st) =
      summarize p (rows r (below r) p (before ++ row :: after) 1 0 {} st) := by
    simp only [summarize, alike.progress, alike.ending, alike.state]
  refine ⟨?_, ?_, ?_⟩
  · simp only [run, run', events_run_withRows, alike.events, summary, alike.state]
  · simp only [run, run', run_withRows, alike.state]
  · simp only [run, run', run_withRows, reported, alike.state, summary]

def skippingCaller : Program :=
  { name := "caller", rows := [noteRow "OnPass=skip:1", callRow] }

theorem skippingCaller_inert :
    SkippedAt 1 2 ((withChild [noteRow ""]).run skippingCaller {}).log ∧
    (stepsIn ((withChild [noteRow ""]).run skippingCaller {}).events).map (·.status) =
      [.pass, .skip] ∧
    let row : Row := { callRow with parameters := "OnFail=bogus;a=%date(;=;=", query := "{a}" }
    ((withChild [noteRow ""]).run { skippingCaller with rows := [noteRow "OnPass=skip:1", row] }
      {}).events = ((withChild [noteRow ""]).run skippingCaller {}).events := by
  have skipped : SkippedAt 1 2 ((withChild [noteRow ""]).run skippingCaller {}).log := by
    decide +kernel
  refine ⟨skipped, by decide +kernel, ?_⟩
  exact (skipped_rows_inert (withChild [noteRow ""]) skippingCaller {} [noteRow "OnPass=skip:1"]
    callRow [] "OnFail=bogus;a=%date(;=;=" "" "" "{a}" skipped).1

end Run
end Runbook
