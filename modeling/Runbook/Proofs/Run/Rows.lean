import Runbook.Proofs.Run.Calls

set_option autoImplicit false

/-!
The rows of a program, one after the other. What a first row does to the rest is told by one
equation for each way it can go, and rows that come first are over before the others begin: they end
the program whatever follows, or what follows goes on from what they leave behind.
-/
namespace Runbook.Run

def RowsRun.after (run : RowsRun) (log : Log) : RowsRun :=
  { run with log := log ++ run.log }

private theorem RowsRun.after_after (run : RowsRun) (l l' : Log) :
    (run.after l).after l' = run.after (l' ++ l) := by
  simp [RowsRun.after]

def StepRun.stopped (s : StepRun) (g : Progress) (reason : String) : RowsRun where
  progress := g.add s.result
  ending := .stopped s.state.session.terminated reason s.result.step s.result.id
  log := s.log
  state := s.state

theorem stopReason?_congr {s s' : StepRun} (directive : s'.directive = s.directive)
    (state : s'.state = s.state) : stopReason? s' = stopReason? s := by
  simp only [stopReason?, directive, state]

variable {r : Runner} {deeper : Deeper} {p : Program} {row : Row} {st : RunState} {seq skips : Nat}

theorem rows_of_empty (empty : row.isEmpty = true) (rest : List Row) (g : Progress) :
    rows r deeper p (row :: rest) seq skips g st = rows r deeper p rest (seq + 1) skips g st := by
  rw [rows, if_pos empty]

theorem rows_of_raised (counted : row.isEmpty = false) (raised : st.interrupted = true)
    (rest : List Row) (g : Progress) :
    rows r deeper p (row :: rest) seq skips g st =
      { progress := g
        ending := .interrupted seq
        log := [⟨.interrupted seq, { st with session := st.session.terminate }⟩]
        state := { st with session := st.session.terminate } } := by
  rw [rows, if_neg (Bool.eq_false_iff.1 counted), if_pos raised]

theorem rows_of_stops (counted : row.isEmpty = false) (lowered : st.interrupted = false)
    {reason : String} (stops : stopReason? (step r deeper p seq row skips st) = some reason)
    (rest : List Row) (g : Progress) :
    rows r deeper p (row :: rest) seq skips g st =
      (step r deeper p seq row skips st).stopped g reason := by
  rw [rows, if_neg (Bool.eq_false_iff.1 counted), if_neg (Bool.eq_false_iff.1 lowered)]
  simp only [stops]
  rfl

theorem rows_of_goes (counted : row.isEmpty = false) (lowered : st.interrupted = false)
    (goes : stopReason? (step r deeper p seq row skips st) = none) (rest : List Row)
    (g : Progress) :
    rows r deeper p (row :: rest) seq skips g st =
      (rows r deeper p rest (seq + 1) (step r deeper p seq row skips st).skips
        (g.add (step r deeper p seq row skips st).result)
        (step r deeper p seq row skips st).state).after (step r deeper p seq row skips st).log := by
  rw [rows, if_neg (Bool.eq_false_iff.1 counted), if_neg (Bool.eq_false_iff.1 lowered)]
  simp only [goes]
  rfl

theorem rows_began (counted : row.isEmpty = false) (lowered : st.interrupted = false) (r : Runner)
    (deeper : Deeper) (p : Program) (rest : List Row) (seq skips : Nat) (g : Progress) :
    ∃ more, (rows r deeper p (row :: rest) seq skips g st).log =
      ⟨.began (begunRecord p seq row skips (opened r row st)), opened r row st⟩ :: more := by
  cases stops : stopReason? (step r deeper p seq row skips st) with
  | some reason =>
    rw [rows_of_stops counted lowered stops]
    exact ⟨_, rfl⟩
  | none =>
    rw [rows_of_goes counted lowered stops]
    exact ⟨_, rfl⟩

/-- Rows that come first end the program whatever follows, or leave it to go on. -/
theorem rows_append (r : Runner) (deeper : Deeper) (p : Program) (first : List Row)
    (seq skips : Nat) (g : Progress) (st : RunState) :
    let run := rows r deeper p first seq skips g st
    (∀ l, rows r deeper p (first ++ l) seq skips g st = run) ∨
      ∃ skips', ∀ l, rows r deeper p (first ++ l) seq skips g st =
        (rows r deeper p l (seq + first.length) skips' run.progress run.state).after run.log := by
  induction first generalizing seq skips g st with
  | nil => exact .inr ⟨skips, fun l => rfl⟩
  | cons row rest ih =>
    have place : seq + 1 + rest.length = seq + (row :: rest).length := by
      rw [List.length_cons]
      omega
    simp only [List.cons_append, ← place]
    cases empty : row.isEmpty with
    | true =>
      simp only [rows_of_empty empty]
      exact ih (seq + 1) skips g st
    | false =>
      cases raised : st.interrupted with
      | true =>
        simp only [rows_of_raised empty raised]
        exact .inl fun l => trivial
      | false =>
        cases stops : stopReason? (step r deeper p seq row skips st) with
        | some reason =>
          simp only [rows_of_stops empty raised stops]
          exact .inl fun l => trivial
        | none =>
          simp only [rows_of_goes empty raised stops]
          rcases ih (seq + 1) (step r deeper p seq row skips st).skips
            (g.add (step r deeper p seq row skips st).result)
            (step r deeper p seq row skips st).state with complete | ⟨skips', further⟩
          · exact .inl fun l => by rw [complete]
          · exact .inr ⟨skips', fun l => by rw [further, RowsRun.after_after]; rfl⟩

private theorem rows_withRows (p : Program) (other l : List Row) (seq skips : Nat) (g : Progress)
    (st : RunState) :
    rows r deeper { p with rows := other } l seq skips g st = rows r deeper p l seq skips g st := by
  have same (seq : Nat) (row : Row) (skips : Nat) (st : RunState) :
      step r deeper { p with rows := other } seq row skips st = step r deeper p seq row skips st :=
    rfl
  induction l generalizing seq skips g st with
  | nil => rfl
  | cons row rest ih => simp only [rows, same, ih]

def reported (r : Runner) (p : Program) (run : RowsRun) : RunState :=
  { run.state with
    session := run.state.session.resetReportable
    files := r.reporter (.frame (summarize p run)) run.state.files }

theorem run_withRows (r : Runner) (p : Program) (l : List Row) (st : RunState) :
    let run := rows r (below r) p l 1 0 {} st
    let left := reported r p run
    let summary := SessionSummary.of p.name run.state.session.counters run.state.session.terminated
    r.run { p with rows := l } st =
      { summary
        log := ⟨.entered { p with rows := l }, st⟩ :: run.log ++ [⟨.left (summarize p run), left⟩]
        state := { left with files := r.reporter (.session summary) left.files } } := by
  rw [Runner.run, runFrame_eq, frameWith]
  simp only [rows_withRows]
  rfl

theorem events_run_withRows (r : Runner) (p : Program) (l : List Row)
    (st : RunState) :
    let run := rows r (below r) p l 1 0 {} st
    (r.run { p with rows := l } st).events =
      eventsOf run.log ++ [.frame (summarize p run)] ++
        [.session (.of p.name run.state.session.counters run.state.session.terminated)] := by
  rw [run_withRows, Runner.Finished.events, eventsOf_frame]

end Runbook.Run
