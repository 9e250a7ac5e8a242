import Runbook.Proofs.Run.OwnSteps
import Runbook.Proofs.Run.Termination

set_option autoImplicit false

/-!
Sessions that are terminated already. The mark is looked at after a step only, so that a program
that is run in a session that is terminated still carries out its first instruction, unless the run
is interrupted, and so does every program that is nested in it; no program carries out a second one.
The mark itself stays, whatever is run.
-/
namespace Runbook.Run

variable {r : Runner}

private theorem rows_halted (p : Program) (l : List Row) (seq skips : Nat) (g : Progress)
    (st : RunState)
    (terminated : st.session.terminated = true) :
    (ownSteps (rows r (below r) p l seq skips g st).log).map EndedStep.instruction =
      if st.interrupted then [] else (instructionsFrom seq l).take 1 := by
  have frameLog := below_frameLog r
  fun_induction rows r (below r) p l seq skips g st with
  | case1 seq skips g st =>
    cases st.interrupted with
    | true => rfl
    | false => rfl
  | case2 row rest seq skips g st empty ih =>
    rw [instructionsFrom_of_empty empty]
    exact ih terminated
  | case3 row rest seq skips g st _ raised stopped =>
    rw [if_pos raised]
    rfl
  | case4 row rest seq skips g st counted raised s g' reason _ =>
    obtain ⟨record, own, -, continues, -⟩ :=
      ownSteps_step (r := r) frameLog p seq row skips st []
    rw [List.append_nil] at own
    change ownSteps s.log = [⟨record, s.directive⟩] at own
    rw [if_neg raised, instructionsFrom_of_counted (Bool.eq_false_iff.2 counted), own,
      List.map_singleton, instruction_of_continues continues]
    rfl
  | case5 row rest seq skips g st _ _ s g' goes more ih =>
    -- The step would have to take the mark back.
    have still : s.state.session.terminated = true :=
      ((step_replayed (below_replayed r) p seq row skips st).stays_terminated terminated).2
    rw [running_of_stopReason?_eq_none goes] at still
    exact (Bool.false_ne_true still).elim

private theorem rows_idle (p : Program) (l : List Row) (seq skips : Nat) (g : Progress)
    (st : RunState)
    (idle : st.interrupted = true ∨ instructionsFrom seq l = []) :
    let run := rows r (below r) p l seq skips g st
    (∀ e ∈ run.log, ∀ record, e.what ≠ .began record) ∧
      run.state.session.counters = st.session.counters ∧
      run.state.session.vars = st.session.vars := by
  have excluded {row : Row} {rest : List Row} {seq : Nat} {st : RunState}
      (counted : ¬ row.isEmpty = true) (raised : ¬ st.interrupted = true)
      (idle : st.interrupted = true ∨ instructionsFrom seq (row :: rest) = []) : False := by
    rcases idle with stopped | nothing
    · exact raised stopped
    · rw [instructionsFrom_of_counted (Bool.eq_false_iff.2 counted)] at nothing
      exact List.cons_ne_nil _ _ nothing
  fun_induction rows r (below r) p l seq skips g st with
  | case1 seq skips g st => exact ⟨by simp, rfl, rfl⟩
  | case2 row rest seq skips g st empty ih =>
    rw [instructionsFrom_of_empty empty] at idle
    exact ih idle
  | case3 row rest seq skips g st _ _ stopped =>
    refine ⟨?_, rfl, rfl⟩
    intro e member record began
    obtain rfl := List.mem_singleton.1 member
    cases began
  | case4 row rest seq skips g st counted raised => exact (excluded counted raised idle).elim
  | case5 row rest seq skips g st counted raised => exact (excluded counted raised idle).elim

/-- A program that is run in a session, by some runner, with what lies around the session. -/
structure Call where
  runner : Runner
  program : Program
  /-- The interrupt, the time and the files; its own session is not used. -/
  around : RunState

def Call.run (c : Call) (s : Session) : FrameRun :=
  c.runner.runFrame c.program { c.around with session := s }

def sessionAfter (s : Session) (calls : List Call) : Session :=
  calls.foldl (fun s c => (c.run s).state.session) s

private theorem Call.run_replayed (c : Call) (s : Session) :
    Replayed c.runner { c.around with session := s } (c.run s).log (c.run s).state :=
  frameAt_replayed _ _ _ _

private theorem terminated_sessionAfter {s : Session} (h : s.terminated = true)
    (calls : List Call) :
    (sessionAfter s calls).terminated = true := by
  induction calls generalizing s with
  | nil => exact h
  | cons c calls ih => exact ih ((c.run_replayed s).stays_terminated h).2

/-- Once a session is terminated it stays so, and programs that are then run begin their first
instruction only. -/
theorem halted_session (s : Session) (calls : List Call)
    (terminated : (sessionAfter s calls).terminated = true) (later : List Call) (c : Call) :
    let now := sessionAfter s (calls ++ later)
    let run := c.run now
    (now.terminated = true ∧ run.state.session.terminated = true ∧
      ∀ e ∈ run.log, e.state.session.terminated = true) ∧
    (∀ pre q st₁ post, run.log = pre ++ ⟨.entered q, st₁⟩ :: post →
      ∃ inner f st₂ rest, post = inner ++ ⟨.left f, st₂⟩ :: rest ∧ RowsLog inner ∧ f.IsOf q ∧
        f.steps = (ownSteps inner).map (fun s => s.record.result) ∧
        (ownSteps inner).map EndedStep.instruction =
          if st₁.interrupted then [] else (instructionsFrom 1 q.rows).take 1) ∧
    (c.around.interrupted = true ∨ instructionsFrom 1 c.program.rows = [] →
      (∀ e ∈ run.log, ∀ record, e.what ≠ .began record) ∧
        run.state.session.counters = now.counters ∧ run.state.session.vars = now.vars) := by
  intro now run
  have mark : now.terminated = true := by
    have split : now = sessionAfter (sessionAfter s calls) later := List.foldl_append
    rw [split]
    exact terminated_sessionAfter terminated later
  have throughout := (c.run_replayed now).stays_terminated mark
  have frameLog := below_frameLog c.runner
  refine ⟨⟨mark, throughout.2, throughout.1⟩, ?_, ?_⟩
  · intro pre q st₁ post split
    have carried : Carried c.runner run.log := runFrame_carried _ _ _
    have entered : st₁.session.terminated = true := by
      refine throughout.1 ⟨.entered q, st₁⟩ ?_
      change _ ∈ run.log
      rw [split]
      exact List.mem_append_right _ List.mem_cons_self
    rw [split] at carried
    obtain ⟨st₂, rest, followed, -⟩ := carried.after_entered
    obtain ⟨steps, -⟩ := ownSteps_rows (r := c.runner) frameLog q q.rows 1 0 {} st₁
    exact ⟨_, _, st₂, rest, followed, rows_rowsLog frameLog _ _ _ _ _ _, ⟨rfl, rfl, rfl⟩, steps,
      rows_halted q q.rows 1 0 {} st₁ entered⟩
  · intro idle
    have whole : run = frameWith c.runner (below c.runner) c.program
        { c.around with session := now } := runFrame_eq _ _ _
    rw [whole]
    obtain ⟨unbegun, counters, vars⟩ : (∀ e ∈ (rows c.runner (below c.runner) c.program
          c.program.rows 1 0 {} { c.around with session := now }).log,
        ∀ record, e.what ≠ .began record) ∧ _ ∧ _ := rows_idle c.program c.program.rows 1 0 {}
      { c.around with session := now } idle
    refine ⟨?_, counters, vars⟩
    intro e member record began
    rcases List.mem_append.1 member with first | last
    · rcases List.mem_cons.1 first with rfl | inner
      · cases began
      · exact unbegun e inner record began
    · obtain rfl := List.mem_singleton.1 last
      cases began

def quittingCall : Call where
  runner := {}
  program := { name := "first", rows := [noteRow "OnPass=quitsession"] }
  around := {}

def notingCall : Call where
  runner := {}
  program := { name := "second", rows := [noteRow ""] }
  around := {}

theorem notingCall_halts :
    (sessionAfter {} [quittingCall]).terminated = true ∧
    let run := notingCall.run (sessionAfter {} ([quittingCall] ++ [notingCall]))
    run.state.session.terminated = true ∧
      ∃ inner f st₂ rest, run.log = ⟨.entered notingCall.program,
          { notingCall.around with session := sessionAfter {} ([quittingCall] ++ [notingCall]) }⟩ ::
            (inner ++ ⟨.left f, st₂⟩ :: rest) ∧
        (ownSteps inner).map EndedStep.instruction = [(noteRow "", 1)] := by
  have terminated : (sessionAfter {} [quittingCall]).terminated = true := by
    decide +kernel
  obtain ⟨⟨-, still, -⟩, first, -⟩ :=
    halted_session {} [quittingCall] terminated [notingCall] notingCall
  obtain ⟨inner, f, st₂, rest, followed, -, -, -, own⟩ := first [] _ _ _ rfl
  refine ⟨terminated, still, inner, f, st₂, rest, ?_, own⟩
  rw [← followed]
  rfl

/-- A session that is terminated does not keep a later program from beginning a step, which counts
in the session. -/
theorem halted_session_begins :
    (sessionAfter {} [quittingCall]).terminated = true ∧
    ¬ (∀ e ∈ (notingCall.run (sessionAfter {} [quittingCall])).log,
        ∀ record, e.what ≠ .began record) ∧
    (sessionAfter {} ([quittingCall] ++ [notingCall])).counters ≠
      (sessionAfter {} [quittingCall]).counters := by
  have begins : ∃ e ∈ (notingCall.run (sessionAfter {} [quittingCall])).log,
      e.begun?.isSome = true := by
    decide +kernel
  refine ⟨by decide +kernel, ?_, by decide +kernel⟩
  intro unbegun
  obtain ⟨e, member, begun⟩ := begins
  obtain ⟨record, begun⟩ := Option.isSome_iff_exists.1 begun
  exact unbegun e member record (congrArg LogEntry.what (LogEntry.eq_of_begun? begun))

end Runbook.Run
