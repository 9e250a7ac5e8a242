import Runbook.Proofs.Run.Calls

set_option autoImplicit false

/-!
The steps of a program among those of the programs nested in it. They are found in the log of the
program's rows by counting how many programs are open; they are the steps that the program is
reported with, and their rows are the program's instructions, from the first to the one at which it
stopped.
-/
namespace Runbook.Run

/-- A step that is over: its record, and what is asked of the runner after it. -/
structure EndedStep where
  record : Record
  directive : Directive

def Happening.ended? : Happening → Option EndedStep
  | .ended record directive => some ⟨record, directive⟩
  | _ => none

def endedSteps (l : Log) : List EndedStep :=
  l.filterMap fun e => e.what.ended?

@[simp] theorem endedSteps_append (l l' : Log) :
    endedSteps (l ++ l') = endedSteps l ++ endedSteps l' :=
  List.filterMap_append

/-- The steps of a log outside of programs, when so many programs are open before it. -/
def stepsAt : Nat → Log → List EndedStep
  | _, [] => []
  | depth, e :: l =>
    match e.what, depth with
    | .entered _, _ => stepsAt (depth + 1) l
    | .left _, _ => stepsAt (depth - 1) l
    | .ended record directive, 0 => ⟨record, directive⟩ :: stepsAt 0 l
    | _, _ => stepsAt depth l

/-- The steps of a program itself, from the log of its rows. -/
def ownSteps (l : Log) : List EndedStep :=
  stepsAt 0 l

private theorem PartLog.stepsAt_append {part : Part} {l : Log} (h : PartLog part l) (depth : Nat)
    (l' : Log) : stepsAt (depth + 1) (l ++ l') = stepsAt (depth + 1) l' := by
  induction h generalizing depth l' with
  | nil => rfl
  | interrupted seq st => rfl
  | @step record _ calls l directive st st' _ _ _ ih ih' =>
    rw [List.append_assoc]
    change stepsAt (depth + 1) (calls ++ _) = _
    rw [ih depth]
    exact ih' depth l'
  | @call p f inner l st st' _ _ _ ih ih' =>
    rw [List.append_assoc]
    -- The program is passed one level deeper, and then the rest.
    change stepsAt (depth + 2) (inner ++ _) = _
    rw [ih (depth + 1)]
    exact ih' depth l'

private theorem CallsLog.stepsAt_append {l : Log} (h : CallsLog l) (depth : Nat) (l' : Log) :
    stepsAt depth (l ++ l') = stepsAt depth l' := by
  cases depth with
  | succ depth => exact PartLog.stepsAt_append h depth l'
  | zero =>
    induction h using CallsLog.induct with
    | nil => rfl
    | @call p f inner l st st' _ rows _ ih =>
      rw [List.append_assoc]
      change stepsAt 1 (inner ++ _) = _
      rw [rows.stepsAt_append 0]
      exact ih

variable {r : Runner} {deeper : Deeper}

theorem ownSteps_finished {e : Execution} (calls : CallsLog e.log)
    (r : Runner) (row : Row) (skips : Nat) (record : Record) (st : RunState) (l : Log) :
    ownSteps ((finished r row skips record st e).log ++ l) =
      ⟨e.record, e.directive⟩ :: ownSteps l := by
  rw [finished, List.append_assoc]
  change stepsAt 0 (e.log ++ _) = _
  rw [calls.stepsAt_append]
  rfl

theorem attempt_callsLog (h : ∀ run, deeper = some run → ∀ p st, FrameLog p (run p st).log)
    (record : Record) (baseDir : Option String) (st : RunState) :
    CallsLog (attempt r deeper record baseDir st).log :=
  (attempt_descends r deeper record baseDir st).callsLog h

theorem ownSteps_step (h : ∀ run, deeper = some run → ∀ p st, FrameLog p (run p st).log)
    (p : Program) (seq : Nat) (row : Row) (skips : Nat) (st : RunState) (l : Log) :
    let s := step r deeper p seq row skips st
    ∃ record, ownSteps (s.log ++ l) = ⟨record, s.directive⟩ :: ownSteps l ∧
      s.result = record.result ∧
      (begunRecord p seq row skips (opened r row st)).Continues record ∧
      s.skips = if record.isActive then s.directive.skipSteps else skips - 1 := by
  have continues := attempt_continues r deeper (begunRecord p seq row skips (opened r row st))
    p.baseDir (opened r row st)
  have inner := attempt_callsLog (r := r) h (begunRecord p seq row skips (opened r row st)) p.baseDir
    (opened r row st)
  have active := continues.isActive
  refine ⟨_, ownSteps_finished inner r row skips _ _ l, rfl, continues, ?_⟩
  rw [active]
  rfl

/-- The own steps among the rows of a program are those of its progress, and all of its instructions
if it is completed. -/
theorem ownSteps_rows (h : ∀ run, deeper = some run → ∀ p st, FrameLog p (run p st).log)
    (p : Program) (l : List Row) (seq skips : Nat) (g : Progress) (st : RunState) :
    let run := rows r deeper p l seq skips g st
    let own := ownSteps run.log
    run.progress.steps = g.steps ++ own.map (fun s => s.record.result) ∧
      own.map (fun s => s.record.row) <+: l.filter (fun row => !row.isEmpty) ∧
      (run.ending = .completed →
        own.map (fun s => s.record.row) = l.filter (fun row => !row.isEmpty)) := by
  fun_induction rows r deeper p l seq skips g st with
  | case1 seq skips g st =>
    exact ⟨(List.append_nil _).symm, List.prefix_refl _, fun _ => rfl⟩
  | case2 row rest seq skips g st empty ih =>
    rw [List.filter_cons_of_neg (by simp [empty])]
    exact ih
  | case3 row rest seq skips g st counted _ stopped =>
    refine ⟨(List.append_nil _).symm, List.nil_prefix, ?_⟩
    rintro ⟨⟩
  | case4 row rest seq skips g st counted _ s g' reason _ =>
    obtain ⟨record, own, result, continues, -⟩ := ownSteps_step (r := r) h p seq row skips st []
    have ofRow := continues.row.trans (begunRecord_placed _ _ _ _ _).row
    rw [List.append_nil] at own
    change ownSteps s.log = ⟨record, s.directive⟩ :: [] at own
    dsimp only
    rw [own, List.filter_cons_of_pos (by simp [counted])]
    refine ⟨?_, ?_, ?_⟩
    · change g.steps ++ [s.result] = _
      rw [show s.result = record.result from result]
      rfl
    · simp only [List.map_cons, List.map_nil, ofRow]
      exact List.prefix_append [row] _
    · rintro ⟨⟩
  | case5 row rest seq skips g st counted _ s g' _ more ih =>
    obtain ⟨record, own, result, continues, -⟩ :=
      ownSteps_step (r := r) h p seq row skips st more.log
    have ofRow := continues.row.trans (begunRecord_placed _ _ _ _ _).row
    obtain ⟨steps, first, all⟩ := ih
    change ownSteps (s.log ++ more.log) = ⟨record, s.directive⟩ :: ownSteps more.log at own
    dsimp only
    rw [own, List.filter_cons_of_pos (by simp [counted])]
    simp only [List.map_cons, ofRow]
    refine ⟨?_, ?_, ?_⟩
    · rw [steps]
      change g.steps ++ [s.result] ++ _ = _
      rw [show s.result = record.result from result, List.append_assoc]
      rfl
    · exact (List.prefix_cons_inj row).2 first
    · intro completed
      rw [all completed]

theorem rows_ending (h : ∀ run, deeper = some run → ∀ p st, FrameLog p (run p st).log)
    (p : Program) (l : List Row) (seq skips : Nat) (g : Progress) (st : RunState) :
    let run := rows r deeper p l seq skips g st
    run.ending = .completed ∨
      (run.ending.state = .caseTerminated ∧
        ∃ s, (ownSteps run.log).getLast? = some s ∧ s.directive.stops = true) ∨
      (run.ending.state = .sessionTerminated ∧ run.state.session.terminated = true) := by
  fun_induction rows r deeper p l seq skips g st with
  | case1 seq skips g st => exact .inl rfl
  | case2 row rest seq skips g st empty ih => exact ih
  | case3 row rest seq skips g st _ _ stopped => exact .inr (.inr ⟨rfl, rfl⟩)
  | case4 row rest seq skips g st _ _ s g' reason stops =>
    refine .inr ?_
    dsimp only
    cases mark : s.state.session.terminated with
    | true => exact .inr ⟨rfl, rfl⟩
    | false =>
      refine .inl ⟨rfl, ?_⟩
      obtain ⟨record, own, -⟩ := ownSteps_step (r := r) h p seq row skips st []
      rw [List.append_nil] at own
      change ownSteps s.log = ⟨record, s.directive⟩ :: [] at own
      refine ⟨_, congrArg List.getLast? own, ?_⟩
      -- The session goes on, so that the step is stopped by what is asked for after it.
      rw [stopReason?, mark, if_neg Bool.false_ne_true] at stops
      split at stops
      · next asked => exact asked
      · cases stops
  | case5 row rest seq skips g st _ _ s g' _ more ih =>
    rcases ih with completed | ⟨state, last, reached, stops⟩ | terminated
    · exact .inl completed
    · obtain ⟨record, own, -⟩ := ownSteps_step (r := r) h p seq row skips st more.log
      change ownSteps (s.log ++ more.log) = ⟨record, s.directive⟩ :: ownSteps more.log at own
      refine .inr (.inl ⟨state, last, ?_, stops⟩)
      change (ownSteps (s.log ++ more.log)).getLast? = some last
      rw [own, List.getLast?_cons, reached]
      rfl
    · exact .inr (.inr terminated)

private theorem mem_stepsAt {depth : Nat} {l : Log} {s : EndedStep} (h : s ∈ stepsAt depth l) :
    ∃ st, ⟨.ended s.record s.directive, st⟩ ∈ l := by
  have later {depth : Nat} {e : LogEntry} {l : Log}
      (ih : ∀ depth, s ∈ stepsAt depth l → ∃ st, ⟨.ended s.record s.directive, st⟩ ∈ l)
      (h : s ∈ stepsAt depth l) : ∃ st, ⟨.ended s.record s.directive, st⟩ ∈ e :: l := by
    obtain ⟨st, member⟩ := ih depth h
    exact ⟨st, List.mem_cons_of_mem _ member⟩
  induction l generalizing depth with
  | nil => exact nomatch h
  | cons e l ih =>
    have ih := @ih
    obtain ⟨what, st⟩ := e
    cases what with
    | entered p => exact later (fun _ => ih) h
    | left f => exact later (fun _ => ih) h
    | began record => exact later (fun _ => ih) h
    | interrupted seq => exact later (fun _ => ih) h
    | ended record directive =>
      cases depth with
      | zero =>
        rcases List.mem_cons.1 h with rfl | among
        · exact ⟨st, List.mem_cons_self⟩
        · exact later (fun _ => ih) among
      | succ depth => exact later (fun _ => ih) h

theorem mem_ownSteps {l : Log} {s : EndedStep} (h : s ∈ ownSteps l) :
    ∃ st, ⟨.ended s.record s.directive, st⟩ ∈ l :=
  mem_stepsAt h

theorem rows_attempted (h : ∀ run, deeper = some run → ∀ p st, FrameLog p (run p st).log)
    (p : Program) (l : List Row) (seq skips : Nat) (g : Progress) (st : RunState) :
    ∀ s ∈ ownSteps (rows r deeper p l seq skips g st).log, ∃ record st',
      s = ⟨(attempt r deeper record p.baseDir st').record,
        (attempt r deeper record p.baseDir st').directive⟩ := by
  have own (seq : Nat) (row : Row) (skips : Nat) (st : RunState) (l : Log) :
      ∃ record st', ownSteps ((step r deeper p seq row skips st).log ++ l) =
        ⟨(attempt r deeper record p.baseDir st').record,
          (attempt r deeper record p.baseDir st').directive⟩ :: ownSteps l :=
    ⟨_, _, ownSteps_finished (attempt_callsLog h _ p.baseDir _) r row skips _ _ l⟩
  fun_induction rows r deeper p l seq skips g st with
  | case1 seq skips g st => exact fun s member => (List.not_mem_nil member).elim
  | case2 row rest seq skips g st empty ih => exact ih
  | case3 row rest seq skips g st _ _ stopped => exact fun s member => (List.not_mem_nil member).elim
  | case4 row rest seq skips g st _ _ s g' reason _ =>
    obtain ⟨record, st', same⟩ := own seq row skips st []
    rw [List.append_nil] at same
    intro s' member
    change s' ∈ ownSteps s.log at member
    rw [show ownSteps s.log = _ from same] at member
    exact ⟨record, st', List.mem_singleton.1 member⟩
  | case5 row rest seq skips g st _ _ s g' _ more ih =>
    obtain ⟨record, st', same⟩ := own seq row skips st more.log
    intro s' member
    change s' ∈ ownSteps (s.log ++ more.log) at member
    rw [show ownSteps (s.log ++ more.log) = _ from same] at member
    rcases List.mem_cons.1 member with first | among
    · exact ⟨record, st', first⟩
    · exact ih s' among

def EndedStep.instruction (s : EndedStep) : Row × Nat :=
  (s.record.row, s.record.position.seq)

/-- The instructions among rows of which the first is at a place, each with its place. -/
def instructionsFrom (seq : Nat) (l : List Row) : List (Row × Nat) :=
  (l.zipIdx seq).filter fun x => !x.1.isEmpty

@[simp] theorem instructionsFrom_nil (seq : Nat) : instructionsFrom seq [] = [] := rfl

theorem instructionsFrom_of_empty {row : Row} (h : row.isEmpty = true) (seq : Nat)
    (rest : List Row) : instructionsFrom seq (row :: rest) = instructionsFrom (seq + 1) rest :=
  List.filter_cons_of_neg (by simp [h])

theorem instructionsFrom_of_counted {row : Row} (h : row.isEmpty = false) (seq : Nat)
    (rest : List Row) :
    instructionsFrom seq (row :: rest) = (row, seq) :: instructionsFrom (seq + 1) rest :=
  List.filter_cons_of_pos (by simp [h])

theorem stops_of_stopReason?_eq_none {s : StepRun} (h : stopReason? s = none) :
    s.directive.stops = false := by
  unfold stopReason? at h
  split at h
  · exact nomatch h
  · next goes => exact Bool.eq_false_iff.2 goes

theorem instruction_of_continues {p : Program} {seq : Nat} {row : Row} {skips : Nat}
    {st : RunState} {s : EndedStep} (h : (begunRecord p seq row skips st).Continues s.record) :
    s.instruction = (row, seq) := by
  have placed := begunRecord_placed p seq row skips st
  rw [EndedStep.instruction, h.row, placed.row, h.position, placed.position]

theorem last_of_stops {own : List EndedStep}
    (earlier : ∀ s ∈ own.dropLast, s.directive.stops = false) {i : Nat} (bound : i < own.length)
    (asked : own[i].directive.stops = true) : i + 1 = own.length := by
  by_contra further
  have among : i < own.dropLast.length := by
    rw [List.length_dropLast]
    omega
  have goes := earlier _ (List.getElem_mem among)
  rw [List.getElem_dropLast, asked] at goes
  exact nomatch goes

/-- The own steps among the rows of a program are those of its first instructions, and only the last
of them may stop it. -/
theorem rows_instructions (h : ∀ run, deeper = some run → ∀ p st, FrameLog p (run p st).log)
    (p : Program) (l : List Row) (seq skips : Nat) (g : Progress) (st : RunState) :
    let run := rows r deeper p l seq skips g st
    let own := ownSteps run.log
    own.map EndedStep.instruction <+: instructionsFrom seq l ∧
      (∀ s ∈ own.dropLast, s.directive.stops = false) ∧
      (run.ending = .completed → own.map EndedStep.instruction = instructionsFrom seq l ∧
        ∀ s ∈ own, s.directive.stops = false) := by
  fun_induction rows r deeper p l seq skips g st with
  | case1 seq skips g st =>
    have idle : ownSteps [] = [] := rfl
    dsimp only
    rw [idle]
    exact ⟨List.prefix_refl _, by simp, fun _ => ⟨rfl, by simp⟩⟩
  | case2 row rest seq skips g st empty ih =>
    rw [instructionsFrom_of_empty empty]
    exact ih
  | case3 row rest seq skips g st counted _ stopped =>
    have idle : ownSteps [⟨.interrupted seq, stopped⟩] = [] := rfl
    dsimp only
    rw [idle]
    refine ⟨List.nil_prefix, by simp, ?_⟩
    rintro ⟨⟩
  | case4 row rest seq skips g st counted _ s g' reason _ =>
    obtain ⟨record, own, -, continues, -⟩ := ownSteps_step (r := r) h p seq row skips st []
    rw [List.append_nil] at own
    change ownSteps s.log = [⟨record, s.directive⟩] at own
    dsimp only
    rw [own, instructionsFrom_of_counted (Bool.eq_false_iff.2 counted), List.map_singleton,
      instruction_of_continues continues]
    refine ⟨List.prefix_append [_] _, by simp, ?_⟩
    rintro ⟨⟩
  | case5 row rest seq skips g st counted _ s g' goes more ih =>
    obtain ⟨record, own, -, continues, -⟩ := ownSteps_step (r := r) h p seq row skips st more.log
    change ownSteps (s.log ++ more.log) = ⟨record, s.directive⟩ :: ownSteps more.log at own
    have goesOn : s.directive.stops = false := stops_of_stopReason?_eq_none goes
    obtain ⟨first, earlier, all⟩ := ih
    dsimp only
    rw [own, instructionsFrom_of_counted (Bool.eq_false_iff.2 counted), List.map_cons,
      instruction_of_continues continues]
    refine ⟨(List.prefix_cons_inj _).2 first, ?_, ?_⟩
    · intro s' member
      generalize ownSteps more.log = later at earlier member
      cases later with
      | nil => exact (List.not_mem_nil member).elim
      | cons next later =>
        rcases List.mem_cons.1 member with rfl | among
        · exact goesOn
        · exact earlier s' among
    · intro completed
      obtain ⟨places, unstopped⟩ := all completed
      rw [places]
      exact ⟨rfl, List.forall_mem_cons.2 ⟨goesOn, unstopped⟩⟩

end Runbook.Run
