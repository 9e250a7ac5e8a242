import Runbook.Proofs.Run.Caller
import Runbook.Proofs.Run.Conservation

set_option autoImplicit false

/-!
The depth of nesting. Programs may run themselves and each other, but a step looks at the level
before it starts a program, so the running of programs, unfolded as often as there are levels, never
comes to what would have to be unfolded further. Every program that is reported lies within the
levels, and a step of the deepest level that is to run a program raises an exception instead.
-/
namespace Runbook

private theorem Config.maxDepth_pos_of_check {c : Config} {checked : Config.Checked}
    (h : c.check = .ok checked) : 0 < c.maxDepth := by
  unfold Config.check at h
  cases params : c.paramSyntax with
  | error e =>
    rw [params] at h
    exact nomatch h
  | ok syn =>
    cases offset : c.offset with
    | error e =>
      rw [params, offset] at h
      exact nomatch h
    | ok o =>
      rw [params, offset] at h
      change (if c.maxDepth = 0 then _ else _) = Except.ok checked at h
      split at h
      · exact nomatch h
      · next positive => exact Nat.pos_of_ne_zero positive

namespace Run

/-- Running a program when the programs that are nested so deeply are run in some other way. -/
def unfolded (r : Runner) (rest : Program → RunState → FrameRun) :
    Nat → Program → RunState → FrameRun
  | 0, p, st => rest p st
  | n + 1, p, st => frameWith r (some fun p st => unfolded r rest n p st) p st

private theorem unfolded_eq (r : Runner) (rest : Program → RunState → FrameRun) (n : Nat)
    (p : Program) (level_le : p.level ≤ r.config.maxDepth)
    (enough : r.config.maxDepth < p.level + n) (st : RunState) :
    unfolded r rest n p st = r.runFrame p st := by
  induction n generalizing p st with
  | zero => omega
  | succ n ih =>
    rw [runFrame_eq, unfolded]
    refine frameWith_congr ?_ st
    intro child level level_le st
    have same := ih child level_le (by omega) st
    simp only [Option.map_some, same]

variable {r : Runner} {deeper : Deeper}

private theorem Descends.mem_frames {fits : Program → Prop} {st st' : RunState} {log : Log}
    (h : Descends deeper fits st log st') {f : FrameSummary}
    (reported : f ∈ framesIn (eventsOf log)) :
    ∃ run child start, deeper = some run ∧ fits child ∧ f ∈ framesIn (run child start).events := by
  induction h with
  | idle quiet => exact absurd reported List.not_mem_nil
  | call before deep fit _ ih =>
    rw [eventsOf_append, framesIn_append] at reported
    rcases List.mem_append.1 reported with here | later
    · exact ⟨_, _, _, deep, fit, here⟩
    · exact ih later

private theorem mem_frames_step {p : Program} {seq : Nat} {row : Row} {skips : Nat} {st : RunState}
    {f : FrameSummary} (h : f ∈ framesIn (eventsOf (step r deeper p seq row skips st).log)) :
    ∃ run child start, deeper = some run ∧ child.level = p.level + 1 ∧
      child.level ≤ r.config.maxDepth ∧ f ∈ framesIn (run child start).events := by
  obtain ⟨e, same, -, descends⟩ := step_descends r deeper p seq row skips st
  rw [same] at h
  simp only [finished, eventsOf_step, framesIn_append, framesIn_step, List.append_nil] at h
  obtain ⟨run, child, start, deep, started, reported⟩ := descends.mem_frames h
  exact ⟨run, child, start, deep, started.level, started.level_le, reported⟩

private theorem mem_frames_rows {p : Program} {l : List Row} {seq skips : Nat} {g : Progress}
    {st : RunState} {f : FrameSummary}
    (h : f ∈ framesIn (eventsOf (rows r deeper p l seq skips g st).log)) :
    ∃ run child start, deeper = some run ∧ child.level = p.level + 1 ∧
      child.level ≤ r.config.maxDepth ∧ f ∈ framesIn (run child start).events := by
  fun_induction rows r deeper p l seq skips g st with
  | case1 seq skips g st => exact absurd h List.not_mem_nil
  | case2 row rest seq skips g st empty ih => exact ih h
  | case3 row rest seq skips g st _ _ stopped => exact absurd h List.not_mem_nil
  | case4 row rest seq skips g st _ _ s g' reason _ => exact mem_frames_step h
  | case5 row rest seq skips g st _ _ s g' _ more ih =>
    rw [eventsOf_append, framesIn_append] at h
    rcases List.mem_append.1 h with first | later
    · exact mem_frames_step first
    · exact ih later

private theorem runFrame_level_le (p : Program) (st : RunState) :
    p.level ≤ r.config.maxDepth →
      ∀ f ∈ framesIn (r.runFrame p st).events, f.level ≤ r.config.maxDepth := by
  refine runFrame_induction (P := fun p _ run => p.level ≤ r.config.maxDepth →
    ∀ f ∈ framesIn run.events, f.level ≤ r.config.maxDepth) ?_ p st
  intro p nested st level_le f member
  rw [events_frameWith, framesIn_append] at member
  rcases List.mem_append.1 member with inner | last
  · obtain ⟨run, child, start, deep, level, level_le, reported⟩ := mem_frames_rows inner
    obtain rfl := Option.some.inj deep
    exact nested child level level_le start level_le f reported
  · obtain rfl := List.mem_singleton.1 last
    exact level_le

def referenceOf (record : Record) : String :=
  Text.trimmed ((record.param? referenceKey).getD "")

def depthText (max : Nat) : String :=
  "nesting level " ++ Text.decimal (max + 1) ++ " exceeds max-depth " ++ Text.decimal max

theorem nestedProgram_of_deepest {record : Record} (refers : referenceOf record ≠ "")
    (deepest : record.position.level = r.config.maxDepth) (files : FileTree)
    (baseDir : Option String) :
    nestedProgram r files record baseDir =
      .error (.depthExceeded (r.config.maxDepth + 1) r.config.maxDepth) := by
  unfold referenceOf at refers
  unfold nestedProgram
  rw [deepest]
  exact (if_neg refers).trans (if_pos (Nat.lt_succ_self _))

private theorem runNested_of_deepest {record : Record} (refers : referenceOf record ≠ "")
    (deepest : record.position.level = r.config.maxDepth) (baseDir : Option String)
    (st : RunState) :
    runNested r deeper record baseDir st =
      (.error (.depthExceeded (r.config.maxDepth + 1) r.config.maxDepth), [], st) :=
  runNested_of_error (nestedProgram_of_deepest refers deepest st.files baseDir)

private theorem attempt_of_deepest {record : Record} {a : Action} {st : RunState}
    (runs : RunsProgram r st.session.vars record a) (counted : record.row.isEmpty = false)
    (deepest : record.position.level = r.config.maxDepth)
    (refers : referenceOf (record.resolve r.params st.session.vars).1 ≠ "")
    (baseDir : Option String) :
    let e := attempt r deeper record baseDir st
    e.log = [] ∧ e.record.status = .fail ∧
      e.record.exception = some (depthText r.config.maxDepth) := by
  have level : (record.resolve r.params st.session.vars).1.position.level = r.config.maxDepth := by
    rw [(Record.Continues.resolve record r.params st.session.vars).position, deepest]
  obtain ⟨log, -, notes, noted, -⟩ := attempt_of_runsProgram runs counted deeper baseDir
  rw [runNested_of_deepest refers level] at log noted
  obtain ⟨fails, exception, -⟩ := applyAnswer_exception runs.clean
    (e := .depthExceeded (r.config.maxDepth + 1) r.config.maxDepth) rfl
  exact ⟨log, noted.status.trans fails, noted.exception.trans exception⟩

/-- Nesting ends, whatever programs run themselves: none lies below the deepest level, and a step
there raises an exception instead. -/
theorem nesting_bounded (r : Runner) (p : Program) (st : RunState)
    (valid : ∃ checked, r.config.check = .ok checked) (outermost : p.level = 1) :
    let run := r.run p st
    (∀ rest n, r.config.maxDepth ≤ n → unfolded r rest n p st = r.runFrame p st) ∧
    (∀ f ∈ framesIn run.events, f.level ≤ r.config.maxDepth) ∧
    ∀ pre record (st₁ : RunState) post a, run.log = pre ++ ⟨.began record, st₁⟩ :: post →
      record.position.level = r.config.maxDepth → RunsProgram r st₁.session.vars record a →
      referenceOf (record.resolve r.params st₁.session.vars).1 ≠ "" →
      ∃ record' directive st₂ more, post = ⟨.ended record' directive, st₂⟩ :: more ∧
        record.Continues record' ∧ record'.status = .fail ∧
        record'.exception = some (depthText r.config.maxDepth) := by
  intro run
  obtain ⟨checked, valid⟩ := valid
  have level_le : p.level ≤ r.config.maxDepth := by
    rw [outermost]
    exact Config.maxDepth_pos_of_check valid
  refine ⟨?_, ?_, ?_⟩
  · intro rest n enough
    exact unfolded_eq r rest n p level_le (by omega) st
  · intro f reported
    rw [Runner.Finished.events, framesIn_append, framesIn_session, List.append_nil] at reported
    exact runFrame_level_le p st level_le f reported
  · intro pre record st₁ post a split level runs refers
    have carried : Carried r run.log := runFrame_carried r p st
    rw [split] at carried
    obtain ⟨-, -, baseDir, -, counted, more, followed⟩ := carried.after_began
    have continues := attempt_continues r (below r) record baseDir st₁
    obtain ⟨log, fails, exception⟩ := attempt_of_deepest runs counted level refers baseDir
    rw [log] at followed
    exact ⟨_, _, _, more, followed, continues, fails, exception⟩

def endlessRunner : Runner :=
  { withChild [callRow] with config := { maxDepth := 2 } }

def endlessRun : Runner.Finished :=
  endlessRunner.run caller {}

theorem endlessRun_bounded :
    (∃ checked, endlessRunner.config.check = .ok checked) ∧ caller.level = 1 ∧
    (∀ rest, unfolded endlessRunner rest 2 caller {} =
      endlessRunner.runFrame caller {}) ∧
    (∀ f ∈ framesIn endlessRun.events, f.level ≤ 2) ∧
    ∃ record directive st more, endlessRun.log.drop 4 = ⟨.ended record directive, st⟩ :: more ∧
      record.status = .fail ∧
      record.exception = some "nesting level 3 exceeds max-depth 2" := by
  have valid : ∃ checked, endlessRunner.config.check = .ok checked := ⟨_, rfl⟩
  obtain ⟨bounded, levels, deepest⟩ := nesting_bounded endlessRunner caller {} valid rfl
  have evaluated : (endlessRun.log[3]?.bind LogEntry.begun?).isSome = true ∧
      ∀ e ∈ endlessRun.log[3]?, ∀ record ∈ e.begun?,
        record.position.level = 2 ∧ record.isActive = true ∧
        (record.resolve endlessRunner.params e.state.session.vars).1.hasErrors = false ∧
        referenceOf (record.resolve endlessRunner.params e.state.session.vars).1 ≠ "" ∧
        record.action = "RunProgram" := by
    decide +kernel
  obtain ⟨begins, there⟩ := evaluated
  obtain ⟨record, begins⟩ := Option.isSome_iff_exists.1 begins
  obtain ⟨e, here, split⟩ := eq_take_began_drop begins
  rw [here] at begins
  obtain ⟨level, active, clean, refers, named⟩ := there e here record begins
  have runs : RunsProgram endlessRunner e.state.session.vars record Action.runProgram :=
    ⟨active, clean, by rw [named]; rfl, rfl⟩
  obtain ⟨record', directive, st, more, followed, -, fails, exception⟩ :=
    deepest _ _ _ _ _ split level runs refers
  have said : depthText 2 = "nesting level 3 exceeds max-depth 2" := by
    decide +kernel
  exact ⟨valid, rfl, fun rest => bounded rest 2 (Nat.le_refl 2), levels, record', directive, st,
    more, followed, fails, exception.trans (congrArg some said)⟩

end Run
end Runbook
