import Runbook.Proofs.Run.Ledger
import Runbook.Proofs.Run.Matching

set_option autoImplicit false

/-!
The recursion of programs through their steps. The bound on the levels that are left is never what
stops a run: a step looks at the level itself before it starts a program, and so running a program
is running its rows, with every program that one of them starts run in the very same way. Whatever
a log says has begun is carried out right after it.
-/
namespace Runbook.Run

def AgreeBelow (r : Runner) (level : Nat) (deeper deeper' : Deeper) : Prop :=
  ∀ child : Program, child.level = level + 1 → child.level ≤ r.config.maxDepth → ∀ st,
    deeper.map (fun run => run child st) = deeper'.map (fun run => run child st)

section Congruence

variable {r : Runner} {deeper deeper' : Deeper}

private theorem runNested_congr {record : Record}
    (h : AgreeBelow r record.position.level deeper deeper') (baseDir : Option String)
    (st : RunState) :
    runNested r deeper record baseDir st = runNested r deeper' record baseDir st := by
  unfold runNested
  cases found : nestedProgram r st.files record baseDir with
  | error e => rfl
  | ok child =>
    obtain ⟨level, level_le, -⟩ := nestedProgram_ok found
    have same := h child level level_le st
    cases deeper with
    | none =>
      cases deeper' with
      | none => rfl
      | some run' => exact absurd same.symm (Option.some_ne_none _)
    | some run =>
      cases deeper' with
      | none => exact absurd same (Option.some_ne_none _)
      | some run' =>
        have same : run child st = run' child st := Option.some.inj same
        simp only [same]

private theorem perform_congr {record : Record}
    (h : AgreeBelow r record.position.level deeper deeper') (baseDir : Option String)
    (script : Action.Script) (st : RunState) :
    perform r deeper record baseDir script st = perform r deeper' record baseDir script st := by
  induction script generalizing st with
  | answer effect => rfl
  | run touch name rows dir next ih =>
    by_cases deep : record.position.level + 1 > r.config.maxDepth
    · cases deeper <;> cases deeper' <;> simp only [perform, if_pos deep]
    · have same := h (.childOf record name rows dir) rfl (Nat.not_lt.1 deep) (touched st touch)
      cases deeper with
      | none =>
        cases deeper' with
        | none => rfl
        | some run' => exact absurd same.symm (Option.some_ne_none _)
      | some run =>
        cases deeper' with
        | none => exact absurd same (Option.some_ne_none _)
        | some run' =>
          have same : run (.childOf record name rows dir) (touched st touch) =
            run' (.childOf record name rows dir) (touched st touch) := Option.some.inj same
          simp only [perform, if_neg deep, same, ih]

private theorem execute_congr {record : Record}
    (h : AgreeBelow r record.position.level deeper deeper') (baseDir : Option String)
    (st : RunState) :
    execute r deeper record baseDir st = execute r deeper' record baseDir st := by
  have dispatched : dispatch r deeper record baseDir st = dispatch r deeper' record baseDir st := by
    simp only [dispatch, runNested_congr h, perform_congr h]
  simp only [execute, dispatchSound, dispatched]

private theorem step_congr {p : Program} (h : AgreeBelow r p.level deeper deeper') (seq : Nat)
    (row : Row)
    (skips : Nat) (st : RunState) :
    step r deeper p seq row skips st = step r deeper' p seq row skips st := by
  have carried : attempt r deeper (begunRecord p seq row skips (opened r row st)) p.baseDir
        (opened r row st) =
      attempt r deeper' (begunRecord p seq row skips (opened r row st)) p.baseDir
        (opened r row st) := by
    have placed := begunRecord_placed p seq row skips (opened r row st)
    generalize begunRecord p seq row skips (opened r row st) = record at placed ⊢
    have resolved := (Record.Continues.resolve record r.params
      (opened r row st).session.vars).position.trans placed.position
    simp only [attempt]
    rw [execute_congr (by rw [resolved]; exact h)]
  simp only [step, carried]

private theorem rows_congr {p : Program} (h : AgreeBelow r p.level deeper deeper') (l : List Row)
    (seq skips : Nat) (g : Progress) (st : RunState) :
    rows r deeper p l seq skips g st = rows r deeper' p l seq skips g st := by
  induction l generalizing seq skips g st with
  | nil => rfl
  | cons row rest ih => simp only [rows, step_congr h, ih]

theorem frameWith_congr {p : Program} (h : AgreeBelow r p.level deeper deeper')
    (st : RunState) : frameWith r deeper p st = frameWith r deeper' p st := by
  simp only [frameWith, rows_congr h]

end Congruence

/-- Programs are run by running the programs that their steps start in the same way. -/
abbrev below (r : Runner) : Deeper :=
  some (r.runFrame)

private theorem levels_left {r : Runner} {level n : Nat} {child : Program}
    (h : child.level = level + 1) (left : r.config.maxDepth - level = n + 1) :
    r.config.maxDepth - child.level = n := by
  omega

/-- Running a program, as a recursion that knows no bound. -/
theorem runFrame_eq (r : Runner) (p : Program) (st : RunState) :
    r.runFrame p st = frameWith r (below r) p st := by
  unfold Runner.runFrame
  cases left : r.config.maxDepth - p.level with
  | zero =>
    -- No program is started from the deepest level, so that nothing needs to agree.
    refine frameWith_congr ?_ st
    intro child level level_le
    omega
  | succ n =>
    refine frameWith_congr ?_ st
    intro child level _ st
    simp only [Option.map_some, Runner.runFrame, levels_left level left]

/-- What holds of the runs of all programs that the steps of a program may start. -/
abbrev OfNested (r : Runner) (P : Program → RunState → FrameRun → Prop)
    (p : Program) : Prop :=
  ∀ child : Program, child.level = p.level + 1 → child.level ≤ r.config.maxDepth → ∀ st,
    P child st (r.runFrame child st)

/-- What holds of a program's run whenever it holds of the runs of the programs that its steps may
start holds of every program's run. -/
theorem runFrame_induction {r : Runner}
    {P : Program → RunState → FrameRun → Prop}
    (h : ∀ p, OfNested r P p → ∀ st, P p st (frameWith r (below r) p st))
    (p : Program) (st : RunState) : P p st (r.runFrame p st) := by
  -- The levels that are left become fewer with every program that a step starts.
  induction left : r.config.maxDepth - p.level generalizing p st with
  | zero =>
    rw [runFrame_eq]
    refine h p ?_ st
    intro child level level_le
    omega
  | succ n ih =>
    rw [runFrame_eq]
    refine h p ?_ st
    intro child level _ st
    exact ih child st (levels_left level left)

theorem runFrame_frameLog (r : Runner) (p : Program) (st : RunState) :
    FrameLog p (r.runFrame p st).log :=
  frameAt_frameLog _ _ _ _

theorem below_frameLog (r : Runner) :
    ∀ run, below r = some run → ∀ p st, FrameLog p (run p st).log := by
  intro run same
  obtain rfl := Option.some.inj same
  exact runFrame_frameLog r

theorem below_replayed (r : Runner) :
    ∀ run, below r = some run →
      ∀ p st, Replayed r st (run p st).log (run p st).state := by
  intro run same p st
  obtain rfl := Option.some.inj same
  exact frameAt_replayed _ _ _ _

/-- What the first entry of a log begins is carried out right after it: a program is run, or a
record. -/
def Begins (r : Runner) : Log → Prop
  | [] => True
  | e :: l =>
    match e.what with
    | .entered p => (r.runFrame p e.state).log <+: e :: l
    | .began _ => ∃ p seq row skips st, row.isEmpty = false ∧
        (step r (below r) p seq row skips st).log <+: e :: l
    | _ => True

def Carried (r : Runner) : Log → Prop
  | [] => True
  | e :: l => Begins r (e :: l) ∧ Carried r l

variable {r : Runner}

private theorem Begins.append {l : Log} (h : Begins r l) (l' : Log) (nonempty : l ≠ []) :
    Begins r (l ++ l') := by
  cases l with
  | nil => exact absurd rfl nonempty
  | cons e l =>
    have longer : e :: l <+: e :: l ++ l' := List.prefix_append _ _
    obtain ⟨what, st⟩ := e
    cases what with
    | entered p =>
      have run : (r.runFrame p st).log <+: _ := h
      exact run.trans longer
    | began record =>
      obtain ⟨p, seq, row, skips, st, counted, done⟩ := h
      exact ⟨p, seq, row, skips, st, counted, done.trans longer⟩
    | ended | interrupted | left => exact trivial

private theorem Carried.append {l l' : Log} (h : Carried r l) (h' : Carried r l') :
    Carried r (l ++ l') := by
  induction l with
  | nil => exact h'
  | cons e l ih => exact ⟨h.1.append l' (List.cons_ne_nil e l), ih h.2⟩

private theorem Carried.begins {pre post : Log} {e : LogEntry} (h : Carried r (pre ++ e :: post)) :
    Begins r (e :: post) := by
  induction pre with
  | nil => exact h.1
  | cons e' pre ih => exact ih h.2

private theorem step_carried (p : Program)
    (nested : OfNested r (fun _ _ f => Carried r f.log) p)
    (seq : Nat) (row : Row) (counted : row.isEmpty = false) (skips : Nat) (st : RunState) :
    Carried r (step r (below r) p seq row skips st).log := by
  obtain ⟨e, same, -, descends⟩ := step_descends r (below r) p seq row skips st
  have inner : Carried r e.log := by
    refine descends.fold (R := fun _ l _ => Carried r l) (fun _ => trivial) .append ?_
    rintro run ⟨⟩ child started
    exact nested child started.level started.level_le
  have whole : (step r (below r) p seq row skips st).log <+:
      (step r (below r) p seq row skips st).log := List.prefix_refl _
  have ended : Carried r [⟨.ended e.record e.directive, closed r row e⟩] :=
    ⟨trivial, trivial⟩
  rw [same] at whole ⊢
  refine ⟨⟨p, seq, row, skips, st, counted, ?_⟩, inner.append ended⟩
  rw [same]
  exact whole

private theorem rows_carried (p : Program)
    (nested : OfNested r (fun _ _ f => Carried r f.log) p)
    (l : List Row) (seq skips : Nat) (g : Progress) (st : RunState) :
    Carried r (rows r (below r) p l seq skips g st).log := by
  fun_induction rows r (below r) p l seq skips g st with
  | case1 seq skips g st => exact trivial
  | case2 row rest seq skips g st empty ih => exact ih
  | case3 row rest seq skips g st _ _ stopped => exact ⟨trivial, trivial⟩
  | case4 row rest seq skips g st counted _ s g' reason _ =>
    exact step_carried p nested seq row (Bool.eq_false_iff.2 counted) skips st
  | case5 row rest seq skips g st counted _ s g' _ more ih =>
    exact (step_carried p nested seq row (Bool.eq_false_iff.2 counted) skips st).append ih

theorem runFrame_carried (r : Runner) (p : Program) (st : RunState) :
    Carried r (r.runFrame p st).log := by
  refine runFrame_induction (P := fun _ _ f => Carried r f.log) ?_ p st
  intro p nested st
  have first : Begins r (frameWith r (below r) p st).log := by
    change (r.runFrame p st).log <+: _
    rw [runFrame_eq]
    exact List.prefix_refl _
  exact ⟨first, (rows_carried p nested p.rows 1 0 {} st).append ⟨trivial, trivial⟩⟩

theorem Carried.after_entered {pre post : Log} {q : Program} {st : RunState}
    (h : Carried r (pre ++ ⟨.entered q, st⟩ :: post)) :
    let run := rows r (below r) q q.rows 1 0 {} st
    ∃ st' rest, post = run.log ++ ⟨.left (summarize q run), st'⟩ :: rest ∧
      st'.session = run.state.session.resetReportable := by
  intro run
  obtain ⟨rest, split⟩ : (r.runFrame q st).log <+: _ := h.begins
  rw [runFrame_eq] at split
  exact ⟨_, rest, (List.cons.inj split).2.symm.trans (List.append_assoc _ _ _), rfl⟩

theorem Carried.of_matched {pre inner post : Log} {q : Program} {f : FrameSummary}
    {st₁ st₂ : RunState} (balanced : RowsLog inner)
    (h : Carried r (pre ++ ⟨.entered q, st₁⟩ :: inner ++ ⟨.left f, st₂⟩ :: post)) :
    let run := rows r (below r) q q.rows 1 0 {} st₁
    inner = run.log ∧ f = summarize q run ∧ st₂.session = run.state.session.resetReportable := by
  intro run
  rw [List.append_assoc, List.cons_append] at h
  obtain ⟨st', rest, followed, session⟩ := h.after_entered
  have rowsLog := rows_rowsLog (r := r) (below_frameLog r) q q.rows 1 0 {} st₁
  obtain rfl := balanced.eq_of_append_left rowsLog followed
  obtain ⟨⟨⟩, -⟩ := List.cons.inj (List.append_cancel_left followed)
  exact ⟨rfl, rfl, session⟩

/-- After a record is begun it is carried out, and then it is ended. -/
theorem Carried.after_began {pre post : Log} {record : Record} {st : RunState}
    (h : Carried r (pre ++ ⟨.began record, st⟩ :: post)) :
    ∃ position skips baseDir, PlacedAs record record.row position skips st.session.vars ∧
      record.row.isEmpty = false ∧
      let e := attempt r (below r) record baseDir st
      ∃ rest, post = e.log ++ ⟨.ended e.record e.directive, closed r record.row e⟩ :: rest := by
  obtain ⟨p, seq, row, skips, st', counted, rest, split⟩ := h.begins
  have placed := begunRecord_placed p seq row skips (opened r row st')
  obtain ⟨first, more⟩ := List.cons.inj split
  obtain ⟨⟨⟩, ⟨⟩⟩ := LogEntry.mk.inj first
  have same := placed.row
  generalize begunRecord p seq row skips (opened r row st') = record at placed same more ⊢
  obtain rfl := same
  exact ⟨_, skips, p.baseDir, placed, counted, rest, more.symm.trans (List.append_assoc _ _ _)⟩

end Runbook.Run
