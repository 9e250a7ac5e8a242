import Runbook.Proofs.Run.Caller
import Runbook.Proofs.Run.OwnSteps

set_option autoImplicit false

/-!
The skipping of steps. A program counts down how many of its next steps are to be skipped, and an
active step sets the count anew. As long as the count is not used up no step is active, so that
setting it neither loses nor lengthens a skip that was asked for before: a step is skipped by force
exactly when an active step of the same program, no further back than it asked for, asked for it.
-/
namespace Runbook.Run

/-- Steps of which so many are skipped by force, and then those that each active one asks for. -/
def CountsDown : Nat → List EndedStep → Prop
  | _, [] => True
  | n, s :: l => (s.record.forcedSkip = true ↔ 0 < n) ∧
      CountsDown (if s.record.isActive then s.directive.skipSteps else n - 1) l

/-- A step is skipped by force exactly when the count before all steps reaches to it, or that of an
active one. -/
theorem CountsDown.forcedSkip_iff {n : Nat} {l : List EndedStep} (h : CountsDown n l) (i : Nat)
    (bound : i < l.length) :
    l[i].record.forcedSkip = true ↔
      i < n ∨ ∃ j, ∃ _ : j < i, l[j].record.isActive = true ∧ i - j ≤ l[j].directive.skipSteps := by
  induction l generalizing n i with
  | nil => exact absurd bound (Nat.not_lt_zero i)
  | cons s l ih =>
    obtain ⟨first, rest⟩ := h
    cases i with
    | zero =>
      rw [List.getElem_cons_zero, first]
      constructor
      · exact .inl
      · rintro (counted | ⟨j, before, -⟩)
        · exact counted
        · exact absurd before (Nat.not_lt_zero j)
    | succ i =>
      have bound : i < l.length := Nat.lt_of_succ_lt_succ bound
      rw [List.getElem_cons_succ, ih rest i bound]
      -- What the first step leaves of the count reaches as far as the count before it, or as far as
      -- the step asks: no count is left before an active step.
      have left : i < (if s.record.isActive then s.directive.skipSteps else n - 1) ↔
          i + 1 < n ∨ (s.record.isActive = true ∧ i + 1 ≤ s.directive.skipSteps) := by
        cases active : s.record.isActive with
        | true =>
          have used : ¬ 0 < n := by
            rw [← first]
            intro forced
            simp [Record.isActive, forced] at active
          simp
          omega
        | false =>
          simp
          omega
      rw [left, or_assoc]
      refine or_congr_right ?_
      constructor
      · rintro (⟨active, reaches⟩ | ⟨j, before, asks⟩)
        · exact ⟨0, Nat.succ_pos i, active, reaches⟩
        · refine ⟨j + 1, Nat.succ_lt_succ before, ?_⟩
          rw [Nat.add_sub_add_right]
          exact asks
      · rintro ⟨j, before, asks⟩
        cases j with
        | zero => exact .inl asks
        | succ j =>
          rw [Nat.add_sub_add_right] at asks
          exact .inr ⟨j, Nat.lt_of_succ_lt_succ before, asks⟩

variable {r : Runner} {deeper : Deeper}

theorem rows_countDown (h : ∀ run, deeper = some run → ∀ p st, FrameLog p (run p st).log)
    (p : Program) (l : List Row) (seq skips : Nat) (g : Progress) (st : RunState) :
    CountsDown skips (ownSteps (rows r deeper p l seq skips g st).log) := by
  have counts (row : Row) (seq skips : Nat) (st : RunState) (rest : Log)
      (more : CountsDown (step r deeper p seq row skips st).skips (ownSteps rest)) :
      CountsDown skips (ownSteps ((step r deeper p seq row skips st).log ++ rest)) := by
    obtain ⟨record, own, -, continues, left⟩ :=
      ownSteps_step (r := r) h p seq row skips st rest
    have placed := begunRecord_placed p seq row skips (opened r row st)
    rw [own]
    rw [left] at more
    refine ⟨?_, more⟩
    rw [continues.forcedSkip]
    exact placed.forcedSkip
  fun_induction rows r deeper p l seq skips g st with
  | case1 seq skips g st => exact trivial
  | case2 row rest seq skips g st empty ih => exact ih
  | case3 row rest seq skips g st _ _ stopped => exact trivial
  | case4 row rest seq skips g st _ _ s g' reason _ =>
    rw [← List.append_nil s.log]
    exact counts row seq skips st [] trivial
  | case5 row rest seq skips g st _ _ s g' _ more ih => exact counts row seq skips st more.log ih

private theorem attempt_of_forcedSkip {record : Record} (forced : record.forcedSkip = true)
    (baseDir : Option String) (st : RunState) :
    attempt r deeper record baseDir st = { record, state := st } := by
  refine attempt_of_inactive ?_ r deeper baseDir st
  simp [Record.isActive, forced]

theorem attempt_directive {record : Record} (active : record.isActive = true) (r : Runner)
    (deeper : Deeper) (baseDir : Option String) (st : RunState) :
    let resolved := (record.resolve r.params st.session.vars).1
    let carried := dispatchSound r deeper resolved baseDir (resolvedState r record st)
    let e := attempt r deeper record baseDir st
    e.log = carried.log ∧
      e.directive =
        (Directive.ofAction (resolved.policy.after e.record.status)).merge carried.directive := by
  simp only [attempt_of_active active, execute]
  generalize dispatchSound r deeper _ baseDir _ = carried
  obtain ⟨notes, commented, -⟩ := captured_commented r carried
  rw [commented.status]
  exact ⟨trivial, rfl⟩

/-- Skips propagate: a step is skipped by force exactly when the skips of an active one before it
reach to it. -/
theorem skips_propagate (r : Runner) (p : Program) (st : RunState) :
    let run := r.run p st
    (∀ pre q st₁ post, run.log = pre ++ ⟨.entered q, st₁⟩ :: post →
      ∃ inner f st₂ rest, post = inner ++ ⟨.left f, st₂⟩ :: rest ∧ RowsLog inner ∧ f.IsOf q ∧
        let own := ownSteps inner
        f.steps = own.map (fun s => s.record.result) ∧
        own.map (fun s => s.record.row) <+: q.rows.filter (fun row => !row.isEmpty) ∧
        ∀ i (_ : i < own.length), own[i].record.forcedSkip = true ↔
          ∃ j, ∃ _ : j < i, own[j].record.isActive = true ∧ i - j ≤ own[j].directive.skipSteps) ∧
    (∀ pre record st₁ post, run.log = pre ++ ⟨.began record, st₁⟩ :: post →
      record.forcedSkip = true →
      ∃ st₂ rest, post = ⟨.ended record {}, st₂⟩ :: rest ∧ record.status = .skip ∧
        record.errors = [] ∧ record.exception = none ∧ skipComment ∈ record.comments ∧
        record.description = st₁.session.vars.substitute record.row.description ∧
        st₂.session.vars = st₁.session.vars) ∧
    ∀ pre record st₁ post, run.log = pre ++ ⟨.began record, st₁⟩ :: post →
      record.isActive = true →
      ∃ baseDir record' st₂ rest,
        let resolved := (record.resolve r.params st₁.session.vars).1
        let carried := dispatchSound r (below r) resolved baseDir (resolvedState r record st₁)
        record.Continues record' ∧
        post = carried.log ++ ⟨.ended record' ((Directive.ofAction
          (resolved.policy.after record'.status)).merge carried.directive), st₂⟩ :: rest := by
  intro run
  have carried : Carried r run.log := runFrame_carried r p st
  refine ⟨?_, ?_, ?_⟩
  · intro pre q st₁ post split
    rw [split] at carried
    obtain ⟨st₂, rest, followed, -⟩ := carried.after_entered
    have frameLog := below_frameLog r
    obtain ⟨steps, rows, -⟩ := ownSteps_rows (r := r) frameLog q q.rows 1 0 {} st₁
    have counts := rows_countDown (r := r) frameLog q q.rows 1 0 {} st₁
    refine ⟨_, _, st₂, rest, followed, rows_rowsLog frameLog _ _ _ _ _ _, ⟨rfl, rfl, rfl⟩,
      steps, rows, ?_⟩
    intro i bound
    rw [counts.forcedSkip_iff i bound]
    simp
  · intro pre record st₁ post split forced
    rw [split] at carried
    obtain ⟨position, skips, baseDir, placed, -, more, followed⟩ := carried.after_began
    rw [attempt_of_forcedSkip forced] at followed
    refine ⟨_, more, followed, ?_, placed.errors, placed.exception,
      placed.comment (placed.forcedSkip.1 forced), placed.description, rfl⟩
    simp [Record.status, Record.hasErrors, Record.isActive, placed.errors, placed.exception, forced]
  · intro pre record st₁ post split active
    rw [split] at carried
    obtain ⟨-, -, baseDir, -, -, more, followed⟩ := carried.after_began
    obtain ⟨log, directive⟩ := attempt_directive active r (below r) baseDir st₁
    have continues := attempt_continues r (below r) record baseDir st₁
    rw [log, directive] at followed
    exact ⟨baseDir, _, _, more, continues, followed⟩

def skipper : Program :=
  { name := "skipper", rows := [noteRow "OnPass=skip:1", callRow, noteRow ""] }

def skippingRun : Runner.Finished :=
  (withChild [noteRow ""]).run skipper {}

theorem skippingRun_skips :
    (∃ inner f st rest,
      skippingRun.log = ⟨.entered skipper, {}⟩ :: (inner ++ ⟨.left f, st⟩ :: rest) ∧
      f.steps.map (·.status) = (ownSteps inner).map (·.record.status) ∧
      ∀ i (_ : i < (ownSteps inner).length), (ownSteps inner)[i].record.forcedSkip = true ↔
        ∃ j, ∃ _ : j < i, (ownSteps inner)[j].record.isActive = true ∧
          i - j ≤ (ownSteps inner)[j].directive.skipSteps) ∧
    (ownSteps skippingRun.log.tail).map (·.record.forcedSkip) = [false, true, false] ∧
    ∃ record st rest, skippingRun.log.drop 4 = ⟨.ended record {}, st⟩ :: rest ∧
      record.action = "RunProgram" ∧ record.status = .skip ∧ skipComment ∈ record.comments := by
  obtain ⟨counted, forced, -⟩ := skips_propagate (withChild [noteRow ""]) skipper {}
  have first : skippingRun.log = [] ++ ⟨.entered skipper, {}⟩ :: skippingRun.log.tail := rfl
  obtain ⟨inner, f, st, rest, followed, -, -, steps, -, reached⟩ := counted _ _ _ _ first
  have evaluated : (skippingRun.log[3]?.bind LogEntry.begun?).isSome = true ∧
      (∀ record ∈ skippingRun.log[3]?.bind LogEntry.begun?,
        record.forcedSkip = true ∧ record.action = "RunProgram") ∧
      (ownSteps skippingRun.log.tail).map (·.record.forcedSkip) = [false, true, false] := by
    decide +kernel
  obtain ⟨begins, there, own⟩ := evaluated
  obtain ⟨record, begins⟩ := Option.isSome_iff_exists.1 begins
  obtain ⟨skipped, named⟩ := there record begins
  obtain ⟨e, -, split⟩ := eq_take_began_drop begins
  obtain ⟨st', more, ended, status, -, -, comment, -⟩ := forced _ _ _ _ split skipped
  refine ⟨⟨inner, f, st, rest, ?_, ?_, reached⟩, own, record, st', more, ended, named, status,
    comment⟩
  · rw [first, followed]
    rfl
  · rw [steps, List.map_map]
    rfl

end Runbook.Run
