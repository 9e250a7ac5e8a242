import Runbook.Proofs.Program.Unresolved
import Runbook.Proofs.Run.Depth
import Runbook.Proofs.Run.Directories
import Runbook.Proofs.Run.Setup

set_option autoImplicit false

/-!
Steps whose program is not run. A step that is to run a program looks first whether it names one,
then at the level, and only then for the rows. Whatever is missing, nothing happens between its
begin and its end: it fails, and all that is left of it are the bundles of its own parameters. Only
a step that names a program below the deepest level raises an exception; all else is a plain error.
-/
namespace Runbook.Run

variable {r : Runner} {record : Record} {st : RunState} {baseDir : Option String}

section Refusing

variable {files : FileTree}

private theorem nestedProgram_of_blank (blank : record.reference = "") :
    nestedProgram r files record baseDir = .error (.missingParam referenceName) := by
  unfold Record.reference at blank
  exact if_pos blank

private theorem nestedProgram_of_unresolved (refers : record.reference ≠ "")
    (shallow : record.position.level < r.config.maxDepth)
    (unresolved : Loader.Unresolved ⟨r.inline, files⟩ record.reference baseDir) :
    ∃ reason, nestedProgram r files record baseDir = .error (.invalidParam referenceName reason) := by
  obtain ⟨e, refused⟩ := Loader.exists_resolve_eq_error_iff.2 unresolved
  exact ⟨e.message, by rw [nestedProgram_eq refers shallow, refused]; rfl⟩

end Refusing

def delayed (r : Runner) (st : RunState) : RunState :=
  { st with waited := st.waited + r.config.stepDelayMs }

def Pictured (r : Runner) (before after : FileTree) : Prop :=
  after = before ∨ ∃ record, after = (r.capture.take record before).2

private theorem picture_pictured (r : Runner) (e : Execution) :
    Pictured r e.state.files (picture r e).2 := by
  unfold picture
  split
  · exact .inr ⟨e.record, rfl⟩
  · exact .inl rfl

/-- What carrying out a record leaves when nothing is done: errors, the variables as its parameters
left them, and the delay. -/
structure Idles (r : Runner) (record : Record) (st : RunState) (e : Execution) : Prop where
  log : e.log = []
  state : ∃ files, Pictured r st.files files ∧
    e.state = { delayed r (resolvedState r record st) with files }
  errors : e.record.errors ≠ []

private theorem attempt_idles_of_hasErrors (active : record.isActive = true)
    (calm : record.exception = none)
    (errors : (resolvedRecord r record st).hasErrors = true) (deeper : Deeper) :
    let e := attempt r deeper record baseDir st
    Idles r record st e ∧ e.record.exception = none := by
  have still : (resolvedRecord r record st).exception = none :=
    (Record.exception_resolve record r.params st.session.vars).trans calm
  have noted : (resolvedRecord r record st).errors ≠ [] := by
    intro none
    exact Bool.false_ne_true (((Record.hasErrors_eq_false_iff _).2 ⟨none, still⟩).symm.trans errors)
  rw [attempt_of_hasErrors active errors]
  exact ⟨⟨rfl, ⟨_, .inl rfl, rfl⟩, noted⟩, still⟩

private theorem applyAnswer_setup (clean : record.hasErrors = false) {err : Action.Error}
    (setup : err.isSetup = true) :
    let noted := (applyAnswer record (.error err)).1
    noted.errors = [err.message] ∧ noted.exception = none := by
  obtain ⟨errors, calm⟩ := (Record.hasErrors_eq_false_iff record).1 clean
  simp [applyAnswer, setup, Record.addError, errors, calm]

private theorem execute_of_refused {a : Action} {err : Action.Error}
    (clean : record.hasErrors = false)
    (named : record.action ≠ "") (found : r.registry.find? record.action = some a)
    (body : a.body = .runProgram)
    (refused : nestedProgram r st.files record baseDir = .error err) (deeper : Deeper) :
    let e := execute r deeper record baseDir st
    e.log = [] ∧ (∃ files, Pictured r st.files files ∧ e.state = { delayed r st with files }) ∧
      ∃ notes, Commented (applyAnswer record (.error err)).1 e.record notes := by
  have dispatched : dispatchSound r deeper record baseDir st =
      { record := (applyAnswer record (.error err)).1
        directive := (applyAnswer record (.error err)).2
        interactive := a.interactive, state := st } := by
    rw [dispatchSound_of_clean clean, dispatch, if_neg named]
    simp only [found, body, runNested_of_error refused]
  simp only [execute, dispatched]
  obtain ⟨notes, pictured, -⟩ := captured_commented r
    { record := (applyAnswer record (.error err)).1
      directive := (applyAnswer record (.error err)).2
      interactive := a.interactive, state := st }
  exact ⟨trivial, ⟨_, picture_pictured r _, rfl⟩, notes, pictured⟩

private theorem attempt_idles_of_refused {a : Action} {err : Action.Error}
    (runs : RunsProgram r st.session.vars record a) (counted : record.row.isEmpty = false)
    (refused : nestedProgram r st.files (resolvedRecord r record st) baseDir = .error err)
    (deeper : Deeper) :
    let e := attempt r deeper record baseDir st
    Idles r record st e ∧
      e.record.exception = (if err.isSetup then none else some err.message) ∧
      (err.isSetup = true → e.record.errors = [err.message]) := by
  have same : (resolvedRecord r record st).action = record.action :=
    congrArg Row.actionName (Record.Continues.resolve record _ _).row
  have named := Row.actionName_ne_empty counted
  have found := runs.found
  change record.action ≠ "" at named
  rw [← same] at named found
  rw [← files_resolvedState r record] at refused
  obtain ⟨log, state, notes, noted⟩ :=
    execute_of_refused runs.clean named found runs.body refused deeper
  rw [attempt_of_active runs.active]
  cases setup : err.isSetup with
  | true =>
    obtain ⟨errors, calm⟩ := applyAnswer_setup runs.clean setup
    have said := noted.errors.trans errors
    exact ⟨⟨log, state, by rw [said]; exact List.cons_ne_nil _ _⟩, noted.exception.trans calm,
      fun _ => said⟩
  | false =>
    obtain ⟨-, raised, errors⟩ := applyAnswer_exception runs.clean setup
    have said := noted.errors.trans errors
    exact ⟨⟨log, state, by rw [said]; exact List.cons_ne_nil _ _⟩, noted.exception.trans raised,
      nofun⟩

/-- A step in which nothing is carried out: it is counted as failed, and leaves only date bundles of
its own parameters. -/
structure Fruitless (r : Runner) (row : Row) (record : Record) (st : RunState) (s : StepRun) : Prop where
  log : ∃ record', record.Continues record' ∧ record'.result = s.result ∧
    s.log = [⟨.began record, opened r row st⟩, ⟨.ended record' s.directive, s.state⟩]
  fails : s.result.status = .fail
  errors : s.result.errors ≠ []
  counters : s.state.session.counters = st.session.counters.begin.record .fail
  reportable : s.state.session.reportable =
    if isReported r row then st.session.reportable.begin.record .fail else st.session.reportable
  vars : s.state.session.vars = st.session.vars.overlaid (DateToken.bundles st.session.vars.now
    ((Params.ofBlob r.params row.parameters).entries.map fun e => st.session.vars.substitute e.2))
  files : ∃ files, Pictured r st.files files ∧ s.state.files = r.reporter (.step s.result) files
  interrupted : s.state.interrupted = st.interrupted

private theorem counters_closed (r : Runner) (row : Row) (e : Execution) :
    (closed r row e).session.counters = e.state.session.counters.record e.record.status := by
  unfold closed
  split <;> rfl

private theorem reportable_closed (r : Runner) (row : Row) (e : Execution) :
    (closed r row e).session.reportable =
      if isReported r row then e.state.session.reportable.record e.record.status
      else e.state.session.reportable := by
  unfold closed
  split <;> rfl

section Step

variable {p : Program} {seq : Nat} {row : Row} {skips : Nat} {deeper : Deeper}

private theorem step_fruitless (idles : Idles r (begunRecord p seq row skips (opened r row st))
    (opened r row st) (attempt r deeper (begunRecord p seq row skips (opened r row st)) p.baseDir
      (opened r row st))) :
    Fruitless r row (begunRecord p seq row skips (opened r row st)) st
      (step r deeper p seq row skips st) := by
  have placed := begunRecord_placed p seq row skips (opened r row st)
  have continues := attempt_continues r deeper (begunRecord p seq row skips (opened r row st)) p.baseDir
    (opened r row st)
  have overlaid := Record.vars_resolve_eq placed.row r.params st.session.vars
  simp only [step]
  -- How the record was carried out must stay closed from here on.
  generalize attempt r deeper (begunRecord p seq row skips (opened r row st)) p.baseDir
    (opened r row st) = e at idles continues ⊢
  generalize begunRecord p seq row skips (opened r row st) = record at idles continues overlaid ⊢
  obtain ⟨log, ⟨files, pictured, state⟩, errors⟩ := idles
  have fails : e.record.status = .fail :=
    Record.status_of_hasErrors (Record.hasErrors_of_ne_nil errors)
  have vars : e.state.session.vars =
      (record.resolve r.params (opened r row st).session.vars).2 := by
    simp only [state, delayed, resolvedState, RunState.withVars]
  refine ⟨⟨e.record, continues, rfl, ?_⟩, fails, errors, ?_, ?_, ?_, ?_, ?_⟩
  · simp only [finished, log]
    rfl
  · change (closed r row e).session.counters = _
    rw [counters_closed, fails, state]
    rfl
  · change (closed r row e).session.reportable = _
    rw [reportable_closed, fails, state]
    cases reported : isReported r row with
    | true => simp [delayed, resolvedState, opened, RunState.withVars, Session.begin, reported]
    | false => simp [delayed, resolvedState, opened, RunState.withVars, Session.begin, reported]
  · rw [vars_finished, vars, vars_opened, overlaid]
  · refine ⟨files, pictured, ?_⟩
    have left : e.state.files = files := by rw [state]
    change r.reporter (.step e.record.result) e.state.files = r.reporter (.step e.record.result) files
    rw [left]
  · change e.state.interrupted = st.interrupted
    rw [state]
    rfl

private theorem step_refused {a : Action} {err : Action.Error} (counted : row.isEmpty = false)
    (found : r.registry.find? row.actionName = some a) (body : a.body = .runProgram)
    (active : (begunRecord p seq row skips (opened r row st)).isActive = true)
    (clean : (resolvedRecord r (begunRecord p seq row skips (opened r row st))
      (opened r row st)).hasErrors = false)
    (refused : nestedProgram r st.files (resolvedRecord r
      (begunRecord p seq row skips (opened r row st)) (opened r row st)) p.baseDir = .error err) :
    let s := step r deeper p seq row skips st
    Fruitless r row (begunRecord p seq row skips (opened r row st)) st s ∧
      s.result.exception = (if err.isSetup then none else some err.message) ∧
      (err.isSetup = true → s.result.errors = [err.message]) := by
  have placed := begunRecord_placed p seq row skips (opened r row st)
  have named : (begunRecord p seq row skips (opened r row st)).action = row.actionName :=
    congrArg Row.actionName placed.row
  rw [← named] at found
  rw [← placed.row] at counted
  have runs : RunsProgram r (opened r row st).session.vars
      (begunRecord p seq row skips (opened r row st)) a := ⟨active, clean, found, body⟩
  obtain ⟨idles, rest⟩ := attempt_idles_of_refused runs counted refused deeper
  exact ⟨step_fruitless idles, rest⟩

private theorem step_faulty
    (active : (begunRecord p seq row skips (opened r row st)).isActive = true)
    (errors : (resolvedRecord r (begunRecord p seq row skips (opened r row st))
      (opened r row st)).hasErrors = true) :
    let s := step r deeper p seq row skips st
    Fruitless r row (begunRecord p seq row skips (opened r row st)) st s ∧
      s.result.exception = none := by
  have calm := (begunRecord_placed p seq row skips (opened r row st)).exception
  obtain ⟨idles, still⟩ := attempt_idles_of_hasErrors active calm errors deeper
  exact ⟨step_fruitless idles, still⟩

end Step

/-- Programs that cannot be loaded are not run: the step notes why, and comes to nothing. -/
theorem unresolved_program_not_run (r : Runner) (deeper : Deeper) (p : Program) (seq : Nat) (row : Row)
    (skips : Nat) (st : RunState) (a : Action) (counted : row.isEmpty = false)
    (found : r.registry.find? row.actionName = some a) (body : a.body = .runProgram)
    (active : (begunRecord p seq row skips (opened r row st)).isActive = true) :
    let begun := begunRecord p seq row skips (opened r row st)
    let resolved := resolvedRecord r begun (opened r row st)
    let s := step r deeper p seq row skips st
    (resolved.reference = "" → Fruitless r row begun st s ∧ s.result.exception = none ∧
      (resolved.hasErrors = false →
        s.result.errors = [(Action.Error.missingParam referenceName).message])) ∧
    (p.level < r.config.maxDepth →
      Loader.Unresolved ⟨r.inline, st.files⟩ resolved.reference p.baseDir →
        Fruitless r row begun st s ∧ s.result.exception = none) ∧
    (p.level = r.config.maxDepth → resolved.reference ≠ "" →
      Fruitless r row begun st s ∧
        s.result.exception =
          if resolved.hasErrors then none else some (depthText r.config.maxDepth)) := by
  intro begun resolved s
  have level : resolved.position.level = p.level := by
    rw [(Record.Continues.resolve begun r.params (opened r row st).session.vars).position,
      (begunRecord_placed p seq row skips (opened r row st)).position]
  -- A step with errors in its parameters is not asked for its program.
  cases errors : resolved.hasErrors with
  | true =>
    obtain ⟨fruitless, calm⟩ := step_faulty active errors
    exact ⟨fun _ => ⟨fruitless, calm, nofun⟩, fun _ _ => ⟨fruitless, calm⟩,
      fun _ _ => ⟨fruitless, calm⟩⟩
  | false =>
    refine ⟨?_, ?_, ?_⟩
    · intro blank
      obtain ⟨fruitless, calm, said⟩ :=
        step_refused counted found body active errors (nestedProgram_of_blank blank)
      exact ⟨fruitless, calm, fun _ => said rfl⟩
    · intro shallow unresolved
      by_cases refers : resolved.reference = ""
      · obtain ⟨fruitless, calm, -⟩ :=
          step_refused counted found body active errors (nestedProgram_of_blank refers)
        exact ⟨fruitless, calm⟩
      · obtain ⟨reason, refused⟩ :=
          nestedProgram_of_unresolved refers (level.trans_lt shallow) unresolved
        obtain ⟨fruitless, calm, -⟩ := step_refused counted found body active errors refused
        exact ⟨fruitless, calm⟩
    · intro deepest refers
      have deep : resolved.position.level = r.config.maxDepth := level.trans deepest
      have refused : nestedProgram r st.files resolved p.baseDir =
          .error (.depthExceeded (r.config.maxDepth + 1) r.config.maxDepth) :=
        nestedProgram_of_deepest refers deep st.files p.baseDir
      obtain ⟨fruitless, raised, -⟩ := step_refused counted found body active errors refused
      exact ⟨fruitless, raised⟩

def spoiledFiles : FileTree :=
  ({} : FileTree).addAt ["sheet.jsonl"]
    (.file "\x7b\"action\":\"SetVars\",\"parameters\":\"a=1\"\x7d\noops".toUTF8)

def sheetRow : Row :=
  { id := "sheet", action := "RunProgram", parameters := "InputSpecs=jsonl:sheet.jsonl;Now=%date%" }

def sheetAt (level : Nat) : Program :=
  { name := "sheets", level, rows := [sheetRow] }

def sheetStart : RunState :=
  { files := spoiledFiles, session := { vars := ({} : Variables).set "a" "0" } }

def sheetStep (level : Nat) : StepRun :=
  step {} none (sheetAt level) 1 sheetRow 0 sheetStart

def sheetRecord (level : Nat) : Record :=
  begunRecord (sheetAt level) 1 sheetRow 0 (opened {} sheetRow sheetStart)

/-- The row before the spoiled line is not carried out; at the deepest level the file is not even
looked at. -/
theorem spoiledSheet_not_run :
    (sheetRecord 1).isActive = true ∧
    Loader.Unresolved ⟨.empty, spoiledFiles⟩ "jsonl:sheet.jsonl" none ∧
    Fruitless {} sheetRow (sheetRecord 1) sheetStart (sheetStep 1) ∧
    (sheetStep 1).result.exception = none ∧
    (sheetStep 1).state.session.vars.get? "a" = some "0" ∧
    Fruitless {} sheetRow (sheetRecord 32) sheetStart (sheetStep 32) ∧
    (sheetStep 32).result.exception = some "nesting level 33 exceeds max-depth 32" := by
  have active : ∀ level ∈ [1, 32], (sheetRecord level).isActive = true := by
    decide +kernel
  have resolved : ∀ level ∈ [1, 32],
      let record := resolvedRecord {} (sheetRecord level) (opened {} sheetRow sheetStart)
      record.reference = "jsonl:sheet.jsonl" ∧ record.hasErrors = false := by
    decide +kernel
  have file : Loader.file? ⟨.empty, spoiledFiles⟩ "jsonl:sheet.jsonl" none =
      some ("sheet.jsonl", .jsonl) := by
    decide +kernel
  have spoils : Row.Spoils .jsonl (some "oops".toList) :=
    ⟨rfl, by decide +kernel, by decide +kernel⟩
  have unresolved : Loader.Unresolved ⟨.empty, spoiledFiles⟩ "jsonl:sheet.jsonl" none :=
    .spoiled _ _ _ _ file rfl (by decide +kernel) spoils
  have found : ({} : Runner).registry.find? sheetRow.actionName = some Action.runProgram := rfl
  obtain ⟨-, refused, -⟩ := unresolved_program_not_run {} none (sheetAt 1) 1 sheetRow 0 sheetStart
    Action.runProgram rfl found rfl (active 1 (by decide))
  obtain ⟨same, -⟩ := resolved 1 (by decide)
  obtain ⟨fruitless, calm⟩ := refused (by decide) (by
    change Loader.Unresolved _ (resolvedRecord {} (sheetRecord 1) _).reference _
    rw [same]
    exact unresolved)
  obtain ⟨-, -, deepest⟩ := unresolved_program_not_run {} none (sheetAt 32) 1 sheetRow 0 sheetStart
    Action.runProgram rfl found rfl (active 32 (by decide))
  obtain ⟨same', clean⟩ := resolved 32 (by decide)
  obtain ⟨fruitless', raised⟩ := deepest rfl (by
    change (resolvedRecord {} (sheetRecord 32) _).reference ≠ ""
    rw [same']
    decide)
  have user : Variables.isReserved "a" = false := by decide +kernel
  have kept : (sheetStep 1).state.session.vars.get? "a" = some "0" := by
    rw [sheetStep, fruitless.vars, Variables.get?_overlaid_bundles _ _ _ user]
    decide +kernel
  have said : depthText 32 = "nesting level 33 exceeds max-depth 32" := by
    decide +kernel
  refine ⟨active 1 (by decide), unresolved, fruitless, calm, kept, fruitless', ?_⟩
  rw [sheetStep, raised]
  change (if (resolvedRecord {} (sheetRecord 32) (opened {} sheetRow sheetStart)).hasErrors then none
    else some (depthText 32)) = _
  rw [clean, said]
  rfl

end Runbook.Run
