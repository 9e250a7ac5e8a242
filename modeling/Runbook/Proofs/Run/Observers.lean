import Runbook.CommandLine.RunProgram
import Runbook.Proofs.Action.Registry
import Runbook.Proofs.Run.Conservation
import Runbook.Proofs.Run.Decision
import Runbook.Proofs.Run.Lookups
import Runbook.Proofs.Run.Rows

set_option autoImplicit false

/-!
Observers of a run. Reports, captured surfaces and the actions that are left out of the reportable
tier are for those who look at a run; the run itself goes on as it would without them. Two runs are
kept in lock step whose runners differ in all of this. There are two ways back into a run: a file
that a report or a picture is written to and a program is read from, and an action that looks at
what is told of the programs that it made up.
-/
namespace Runbook

/-- Runners that agree on what steps do. Their settings may differ in what is captured, delayed,
reported and left out of reports. -/
structure Runner.AgreesWith (r r' : Runner) : Prop where
  params : r'.params = r.params
  maxDepth : r'.config.maxDepth = r.config.maxDepth
  registry : r'.registry = r.registry
  inline : r'.inline = r.inline

namespace Run

def Lookup.resolve (x : Lookup) (inline : Keyed (List Row)) (files : FileTree) :
    Except LoadError Loaded :=
  Loader.resolve ⟨inline, files⟩ x.reference x.dir

/-- Nothing that a runner captures or reports changes what a look-up finds. -/
structure Spares (r : Runner) (inline : Keyed (List Row)) (x : Lookup) : Prop where
  captures : ∀ record files,
    x.resolve inline (r.capture.take record files).2 = x.resolve inline files
  reports : ∀ e files, x.resolve inline (r.reporter e files) = x.resolve inline files

section Relations

variable (r : Runner)

/-- What may be captured of a step: nothing, or what its action worked on if that can be captured.
-/
inductive Captured (action : String) : List String → Prop
  | nothing : Captured action []
  | picture {a : Action} (found : r.registry.find? action = some a) (interactive : a.interactive = true)
      (path : String) : Captured action ["captured " ++ path]

/-- Comments on a step that differ only in what was captured of it at the end. -/
def ToldAlike (action : String) (comments comments' : List String) : Prop :=
  ∃ told seen seen', comments = told ++ seen ∧ comments' = told ++ seen' ∧
    Captured r action seen ∧ Captured r action seen'

structure StepObserved (s s' : StepResult) : Prop where
  rest : s' = { s with comments := s'.comments }
  comments : ToldAlike r s.action s.comments s'.comments

structure FrameObserved (f f' : FrameSummary) : Prop where
  rest : f' = { f with reportable := f'.reportable, steps := f'.steps }
  steps : List.Forall₂ (StepObserved r) f.steps f'.steps

inductive EventObserved : Event → Event → Prop
  | step {s s' : StepResult} (observed : StepObserved r s s') : EventObserved (.step s) (.step s')
  | frame {f f' : FrameSummary} (observed : FrameObserved r f f') :
      EventObserved (.frame f) (.frame f')
  | session (s : SessionSummary) : EventObserved (.session s) (.session s)

variable (known : Lookup → Prop)

/-- States of two runs that later steps cannot tell apart, if they look up nothing but what is
known. -/
structure Abreast (st st' : RunState) : Prop where
  vars : st'.session.vars = st.session.vars
  counters : st'.session.counters = st.session.counters
  terminated : st'.session.terminated = st.session.terminated
  interrupted : st'.interrupted = st.interrupted
  files : ∀ x, known x → x.resolve r.inline st'.files = x.resolve r.inline st.files

structure FrameRun.Observed (f f' : FrameRun) : Prop where
  summary : FrameObserved r f.summary f'.summary
  events : List.Forall₂ (EventObserved r) f.events f'.events
  state : Abreast r known f.state f'.state

structure AnsweredAlike (ran ran' : Except Action.Error Action.Outcome × Log × RunState) :
    Prop where
  answer : ran'.1 = ran.1
  events : List.Forall₂ (EventObserved r) (eventsOf ran.2.1) (eventsOf ran'.2.1)
  state : Abreast r known ran.2.2 ran'.2.2

structure Execution.Alike (e e' : Execution) : Prop where
  record : e'.record = e.record
  directive : e'.directive = e.directive
  interactive : e'.interactive = e.interactive
  found : e.interactive = true →
    ∃ a, r.registry.find? e.record.action = some a ∧ a.interactive = true
  events : List.Forall₂ (EventObserved r) (eventsOf e.log) (eventsOf e'.log)
  state : Abreast r known e.state e'.state

structure Execution.Observed (e e' : Execution) : Prop where
  record : e'.record = { e.record with comments := e'.record.comments }
  comments : ToldAlike r e.record.action e.record.comments e'.record.comments
  directive : e'.directive = e.directive
  events : List.Forall₂ (EventObserved r) (eventsOf e.log) (eventsOf e'.log)
  state : Abreast r known e.state e'.state

structure StepRun.Observed (s s' : StepRun) : Prop where
  result : StepObserved r s.result s'.result
  directive : s'.directive = s.directive
  skips : s'.skips = s.skips
  events : List.Forall₂ (EventObserved r) (eventsOf s.log) (eventsOf s'.log)
  state : Abreast r known s.state s'.state

structure ProgressObserved (g g' : Progress) : Prop where
  counters : g'.counters = g.counters
  steps : List.Forall₂ (StepObserved r) g.steps g'.steps

structure RowsRun.Observed (run run' : RowsRun) : Prop where
  progress : ProgressObserved r run.progress run'.progress
  ending : run'.ending = run.ending
  events : List.Forall₂ (EventObserved r) (eventsOf run.log) (eventsOf run'.log)
  state : Abreast r known run.state run'.state

end Relations

section Actions

/-- Calls of an action in two runs: they differ in the reportable tier, and in files that nothing
known is looked up in. -/
structure CallsAlike (known : Lookup → Prop) (c c' : Action.Call) : Prop where
  rest : c' = { c with
    session := { c.session with reportable := c'.session.reportable }
    loader := { c.loader with files := c'.loader.files } }
  files : ∀ x, known x →
    x.resolve c.loader.inline c'.loader.files = x.resolve c.loader.inline c.loader.files

/-- What an action goes on with is the same in two runs in which the programs that it made up are
reported alike. -/
def HeedlessScript (r : Runner) (known : Lookup → Prop) : Action.Script → Prop
  | .answer _ => True
  | .run _ _ _ _ next => ∀ f c,
      HeedlessScript r known (next f c) ∧
      ∀ f' c', FrameObserved r f f' → CallsAlike known c c' → next f' c' = next f c

/-- An action that does not look at the reportable tier or at what was captured, and looks up
nothing but what is known. -/
structure Heedless (r : Runner) (known : Lookup → Prop) (a : Action) : Prop where
  direct : ∀ act, a.body = .direct act → ∀ c c', CallsAlike known c c' → act c' = act c
  hosting : ∀ script, a.body = .hosting script →
    ∀ c, HeedlessScript r known (script c) ∧ ∀ c', CallsAlike known c c' → script c' = script c

def Unobserving (r : Runner) (known : Lookup → Prop) : Prop :=
  ∀ name a, r.registry.find? name = some a → Heedless r known a

private theorem builtins_heedless (r : Runner) (known : Lookup → Prop) :
    ∀ a ∈ Action.builtins, Heedless r known a := by
  intro a member
  constructor
  · intro act body c c' alike
    rw [alike.rest]
    simp only [Action.builtins, List.mem_cons, List.not_mem_nil, or_false] at member
    rcases member with rfl | rfl | rfl | rfl | rfl | rfl | rfl | rfl
    all_goals cases body
    all_goals rfl
  · intro script body
    have single : ∀ a ∈ Action.builtins, a.hosts = false := by decide
    have plain := single a member
    rw [Action.hosts, body] at plain
    cases plain

private theorem unobserving_of_ofList {r : Runner} {known : Lookup → Prop} {actions : List Action}
    (h : r.registry = .ofList actions) (each : ∀ a ∈ actions, Heedless r known a) :
    Unobserving r known := by
  intro name a found
  rw [h] at found
  exact each a (Registry.mem_of_find?_ofList found)

end Actions

section Folding

variable {r : Runner}

private theorem firstException?_observed {f f' : FrameSummary} (h : FrameObserved r f f') :
    f'.firstException?.map (fun x => (x.1.step, x.2)) =
      f.firstException?.map (fun x => (x.1.step, x.2)) := by
  have steps := h.steps
  unfold FrameSummary.firstException?
  generalize f.steps = l at steps ⊢
  generalize f'.steps = l' at steps ⊢
  induction steps with
  | nil => rfl
  | @cons s s' l l' observed _ ih =>
    rw [observed.rest]
    cases raised : s.exception with
    | none => simpa [raised] using ih
    | some exception => simp [raised]

private theorem foldSummary_observed {f f' : FrameSummary} (h : FrameObserved r f f') :
    foldSummary f' = foldSummary f := by
  have first := firstException?_observed h
  have program : f'.program = f.program := by rw [h.rest]
  have state : f'.state = f.state := by rw [h.rest]
  have counters : f'.counters = f.counters := by rw [h.rest]
  have comments : f'.comments = f.comments := by rw [h.rest]
  have errors : f'.errors = f.errors := by rw [h.rest]
  unfold foldSummary
  rw [program, state, counters, comments, errors]
  generalize f.firstException? = x at first ⊢
  generalize f'.firstException? = x' at first ⊢
  cases x with
  | none =>
    rw [Option.map_eq_none_iff.1 first]
  | some raised =>
    obtain ⟨raised', rfl, same⟩ := Option.map_eq_some_iff.1 first
    obtain ⟨step, exception⟩ := Prod.mk.inj same
    simp only [step, exception]

end Folding

section Capturing

variable {r : Runner}

private theorem captured_told {q : Runner} {e : Execution}
    (found : e.interactive = true →
      ∃ a, r.registry.find? e.record.action = some a ∧ a.interactive = true) :
    ∃ seen, Captured r e.record.action seen ∧
      captured q e = { e.record with comments := e.record.comments ++ seen } := by
  rcases captured_cases q e with same | ⟨interactive, path, same⟩
  · exact ⟨[], .nothing, by rw [same, List.append_nil]⟩
  · obtain ⟨a, registered, captures⟩ := found interactive
    exact ⟨_, .picture registered captures path, same⟩

private theorem Spares.picture {q : Runner} {inline : Keyed (List Row)} {x : Lookup}
    (h : Spares q inline x) (e : Execution) :
    x.resolve inline (picture q e).2 = x.resolve inline e.state.files := by
  unfold Run.picture
  split
  · exact h.captures e.record e.state.files
  · rfl

end Capturing

/-- What runners that spare all that is known to be looked up do to states is not looked up. -/
structure SpareBoth (r r' : Runner) (known : Lookup → Prop) : Prop where
  one : ∀ x, known x → Spares r r.inline x
  other : ∀ x, known x → Spares r' r.inline x

private theorem ProgressObserved.add {r : Runner} {g g' : Progress} (h : ProgressObserved r g g')
    {s s' : StepResult} (observed : StepObserved r s s') :
    ProgressObserved r (g.add s) (g'.add s') where
  counters := by rw [Progress.add, Progress.add, h.counters, observed.rest]
  steps := List.rel_append h.steps (.cons observed .nil)

section Stopping

variable {r : Runner} {known : Lookup → Prop} {s s' : StepRun}

private theorem StepRun.Observed.stopReason?_eq (h : s.Observed r known s') :
    stopReason? s' = stopReason? s := by
  simp only [stopReason?, h.directive, h.state.terminated, h.state.interrupted]

private theorem StepRun.Observed.stopped (h : s.Observed r known s') {g g' : Progress}
    (progress : ProgressObserved r g g') (reason : String) :
    (s.stopped g reason).Observed r known (s'.stopped g' reason) where
  progress := progress.add h.result
  ending := by
    simp only [StepRun.stopped, h.state.terminated]
    rw [h.result.rest]
  events := h.events
  state := h.state

private theorem RowsRun.Observed.after {run run' : RowsRun} (h : run.Observed r known run')
    {l l' : Log}
    (events : List.Forall₂ (EventObserved r) (eventsOf l) (eventsOf l')) :
    (run.after l).Observed r known (run'.after l') where
  progress := h.progress
  ending := h.ending
  events := by
    rw [RowsRun.after, RowsRun.after, eventsOf_append, eventsOf_append]
    exact List.rel_append events h.events
  state := h.state

end Stopping

section LockStep

variable {r r' : Runner} {known : Lookup → Prop}

namespace Abreast

variable {st st' : RunState}

private theorem session_eq (h : Abreast r known st st') :
    st'.session = { st.session with reportable := st'.session.reportable } := by
  dsimp only
  rw [← h.vars, ← h.counters, ← h.terminated]

private theorem withVars (h : Abreast r known st st') (vars : Variables) :
    Abreast r known (st.withVars vars) (st'.withVars vars) :=
  ⟨rfl, h.counters, h.terminated, h.interrupted, h.files⟩

private theorem touched (h : Abreast r known st st') (t : Action.Touch) :
    Abreast r known (touched st t) (touched st' t) :=
  ⟨rfl, h.counters, h.terminated, by simp only [Run.touched, h.interrupted], h.files⟩

end Abreast

abbrev LockStep (r r' : Runner) (known : Lookup → Prop) (p : Program) (st : RunState)
    (f : FrameRun) : Prop :=
  ∀ st' stack, Abreast r known st st' → (∀ x ∈ lookups r stack f.log, known x) →
    f.Observed r known (r'.runFrame p st')

variable (agree : r.AgreesWith r')

include agree

private theorem callsAlike {st st' : RunState} (h : Abreast r known st st') (record : Record)
    (dir : Option String) :
    CallsAlike known (callOf r record dir st) (callOf r' record dir st') where
  rest := by
    simp only [callOf, agree.maxDepth, agree.inline]
    rw [h.session_eq]
  files := h.files

section Nested

variable {p : Program} (nested : OfNested r (LockStep r r' known) p) {record : Record}
  (level : record.position.level = p.level) {dir : Option String} {stack : List Opening}

include nested level

private theorem runNested_alike {st st' : RunState} (h : Abreast r known st st')
    (looked : known ⟨record.reference, dir⟩)
    (inner : ∀ x ∈ lookups r stack (runNested r (below r) record dir st).2.1, known x) :
    AnsweredAlike r known (runNested r (below r) record dir st)
      (runNested r' (below r') record dir st') := by
  have same : nestedProgram r' st'.files record dir = nestedProgram r st.files record dir := by
    have found := h.files _ looked
    simp only [Lookup.resolve, Record.reference] at found
    simp only [nestedProgram, agree.maxDepth, agree.inline, found]
  unfold runNested at inner ⊢
  rw [same]
  cases found : nestedProgram r st.files record dir with
  | error e => exact ⟨rfl, .nil, h⟩
  | ok child =>
    have under := nestedProgram_ok found
    simp only [found] at inner
    have observed := nested child (under.level.trans (by rw [level])) under.level_le st st' stack h
      inner
    exact ⟨foldSummary_observed observed.summary, observed.events, observed.state⟩

private theorem perform_alike {script : Action.Script} (heedless : HeedlessScript r known script)
    {st st' : RunState} (h : Abreast r known st st')
    (inner : ∀ x ∈ lookups r stack (perform r (below r) record dir script st).2.1, known x) :
    AnsweredAlike r known (perform r (below r) record dir script st)
      (perform r' (below r') record dir script st') := by
  induction script generalizing st st' with
  | answer effect => exact ⟨rfl, .nil, h.touched _⟩
  | run touch name rows dir' next ih =>
    simp only [perform, agree.maxDepth] at inner ⊢
    split at inner
    · next deep =>
      rw [if_pos deep, if_pos deep]
      exact ⟨rfl, .nil, h.touched touch⟩
    · next shallow =>
      rw [if_neg shallow, if_neg shallow]
      have under := under_childOf shallow name rows dir'
      generalize Program.childOf record name rows dir' = child at under inner ⊢
      have started := h.touched touch
      generalize touched st touch = start at started inner ⊢
      generalize touched st' touch = start' at started ⊢
      have balanced := (runFrame_frameLog r child start).callsLog
      rw [lookups_append, balanced.openAfter_eq, List.forall_mem_append] at inner
      have observed := nested child (under.level.trans (by rw [level])) under.level_le start start'
        stack started inner.1
      have same := (heedless _ _).2 _ _ observed.summary (callsAlike agree observed.state record dir)
      rw [same]
      have rest := ih _ _ (heedless _ _).1 observed.state inner.2
      exact ⟨rest.answer, by
        rw [eventsOf_append, eventsOf_append]
        exact List.rel_append observed.events rest.events, rest.state⟩

private theorem dispatch_alike (heedless : Unobserving r known) {st st' : RunState}
    (h : Abreast r known st st')
    (looked : r.runsPrograms record.action = true → known ⟨record.reference, dir⟩)
    (inner : ∀ x ∈ lookups r stack (dispatch r (below r) record dir st).log, known x) :
    (dispatch r (below r) record dir st).Alike r known
      (dispatch r' (below r') record dir st') := by
  have idle (record : Record) : Execution.Alike r known { record, state := st }
      { record, state := st' } := ⟨rfl, rfl, rfl, nofun, .nil, h⟩
  unfold dispatch at inner ⊢
  rw [agree.registry]
  by_cases named : record.action = ""
  · rw [if_pos named, if_pos named]
    exact idle _
  · rw [if_neg named, if_neg named]
    rw [if_neg named] at inner
    cases found : r.registry.find? record.action with
    | none => exact idle _
    | some a =>
      have acted (answer : Except Action.Error Action.Outcome) (interactive : a.interactive = true) :
          ∃ a, r.registry.find? (applyAnswer record answer).1.action = some a ∧
            a.interactive = true := by
        have same : (applyAnswer record answer).1.action = record.action :=
          congrArg Row.actionName (Record.Continues.applyAnswer record answer).row
        exact ⟨a, by rw [same, found], interactive⟩
      have calls := callsAlike agree h record dir
      simp only [found] at inner
      dsimp only
      cases body : a.body with
      | direct act =>
        have same := (heedless record.action a found).direct act body _ _ calls
        dsimp only
        rw [same]
        exact ⟨rfl, rfl, rfl, acted _, .nil, h.touched _⟩
      | runProgram =>
        simp only [body] at inner
        have named := looked (r.runsPrograms_of_found found body)
        have within : ∀ x ∈ lookups r stack (runNested r (below r) record dir st).2.1, known x := by
          generalize runNested r (below r) record dir st = ran at inner ⊢
          exact inner
        have alike := runNested_alike agree nested level h named within
        dsimp only
        generalize runNested r (below r) record dir st = ran at alike ⊢
        generalize runNested r' (below r') record dir st' = ran' at alike ⊢
        obtain ⟨answer, events, state⟩ := alike
        rw [answer]
        exact ⟨rfl, rfl, rfl, acted _, events, state⟩
      | hosting script =>
        simp only [body] at inner
        obtain ⟨blind, same⟩ := (heedless record.action a found).hosting script body
          (callOf r record dir st)
        dsimp only
        rw [same _ calls]
        have within : ∀ x ∈ lookups r stack (perform r (below r) record dir
            (script (callOf r record dir st)) st).2.1, known x := by
          generalize perform r (below r) record dir _ st = ran at inner ⊢
          exact inner
        have alike := perform_alike agree nested level blind h within
        generalize perform r (below r) record dir _ st = ran at alike ⊢
        generalize perform r' (below r') record dir _ st' = ran' at alike ⊢
        obtain ⟨answer, events, state⟩ := alike
        rw [answer]
        exact ⟨rfl, rfl, rfl, acted _, events, state⟩

private theorem dispatchSound_alike (heedless : Unobserving r known) {st st' : RunState}
    (h : Abreast r known st st')
    (looked : r.runsPrograms record.action = true → known ⟨record.reference, dir⟩)
    (inner : ∀ x ∈ lookups r stack (dispatchSound r (below r) record dir st).log, known x) :
    (dispatchSound r (below r) record dir st).Alike r known
      (dispatchSound r' (below r') record dir st') := by
  unfold dispatchSound at inner ⊢
  cases errors : record.hasErrors with
  | true => exact ⟨rfl, rfl, rfl, nofun, .nil, h⟩
  | false =>
    rw [errors, if_neg Bool.false_ne_true] at inner
    rw [if_neg Bool.false_ne_true, if_neg Bool.false_ne_true]
    exact dispatch_alike agree nested level heedless h looked inner

end Nested

variable (heedless : Unobserving r known) (spares : SpareBoth r r' known)

include heedless spares

private theorem execute_observed {p : Program} (nested : OfNested r (LockStep r r' known) p)
    {st st' : RunState} (h : Abreast r known st st') {record : Record}
    (level : record.position.level = p.level) {dir : Option String} {stack : List Opening}
    (looked : r.runsPrograms record.action = true → known ⟨record.reference, dir⟩)
    (inner : ∀ x ∈ lookups r stack (execute r (below r) record dir st).log, known x) :
    (execute r (below r) record dir st).Observed r known
      (execute r' (below r') record dir st') := by
  have alike := dispatchSound_alike agree nested level heedless h looked inner
  unfold execute
  generalize dispatchSound r (below r) record dir st = e at alike ⊢
  generalize dispatchSound r' (below r') record dir st' = e' at alike ⊢
  obtain ⟨seen, told, same⟩ := captured_told (q := r) alike.found
  have found' : e'.interactive = true →
      ∃ a, r.registry.find? e'.record.action = some a ∧ a.interactive = true := by
    rw [alike.interactive, alike.record]
    exact alike.found
  obtain ⟨seen', told', same'⟩ := captured_told (q := r') found'
  rw [alike.record] at told' same'
  have state := alike.state
  constructor
  · simp only [same, same']
  · simp only [same, same']
    exact ⟨e.record.comments, seen, seen', rfl, rfl, told, told'⟩
  · simp only [alike.record, alike.directive]
  · exact alike.events
  · refine ⟨state.vars, state.counters, state.terminated, state.interrupted, ?_⟩
    intro x member
    exact ((spares.other x member).picture e').trans
      ((state.files x member).trans ((spares.one x member).picture e).symm)

private theorem attempt_observed {p : Program} (nested : OfNested r (LockStep r r' known) p)
    {st st' : RunState} (h : Abreast r known st st') {record : Record}
    (level : record.position.level = p.level) (dir : Option String) (stack : List Opening) :
    let e := attempt r (below r) record dir st
    (r.runsPrograms e.record.action = true → known ⟨e.record.reference, dir⟩) →
      (∀ x ∈ lookups r stack e.log, known x) →
      e.Observed r known (attempt r' (below r') record dir st') := by
  intro e looked inner
  cases active : record.isActive with
  | false =>
    have idle : e = { record, state := st } := attempt_of_inactive active r _ dir st
    rw [idle, attempt_of_inactive active]
    exact ⟨rfl, ⟨record.comments, [], [], (List.append_nil _).symm, (List.append_nil _).symm, .nothing,
      .nothing⟩, rfl, .nil, h⟩
  | true =>
    have carried : e = execute r (below r) (record.resolve r.params st.session.vars).1 dir
        (resolvedState r record st) := attempt_of_active active r _ dir st
    have params : e.record.params = (record.resolve r.params st.session.vars).1.params :=
      params_attempt r _ active dir st
    have continues := Record.Continues.resolve record r.params st.session.vars
    have row := (attempt_continues r (below r) record dir st).row.trans continues.row.symm
    have same : record.resolve r'.params st'.session.vars = record.resolve r.params st.session.vars := by
      rw [agree.params, h.vars]
    have states : Abreast r known (resolvedState r record st) (resolvedState r' record st') := by
      rw [resolvedState, resolvedState, same]
      exact h.withVars _
    rw [attempt_of_active active, same]
    generalize (record.resolve r.params st.session.vars).1 = resolved at carried params continues row ⊢
    have action : e.record.action = resolved.action := congrArg Row.actionName row
    have reference : e.record.reference = resolved.reference := by
      simp only [Record.reference, Record.param?, params]
    rw [action, reference] at looked
    rw [carried] at inner ⊢
    have placed : resolved.position.level = p.level := by
      rw [continues.position, level]
    exact execute_observed agree heedless spares nested states placed looked inner

omit agree heedless in
private theorem Execution.Observed.finished {e e' : Execution} (h : e.Observed r known e')
    (row : Row)
    (skips : Nat) (record : Record) (st st' : RunState) :
    (finished r row skips record st e).Observed r known (finished r' row skips record st' e') := by
  have result : e'.record.result = { e.record.result with comments := e'.record.comments } := by
    rw [h.record]
    rfl
  have observed : StepObserved r e.record.result e'.record.result := ⟨result, h.comments⟩
  have status : e'.record.status = e.record.status := congrArg StepResult.status result
  have state := h.state
  have files : ∀ x, known x →
      x.resolve r.inline (r'.reporter (.step e'.record.result) e'.state.files) =
        x.resolve r.inline (r.reporter (.step e.record.result) e.state.files) := by
    intro x member
    rw [(spares.other x member).reports, (spares.one x member).reports, state.files x member]
  constructor
  · exact observed
  · exact h.directive
  · simp only [Run.finished, h.directive]
  · simp only [Run.finished, eventsOf_step]
    exact List.rel_append h.events (.cons (.step observed) .nil)
  · simp only [Run.finished, closed, h.directive, status]
    split
    · exact ⟨state.vars, congrArg (Counters.record · _) state.counters, rfl, state.interrupted,
        files⟩
    · exact ⟨state.vars, congrArg (Counters.record · _) state.counters, state.terminated,
        state.interrupted, files⟩

private theorem step_observed {p : Program} (nested : OfNested r (LockStep r r' known) p)
    (seq : Nat) (row : Row) (skips : Nat) {st st' : RunState} (h : Abreast r known st st')
    (stack : List Opening) :
    let s := step r (below r) p seq row skips st
    (∀ x ∈ lookups r (.program p :: stack) s.log, known x) →
      s.Observed r known (step r' (below r') p seq row skips st') := by
  have begun : Abreast r known (opened r row st) (opened r' row st') :=
    ⟨h.vars, congrArg Counters.begin h.counters, h.terminated, h.interrupted, h.files⟩
  have record : begunRecord p seq row skips (opened r' row st') =
      begunRecord p seq row skips (opened r row st) := by
    rw [begunRecord, begunRecord, begun.counters, begun.vars]
  have level : (begunRecord p seq row skips (opened r row st)).position.level = p.level := by
    rw [(begunRecord_placed p seq row skips _).position]
  have inner := attempt_callsLog (r := r) (below_frameLog r)
    (begunRecord p seq row skips (opened r row st)) p.baseDir (opened r row st)
  have observed := attempt_observed agree heedless spares nested begun level p.baseDir
    (.step (begunRecord p seq row skips (opened r row st)) :: .program p :: stack)
  intro s looked
  simp only [s, step, finished, lookups_step inner.openAfter_eq, List.forall_mem_append] at looked ⊢
  rw [record]
  generalize begunRecord p seq row skips (opened r row st) = record at looked observed ⊢
  have observed := observed ?_ looked.1
  · generalize attempt r (below r) record p.baseDir (opened r row st) = e at observed ⊢
    generalize attempt r' (below r') record p.baseDir (opened r' row st') = e' at observed ⊢
    exact observed.finished spares row skips record _ _
  · intro runs
    exact looked.2 _ (by rw [if_pos runs]; exact List.mem_singleton_self _)

private theorem rows_observed {p : Program} (nested : OfNested r (LockStep r r' known) p)
    (l : List Row) (seq skips : Nat) {g g' : Progress} (progress : ProgressObserved r g g')
    {st st' : RunState} (h : Abreast r known st st') {stack : List Opening}
    (looked : ∀ x ∈ lookups r (.program p :: stack)
      (rows r (below r) p l seq skips g st).log, known x) :
    (rows r (below r) p l seq skips g st).Observed r known
      (rows r' (below r') p l seq skips g' st') := by
  -- A row leaves the states abreast and the rows after it with the same skips, so that both runs go on
  -- or both stop; what the later rows look up is known because the row's log is closed.
  induction l generalizing seq skips g g' st st' with
  | nil => exact ⟨progress, rfl, .nil, h⟩
  | cons row rest ih =>
    cases empty : row.isEmpty with
    | true =>
      rw [rows_of_empty empty] at looked ⊢
      rw [rows_of_empty empty]
      exact ih (seq + 1) skips progress h looked
    | false =>
      cases raised : st.interrupted with
      | true =>
        rw [rows_of_raised empty raised, rows_of_raised empty (h.interrupted.trans raised)]
        exact ⟨progress, rfl, .nil, h.vars, h.counters, rfl, h.interrupted, h.files⟩
      | false =>
        have lowered := h.interrupted.trans raised
        have observed := step_observed agree heedless spares nested seq row skips h stack
        cases stops : stopReason? (step r (below r) p seq row skips st) with
        | some reason =>
          rw [rows_of_stops empty raised stops] at looked ⊢
          have observed := observed looked
          rw [rows_of_stops empty lowered (observed.stopReason?_eq.trans stops)]
          exact observed.stopped progress reason
        | none =>
          have log := step_rowsLog (r := r) (below_frameLog r) p seq row skips st (.nil _)
          rw [List.append_nil] at log
          have settled := log.openAfter_eq (.program p :: stack)
          rw [rows_of_goes empty raised stops] at looked ⊢
          simp only [RowsRun.after, lookups_append, settled, List.forall_mem_append] at looked
          have observed := observed looked.1
          rw [rows_of_goes empty lowered (observed.stopReason?_eq.trans stops), observed.skips]
          apply RowsRun.Observed.after _ observed.events
          exact ih (seq + 1) _ (progress.add observed.result) observed.state looked.2

private theorem runFrame_lockStep (p : Program) (st : RunState) :
    LockStep r r' known p st (r.runFrame p st) := by
  refine runFrame_induction (P := LockStep r r' known) ?_ p st
  intro p nested st st' stack h looked
  rw [frameWith, lookups_frame] at looked
  have observed := rows_observed agree heedless spares nested p.rows 1 0 ⟨rfl, .nil⟩ h looked
  rw [runFrame_eq]
  have summary : FrameObserved r (summarize p (rows r (below r) p p.rows 1 0 {} st))
      (summarize p (rows r' (below r') p p.rows 1 0 {} st')) := by
    refine ⟨?_, observed.progress.steps⟩
    simp only [summarize, observed.ending, observed.progress.counters]
  refine ⟨summary, ?_, ?_⟩
  · rw [events_frameWith, events_frameWith]
    exact List.rel_append observed.events (.cons (.frame summary) .nil)
  · have state := observed.state
    refine ⟨state.vars, state.counters, state.terminated, state.interrupted, ?_⟩
    intro x member
    simp only [frameWith]
    rw [(spares.other x member).reports, (spares.one x member).reports, state.files x member]

end LockStep

def unwatched : Runner where
  config := { screenshot := .never }
  registry := .ofList (look :: Action.builtins)
  inline := .ofList [("child", [{ id := "look", action := "Look" }])]

def noted (path text : String) (files : FileTree) : FileTree :=
  match files.append path text with
  | .ok files => files
  | .error _ => files

def watched : Runner :=
  { unwatched with
    config := { screenshot := .always, unreportedActions := ["Look"] }
    capture := ⟨fun _ files => (.ok (some "picture"), noted "picture" "look" files)⟩
    reporter := CommandLine.addReport (some "report.jsonl") }

def tableReport : Reporter
  | .frame f => noted "table.tsv" (f.program ++ "\t" ++ f.state.name ++ "\n")
  | _ => id

def rereading : Program where
  name := "rereading"
  rows := [{ id := "first", action := "RunProgram", parameters := "InputSpecs=tsv:table.tsv" },
    { id := "second", action := "RunProgram", parameters := "InputSpecs=tsv:table.tsv" }]

def emptyTable : FileTree :=
  ({} : FileTree).putAt ["table.tsv"] (.file .empty)

end Run
end Runbook
