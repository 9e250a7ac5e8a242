import Runbook.Proofs.Action.Registry
import Runbook.Run.Basic

set_option autoImplicit false

/-!
What a step can do. Whatever becomes of a record, it stays the record of its row at its position.
Carrying it out runs programs one level deeper, one after the other, and leaves counters and marks
alone in between; the step's log is then made of the logs of these programs. Unless its action
makes up programs, there is at most one, and it is run from the state as the parameters left it.
-/
namespace Runbook

structure Record.Continues (before after : Record) : Prop where
  row : after.row = before.row
  position : after.position = before.position
  description : after.description = before.description
  activation : after.activation = before.activation
  forcedSkip : after.forcedSkip = before.forcedSkip

namespace Record.Continues

private theorem refl (r : Record) : Continues r r :=
  ⟨rfl, rfl, rfl, rfl, rfl⟩

private theorem trans {a b c : Record} (h : Continues a b) (h' : Continues b c) : Continues a c :=
  ⟨h'.row.trans h.row, h'.position.trans h.position, h'.description.trans h.description,
    h'.activation.trans h.activation, h'.forcedSkip.trans h.forcedSkip⟩

theorem isActive {a b : Record} (h : Continues a b) : b.isActive = a.isActive := by
  simp only [Record.isActive, h.activation, h.forcedSkip]

private theorem addComment (r : Record) (comment : String) : Continues r (r.addComment comment) :=
  ⟨rfl, rfl, rfl, rfl, rfl⟩

private theorem setException (r : Record) (exception : String) :
    Continues r (r.setException exception) :=
  ⟨rfl, rfl, rfl, rfl, rfl⟩

private theorem addError (r : Record) (error : String) : Continues r (r.addError error) := by
  unfold Record.addError
  split
  · exact refl r
  · exact ⟨rfl, rfl, rfl, rfl, rfl⟩

private theorem foldl {note : Record → String → Record} (h : ∀ r s, Continues r (note r s))
    (l : List String) (r : Record) : Continues r (l.foldl note r) := by
  induction l generalizing r with
  | nil => exact refl r
  | cons s l ih => exact (h r s).trans (ih (note r s))

private theorem expandTokens (tokens : List (String × String)) (r : Record) (vars : Variables) :
    Continues r (r.expandTokens vars tokens).1 := by
  induction tokens generalizing r vars with
  | nil => exact refl r
  | cons e tokens ih =>
    simp only [Record.expandTokens]
    split
    · next expansion vars' _ =>
      have set : Continues r { r with params := r.params.set e.1 expansion.value } :=
        ⟨rfl, rfl, rfl, rfl, rfl⟩
      exact set.trans (ih _ vars')
    · exact (addError r _).trans (ih _ _)

private theorem readPolicy (r : Record) : Continues r r.readPolicy := by
  unfold Record.readPolicy
  split
  · exact ⟨rfl, rfl, rfl, rfl, rfl⟩
  · next message _ => exact (addError r message).trans ⟨rfl, rfl, rfl, rfl, rfl⟩

theorem resolve (r : Record) (syn : Params.Syntax) (vars : Variables) :
    Continues r (r.resolve syn vars).1 := by
  simp only [Record.resolve]
  refine trans ?_ ((expandTokens _ _ _).trans (readPolicy _))
  split
  · exact ⟨rfl, rfl, rfl, rfl, rfl⟩
  · exact (addError r _).trans ⟨rfl, rfl, rfl, rfl, rfl⟩

theorem applyAnswer (r : Record) (answer : Except Action.Error Action.Outcome) :
    Continues r (Run.applyAnswer r answer).1 := by
  cases answer with
  | ok o => exact (foldl addComment o.comments r).trans (foldl addError o.errors _)
  | error e =>
    simp only [Run.applyAnswer]
    split
    · exact addError r _
    · exact (setException r _).trans (addError _ _)

end Record.Continues

namespace Run

/-- A part of a run that starts no step: counters and mark stay, and an interrupt is not taken
back. -/
structure Quiet (before after : RunState) : Prop where
  counters : after.session.counters = before.session.counters
  reportable : after.session.reportable = before.session.reportable
  terminated : after.session.terminated = before.session.terminated
  interrupted : before.interrupted = true → after.interrupted = true

theorem Quiet.refl (st : RunState) : Quiet st st :=
  ⟨rfl, rfl, rfl, id⟩

theorem Quiet.trans {a b c : RunState} (h : Quiet a b) (h' : Quiet b c) : Quiet a c :=
  ⟨h'.counters.trans h.counters, h'.reportable.trans h.reportable,
    h'.terminated.trans h.terminated, h'.interrupted ∘ h.interrupted⟩

instance : Trans Quiet Quiet Quiet :=
  ⟨Quiet.trans⟩

theorem quiet_withVars (st : RunState) (vars : Variables) : Quiet st (st.withVars vars) :=
  ⟨rfl, rfl, rfl, id⟩

theorem quiet_touched (st : RunState) (t : Action.Touch) : Quiet st (touched st t) :=
  ⟨rfl, rfl, rfl, fun raised => by simp [touched, raised]⟩

theorem captured_cases (r : Runner) (e : Execution) :
    captured r e = e.record ∨ e.interactive = true ∧
      ∃ path, captured r e = e.record.addComment ("captured " ++ path) := by
  unfold captured picture
  cases e.interactive with
  | false => exact .inl rfl
  | true =>
    split
    · exact .inr ⟨rfl, _, rfl⟩
    · exact .inl rfl

private theorem captured_continues (r : Runner) (e : Execution) :
    e.record.Continues (captured r e) := by
  rcases captured_cases r e with same | ⟨-, path, same⟩
  · rw [same]
    exact .refl _
  · rw [same]
    exact .addComment _ _

/-- Programs are run one level deeper, one after the other, with parts in between of which little is
known. -/
inductive DescendsBy (between : RunState → RunState → Prop) (deeper : Deeper)
    (fits : Program → Prop) : RunState → Log → RunState → Prop
  | idle {st st' : RunState} (quiet : between st st') : DescendsBy between deeper fits st [] st'
  | call {st start st' : RunState} {run : Program → RunState → FrameRun} {child : Program}
      {log : Log} (before : between st start) (below : deeper = some run) (fit : fits child)
      (rest : DescendsBy between deeper fits (run child start).state log st') :
      DescendsBy between deeper fits st ((run child start).log ++ log) st'

abbrev Descends (deeper : Deeper) (fits : Program → Prop) : RunState → Log → RunState → Prop :=
  DescendsBy Quiet deeper fits

namespace DescendsBy

variable {between : RunState → RunState → Prop} {deeper : Deeper} {fits fits' : Program → Prop}
  {st middle st' : RunState} {log : Log}

theorem once {run : Program → RunState → FrameRun} {child : Program} {start : RunState}
    (before : between st start) (below : deeper = some run) (fit : fits child)
    (after : between (run child start).state st') :
    DescendsBy between deeper fits st (run child start).log st' := by
  rw [← List.append_nil (run child start).log]
  exact .call before below fit (.idle after)

theorem after [Trans between between between] (h : DescendsBy between deeper fits st log middle)
    (quiet : between middle st') : DescendsBy between deeper fits st log st' := by
  induction h with
  | idle before => exact .idle (Trans.trans before quiet)
  | call before below fit _ ih => exact .call before below fit (ih quiet)

theorem before [Trans between between between] (quiet : between st middle)
    (h : DescendsBy between deeper fits middle log st') :
    DescendsBy between deeper fits st log st' := by
  cases h with
  | idle after => exact .idle (Trans.trans quiet after)
  | call before below fit rest => exact .call (Trans.trans quiet before) below fit rest

theorem imp (h : DescendsBy between deeper fits st log st')
    (weaker : ∀ child, fits child → fits' child) : DescendsBy between deeper fits' st log st' := by
  induction h with
  | idle quiet => exact .idle quiet
  | call before below fit _ ih => exact .call before below (weaker _ fit) ih

/-- What holds of the parts in between and of the programs that are run, and of one part after
another, holds of all that is run. -/
theorem fold {R : RunState → Log → RunState → Prop} (h : DescendsBy between deeper fits st log st')
    (idle : ∀ {a b}, between a b → R a [] b)
    (append : ∀ {a b c l l'}, R a l b → R b l' c → R a (l ++ l') c)
    (nested : ∀ run, deeper = some run → ∀ child, fits child →
      ∀ a, R a (run child a).log (run child a).state) : R st log st' := by
  induction h with
  | idle quiet => exact idle quiet
  | call before below fit _ ih =>
    have started := append (idle before) (nested _ below _ fit _)
    exact append started ih

end DescendsBy

/-- A program that a record may start: one level below it, no deeper than allowed, and under the
number of its step. -/
structure Under (r : Runner) (record : Record) (child : Program) : Prop where
  level : child.level = record.position.level + 1
  level_le : child.level ≤ r.config.maxDepth
  parentStep : child.parentStep = record.position.step

theorem under_childOf {r : Runner} {record : Record}
    (shallow : ¬ record.position.level + 1 > r.config.maxDepth) (name : String) (rows : List Row)
    (dir : Option String) : Under r record (.childOf record name rows dir) :=
  ⟨rfl, Nat.not_lt.1 shallow, rfl⟩

theorem nestedProgram_ok {r : Runner} {files : FileTree} {record : Record}
    {baseDir : Option String} {child : Program}
    (h : nestedProgram r files record baseDir = .ok child) : Under r record child := by
  simp only [nestedProgram] at h
  split at h
  · exact nomatch h
  · split at h
    · exact nomatch h
    · next shallow =>
      split at h
      · obtain rfl := Except.ok.inj h
        exact under_childOf shallow _ _ _
      · exact nomatch h

/-- A script runs its programs in order, and does no more in between than its touches do. -/
theorem perform_descendsBy {between : RunState → RunState → Prop} {allowed : Action.Touch → Prop}
    (touches : ∀ st t, allowed t → between st (touched st t)) (r : Runner) (deeper : Deeper)
    (record : Record) (baseDir : Option String) (script : Action.Script)
    (within : script.Touches allowed) (st : RunState) :
    DescendsBy between deeper (Under r record) st (perform r deeper record baseDir script st).2.1
      (perform r deeper record baseDir script st).2.2 := by
  induction script generalizing st with
  | answer effect => exact .idle (touches st _ within)
  | run touch name rows dir next ih =>
    cases deeper with
    | none =>
      simp only [perform, ite_self]
      exact .idle (touches st touch within.1)
    | some run =>
      simp only [perform]
      split
      · exact .idle (touches st touch within.1)
      · next shallow =>
        exact .call (touches st touch within.1) rfl (under_childOf shallow name rows dir)
          (ih _ _ (within.2 _ _) _)

private theorem perform_descends (r : Runner) (deeper : Deeper) (record : Record)
    (baseDir : Option String) (script : Action.Script) (st : RunState) :
    Descends deeper (Under r record) st (perform r deeper record baseDir script st).2.1
      (perform r deeper record baseDir script st).2.2 :=
  perform_descendsBy (fun st t _ => quiet_touched st t) r deeper record baseDir script
    (script.touches_trivial) st

/-- A record starts a program when it has no errors, its action is one that runs programs and the
program it refers to is found. -/
structure Starts (r : Runner) (deeper : Deeper) (record : Record) (baseDir : Option String)
    (st : RunState) (run : Program → RunState → FrameRun) (child : Program) : Prop where
  clean : record.hasErrors = false
  action : ∃ a, r.registry.find? record.action = some a ∧ a.body = .runProgram
  child : nestedProgram r st.files record baseDir = .ok child
  deeper : deeper = some run

section Nested

variable {r : Runner} {record : Record} {baseDir : Option String} {st : RunState}

theorem runNested_of_error {deeper : Deeper} {e : Action.Error}
    (refused : nestedProgram r st.files record baseDir = .error e) :
    runNested r deeper record baseDir st = (.error e, [], st) := by
  unfold runNested
  rw [refused]

theorem runNested_of_ok {run : Program → RunState → FrameRun} {child : Program}
    (found : nestedProgram r st.files record baseDir = .ok child) :
    runNested r (some run) record baseDir st =
      (foldSummary (run child st).summary, (run child st).log, (run child st).state) := by
  unfold runNested
  rw [found]

end Nested

theorem runNested_cases (r : Runner) (deeper : Deeper) (record : Record)
    (baseDir : Option String) (st : RunState) :
    (∃ answer, runNested r deeper record baseDir st = (answer, [], st)) ∨
      ∃ run child, nestedProgram r st.files record baseDir = .ok child ∧ deeper = some run ∧
        ∃ answer, runNested r deeper record baseDir st =
          (answer, (run child st).log, (run child st).state) := by
  unfold runNested
  cases found : nestedProgram r st.files record baseDir with
  | error e => exact .inl ⟨_, rfl⟩
  | ok child =>
    cases deeper with
    | none => exact .inl ⟨_, rfl⟩
    | some run => exact .inr ⟨run, child, rfl, rfl, _, rfl⟩

private theorem dispatch_continues (r : Runner) (deeper : Deeper) (record : Record)
    (baseDir : Option String) (st : RunState) :
    record.Continues (dispatch r deeper record baseDir st).record := by
  unfold dispatch
  split
  · exact .addError _ _
  · cases r.registry.find? record.action with
    | none => exact .addError _ _
    | some a => cases body : a.body <;> simp only [body] <;> exact .applyAnswer _ _

private theorem dispatch_descends (r : Runner) (deeper : Deeper) (record : Record)
    (baseDir : Option String) (st : RunState) :
    let e := dispatch r deeper record baseDir st
    Descends deeper (Under r record) st e.log e.state := by
  unfold dispatch
  split
  · exact .idle (.refl st)
  · cases r.registry.find? record.action with
    | none => exact .idle (.refl st)
    | some a =>
      cases body : a.body with
      | direct act =>
        simp only [body]
        exact .idle (quiet_touched st _)
      | runProgram =>
        simp only [body]
        rcases runNested_cases r deeper record baseDir st with
          ⟨_, idle⟩ | ⟨run, child, ok, below, _, ran⟩
        · rw [idle]
          exact .idle (.refl st)
        · rw [ran]
          exact .once (.refl st) below (nestedProgram_ok ok) (.refl _)
      | hosting script =>
        simp only [body]
        exact perform_descends r deeper record baseDir _ st

def Single (r : Runner) (action : String) : Prop :=
  ∀ a, r.registry.find? action = some a → a.hosts = false

private theorem dispatch_starts (r : Runner) (deeper : Deeper) (record : Record)
    (baseDir : Option String) (st : RunState) (clean : record.hasErrors = false)
    (plain : Single r record.action) :
    let e := dispatch r deeper record baseDir st
    (e.log = [] ∧ Quiet st e.state) ∨
      ∃ run child, Starts r deeper record baseDir st run child ∧ e.log = (run child st).log ∧
        e.state = (run child st).state := by
  unfold dispatch
  split
  · exact .inl ⟨rfl, .refl st⟩
  · cases found : r.registry.find? record.action with
    | none => exact .inl ⟨rfl, .refl st⟩
    | some a =>
      cases body : a.body with
      | direct act =>
        simp only [body]
        exact .inl ⟨trivial, quiet_touched st _⟩
      | runProgram =>
        simp only [body]
        rcases runNested_cases r deeper record baseDir st with
          ⟨_, idle⟩ | ⟨run, child, ok, below, _, ran⟩
        · rw [idle]
          exact .inl ⟨rfl, .refl st⟩
        · rw [ran]
          exact .inr ⟨run, child, ⟨clean, ⟨a, found, body⟩, ok, below⟩, rfl, rfl⟩
      | hosting script =>
        have made := plain a found
        rw [Action.hosts, body] at made
        cases made

section Sound

variable (r : Runner) (deeper : Deeper) (record : Record) (baseDir : Option String)
  (st : RunState)

private theorem dispatchSound_continues :
    record.Continues (dispatchSound r deeper record baseDir st).record := by
  unfold dispatchSound
  split
  · exact .refl record
  · exact dispatch_continues r deeper record baseDir st

private theorem dispatchSound_descends :
    let e := dispatchSound r deeper record baseDir st
    Descends deeper (Under r record) st e.log e.state := by
  unfold dispatchSound
  split
  · exact .idle (.refl st)
  · exact dispatch_descends r deeper record baseDir st

private theorem dispatchSound_starts (plain : Single r record.action) :
    let e := dispatchSound r deeper record baseDir st
    (e.log = [] ∧ Quiet st e.state) ∨
      ∃ run child, Starts r deeper record baseDir st run child ∧ e.log = (run child st).log ∧
        e.state = (run child st).state := by
  unfold dispatchSound
  cases errors : record.hasErrors with
  | true => exact .inl ⟨rfl, .refl st⟩
  | false =>
    rw [if_neg Bool.false_ne_true]
    exact dispatch_starts r deeper record baseDir st errors plain

private theorem execute_continues :
    record.Continues (execute r deeper record baseDir st).record :=
  (dispatchSound_continues r deeper record baseDir st).trans (captured_continues r _)

private theorem execute_descends :
    let e := execute r deeper record baseDir st
    Descends deeper (Under r record) st e.log e.state := by
  have descends := dispatchSound_descends r deeper record baseDir st
  unfold execute
  generalize dispatchSound r deeper record baseDir st = e at descends ⊢
  exact descends.after ⟨rfl, rfl, rfl, id⟩

private theorem execute_starts (plain : Single r record.action) :
    let e := execute r deeper record baseDir st
    (e.log = [] ∧ Quiet st e.state) ∨
      ∃ run child, Starts r deeper record baseDir st run child ∧ e.log = (run child st).log ∧
        Quiet (run child st).state e.state := by
  have starts := dispatchSound_starts r deeper record baseDir st plain
  unfold execute
  generalize dispatchSound r deeper record baseDir st = e at starts ⊢
  rcases starts with ⟨log, quiet⟩ | ⟨run, child, starts, log, state⟩
  · exact .inl ⟨log, quiet.trans ⟨rfl, rfl, rfl, id⟩⟩
  · refine .inr ⟨run, child, starts, log, ?_⟩
    rw [← state]
    exact ⟨rfl, rfl, rfl, id⟩

end Sound

def resolvedState (r : Runner) (record : Record) (st : RunState) : RunState :=
  st.withVars (record.resolve r.params st.session.vars).2

theorem attempt_of_active {record : Record} (active : record.isActive = true) (r : Runner)
    (deeper : Deeper) (baseDir : Option String) (st : RunState) :
    attempt r deeper record baseDir st =
      execute r deeper (record.resolve r.params st.session.vars).1 baseDir
        (resolvedState r record st) := by
  unfold attempt resolvedState
  rw [if_pos active]

theorem attempt_of_inactive {record : Record} (inactive : record.isActive = false) (r : Runner)
    (deeper : Deeper) (baseDir : Option String) (st : RunState) :
    attempt r deeper record baseDir st = { record, state := st } := by
  unfold attempt
  rw [inactive, if_neg Bool.false_ne_true]

section Attempts

variable (r : Runner) (deeper : Deeper) (record : Record) (baseDir : Option String)
  (st : RunState)

theorem attempt_continues : record.Continues (attempt r deeper record baseDir st).record := by
  cases active : record.isActive with
  | false =>
    rw [attempt_of_inactive active r deeper baseDir st]
    exact .refl record
  | true =>
    rw [attempt_of_active active r deeper baseDir st]
    exact (Record.Continues.resolve record _ _).trans (execute_continues r deeper _ baseDir _)

theorem attempt_descends :
    let e := attempt r deeper record baseDir st
    Descends deeper (Under r record) st e.log e.state := by
  cases active : record.isActive with
  | false =>
    rw [attempt_of_inactive active r deeper baseDir st]
    exact .idle (.refl st)
  | true =>
    rw [attempt_of_active active r deeper baseDir st]
    have position := (Record.Continues.resolve record r.params st.session.vars).position
    generalize (record.resolve r.params st.session.vars).1 = resolved at position ⊢
    refine ((execute_descends r deeper resolved baseDir _).before (quiet_withVars st _)).imp
      fun child under => ?_
    exact ⟨by rw [under.level, position], under.level_le, by rw [under.parentStep, position]⟩

theorem attempt_starts (plain : Single r record.action) :
    let e := attempt r deeper record baseDir st
    let start := resolvedState r record st
    (e.log = [] ∧ Quiet st e.state) ∨
      ∃ run child, record.isActive = true ∧
        Starts r deeper (record.resolve r.params st.session.vars).1 baseDir start run child ∧
        e.log = (run child start).log ∧ Quiet (run child start).state e.state := by
  cases active : record.isActive with
  | false =>
    rw [attempt_of_inactive active r deeper baseDir st]
    exact .inl ⟨rfl, .refl st⟩
  | true =>
    rw [attempt_of_active active r deeper baseDir st]
    have row := (Record.Continues.resolve record r.params st.session.vars).row
    generalize (record.resolve r.params st.session.vars).1 = resolved at row ⊢
    have plain' : Single r resolved.action := by
      rw [Record.action, row]
      exact plain
    rcases execute_starts r deeper resolved baseDir (resolvedState r record st) plain' with
      ⟨log, idle⟩ | ⟨run, child, starts, log, quiet⟩
    · exact .inl ⟨log, (quiet_withVars st _).trans idle⟩
    · exact .inr ⟨run, child, rfl, starts, log, quiet⟩

end Attempts

/-- A record as it is placed at a position of a run: nothing is noted against it yet. -/
structure PlacedAs (record : Record) (source : Row) (position : Position) (skips : Nat)
    (vars : Variables) : Prop where
  row : record.row = source
  position : record.position = position
  description : record.description = vars.substitute source.description
  errors : record.errors = []
  exception : record.exception = none
  forcedSkip : record.forcedSkip = true ↔ 0 < skips
  comment : 0 < skips → skipComment ∈ record.comments

theorem place_placed (row : Row) (position : Position) (vars : Variables) :
    PlacedAs ((Record.ofRow row).place position vars) row position 0 vars := by
  simp only [Record.place]
  split
  · exact ⟨rfl, rfl, rfl, rfl, rfl, by simp [Record.ofRow], nofun⟩
  · exact ⟨rfl, rfl, rfl, rfl, rfl, by simp [Record.ofRow, Record.addComment], nofun⟩

theorem placeRecord_placed (row : Row) (position : Position) (skips : Nat) (vars : Variables) :
    PlacedAs (placeRecord row position skips vars) row position skips vars := by
  have placed := place_placed row position vars
  simp only [placeRecord]
  generalize (Record.ofRow row).place position vars = record at placed ⊢
  split
  · next used =>
    rw [used]
    exact placed
  · next left =>
    refine ⟨placed.row, placed.position, placed.description, placed.errors, placed.exception,
      ?_, ?_⟩
    · exact iff_of_true rfl (Nat.pos_of_ne_zero left)
    · intro _
      exact List.mem_append_right _ (List.mem_singleton.2 rfl)

theorem begunRecord_placed (p : Program) (seq : Nat) (row : Row) (skips : Nat) (st : RunState) :
    PlacedAs (begunRecord p seq row skips st) row
      ⟨seq, p.level, p.parentStep, st.session.counters.done⟩ skips st.session.vars :=
  placeRecord_placed _ _ _ _

structure StartedBy (r : Runner) (p : Program) (step : Nat) (child : Program) : Prop where
  level : child.level = p.level + 1
  level_le : child.level ≤ r.config.maxDepth
  parentStep : child.parentStep = step

private theorem Under.startedBy {r : Runner} {p : Program} {seq skips : Nat} {row : Row}
    {st : RunState}
    {child : Program} (h : Under r (begunRecord p seq row skips st) child) :
    StartedBy r p st.session.counters.done child := by
  have position := (begunRecord_placed p seq row skips st).position
  exact ⟨h.level.trans (by rw [position]), h.level_le, h.parentStep.trans (by rw [position])⟩

/-- What a step can do: between its begin and its end programs are run under its number. -/
theorem step_descends (r : Runner) (deeper : Deeper) (p : Program) (seq : Nat) (row : Row)
    (skips : Nat) (st : RunState) :
    let record := begunRecord p seq row skips (opened r row st)
    ∃ e, step r deeper p seq row skips st = finished r row skips record (opened r row st) e ∧
      record.Continues e.record ∧
      Descends deeper (StartedBy r p (opened r row st).session.counters.done) (opened r row st)
        e.log e.state :=
  ⟨_, rfl, attempt_continues r deeper _ _ _,
    (attempt_descends r deeper _ p.baseDir _).imp fun _ => Under.startedBy⟩

theorem step_cases (r : Runner) (deeper : Deeper) (p : Program) (seq : Nat) (row : Row)
    (skips : Nat) (st : RunState) :
    ∃ record e, step r deeper p seq row skips st =
        finished r row skips record (opened r row st) e ∧
      record.row = row ∧ record.Continues e.record ∧
      Descends deeper (fun _ => True) (opened r row st) e.log e.state := by
  obtain ⟨e, same, continues, descends⟩ := step_descends r deeper p seq row skips st
  exact ⟨_, e, same, (begunRecord_placed _ _ _ _ _).row, continues,
    descends.imp fun _ _ => trivial⟩

/-- A step whose action does not make up programs starts none, or it runs one, under its number. -/
theorem step_calls (r : Runner) (deeper : Deeper) (p : Program) (seq : Nat) (row : Row)
    (skips : Nat) (st : RunState) (plain : Single r row.actionName) :
    let record := begunRecord p seq row skips (opened r row st)
    ∃ e, step r deeper p seq row skips st = finished r row skips record (opened r row st) e ∧
      record.Continues e.record ∧
      ((e.log = [] ∧ Quiet (opened r row st) e.state) ∨
        ∃ run child start, deeper = some run ∧
          StartedBy r p (opened r row st).session.counters.done child ∧
          Quiet (opened r row st) start ∧
          e.log = (run child start).log ∧ Quiet (run child start).state e.state) := by
  intro record
  have placed := begunRecord_placed p seq row skips (opened r row st)
  have plain' : Single r record.action := by
    rw [Record.action, placed.row]
    exact plain
  refine ⟨_, rfl, attempt_continues r deeper record _ _, ?_⟩
  rcases attempt_starts r deeper record p.baseDir (opened r row st) plain' with
    idle | ⟨run, child, -, starts, log, quiet⟩
  · exact .inl idle
  · have position := (Record.Continues.resolve record r.params
      (opened r row st).session.vars).position
    have under : Under r record child := by
      obtain ⟨level, level_le, parentStep⟩ := nestedProgram_ok starts.child
      rw [position] at level parentStep
      exact ⟨level, level_le, parentStep⟩
    exact .inr ⟨run, child, _, starts.deeper, under.startedBy, quiet_withVars _ _, log, quiet⟩

/-- What holds of a program's run whenever it holds of the runs of the programs one level deeper
holds at every depth. -/
theorem frameAt_induction {r : Runner} {P : Program → RunState → FrameRun → Prop}
    (h : ∀ deeper : Deeper, (∀ run, deeper = some run → ∀ p st, P p st (run p st)) →
      ∀ p st, P p st (frameWith r deeper p st))
    (depth : Nat) (p : Program) (st : RunState) : P p st (frameAt r depth p st) := by
  induction depth generalizing p st with
  | zero => exact h none (fun run absurd => nomatch absurd) p st
  | succ depth ih =>
    refine h (some fun p st => frameAt r depth p st) ?_ p st
    intro run same
    obtain rfl := Option.some.inj same
    exact ih

theorem frameAt_eq_frameWith (r : Runner) (depth : Nat) (p : Program)
    (st : RunState) :
    ∃ deeper : Deeper, frameAt r depth p st = frameWith r deeper p st ∧
      ∀ run, deeper = some run → ∀ p st, ∃ depth, run p st = frameAt r depth p st := by
  cases depth with
  | zero => exact ⟨none, rfl, fun run absurd => nomatch absurd⟩
  | succ depth =>
    refine ⟨some fun p st => frameAt r depth p st, rfl, ?_⟩
    intro run same p st
    obtain rfl := Option.some.inj same
    exact ⟨depth, rfl⟩

end Run
end Runbook
