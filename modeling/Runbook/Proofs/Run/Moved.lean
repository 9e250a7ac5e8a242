import Runbook.Proofs.Action.Registry
import Runbook.Proofs.Record.Resolution
import Runbook.Proofs.Run.Calls

set_option autoImplicit false

/-!
Records that are moved to another place of their program. The place of a record is told with its
step; to what happens in the run it matters only if an action looks at it, or a capture or a
reporter that changes files. If none does, a step that is moved is carried out like the step itself.
-/
namespace Runbook

namespace Record

def moved (r : Record) (seq : Nat) : Record :=
  { r with position := { r.position with seq } }

variable (r : Record) (seq : Nat)

private theorem addError_moved (error : String) :
    (r.moved seq).addError error = (r.addError error).moved seq := by
  have same : (r.moved seq).errors = r.errors := rfl
  unfold addError
  rw [same]
  by_cases told : r.errors.getLast? = some error
  · rw [if_pos told, if_pos told]
  · rw [if_neg told, if_neg told]
    rfl

private theorem foldl_moved {note : Record → String → Record}
    (h : ∀ r text, note (moved r seq) text = (note r text).moved seq) (l : List String) :
    l.foldl note (r.moved seq) = (l.foldl note r).moved seq := by
  induction l generalizing r with
  | nil => rfl
  | cons text l ih => rw [List.foldl_cons, List.foldl_cons, h, ih]

private theorem withBlob_moved (syn : Params.Syntax) (vars : Variables) :
    (r.moved seq).withBlob syn vars = (r.withBlob syn vars).moved seq := by
  have same : (r.moved seq).row = r.row := rfl
  unfold withBlob
  rw [same]
  cases readParams r.row syn vars with
  | ok params => rfl
  | error e =>
    dsimp only
    rw [addError_moved]
    rfl

private theorem expandTokens_moved (vars : Variables) (tokens : List (String × String)) :
    (r.moved seq).expandTokens vars tokens =
      (r.expandTokens vars tokens).map (·.moved seq) id := by
  induction tokens generalizing r vars with
  | nil => rfl
  | cons e tokens ih =>
    simp only [expandTokens]
    cases vars.expandDate e.2 with
    | mk outcome vars' =>
      cases outcome with
      | ok expansion => exact ih { r with params := r.params.set e.1 expansion.value } vars'
      | error error =>
        dsimp only
        rw [addError_moved, ih]

private theorem readPolicy_moved : (r.moved seq).readPolicy = r.readPolicy.moved seq := by
  have same : (r.moved seq).params = r.params := rfl
  unfold readPolicy
  rw [same]
  cases Policy.ofParams r.params with
  | ok policy => rfl
  | error message =>
    dsimp only
    rw [addError_moved]
    rfl

private theorem resolve_moved (syn : Params.Syntax) (vars : Variables) :
    (r.moved seq).resolve syn vars = (r.resolve syn vars).map (·.moved seq) id := by
  have same : ((r.withBlob syn vars).moved seq).params = (r.withBlob syn vars).params := rfl
  rw [resolve_stages, resolve_stages, withBlob_moved, same, expandTokens_moved]
  generalize expandTokens _ _ _ = expanded
  obtain ⟨record, vars'⟩ := expanded
  simp only [Prod.map_apply, readPolicy_moved]

private theorem applyAnswer_moved (answer : Except Action.Error Action.Outcome) :
    Run.applyAnswer (r.moved seq) answer =
      (Run.applyAnswer r answer).map (·.moved seq) id := by
  cases answer with
  | ok o =>
    have commented : o.comments.foldl addComment (r.moved seq) =
        (o.comments.foldl addComment r).moved seq := foldl_moved r seq (fun _ _ => rfl) o.comments
    simp only [Run.applyAnswer, commented, foldl_moved _ seq (fun r text => addError_moved r seq text),
      Prod.map_apply, id]
  | error e =>
    have raised (text : String) : (r.moved seq).setException text =
        (r.setException text).moved seq := rfl
    have same : (r.moved seq).action = r.action := rfl
    simp only [Run.applyAnswer, raised, same, addError_moved]
    split
    · rfl
    · rfl

end Record

def Action.Call.moved (call : Action.Call) (seq : Nat) : Action.Call :=
  { call with record := call.record.moved seq }

/-- In what it goes on with, an action does not look at the place of its record. -/
def Action.Script.IgnoresPlace : Action.Script → Prop
  | .answer _ => True
  | .run _ _ _ _ next => ∀ summary call,
      (next summary call).IgnoresPlace ∧
      ∀ seq, next summary (call.moved seq) = next summary call

/-- An action that does not look at the place of its record in its program. -/
structure Action.IgnoresPlace (a : Action) : Prop where
  direct : ∀ act, a.body = .direct act → ∀ call seq, act (call.moved seq) = act call
  hosting : ∀ script, a.body = .hosting script →
    ∀ call, (script call).IgnoresPlace ∧ ∀ seq, script (call.moved seq) = script call

theorem Action.builtins_ignorePlace : ∀ a ∈ builtins, a.IgnoresPlace := by
  intro a member
  constructor
  · intro act body call seq
    have param (key : String) : (call.moved seq).record.param? key = call.record.param? key := rfl
    have description : (call.moved seq).record.description = call.record.description := rfl
    have params : (call.moved seq).record.params = call.record.params := rfl
    have session : (call.moved seq).session = call.session := rfl
    simp only [builtins, List.mem_cons, List.not_mem_nil, or_false] at member
    rcases member with rfl | rfl | rfl | rfl | rfl | rfl | rfl | rfl
    · cases body
      simp only [assignments, params, session]
    · cases body
      simp only [param, session]
    · cases body
      simp only [description, session]
    · cases body
      simp only [verifyMode, required, param, session]
    · cases body
      simp only [failureText, description, param, session]
    · cases body
      simp only [required, number?, param, session]
    · cases body
    · cases body
      simp only [flag, number?, param, session]
  · intro script body
    have single : ∀ a ∈ builtins, a.hosts = false := by decide
    have plain := single a member
    rw [hosts, body] at plain
    cases plain

namespace Runner

def IgnoresPlaces (r : Runner) : Prop :=
  ∀ name a, r.registry.find? name = some a → a.IgnoresPlace

theorem ignoresPlaces_of_ofList {r : Runner} {actions : List Action}
    (h : r.registry = .ofList actions) (each : ∀ a ∈ actions, a.IgnoresPlace) :
    r.IgnoresPlaces := by
  intro name a found
  rw [h] at found
  exact each a (Registry.mem_of_find?_ofList found)

/-- What is captured of a step, and what becomes of the files when it is captured or reported, do
not depend on its place. -/
structure ObservesAlike (r : Runner) : Prop where
  captures : ∀ record seq, r.capture.take (record.moved seq) = r.capture.take record
  reports : ∀ (s : StepResult) seq, r.reporter (.step { s with seq }) = r.reporter (.step s)

end Runner

namespace Run

def Execution.moved (e : Execution) (seq : Nat) : Execution :=
  { e with record := e.record.moved seq }

private theorem begunRecord_moved (p : Program) (seq seq' : Nat) (row : Row) (skips : Nat)
    (st : RunState) :
    begunRecord p seq' row skips st = (begunRecord p seq row skips st).moved seq' := by
  simp only [begunRecord, placeRecord, Record.place, Record.ofRow]
  cases Activation.parse? (st.session.vars.substitute row.activation) with
  | none => split <;> rfl
  | some activation => split <;> rfl

private theorem nestedProgram_moved (r : Runner) (files : FileTree) (record : Record) (seq : Nat)
    (baseDir : Option String) :
    nestedProgram r files (record.moved seq) baseDir = nestedProgram r files record baseDir := by
  have level : (record.moved seq).position.level = record.position.level := rfl
  have param (key : String) : (record.moved seq).param? key = record.param? key := rfl
  have child (name : String) (rows : List Row) (dir : Option String) :
      Program.childOf (record.moved seq) name rows dir = .childOf record name rows dir := rfl
  simp only [nestedProgram, level, param, child]

private theorem runNested_moved (r : Runner) (deeper : Deeper) (record : Record) (seq : Nat)
    (baseDir : Option String) (st : RunState) :
    runNested r deeper (record.moved seq) baseDir st = runNested r deeper record baseDir st := by
  have level : (record.moved seq).position.level = record.position.level := rfl
  simp only [runNested, nestedProgram_moved, level]

private theorem perform_moved (r : Runner) (deeper : Deeper) (record : Record) (seq : Nat)
    (baseDir : Option String) {script : Action.Script} (ignores : script.IgnoresPlace)
    (st : RunState) :
    perform r deeper (record.moved seq) baseDir script st =
      perform r deeper record baseDir script st := by
  induction script generalizing st with
  | answer effect => rfl
  | run touch name rows dir next ih =>
    have level : (record.moved seq).position.level = record.position.level := rfl
    have child : Program.childOf (record.moved seq) name rows dir = .childOf record name rows dir :=
      rfl
    have call (st : RunState) : callOf r (record.moved seq) baseDir st =
        (callOf r record baseDir st).moved seq := rfl
    cases deeper with
    | none => simp only [perform, level]
    | some run => simp only [perform, level, child, call, (ignores _ _).2, ih _ _ (ignores _ _).1]

private theorem picture_moved {r : Runner} (alike : r.ObservesAlike) (e : Execution) (seq : Nat) :
    picture r (e.moved seq) = picture r e := by
  have same : r.capture.take (e.moved seq).record = r.capture.take e.record :=
    alike.captures e.record seq
  have status : (e.moved seq).record.status = e.record.status := rfl
  unfold picture
  rw [same, status]
  rfl

private theorem captured_moved {r : Runner} (alike : r.ObservesAlike) (e : Execution) (seq : Nat) :
    captured r (e.moved seq) = (captured r e).moved seq := by
  unfold captured
  rw [picture_moved alike]
  split
  · rfl
  · rfl

section Moving

variable {r : Runner} (ignores : r.IgnoresPlaces) (alike : r.ObservesAlike) (deeper : Deeper)
  (record : Record) (seq : Nat) (baseDir : Option String) (st : RunState)

include ignores

private theorem dispatch_moved :
    dispatch r deeper (record.moved seq) baseDir st =
      (dispatch r deeper record baseDir st).moved seq := by
  have same : (record.moved seq).action = record.action := rfl
  have call : callOf r (record.moved seq) baseDir st = (callOf r record baseDir st).moved seq := rfl
  unfold dispatch
  rw [same, call]
  by_cases named : record.action = ""
  · rw [if_pos named, if_pos named, Record.addError_moved]
    rfl
  · rw [if_neg named, if_neg named]
    cases found : r.registry.find? record.action with
    | none =>
      dsimp only
      rw [Record.addError_moved]
      rfl
    | some a =>
      dsimp only
      cases body : a.body with
      | direct act =>
        dsimp only
        rw [(ignores record.action a found).direct act body, Record.applyAnswer_moved]
        generalize applyAnswer record _ = answered
        rfl
      | runProgram =>
        dsimp only
        rw [runNested_moved, Record.applyAnswer_moved]
        generalize runNested r deeper record baseDir st = nested
        generalize applyAnswer record nested.1 = answered
        rfl
      | hosting script =>
        have blind := (ignores record.action a found).hosting script body (callOf r record baseDir st)
        dsimp only
        rw [blind.2, perform_moved r deeper record seq baseDir blind.1, Record.applyAnswer_moved]
        generalize perform r deeper record baseDir _ st = performed
        generalize applyAnswer record performed.1 = answered
        rfl

private theorem dispatchSound_moved :
    dispatchSound r deeper (record.moved seq) baseDir st =
      (dispatchSound r deeper record baseDir st).moved seq := by
  have same : (record.moved seq).hasErrors = record.hasErrors := rfl
  unfold dispatchSound
  rw [same, dispatch_moved ignores]
  split
  · rfl
  · rfl

include alike

private theorem execute_moved :
    execute r deeper (record.moved seq) baseDir st =
      (execute r deeper record baseDir st).moved seq := by
  simp only [execute, dispatchSound_moved ignores, captured_moved alike, picture_moved alike]
  rfl

private theorem attempt_moved :
    attempt r deeper (record.moved seq) baseDir st =
      (attempt r deeper record baseDir st).moved seq := by
  have same : (record.moved seq).isActive = record.isActive := rfl
  cases active : record.isActive with
  | false =>
    rw [attempt_of_inactive active, attempt_of_inactive (same.trans active)]
    rfl
  | true =>
    rw [attempt_of_active active, attempt_of_active (same.trans active)]
    simp only [resolvedState, Record.resolve_moved, Prod.map_fst, Prod.map_snd, id_eq]
    exact execute_moved ignores alike deeper _ seq baseDir _

end Moving

structure StepRun.MovedTo (seq : Nat) (s s' : StepRun) : Prop where
  result : s'.result = { s.result with seq }
  directive : s'.directive = s.directive
  skips : s'.skips = s.skips
  state : s'.state = s.state
  events : ∃ inner, eventsOf s.log = inner ++ [.step s.result] ∧
    eventsOf s'.log = inner ++ [.step s'.result]

theorem step_moved {r : Runner} (ignores : r.IgnoresPlaces) (alike : r.ObservesAlike)
    (deeper : Deeper) (p : Program) (seq seq' : Nat) (row : Row) (skips : Nat) (st : RunState) :
    (step r deeper p seq row skips st).MovedTo seq' (step r deeper p seq' row skips st) := by
  simp only [step, begunRecord_moved p seq seq' row skips, attempt_moved ignores alike]
  generalize begunRecord p seq row skips (opened r row st) = record
  generalize attempt r deeper record p.baseDir (opened r row st) = e
  have result : (e.moved seq').record.result = { e.record.result with seq := seq' } := rfl
  have reported := alike.reports e.record.result seq'
  constructor
  · exact result
  · rfl
  · rfl
  · simp only [finished, closed, result, reported]
    rfl
  · exact ⟨eventsOf e.log, eventsOf_step _ _ _ _ _ _, eventsOf_step _ _ _ _ _ _⟩

end Run
end Runbook
