import Runbook.Proofs.Run.Calls
import Runbook.Proofs.Text.Blank

set_option autoImplicit false

/-!
Steps that run programs. Such a step asks for nothing beyond what its own row decides, whatever
the program did; and what is noted on its record is what the answer to running the program says,
after which only the path of a picture may be added.
-/
namespace Runbook

theorem Directive.merge_none (d : Directive) : d.merge {} = d := by
  simp [Directive.merge]

private theorem Record.kept_addError (r : Record) (error : String) :
    (r.addError error).comments = r.comments ∧ (r.addError error).policy = r.policy := by
  unfold Record.addError
  split
  · exact ⟨rfl, rfl⟩
  · exact ⟨rfl, rfl⟩

private theorem Record.comments_expandTokens (tokens : List (String × String)) (r : Record)
    (vars : Variables) : (r.expandTokens vars tokens).1.comments = r.comments := by
  induction tokens generalizing r vars with
  | nil => rfl
  | cons e tokens ih =>
    simp only [Record.expandTokens]
    split
    · rw [ih]
    · rw [ih, (kept_addError r _).1]

theorem Record.comments_resolve (r : Record) (syn : Params.Syntax) (vars : Variables) :
    (r.resolve syn vars).1.comments = r.comments := by
  have readPolicy (r : Record) : r.readPolicy.comments = r.comments := by
    unfold Record.readPolicy
    split
    · rfl
    · exact (kept_addError r _).1
  simp only [Record.resolve, readPolicy, comments_expandTokens]
  split
  · rfl
  · exact (kept_addError r _).1

theorem Record.field_applyAnswer {α : Type} {field : Record → α}
    (addComment : ∀ r comment, field (r.addComment comment) = field r)
    (addError : ∀ r error, field (r.addError error) = field r)
    (setException : ∀ r exception, field (r.setException exception) = field r)
    (r : Record) (answer : Except Action.Error Action.Outcome) :
    field (Run.applyAnswer r answer).1 = field r := by
  have folded {note : Record → String → Record} (h : ∀ r s, field (note r s) = field r)
      (l : List String) (r : Record) : field (l.foldl note r) = field r := by
    induction l generalizing r with
    | nil => rfl
    | cons s l ih => rw [List.foldl_cons, ih, h]
  cases answer with
  | ok o =>
    simp only [Run.applyAnswer]
    rw [folded addError, folded addComment]
  | error e =>
    simp only [Run.applyAnswer]
    split
    · exact addError r _
    · exact (addError _ _).trans (setException r _)

theorem Record.policy_applyAnswer (r : Record) (answer : Except Action.Error Action.Outcome) :
    (Run.applyAnswer r answer).1.policy = r.policy :=
  field_applyAnswer (fun _ _ => rfl) (fun r error => (kept_addError r error).2) (fun _ _ => rfl)
    r answer

theorem Record.hasErrors_eq_false_iff (r : Record) :
    r.hasErrors = false ↔ r.errors = [] ∧ r.exception = none := by
  simp [Record.hasErrors]

namespace Run

/-- A record that is to be carried out, whose parameters are in order, and whose action is one that
runs programs. -/
structure RunsProgram (r : Runner) (vars : Variables) (record : Record) (a : Action) : Prop where
  active : record.isActive = true
  clean : (record.resolve r.params vars).1.hasErrors = false
  found : r.registry.find? record.action = some a
  body : a.body = .runProgram

theorem applyAnswer_exception {record : Record} (clean : record.hasErrors = false)
    {e : Action.Error} (raised : e.isSetup = false) :
    let noted := (applyAnswer record (.error e)).1
    noted.status = .fail ∧ noted.exception = some e.message ∧
      noted.errors = [record.action ++ " raised an exception: " ++ e.message] := by
  obtain ⟨errors, -⟩ := (Record.hasErrors_eq_false_iff record).1 clean
  simp only [applyAnswer, raised]
  rw [if_neg Bool.false_ne_true]
  simp [Record.addError, Record.setException, Record.status, Record.hasErrors, errors]

theorem applyAnswer_comments {record : Record} (active : record.isActive = true)
    (clean : record.hasErrors = false) (comments : List String) :
    let noted := (applyAnswer record (.ok { comments })).1
    noted.status = .pass ∧ noted.errors = [] ∧ noted.exception = none ∧
      noted.comments = record.comments ++ comments := by
  have commented (r : Record) :
      comments.foldl Record.addComment r = { r with comments := r.comments ++ comments } := by
    induction comments generalizing r with
    | nil => simp
    | cons comment comments ih => simp [ih, Record.addComment]
  have same : (applyAnswer record (.ok { comments })).1 =
      { record with comments := record.comments ++ comments } := commented record
  have passes : record.status = .pass := by
    simp only [Record.status, clean, active, if_true, if_neg Bool.false_ne_true]
  obtain ⟨errors, exception⟩ := (Record.hasErrors_eq_false_iff record).1 clean
  intro noted
  change noted = _ at same
  rw [same]
  exact ⟨passes, errors, exception, rfl⟩

private theorem directive_runNested (r : Runner) (deeper : Deeper) (record : Record)
    (baseDir : Option String) (st : RunState) (noted : Record) :
    (applyAnswer noted (runNested r deeper record baseDir st).1).2 = {} := by
  have answered (answer : Except Action.Error Action.Outcome)
      (plain : ∀ o, answer = .ok o → o.directive = {}) : (applyAnswer noted answer).2 = {} := by
    cases answer with
    | ok o => exact plain o rfl
    | error e =>
      simp only [applyAnswer]
      split <;> rfl
  apply answered
  intro o same
  unfold runNested at same
  split at same
  · cases same
  · cases same
  · simp only [foldSummary] at same
    split at same
    · cases same
    · obtain rfl := Except.ok.inj same
      rfl

structure Commented (before after : Record) (notes : List String) : Prop where
  errors : after.errors = before.errors
  exception : after.exception = before.exception
  status : after.status = before.status
  comments : after.comments = before.comments ++ notes

theorem captured_commented (r : Runner) (e : Execution) :
    ∃ notes, Commented e.record (captured r e) notes ∧ (e.interactive = false → notes = []) := by
  rcases captured_cases r e with same | ⟨surface, path, same⟩
  · rw [same]
    exact ⟨[], ⟨rfl, rfl, rfl, (List.append_nil _).symm⟩, fun _ => rfl⟩
  · rw [same, surface]
    exact ⟨_, ⟨rfl, rfl, rfl, rfl⟩, nofun⟩

theorem execute_commented (r : Runner) (deeper : Deeper) (record : Record) (baseDir : Option String)
    (st : RunState) :
    ∃ notes, Commented (dispatchSound r deeper record baseDir st).record
      (execute r deeper record baseDir st).record notes := by
  obtain ⟨notes, commented, -⟩ := captured_commented r (dispatchSound r deeper record baseDir st)
  exact ⟨notes, commented⟩

theorem dispatchSound_of_clean {record : Record} (clean : record.hasErrors = false) (r : Runner)
    (deeper : Deeper) (baseDir : Option String) (st : RunState) :
    dispatchSound r deeper record baseDir st = dispatch r deeper record baseDir st := by
  rw [dispatchSound, clean]
  exact if_neg Bool.false_ne_true

private theorem execute_of_runProgram {r : Runner} {record : Record} {a : Action}
    (clean : record.hasErrors = false) (named : record.action ≠ "")
    (found : r.registry.find? record.action = some a) (body : a.body = .runProgram)
    (deeper : Deeper) (baseDir : Option String) (st : RunState) :
    let nested := runNested r deeper record baseDir st
    let noted := (applyAnswer record nested.1).1
    let e := execute r deeper record baseDir st
    e.log = nested.2.1 ∧ e.directive = .ofAction (noted.policy.after noted.status) ∧
      ∃ notes, Commented noted e.record notes ∧ (a.interactive = false → notes = []) := by
  intro nested noted e
  have asked : (applyAnswer record nested.1).2 = {} :=
    directive_runNested r deeper record baseDir st record
  have decided : noted.policy = record.policy := Record.policy_applyAnswer record nested.1
  have dispatched : dispatchSound r deeper record baseDir st =
      { record := noted, directive := (applyAnswer record nested.1).2
        interactive := a.interactive, log := nested.2.1, state := nested.2.2 } := by
    rw [dispatchSound_of_clean clean, dispatch, if_neg named]
    simp only [found, body, nested, noted]
  rw [asked] at dispatched
  -- From here on only what is noted counts, not how the program was run.
  clear_value nested noted
  have executed : e = execute r deeper record baseDir st := rfl
  simp only [execute, dispatched, Directive.merge_none, ← decided] at executed
  have pictured := captured_commented r
    { record := noted, directive := {}, interactive := a.interactive, log := nested.2.1
      state := nested.2.2 }
  rw [executed]
  exact ⟨rfl, rfl, pictured⟩

theorem attempt_of_runsProgram {r : Runner} {record : Record} {a : Action} {st : RunState}
    (h : RunsProgram r st.session.vars record a) (counted : record.row.isEmpty = false)
    (deeper : Deeper) (baseDir : Option String) :
    let resolved := (record.resolve r.params st.session.vars).1
    let nested := runNested r deeper resolved baseDir (resolvedState r record st)
    let noted := (applyAnswer resolved nested.1).1
    let e := attempt r deeper record baseDir st
    e.log = nested.2.1 ∧ e.directive = .ofAction (noted.policy.after noted.status) ∧
      ∃ notes, Commented noted e.record notes ∧ (a.interactive = false → notes = []) := by
  have same : (record.resolve r.params st.session.vars).1.action = record.action :=
    congrArg Row.actionName (Record.Continues.resolve record _ _).row
  have named := Row.actionName_ne_empty counted
  have found := h.found
  change record.action ≠ "" at named
  rw [← same] at named found
  rw [attempt_of_active h.active]
  exact execute_of_runProgram h.clean named found h.body deeper baseDir _

end Run
end Runbook
