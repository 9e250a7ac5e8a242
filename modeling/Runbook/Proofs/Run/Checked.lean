import Runbook.Proofs.Check
import Runbook.Proofs.Record.Resolution
import Runbook.Proofs.Run.Caller

set_option autoImplicit false

/-!
The check and the run agree. A row with an error fails whenever it is carried out, whatever the
variables and the time are; a row without errors and without placeholders has an action, and can be
resolved without any error but that a date is out of range.
-/
namespace Runbook

open Text

namespace Record

theorem hasErrors_of_ne_nil {r : Record} (h : r.errors ≠ []) : r.hasErrors = true := by
  simp [hasErrors, h]

theorem hasErrors_of_mem {r : Record} {error : String} (h : error ∈ r.errors) :
    r.hasErrors = true :=
  hasErrors_of_ne_nil (List.ne_nil_of_mem h)

theorem hasErrors_addError (r : Record) (error : String) : (r.addError error).hasErrors = true :=
  hasErrors_of_mem (mem_errors_addError.2 (.inr rfl))

theorem status_of_hasErrors {r : Record} (h : r.hasErrors = true) : r.status = .fail :=
  if_pos h

private theorem hasErrors_applyAnswer {r : Record} (h : r.hasErrors = true)
    (answer : Except Action.Error Action.Outcome) :
    (Run.applyAnswer r answer).1.hasErrors = true := by
  have folded (note : Record → String → Record)
      (keeps : ∀ r error, r.hasErrors = true → (note r error).hasErrors = true) (l : List String)
      (r : Record) (h : r.hasErrors = true) : (l.foldl note r).hasErrors = true := by
    induction l generalizing r with
    | nil => exact h
    | cons error l ih => exact ih _ (keeps r error h)
  cases answer with
  | ok o =>
    exact folded addError (fun r error _ => hasErrors_addError r error) o.errors _
      (folded addComment (fun _ _ h => h) o.comments r h)
  | error e =>
    simp only [Run.applyAnswer]
    split
    · exact hasErrors_addError _ _
    · exact hasErrors_addError _ _

end Record

namespace Run

def answerOf (r : Runner) (deeper : Deeper) (record : Record) (baseDir : Option String)
    (st : RunState) (a : Action) : Except Action.Error Action.Outcome :=
  match a.body with
  | .direct act => (act (callOf r record baseDir st)).answer
  | .runProgram => (runNested r deeper record baseDir st).1
  | .hosting script =>
    (perform r deeper record baseDir (script (callOf r record baseDir st)) st).1

section Dispatch

variable {r : Runner} {record : Record}

theorem record_dispatch_of_found {a : Action} (named : record.action ≠ "")
    (found : r.registry.find? record.action = some a) (deeper : Deeper)
    (baseDir : Option String) (st : RunState) :
    (dispatch r deeper record baseDir st).record =
      (applyAnswer record (answerOf r deeper record baseDir st a)).1 := by
  rw [dispatch, if_neg named, answerOf]
  simp only [found]
  cases a.body with
  | direct act => rfl
  | runProgram => rfl
  | hosting script => rfl

theorem hasErrors_dispatch_of_not_found (h : r.registry.find? record.action = none)
    (deeper : Deeper) (baseDir : Option String) (st : RunState) :
    (dispatch r deeper record baseDir st).record.hasErrors = true := by
  unfold dispatch
  split
  · exact Record.hasErrors_addError _ _
  · rw [h]
    exact Record.hasErrors_addError _ _

private theorem hasErrors_dispatch (h : record.hasErrors = true) (deeper : Deeper)
    (baseDir : Option String) (st : RunState) :
    (dispatch r deeper record baseDir st).record.hasErrors = true := by
  cases found : r.registry.find? record.action with
  | none => exact hasErrors_dispatch_of_not_found found deeper baseDir st
  | some a =>
    by_cases named : record.action = ""
    · rw [dispatch, if_pos named]
      exact Record.hasErrors_addError _ _
    · rw [record_dispatch_of_found named found]
      exact Record.hasErrors_applyAnswer h _

private theorem status_execute_of_dispatch {deeper : Deeper} {baseDir : Option String}
    {st : RunState}
    (h : (dispatch r deeper record baseDir st).record.hasErrors = true) :
    (execute r deeper record baseDir st).record.status = .fail := by
  have sound : (dispatchSound r deeper record baseDir st).record.hasErrors = true := by
    unfold dispatchSound
    split
    · next errors => exact errors
    · exact h
  obtain ⟨_, commented⟩ := execute_commented r deeper record baseDir st
  exact commented.status.trans (Record.status_of_hasErrors sound)

end Dispatch

end Run

namespace Check

variable {syn : Params.Syntax} {known : List String} {row : Row}

private theorem mem_readParamsD {p : Params} {e : String × String}
    (parsed : Params.parse syn row.parameters = .ok p) (member : e ∈ p.entries)
    (plain : Template.hasPlaceholder e.2 = false) (vars : Variables) :
    e ∈ (Record.readParamsD row syn vars).entries := by
  rw [Record.readParamsD, Record.readParams_of_parse parsed]
  refine List.mem_map.2 ⟨e, member, ?_⟩
  dsimp only
  rw [vars.substitute_of_not_hasPlaceholder plain]

private theorem readParamsD_of_plain {p : Params} (parsed : Params.parse syn row.parameters = .ok p)
    (plain : ∀ e ∈ p.entries, Template.hasPlaceholder e.2 = false) (vars : Variables) :
    Record.readParamsD row syn vars = p := by
  rw [Record.readParamsD, Record.readParams_of_parse parsed]
  refine congrArg Params.mk ?_
  calc p.entries.map (fun e => (e.1, vars.substitute e.2))
      = p.entries.map id := List.map_congr_left fun e member => by
        rw [vars.substitute_of_not_hasPlaceholder (plain e member)]
        rfl
    _ = p.entries := List.map_id _

private theorem Fault.isKnown_or_hasErrors {record : Record} (here : record.row = row)
    (h : Fault syn known row) (vars : Variables) :
    isKnown known row.actionName = false ∨ (record.resolve syn vars).1.hasErrors = true := by
  cases h with
  | action unknown => exact .inl unknown
  | blob e parsed =>
    refine .inr (Record.hasErrors_of_mem ((Record.mem_errors_resolve record syn vars).2
      (.inl (.inr ⟨e, ?_, rfl⟩))))
    rw [here]
    exact Record.readParams_of_parse_error parsed vars
  | policy p e parsed member plain key invalid =>
    have unstated : Policy.stated? (record.resolve syn vars).1.params e.1 = none := by
      have proper := Record.readParamsD_proper row syn vars
      have found : (Record.readParamsD row syn vars).get? e.1 = some e.2 := by
        rw [proper.get?_eq_some_iff, (Params.parse_proper parsed).lowered_key member]
        exact mem_readParamsD parsed member plain vars
      rw [Record.stated?_resolve, here, Policy.stated?, Params.getD, found]
      exact invalid
    obtain ⟨message, fails⟩ := Policy.ofParams_of_not_stated key unstated
    exact .inr (Record.hasErrors_of_mem
      ((Record.mem_errors_resolve record syn vars).2 (.inr (.inr fails))))
  | token p e parsed member plain isToken fault invalid =>
    refine .inr (Record.hasErrors_of_mem ((Record.mem_errors_resolve record syn vars).2
      (.inr (.inl ⟨e, ?_, isToken, fault, DateToken.rendered_of_parse_error invalid _, rfl⟩))))
    rw [here]
    exact mem_readParamsD parsed member plain vars

private theorem stated?_of_not_fault {p : Params}
    (parsed : Params.parse syn row.parameters = .ok p)
    (plain : ∀ e ∈ p.entries, Template.hasPlaceholder e.2 = false)
    (sound : ¬ Fault syn known row) (key : String) (policy : isPolicyKey (lowered key) = true) :
    ∃ a, Policy.stated? p key = some a := by
  cases found : p.get? key with
  | none =>
    rw [Policy.stated?, Params.getD, found]
    exact ⟨_, rfl⟩
  | some value =>
    have member := (Params.parse_proper parsed).get?_eq_some_iff.1 found
    cases read : PolicyAction.parse? value with
    | none => exact absurd (.policy p _ parsed member (plain _ member) policy read) sound
    | some a =>
      rw [Policy.stated?, Params.getD, found]
      exact ⟨a, read⟩

private theorem error_of_not_fault {record : Record} (here : record.row = row)
    (clean : record.errors = []) (sound : ¬ Fault syn known row)
    (plain : ∀ p, Params.parse syn row.parameters = .ok p →
      ∀ e ∈ p.entries, Template.hasPlaceholder e.2 = false)
    {vars : Variables} {error : String} (noted : error ∈ (record.resolve syn vars).1.errors) :
    ∃ key token t, error = Record.tokenError key (.outOfRange token) ∧
      DateToken.parse token = .ok t ∧ t.shifted? vars.now = none := by
  cases parsed : Params.parse syn row.parameters with
  | error e => exact absurd (.blob e parsed) sound
  | ok p =>
    have plain := plain p parsed
    have params : Record.readParamsD row syn vars = p := readParamsD_of_plain parsed plain vars
    obtain ⟨onPass, pass⟩ := stated?_of_not_fault parsed plain sound onPassKey (by decide)
    obtain ⟨onFail, fail⟩ := stated?_of_not_fault parsed plain sound onFailKey (by decide)
    have decided : Policy.ofParams (record.resolve syn vars).1.params = .ok ⟨onPass, onFail⟩ := by
      refine Policy.ofParams_of_stated ?_ ?_
      · rw [Record.stated?_resolve, here, params, pass]
      · rw [Record.stated?_resolve, here, params, fail]
    -- Whatever else could be said of the record would be a fault of its row.
    rcases (Record.mem_errors_resolve record syn vars).1 noted with
      (old | ⟨e, unread, -⟩) | ⟨e, member, isToken, fault, fails, rfl⟩ | undecided
    · rw [clean] at old
      exact nomatch old
    · rw [here, Record.readParams_of_parse parsed] at unread
      exact nomatch unread
    · rw [here, params] at member
      cases read : DateToken.parse e.2 with
      | error invalid =>
        exact absurd (.token p e parsed member (plain e member) isToken invalid read) sound
      | ok t =>
        obtain ⟨rfl, far⟩ := DateToken.rendered_error fails read
        exact ⟨e.1, e.2, t, rfl, read, far⟩
    · rw [decided] at undecided
      exact nomatch undecided

end Check

namespace Run

/-- The check agrees with the run: errors mean that the row fails, and without them its setup is
sound. -/
theorem check_agrees {r : Runner} {actions : List Action} (given : actions ≠ [])
    (registered : r.registry = .ofList actions) {rows : List Row} {i : Nat} {row : Row}
    (here : rows[i]? = some row) :
    let Reported := ∃ issue ∈ Check.issues r.params r.registry.names rows,
      issue.row = i + 1 ∧ issue.severity = .error
    (Reported → ∀ (position : Position) (skips : Nat) (before : Variables) (deeper : Deeper)
        (baseDir : Option String) (st : RunState),
      let record := placeRecord row position skips before
      let resolved := (record.resolve r.params st.session.vars).1
      (dispatch r deeper resolved baseDir st).record.status = .fail ∧
        (record.isActive = true → (attempt r deeper record baseDir st).record.status = .fail)) ∧
    (¬ Reported → row.isEmpty = false →
      (∀ p, Params.parse r.params row.parameters = .ok p →
        ∀ e ∈ p.entries, Template.hasPlaceholder e.2 = false) →
      ∀ (position : Position) (skips : Nat) (before : Variables) (deeper : Deeper)
        (baseDir : Option String) (st : RunState),
      let record := placeRecord row position skips before
      let resolved := (record.resolve r.params st.session.vars).1
      (resolved.exception = none ∧ ∀ error ∈ resolved.errors, ∃ key token t,
        error = Record.tokenError key (.outOfRange token) ∧ DateToken.parse token = .ok t ∧
          t.shifted? st.session.vars.now = none) ∧
      ∃ a, r.registry.find? row.actionName = some a ∧
        (dispatch r deeper resolved baseDir st).record =
          (applyAnswer resolved (answerOf r deeper resolved baseDir st a)).1) := by
  intro Reported
  have reported : Reported ↔ row.isEmpty = false ∧ Check.Fault r.params r.registry.names row := by
    simp only [Reported, Nat.add_comm i 1]
    exact Check.error_mem_issuesFrom here
  have known : Check.isKnown r.registry.names row.actionName = true ↔
      (r.registry.find? row.actionName).isSome = true := by
    rw [registered]
    exact Check.isKnown_iff given row
  rw [reported]
  refine ⟨?_, ?_⟩
  · rintro ⟨-, fault⟩ position skips before deeper baseDir st record resolved
    have placed : PlacedAs record row position skips before := placeRecord_placed _ _ _ _
    have same : resolved.action = row.actionName := by
      rw [← placed.row]
      exact congrArg Row.actionName (Record.Continues.resolve record _ _).row
    have fails (state : RunState) : (dispatch r deeper resolved baseDir state).record.hasErrors =
        true := by
      rcases fault.isKnown_or_hasErrors placed.row st.session.vars with unknown | errors
      · refine hasErrors_dispatch_of_not_found ?_ deeper baseDir state
        rw [same, ← Option.not_isSome_iff_eq_none, ← known, unknown]
        exact Bool.false_ne_true
      · exact hasErrors_dispatch errors deeper baseDir state
    refine ⟨Record.status_of_hasErrors (fails st), fun active => ?_⟩
    rw [attempt_of_active active]
    exact status_execute_of_dispatch (fails _)
  · intro unreported counted plain position skips before deeper baseDir st record resolved
    have placed : PlacedAs record row position skips before := placeRecord_placed _ _ _ _
    have sound : ¬ Check.Fault r.params r.registry.names row := fun fault =>
      unreported ⟨counted, fault⟩
    have same : resolved.action = row.actionName := by
      rw [← placed.row]
      exact congrArg Row.actionName (Record.Continues.resolve record _ _).row
    have named : resolved.action ≠ "" := by
      rw [same]
      exact Row.actionName_ne_empty counted
    have isKnown : Check.isKnown r.registry.names row.actionName = true := by
      by_contra unknown
      exact sound (.action (Bool.eq_false_iff.2 unknown))
    obtain ⟨a, found⟩ := Option.isSome_iff_exists.1 (known.1 isKnown)
    refine ⟨⟨?_, ?_⟩, a, found, record_dispatch_of_found named (same ▸ found) deeper baseDir st⟩
    · exact (Record.exception_resolve record _ _).trans placed.exception
    · intro error noted
      exact Check.error_of_not_fault placed.row placed.errors sound plain noted

def undecidedRow : Row :=
  noteRow "OnFail=sometimes"

def datedRow : Row :=
  noteRow "When=%date+1day%; OnPass = skip:2"

theorem undecidedRow_fails_datedRow_resolves :
    Action.builtins ≠ [] ∧ ({} : Runner).registry = .ofList Action.builtins ∧
    [undecidedRow, datedRow][0]? = some undecidedRow ∧
    [undecidedRow, datedRow][1]? = some datedRow ∧
    (∀ st, (attempt {} none (placeRecord undecidedRow {} 0 {}) none st).record.status = .fail) ∧
    ∀ st : RunState,
      ((placeRecord datedRow {} 0 {}).resolve ({} : Runner).params
        st.session.vars).1.exception = none := by
  have given : Action.builtins ≠ [] := List.cons_ne_nil _ _
  have first : [undecidedRow, datedRow][0]? = some undecidedRow := rfl
  have second : [undecidedRow, datedRow][1]? = some datedRow := rfl
  refine ⟨given, rfl, first, second, ?_, ?_⟩
  · intro st
    have found : ∃ issue ∈ Check.issues ({} : Runner).params ({} : Runner).registry.names
        [undecidedRow, datedRow], issue.row = 0 + 1 ∧ issue.severity = .error := by
      decide +kernel
    have agree := (check_agrees (r := {}) given rfl first).1 found {} 0 {} none none st
    exact agree.2 (by decide +kernel)
  · intro st
    have sound : ¬ ∃ issue ∈ Check.issues ({} : Runner).params ({} : Runner).registry.names
        [undecidedRow, datedRow], issue.row = 1 + 1 ∧ issue.severity = .error := by
      decide +kernel
    have plain : ∀ p, Params.parse ({} : Runner).params datedRow.parameters = .ok p →
        ∀ e ∈ p.entries, Template.hasPlaceholder e.2 = false := by
      intro p parsed
      have read : Params.parse ({} : Runner).params datedRow.parameters =
          .ok ⟨[("when", "%date+1day%"), ("onpass", " skip:2")]⟩ := by
        decide +kernel
      obtain rfl := Except.ok.inj (parsed.symm.trans read)
      decide +kernel
    have agree := (check_agrees (r := {}) given rfl second).2 sound rfl plain {} 0 {} none none st
    exact agree.1.1

end Run
end Runbook
