import Runbook.Proofs.Record.Parameters
import Runbook.Proofs.Run.Checked

set_option autoImplicit false

/-!
Steps whose setup fails. When something is wrong with the parameters of an active record, its action
is not carried out. All that is left of the step, beside the record and what its row decides for a
failure, are the bundles of those of its parameters that are date tokens and can be expanded.
-/
namespace Runbook.Run

variable {r : Runner} {record : Record} {st : RunState}

theorem vars_opened (r : Runner) (row : Row) (st : RunState) :
    (opened r row st).session.vars = st.session.vars :=
  rfl

private theorem opened_congr {r' : Runner} (config : r'.config = r.config) {row : Row} :
    opened r' row st = opened r row st := by
  simp only [opened, isReported, config]

theorem vars_finished (r : Runner) (row : Row) (skips : Nat) (record : Record) (st : RunState)
    (e : Execution) : (finished r row skips record st e).state.session.vars = e.state.session.vars := by
  simp only [finished, closed]
  split <;> rfl

def withheld (r : Runner) (record : Record) (st : RunState) : Execution where
  record
  directive := .ofAction (record.policy.after .fail)
  state := { st with waited := st.waited + r.config.stepDelayMs }

private theorem vars_withheld (r : Runner) (record : Record) (st : RunState) (vars : Variables) :
    (withheld r record (st.withVars vars)).state.session.vars = vars :=
  rfl

private theorem finished_withheld_congr {r' : Runner} (config : r'.config = r.config)
    (reporter : r'.reporter = r.reporter) {row : Row} {skips : Nat}
    {begun resolved : Record} {start : RunState} :
    finished r' row skips begun start (withheld r' resolved st) =
      finished r row skips begun start (withheld r resolved st) := by
  obtain ⟨config', params', offset', registry', inline', capture', reporter'⟩ := r'
  obtain rfl : config' = r.config := config
  obtain rfl : reporter' = r.reporter := reporter
  rfl

private theorem execute_of_hasErrors (errors : record.hasErrors = true) (deeper : Deeper)
    (baseDir : Option String) (st : RunState) :
    execute r deeper record baseDir st = withheld r record st := by
  have idle : dispatchSound r deeper record baseDir st = { record, state := st } := by
    rw [dispatchSound, if_pos errors]
  have fails := Record.status_of_hasErrors errors
  simp only [execute, idle, fails, Directive.merge_none]
  rfl

theorem attempt_of_hasErrors (active : record.isActive = true)
    (errors : (record.resolve r.params st.session.vars).1.hasErrors = true) (deeper : Deeper)
    (baseDir : Option String) :
    attempt r deeper record baseDir st =
      withheld r (record.resolve r.params st.session.vars).1 (resolvedState r record st) := by
  rw [attempt_of_active active, execute_of_hasErrors errors]

section Step

variable {p : Program} {seq : Nat} {row : Row} {skips : Nat}

private theorem step_of_hasErrors
    (active : (begunRecord p seq row skips (opened r row st)).isActive = true)
    (errors : ((begunRecord p seq row skips (opened r row st)).resolve r.params
      st.session.vars).1.hasErrors = true) (deeper : Deeper) :
    step r deeper p seq row skips st =
      finished r row skips (begunRecord p seq row skips (opened r row st)) (opened r row st)
        (withheld r
          ((begunRecord p seq row skips (opened r row st)).resolve r.params st.session.vars).1
          ((opened r row st).withVars
            ((begunRecord p seq row skips (opened r row st)).resolve r.params st.session.vars).2)) := by
  rw [← vars_opened r row] at errors
  rw [step, attempt_of_hasErrors active errors, resolvedState, vars_opened]

end Step

/-- Steps whose setup fails do nothing: they fail without an exception, and leave only bundles of
dates. -/
theorem faulty_setup_inert (r : Runner) (deeper : Deeper) (p : Program) (seq : Nat) (row : Row)
    (skips : Nat) (st : RunState)
    (active : (begunRecord p seq row skips (opened r row st)).isActive = true)
    (faulty : ((begunRecord p seq row skips (opened r row st)).resolve r.params
      st.session.vars).1.errors ≠ []) :
    let begun := opened r row st
    let record := begunRecord p seq row skips begun
    let vars := st.session.vars
    let resolved := (record.resolve r.params vars).1
    let values := (Params.ofBlob r.params row.parameters).entries.map fun e => vars.substitute e.2
    let s := step r deeper p seq row skips st
    s.result = resolved.result ∧ s.result.status = .fail ∧ s.result.exception = none ∧
    s.directive = .ofAction (resolved.policy.after .fail) ∧
    s.log = [⟨.began record, begun⟩, ⟨.ended resolved s.directive, s.state⟩] ∧
    (∀ r' deeper', r'.config = r.config → r'.params = r.params → r'.reporter = r.reporter →
      step r' deeper' p seq row skips st = s) ∧
    s.state.interrupted = st.interrupted ∧
    s.state.files = r.reporter (.step resolved.result) st.files ∧
    s.state.waited = st.waited + r.config.stepDelayMs ∧
    s.state.session.vars = vars.overlaid (DateToken.bundles vars.now values) ∧
    (∀ name, Variables.isReserved name = false →
      s.state.session.vars.get? name = vars.get? name) ∧
    ∀ e, Params.parse r.params row.parameters = .error e → s.state.session.vars = vars := by
  have placed := begunRecord_placed p seq row skips (opened r row st)
  have errors := Record.hasErrors_of_ne_nil faulty
  have fails := Record.status_of_hasErrors errors
  have calm := (Record.exception_resolve _ r.params st.session.vars).trans placed.exception
  have overlaid := Record.vars_resolve_eq placed.row r.params st.session.vars
  have alone (r' : Runner) (deeper' : Deeper) (config : r'.config = r.config)
      (params : r'.params = r.params) (reporter : r'.reporter = r.reporter) :
      step r' deeper' p seq row skips st = step r deeper p seq row skips st := by
    have begun : opened r' row st = opened r row st := opened_congr config
    rw [step_of_hasErrors active errors, step_of_hasErrors, begun, params,
      finished_withheld_congr config reporter]
    · rw [begun]
      exact active
    · rw [begun, params]
      exact errors
  rw [step_of_hasErrors active errors] at alone ⊢
  dsimp only
  -- From here on it does not matter how the record was resolved.
  generalize (begunRecord p seq row skips (opened r row st)).resolve r.params st.session.vars = x
    at errors fails calm overlaid alone ⊢
  obtain ⟨resolved, vars⟩ := x
  dsimp only at errors fails calm overlaid alone ⊢
  refine ⟨rfl, fails, calm, rfl, rfl, alone, rfl, rfl, rfl, ?_, ?_, ?_⟩
  · rw [vars_finished, vars_withheld, overlaid]
  · intro name user
    rw [vars_finished, vars_withheld, overlaid, Variables.get?_overlaid_bundles _ _ _ user]
  · intro e unread
    rw [vars_finished, vars_withheld, overlaid, Params.ofBlob, unread]
    rfl

def lateRow : Row :=
  { id := "late", action := "SetVars", parameters := "a=1;Now=%date%;Then=%date+300000years%" }

def late : Program :=
  { name := "late", rows := [lateRow] }

def lateStart : RunState :=
  { session := { vars := ({} : Variables).set "a" "0" } }

def lateStep : StepRun :=
  step {} none late 1 lateRow 0 lateStart

/-- The bundle of the first date is left behind, and none of the variables of the row. -/
theorem lateRow_inert :
    (begunRecord late 1 lateRow 0 (opened {} lateRow lateStart)).isActive = true ∧
    ((begunRecord late 1 lateRow 0 (opened {} lateRow lateStart)).resolve {}
      lateStart.session.vars).1.errors ≠ [] ∧
    lateStep.result.status = .fail ∧ lateStep.state.session.vars.get? "a" = some "0" ∧
    lateStep.state.session.vars.get? "now" = none ∧
    lateStep.state.session.vars =
      lateStart.session.vars.overlaid (DateToken.bundle lateStart.session.vars.now).entries := by
  have active : (begunRecord late 1 lateRow 0
      (opened {} lateRow lateStart)).isActive = true := by
    decide +kernel
  have faulty : ((begunRecord late 1 lateRow 0
      (opened {} lateRow lateStart)).resolve {} lateStart.session.vars).1.errors ≠ [] := by
    decide +kernel
  obtain ⟨-, fails, -, -, -, -, -, -, -, bundles, kept, -⟩ :=
    faulty_setup_inert {} none late 1 lateRow 0 lateStart active faulty
  have values : ((Params.ofBlob {} lateRow.parameters).entries.map fun e =>
      lateStart.session.vars.substitute e.2) = ["1", "%date%", "%date+300000years%"] := by
    decide +kernel
  have present : DateToken.moment? lateStart.session.vars.now "%date%" =
      some lateStart.session.vars.now := by
    decide +kernel
  have far : DateToken.moment? lateStart.session.vars.now "%date+300000years%" = none := by
    decide +kernel
  refine ⟨active, faulty, fails, ?_, ?_, ?_⟩
  · rw [lateStep, kept "a" (by decide)]
    decide +kernel
  · rw [lateStep, kept "now" (by decide)]
    decide +kernel
  · have plain : DateToken.moment? lateStart.session.vars.now "1" = none :=
      DateToken.moment?_of_not_isToken (by decide +kernel) _
    rw [lateStep, bundles, values, DateToken.bundles_cons_of_none plain,
      DateToken.bundles_cons_of_some present, DateToken.bundles_cons_of_none far]
    exact congrArg _ (List.append_nil _)

end Runbook.Run
