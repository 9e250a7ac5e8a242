import Runbook.Proofs.Run.OwnSteps
import Runbook.Proofs.Run.Setup
import Runbook.Proofs.Run.Skipping
import Runbook.Proofs.Run.Termination

set_option autoImplicit false

/-!
What becomes of the decisions that rows state. The decision for a step that passed is always part of
the step's directive. The decision for a step that failed is part of it as long as the other text
can be read as a decision too: if it cannot, neither is heeded. What the directive asks for is done:
the program stops, the session is terminated, the next steps are skipped.
-/
namespace Runbook

namespace Directive

/-- A directive that asks for at least what a decision is. -/
def Includes (d : Directive) : PolicyAction → Prop
  | .proceed => True
  | .quitCase => d.quitCase = true
  | .quitSession => d.quitSession = true
  | .skip steps => steps ≤ d.skipSteps

private theorem includes_merge (a : PolicyAction) (d : Directive) :
    ((ofAction a).merge d).Includes a := by
  cases a with
  | proceed => trivial
  | quitCase => exact Bool.true_or d.quitCase
  | quitSession => exact Bool.true_or d.quitSession
  | skip steps => exact Nat.le_max_left _ _

end Directive

namespace Record

private theorem policy_resolve_of_stated {r : Record} {syn : Params.Syntax} {vars : Variables}
    {onPass onFail : PolicyAction}
    (pass : Policy.stated? (r.resolve syn vars).1.params onPassKey = some onPass)
    (fail : Policy.stated? (r.resolve syn vars).1.params onFailKey = some onFail) :
    (r.resolve syn vars).1.policy = ⟨onPass, onFail⟩ := by
  rw [policy_resolve, Policy.ofParams_of_stated pass fail]

private theorem policy_resolve_of_not_stated {r : Record} {syn : Params.Syntax} {vars : Variables}
    {key : String} (policy : isPolicyKey key = true)
    (h : Policy.stated? (r.resolve syn vars).1.params key = none) :
    (r.resolve syn vars).1.policy = {} ∧ (r.resolve syn vars).1.hasErrors = true := by
  obtain ⟨message, fails⟩ := Policy.ofParams_of_not_stated policy h
  refine ⟨?_, hasErrors_of_mem ((mem_errors_resolve r syn vars).2 (.inr (.inr fails)))⟩
  rw [policy_resolve, fails]

private theorem params_applyAnswer (r : Record) (answer : Except Action.Error Action.Outcome) :
    (Run.applyAnswer r answer).1.params = r.params :=
  field_applyAnswer (fun _ _ => rfl) params_addError (fun _ _ => rfl) r answer

end Record

namespace Run

section Attempt

variable (r : Runner) (deeper : Deeper)

private theorem params_dispatchSound (record : Record) (baseDir : Option String) (st : RunState) :
    (dispatchSound r deeper record baseDir st).record.params = record.params := by
  unfold dispatchSound
  split
  · rfl
  · by_cases named : record.action = ""
    · rw [dispatch, if_pos named]
      exact Record.params_addError record _
    · cases found : r.registry.find? record.action with
      | none =>
        rw [dispatch, if_neg named, found]
        exact Record.params_addError record _
      | some a =>
        rw [record_dispatch_of_found named found]
        exact Record.params_applyAnswer record _

private theorem params_captured (e : Execution) : (captured r e).params = e.record.params := by
  rcases captured_cases r e with same | ⟨-, path, same⟩
  · rw [same]
  · rw [same]
    rfl

private theorem params_execute (record : Record) (baseDir : Option String) (st : RunState) :
    (execute r deeper record baseDir st).record.params = record.params :=
  (params_captured r _).trans (params_dispatchSound r deeper record baseDir st)

theorem params_attempt {record : Record} (active : record.isActive = true)
    (baseDir : Option String) (st : RunState) :
    (attempt r deeper record baseDir st).record.params =
      (record.resolve r.params st.session.vars).1.params := by
  rw [attempt_of_active active, params_execute]

/-- What becomes of the decisions that the parameters of a step state. -/
structure Decides (s : EndedStep) : Prop where
  onPass (a : PolicyAction) : s.record.status = .pass →
    Policy.stated? s.record.params onPassKey = some a → s.directive.Includes a
  onFail (a : PolicyAction) : s.record.status = .fail →
    Policy.stated? s.record.params onFailKey = some a →
    (s.directive.Includes a ↔ (Policy.stated? s.record.params onPassKey).isSome = true ∨
      ({} : Directive).Includes a)

private theorem attempt_decides {record : Record} (active : record.isActive = true)
    (baseDir : Option String) (st : RunState) :
    let e := attempt r deeper record baseDir st
    Decides ⟨e.record, e.directive⟩ := by
  intro e
  have params : e.record.params = (record.resolve r.params st.session.vars).1.params :=
    params_attempt r deeper active baseDir st
  obtain ⟨-, directive⟩ := attempt_directive active r deeper baseDir st
  change e.directive = _ at directive
  -- With a text that is no decision the step fails, and asks for nothing.
  have unread {key : String} (policy : isPolicyKey key = true)
      (h : Policy.stated? e.record.params key = none) :
      e.record.status = .fail ∧ e.directive = {} := by
    rw [params] at h
    obtain ⟨undecided, errors⟩ := Record.policy_resolve_of_not_stated policy h
    simp only [e, attempt_of_hasErrors active errors, withheld, undecided]
    exact ⟨Record.status_of_hasErrors errors, rfl⟩
  have read {onPass onFail : PolicyAction}
      (pass : Policy.stated? e.record.params onPassKey = some onPass)
      (fail : Policy.stated? e.record.params onFailKey = some onFail) :
      e.directive.Includes (Policy.after ⟨onPass, onFail⟩ e.record.status) := by
    rw [params] at pass fail
    rw [directive, Record.policy_resolve_of_stated pass fail]
    exact Directive.includes_merge _ _
  -- What is decided under the one key depends on whether the text under the other can be read.
  constructor
  · intro a passes pass
    cases fail : Policy.stated? e.record.params onFailKey with
    | none => exact nomatch passes.symm.trans (unread (by decide) fail).1
    | some onFail =>
      have included := read pass fail
      rw [show e.record.status = .pass from passes] at included
      exact included
  · intro a fails fail
    cases pass : Policy.stated? e.record.params onPassKey with
    | none =>
      obtain ⟨-, nothing⟩ := unread (by decide) pass
      simp [nothing]
    | some onPass =>
      have included := read pass fail
      rw [show e.record.status = .fail from fails] at included
      exact iff_of_true included (.inl rfl)

end Attempt

private theorem Ending.eq_completed_of_state {ending : Ending} (h : ending.state = .completed) :
    ending = .completed := by
  cases ending with
  | completed => rfl
  | stopped whole => cases whole <;> exact nomatch h
  | interrupted seq => exact nomatch h

private theorem rows_terminated {r : Runner} {deeper : Deeper}
    (h : ∀ run, deeper = some run → ∀ p st, Replayed r st (run p st).log (run p st).state)
    (p : Program) (l : List Row) (seq skips : Nat) (g : Progress) (st : RunState) {s : EndedStep}
    (member : s ∈ ownSteps (rows r deeper p l seq skips g st).log)
    (asked : s.directive.quitSession = true) :
    (rows r deeper p l seq skips g st).state.session.terminated = true := by
  obtain ⟨st', ended⟩ := mem_ownSteps member
  have marked : terminatesIn (rows r deeper p l seq skips g st).log = true :=
    List.any_eq_true.2 ⟨_, ended, asked⟩
  have total := congrArg Ledger.terminated (rows_replayed h p l seq skips g st).total
  rw [ledgerAfter_terminated, marked, Bool.or_true] at total
  exact total

/-- Decisions are heeded: what the parameters of an active step state for its outcome is done,
unless the other text is no decision. -/
theorem decisions_heeded (r : Runner) (p : Program) (st : RunState) (pre : Log)
    (q : Program) (st₁ : RunState) (post : Log)
    (split : (r.run p st).log = pre ++ ⟨.entered q, st₁⟩ :: post) :
    ∃ inner f st₂ rest, post = inner ++ ⟨.left f, st₂⟩ :: rest ∧ RowsLog inner ∧ f.IsOf q ∧
      let own := ownSteps inner
      ∀ i (_ : i < own.length), own[i].record.isActive = true →
        Decides own[i] ∧
        (own[i].directive.quitCase = true → i + 1 = own.length ∧ f.state ≠ .completed) ∧
        (own[i].directive.quitSession = true →
          i + 1 = own.length ∧ f.state ≠ .completed ∧ st₂.session.terminated = true) ∧
        ∀ k (_ : k < own.length), i < k → k - i ≤ own[i].directive.skipSteps →
          own[k].record.forcedSkip = true := by
  have carried : Carried r (r.run p st).log := runFrame_carried r p st
  rw [split] at carried
  obtain ⟨st₂, rest, followed, session⟩ := carried.after_entered
  have frameLog := below_frameLog r
  have attempted := rows_attempted (r := r) frameLog q q.rows 1 0 {} st₁
  have counts := rows_countDown (r := r) frameLog q q.rows 1 0 {} st₁
  have quits := @rows_terminated r _ (below_replayed r) q q.rows 1 0 {} st₁
  obtain ⟨-, earlier, all⟩ := rows_instructions (r := r) frameLog q q.rows 1 0 {} st₁
  refine ⟨_, _, st₂, rest, followed, rows_rowsLog frameLog _ _ _ _ _ _, ⟨rfl, rfl, rfl⟩, ?_⟩
  generalize rows r (below r) q q.rows 1 0 {} st₁ = run at *
  intro own i bound active
  have member : own[i] ∈ own := List.getElem_mem bound
  have stops (asked : own[i].directive.stops = true) :
      i + 1 = own.length ∧ (summarize q run).state ≠ .completed := by
    refine ⟨last_of_stops earlier bound asked, ?_⟩
    intro done
    have goes := (all (Ending.eq_completed_of_state done)).2 _ member
    rw [asked] at goes
    exact nomatch goes
  refine ⟨?_, ?_, ?_, ?_⟩
  · obtain ⟨record, st', same⟩ := attempted _ member
    have continues := attempt_continues r (below r) record q.baseDir st'
    rw [same] at active ⊢
    exact attempt_decides r (below r) (continues.isActive.symm.trans active) q.baseDir st'
  · intro asked
    exact stops (by simp [Directive.stops, asked])
  · intro asked
    obtain ⟨last, unfinished⟩ := stops (by simp [Directive.stops, asked])
    refine ⟨last, unfinished, ?_⟩
    rw [session]
    exact quits member asked
  · intro k within beyond reaches
    exact (counts.forcedSkip_iff k within).2 (.inr ⟨i, beyond, active, reaches⟩)

def failRow (parameters : String) : Row :=
  { id := "fail", action := "Fail", parameters }

def decider : Program :=
  { name := "decider"
    rows := [failRow "OnPass=quitcase;OnFail=skip:1", noteRow "", noteRow "OnPass=quitsession",
      noteRow ""] }

def decidedRun : Runner.Finished :=
  ({} : Runner).run decider {}

theorem decidedRun_heeds :
    (∃ inner f st₂ rest,
      decidedRun.log = ⟨.entered decider, {}⟩ :: (inner ++ ⟨.left f, st₂⟩ :: rest) ∧
      ∀ i (_ : i < (ownSteps inner).length), (ownSteps inner)[i].record.isActive = true →
        Decides (ownSteps inner)[i] ∧
        ((ownSteps inner)[i].directive.quitSession = true →
          f.state ≠ .completed ∧ st₂.session.terminated = true)) ∧
    (ownSteps decidedRun.log.tail).map (fun s =>
        (s.record.isActive, s.record.status, Policy.stated? s.record.params onFailKey)) =
      [(true, .fail, some (.skip 1)), (false, .skip, some .proceed),
        (true, .pass, some .proceed)] ∧
    (ownSteps decidedRun.log.tail).map (fun s => s.directive) =
      [{ skipSteps := 1 }, {}, { quitSession := true }] := by
  have split : decidedRun.log = [] ++ ⟨.entered decider, {}⟩ :: decidedRun.log.tail := rfl
  obtain ⟨inner, f, st₂, rest, followed, -, -, heeded⟩ :=
    decisions_heeded {} decider {} _ _ _ _ split
  refine ⟨⟨inner, f, st₂, rest, ?_, ?_⟩, by decide +kernel, by decide +kernel⟩
  · rw [split, followed]
    rfl
  · intro i bound active
    obtain ⟨decides, -, quits, -⟩ := heeded i bound active
    exact ⟨decides, fun asked => (quits asked).2⟩

def undecided : Program :=
  { name := "main", rows := [failRow "OnPass=bogus;OnFail=quitsession", noteRow ""] }

def undecidedRun : Runner.Finished :=
  ({} : Runner).run undecided {}

/-- A decision for a step that failed is dropped when the other text is no decision: the session
goes on, and so does the program. -/
theorem decision_dropped :
    ¬ (∀ s ∈ ownSteps undecidedRun.log.tail, s.record.isActive = true → s.record.status = .fail →
        ∀ a, Policy.stated? s.record.params onFailKey = some a → s.directive.Includes a) ∧
      undecidedRun.summary.terminated = false ∧ undecidedRun.state.session.counters.done = 2 := by
  have evaluated : (ownSteps undecidedRun.log.tail).map (fun s => (s.record.isActive,
      s.record.status, Policy.stated? s.record.params onFailKey, s.directive.quitSession)) =
        [(true, .fail, some .quitSession, false), (true, .pass, some .proceed, false)] := by
    decide +kernel
  refine ⟨?_, by decide +kernel, by decide +kernel⟩
  intro applies
  obtain ⟨s, member, facts⟩ := List.mem_map.1 (evaluated ▸ List.mem_cons_self)
  obtain ⟨active, fails, stated, goes⟩ := by simpa only [Prod.mk.injEq] using facts
  have quits : s.directive.quitSession = true := applies s member active fails _ stated
  rw [goes] at quits
  exact nomatch quits

end Run
end Runbook
