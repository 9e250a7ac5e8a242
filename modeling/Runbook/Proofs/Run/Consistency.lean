import Runbook.Console.Rendering
import Runbook.Proofs.Record.Notes
import Runbook.Proofs.Run.Directories
import Runbook.Proofs.Run.Setup
import Runbook.Proofs.Run.Verdict

set_option autoImplicit false

/-!
Reported steps are consistent. Every step that a run reports is the outcome of a record that was
begun in it, and carried out in between. What is noted on a record is in order from its begin to its
end, so its status, its errors and its exception tell the same: whether its setup, the look-up of
its action or the action's answer went wrong.
-/
namespace Runbook

/-- The status, the errors and the exception of a step agree, and no error stands twice in a row. -/
structure StepResult.Consistent (s : StepResult) : Prop where
  failed : s.status = .fail ↔ s.errors ≠ []
  explained : s.exception.isSome = true → s.errors ≠ []
  clean : s.status ≠ .fail → s.errors = [] ∧ s.exception = none
  distinct : s.errors.IsChain (· ≠ ·)

private theorem Record.Orderly.consistent {record : Record} (h : record.Orderly) :
    record.result.Consistent where
  failed := record.status_eq_fail_iff.trans h.hasErrors_iff
  explained := h.explained
  clean := record.clean_result_iff.2
  distinct := h.distinct

namespace Run

/-- What becomes of a record that is begun: skipped, or failed for its setup, its action's name or
the answer. -/
structure Judged (r : Runner) (deeper : Deeper) (baseDir : Option String) (record : Record)
    (st : RunState) (status : Status) : Prop where
  inactive : record.isActive = false → status = .skip
  faulty : record.isActive = true → (resolvedRecord r record st).hasErrors = true → status = .fail
  answered : record.isActive = true → (resolvedRecord r record st).hasErrors = false →
    (status = .fail ↔ r.registry.find? record.action = none ∨
      ∃ a, r.registry.find? record.action = some a ∧ Action.fails
        (answerOf r deeper (resolvedRecord r record st) baseDir (resolvedState r record st) a) = true)

section Records

variable {r : Runner} {deeper : Deeper} {record : Record} {baseDir : Option String} {st : RunState}

private theorem dispatch_orderly (h : record.Orderly) :
    (dispatch r deeper record baseDir st).record.Orderly := by
  by_cases named : record.action = ""
  · rw [dispatch, if_pos named]
    exact .addError h.distinct _
  · cases found : r.registry.find? record.action with
    | none =>
      rw [dispatch, if_neg named, found]
      exact .addError h.distinct _
    | some a =>
      rw [record_dispatch_of_found named found]
      exact h.applyAnswer _

private theorem execute_orderly (h : record.Orderly) :
    (execute r deeper record baseDir st).record.Orderly := by
  have sound : (dispatchSound r deeper record baseDir st).record.Orderly := by
    unfold dispatchSound
    split
    · exact h
    · exact dispatch_orderly h
  obtain ⟨_, commented⟩ := execute_commented r deeper record baseDir st
  exact sound.congr commented.errors commented.exception

private theorem attempt_orderly (h : record.Orderly) :
    (attempt r deeper record baseDir st).record.Orderly := by
  cases active : record.isActive with
  | false =>
    rw [attempt_of_inactive active]
    exact h
  | true =>
    rw [attempt_of_active active]
    exact execute_orderly (h.resolve _ _)

private theorem hasErrors_dispatch_iff (clean : record.hasErrors = false)
    (named : record.action ≠ "") :
    (dispatch r deeper record baseDir st).record.hasErrors = true ↔
      r.registry.find? record.action = none ∨
        ∃ a, r.registry.find? record.action = some a ∧
          Action.fails (answerOf r deeper record baseDir st a) = true := by
  cases found : r.registry.find? record.action with
  | none => simp [hasErrors_dispatch_of_not_found found]
  | some a =>
    rw [record_dispatch_of_found named found, Record.hasErrors_applyAnswer_of_clean clean]
    simp

private theorem status_execute_iff (clean : record.hasErrors = false) (named : record.action ≠ "") :
    (execute r deeper record baseDir st).record.status = .fail ↔
      r.registry.find? record.action = none ∨
        ∃ a, r.registry.find? record.action = some a ∧
          Action.fails (answerOf r deeper record baseDir st a) = true := by
  obtain ⟨_, commented⟩ := execute_commented r deeper record baseDir st
  rw [commented.status, dispatchSound_of_clean clean, Record.status_eq_fail_iff,
    hasErrors_dispatch_iff clean named]

private theorem attempt_judged (clean : record.hasErrors = false)
    (counted : record.row.isEmpty = false) :
    Judged r deeper baseDir record st (attempt r deeper record baseDir st).record.status where
  inactive := by
    intro inactive
    rw [attempt_of_inactive inactive, Record.status, clean, inactive]
    rfl
  faulty := by
    intro active errors
    simp only [attempt_of_hasErrors active errors, withheld]
    exact Record.status_of_hasErrors errors
  answered := by
    intro active sound
    have same : (resolvedRecord r record st).action = record.action :=
      congrArg Row.actionName (Record.Continues.resolve record _ _).row
    have named : (resolvedRecord r record st).action ≠ "" := by
      rw [same]
      exact Row.actionName_ne_empty counted
    rw [attempt_of_active active, ← same]
    exact status_execute_iff sound named

end Records

/-- A step that is reported in a log is one that was begun in it and then carried out. -/
def Reported (r : Runner) (l : Log) (s : StepResult) : Prop :=
  ∃ pre record st dir post, l = pre ++ ⟨.began record, st⟩ :: post ∧
    CarriedFrom r dir record st post ∧
    s = (attempt r (below r) record dir st).record.result

section Reports

variable {r : Runner} {s : StepResult} {l l' : Log}

private theorem Reported.append_right (h : Reported r l s) (l' : Log) : Reported r (l ++ l') s := by
  obtain ⟨pre, record, st, dir, post, rfl, ⟨counted, rest, rfl⟩, same⟩ := h
  exact ⟨pre, record, st, dir, _, List.append_assoc _ _ _,
    ⟨counted, rest ++ l', List.append_assoc _ _ _⟩, same⟩

private theorem Reported.append_left (h : Reported r l s) (l' : Log) : Reported r (l' ++ l) s := by
  obtain ⟨pre, record, st, dir, post, rfl, carried, same⟩ := h
  exact ⟨l' ++ pre, record, st, dir, post, (List.append_assoc _ _ _).symm, carried, same⟩

abbrev AllReported (r : Runner) (l : Log) : Prop :=
  ∀ s ∈ stepsIn (eventsOf l), Reported r l s

private theorem AllReported.nil : AllReported r [] := by
  intro s member
  exact absurd member List.not_mem_nil

private theorem AllReported.append (h : AllReported r l) (h' : AllReported r l') :
    AllReported r (l ++ l') := by
  intro s member
  rw [eventsOf_append, stepsIn_append, List.mem_append] at member
  rcases member with first | second
  · exact (h s first).append_right l'
  · exact (h' s second).append_left l

private theorem step_allReported (p : Program)
    (nested : OfNested r (fun _ _ f => AllReported r f.log) p)
    (seq : Nat) (row : Row) (counted : row.isEmpty = false) (skips : Nat) (st : RunState) :
    AllReported r (step r (below r) p seq row skips st).log := by
  have placed := begunRecord_placed p seq row skips (opened r row st)
  simp only [step, finished]
  generalize begunRecord p seq row skips (opened r row st) = record at placed ⊢
  generalize opened r row st = begun at placed ⊢
  obtain rfl := placed.row
  have inner : AllReported r (attempt r (below r) record p.baseDir begun).log := by
    refine (attempt_descends r (below r) record p.baseDir begun).fold
      (R := fun _ l _ => AllReported r l) (fun _ => .nil) .append ?_
    rintro run ⟨⟩ child under
    have level := under.level
    rw [placed.position] at level
    exact nested child level under.level_le
  intro s member
  rw [eventsOf_step, stepsIn_append, List.mem_append, stepsIn_step, List.mem_singleton] at member
  rcases member with within | rfl
  · exact ((inner s within).append_left [_]).append_right _
  · exact ⟨[], record, begun, p.baseDir, _, rfl, ⟨counted, [], rfl⟩, rfl⟩

private theorem rows_allReported (p : Program)
    (nested : OfNested r (fun _ _ f => AllReported r f.log) p)
    (l : List Row) (seq skips : Nat) (g : Progress) (st : RunState) :
    AllReported r (rows r (below r) p l seq skips g st).log := by
  fun_induction rows r (below r) p l seq skips g st with
  | case1 seq skips g st => exact .nil
  | case2 row rest seq skips g st empty ih => exact ih
  | case3 row rest seq skips g st _ _ stopped =>
    intro s member
    exact absurd member List.not_mem_nil
  | case4 row rest seq skips g st counted _ s g' reason _ =>
    exact step_allReported p nested seq row (Bool.eq_false_iff.2 counted) skips st
  | case5 row rest seq skips g st counted _ s g' _ more ih =>
    exact (step_allReported p nested seq row (Bool.eq_false_iff.2 counted) skips st).append ih

private theorem runFrame_allReported (r : Runner) (p : Program) (st : RunState) :
    AllReported r (r.runFrame p st).log := by
  refine runFrame_induction (P := fun _ _ f => AllReported r f.log) ?_ p st
  intro p nested st s member
  rw [frameWith, eventsOf_frame, stepsIn_append, stepsIn_frame, List.append_nil] at member
  exact ((rows_allReported p nested p.rows 1 0 {} st s member).append_left [_]).append_right _

end Reports

private theorem event?_quiet {style : Console.Style} {es : List Event}
    (h : ∀ s ∈ stepsIn es, s.Consistent)
    (inner : ∀ f, .session f ∉ es) :
    es.filterMap (style.event? true) =
      ((stepsIn es).filter fun s => s.status = .fail).map style.step := by
  induction es with
  | nil => rfl
  | cons e es ih =>
    have others : ∀ f, .session f ∉ es := fun f member => inner f (List.mem_cons_of_mem e member)
    cases e with
    | frame f => exact ih h others
    | session f => exact absurd List.mem_cons_self (inner f)
    | step s =>
      have consistent := h s List.mem_cons_self
      have rest := ih (fun s member => h s (List.mem_cons_of_mem _ member)) others
      change _ = ((s :: stepsIn es).filter _).map _
      by_cases failed : s.status = .fail
      · have noted : s.errors.isEmpty = false := by simpa using consistent.failed.1 failed
        rw [List.filter_cons_of_pos (by simp [failed]), List.map_cons, ← rest]
        exact List.filterMap_cons_some (by simp [Console.Style.event?, noted])
      · obtain ⟨errors, exception⟩ := consistent.clean failed
        rw [List.filter_cons_of_neg (by simp [failed]), ← rest]
        exact List.filterMap_cons_none (by simp [Console.Style.event?, errors, exception])

private theorem session_not_mem_eventsOf (f : SessionSummary) (l : Log) :
    .session f ∉ eventsOf l := by
  intro member
  obtain ⟨⟨what, st⟩, -, reports⟩ := List.mem_filterMap.1 member
  cases what with
  | entered | began | interrupted => cases reports
  | ended record directive => cases reports
  | left f => cases reports

/-- Reported steps are consistent, and fail exactly for the reasons that `Judged` gives. -/
theorem reported_steps_consistent (r : Runner) (p : Program) (st : RunState) :
    let run := r.run p st
    (∀ s ∈ stepsIn run.events, s.Consistent ∧
      ∃ pre record st₁ dir post, run.log = pre ++ ⟨.began record, st₁⟩ :: post ∧
        CarriedFrom r dir record st₁ post ∧
        s = (attempt r (below r) record dir st₁).record.result ∧
        Judged r (below r) dir record st₁ s.status) ∧
    ∀ style : Console.Style, style.events true run.events =
      String.join ((((stepsIn run.events).filter fun s => s.status = .fail).map style.step ++
        [style.session run.summary]).map (· ++ "\n")) := by
  intro run
  have steps : stepsIn run.events = stepsIn (eventsOf run.log) := by
    rw [Runner.Finished.events, stepsIn_append, stepsIn_session, List.append_nil]
  have carried : Carried r run.log := runFrame_carried r p st
  have each : ∀ s ∈ stepsIn run.events, s.Consistent ∧
      ∃ pre record st₁ dir post, run.log = pre ++ ⟨.began record, st₁⟩ :: post ∧
        CarriedFrom r dir record st₁ post ∧
        s = (attempt r (below r) record dir st₁).record.result ∧
        Judged r (below r) dir record st₁ s.status := by
    intro s member
    rw [steps] at member
    obtain ⟨pre, record, st₁, dir, post, split, from_, rfl⟩ :=
      runFrame_allReported r p st s member
    have begun : Carried r (pre ++ ⟨.began record, st₁⟩ :: post) := split ▸ carried
    obtain ⟨position, skips, -, placed, counted, -⟩ := begun.after_began
    have clean := (Record.hasErrors_eq_false_iff record).2 ⟨placed.errors, placed.exception⟩
    have orderly : (attempt r (below r) record dir st₁).record.Orderly :=
      attempt_orderly (.of_clean placed.errors placed.exception)
    exact ⟨orderly.consistent, pre, record, st₁, dir, post, split, from_, rfl,
      attempt_judged clean counted⟩
  refine ⟨each, fun style => ?_⟩
  have shown : run.events.filterMap (style.event? true) =
      ((stepsIn run.events).filter fun s => s.status = .fail).map style.step ++
        [style.session run.summary] := by
    have consistent : ∀ s ∈ stepsIn (eventsOf run.log), s.Consistent := by
      rw [← steps]
      exact fun s member => (each s member).1
    rw [steps, ← event?_quiet consistent fun f => session_not_mem_eventsOf f run.log,
      Runner.Finished.events, List.filterMap_append]
    rfl
  rw [Console.Style.events, shown]

def shakyRunner : Runner where
  registry := (Registry.builtin.register
      { name := "Crash", body := Action.answering fun _ => .error (.failed "down") }).register
    { name := "Repeat", body := Action.answering fun _ => .ok { errors := ["a", "a", "b", "a"] } }

def shaky : Program where
  name := "shaky"
  rows := [{ id := "1", action := "Crash" }, { id := "2", action := "Repeat" },
    { id := "3", action := "Unknown" }, { id := "4", action := "Comment", parameters := "a=%date,era%" },
    { id := "5", action := "Comment" }, { id := "6", action := "Fail", activation := "no" }]

def shakyRun : Runner.Finished :=
  shakyRunner.run shaky {}

theorem shakyRun_consistent :
    (∀ s ∈ stepsIn shakyRun.events, s.Consistent) ∧
      (stepsIn shakyRun.events).map (fun s => (s.id, s.status, s.errors.length, s.exception)) =
        [("1", .fail, 1, some "down"), ("2", .fail, 3, none), ("3", .fail, 1, none),
          ("4", .fail, 1, none), ("5", .pass, 0, none), ("6", .skip, 0, none)] ∧
      ∀ style : Console.Style, ∃ lines : List String, lines.length = 5 ∧
        style.events true shakyRun.events = String.join (lines.map (· ++ "\n")) := by
  obtain ⟨each, shown⟩ := reported_steps_consistent shakyRunner shaky {}
  refine ⟨fun s member => (each s member).1, by decide +kernel, fun style => ⟨_, ?_, shown style⟩⟩
  have failed : ((stepsIn shakyRun.events).filter fun s => s.status = .fail).length = 4 := by
    decide +kernel
  rw [List.length_append, List.length_map]
  exact congrArg (· + 1) failed

end Run

end Runbook
