import Runbook.Proofs.Counters
import Runbook.Proofs.Run.Ledger
import Runbook.Proofs.Run.Log
import Runbook.Proofs.Run.Nesting

set_option autoImplicit false

/-!
The balance of the reportable tier. The tier is set to zero when a program is left, and a program
that a step runs is left between the begin and the end of that step. A reported step that runs a
program is therefore counted under its outcome in a tier that does not count it as begun, and the
tier stays out of balance until the next program is left.
-/
namespace Runbook

/-- How many more outcomes than begun steps a tier counts. -/
def Counters.Exceeds (c : Counters) (n : Nat) : Prop :=
  c.pass + c.fail + c.skip = c.done + n

namespace Counters

private theorem Exceeds.balanced_iff {c : Counters} {n : Nat} (h : c.Exceeds n) :
    c.Balanced ↔ n = 0 := by
  rw [Exceeds] at h
  rw [Balanced]
  omega

private theorem Exceeds.record {c : Counters} {n : Nat} (h : c.Exceeds n) (s : Status) :
    (c.record s).Exceeds (n + 1) := by
  rw [Exceeds] at h ⊢
  cases s with
  | pass => simp only [Counters.record]; omega
  | fail => simp only [Counters.record]; omega
  | skip => simp only [Counters.record]; omega

private theorem Exceeds.begin_record {c : Counters} {n : Nat} (h : c.Exceeds n) (s : Status) :
    (c.begin.record s).Exceeds n := by
  have ended := h.record s
  rw [Exceeds] at ended ⊢
  cases s with
  | pass => simp only [Counters.record, Counters.begin] at ended ⊢; omega
  | fail => simp only [Counters.record, Counters.begin] at ended ⊢; omega
  | skip => simp only [Counters.record, Counters.begin] at ended ⊢; omega

end Counters

namespace Run

/-- The step that ran the program that an entry leaves, if it is ended next. -/
def LogEntry.caller? (e : LogEntry) (next : Option LogEntry) : Option Record :=
  match e.what, next with
  | .left _, some ⟨.ended record _, _⟩ => some record
  | _, _ => none

def callers : Log → List Record
  | [] => []
  | e :: l => (e.caller? l.head?).toList ++ callers l

/-- What the last step that ran a program is missing in the reportable tier: nothing, unless it is
reported. -/
def owed? (r : Runner) (l : Log) : Option Nat :=
  (callers l).getLast?.map fun record => if isReported r record.row then 1 else 0

private theorem callers_left_ended (f : FrameSummary) (record : Record) (directive : Directive)
    (st st' : RunState) (l : Log) :
    callers (⟨.left f, st⟩ :: ⟨.ended record directive, st'⟩ :: l) = record :: callers l :=
  rfl

private theorem callers_append_left (f : FrameSummary) (st : RunState) (x l : Log) :
    callers (x ++ ⟨.left f, st⟩ :: l) = callers x ++ callers (⟨.left f, st⟩ :: l) := by
  induction x with
  | nil => rfl
  | cons e x ih =>
    have same : e.caller? (x ++ ⟨.left f, st⟩ :: l).head? = e.caller? x.head? := by
      cases x with
      | cons e' x => rfl
      | nil =>
        unfold LogEntry.caller?
        cases e.what with
        | entered | began | ended | left | interrupted => rfl
    rw [List.cons_append, callers, callers, ih, same, List.append_assoc]

variable {r : Runner}

private theorem owed?_append_caller (x l : Log) (f : FrameSummary) (record : Record)
    (directive : Directive) (st st' : RunState) (d : Nat) :
    (owed? r (x ++ ⟨.left f, st⟩ :: ⟨.ended record directive, st'⟩ :: l)).getD d =
      (owed? r l).getD (if isReported r record.row then 1 else 0) := by
  rw [owed?, owed?, callers_append_left, callers_left_ended, List.getLast?_append,
    List.getLast?_cons]
  cases (callers l).getLast? with
  | none => rfl
  | some later => rfl

private theorem CallsLog.last_left {l : Log} (h : CallsLog l) :
    l = [] ∨ ∃ x f st, l = x ++ [⟨.left f, st⟩] := by
  induction h using CallsLog.induct with
  | nil => exact .inl rfl
  | @call p f inner l st st' _ _ _ ih =>
    rcases ih with rfl | ⟨x, f', st'', rfl⟩
    · exact .inr ⟨_, f, st', rfl⟩
    · exact .inr ⟨⟨.entered p, st⟩ :: inner ++ ⟨.left f, st'⟩ :: x, f', st'', by simp⟩

/-- The excess of the reportable tier after a program's rows is what the last step that ran a
program is missing, or what it was before. -/
private theorem RowsLog.exceeds {l : Log} (h : RowsLog l) (b : Ledger) (d : Nat)
    (start : b.reportable.Exceeds d) :
    (ledgerAfter r b l).reportable.Exceeds ((owed? r l).getD d) := by
  induction h using RowsLog.induct generalizing b d with
  | nil => exact start
  | interrupted seq st => exact start
  | @step record record' calls l directive st st' same balanced _ ih =>
    rcases CallsLog.last_left balanced with rfl | ⟨x, f, st'', rfl⟩
    · have owes : owed? r (⟨.began record, st⟩ :: ⟨.ended record' directive, st'⟩ :: l) =
          owed? r l := rfl
      change (ledgerAfter r b
        (⟨.began record, st⟩ :: ⟨.ended record' directive, st'⟩ :: l)).reportable.Exceeds
          ((owed? r (⟨.began record, st⟩ :: ⟨.ended record' directive, st'⟩ :: l)).getD d)
      rw [owes]
      refine ih _ d ?_
      simp only [Happening.change, same.row]
      split
      · exact start.begin_record record'.status
      · exact start
    · -- A program is left right before the step is ended, so what came before no longer counts.
      have regroup : ⟨.began record, st⟩ :: (x ++ [⟨.left f, st''⟩]) ++
            ⟨.ended record' directive, st'⟩ :: l =
          (⟨.began record, st⟩ :: x) ++ ⟨.left f, st''⟩ :: ⟨.ended record' directive, st'⟩ :: l := by
        simp
      rw [regroup, owed?_append_caller, ledgerAfter_append]
      generalize ledgerAfter r b (⟨.began record, st⟩ :: x) = b'
      refine ih _ _ ?_
      have zero : Counters.zero.Exceeds 0 := rfl
      simp only [Happening.change]
      split
      · exact zero.record record'.status
      · exact zero

/-- A tier that is out of balance exactly when the last step of a log that ran a program is
reported, and then by one outcome. -/
structure Settles (r : Runner) (tier : Counters) (l : Log) : Prop where
  balanced_iff : tier.Balanced ↔ ∀ record ∈ (callers l).getLast?, isReported r record.row = false
  exceeds : ¬ tier.Balanced → tier.Exceeds 1

private theorem settles_of_exceeds {tier : Counters} {l : Log}
    (h : tier.Exceeds ((owed? r l).getD 0)) : Settles r tier l := by
  rw [owed?] at h
  cases last : (callers l).getLast? with
  | none =>
    rw [last] at h
    have balanced : tier.Balanced := h.balanced_iff.2 rfl
    constructor
    · rw [last]
      simp [balanced]
    · intro unbalanced
      exact absurd balanced unbalanced
  | some caller =>
    rw [last] at h
    change tier.Exceeds (if isReported r caller.row then 1 else 0) at h
    cases reported : isReported r caller.row with
    | true =>
      rw [reported] at h
      constructor
      · rw [h.balanced_iff, last]
        simp [reported]
      · intro _
        exact h
    | false =>
      rw [reported] at h
      have balanced : tier.Balanced := h.balanced_iff.2 rfl
      constructor
      · rw [last]
        simp [balanced, reported]
      · intro unbalanced
        exact absurd balanced unbalanced

private theorem prefix_of_append_eq_concat {l x y : Log} {e : LogEntry} (h : x ++ y = l ++ [e])
    (more : y ≠ []) : x <+: l := by
  rcases List.prefix_concat_iff.1 ⟨y, h⟩ with all | within
  · rw [← all] at h
    exact absurd (List.append_right_eq_self.1 h) more
  · exact within

private theorem frameAt_reportable (r : Runner) (depth : Nat) (p : Program) (st : RunState) :
    let f := frameAt r depth p st
    ∃ inner, f.log = ⟨.entered p, st⟩ :: inner ++ [⟨.left f.summary, f.state⟩] ∧ RowsLog inner ∧
      f.summary.reportable = (ledgerAfter r st.session.ledger inner).reportable := by
  intro f
  obtain ⟨deeper, same, below⟩ := frameAt_eq_frameWith r depth p st
  have replayed : ∀ run, deeper = some run → ∀ p st,
      Replayed r st (run p st).log (run p st).state := by
    intro run deep p st
    obtain ⟨depth, eq⟩ := below run deep p st
    rw [eq]
    exact frameAt_replayed r depth p st
  have frameLog : ∀ run, deeper = some run → ∀ p st, FrameLog p (run p st).log := by
    intro run deep p st
    obtain ⟨depth, eq⟩ := below run deep p st
    rw [eq]
    exact frameAt_frameLog r depth p st
  have total := (rows_replayed replayed p p.rows 1 0 {} st).total
  have inner := rows_rowsLog (r := r) frameLog p p.rows 1 0 {} st
  have f_eq : f = frameWith r deeper p st := same
  rw [f_eq]
  exact ⟨_, rfl, inner, congrArg Ledger.reportable total⟩

/-- The reportable tier is balanced exactly when the last step that ran a program is not reported or
there is none. -/
theorem reportable_balanced_iff (r : Runner) (p : Program) (st : RunState)
    (fresh : st.session.reportable = .zero) :
    let run := r.run p st
    (∀ pre e post, run.log = pre ++ e :: post → post ≠ [] → openSteps (pre ++ [e]) = [] →
      Settles r e.state.session.reportable (pre ++ [e])) ∧
    (∃ f st', run.log.getLast? = some ⟨.left f, st'⟩ ∧ st'.session = run.state.session ∧ f.IsOf p ∧
      Settles r f.reportable run.log) ∧
    run.state.session.reportable = .zero := by
  intro run
  obtain ⟨inner, log, rowsLog, tier⟩ :=
    frameAt_reportable r (r.config.maxDepth - p.level) p st
  have replayed := frameAt_replayed r (r.config.maxDepth - p.level) p st
  have start : st.session.ledger.reportable.Exceeds 0 := by
    change st.session.reportable.Exceeds 0
    rw [fresh]
    rfl
  change run.log = _ at log
  refine ⟨?_, ?_, ?_⟩
  · intro pre e post split more closed
    have whole := log
    change run.log = _ at whole
    rw [split, List.append_cons] at whole
    rcases List.prefix_cons_iff.1 (prefix_of_append_eq_concat whole more) with
      empty | ⟨x, same, within⟩
    · exact absurd empty (List.append_ne_nil_of_right_ne_nil _ (List.cons_ne_nil e []))
    · have kept : Kept r st.session.ledger run.log := replayed.kept
      rw [split] at kept
      have ledger := kept.at_entry
      rw [same] at closed ledger ⊢
      -- No step is open, so the log up to here consists of whole steps.
      have rows : RowsLog x := rowsLog.of_prefix x within [.program p] closed
      have here : e.state.session.reportable = (ledgerAfter r st.session.ledger x).reportable :=
        congrArg Ledger.reportable ledger
      have excess := rows.exceeds (r := r) st.session.ledger 0 start
      rw [← here] at excess
      exact settles_of_exceeds excess
  · obtain ⟨last, same⟩ := getLast?_frameAt r (r.config.maxDepth - p.level) p st
    refine ⟨_, _, last, rfl, same, ?_⟩
    have excess := rowsLog.exceeds (r := r) st.session.ledger 0 start
    rw [← tier] at excess
    apply settles_of_exceeds
    have owes : owed? r run.log = owed? r inner := by
      rw [log, owed?, callers_append_left]
      exact congrArg (fun l => (List.getLast? l).map _) (List.append_nil (callers inner))
    rw [owes]
    exact excess
  · have total := replayed.total
    change _ = ledgerAfter r st.session.ledger run.log at total
    rw [log, ledgerAfter_append] at total
    exact congrArg Ledger.reportable total

def callingRun : Runner.Finished :=
  (withChild [noteRow ""]).run caller {}

private theorem callingRun_length : 6 < callingRun.log.length := by
  decide +kernel

theorem callingRun_exceeds :
    ({} : RunState).session.reportable = .zero ∧
    ∃ e, callingRun.log = callingRun.log.take 6 ++ e :: callingRun.log.drop 7 ∧
      callingRun.log.drop 7 ≠ [] ∧ openSteps (callingRun.log.take 6 ++ [e]) = [] ∧
      e.state.session.reportable.Exceeds 1 ∧
      ∃ f st', callingRun.log.getLast? = some ⟨.left f, st'⟩ ∧ f.reportable.Exceeds 1 := by
  have split := eq_take_get_drop callingRun.log 6 callingRun_length
  have closed : openSteps (callingRun.log.take 6 ++
      [callingRun.log.get ⟨6, callingRun_length⟩]) = [] := by
    decide +kernel
  have more : callingRun.log.drop 7 ≠ [] := by
    rw [← List.length_pos_iff_ne_nil]
    decide +kernel
  obtain ⟨entries, ⟨f, st', last, -, -, settles⟩, -⟩ :=
    reportable_balanced_iff (withChild [noteRow ""]) caller {} rfl
  have within := entries _ _ _ split more closed
  refine ⟨rfl, _, split, more, closed, ?_, f, st', last, ?_⟩
  · apply within.exceeds
    decide +kernel
  · apply settles.exceeds
    rw [settles.balanced_iff]
    change ¬ ∀ record ∈ (callers callingRun.log).getLast?, _
    decide +kernel

/-- It is not so that the tier is balanced whenever the outermost program is reported. -/
theorem reportable_unbalanced :
    ¬ ∀ (r : Runner) (p : Program) (st : RunState), st.session.reportable = .zero →
      ∀ f ∈ (framesIn (r.run p st).events).getLast?, f.reportable.Balanced := by
  intro balanced
  have here := balanced (withChild [noteRow ""]) caller {} rfl
  revert here
  decide +kernel

end Run
end Runbook
