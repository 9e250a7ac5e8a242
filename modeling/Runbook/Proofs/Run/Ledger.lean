import Runbook.Proofs.Run.Step

set_option autoImplicit false

/-!
The ledger of a session: both tiers of counters and the mark of termination. Each entry of a log
changes the ledger in a way of its own, so that the ledger at every point of a run can be read off
the log up to there.
-/
namespace Runbook

structure Ledger where
  counters : Counters
  reportable : Counters
  terminated : Bool

def Session.ledger (s : Session) : Ledger :=
  ⟨s.counters, s.reportable, s.terminated⟩

namespace Run

def Happening.change (r : Runner) (b : Ledger) : Happening → Ledger
  | .entered _ => b
  | .began record =>
    { b with
      counters := b.counters.begin
      reportable := if isReported r record.row then b.reportable.begin else b.reportable }
  | .ended record directive =>
    { counters := b.counters.record record.status
      reportable :=
        if isReported r record.row then b.reportable.record record.status else b.reportable
      terminated := b.terminated || directive.quitSession }
  | .interrupted _ => { b with terminated := true }
  | .left _ => { b with reportable := .zero }

def ledgerAfter (r : Runner) (b : Ledger) (l : Log) : Ledger :=
  l.foldl (fun b e => e.what.change r b) b

/-- A log whose states have the ledger that is read off it. -/
def Kept (r : Runner) : Ledger → Log → Prop
  | _, [] => True
  | b, e :: l => e.state.session.ledger = e.what.change r b ∧ Kept r (e.what.change r b) l

theorem ledgerAfter_append (r : Runner) (b : Ledger) (l l' : Log) :
    ledgerAfter r b (l ++ l') = ledgerAfter r (ledgerAfter r b l) l' :=
  List.foldl_append

private theorem kept_append (r : Runner) (b : Ledger) (l l' : Log) :
    Kept r b (l ++ l') ↔ Kept r b l ∧ Kept r (ledgerAfter r b l) l' := by
  induction l generalizing b with
  | nil => simp [Kept, ledgerAfter]
  | cons e l ih =>
    rw [List.cons_append, Kept, Kept, ih, and_assoc]
    rfl

theorem Kept.at_entry {r : Runner} {b : Ledger} {pre post : Log} {e : LogEntry}
    (h : Kept r b (pre ++ e :: post)) :
    e.state.session.ledger = ledgerAfter r b (pre ++ [e]) := by
  have entry := ((kept_append r b pre _).1 h).2.1
  rw [entry, ledgerAfter_append]
  rfl

/-- A part of a run, from its first state to its last, whose ledger is read off its log. -/
structure Replayed (r : Runner) (before : RunState) (log : Log) (after : RunState) : Prop where
  kept : Kept r before.session.ledger log
  total : after.session.ledger = ledgerAfter r before.session.ledger log

private theorem Quiet.ledger {before after : RunState} (h : Quiet before after) :
    after.session.ledger = before.session.ledger := by
  rw [Session.ledger, h.counters, h.reportable, h.terminated]
  rfl

namespace Replayed

variable {r : Runner}

private theorem idle {before after : RunState} (h : Quiet before after) :
    Replayed r before [] after :=
  ⟨trivial, h.ledger⟩

private theorem append {a b c : RunState} {l l' : Log} (h : Replayed r a l b)
    (h' : Replayed r b l' c) :
    Replayed r a (l ++ l') c where
  kept := by
    rw [kept_append, ← h.total]
    exact ⟨h.kept, h'.kept⟩
  total := by rw [h'.total, h.total, ledgerAfter_append]

private theorem between {a b c d : RunState} {first last : Happening} {l : Log}
    (begun : b.session.ledger = first.change r a.session.ledger) (h : Replayed r b l c)
    (ended : d.session.ledger = last.change r c.session.ledger) :
    Replayed r a (⟨first, b⟩ :: l ++ [⟨last, d⟩]) d := by
  have opens : Replayed r a [⟨first, b⟩] b := ⟨⟨begun, trivial⟩, begun⟩
  have closes : Replayed r c [⟨last, d⟩] d := ⟨⟨ended, trivial⟩, ended⟩
  exact (opens.append h).append closes

end Replayed

private theorem ledger_opened (r : Runner) {record : Record} {row : Row} (same : record.row = row)
    (st : RunState) :
    (opened r row st).session.ledger = (Happening.began record).change r st.session.ledger := by
  obtain rfl := same
  rfl

private theorem ledger_closed (r : Runner) {row : Row} (e : Execution) (same : e.record.row = row) :
    (closed r row e).session.ledger =
      (Happening.ended e.record e.directive).change r e.state.session.ledger := by
  obtain rfl := same
  unfold closed
  cases quits : e.directive.quitSession with
  | true => simp [Session.ledger, Session.record, Session.terminate, Happening.change, quits]
  | false => simp [Session.ledger, Session.record, Happening.change, quits]

variable {r : Runner} {deeper : Deeper}

theorem step_replayed
    (h : ∀ run, deeper = some run → ∀ p st, Replayed r st (run p st).log (run p st).state)
    (p : Program) (seq : Nat) (row : Row) (skips : Nat) (st : RunState) :
    let s := step r deeper p seq row skips st
    Replayed r st s.log s.state := by
  obtain ⟨record, e, same, ofRow, continues, descends⟩ := step_cases r deeper p seq row skips st
  have inner : Replayed r (opened r row st) e.log e.state :=
    descends.fold .idle .append fun run deep child _ => h run deep child
  rw [same]
  exact .between (ledger_opened r ofRow st) inner (ledger_closed r e (continues.row.trans ofRow))

theorem rows_replayed
    (h : ∀ run, deeper = some run → ∀ p st, Replayed r st (run p st).log (run p st).state)
    (p : Program) (l : List Row) (seq skips : Nat) (g : Progress) (st : RunState) :
    let run := rows r deeper p l seq skips g st
    Replayed r st run.log run.state := by
  fun_induction rows r deeper p l seq skips g st with
  | case1 seq skips g st => exact .idle (.refl st)
  | case2 row rest seq skips g st empty ih => exact ih
  | case3 row rest seq skips g st _ _ stopped => exact ⟨⟨rfl, trivial⟩, rfl⟩
  | case4 row rest seq skips g st _ _ s g' reason _ => exact step_replayed h p seq row skips st
  | case5 row rest seq skips g st _ _ s g' _ more ih =>
    exact (step_replayed h p seq row skips st).append ih

/-- The ledger at every point of a program's run is read off its log. -/
theorem frameAt_replayed (r : Runner) (depth : Nat) (p : Program) (st : RunState) :
    Replayed r st (frameAt r depth p st).log (frameAt r depth p st).state :=
  frameAt_induction (P := fun _ st f => Replayed r st f.log f.state)
    (fun _ h p st => .between rfl (rows_replayed h p p.rows 1 0 {} st) rfl) depth p st

end Run
end Runbook
