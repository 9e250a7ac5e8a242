import Runbook.Proofs.Run.Calls

set_option autoImplicit false

/-!
The termination of a session. The mark is set by a step whose directive quits the session and by an
interrupt that is noticed, and by nothing else; once it is set it stays, and every program that is
then open comes to its end without beginning another step. A program looks at the mark only after a
step, so one that is started when the mark is set, by an action that makes up programs, still begins
its first instruction.
-/
namespace Runbook.Run

def Happening.terminates : Happening → Bool
  | .ended _ directive => directive.quitSession
  | .interrupted _ => true
  | _ => false

def terminatesIn (l : Log) : Bool :=
  l.any fun e => e.what.terminates

private theorem terminatesIn_append (l l' : Log) :
    terminatesIn (l ++ l') = (terminatesIn l || terminatesIn l') :=
  List.any_append

private theorem change_terminated (r : Runner) (b : Ledger) (h : Happening) :
    (h.change r b).terminated = (b.terminated || h.terminates) := by
  cases h with
  | ended record directive => rfl
  | interrupted seq => exact (Bool.or_true _).symm
  | entered | began | left => exact (Bool.or_false _).symm

theorem terminated_closed (r : Runner) (row : Row) (e : Execution) :
    (closed r row e).session.terminated =
      (e.directive.quitSession || e.state.session.terminated) := by
  unfold closed
  cases e.directive.quitSession with
  | true => rfl
  | false => rfl

theorem ledgerAfter_terminated (r : Runner) (b : Ledger) (l : Log) :
    (ledgerAfter r b l).terminated = (b.terminated || terminatesIn l) := by
  induction l generalizing b with
  | nil => exact (Bool.or_false _).symm
  | cons e l ih =>
    change (ledgerAfter r (e.what.change r b) l).terminated = _
    rw [ih, change_terminated, Bool.or_assoc]
    rfl

private theorem Kept.terminated_at {r : Runner} {b : Ledger} {pre post : Log} {e : LogEntry}
    (h : Kept r b (pre ++ e :: post)) :
    e.state.session.terminated = (b.terminated || terminatesIn (pre ++ [e])) := by
  rw [← ledgerAfter_terminated r, ← h.at_entry]
  rfl

private theorem Kept.terminates_of_first {r : Runner} {b : Ledger} {pre post : Log} {e : LogEntry}
    (h : Kept r b (pre ++ e :: post)) (running : b.terminated = false)
    (calm : ∀ e' ∈ pre, e'.state.session.terminated = false)
    (terminated : e.state.session.terminated = true) : e.what.terminates = true := by
  have before : terminatesIn pre = false := by
    rcases List.eq_nil_or_concat pre with rfl | ⟨pre, last, rfl⟩
    · rfl
    · rw [List.concat_eq_append] at h calm ⊢
      have lowered := calm last (by simp)
      rw [List.append_assoc, List.singleton_append] at h
      rw [h.terminated_at, running, Bool.false_or] at lowered
      exact lowered
  have here := h.terminated_at
  rw [terminated, running, Bool.false_or, terminatesIn_append, before, Bool.false_or] at here
  simpa [terminatesIn] using here.symm

private theorem Kept.terminated_after {r : Runner} {b : Ledger} {pre post : Log} {e : LogEntry}
    (h : Kept r b (pre ++ e :: post)) (terminated : e.state.session.terminated = true) :
    ∀ e' ∈ post, e'.state.session.terminated = true := by
  intro e' member
  obtain ⟨before, after, rfl⟩ := List.append_of_mem member
  have split : pre ++ e :: (before ++ e' :: after) = (pre ++ [e] ++ before) ++ e' :: after := by
    simp
  have here : (b.terminated || terminatesIn (pre ++ [e])) = true :=
    h.terminated_at.symm.trans terminated
  rw [split] at h
  rw [h.terminated_at, terminatesIn_append, terminatesIn_append, ← Bool.or_assoc,
    ← Bool.or_assoc, here, Bool.true_or, Bool.true_or]

theorem Replayed.stays_terminated {r : Runner} {before after : RunState} {l : Log}
    (h : Replayed r before l after) (terminated : before.session.terminated = true) :
    (∀ e ∈ l, e.state.session.terminated = true) ∧ after.session.terminated = true := by
  have marked : before.session.ledger.terminated = true := terminated
  constructor
  · intro e member
    obtain ⟨pre, post, rfl⟩ := List.append_of_mem member
    rw [h.kept.terminated_at, marked, Bool.true_or]
  · have total := congrArg Ledger.terminated h.total
    rw [ledgerAfter_terminated, marked, Bool.true_or] at total
    exact total

/-- While steps are begun and programs are entered the session is not terminated. -/
def LogEntry.Heeds (e : LogEntry) : Prop :=
  match e.what with
  | .entered _ | .began _ => e.state.session.terminated = false
  | _ => True

theorem running_of_stopReason?_eq_none {s : StepRun} (h : stopReason? s = none) :
    s.state.session.terminated = false := by
  unfold stopReason? at h
  split at h
  · exact absurd h (Option.some_ne_none _)
  · split at h
    · exact absurd h (Option.some_ne_none _)
    · next running => exact Bool.eq_false_iff.2 running

section Heeding

variable {r : Runner} {deeper : Deeper}

private theorem step_heeds (plain : r.registry.Plain)
    (h : ∀ run, deeper = some run → ∀ p st, st.session.terminated = false →
      ∀ e ∈ (run p st).log, e.Heeds)
    (p : Program) (seq : Nat) (row : Row) (skips : Nat) (st : RunState)
    (running : st.session.terminated = false) :
    ∀ e ∈ (step r deeper p seq row skips st).log, e.Heeds := by
  obtain ⟨e, same, -, outcome⟩ := step_calls r deeper p seq row skips st fun _ => plain.of_find?
  have begun : (opened r row st).session.terminated = false := running
  have inner : ∀ e' ∈ e.log, e'.Heeds := by
    rcases outcome with ⟨log, -⟩ | ⟨run, child, start, deep, -, before, log, -⟩
    · rw [log]
      exact fun e' absurd => nomatch absurd
    · rw [log]
      exact h run deep child start (before.terminated.trans begun)
  rw [same]
  intro e' member
  rcases List.mem_append.1 member with first | last
  · rcases List.mem_cons.1 first with rfl | nested
    · exact begun
    · exact inner e' nested
  · obtain rfl := List.mem_singleton.1 last
    exact trivial

private theorem rows_heed (plain : r.registry.Plain)
    (h : ∀ run, deeper = some run → ∀ p st, st.session.terminated = false →
      ∀ e ∈ (run p st).log, e.Heeds)
    (p : Program) (l : List Row) (seq skips : Nat) (g : Progress) (st : RunState)
    (running : st.session.terminated = false) :
    ∀ e ∈ (rows r deeper p l seq skips g st).log, e.Heeds := by
  fun_induction rows r deeper p l seq skips g st with
  | case1 seq skips g st => exact List.forall_mem_nil _
  | case2 row rest seq skips g st empty ih => exact ih running
  | case3 row rest seq skips g st _ _ stopped =>
    intro e member
    obtain rfl := List.mem_singleton.1 member
    exact trivial
  | case4 row rest seq skips g st _ _ s g' reason _ =>
    exact step_heeds plain h p seq row skips st running
  | case5 row rest seq skips g st _ _ s g' goes more ih =>
    intro e member
    rcases List.mem_append.1 member with first | later
    · exact step_heeds plain h p seq row skips st running e first
    · exact ih (running_of_stopReason?_eq_none goes) e later

theorem frameAt_heeds (plain : r.registry.Plain) (depth : Nat) (p : Program)
    (st : RunState) :
    st.session.terminated = false → ∀ e ∈ (frameAt r depth p st).log, e.Heeds := by
  refine frameAt_induction
    (P := fun _ st f => st.session.terminated = false → ∀ e ∈ f.log, e.Heeds) ?_ depth p st
  intro deeper h p st running e member
  rcases List.mem_append.1 member with first | last
  · rcases List.mem_cons.1 first with rfl | inner
    · exact running
    · exact rows_heed plain h p p.rows 1 0 {} st running e inner
  · obtain rfl := List.mem_singleton.1 last
    exact trivial

end Heeding

/-- Steps that are begun when the session is terminated are begun right after a program was entered.
-/
def Fresh : Bool → Log → Prop
  | _, [] => True
  | fresh, e :: l =>
    (∀ record, e.what = .began record → e.state.session.terminated = true → fresh = true) ∧
      Fresh e.entered?.isSome l

namespace Fresh

private theorem mono {fresh : Bool} {l : Log} (h : Fresh false l) : Fresh fresh l := by
  cases l with
  | nil => trivial
  | cons e l =>
    refine ⟨?_, h.2⟩
    intro record began terminated
    exact absurd (h.1 record began terminated) Bool.false_ne_true

private theorem append {fresh : Bool} {l l' : Log} (h : Fresh fresh l) (h' : Fresh false l') :
    Fresh fresh (l ++ l') := by
  induction l generalizing fresh with
  | nil => exact h'.mono
  | cons e l ih => exact ⟨h.1, ih h.2⟩

private theorem singleton {fresh : Bool} {e : LogEntry} (h : ∀ record, e.what ≠ .began record) :
    Fresh fresh [e] :=
  ⟨fun record began => absurd began (h record), trivial⟩

private theorem after_entered {fresh : Bool} {x y : Log} {record : Record} {st : RunState}
    (h : Fresh fresh (x ++ ⟨.began record, st⟩ :: y)) (terminated : st.session.terminated = true)
    (later : x ≠ []) : ∃ x' q st', x = x' ++ [⟨.entered q, st'⟩] := by
  induction x generalizing fresh with
  | nil => exact absurd rfl later
  | cons e x ih =>
    cases x with
    | nil =>
      obtain ⟨q, entered⟩ := Option.isSome_iff_exists.1 (h.2.1 record rfl terminated)
      exact ⟨[], q, e.state, by rw [← LogEntry.eq_of_entered? entered]; rfl⟩
    | cons e' x =>
      obtain ⟨x', q, st', split⟩ := ih h.2 (List.cons_ne_nil _ _)
      exact ⟨e :: x', q, st', by rw [split]; rfl⟩

end Fresh

section Freshness

variable {r : Runner} {deeper : Deeper}

private theorem step_fresh (h : ∀ run, deeper = some run → ∀ p st, Fresh false (run p st).log)
    (p : Program) (seq : Nat) (row : Row) (skips : Nat) (st : RunState) {fresh : Bool}
    (allowed : st.session.terminated = true → fresh = true) :
    Fresh fresh (step r deeper p seq row skips st).log := by
  obtain ⟨record, e, same, -, -, descends⟩ := step_cases r deeper p seq row skips st
  have inner : Fresh false e.log :=
    descends.fold (R := fun _ l _ => Fresh false l) (fun _ => trivial) .append
      fun run deep child _ => h run deep child
  rw [same]
  have begun : Fresh fresh (⟨.began record, opened r row st⟩ :: e.log) :=
    ⟨fun _ _ => allowed, inner⟩
  exact begun.append (.singleton (by rintro record ⟨⟩))

private theorem rows_fresh (h : ∀ run, deeper = some run → ∀ p st, Fresh false (run p st).log)
    (p : Program) (l : List Row) (seq skips : Nat) (g : Progress) (st : RunState) :
    ∀ fresh, (st.session.terminated = true → fresh = true) →
      Fresh fresh (rows r deeper p l seq skips g st).log := by
  fun_induction rows r deeper p l seq skips g st with
  | case1 seq skips g st => exact fun _ _ => trivial
  | case2 row rest seq skips g st empty ih => exact ih
  | case3 row rest seq skips g st _ _ stopped =>
    exact fun _ _ => .singleton (by rintro record ⟨⟩)
  | case4 row rest seq skips g st _ _ s g' reason _ =>
    exact fun fresh => step_fresh h p seq row skips st
  | case5 row rest seq skips g st _ _ s g' goes more ih =>
    intro fresh allowed
    refine (step_fresh h p seq row skips st allowed).append (ih false fun terminated => ?_)
    exact (running_of_stopReason?_eq_none goes).symm.trans terminated

private theorem frameAt_fresh (r : Runner) (depth : Nat) (p : Program) (st : RunState) :
    Fresh false (frameAt r depth p st).log := by
  refine frameAt_induction (P := fun _ _ f => Fresh false f.log) ?_ depth p st
  intro deeper h p st
  have inner := rows_fresh (r := r) h p p.rows 1 0 {} st true fun _ => rfl
  have entered : Fresh false (⟨.entered p, st⟩ :: (rows r deeper p p.rows 1 0 {} st).log) :=
    ⟨by rintro record ⟨⟩, inner⟩
  exact entered.append (.singleton (by rintro record ⟨⟩))

end Freshness

/-- A program ends with the session exactly when that is terminated, unless it was before and
nothing is begun. -/
theorem rows_terminated_iff (r : Runner) (deeper : Deeper) (p : Program) (l : List Row)
    (seq skips : Nat) (g : Progress) (st : RunState) :
    let run := rows r deeper p l seq skips g st
    run.ending.state = .sessionTerminated ↔ run.state.session.terminated = true ∧
      (st.session.terminated = false ∨ ∃ row ∈ l, row.isEmpty = false) := by
  fun_induction rows r deeper p l seq skips g st with
  | case1 seq skips g st => simp [Ending.state]
  | case2 row rest seq skips g st empty ih => simp [ih, empty]
  | case3 row rest seq skips g st counted _ stopped =>
    have mark : stopped.session.terminated = true := rfl
    simp [Ending.state, mark, Bool.eq_false_iff.2 counted]
  | case4 row rest seq skips g st counted _ s g' reason _ =>
    cases mark : s.state.session.terminated with
    | true => simp [Ending.state, mark, Bool.eq_false_iff.2 counted]
    | false => simp [Ending.state, mark]
  | case5 row rest seq skips g st counted _ s g' goes more ih =>
    have running := running_of_stopReason?_eq_none goes
    simp only [running, true_or, and_true] at ih
    simp [ih, Bool.eq_false_iff.2 counted, more]

def quittingRun : Runner.Finished :=
  (withChild [noteRow "OnPass=quitsession", noteRow ""]).run caller {}

private theorem quittingRun_length : 4 < quittingRun.log.length := by
  decide +kernel

def hostedRun : Runner.Finished :=
  (hosting {} [[noteRow "OnPass=quitsession"], [noteRow ""]]).run host {}

private theorem hostedRun_length : 4 < hostedRun.log.length := by
  decide +kernel

end Runbook.Run
