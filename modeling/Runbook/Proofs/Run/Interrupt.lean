import Runbook.Proofs.Run.LifeCycle
import Runbook.Proofs.Run.Rows
import Runbook.Proofs.Run.Unwinding

set_option autoImplicit false

/-!
Interrupts. The flag is raised by the action of a step, and it is looked at before the next
instruction of whichever program is running. From then on nothing is begun. The steps that are open
end one after the other, the innermost first, and of the programs around them each has no
instruction left, or is stopped by its own step, or takes the session with it. So does a program
with an instruction that an action of an open step still enters.
-/
namespace Runbook.Run

private theorem rows_of_interrupted (r : Runner) (deeper : Deeper) (p : Program) (l : List Row)
    (seq skips : Nat) (g : Progress) (st : RunState) (raised : st.interrupted = true) :
    let run := rows r deeper p l seq skips g st
    let stopped := { st with session := st.session.terminate }
    ((∀ row ∈ l, row.isEmpty = true) ∧ run = ⟨g, .completed, [], st⟩) ∨
      ((∃ row ∈ l, row.isEmpty = false) ∧
        ∃ place, run = ⟨g, .interrupted place, [⟨.interrupted place, stopped⟩], stopped⟩) := by
  induction l generalizing seq with
  | nil => exact .inl ⟨List.forall_mem_nil _, rfl⟩
  | cons row rest ih =>
    cases empty : row.isEmpty with
    | true =>
      rw [rows_of_empty empty, List.forall_mem_cons, List.exists_mem_cons_iff, empty]
      simp only [true_and, Bool.true_eq_false, false_or]
      exact ih (seq + 1)
    | false =>
      rw [rows_of_raised empty raised]
      exact .inr ⟨⟨row, List.mem_cons_self, empty⟩, seq, rfl⟩

/-- Why the session is terminated in the end: already before, by an open program, or by one still
entered. -/
def Doomed (start : RunState) (caught : List Caught) (late : List Program) : Prop :=
  start.session.terminated = true ∨ (∃ c ∈ caught, c.Terminates) ∨ ∃ q ∈ late, q.HasMore 0

structure PartCut (r : Runner) (log : Log) (after : RunState) (start : RunState)
    (caught : List Caught) (late : List Program) : Prop where
  cut : Cut r [] log start (caught.flatMap Caught.openings) (caught.map (·.ended))
    (caught.map (·.summary)) late
  unwound : ∀ c ∈ caught, c.Unwound
  terminated : after.session.terminated = true ↔ Doomed start caught late
  raised : after.interrupted = true

/-- A step in which the flag is raised, in a program that it ran or by its own action. -/
structure StepCut (r : Runner) (p : Program) (seq : Nat) (s : StepRun) (start : RunState)
    (inner : List Caught) (late : List Program) (begun : Record) (ended : EndedStep) : Prop where
  cut : Cut r [.program p] s.log start
    (inner.flatMap Caught.openings ++ [.step begun, .program p]) (inner.map (·.ended) ++ [ended])
    (inner.map (·.summary)) late
  unwound : ∀ c ∈ inner, c.Unwound
  continues : begun.Continues ended.record
  seq : begun.position.seq = seq
  result : s.result = ended.record.result
  directive : s.directive = ended.directive
  terminated : s.state.session.terminated = true ↔
    Doomed start inner late ∨ ended.directive.quitSession = true
  raised : s.state.interrupted = true

structure RowsCut (r : Runner) (p : Program) (run : RowsRun) (start : RunState)
    (inner : List Caught) (late : List Program) (own : Caught) : Prop where
  program : own.program = p
  summary : own.summary = summarize p run
  cut : Cut r [.program p] run.log start ((inner ++ [own]).flatMap Caught.openings)
    ((inner ++ [own]).map (·.ended)) (inner.map (·.summary)) late
  unwound : ∀ c ∈ inner ++ [own], c.Unwound
  terminated : run.state.session.terminated = true ↔ Doomed start (inner ++ [own]) late
  raised : run.state.interrupted = true

def StepRun.Interruptible (r : Runner) (p : Program) (seq : Nat) (s : StepRun) : Prop :=
  (Calm s.log ∧ s.state.interrupted = false) ∨
    ∃ start inner late begun ended, StepCut r p seq s start inner late begun ended

def RowsRun.Interruptible (r : Runner) (p : Program) (run : RowsRun) : Prop :=
  (Calm run.log ∧ run.state.interrupted = false) ∨
    ∃ start inner late own, RowsCut r p run start inner late own

/-- A part of a run in which a lowered flag stays so or is raised, or that begins when it is raised.
-/
structure Interruptible (r : Runner) (before : RunState) (log : Log) (after : RunState) :
    Prop where
  lowered : before.interrupted = false → (Calm log ∧ after.interrupted = false) ∨
    ∃ start caught late, PartCut r log after start caught late
  raised : before.interrupted = true → Late before log after

namespace Interruptible

variable {r : Runner} {a b c : RunState} {l l' : Log}

private theorem of_still (still : Still a b) : Interruptible r a [] b where
  lowered calm := .inl ⟨.nil, still.same.trans calm⟩
  raised raised := .of_still raised still

private theorem append (h : Interruptible r a l b) (h' : Interruptible r b l' c)
    (balanced : ∀ stack, openAfter stack l = stack) : Interruptible r a (l ++ l') c where
  lowered calm := by
    rcases h.lowered calm with ⟨quiet, lowered⟩ | ⟨start, caught, late, cut⟩
    · rcases h'.lowered lowered with ⟨quiet', lowered'⟩ | ⟨start, caught, late, cut⟩
      · exact .inl ⟨quiet.append quiet', lowered'⟩
      · exact .inr ⟨start, caught, late, cut.cut.after quiet balanced, cut.unwound, cut.terminated,
          cut.raised⟩
    · -- The programs of the second part are entered when the flag is raised.
      have rest := h'.raised cut.raised
      have whole := cut.cut.append rest.unbegun rest.settled
      rw [rest.unended, rest.unleft, List.append_nil, List.append_nil] at whole
      refine .inr ⟨start, caught, _, whole, cut.unwound, ?_, rest.raised⟩
      rw [rest.terminated, cut.terminated, Doomed, Doomed, or_assoc, or_assoc]
      simp only [List.mem_append, or_and_right, exists_or]
  raised raised := (h.raised raised).append (h'.raised (h.raised raised).raised)

end Interruptible

section Unwinding

variable {r : Runner}

private theorem interruptible_of_descends {fits : Program → Prop} {st st' : RunState} {log : Log}
    (h : DescendsBy Still (below r) fits st log st')
    (nested : ∀ child, fits child → ∀ st,
      Interruptible r st (r.runFrame child st).log (r.runFrame child st).state) :
    Interruptible r st log st' := by
  refine (h.fold (R := fun a l b => Interruptible r a l b ∧ CallsLog l) ?_ ?_ ?_).1
  · intro _ _ still
    exact ⟨.of_still still, .nil _⟩
  · intro _ _ _ _ _ first later
    exact ⟨first.1.append later.1 first.2.openAfter_eq, first.2.append later.2⟩
  · intro run deep child fit start
    obtain rfl := Option.some.inj deep
    exact ⟨nested child fit start, (runFrame_frameLog r child start).callsLog⟩

section Finished

variable {p : Program} {row : Row} {record : Record} {st : RunState} {e : Execution}

private theorem finished_interruptible (skips : Nat) (continues : record.Continues e.record)
    (log : e.log = []) (quiet : Quiet st e.state) (calm : st.interrupted = false)
    (raised : e.state.interrupted = true) (asks : Interrupting r p.baseDir record st) :
    (finished r row skips record st e).Interruptible r p record.position.seq := by
  let close : LogEntry := ⟨.ended e.record e.directive, closed r row e⟩
  have whole : (finished r row skips record st e).log = [⟨.began record, st⟩, close] := by
    simp only [finished, log]
    rfl
  refine .inr ⟨st, [], [], record, ⟨e.record, e.directive⟩, ?_⟩
  exact {
    cut := by
      rw [whole]
      exact .raised calm raised asks
    unwound := List.forall_mem_nil _
    continues, seq := rfl, result := rfl, directive := rfl
    terminated := by
      have mark := terminated_closed r row e
      simp [finished, mark, quiet.terminated, Doomed, or_comm]
    raised }

private theorem finished_interruptible_of_calls (skips : Nat)
    (continues : record.Continues e.record)
    (calm : st.interrupted = false) (inner : Interruptible r st e.log e.state) :
    (finished r row skips record st e).Interruptible r p record.position.seq := by
  let close : LogEntry := ⟨.ended e.record e.directive, closed r row e⟩
  have whole : (finished r row skips record st e).log = ⟨.began record, st⟩ :: e.log ++ [close] :=
    rfl
  rcases inner.lowered calm with ⟨quiet, lowered⟩ | ⟨start, caught, late, h⟩
  · left
    rw [whole]
    exact ⟨(Calm.cons calm quiet).append (.cons lowered .nil), lowered⟩
  · right
    have cut := (h.cut.called record calm p).append (x := [close])
      (.singleton (by rintro record ⟨⟩)) rfl
    have unleft : leftIn 0 [close] = [] := rfl
    have unentered : [close].filterMap LogEntry.entered? = [] := rfl
    rw [unleft, unentered, List.append_nil, List.append_nil, ← whole] at cut
    refine ⟨start, caught, late, record, ⟨e.record, e.directive⟩, ?_⟩
    exact {
      cut
      unwound := h.unwound
      continues, seq := rfl, result := rfl, directive := rfl
      terminated := by
        have mark := terminated_closed r row e
        simp only [finished, mark, Bool.or_eq_true, h.terminated]
        exact or_comm
      raised := h.raised }

end Finished

abbrev FrameInterruptible (r : Runner) (st : RunState) (f : FrameRun) : Prop :=
  Interruptible r st f.log f.state

private theorem step_interruptible (hosts : CalmHosts r) (p : Program)
    (nested : OfNested r (fun _ st f => FrameInterruptible r st f) p) (seq : Nat) (row : Row)
    (skips : Nat) (st : RunState) (calm : st.interrupted = false) :
    (step r (below r) p seq row skips st).Interruptible r p seq := by
  have lowered : (opened r row st).interrupted = false := calm
  have placed := begunRecord_placed p seq row skips (opened r row st)
  have place : (begunRecord p seq row skips (opened r row st)).position.seq = seq := by
    rw [placed.position]
  have level : (begunRecord p seq row skips (opened r row st)).position.level = p.level := by
    rw [placed.position]
  simp only [step]
  generalize begunRecord p seq row skips (opened r row st) = record at place level ⊢
  obtain rfl := place
  have continues := attempt_continues r (below r) record p.baseDir (opened r row st)
  rcases attempt_still hosts (below r) record p.baseDir (opened r row st) with
    descends | ⟨log, quiet, raised, asks⟩
  · apply finished_interruptible_of_calls skips continues lowered
    refine interruptible_of_descends descends fun child under => ?_
    exact nested child (under.level.trans (by rw [level])) under.level_le
  · exact finished_interruptible skips continues log quiet lowered raised asks

private theorem doomed_append {start : RunState} {inner : List Caught} {own : Caught}
    {late : List Program} :
    Doomed start (inner ++ [own]) late ↔ Doomed start inner late ∨ own.Terminates := by
  have split : (∃ c ∈ inner ++ [own], c.Terminates) ↔ (∃ c ∈ inner, c.Terminates) ∨ own.Terminates := by
    simp only [List.mem_append, List.mem_singleton, or_and_right, exists_or, exists_eq_left]
  rw [Doomed, Doomed, split, or_assoc, or_assoc, or_assoc, or_comm (a := own.Terminates)]

/-- What comes of the rows after a step in which the flag is raised: nothing but, perhaps, that the
flag is looked at. -/
private theorem StepCut.rowsCut {p : Program} {seq : Nat} {s : StepRun} {start : RunState}
    {inner : List Caught} {late : List Program} {begun : Record} {ended : EndedStep} {run : RowsRun}
    {x : Log} (h : StepCut r p seq s start inner late begun ended) (log : run.log = s.log ++ x)
    (rest : x = [] ∨ ∃ place st, x = [⟨.interrupted place, st⟩])
    (last : run.progress.steps.getLast? = some s.result) (raised : run.state.interrupted = true)
    (noticed : p.HasMore seq ∧ s.directive.quitCase = false →
      run.ending.state = .sessionTerminated ∧ run.state.session.terminated = true)
    (terminated : run.state.session.terminated = true →
      s.state.session.terminated = true ∨ (p.HasMore seq ∧ s.directive.quitCase = false))
    (kept : s.state.session.terminated = true → run.state.session.terminated = true) :
    ∃ own, RowsCut r p run start inner late own := by
  have silent : Unbegun x ∧ othersAfter 0 x = 0 ∧ endedSteps x = [] ∧ leftIn 0 x = [] ∧
      x.filterMap LogEntry.entered? = [] := by
    rcases rest with rfl | ⟨place, st, rfl⟩
    · exact ⟨.nil, rfl, rfl, rfl, rfl⟩
    · exact ⟨.singleton (by rintro record ⟨⟩), rfl, rfl, rfl, rfl⟩
  obtain ⟨unbegun, settled, unended, unleft, unentered⟩ := silent
  have cut := h.cut.append unbegun settled
  rw [unended, unleft, unentered, List.append_nil, List.append_nil, List.append_nil, ← log] at cut
  obtain ⟨own, program, own_begun, own_ended, summary⟩ : ∃ own : Caught, own.program = p ∧
      own.begun = begun ∧ own.ended = ended ∧ own.summary = summarize p run :=
    ⟨⟨p, begun, ended, summarize p run⟩, rfl, rfl, rfl, rfl⟩
  have notices : own.Notices ↔ p.HasMore seq ∧ s.directive.quitCase = false := by
    rw [Caught.Notices, program, own_begun, own_ended, h.seq, h.directive]
  have terminates : Doomed start (inner ++ [own]) late ↔
      s.state.session.terminated = true ∨ own.Notices := by
    rw [doomed_append, h.terminated, or_assoc, or_comm (b := own.Notices), ← own_ended]
    rfl
  refine ⟨own, program, summary, ?_, ?_, ?_, raised⟩
  · rw [List.flatMap_append, List.map_append, List.flatMap_singleton, List.map_singleton,
      Caught.openings, program, own_begun, own_ended]
    exact cut
  · intro c member
    rcases List.mem_append.1 member with nested | last_one
    · exact h.unwound c nested
    · rw [List.mem_singleton.1 last_one]
      exact {
        continues := by
          rw [own_begun, own_ended]
          exact h.continues
        isOf := by
          rw [summary, program]
          exact ⟨rfl, rfl, rfl⟩
        last := by
          rw [summary, own_ended]
          exact last.trans (congrArg some h.result)
        noticed := by
          intro comes
          rw [summary]
          exact (noticed (notices.1 comes)).1 }
  · rw [terminates, notices]
    constructor
    · exact terminated
    · rintro (before | comes)
      · exact kept before
      · exact (noticed comes).2

private theorem StepCut.stopped {p : Program} {seq : Nat} {s : StepRun} {start : RunState}
    {inner : List Caught} {late : List Program} {begun : Record} {ended : EndedStep}
    (h : StepCut r p seq s start inner late begun ended) {reason : String}
    (stops : stopReason? s = some reason) (g : Progress) :
    ∃ own, RowsCut r p (s.stopped g reason) start inner late own := by
  refine h.rowsCut (List.append_nil _).symm (.inl rfl) List.getLast?_concat h.raised ?_ .inl id
  -- Unless it stops the program alone, the session is terminated.
  rintro ⟨-, asked⟩
  have mark : s.state.session.terminated = true := by
    rcases stopReason?_cases stops with ⟨asks, -⟩ | ⟨-, terminated⟩
    · rw [Directive.stops, asked, Bool.false_or] at asks
      rw [h.terminated, ← h.directive]
      exact .inr asks
    · exact terminated
  refine ⟨?_, mark⟩
  simp only [StepRun.stopped, mark]
  rfl

private theorem StepCut.goesOn {p : Program} {seq : Nat} {s : StepRun} {start : RunState}
    {inner : List Caught} {late : List Program} {begun : Record} {ended : EndedStep}
    (h : StepCut r p seq s start inner late begun ended) (goes : stopReason? s = none)
    (deeper : Deeper) (g : Progress) :
    ∃ own, RowsCut r p ((rows r deeper p (p.rows.drop seq) (seq + 1) s.skips (g.add s.result)
      s.state).after s.log) start inner late own := by
  have asked : s.directive.quitCase = false :=
    (Bool.or_eq_false_iff.1 (stops_of_stopReason?_eq_none goes)).1
  have kept {terminated : Bool} (mark : s.state.session.terminated = true) : terminated = true :=
    absurd ((running_of_stopReason?_eq_none goes).symm.trans mark) Bool.false_ne_true
  rcases rows_of_interrupted r deeper p (p.rows.drop seq) (seq + 1) s.skips (g.add s.result) s.state
    h.raised with ⟨blank, complete⟩ | ⟨further, place, complete⟩
  · rw [complete]
    refine h.rowsCut (x := []) rfl (.inl rfl) List.getLast?_concat h.raised ?_ .inl kept
    rintro ⟨⟨row, member, counted⟩, -⟩
    exact absurd (counted.symm.trans (blank row member)) Bool.false_ne_true
  · rw [complete]
    refine h.rowsCut rfl (.inr ⟨place, _, rfl⟩) List.getLast?_concat h.raised ?_ ?_ kept
    · intro _
      exact ⟨rfl, rfl⟩
    · intro _
      exact .inr ⟨further, asked⟩

private theorem rows_interruptible (hosts : CalmHosts r) (p : Program)
    (nested : OfNested r (fun _ st f => FrameInterruptible r st f) p) (l : List Row)
    (place skips : Nat) (g : Progress) (st : RunState) (here : p.rows.drop place = l)
    (calm : st.interrupted = false) :
    (rows r (below r) p l (place + 1) skips g st).Interruptible r p := by
  induction l generalizing place skips g st with
  | nil => exact .inl ⟨.nil, calm⟩
  | cons row rest ih =>
    have further : p.rows.drop (place + 1) = rest := by
      rw [← List.tail_drop, here, List.tail_cons]
    cases empty : row.isEmpty with
    | true =>
      rw [rows_of_empty empty]
      exact ih (place + 1) skips g st further calm
    | false =>
      have interruptible := step_interruptible hosts p nested (place + 1) row skips st calm
      cases stops : stopReason? (step r (below r) p (place + 1) row skips st) with
      | some reason =>
        rw [rows_of_stops empty calm stops]
        rcases interruptible with quiet | ⟨start, inner, late, begun, ended, h⟩
        · exact .inl quiet
        · exact .inr ⟨start, inner, late, h.stopped stops g⟩
      | none =>
        rw [rows_of_goes empty calm stops]
        rcases interruptible with ⟨quiet, lowered⟩ | ⟨start, inner, late, begun, ended, h⟩
        · rcases ih (place + 1) _ _ _ further lowered with
            ⟨later, after⟩ | ⟨start, inner, late, own, h⟩
          · exact .inl ⟨quiet.append later, after⟩
          · refine .inr ⟨start, inner, late, own, h.program, h.summary, ?_, h.unwound, h.terminated,
              h.raised⟩
            refine h.cut.after quiet fun stack => ?_
            have balanced := step_rowsLog (r := r) (below_frameLog r) p (place + 1) row skips
              st (.nil _)
            rw [List.append_nil] at balanced
            exact balanced.openAfter_eq stack
        · rw [← further]
          exact .inr ⟨start, inner, late, h.goesOn stops (below r) g⟩

private theorem frame_late (p : Program) (st : RunState) (raised : st.interrupted = true) :
    let f := r.runFrame p st
    Late st f.log f.state ∧ f.log.filterMap LogEntry.entered? = [p] := by
  rw [runFrame_eq]
  unfold frameWith
  have entered : Unbegun [⟨.entered p, st⟩] := .singleton (by rintro record ⟨⟩)
  rcases rows_of_interrupted r (below r) p p.rows 1 0 {} st raised with
    ⟨blank, complete⟩ | ⟨further, place, complete⟩
  · rw [complete]
    refine ⟨⟨?_, rfl, rfl, rfl, ?_, raised⟩, rfl⟩
    · exact entered.append (.singleton (by rintro record ⟨⟩))
    · have idle : ¬ p.HasMore 0 := by
        rintro ⟨row, member, counted⟩
        rw [blank row member] at counted
        cases counted
      simp [LogEntry.entered?, idle, Session.resetReportable]
  · rw [complete]
    refine ⟨⟨?_, rfl, rfl, rfl, ?_, raised⟩, rfl⟩
    · exact (entered.append (.singleton (by rintro record ⟨⟩))).append
        (.singleton (by rintro record ⟨⟩))
    · exact iff_of_true rfl (.inr ⟨p, by simp [LogEntry.entered?], further⟩)

private theorem runFrame_interruptible (hosts : CalmHosts r) (p : Program) (st : RunState) :
    FrameInterruptible r st (r.runFrame p st) := by
  refine runFrame_induction (P := fun _ st f => FrameInterruptible r st f) ?_ p st
  intro p nested st
  rw [← runFrame_eq]
  refine ⟨fun calm => ?_, fun raised => (frame_late p st raised).1⟩
  rw [runFrame_eq]
  rcases rows_interruptible hosts p nested p.rows 0 0 {} st List.drop_zero calm with
    ⟨quiet, lowered⟩ | ⟨start, inner, late, own, h⟩
  · exact .inl ⟨(Calm.cons calm quiet).append (.cons lowered .nil), lowered⟩
  · refine .inr ⟨start, inner ++ [own], late, ?_, h.unwound, h.terminated, h.raised⟩
    let run := rows r (below r) p p.rows 1 0 {} st
    let left : LogEntry := ⟨.left (summarize p run), (frameWith r (below r) p st).state⟩
    have whole := (h.cut.entered calm).append (x := [left]) (.singleton (by rintro record ⟨⟩)) rfl
    have unended : endedSteps [left] = [] := rfl
    have unentered : [left].filterMap LogEntry.entered? = [] := rfl
    have reported : leftIn 0 [left] = [own.summary] := by
      rw [h.summary]
      rfl
    rw [unended, unentered, reported, List.append_nil, List.append_nil] at whole
    rw [List.map_append (f := fun c : Caught => c.summary)]
    exact whole

end Unwinding

/-- Interrupts. Once the flag is raised no step is begun, and the open ones are ended from the
innermost on. -/
theorem interrupt_stops (r : Runner) (hosts : CalmHosts r) (p : Program) (st : RunState) :
    let run := r.run p st
    (st.interrupted = false → ∀ pre e post, run.log = pre ++ e :: post →
      (∀ e' ∈ pre, e'.state.interrupted = false) → e.state.interrupted = true →
      ∃ before start first around, let caught : List Caught := first :: around
        pre = before ++ [⟨.began first.begun, start⟩] ∧
        Interrupting r first.program.baseDir first.begun start ∧
        openPrograms pre = caught.map (·.program) ∧ openSteps pre = caught.map (·.begun) ∧
        (∀ later ∈ e :: post, ∀ record, later.what ≠ .began record) ∧
        endedSteps (e :: post) = caught.map (·.ended) ∧
        run.state.session.counters =
          caught.foldl (fun n c => n.record c.ended.record.status) start.session.counters ∧
        leftIn 0 post = caught.map (·.summary) ∧ (∀ c ∈ caught, c.Unwound) ∧
        (run.state.session.terminated = true ↔ start.session.terminated = true ∨
          (∃ c ∈ caught, c.Notices ∨ c.ended.directive.quitSession = true) ∨
          ∃ q ∈ post.filterMap LogEntry.entered?, ∃ row ∈ q.rows, row.isEmpty = false)) ∧
    (st.interrupted = true →
      (∀ e ∈ run.log, ∀ record, e.what ≠ .began record) ∧
      (run.state.session.terminated = true ↔
        st.session.terminated = true ∨ ∃ row ∈ p.rows, row.isEmpty = false)) := by
  intro run
  have whole : Interruptible r st run.log (r.runFrame p st).state := runFrame_interruptible hosts p st
  refine ⟨?_, ?_⟩
  · intro lowered pre e post split calm raised
    have replayed : Replayed r st run.log (r.runFrame p st).state := frameAt_replayed _ _ _ _
    rcases whole.lowered lowered with ⟨quiet, -⟩ | ⟨start, caught, late, h⟩
    · have still : e.state.interrupted = false := by
        apply quiet
        rw [split]
        exact List.mem_append_right _ List.mem_cons_self
      rw [raised] at still
      exact nomatch still
    · obtain ⟨pre', e', post', split', cut⟩ := h.cut
      obtain ⟨rfl, rfl, rfl⟩ :=
        Calm.split_unique calm raised cut.calm cut.raised (split.symm.trans split')
      obtain ⟨before, record, q, below, rfl, opened, asks⟩ := cut.raiser
      -- The raising step is that of the innermost program.
      cases caught with
      | nil => exact nomatch opened
      | cons first around =>
        obtain ⟨⟨⟩, tail⟩ := List.cons.inj opened
        obtain ⟨⟨⟩, -⟩ := List.cons.inj tail
        have openings := cut.opened []
        rw [List.append_nil, List.append_nil] at openings
        refine ⟨before, start, first, around, rfl, asks, ?_, ?_, cut.unbegun, cut.ended, ?_, cut.left,
          h.unwound, ?_⟩
        · rw [openPrograms, openings, programs_openings]
        · rw [openSteps, openings, records_openings]
        · rw [split, List.append_assoc, List.singleton_append] at replayed
          have counted := replayed.counters_after cut.unbegun
          rw [cut.ended, List.foldl_map] at counted
          exact counted
        · rw [cut.late]
          exact h.terminated
  · intro raised
    obtain ⟨late, entered⟩ := frame_late (r := r) p st raised
    refine ⟨late.unbegun, late.terminated.trans ?_⟩
    simp only [entered, List.mem_singleton, exists_eq_left]
    rfl

def stopAction : Action where
  name := "Stop"
  body := .direct fun call =>
    { vars := call.session.vars, interrupts := true, answer := .ok {} }

def stoppingRunner : Runner :=
  { withChild [{ id := "stop", action := "Stop" }, {}] with
    registry := Registry.builtin.register stopAction }

def interruptedRun : Runner.Finished :=
  stoppingRunner.run caller {}

private theorem interruptedRun_length : 4 < interruptedRun.log.length := by
  decide +kernel

/-- The nested program does not come to look at the flag, the program around it does. -/
theorem interruptedRun_stops :
    CalmHosts stoppingRunner ∧ ({} : RunState).interrupted = false ∧
    (∃ e, interruptedRun.log = interruptedRun.log.take 4 ++ e :: interruptedRun.log.drop 5 ∧
      (∀ e' ∈ interruptedRun.log.take 4, e'.state.interrupted = false) ∧
      e.state.interrupted = true ∧
      (openSteps (interruptedRun.log.take 4)).map (·.row.id) = ["stop", "call"] ∧
      (∀ later ∈ interruptedRun.log.drop 5, ∀ record, later.what ≠ .began record) ∧
      (leftIn 0 (interruptedRun.log.drop 5)).map (·.state) = [.completed, .sessionTerminated]) ∧
    (stoppingRunner.run caller { interrupted := true }).state.session.terminated = true := by
  have hosts : CalmHosts stoppingRunner := calmHosts_of_plain (by decide +kernel)
  have split := eq_take_get_drop interruptedRun.log 4 interruptedRun_length
  have calm : ∀ e' ∈ interruptedRun.log.take 4, e'.state.interrupted = false := by
    decide +kernel
  have raised :
      (interruptedRun.log.get ⟨4, interruptedRun_length⟩).state.interrupted = true := by
    decide +kernel
  obtain ⟨before, start, first, around, -, -, -, -, unbegun, -⟩ :=
    (interrupt_stops stoppingRunner hosts caller {}).1 rfl _ _ _ split calm raised
  have early := (interrupt_stops stoppingRunner hosts caller { interrupted := true }).2 rfl
  refine ⟨hosts, rfl, ⟨_, split, calm, raised, by decide +kernel, ?_, by decide +kernel⟩, ?_⟩
  · intro later member
    exact unbegun later (List.mem_cons_of_mem _ member)
  · exact early.2.2 (.inr ⟨callRow, List.mem_cons_self, by decide⟩)

private theorem calmHosts_hosting {r : Runner} (plain : r.registry.Plain)
    (programs : List (List Row)) :
    CalmHosts (hosting r programs) := by
  intro name a script found body call
  have still (programs : List (List Row)) (call : Action.Call) :
      (hostScript programs call).Touches fun t => t.interrupts = false := by
    induction programs generalizing call with
    | nil => rfl
    | cons rows rest ih => exact ⟨rfl, fun _ call => ih call⟩
  rcases Keyed.mem_place (Keyed.mem_of_find found) with host | earlier
  · obtain ⟨-, rfl⟩ := Prod.mk.inj host
    obtain rfl := Action.Body.hosting.inj body
    exact still programs call
  · have single := plain a (List.mem_map_of_mem earlier)
    rw [Action.hosts, body] at single
    cases single

def lateRunner : Runner :=
  hosting { registry := Registry.builtin.register stopAction }
    [[{ id := "stop", action := "Stop" }], [noteRow ""]]

def lateRun : Runner.Finished :=
  lateRunner.run { host with rows := [{ id := "host", action := "Host" }] } {}

/-- No program that is open at the raise has an instruction left, but one that is entered afterwards
looks at the flag. -/
theorem raise_noticed_late :
    let pre := lateRun.log.take 4
    CalmHosts lateRunner ∧
    (∀ e ∈ pre, e.state.interrupted = false) ∧
    (lateRun.log.drop 4).head?.any (·.state.interrupted) = true ∧
    (openSteps pre).map (·.row.id) = ["stop", "host"] ∧
    (openPrograms pre).map (·.rows.length) = [1, 1] ∧
    (∀ s ∈ endedSteps lateRun.log, s.directive.quitSession = false) ∧
    lateRun.state.session.terminated = true :=
  ⟨calmHosts_hosting (by decide +kernel) _, by decide +kernel⟩

end Runbook.Run
