import Runbook.Proofs.Run.LifeCycle
import Runbook.Proofs.Run.Moved
import Runbook.Proofs.Run.Rows

set_option autoImplicit false

/-!
Rows without an action. Such a row is passed over before anything else is looked at, so a program
that is given one more of them is run as before, and all that shows is the place of its later steps.
The two runs are compared event by event. They are out of step by one place from the row on, and
agree in everything that a later step, a program around it or a later run could read.
-/
namespace Runbook

def Event.AtLeast (level : Nat) : Event → Prop
  | .step s => level ≤ s.level
  | .frame f => level ≤ f.level
  | .session _ => False

namespace Run

section Levels

variable {r : Runner}

private theorem step_levels {p : Program}
    (nested : OfNested r (fun p _ f => ∀ e ∈ f.events, e.AtLeast p.level) p)
    (seq : Nat) (row : Row) (skips : Nat) (st : RunState) :
    let s := step r (below r) p seq row skips st
    ∃ inner, eventsOf s.log = inner ++ [.step s.result] ∧
      (∀ e ∈ inner, e.AtLeast (p.level + 1)) ∧ s.result.level = p.level ∧ s.result.seq = seq := by
  obtain ⟨e, same, continues, descends⟩ := step_descends r (below r) p seq row skips st
  have placed := begunRecord_placed p seq row skips (opened r row st)
  have position := continues.position.trans placed.position
  rw [same]
  refine ⟨eventsOf e.log, eventsOf_step _ _ _ _ _ _, ?_, congrArg (·.level) position,
    congrArg (·.seq) position⟩
  apply descends.fold (R := fun _ log _ => ∀ e ∈ eventsOf log, e.AtLeast (p.level + 1))
  · intro _ _ _
    exact List.forall_mem_nil _
  · intro _ _ _ l l' first later
    rw [eventsOf_append]
    exact List.forall_mem_append.2 ⟨first, later⟩
  · intro run deep child started st
    obtain rfl := Option.some.inj deep
    rw [← started.level]
    exact nested child started.level started.level_le st

private theorem rows_levels {p : Program}
    (nested : OfNested r (fun p _ f => ∀ e ∈ f.events, e.AtLeast p.level) p)
    (l : List Row) (seq skips : Nat) (g : Progress) (st : RunState) :
    ∀ e ∈ eventsOf (rows r (below r) p l seq skips g st).log, e.AtLeast p.level := by
  have of_step (seq : Nat) (row : Row) (skips : Nat) (st : RunState) :
      ∀ e ∈ eventsOf (step r (below r) p seq row skips st).log, e.AtLeast p.level := by
    obtain ⟨inner, events, deeper, level, -⟩ := step_levels nested seq row skips st
    intro e member
    rw [events] at member
    rcases List.mem_append.1 member with first | last
    · have depth := deeper e first
      cases e with
      | step s => exact Nat.le_of_succ_le depth
      | frame f => exact Nat.le_of_succ_le depth
      | session s => exact depth
    · rw [List.mem_singleton.1 last]
      exact level.ge
  fun_induction rows r (below r) p l seq skips g st with
  | case1 seq skips g st => exact List.forall_mem_nil _
  | case2 row rest seq skips g st _ ih => exact ih
  | case3 row rest seq skips g st _ _ stopped => exact List.forall_mem_nil _
  | case4 row rest seq skips g st _ _ s g' reason _ => exact of_step seq row skips st
  | case5 row rest seq skips g st _ _ s g' _ more ih =>
    intro e member
    rw [eventsOf_append] at member
    rcases List.mem_append.1 member with first | later
    · exact of_step seq row skips st e first
    · exact ih e later

private theorem runFrame_levels (r : Runner) (p : Program) (st : RunState) :
    ∀ e ∈ (r.runFrame p st).events, e.AtLeast p.level := by
  apply runFrame_induction (P := fun p _ f => ∀ e ∈ f.events, e.AtLeast p.level)
  intro p nested st e member
  rw [FrameRun.events, frameWith, eventsOf_frame] at member
  rcases List.mem_append.1 member with inner | last
  · exact rows_levels nested p.rows 1 0 {} st e inner
  · rw [List.mem_singleton.1 last]
    exact Nat.le_refl p.level

end Levels

section Shifting

variable (level place : Nat)

/-- A step, and how it is told when a row without an action is put in at a place of the program at a
level. -/
inductive StepShifted : StepResult → StepResult → Prop
  | same (s : StepResult) (elsewhere : s.level = level → s.seq ≤ place) : StepShifted s s
  | later (s : StepResult) (own : s.level = level) (after : place < s.seq) :
      StepShifted s { s with seq := s.seq + 1 }

/-- How the program ends when the row is put in: an interrupt that is noticed before a later row is
noticed one place further on. -/
def Ending.shifted : Ending → Ending
  | .interrupted seq => .interrupted (if place < seq then seq + 1 else seq)
  | ending => ending

/-- The program itself, and how it is told when the row is put in. -/
structure FrameShifted (f f' : FrameSummary) : Prop where
  steps : List.Forall₂ (StepShifted level place) f.steps f'.steps
  rest : f' = { f with steps := f'.steps, comments := f'.comments, errors := f'.errors }
  notes : ∃ ending : Ending, f.state = ending.state ∧ Noted f (ending.note? level) ∧
    Noted f' ((ending.shifted place).note? level)

/-- An event, and how it is told when the row is put in: what is nested in the program is told as
before. -/
inductive EventShifted : Event → Event → Prop
  | step {s s' : StepResult} (shifted : StepShifted level place s s') :
      EventShifted (.step s) (.step s')
  | nested (f : FrameSummary) (deeper : level < f.level) : EventShifted (.frame f) (.frame f)
  | own {f f' : FrameSummary} (own : f.level = level) (shifted : FrameShifted level place f f') :
      EventShifted (.frame f) (.frame f')
  | session (s : SessionSummary) : EventShifted (.session s) (.session s)

structure StepRunShifted (s s' : StepRun) : Prop where
  result : StepShifted level place s.result s'.result
  directive : s'.directive = s.directive
  skips : s'.skips = s.skips
  events : List.Forall₂ (EventShifted level place) (eventsOf s.log) (eventsOf s'.log)
  state : s'.state = s.state

structure ProgressShifted (g g' : Progress) : Prop where
  counters : g'.counters = g.counters
  steps : List.Forall₂ (StepShifted level place) g.steps g'.steps

structure RowsShifted (run run' : RowsRun) : Prop where
  progress : ProgressShifted level place run.progress run'.progress
  ending : run'.ending = run.ending.shifted place
  events : List.Forall₂ (EventShifted level place) (eventsOf run.log) (eventsOf run'.log)
  state : run'.state = run.state

end Shifting

section Shifted

variable {level place : Nat}

private theorem ProgressShifted.add {g g' : Progress} (h : ProgressShifted level place g g')
    {s s' : StepResult} (shifted : StepShifted level place s s') :
    ProgressShifted level place (g.add s) (g'.add s') where
  counters := by
    have status : s'.status = s.status := by
      cases shifted with
      | same => rfl
      | later => rfl
    rw [Progress.add, Progress.add, h.counters, status]
  steps := List.rel_append h.steps (.cons shifted .nil)

private theorem StepRunShifted.stopped {s s' : StepRun} (h : StepRunShifted level place s s')
    {g g' : Progress} (progress : ProgressShifted level place g g') (reason : String) :
    RowsShifted level place (s.stopped g reason) (s'.stopped g' reason) where
  progress := progress.add h.result
  ending := by
    obtain ⟨step, id⟩ : s'.result.step = s.result.step ∧ s'.result.id = s.result.id := by
      have result := h.result
      generalize s.result = a at result ⊢
      generalize s'.result = b at result ⊢
      cases result with
      | same => exact ⟨rfl, rfl⟩
      | later => exact ⟨rfl, rfl⟩
    simp only [StepRun.stopped, h.state, step, id]
    rfl
  events := h.events
  state := h.state

private theorem RowsShifted.after {run run' : RowsRun} (h : RowsShifted level place run run')
    {l l' : Log} (events : List.Forall₂ (EventShifted level place) (eventsOf l) (eventsOf l')) :
    RowsShifted level place (run.after l) (run'.after l') where
  progress := h.progress
  ending := h.ending
  events := by
    rw [RowsRun.after, RowsRun.after, eventsOf_append, eventsOf_append]
    exact List.rel_append events h.events
  state := h.state

end Shifted

section Comparing

variable {r : Runner} {p : Program} {place : Nat}

private theorem deeper_shifted {es : List Event} (h : ∀ e ∈ es, e.AtLeast (p.level + 1)) :
    List.Forall₂ (EventShifted p.level place) es es := by
  rw [List.forall₂_same]
  intro e member
  have depth := h e member
  cases e with
  | step s =>
    refine .step (.same s ?_)
    intro own
    exact absurd own (Nat.ne_of_gt depth)
  | frame f => exact .nested f depth
  | session s => exact depth.elim

inductive PlaceShifted (place : Nat) : Nat → Nat → Prop
  | earlier {seq : Nat} (le : seq ≤ place) : PlaceShifted place seq seq
  | later {seq : Nat} (lt : place < seq) : PlaceShifted place seq (seq + 1)

private theorem step_shifted (ignores : r.IgnoresPlaces)
    (alike : r.ObservesAlike) {seq seq' : Nat}
    (h : PlaceShifted place seq seq') (row : Row) (skips : Nat) (st : RunState) :
    StepRunShifted p.level place (step r (below r) p seq row skips st)
      (step r (below r) p seq' row skips st) := by
  have nested : OfNested r (fun p _ f => ∀ e ∈ f.events, e.AtLeast p.level) p :=
    fun child _ _ st => runFrame_levels r child st
  obtain ⟨inner, events, deeper, level, seq_eq⟩ := step_levels nested seq row skips st
  have within : List.Forall₂ (EventShifted p.level place) inner inner := deeper_shifted deeper
  cases h with
  | earlier le =>
    have same : StepShifted p.level place (step r (below r) p seq row skips st).result
        (step r (below r) p seq row skips st).result := by
      apply StepShifted.same
      intro _
      rw [seq_eq]
      exact le
    refine ⟨same, rfl, rfl, ?_, rfl⟩
    rw [events]
    exact List.rel_append within (.cons (.step same) .nil)
  | later lt =>
    have moved := step_moved ignores alike (below r) p seq (seq + 1) row skips st
    generalize step r (below r) p seq row skips st = s at events level seq_eq moved ⊢
    generalize step r (below r) p (seq + 1) row skips st = s' at moved ⊢
    obtain rfl := seq_eq
    have later : StepShifted p.level place s.result s'.result := by
      rw [moved.result]
      exact .later s.result level lt
    refine ⟨later, moved.directive, moved.skips, ?_, moved.state⟩
    obtain ⟨inner', first, second⟩ := moved.events
    obtain ⟨rfl, -⟩ := List.append_inj' (events.symm.trans first) rfl
    rw [first, second]
    exact List.rel_append within (.cons (.step later) .nil)

private theorem rows_shifted (ignores : r.IgnoresPlaces) (alike : r.ObservesAlike) (l : List Row)
    (seq seq' skips : Nat)
    (g g' : Progress) (st : RunState)
    (places : ∀ i < l.length, PlaceShifted place (seq + i) (seq' + i))
    (progress : ProgressShifted p.level place g g') :
    RowsShifted p.level place (rows r (below r) p l seq skips g st)
      (rows r (below r) p l seq' skips g' st) := by
  induction l generalizing seq seq' skips g g' st with
  | nil => exact ⟨progress, rfl, .nil, rfl⟩
  | cons row rest ih =>
    have here : PlaceShifted place seq seq' := places 0 (Nat.succ_pos _)
    have later : ∀ i < rest.length, PlaceShifted place (seq + 1 + i) (seq' + 1 + i) := by
      intro i lt
      have next := places (i + 1) (Nat.succ_lt_succ lt)
      rw [← Nat.add_assoc, Nat.add_right_comm, ← Nat.add_assoc, Nat.add_right_comm seq'] at next
      exact next
    cases empty : row.isEmpty with
    | true =>
      rw [rows_of_empty empty, rows_of_empty empty]
      exact ih (seq + 1) (seq' + 1) skips g g' st later progress
    | false =>
      cases raised : st.interrupted with
      | true =>
        rw [rows_of_raised empty raised, rows_of_raised empty raised]
        refine ⟨progress, ?_, .nil, rfl⟩
        cases here with
        | earlier le => exact congrArg Ending.interrupted (if_neg (Nat.not_lt.2 le)).symm
        | later lt => exact congrArg Ending.interrupted (if_pos lt).symm
      | false =>
        have shifted : StepRunShifted p.level place (step r (below r) p seq row skips st)
            (step r (below r) p seq' row skips st) := step_shifted ignores alike here row skips st
        have reason := stopReason?_congr shifted.directive shifted.state
        cases stops : stopReason? (step r (below r) p seq row skips st) with
        | some text =>
          rw [rows_of_stops empty raised stops, rows_of_stops empty raised (reason.trans stops)]
          exact shifted.stopped progress text
        | none =>
          rw [rows_of_goes empty raised stops, rows_of_goes empty raised (reason.trans stops),
            shifted.skips, shifted.state]
          refine .after ?_ shifted.events
          exact ih (seq + 1) (seq' + 1) _ _ _ _ later (progress.add shifted.result)

end Comparing

private theorem summarize_shifted {p : Program} {place : Nat} {run run' : RowsRun}
    (h : RowsShifted p.level place run run') :
    FrameShifted p.level place (summarize p run) (summarize p run') := by
  have state : (run.ending.shifted place).state = run.ending.state := by
    cases run.ending with
    | completed | stopped | interrupted => rfl
  refine ⟨h.progress.steps, ?_, run.ending, rfl, summarize_noted p run, ?_⟩
  · simp only [summarize, h.ending, h.progress.counters, h.state, state]
  · rw [← h.ending]
    exact summarize_noted p run'

/-- Rows without an action are invisible, if neither actions nor observers depend on places. -/
theorem blank_rows_invisible (r : Runner) (ignores : r.IgnoresPlaces) (alike : r.ObservesAlike)
    (p : Program) (st : RunState) (before : List Row) (blank : Row)
    (isBlank : blank.isEmpty = true) (after : List Row) :
    let run := r.run { p with rows := before ++ after } st
    let run' := r.run { p with rows := before ++ blank :: after } st
    List.Forall₂ (EventShifted p.level before.length) run.events run'.events ∧
    run'.summary = run.summary ∧ run'.state = { run.state with files := run'.state.files } := by
  intro run run'
  have shifted : RowsShifted p.level before.length
      (rows r (below r) p (before ++ after) 1 0 {} st)
      (rows r (below r) p (before ++ blank :: after) 1 0 {} st) := by
    have first : RowsShifted p.level before.length (rows r (below r) p before 1 0 {} st)
        (rows r (below r) p before 1 0 {} st) := by
      apply rows_shifted ignores alike
      · intro i lt
        apply PlaceShifted.earlier
        omega
      · exact ⟨rfl, .nil⟩
    rcases rows_append r (below r) p before 1 0 {} st with complete | ⟨skips, further⟩
    · rw [complete, complete]
      exact first
    · rw [further, further, rows_of_empty isBlank]
      refine .after ?_ first.events
      apply rows_shifted ignores alike _ _ _ _ _ _ _ _ first.progress
      intro i lt
      rw [Nat.add_right_comm (1 + before.length) 1 i]
      apply PlaceShifted.later
      omega
  refine ⟨?_, ?_, ?_⟩
  · simp only [run, run', events_run_withRows, shifted.state]
    apply List.rel_append
    · exact List.rel_append shifted.events (.cons (.own rfl (summarize_shifted shifted)) .nil)
    · exact .cons (.session _) .nil
  · simp only [run, run', run_withRows, shifted.state]
  · simp only [run, run', run_withRows, reported, shifted.state]

def remarkedRunner : Runner :=
  withChild [noteRow ""]

def remarkedRows : List Row :=
  [noteRow "", callRow]

def remark : Row :=
  { id := "#", parameters := "OnPass=quitsession", description := "a remark" }

theorem remark_invisible :
    remark.isEmpty = true ∧ remarkedRunner.IgnoresPlaces ∧ remarkedRunner.ObservesAlike ∧
    let run := remarkedRunner.run
      { caller with rows := [noteRow "OnPass=skip:1"] ++ remarkedRows } {}
    let run' := remarkedRunner.run
      { caller with rows := [noteRow "OnPass=skip:1"] ++ remark :: remarkedRows } {}
    List.Forall₂ (EventShifted 1 1) run.events run'.events ∧
    run'.summary = run.summary ∧
    (stepsIn run'.events).map (fun s => (s.level, s.seq, s.status)) =
      [(1, 1, .pass), (1, 3, .skip), (2, 1, .pass), (1, 4, .pass)] := by
  have blank : remark.isEmpty = true := by decide
  have ignores : remarkedRunner.IgnoresPlaces :=
    Runner.ignoresPlaces_of_ofList rfl Action.builtins_ignorePlace
  have alike : remarkedRunner.ObservesAlike := ⟨fun _ _ => rfl, fun _ _ => rfl⟩
  obtain ⟨events, summary, -⟩ := blank_rows_invisible remarkedRunner ignores alike caller {}
    [noteRow "OnPass=skip:1"] remark blank remarkedRows
  exact ⟨blank, ignores, alike, events, summary, by decide +kernel⟩

def numberingRunner : Runner where
  config := { screenshot := .always }
  registry := .ofList (look :: Action.builtins)
  capture := ⟨fun record files =>
    (.ok (some ("shot" ++ Text.decimal record.position.seq ++ ".png")), files)⟩

/-- A picture that is named by the place of its step tells of a row that was put in before it. -/
theorem capture_tells_place :
    remark.isEmpty = true ∧ numberingRunner.IgnoresPlaces ∧
    let row : Row := { id := "look", action := "Look" }
    let run := numberingRunner.run { name := "main", rows := [row] } {}
    let run' := numberingRunner.run { name := "main", rows := [remark, row] } {}
    (stepsIn run.events).map (·.comments) = [["captured shot1.png"]] ∧
    (stepsIn run'.events).map (·.comments) = [["captured shot2.png"]] := by
  refine ⟨by decide, ?_, by decide +kernel⟩
  apply Runner.ignoresPlaces_of_ofList rfl
  rw [List.forall_mem_cons]
  refine ⟨⟨?_, ?_⟩, Action.builtins_ignorePlace⟩
  · intro act body call seq
    cases body
    rfl
  · intro script body
    cases body

end Run
end Runbook
