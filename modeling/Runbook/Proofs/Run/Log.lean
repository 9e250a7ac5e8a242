import Runbook.Run.Basic

set_option autoImplicit false

/-!
Reading a log. The programs and the steps that a log reports are the concatenations of those that
its parts report.
-/
namespace Runbook

def Event.summary? : Event → Option FrameSummary
  | .frame summary => some summary
  | _ => none

def Event.result? : Event → Option StepResult
  | .step result => some result
  | _ => none

def framesIn (es : List Event) : List FrameSummary :=
  es.filterMap Event.summary?

def stepsIn (es : List Event) : List StepResult :=
  es.filterMap Event.result?

@[simp] theorem framesIn_nil : framesIn [] = [] := rfl
@[simp] theorem stepsIn_nil : stepsIn [] = [] := rfl

@[simp] theorem framesIn_append (es es' : List Event) :
    framesIn (es ++ es') = framesIn es ++ framesIn es' :=
  List.filterMap_append

@[simp] theorem stepsIn_append (es es' : List Event) :
    stepsIn (es ++ es') = stepsIn es ++ stepsIn es' :=
  List.filterMap_append

@[simp] theorem framesIn_step (s : StepResult) : framesIn [.step s] = [] := rfl
@[simp] theorem framesIn_frame (f : FrameSummary) : framesIn [.frame f] = [f] := rfl
@[simp] theorem framesIn_session (s : SessionSummary) : framesIn [.session s] = [] := rfl
@[simp] theorem stepsIn_step (s : StepResult) : stepsIn [.step s] = [s] := rfl
@[simp] theorem stepsIn_frame (f : FrameSummary) : stepsIn [.frame f] = [] := rfl
@[simp] theorem stepsIn_session (s : SessionSummary) : stepsIn [.session s] = [] := rfl

namespace Run

@[simp] theorem eventsOf_nil : eventsOf [] = [] := rfl

@[simp] theorem eventsOf_append (l l' : Log) : eventsOf (l ++ l') = eventsOf l ++ eventsOf l' :=
  List.filterMap_append

theorem eventsOf_step (record record' : Record) (directive : Directive) (st st' : RunState)
    (l : Log) :
    eventsOf (⟨.began record, st⟩ :: l ++ [⟨.ended record' directive, st'⟩]) =
      eventsOf l ++ [.step record'.result] := by
  rw [eventsOf_append]
  rfl

theorem eventsOf_frame (p : Program) (f : FrameSummary) (st st' : RunState) (l : Log) :
    eventsOf (⟨.entered p, st⟩ :: l ++ [⟨.left f, st'⟩]) = eventsOf l ++ [.frame f] := by
  rw [eventsOf_append]
  rfl

theorem eq_take_get_drop (l : Log) (n : Nat) (h : n < l.length) :
    l = l.take n ++ l.get ⟨n, h⟩ :: l.drop (n + 1) := by
  rw [List.get_eq_getElem, ← List.drop_eq_getElem_cons, List.take_append_drop]

theorem drop_eq_cons {l : Log} {n : Nat} {e : LogEntry} (h : l[n]? = some e) :
    l.drop n = e :: l.drop (n + 1) := by
  obtain ⟨bound, rfl⟩ := List.getElem?_eq_some_iff.1 h
  exact List.drop_eq_getElem_cons bound

def LogEntry.begun? (e : LogEntry) : Option Record :=
  match e.what with
  | .began record => some record
  | _ => none

theorem LogEntry.eq_of_begun? {e : LogEntry} {record : Record} (h : e.begun? = some record) :
    e = ⟨.began record, e.state⟩ := by
  obtain ⟨what, st⟩ := e
  cases what with
  | began record' =>
    obtain rfl := Option.some.inj h
    rfl
  | entered | ended | interrupted | left => exact nomatch h

theorem eq_take_began_drop {l : Log} {n : Nat} {record : Record}
    (h : l[n]?.bind LogEntry.begun? = some record) :
    ∃ e, l[n]? = some e ∧ l = l.take n ++ ⟨.began record, e.state⟩ :: l.drop (n + 1) := by
  obtain ⟨e, here, began⟩ := Option.bind_eq_some_iff.1 h
  refine ⟨e, here, ?_⟩
  rw [← LogEntry.eq_of_begun? began, ← drop_eq_cons here, List.take_append_drop]

def LogEntry.entered? (e : LogEntry) : Option Program :=
  match e.what with
  | .entered p => some p
  | _ => none

theorem LogEntry.eq_of_entered? {e : LogEntry} {p : Program} (h : e.entered? = some p) :
    e = ⟨.entered p, e.state⟩ := by
  obtain ⟨what, st⟩ := e
  cases what with
  | entered p' =>
    obtain rfl := Option.some.inj h
    rfl
  | began | ended | interrupted | left => exact nomatch h

theorem mem_framesIn_eventsOf {f : FrameSummary} {l : Log} :
    f ∈ framesIn (eventsOf l) ↔ ∃ st, ⟨.left f, st⟩ ∈ l := by
  rw [framesIn, eventsOf, List.filterMap_filterMap, List.mem_filterMap]
  constructor
  · rintro ⟨⟨what, st⟩, member, reports⟩
    cases what with
    | left f' =>
      obtain rfl := Option.some.inj reports
      exact ⟨st, member⟩
    | entered | began | ended | interrupted => exact nomatch reports
  · rintro ⟨st, member⟩
    exact ⟨_, member, rfl⟩

theorem mem_stepsIn_eventsOf {s : StepResult} {l : Log} :
    s ∈ stepsIn (eventsOf l) ↔
      ∃ record directive st, ⟨.ended record directive, st⟩ ∈ l ∧ record.result = s := by
  rw [stepsIn, eventsOf, List.filterMap_filterMap, List.mem_filterMap]
  constructor
  · rintro ⟨⟨what, st⟩, member, reports⟩
    cases what with
    | ended record directive => exact ⟨record, directive, st, member, Option.some.inj reports⟩
    | entered | began | left | interrupted => exact nomatch reports
  · rintro ⟨record, directive, st, member, rfl⟩
    exact ⟨_, member, rfl⟩

end Run
end Runbook
