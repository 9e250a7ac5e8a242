import Runbook.Proofs.Json.Printing
import Runbook.Proofs.Text.Line
import Runbook.Report.Jsonl

set_option autoImplicit false

/-!
Reports as lines. What is written for a program or a session is exact and stands on one line, so
that the lines of a report are those of the programs and the session that were reported, in their
order.
-/
namespace Runbook

open Json

private theorem plain_nat (n : Nat) : (Json.nat n).Plain :=
  .int n

private theorem plain_strs (texts : List String) : (Json.strs texts).Plain := by
  apply Plain.arr
  intro j member
  obtain ⟨text, -, rfl⟩ := List.mem_map.1 member
  exact .str text

private theorem plain_unlessEmpty (name : String) (texts : List String) :
    ∀ m ∈ unlessEmpty name texts, m.2.Plain := by
  unfold unlessEmpty
  split
  · exact nofun
  · simp [plain_strs]

private theorem Counters.toJson_plain (c : Counters) : c.toJson.Plain := by
  apply Plain.obj
  simp [plain_nat]

private theorem StepResult.toJson_plain (s : StepResult) : s.toJson.Plain := by
  apply Plain.obj
  have description : ∀ m ∈ (if s.description = "" then [] else
      [("description", Json.str s.description)]), m.2.Plain := by
    split
    · exact nofun
    · simp [Plain.str]
  have exception : ∀ m ∈ (s.exception.map fun e => ("exception", Json.str e)).toList,
      m.2.Plain := by
    cases s.exception with
    | none => exact nofun
    | some e => simp [Plain.str]
  simp only [members, List.forall_mem_append]
  refine ⟨⟨⟨⟨⟨?_, description⟩, ?_⟩, plain_unlessEmpty _ _⟩, plain_unlessEmpty _ _⟩, exception⟩
  · simp [plain_nat, Plain.str]
  · simp [Plain.str]

private theorem FrameSummary.members_plain (f : FrameSummary) : ∀ m ∈ f.members, m.2.Plain := by
  have steps : (Json.arr (f.steps.map StepResult.toJson)).Plain := by
    apply Plain.arr
    intro j member
    obtain ⟨s, -, rfl⟩ := List.mem_map.1 member
    exact s.toJson_plain
  simp only [members, List.forall_mem_append]
  refine ⟨⟨⟨?_, plain_unlessEmpty _ _⟩, plain_unlessEmpty _ _⟩, ?_⟩
  · simp [plain_nat, Plain.str, Counters.toJson_plain]
  · simp [steps]

private theorem SessionSummary.members_plain (s : SessionSummary) : ∀ m ∈ s.members, m.2.Plain := by
  simp [members, Plain.str, Plain.bool, Counters.toJson_plain]

def FrameSummary.line (f : FrameSummary) : List Char :=
  (Json.obj (("kind", .str "frame") :: f.members)).compact

def SessionSummary.line (s : SessionSummary) : List Char :=
  (Json.obj (("kind", .str "session") :: s.members)).compact

namespace Event

theorem plain_of_line? {e : Event} {j : Json} (h : e.line? = some j) : j.Plain := by
  cases e with
  | step s => exact nomatch h
  | frame f =>
    obtain rfl := Option.some.inj h
    exact .obj (List.forall_mem_cons.2 ⟨.str _, f.members_plain⟩)
  | session s =>
    obtain rfl := Option.some.inj h
    exact .obj (List.forall_mem_cons.2 ⟨.str _, s.members_plain⟩)

private theorem toList_reportText (es : List Event) :
    (reportText es).toList =
      (es.filterMap fun e => e.line?.map Json.compact).flatMap fun l => l ++ ['\n'] := by
  rw [reportText, String.toList_ofList]
  induction es with
  | nil => rfl
  | cons e es ih =>
    rw [List.flatMap_cons, ih, reportChars]
    cases line : e.line? with
    | none => simp [line]
    | some j => simp [line]

theorem lines_reportText (es : List Event) :
    Text.lines (reportText es).toList = es.filterMap fun e => e.line?.map Json.compact := by
  rw [toList_reportText]
  apply Text.lines_flatMap
  intro l member
  obtain ⟨e, -, written⟩ := List.mem_filterMap.1 member
  obtain ⟨j, line, rfl⟩ := Option.map_eq_some_iff.1 written
  exact (plain_of_line? line).printable.feed_not_mem

end Event
end Runbook
