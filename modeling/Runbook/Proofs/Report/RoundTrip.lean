import Mathlib.Data.Option.Basic
import Runbook.Proofs.Json.Record
import Runbook.Proofs.Json.RoundTrip
import Runbook.Proofs.Report.Jsonl

set_option autoImplicit false

/-!
Reading reports. What is written for a program or a session is read back as it was, whatever its
texts are and whichever of its lists are empty, as long as its numbers have 64 bits; so the programs
and sessions that were reported are read from the lines of a report file, in their order.
-/
namespace Runbook

open Json Text

section Values

theorem str?_str (s : String) : (Json.str s).str? = some s := rfl

private theorem word64?_nat {n : Nat} (h : n ≤ maxWord64) : word64? (.nat n) = some n := by
  simp [word64?, natUpTo?, Json.nat, h]

private theorem mapM_written {α : Type} {write : α → Json} {read : Json → Option α} {l : List α}
    (h : ∀ x ∈ l, read (write x) = some x) : (l.map write).mapM read = some l := by
  induction l with
  | nil => rfl
  | cons x l ih =>
    have others := ih fun y member => h y (List.mem_cons_of_mem x member)
    simp [h x List.mem_cons_self, others]

private theorem strs?_strs (texts : List String) : (Json.strs texts).strs? = some texts :=
  mapM_written (l := texts) fun _ _ => rfl

private theorem readOnly_texts (texts : List String) :
    readOnly (some []) strs? (if texts = [] then [] else [.strs texts]) = some texts :=
  readOnly_unless id (strs?_strs texts)

private theorem parse?_text (status : Status) : Status.parse? status.text = some status := by
  cases status with
  | pass | fail | skip => decide

private theorem frameState_named (state : FrameState) :
    oneOf? FrameState.all FrameState.name (.str state.name) = some state := by
  cases state with
  | ready | running | caseTerminated | sessionTerminated | completed => decide

private theorem verdict_named (verdict : Verdict) :
    oneOf? Verdict.all Verdict.name (.str verdict.name) = some verdict := by
  cases verdict with
  | passed | failed | terminated => decide

end Values

structure Counters.InWords (c : Counters) : Prop where
  done : c.done ≤ maxWord64
  pass : c.pass ≤ maxWord64
  fail : c.fail ≤ maxWord64
  skip : c.skip ≤ maxWord64

structure StepResult.InWords (s : StepResult) : Prop where
  seq : s.seq ≤ maxWord64
  level : s.level ≤ maxWord64
  step : s.step ≤ maxWord64
  parentStep : s.parentStep ≤ maxWord64

structure FrameSummary.InWords (f : FrameSummary) : Prop where
  level : f.level ≤ maxWord64
  parentStep : f.parentStep ≤ maxWord64
  counters : f.counters.InWords
  reportable : f.reportable.InWords
  steps : ∀ s ∈ f.steps, s.InWords

def Event.InWords : Event → Prop
  | .step _ => True
  | .frame f => f.InWords
  | .session s => s.counters.InWords

private theorem Counters.ofJson?_toJson {c : Counters} (h : c.InWords) :
    ofJson? c.toJson = some c := by
  simp [ofJson?, toJson, required_obj, word64?_nat, h.done, h.pass, h.fail, h.skip]

private theorem StepResult.ofJson?_toJson {s : StepResult} (h : s.InWords) :
    ofJson? s.toJson = some s := by
  let raised := (s.exception.map fun e => ("exception", Json.str e)).toList
  have exception : readOnly (some none) (nullable str?)
      (Field.matching ⟨10, ["exception"]⟩ raised) = some s.exception := by
    unfold raised
    cases s.exception with
    | none => rfl
    | some e => rfl
  -- No other field is found in the member of the exception.
  have other {f : Field} (h : f.names.contains "exception" = false) : f.matching raised = [] := by
    unfold raised
    cases s.exception with
    | none => rfl
    | some e => exact matching_cons_of_not_mem h _ []
  have written : s.toJson = .obj s.members := rfl
  have members : s.members = _ ++ raised := rfl
  simp [ofJson?, written, members, unlessEmpty, required_obj, optional_obj, word64?_nat, str?_str,
    h.seq, h.level, h.step, h.parentStep, readOnly_text, parse?_text, readOnly_texts, exception,
    other]

private theorem FrameSummary.ofJson?_members {f : FrameSummary} (h : f.InWords) (kind : Json) :
    ofJson? (.obj (("kind", kind) :: f.members)) = some f := by
  have steps : (f.steps.map StepResult.toJson).mapM StepResult.ofJson? = some f.steps :=
    mapM_written fun s member => StepResult.ofJson?_toJson (h.steps s member)
  simp [ofJson?, members, unlessEmpty, required_obj, optional_obj, word64?_nat, str?_str, arr?,
    h.level, h.parentStep, frameState_named, Counters.ofJson?_toJson h.counters,
    Counters.ofJson?_toJson h.reportable, readOnly_texts, steps]

private theorem SessionSummary.ofJson?_members {s : SessionSummary} (h : s.counters.InWords)
    (kind : Json) :
    ofJson? (.obj (("kind", kind) :: s.members)) = some s := by
  simp [ofJson?, members, required_obj, bool?, str?_str, verdict_named, Counters.ofJson?_toJson h]

namespace Event

def isWritten (e : Event) : Bool :=
  e.line?.isSome

def ofLine? (cs : List Char) : Option Event := do
  let j ← Json.parseChars cs
  match ← (← j.get? "kind").str? with
  | "frame" => (FrameSummary.ofJson? j).map .frame
  | "session" => (SessionSummary.ofJson? j).map .session
  | _ => none

private theorem ofLine?_compact {e : Event} {j : Json} (words : e.InWords)
    (line : e.line? = some j) :
    ofLine? j.compact = some e := by
  have read := parseChars_compact (plain_of_line? line)
  cases e with
  | step s => exact nomatch line
  | frame f =>
    obtain rfl := Option.some.inj line
    simp [ofLine?, read, Json.get?, obj?, str?, FrameSummary.ofJson?_members words]
  | session s =>
    obtain rfl := Option.some.inj line
    simp [ofLine?, read, Json.get?, obj?, str?, SessionSummary.ofJson?_members words]

private theorem map_ofLine?_lines {es : List Event} (words : ∀ e ∈ es, e.InWords) :
    (es.filterMap fun e => e.line?.map Json.compact).map ofLine? =
      (es.filter isWritten).map some := by
  induction es with
  | nil => rfl
  | cons e es ih =>
    have others := ih fun e' member => words e' (List.mem_cons_of_mem e member)
    cases line : e.line? with
    | none => simpa [isWritten, line] using others
    | some j =>
      have first := ofLine?_compact (words e List.mem_cons_self) line
      simpa [isWritten, line, first] using others

/-- A line that is written for an event: it holds no line break before the one at its end, and a
value is read from it. -/
structure OneLine {α : Type} (e : Event) (line : List Char) (read : Json → Option α) (x : α) :
    Prop where
  written : reportChars e = line ++ ['\n']
  feed : '\n' ∉ line
  carriageReturn : '\r' ∉ line
  read : (Json.parseChars line).bind read = some x

private theorem oneLine {α : Type} {e : Event} {j : Json} {read : Json → Option α} {x : α}
    (line : e.line? = some j) (h : read j = some x) : OneLine e j.compact read x := by
  have plain := plain_of_line? line
  refine ⟨?_, plain.printable.feed_not_mem, ?_, ?_⟩
  · rw [reportChars, line]
  · intro member
    exact absurd (plain.printable _ member) (by decide)
  · rw [parseChars_compact plain, Option.bind_some, h]

/-- A report loses nothing: every line is a single one and is read back as what it was written for.
-/
theorem reports_read_back (es : List Event) (words : ∀ e ∈ es, e.InWords) :
    (∀ f, .frame f ∈ es → OneLine (.frame f) f.line FrameSummary.ofJson? f) ∧
    (∀ s, .session s ∈ es → OneLine (.session s) s.line SessionSummary.ofJson? s) ∧
    (byteLines (reportText es).toUTF8.toList).map (fun line => line.bind ofLine?) =
      (es.filter isWritten).map some := by
  refine ⟨?_, ?_, ?_⟩
  · intro f member
    exact oneLine rfl (FrameSummary.ofJson?_members (words _ member) _)
  · intro s member
    exact oneLine rfl (SessionSummary.ofJson?_members (words _ member) _)
  · rw [byteLines_toUTF8, textLines, lines_reportText, List.map_map]
    exact map_ofLine?_lines words

def brokenStep : StepResult where
  seq := maxWord64
  level := maxWord64
  step := maxWord64
  parentStep := 0
  id := "\r\n"
  action := "a\tb \"c\" \\"
  status := .fail
  errors := ["", "first\nsecond"]
  exception := some ""

def brokenProgram : FrameSummary where
  program := "\n"
  level := maxWord64
  parentStep := maxWord64
  state := .caseTerminated
  counters := ⟨1, 0, 1, 0⟩
  reportable := ⟨maxWord64, 0, maxWord64, 0⟩
  comments := ["\x00", "é→"]
  steps := [brokenStep]

def brokenSession : SessionSummary :=
  .of "\n" ⟨1, 0, 1, 0⟩ true

theorem brokenReport_read_back :
    let es := [.step brokenStep, .frame brokenProgram, .session brokenSession]
    (∀ e ∈ es, e.InWords) ∧
    OneLine (.frame brokenProgram) brokenProgram.line FrameSummary.ofJson? brokenProgram ∧
    OneLine (.session brokenSession) brokenSession.line SessionSummary.ofJson? brokenSession ∧
    (byteLines (reportText es).toUTF8.toList).map (fun line => line.bind ofLine?) =
      [some (.frame brokenProgram), some (.session brokenSession)] := by
  intro es
  have largest : maxWord64 ≤ maxWord64 := Nat.le_refl maxWord64
  have few : (⟨1, 0, 1, 0⟩ : Counters).InWords := ⟨by decide, by decide, by decide, by decide⟩
  have step : brokenStep.InWords := ⟨largest, largest, largest, by decide⟩
  have program : brokenProgram.InWords := by
    refine ⟨largest, largest, few, ⟨largest, by decide, largest, by decide⟩, ?_⟩
    rintro s member
    rw [List.mem_singleton.1 member]
    exact step
  have words : ∀ e ∈ es, e.InWords := by
    simp only [es, List.forall_mem_cons]
    exact ⟨trivial, program, few, nofun⟩
  obtain ⟨frames, sessions, lines⟩ := reports_read_back es words
  exact ⟨words, frames _ (by simp [es]), sessions _ (by simp [es]), lines⟩

end Event

end Runbook
