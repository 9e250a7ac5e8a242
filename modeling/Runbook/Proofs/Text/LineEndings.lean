import Mathlib.Data.List.Forall2
import Runbook.Proofs.Text.Blank
import Runbook.Proofs.Text.Line

set_option autoImplicit false

/-!
Texts and the lines they consist of. A text has exactly one list of lines, which is what a file with
that text is cut into. Ending the last line, or ending every line with a carriage return before its
line feed, changes the lines in the way that is stated here, and so do blanks around a line and
lines that are put in between others.
-/
namespace Runbook.Text

/-- The lines that a text consists of: each is ended by a line feed, but the last line may go
without one unless it is empty. -/
inductive HasLines : List Char → List (List Char) → Prop
  | nil : HasLines [] []
  | last {l : List Char} : l ≠ [] → '\n' ∉ l → HasLines l [l]
  | cons {l rest : List Char} {ls : List (List Char)} : '\n' ∉ l → HasLines rest ls →
      HasLines (l ++ '\n' :: rest) (l :: ls)

/-- A list with members of a class put in, in any places. -/
inductive Interspersed {α : Type} (p : α → Prop) : List α → List α → Prop
  | nil : Interspersed p [] []
  | keep {l l' : List α} (a : α) : Interspersed p l l' → Interspersed p (a :: l) (a :: l')
  | insert {l l' : List α} {a : α} : p a → Interspersed p l l' → Interspersed p l (a :: l')

/-- A line with blanks put around it, such as a carriage return before its line feed. -/
def Padded (l l' : List Char) : Prop :=
  ∃ before after, allBlank before = true ∧ allBlank after = true ∧ l' = before ++ l ++ after

def withReturns (cs : List Char) : List Char :=
  cs.flatMap fun c => if c = '\n' then ['\r', '\n'] else [c]

variable {cs : List Char} {ls : List (List Char)}

section Lines

theorem HasLines.lines_eq (h : HasLines cs ls) : lines cs = ls := by
  induction h with
  | nil => rfl
  | last nonempty single => simp [lines, splitAt_of_not_mem single, nonempty]
  | cons single _ ih => rw [lines_append_cons single, ih]

theorem hasLines_lines (cs : List Char) : HasLines cs (lines cs) := by
  by_cases feed : '\n' ∈ cs
  · obtain ⟨first, rest, split, single⟩ := List.eq_append_cons_of_mem feed
    rw [split, lines_append_cons single]
    exact .cons single (hasLines_lines rest)
  · cases cs with
    | nil => exact .nil
    | cons c cs =>
      have whole : lines (c :: cs) = [c :: cs] := by simp [lines, splitAt_of_not_mem feed]
      rw [whole]
      exact .last (List.cons_ne_nil c cs) feed
termination_by cs.length
decreasing_by
  rw [split, List.length_append, List.length_cons]
  omega

theorem HasLines.single (h : HasLines cs ls) : ∀ l ∈ ls, '\n' ∉ l := by
  rw [← h.lines_eq]
  exact fun l => not_mem_of_mem_lines

/-- A file that holds a text is cut into the lines of the text. -/
theorem HasLines.byteLines_eq {s : String} (h : HasLines s.toList ls) :
    byteLines s.toUTF8.toList = ls.map some := by
  rw [byteLines_toUTF8, textLines, h.lines_eq]

private theorem HasLines.append_feed (h : HasLines cs ls) :
    HasLines (cs ++ ['\n']) ls ∨ HasLines (cs ++ ['\n']) (ls ++ [[]]) := by
  induction h with
  | nil => exact .inr (.cons List.not_mem_nil .nil)
  | last _ single => exact .inl (.cons single .nil)
  | @cons l rest ls single _ ih =>
    rw [List.append_assoc, List.cons_append]
    rcases ih with same | longer
    · exact .inl (.cons single same)
    · exact .inr (.cons single longer)

theorem HasLines.ended {s : String} (h : HasLines s.toList ls) :
    HasLines (s ++ "\n").toList ls ∨ HasLines (s ++ "\n").toList (ls ++ [[]]) := by
  have text : (s ++ "\n").toList = s.toList ++ ['\n'] := String.toList_append
  rw [text]
  exact h.append_feed

end Lines

section Returns

private theorem withReturns_of_not_mem (h : '\n' ∉ cs) : withReturns cs = cs := by
  induction cs with
  | nil => rfl
  | cons c cs ih =>
    rw [List.mem_cons, not_or] at h
    have later : withReturns cs = cs := ih h.2
    rw [withReturns, List.flatMap_cons, if_neg (Ne.symm h.1)]
    exact congrArg (c :: ·) later

private theorem withReturns_append_cons (h : '\n' ∉ cs) (rest : List Char) :
    withReturns (cs ++ '\n' :: rest) = (cs ++ ['\r']) ++ '\n' :: withReturns rest := by
  have first := withReturns_of_not_mem h
  simp only [withReturns] at first ⊢
  rw [List.flatMap_append, first, List.flatMap_cons, if_pos rfl]
  simp

theorem HasLines.withReturns (h : HasLines cs ls) :
    ∃ ls', HasLines (withReturns cs) ls' ∧
      List.Forall₂ (fun l l' => l' = l ∨ l' = l ++ ['\r']) ls ls' := by
  induction h with
  | nil => exact ⟨[], .nil, .nil⟩
  | @last l nonempty single =>
    rw [withReturns_of_not_mem single]
    exact ⟨[l], .last nonempty single, .cons (.inl rfl) .nil⟩
  | @cons l rest ls single _ ih =>
    obtain ⟨ls', lines, ends⟩ := ih
    rw [withReturns_append_cons single]
    exact ⟨(l ++ ['\r']) :: ls', .cons (by simp [single]) lines, .cons (.inr rfl) ends⟩

end Returns

theorem Padded.trim_eq {l l' : List Char} (h : Padded l l') : trim l' = trim l := by
  obtain ⟨before, after, blank, blank', rfl⟩ := h
  rw [trim_append_right_of_allBlank blank', trim_append_of_allBlank blank]

end Runbook.Text
