import Runbook.Proofs.Text.LineEndings
import Runbook.Row.Source

set_option autoImplicit false

/-!
Rows as JSON Lines, line by line. Every line that is not blank gives one item: its row, or an error
with the number of the line, for which blank lines and bad ones count as well. Blanks around a line
do not matter, and blank lines that are put in change only the numbers of the errors after them.
-/
namespace Runbook.Row

open Text

def jsonlItems (s : String) : List (Except ReadError Row) :=
  readJsonl (byteLines s.toUTF8.toList)

/-- What the line with that number gives: the row whose JSON it is, or else an error. -/
def lineItem (number : Nat) (l : List Char) : Except ReadError Row :=
  match (Json.parseChars (trim l)).bind ofJson? with
  | some row => .ok row
  | none => .error (.notJson number)

/-- What lines give that are not blank, the first line having that number. -/
def lineItems (number : Nat) (ls : List (List Char)) : List (Except ReadError Row) :=
  ((ls.zipIdx number).filter fun l => !allBlank l.1).map fun l => lineItem l.2 l.1

def ReadError.later (k : Nat) : ReadError → ReadError
  | .notText => .notText
  | .notJson number => .notJson (number + k)

variable {number : Nat} {l : List Char} {ls : List (List Char)}

private theorem lineItems_cons_of_blank (blank : allBlank l = true) (number : Nat)
    (ls : List (List Char)) : lineItems number (l :: ls) = lineItems (number + 1) ls := by
  simp [lineItems, blank]

private theorem lineItems_cons_of_solid (solid : allBlank l = false) (number : Nat)
    (ls : List (List Char)) :
    lineItems number (l :: ls) = lineItem number l :: lineItems (number + 1) ls := by
  simp [lineItems, solid]

private theorem lineItems_append (number : Nat) (ls ls' : List (List Char)) :
    lineItems number (ls ++ ls') = lineItems number ls ++ lineItems (number + ls.length) ls' := by
  simp only [lineItems, List.zipIdx_append, List.filter_append, List.map_append]

private theorem lineItems_of_blank (blank : ∀ l ∈ ls, allBlank l = true) (number : Nat) :
    lineItems number ls = [] := by
  induction ls generalizing number with
  | nil => rfl
  | cons l ls ih =>
    rw [List.forall_mem_cons] at blank
    rw [lineItems_cons_of_blank blank.1]
    exact ih blank.2 (number + 1)

private theorem readJsonlFrom_lines (number : Nat) (ls : List (List Char)) :
    readJsonlFrom number (ls.map some) = lineItems (number + 1) ls := by
  induction ls generalizing number with
  | nil => rfl
  | cons l ls ih =>
    rw [List.map_cons, readJsonlFrom, ih]
    cases blank : allBlank l with
    | true => rw [lineItems_cons_of_blank blank, if_pos rfl]
    | false =>
      rw [lineItems_cons_of_solid blank, if_neg Bool.false_ne_true, lineItem]
      cases (Json.parseChars (trim l)).bind ofJson? with
      | none => rfl
      | some row => rfl

private theorem jsonlItems_of_lines {s : String} (h : HasLines s.toList ls) :
    jsonlItems s = lineItems 1 ls := by
  rw [jsonlItems, h.byteLines_eq, readJsonl, readJsonlFrom_lines]

private theorem lineItem_later (number k : Nat) (l : List Char) :
    lineItem (number + k) l = (lineItem number l).mapError (ReadError.later k) := by
  unfold lineItem
  cases (Json.parseChars (trim l)).bind ofJson? with
  | none => rfl
  | some row => rfl

private theorem lineItems_later (number k : Nat) (ls : List (List Char)) :
    lineItems (number + k) ls =
      (lineItems number ls).map (Except.mapError (ReadError.later k)) := by
  induction ls generalizing number with
  | nil => rfl
  | cons l ls ih =>
    have rest := ih (number + 1)
    rw [Nat.add_right_comm] at rest
    cases blank : allBlank l with
    | true => rw [lineItems_cons_of_blank blank, lineItems_cons_of_blank blank, rest]
    | false =>
      rw [lineItems_cons_of_solid blank, lineItems_cons_of_solid blank, rest, lineItem_later,
        List.map_cons]

private theorem lineItems_of_padded {ls' : List (List Char)} (h : List.Forall₂ Padded ls ls')
    (number : Nat) : lineItems number ls' = lineItems number ls := by
  induction h generalizing number with
  | nil => rfl
  | @cons l l' ls ls' padded _ ih =>
    have same : trim l' = trim l := padded.trim_eq
    have blank : allBlank l' = allBlank l := by
      rw [Bool.eq_iff_iff, ← trim_eq_nil_iff, ← trim_eq_nil_iff, same]
    cases own : allBlank l with
    | true =>
      rw [lineItems_cons_of_blank own, lineItems_cons_of_blank (blank.trans own), ih]
    | false =>
      rw [lineItems_cons_of_solid own, lineItems_cons_of_solid (blank.trans own), ih, lineItem,
        lineItem, same]

/-- An item is the same as another, except that its line may stand later. -/
def NotBefore (item item' : Except ReadError Row) : Prop :=
  ∃ k, item' = item.mapError (ReadError.later k)

private theorem lineItems_of_interspersed {ls' : List (List Char)}
    (h : Interspersed (fun l => allBlank l = true) ls ls') (number k : Nat) :
    List.Forall₂ NotBefore (lineItems number ls) (lineItems (number + k) ls') := by
  induction h generalizing number k with
  | nil => exact .nil
  | @keep ls ls' l _ ih =>
    have rest := ih (number + 1) k
    rw [Nat.add_right_comm] at rest
    cases blank : allBlank l with
    | true =>
      rw [lineItems_cons_of_blank blank, lineItems_cons_of_blank blank]
      exact rest
    | false =>
      rw [lineItems_cons_of_solid blank, lineItems_cons_of_solid blank]
      exact .cons ⟨k, lineItem_later number k l⟩ rest
  | insert blank _ ih =>
    rw [lineItems_cons_of_blank blank]
    exact ih number (k + 1)

/-- The lines of a text are accounted for one by one, and errors tell their numbers among all lines.
-/
theorem jsonl_lines_accounted_for (s : String) :
    ∃ ls, HasLines s.toList ls ∧ jsonlItems s = lineItems 1 ls ∧
      jsonlItems (s ++ "\n") = jsonlItems s ∧
      (∀ s' ls', HasLines s'.toList ls' → List.Forall₂ Padded ls ls' →
        jsonlItems s' = jsonlItems s) ∧
      (∀ s' ls', HasLines s'.toList ls' → Interspersed (fun l => allBlank l = true) ls ls' →
        List.Forall₂ NotBefore (jsonlItems s) (jsonlItems s')) ∧
      ∀ s' before blanks after, ls = before ++ after → (∀ l ∈ blanks, allBlank l = true) →
        HasLines s'.toList (before ++ blanks ++ after) →
          ∃ items, jsonlItems s = lineItems 1 before ++ items ∧
            jsonlItems s' = lineItems 1 before ++
              items.map (Except.mapError (ReadError.later blanks.length)) := by
  have lines := hasLines_lines s.toList
  generalize Text.lines s.toList = ls at lines
  have items := jsonlItems_of_lines lines
  refine ⟨ls, lines, items, ?_, ?_, ?_, ?_⟩
  · rw [items]
    rcases lines.ended with same | longer
    · exact jsonlItems_of_lines same
    · have empty : lineItems (1 + ls.length) [[]] = [] := lineItems_cons_of_blank rfl _ []
      rw [jsonlItems_of_lines longer, lineItems_append, empty, List.append_nil]
  · intro s' ls' lines' padded
    rw [jsonlItems_of_lines lines', items, lineItems_of_padded padded]
  · intro s' ls' lines' blanks
    rw [jsonlItems_of_lines lines', items]
    exact lineItems_of_interspersed blanks 1 0
  · rintro s' before blanks after rfl blank lines'
    refine ⟨lineItems (1 + before.length) after, ?_, ?_⟩
    · rw [items, lineItems_append]
    · rw [jsonlItems_of_lines lines', lineItems_append, lineItems_append, lineItems_of_blank blank,
        List.append_nil, List.length_append, ← Nat.add_assoc, lineItems_later]

def mixedText : String :=
  "\n[\"1\",\"Comment\"]\nbad"

def paddedText : String :=
  "\r\n  [\"1\",\"Comment\"]\t\r\nbad"

def spacedText : String :=
  "\n[\"1\",\"Comment\"]\n\n \nbad"

theorem mixedText_accounted_for :
    let row : Row := { id := "1", action := "Comment" }
    jsonlItems mixedText = [.ok row, .error (.notJson 3)] ∧
      jsonlItems (mixedText ++ "\n") = [.ok row, .error (.notJson 3)] ∧
      jsonlItems paddedText = [.ok row, .error (.notJson 3)] ∧
      List.Forall₂ NotBefore (jsonlItems mixedText) (jsonlItems spacedText) ∧
      jsonlItems spacedText = [.ok row, .error (.notJson 5)] := by
  intro row
  obtain ⟨ls, lines, items, ended, padded, interspersed, raised⟩ :=
    jsonl_lines_accounted_for mixedText
  obtain rfl : ls = [[], "[\"1\",\"Comment\"]".toList, "bad".toList] := by
    rw [← lines.lines_eq]
    decide +kernel
  have read : jsonlItems mixedText = [.ok row, .error (.notJson 3)] := by
    rw [items]
    decide +kernel
  have spaced : HasLines spacedText.toList
      ([[], "[\"1\",\"Comment\"]".toList] ++ [[], [' ']] ++ ["bad".toList]) := by
    have cut : Text.lines spacedText.toList =
        [[], "[\"1\",\"Comment\"]".toList] ++ [[], [' ']] ++ ["bad".toList] := by
      decide +kernel
    rw [← cut]
    exact hasLines_lines _
  refine ⟨read, ended.trans read, ?_, ?_, ?_⟩
  · refine (padded paddedText _ (hasLines_lines _) ?_).trans read
    have cut : Text.lines paddedText.toList =
        [['\r'], "  [\"1\",\"Comment\"]\t\r".toList, "bad".toList] := by
      decide +kernel
    rw [cut]
    refine .cons ⟨[], ['\r'], rfl, by decide, rfl⟩ (.cons ?_ (.cons ?_ .nil))
    · exact ⟨[' ', ' '], ['\t', '\r'], by decide, by decide, by decide +kernel⟩
    · exact ⟨[], [], rfl, rfl, by decide +kernel⟩
  · refine interspersed spacedText _ spaced (.keep _ (.keep _ (.insert rfl (.insert ?_ ?_))))
    · decide
    · exact .keep _ .nil
  · obtain ⟨later, before, after⟩ := raised spacedText [[], "[\"1\",\"Comment\"]".toList]
      [[], [' ']] ["bad".toList] rfl (by decide) spaced
    have first : lineItems 1 [[], "[\"1\",\"Comment\"]".toList] = [.ok row] := by decide +kernel
    rw [first] at before after
    obtain ⟨-, rfl⟩ := List.cons.inj (before.symm.trans read)
    rw [after]
    rfl

end Runbook.Row
