import Runbook.Proofs.Text.LineEndings
import Runbook.Row.Source

set_option autoImplicit false

/-!
Rows in columns, line by line. Lines that are blank or comments are passed over. Every other line
holds one row, its columns being what stands between tabs, and the first such row may be the header.
So it does not matter where lines that are passed over stand, nor how lines are ended.
-/
namespace Runbook.Row

open Text

def tsvItems (s : String) : List (Except ReadError Row) :=
  readTsv (byteLines s.toUTF8.toList)

/-- A line that is blank, or whose first character that is not blank is `#`. -/
def PassedOver (l : List Char) : Prop :=
  ∀ c ∈ l.find? fun c => !isBlank c, c = '#'

instance (l : List Char) : Decidable (PassedOver l) :=
  decidable_of_iff ((l.find? fun c => !isBlank c).all (· == '#') = true)
    (by simp [PassedOver, Option.all_eq_true])

/-- The columns of a line: they stand between tabs, before the carriage returns at its end. -/
structure HasColumns (l : List Char) (columns : List (List Char)) : Prop where
  nonempty : columns ≠ []
  apart : ∀ column ∈ columns, '\t' ∉ column
  ending : (joinAt '\t' columns).getLast? ≠ some '\r'
  returns : ∃ k, l = joinAt '\t' columns ++ List.replicate k '\r'

/-- A line holds the row whose eight fields are its first columns, empty where there are fewer. -/
def Holds (l : List Char) (row : Row) : Prop :=
  ∃ columns, HasColumns l columns ∧ row.fields = (columns.map String.ofList).takeD 8 ""

/-- Whether a row names the columns, its action being the word for that column. -/
def NamesFields (row : Row) : Prop :=
  lowered row.actionName = "action"

def tableLines (ls : List (List Char)) : List (List Char) :=
  ls.filter fun l => ¬PassedOver l

/-- A table has a header when the first row in it names the columns. -/
def Headed (ls : List (List Char)) : Prop :=
  ∃ l ∈ (tableLines ls).head?, ∃ row, Holds l row ∧ row.NamesFields

instance (row : Row) : Decidable row.NamesFields :=
  inferInstanceAs (Decidable (lowered row.actionName = "action"))

def ofLine (l : List Char) : Row :=
  ofFields ((splitAt '\t' (dropReturns l)).map String.ofList)

variable {l after : List Char} {columns : List (List Char)} {ls ls' : List (List Char)}

section Lines

private theorem passedOver_append (blank : allBlank after = true) :
    PassedOver (l ++ after) ↔ PassedOver l := by
  have nothing : (after.find? fun c => !isBlank c) = none := by
    simpa [allBlank] using blank
  rw [PassedOver, PassedOver, List.find?_append, nothing, Option.or_none]

private theorem isComment_eq_false_iff (l : List Char) :
    isComment l = false ↔ ∃ c ∈ l.find? fun c => !isBlank c, c ≠ '#' := by
  have first : l.find? (fun c => !isBlank c) = (trimStart l).head? := by
    rw [List.find?_eq_head?_dropWhile_not]
    simp [trimStart]
  have blank : allBlank l = true ↔ (trimStart l).head? = none := by
    rw [← trimStart_eq_nil_iff, List.head?_eq_none_iff]
  rw [first, isComment, Bool.or_eq_false_iff, ← Bool.not_eq_true, blank]
  cases (trimStart l).head? with
  | none => simp
  | some c => simp

private theorem isComment_dropReturns (l : List Char) :
    isComment (dropReturns l) = true ↔ PassedOver l := by
  obtain ⟨after, ends, split⟩ := exists_trimEndOf (fun c => c == '\r' || c == '\n') l
  have blank : allBlank after = true := by
    rw [allBlank_iff]
    intro c member
    have ending := ends c member
    simp only [Bool.or_eq_true, beq_iff_eq] at ending
    rcases ending with rfl | rfl
    · decide
    · decide
  have same : PassedOver l ↔ PassedOver (dropReturns l) := by
    conv_lhs => rw [split]
    exact passedOver_append blank
  rw [same, ← Bool.not_eq_false, isComment_eq_false_iff, PassedOver]
  simp

private theorem hasColumns_iff (single : '\n' ∉ l) :
    HasColumns l columns ↔ splitAt '\t' (dropReturns l) = columns := by
  constructor
  · rintro ⟨nonempty, apart, ending, k, rfl⟩
    have returns : ∀ c ∈ List.replicate k '\r', (c == '\r' || c == '\n') = true := by
      intro c member
      rw [List.eq_of_mem_replicate member]
      rfl
    have kept : dropReturns (joinAt '\t' columns) = joinAt '\t' columns := by
      rw [dropReturns, trimEndOf_eq_self_iff]
      intro c last
      have feed : c ≠ '\n' := by
        rintro rfl
        exact single (List.mem_append_left _ (List.mem_of_getLast? last))
      have other : c ≠ '\r' := by
        rintro rfl
        exact ending last
      simp [feed, other]
    rw [dropReturns, trimEndOf_append_of_all returns, ← dropReturns, kept,
      splitAt_joinAt nonempty apart]
  · rintro rfl
    obtain ⟨after, ends, split⟩ := exists_trimEndOf (fun c => c == '\r' || c == '\n') l
    have returns : after = List.replicate after.length '\r' := by
      rw [List.eq_replicate_iff]
      refine ⟨rfl, fun c member => ?_⟩
      have feed : c ≠ '\n' := by
        rintro rfl
        exact single (split ▸ List.mem_append_right _ member)
      simpa [feed] using ends c member
    refine ⟨splitAt_ne_nil _ _, fun column member => not_mem_of_mem_splitAt member, ?_, ?_⟩
    · rw [joinAt_splitAt]
      intro last
      have kept := trimEndOf_trimEndOf (fun c => c == '\r' || c == '\n') l
      exact absurd (trimEndOf_eq_self_iff.1 kept '\r' last) (by decide)
    · refine ⟨after.length, ?_⟩
      rw [joinAt_splitAt, ← returns]
      exact split

private theorem fields_ofFields (fs : List String) : (ofFields fs).fields = fs.takeD 8 "" := by
  rcases fs with _ | ⟨_, _ | ⟨_, _ | ⟨_, _ | ⟨_, _ | ⟨_, _ | ⟨_, _ | ⟨_, _ | ⟨_, _⟩⟩⟩⟩⟩⟩⟩⟩
  all_goals rfl

private theorem fields_injective {row row' : Row} (same : row.fields = row'.fields) :
    row = row' := by
  rw [← ofFields_fields row, same, ofFields_fields]

private theorem holds_iff (single : '\n' ∉ l) {row : Row} : Holds l row ↔ row = ofLine l := by
  constructor
  · rintro ⟨columns, cut, fields⟩
    obtain rfl := (hasColumns_iff single).1 cut
    exact fields_injective (fields.trans (fields_ofFields _).symm)
  · rintro rfl
    exact ⟨_, (hasColumns_iff single).2 rfl, fields_ofFields _⟩

private theorem isHeader_iff (columns : List (List Char)) :
    isHeader columns = true ↔ (ofFields (columns.map String.ofList)).NamesFields := by
  have action : (ofFields (columns.map String.ofList)).action =
      ((columns.map String.ofList)[1]?).getD "" := rfl
  rw [isHeader, NamesFields, actionName, action, List.getElem?_map]
  cases columns[1]? with
  | none => decide
  | some f =>
    simp [trimmed, lowered, ← String.toList_inj]

end Lines

section Tables

private theorem tableLines_cons_of_passedOver (passed : PassedOver l) (ls : List (List Char)) :
    tableLines (l :: ls) = tableLines ls :=
  List.filter_cons_of_neg (by simpa using passed)

private theorem tableLines_cons_of_not (solid : ¬PassedOver l) (ls : List (List Char)) :
    tableLines (l :: ls) = l :: tableLines ls :=
  List.filter_cons_of_pos (by simpa using solid)

private theorem tableLines_of_interspersed (h : Interspersed PassedOver ls ls') :
    tableLines ls' = tableLines ls := by
  induction h with
  | nil => rfl
  | @keep ls ls' l _ ih =>
    by_cases passed : PassedOver l
    · rw [tableLines_cons_of_passedOver passed, tableLines_cons_of_passedOver passed, ih]
    · rw [tableLines_cons_of_not passed, tableLines_cons_of_not passed, ih]
  | insert passed _ ih => rw [tableLines_cons_of_passedOver passed, ih]

private theorem rows_of_returns (h : List.Forall₂ (fun l l' => l' = l ∨ l' = l ++ ['\r']) ls ls') :
    (tableLines ls').map ofLine = (tableLines ls).map ofLine := by
  induction h with
  | nil => rfl
  | @cons l l' ls ls' ends _ ih =>
    have same : (PassedOver l' ↔ PassedOver l) ∧ ofLine l' = ofLine l := by
      rcases ends with rfl | rfl
      · exact ⟨Iff.rfl, rfl⟩
      · refine ⟨passedOver_append (by decide), ?_⟩
        rw [ofLine, ofLine, dropReturns, dropReturns, trimEndOf_append_of_all (by simp)]
    by_cases passed : PassedOver l
    · rw [tableLines_cons_of_passedOver passed, tableLines_cons_of_passedOver (same.1.2 passed), ih]
    · rw [tableLines_cons_of_not passed, tableLines_cons_of_not (mt same.1.1 passed), List.map_cons,
        List.map_cons, same.2, ih]

def withoutHeader : List Row → List Row
  | [] => []
  | row :: rows => if row.NamesFields then rows else row :: rows

theorem withoutHeader_subset (rows : List Row) : withoutHeader rows ⊆ rows := by
  cases rows with
  | nil => exact List.Subset.refl []
  | cons row rows =>
    rw [withoutHeader]
    split
    · exact List.subset_cons_self row rows
    · exact List.Subset.refl _

private theorem readTsvFrom_cons_of_passedOver (passed : PassedOver l) (seen : Bool)
    (rest : List Line) :
    readTsvFrom seen (some l :: rest) = readTsvFrom seen rest := by
  simp only [readTsvFrom, (isComment_dropReturns l).2 passed, if_true]

private theorem readTsvFrom_cons_of_not (solid : ¬PassedOver l) (seen : Bool) (rest : List Line) :
    readTsvFrom seen (some l :: rest) =
      if seen = false ∧ (ofLine l).NamesFields then readTsvFrom true rest
      else .ok (ofLine l) :: readTsvFrom true rest := by
  have row := isHeader_iff (splitAt '\t' (dropReturns l))
  rw [← ofLine] at row
  simp only [readTsvFrom, mt (isComment_dropReturns l).1 solid, Bool.and_eq_true, row,
    Bool.not_eq_true']
  rfl

theorem readTsvFrom_true (ls : List (List Char)) :
    readTsvFrom true (ls.map some) = ((tableLines ls).map ofLine).map .ok := by
  induction ls with
  | nil => rfl
  | cons l ls ih =>
    rw [List.map_cons]
    by_cases passed : PassedOver l
    · rw [readTsvFrom_cons_of_passedOver passed, tableLines_cons_of_passedOver passed, ih]
    · rw [readTsvFrom_cons_of_not passed, if_neg (by simp), tableLines_cons_of_not passed, ih]
      rfl

theorem readTsvFrom_false (ls : List (List Char)) :
    readTsvFrom false (ls.map some) = (withoutHeader ((tableLines ls).map ofLine)).map .ok := by
  induction ls with
  | nil => rfl
  | cons l ls ih =>
    rw [List.map_cons]
    by_cases passed : PassedOver l
    · rw [readTsvFrom_cons_of_passedOver passed, tableLines_cons_of_passedOver passed, ih]
    · rw [readTsvFrom_cons_of_not passed, tableLines_cons_of_not passed, List.map_cons,
        withoutHeader, readTsvFrom_true]
      by_cases names : (ofLine l).NamesFields
      · rw [if_pos ⟨rfl, names⟩, if_pos names]
      · rw [if_neg (mt And.right names), if_neg names]
        rfl

private theorem tsvItems_of_lines {s : String} (h : HasLines s.toList ls) :
    tsvItems s = (withoutHeader ((tableLines ls).map ofLine)).map .ok := by
  rw [tsvItems, h.byteLines_eq, readTsv, readTsvFrom_false]

private theorem forall₂_holds (single : ∀ l ∈ ls, '\n' ∉ l) :
    List.Forall₂ Holds (tableLines ls) ((tableLines ls).map ofLine) := by
  rw [List.forall₂_map_right_iff, List.forall₂_same]
  intro l member
  exact (holds_iff (single l (List.mem_of_mem_filter member))).2 rfl

private theorem headed_iff (single : ∀ l ∈ ls, '\n' ∉ l) :
    Headed ls ↔ ∃ row ∈ ((tableLines ls).map ofLine).head?, row.NamesFields := by
  have lone : ∀ l ∈ (tableLines ls).head?, '\n' ∉ l := by
    intro l first
    exact single l (List.mem_of_mem_filter (List.mem_of_head? first))
  rw [Headed, List.head?_map]
  cases first : (tableLines ls).head? with
  | none => simp
  | some l => simp [holds_iff (lone l first)]

private theorem withoutHeader_of_headed {rows : List Row}
    (h : ∃ row ∈ rows.head?, row.NamesFields) :
    withoutHeader rows = rows.tail := by
  obtain ⟨row, first, names⟩ := h
  obtain ⟨rest, rfl⟩ := List.head?_eq_some_iff.1 first
  rw [withoutHeader, if_pos names, List.tail_cons]

private theorem withoutHeader_of_not_headed {rows : List Row}
    (h : ¬∃ row ∈ rows.head?, row.NamesFields) : withoutHeader rows = rows := by
  cases rows with
  | nil => rfl
  | cons row rest => rw [withoutHeader, if_neg fun names => h ⟨row, rfl, names⟩]

end Tables

/-- The lines of a table are accounted for one by one, and only the first of them may name the
columns. -/
theorem tsv_lines_accounted_for (s : String) :
    ∃ ls rows, HasLines s.toList ls ∧ List.Forall₂ Holds (tableLines ls) rows ∧
      (Headed ls → tsvItems s = rows.tail.map .ok) ∧
      (¬Headed ls → tsvItems s = rows.map .ok) ∧
      (∀ s' ls', HasLines s'.toList ls' → Interspersed PassedOver ls ls' →
        tsvItems s' = tsvItems s ∧ (Headed ls' ↔ Headed ls)) ∧
      tsvItems (String.ofList (withReturns s.toList)) = tsvItems s ∧
      tsvItems (s ++ "\n") = tsvItems s := by
  have lines := hasLines_lines s.toList
  generalize Text.lines s.toList = ls at lines
  have items := tsvItems_of_lines lines
  have headed := headed_iff lines.single
  refine ⟨ls, (tableLines ls).map ofLine, lines, forall₂_holds lines.single, ?_, ?_, ?_, ?_, ?_⟩
  · intro header
    rw [items, withoutHeader_of_headed (headed.1 header)]
  · intro headless
    rw [items, withoutHeader_of_not_headed (mt headed.2 headless)]
  · intro s' ls' lines' passed
    have same : tableLines ls' = tableLines ls := tableLines_of_interspersed passed
    refine ⟨?_, ?_⟩
    · rw [tsvItems_of_lines lines', items, same]
    · rw [Headed, Headed, same]
  · obtain ⟨ls', lines', ends⟩ := lines.withReturns
    rw [← String.toList_ofList (l := withReturns s.toList)] at lines'
    rw [tsvItems_of_lines lines', items, rows_of_returns ends]
  · rcases lines.ended with same | longer
    · rw [tsvItems_of_lines same, items]
    · have empty : tableLines (ls ++ [[]]) = tableLines ls := by
        rw [tableLines, List.filter_append]
        exact List.append_nil _
      rw [tsvItems_of_lines longer, items, empty]

def plainTable : String :=
  "id\tAction\n1\tComment\nextra"

def remarkedTable : String :=
  "# rows\n\t\nid\tAction\n1\tComment\n # more\nextra\n#"

theorem plainTable_accounted_for :
    let items := [.ok { id := "1", action := "Comment" }, .ok { id := "extra" }]
    tsvItems plainTable = items ∧ tsvItems remarkedTable = items ∧
      tsvItems "id\tAction\r\n1\tComment\r\nextra" = items ∧
      tsvItems "id\tAction\n1\tComment\nextra\n" = items := by
  intro items
  obtain ⟨ls, rows, lines, holds, header, -, remarked, returns, ended⟩ :=
    tsv_lines_accounted_for plainTable
  obtain rfl : ls = ["id\tAction".toList, "1\tComment".toList, "extra".toList] := by
    rw [← lines.lines_eq]
    decide +kernel
  have headed := (headed_iff lines.single).2 (by decide +kernel)
  have read : tsvItems plainTable = items := by
    have table : tableLines ["id\tAction".toList, "1\tComment".toList, "extra".toList] =
        ["id\tAction".toList, "1\tComment".toList, "extra".toList] := by
      decide +kernel
    rw [table] at holds
    obtain _ | ⟨-, _ | ⟨first, _ | ⟨second, _ | _⟩⟩⟩ := holds
    rw [header headed, List.tail_cons, (holds_iff (by decide +kernel)).1 first,
      (holds_iff (by decide +kernel)).1 second]
    decide +kernel
  refine ⟨read, ?_, ?_, ended.trans read⟩
  · refine (remarked remarkedTable _ (hasLines_lines _) ?_).1.trans read
    have cut : Text.lines remarkedTable.toList = ["# rows".toList, ['\t'], "id\tAction".toList,
        "1\tComment".toList, " # more".toList, "extra".toList, ['#']] := by
      decide +kernel
    rw [cut]
    refine .insert (by decide +kernel) (.insert (by decide +kernel) (.keep _ (.keep _ ?_)))
    exact .insert (by decide +kernel) (.keep _ (.insert (by decide +kernel) .nil))
  · rw [← read, ← returns]
    congr 1

end Runbook.Row
