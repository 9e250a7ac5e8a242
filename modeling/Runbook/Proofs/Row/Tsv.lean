import Runbook.Proofs.Row.Columns

set_option autoImplicit false

/-!
Rows as tab-separated lines. A row stands on one line, and is read from that line as it was, exactly
when no field has a tab or a line feed in it, no carriage return ends the line, and the line is
neither blank nor a comment. What is written starts with a header, so that no row is taken for one.
-/
namespace Runbook.Row

open Text

/-- No field breaks the line or starts another column. -/
def Unbroken (r : Row) : Prop :=
  ∀ field ∈ r.fields, '\t' ∉ field.toList ∧ '\n' ∉ field.toList

def firstSolid? (r : Row) : Option Char :=
  (r.fields.flatMap String.toList).find? fun c => !isBlank c

/-- A row that a line of a tab-separated file can hold. -/
structure Tabular (r : Row) : Prop where
  unbroken : r.Unbroken
  ending : r.description.toList.getLast? ≠ some '\r'
  starting : ∃ c ∈ r.firstSolid?, c ≠ '#'

instance (r : Row) : Decidable r.Tabular :=
  decidable_of_iff
    ((∀ field ∈ r.fields, '\t' ∉ field.toList ∧ '\n' ∉ field.toList) ∧
      r.description.toList.getLast? ≠ some '\r' ∧ r.firstSolid?.any (· != '#') = true)
    (by
      have starting : r.firstSolid?.any (· != '#') = true ↔ ∃ c ∈ r.firstSolid?, c ≠ '#' := by
        simp [Option.any_eq_true]
      rw [starting]
      exact ⟨fun h => ⟨h.1, h.2.1, h.2.2⟩, fun h => ⟨h.unbroken, h.ending, h.starting⟩⟩)

def line (r : Row) : List Char :=
  joinAt '\t' (r.fields.map String.toList)

def withoutReturns (r : Row) : Row :=
  { r with description := String.ofList (dropReturns r.description.toList) }

private theorem dropReturns_line (r : Row) : dropReturns r.line = r.withoutReturns.line := by
  have tab := trimEndOf_append_of_not (p := fun c => c == '\r' || c == '\n') (c := '\t') (by decide)
  simp [dropReturns, line, withoutReturns, fields, joinAt, tab]

private theorem Unbroken.withoutReturns {r : Row} (h : r.Unbroken) : r.withoutReturns.Unbroken := by
  have kept {c : Char} (there : c ∉ r.description.toList) :
      c ∉ (String.ofList (dropReturns r.description.toList)).toList := by
    rw [String.toList_ofList]
    intro member
    exact there (trimEndOf_subset _ _ member)
  simp only [Unbroken, fields, Row.withoutReturns, List.forall_mem_cons] at h ⊢
  obtain ⟨h₀, h₁, h₂, h₃, h₄, h₅, h₆, h₇, -⟩ := h
  exact ⟨h₀, h₁, h₂, h₃, h₄, h₅, h₆, ⟨kept h₇.1, kept h₇.2⟩, List.forall_mem_nil _⟩

private theorem withoutReturns_eq_iff {r : Row} (h : r.Unbroken) :
    r.withoutReturns = r ↔ r.description.toList.getLast? ≠ some '\r' := by
  have kept : r.withoutReturns = r ↔ dropReturns r.description.toList = r.description.toList := by
    rw [← String.ofList_inj, String.ofList_toList]
    constructor
    · intro same
      exact congrArg description same
    · intro same
      rw [withoutReturns, same]
  have feed : '\n' ∉ r.description.toList := (h r.description (by simp [fields])).2
  rw [kept, dropReturns, trimEndOf_eq_self_iff]
  constructor
  · intro all last
    exact absurd (all _ last) (by decide)
  · intro ending c last
    have other : c ≠ '\r' := by
      rintro rfl
      exact ending last
    have solid : c ≠ '\n' := by
      rintro rfl
      exact feed (List.mem_of_getLast? last)
    simp [other, solid]

private theorem splitAt_line {r : Row} (h : r.Unbroken) :
    splitAt '\t' r.line = r.fields.map String.toList := by
  apply splitAt_joinAt
  · simp [fields]
  · intro piece member
    obtain ⟨field, among, rfl⟩ := List.mem_map.1 member
    exact (h field among).1

private theorem passedOver_line (r : Row) : PassedOver r.line ↔ ¬∃ c ∈ r.firstSolid?, c ≠ '#' := by
  have tab : (fun c => !isBlank c) '\t' = false := by decide
  rw [PassedOver, line, find?_joinAt tab, firstSolid?, List.flatMap_def]
  simp

private theorem ofLine_line {r : Row} (h : r.Unbroken) : ofLine r.line = r.withoutReturns := by
  rw [ofLine, dropReturns_line, splitAt_line h.withoutReturns, List.map_map]
  simp [ofFields_fields]

private theorem readTsvFrom_rows {rows : List Row} (h : ∀ r ∈ rows, r.Unbroken) :
    readTsvFrom true (rows.map fun r => some r.line) =
      (rows.filter fun r => ¬PassedOver r.line).map fun r => .ok r.withoutReturns := by
  have read := readTsvFrom_true (rows.map line)
  rw [List.map_map, tableLines, List.filter_map, List.map_map, List.map_map] at read
  refine read.trans (List.map_congr_left fun r member => ?_)
  exact congrArg Except.ok (ofLine_line (h r (List.mem_of_mem_filter member)))

/-- Unbroken rows are read from their lines exactly when each is read from its own: no line gives
more than one row. -/
private theorem readTsvFrom_lines_eq_iff {rows : List Row} (h : ∀ r ∈ rows, r.Unbroken) :
    readTsvFrom true (rows.map fun r => some r.line) = rows.map .ok ↔ ∀ r ∈ rows, r.Tabular := by
  rw [readTsvFrom_rows h]
  constructor
  · intro same r member
    have full : (rows.filter fun r => ¬PassedOver r.line).length = rows.length := by
      simpa using congrArg List.length same
    have solid := List.length_filter_eq_length_iff.1 full
    rw [List.filter_eq_self.2 solid, List.map_inj_left] at same
    have whole : r.withoutReturns = r := Except.ok.inj (same r member)
    have starts := mt r.passedOver_line.2 (of_decide_eq_true (solid r member))
    exact ⟨h r member, (withoutReturns_eq_iff (h r member)).1 whole, not_not.1 starts⟩
  · intro tabular
    have solid : ∀ r ∈ rows, decide (¬PassedOver r.line) = true := by
      intro r member
      rw [decide_eq_true_iff, passedOver_line, not_not]
      exact (tabular r member).starting
    rw [List.filter_eq_self.2 solid, List.map_inj_left]
    intro r member
    rw [(withoutReturns_eq_iff (h r member)).2 (tabular r member).ending]

private theorem mem_fields_ofFields {fs : List String} {field : String}
    (h : field ∈ (ofFields fs).fields) :
    field ∈ fs ∨ field = "" := by
  have each (i : Nat) : fs[i]?.getD "" ∈ fs ∨ fs[i]?.getD "" = "" := by
    cases there : fs[i]? with
    | none => exact .inr rfl
    | some f => exact .inl (List.mem_of_getElem? there)
  simp only [fields, ofFields, List.mem_cons, List.not_mem_nil, or_false] at h
  rcases h with rfl | rfl | rfl | rfl | rfl | rfl | rfl | rfl
  all_goals exact each _

private theorem unbroken_ofFields {cs : List Char} (h : '\n' ∉ cs) :
    (ofFields ((splitAt '\t' cs).map String.ofList)).Unbroken := by
  intro field member
  rcases mem_fields_ofFields member with piece | rfl
  · obtain ⟨cs', among, rfl⟩ := List.mem_map.1 piece
    rw [String.toList_ofList]
    refine ⟨not_mem_of_mem_splitAt among, ?_⟩
    intro feed
    exact h (subset_of_mem_splitAt among feed)
  · simp

private theorem unbroken_of_mem_readTsv {ls : List (List Char)} (single : ∀ l ∈ ls, '\n' ∉ l)
    {r : Row}
    (h : .ok r ∈ readTsv (ls.map some)) : r.Unbroken := by
  rw [readTsv, readTsvFrom_false] at h
  obtain ⟨row, among, same⟩ := List.mem_map.1 h
  obtain rfl := Except.ok.inj same
  obtain ⟨l, member, rfl⟩ := List.mem_map.1 (withoutHeader_subset _ among)
  apply unbroken_ofFields
  intro feed
  exact single l (List.mem_of_mem_filter member) (trimEndOf_subset _ _ feed)

def headerLine : List Char :=
  joinAt '\t' (headerFields.map String.toList)

private theorem readTsv_header (ls : List Line) :
    readTsv (some headerLine :: ls) = readTsvFrom true ls := by
  have solid : isComment (dropReturns headerLine) = false := by decide +kernel
  have header : isHeader (splitAt '\t' (dropReturns headerLine)) = true := by decide +kernel
  simp [readTsv, readTsvFrom, solid, header]

private theorem textLines_writeTsv {rows : List Row} (h : ∀ r ∈ rows, r.Unbroken) :
    textLines (writeTsv rows) = some headerLine :: rows.map fun r => some r.line := by
  have single : ∀ l ∈ headerLine :: rows.map line, '\n' ∉ l := by
    rw [List.forall_mem_cons, List.forall_mem_map]
    refine ⟨by decide +kernel, ?_⟩
    intro r member feed
    rcases mem_joinAt feed with tab | ⟨piece, among, there⟩
    · exact absurd tab (by decide)
    · obtain ⟨field, column, rfl⟩ := List.mem_map.1 among
      exact (h r member field column).2 there
  have written : (writeTsv rows).toList =
      (headerLine :: rows.map line).flatMap fun l => l ++ ['\n'] := by
    simp [writeTsv, tsvLine, headerLine, line, List.flatMap_map]
  rw [textLines, written, lines_flatMap single, List.map_cons, List.map_map]
  rfl

/-- Rows are read from what is written for them exactly when all of them are tabular. -/
theorem readTsv_writeTsv_eq_iff (rows : List Row) :
    readTsv (byteLines (writeTsv rows).toUTF8.toList) = rows.map .ok ↔ ∀ r ∈ rows, r.Tabular := by
  rw [byteLines_toUTF8]
  constructor
  · intro same
    have unbroken : ∀ r ∈ rows, r.Unbroken := by
      intro r member
      have read : .ok r ∈ readTsv (textLines (writeTsv rows)) := by
        rw [same]
        exact List.mem_map_of_mem member
      exact unbroken_of_mem_readTsv (fun l => not_mem_of_mem_lines) read
    rw [textLines_writeTsv unbroken, readTsv_header] at same
    exact (readTsvFrom_lines_eq_iff unbroken).1 same
  · intro tabular
    have unbroken : ∀ r ∈ rows, r.Unbroken := fun r member => (tabular r member).unbroken
    rw [textLines_writeTsv unbroken, readTsv_header]
    exact (readTsvFrom_lines_eq_iff unbroken).2 tabular

/-- A row whose action is the word that marks a header is read as a row. -/
example : readTsv (textLines (writeTsv [{ action := "action" }])) = [.ok { action := "action" }] := by
  decide +kernel

example : ¬ Tabular { id := "#1", action := "Comment" } := by
  decide +kernel

end Runbook.Row
