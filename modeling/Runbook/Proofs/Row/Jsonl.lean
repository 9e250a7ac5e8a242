import Mathlib.Data.Option.Basic
import Runbook.Proofs.Json.Record
import Runbook.Proofs.Json.RoundTrip
import Runbook.Proofs.Text.Blank
import Runbook.Proofs.Text.Line
import Runbook.Row.Source

set_option autoImplicit false

/-!
Rows as JSON Lines. Every row is written as one object on one line, from which the same row is read:
a field that is left out because it is empty is read as the empty text, and no text in a field
breaks the line or is lost at its ends.
-/
namespace Runbook.Row

open Text

def givenMember (name value : String) : List (String × Json) :=
  if value = "" then [] else [(name, .str value)]

def members (r : Row) : List (String × Json) :=
  [("id", .str r.id), ("action", .str r.action)] ++ givenMember "locator_kind" r.locatorKind ++
    givenMember "locator_spec" r.locatorSpec ++ givenMember "query_function" r.query ++
    givenMember "activation" r.activation ++ givenMember "parameters" r.parameters ++
    givenMember "description" r.description

private theorem toJson_eq (r : Row) : r.toJson = .obj r.members := rfl

private theorem toJson_plain (r : Row) : r.toJson.Plain := by
  have given {name value : String} : ∀ m ∈ givenMember name value, m.2.Plain := by
    intro m member
    unfold givenMember at member
    split at member
    · exact nomatch member
    · rw [List.mem_singleton.1 member]
      exact .str value
  rw [toJson_eq]
  apply Json.Plain.obj
  simp only [members, List.forall_mem_append]
  refine ⟨⟨⟨⟨⟨⟨?_, given⟩, given⟩, given⟩, given⟩, given⟩, given⟩
  simp [Json.Plain.str]

private theorem ofJson?_toJson (r : Row) : ofJson? r.toJson = some r := by
  rw [toJson_eq]
  simp [ofJson?, Json.optional_obj, members, givenMember, Json.readOnly_text,
    Json.str?]

private theorem trim_compact_toJson (r : Row) : trim r.toJson.compact = r.toJson.compact := by
  obtain ⟨inner, written⟩ := Json.compact_obj r.members
  have brace : isBlank '{' = false := by decide
  have closing : isBlank '}' = false := by decide
  rw [toJson_eq, written, trim, List.cons_append, trimStart_of_not_blank brace,
    ← List.cons_append, trimEndOf_append_of_not closing]
  rfl

private theorem allBlank_compact_toJson (r : Row) : allBlank r.toJson.compact = false := by
  obtain ⟨inner, written⟩ := Json.compact_obj r.members
  rw [toJson_eq, written]
  rfl

private theorem readJsonlFrom_written (number : Nat) (rows : List Row) :
    readJsonlFrom number (rows.map fun r => some r.toJson.compact) = rows.map .ok := by
  induction rows generalizing number with
  | nil => rfl
  | cons r rows ih =>
    have row : (Json.parseChars (trim r.toJson.compact)).bind ofJson? = some r := by
      rw [trim_compact_toJson, Json.parseChars_compact r.toJson_plain, Option.bind_some,
        ofJson?_toJson]
    simp [readJsonlFrom, allBlank_compact_toJson, row, ih]

/-- Rows with any texts in their fields are read from what is written for them. -/
theorem readJsonl_writeJsonl (rows : List Row) :
    readJsonl (byteLines (writeJsonl rows).toUTF8.toList) = rows.map .ok := by
  have single : ∀ l ∈ rows.map fun r => r.toJson.compact, '\n' ∉ l := by
    intro l member
    obtain ⟨r, -, rfl⟩ := List.mem_map.1 member
    exact r.toJson_plain.printable.feed_not_mem
  have cut := lines_flatMap single
  rw [List.flatMap_map] at cut
  rw [byteLines_toUTF8, textLines, writeJsonl, String.toList_ofList, cut, List.map_map]
  exact readJsonlFrom_written 0 rows

end Runbook.Row
