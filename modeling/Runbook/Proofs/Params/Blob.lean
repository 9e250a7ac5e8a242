import Runbook.Proofs.Params
import Runbook.Proofs.Text.Blank
import Runbook.Proofs.Text.Cut
import Runbook.Proofs.Text.Line

set_option autoImplicit false

/-!
Blobs as they are written. A blob consists of a beginning, which may state its delimiter, and of
pieces between delimiters. Each piece that is not blank is a written parameter, and the parameters
that are read are these, in their order.
-/
namespace Runbook.Params

open Text

def delimiterOf (syn : Syntax) (blob : String) : Char :=
  (delimited syn blob.toList).1

def pieces (syn : Syntax) (blob : String) : List String :=
  piecesAt (delimiterOf syn blob) (String.ofList (delimited syn blob.toList).2)

/-- A blob is its pieces with delimiters between them, after blanks and perhaps its delimiter. -/
theorem exists_lead (syn : Syntax) (blob : String) :
    ∃ lead, blob = lead ++ joined (String.singleton (delimiterOf syn blob)) (pieces syn blob) ∧
      ∀ c ∈ lead.toList, isBlank c = true ∨ c = delimiterOf syn blob := by
  obtain ⟨blanks, blank, whole⟩ := exists_blanks blob
  have plain : ∃ lead, blob = lead ++ String.ofList (trimStart blob.toList) ∧
      ∀ c ∈ lead.toList, isBlank c = true ∨ c = syn.delimiter :=
    ⟨blanks, whole, fun c member => .inl ((allBlank_iff _).1 blank c member)⟩
  simp only [pieces, joined_piecesAt, delimiterOf, delimited]
  cases left : trimStart blob.toList with
  | nil =>
    rw [left] at plain
    exact plain
  | cons d rest =>
    rw [left] at plain
    dsimp only
    split
    · refine ⟨blanks ++ String.singleton d, ?_, fun c member => ?_⟩
      · rw [left] at whole
        rw [whole, String.append_assoc]
        simp
      · rw [String.toList_append, List.mem_append, String.toList_singleton,
          List.mem_singleton] at member
        exact member.imp_left ((allBlank_iff _).1 blank c)
    · exact plain

/-- A parameter as it is written: a key, the sign `=`, a value. -/
structure Written where
  key : String
  value : String
  unsigned : '=' ∉ key.toList
  named : normalKey key ≠ ""

namespace Written

def text (w : Written) : String :=
  w.key ++ "=" ++ w.value

def entry (w : Written) : String × String :=
  (normalKey w.key, w.value)

end Written

private theorem written_of_entry {segment : List Char} {e : String × String}
    (h : Params.entry segment = .ok e) :
    ∃ w : Written, w.text = String.ofList segment ∧ w.entry = e := by
  unfold Params.entry at h
  split at h
  · cases h
  · next key value found =>
    obtain ⟨unsigned, rfl⟩ := cut_eq_some_iff.1 found
    dsimp only at h
    split at h
    · cases h
    · next named =>
      obtain rfl := Except.ok.inj h
      refine ⟨⟨String.ofList key, String.ofList value, ?_, ?_⟩, ?_, ?_⟩
      · rwa [String.toList_ofList]
      · intro nothing
        apply named
        simpa [normalKey, lowered, trimmed, ← String.toList_inj, trim_lower] using nothing
      · simp [Written.text, ← String.toList_inj]
      · simp [Written.entry, normalKey, lowered, trimmed]

private theorem written_of_readSegments {p q : Params} {segments : List (List Char)}
    (h : readSegments p segments = .ok q) :
    ∃ ws : List Written, ws.map Written.text = segments.map String.ofList ∧
      q.entries = p.entries ++ ws.map Written.entry := by
  induction segments generalizing p with
  | nil =>
    obtain rfl := Except.ok.inj h
    exact ⟨[], rfl, (List.append_nil _).symm⟩
  | cons segment segments ih =>
    rw [readSegments] at h
    split at h
    · cases h
    · next key value found =>
      split at h
      · cases h
      · obtain ⟨w, text, entry⟩ := written_of_entry found
        obtain ⟨ws, texts, entries⟩ := ih h
        refine ⟨w :: ws, ?_, ?_⟩
        · rw [List.map_cons, List.map_cons, text, texts]
        · rw [entries, List.map_cons, entry, List.append_assoc, List.singleton_append]

theorem written_of_parse {syn : Syntax} {blob : String} {p : Params}
    (h : parse syn blob = .ok p) :
    ∃ ws : List Written,
      (pieces syn blob).filter (fun piece => !isBlankText piece) = ws.map Written.text ∧
      p.entries = ws.map Written.entry := by
  obtain ⟨ws, texts, entries⟩ := written_of_readSegments h
  refine ⟨ws, ?_, entries⟩
  rw [texts, segments, pieces, delimiterOf, piecesAt, String.toList_ofList, List.filter_map]
  simp [isBlankText, Function.comp_def]

end Runbook.Params
