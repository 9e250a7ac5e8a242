import Runbook.Proofs.Template.Placeholders
import Runbook.Proofs.Text.Line
import Runbook.Text.Blank

set_option autoImplicit false

/-!
Separators. A character that is no brace and stands in no name stands in no placeholder. A text that
is cut at such a character has the placeholders of its pieces and no others, so it makes no
difference whether it is rendered as a whole or piece by piece.
-/
namespace Runbook.Template

open Text

def separates (c : Char) : Bool :=
  !isNameChar c && c != '{' && c != '}'

private theorem separates_iff {c : Char} :
    separates c = true ↔ isNameChar c = false ∧ c ≠ '{' ∧ c ≠ '}' := by
  simp [separates, and_assoc]

private theorem isNameChar_bounds {c : Char} (h : isNameChar c = true) :
    36 ≤ c.toNat ∧ c.toNat ≤ 122 := by
  change ((decide (c.val ≥ 'A'.val ∧ c.val ≤ 'Z'.val) ||
    (decide (c.val ≥ 'a'.val) && decide (c.val ≤ 'z'.val)) ||
    (decide (c.val ≥ '0'.val) && decide (c.val ≤ '9'.val))) ||
    c == '_' || c == '-' || c == '.' || c == '$') = true at h
  simp only [Bool.or_eq_true, Bool.and_eq_true, decide_eq_true_eq, beq_iff_eq, ge_iff_le,
    UInt32.le_iff_toNat_le] at h
  have number : c.toNat = c.val.toNat := rfl
  rcases h with (((((upper | lower) | digit) | rfl) | rfl) | rfl) | rfl
  · have low : 65 ≤ c.val.toNat := upper.1
    have high : c.val.toNat ≤ 90 := upper.2
    omega
  · have low : 97 ≤ c.val.toNat := lower.1
    have high : c.val.toNat ≤ 122 := lower.2
    omega
  · have low : 48 ≤ c.val.toNat := digit.1
    have high : c.val.toNat ≤ 57 := digit.2
    omega
  · decide
  · decide
  · decide
  · decide

theorem separates_of_isBlank {c : Char} (h : isBlank c = true) : separates c = true := by
  have outside : c.toNat < 36 ∨ 125 < c.toNat := by
    simp [isBlank] at h
    omega
  refine separates_iff.2 ⟨Bool.eq_false_iff.2 fun named => ?_, ?_, ?_⟩
  · obtain ⟨low, high⟩ := isNameChar_bounds named
    omega
  · rintro rfl
    exact absurd outside (by decide)
  · rintro rfl
    exact absurd outside (by decide)

private theorem not_mem_braced {d : Char} (h : separates d = true) {name : List Char}
    (nameChars : ∀ c ∈ name, isNameChar c = true) : d ∉ braced name := by
  obtain ⟨notName, notOpening, notClosing⟩ := separates_iff.1 h
  intro member
  rcases List.mem_cons.1 member with opening | rest
  · exact notOpening opening
  · rcases List.mem_append.1 rest with inName | closing
    · rw [nameChars d inName] at notName
      exact nomatch notName
    · exact notClosing (List.mem_singleton.1 closing)

section Separated

variable {d : Char} (h : separates d = true)

include h

private theorem Placeholder.apart {pre post : List Char} (p : Placeholder (pre ++ d :: post)) :
    p.stop ≤ pre.length ∨ pre.length < p.start := by
  by_contra across
  obtain ⟨k, place⟩ : ∃ k, pre.length = p.start + k := ⟨pre.length - p.start, by omega⟩
  have within : k < (braced p.name).length := by
    unfold stop at across
    omega
  have inside := p.getElem?_add within
  rw [← place, List.getElem?_append_right (Nat.le_refl _), Nat.sub_self,
    List.getElem?_cons_zero] at inside
  exact not_mem_braced h p.nameChars (List.mem_of_getElem? inside.symm)

variable (value : String → Option String)

private theorem filled_append_cons (pre post : List Char) :
    (parts (pre ++ d :: post)).flatMap (Part.fill value) =
      (parts pre).flatMap (Part.fill value) ++ d :: (parts post).flatMap (Part.fill value) := by
  obtain ⟨before, fillsBefore, first⟩ := exists_fillsIn value pre
  obtain ⟨after, fillsAfter, second⟩ := exists_fillsIn value post
  obtain ⟨pieces, fills, whole⟩ := exists_fillsIn value (pre ++ d :: post)
  have start : FillsIn (inPlaceOf value) (d :: post) ([d] :: after) := by
    refine fillsAfter.cons fun p => ?_
    rcases @Placeholder.apart d h [] post p with stops | starts
    · exact absurd (Nat.lt_of_lt_of_le p.start_lt_stop stops) (Nat.not_lt_zero _)
    · exact Nat.ne_of_gt starts
  have together := fillsBefore.append start fun p => (p.apart h).imp_right Nat.le_of_lt
  rw [whole, fills.unique together, List.flatten_append, List.flatten_cons, ← first, ← second]
  rfl

theorem render_append_singleton (pre post : String) :
    render value (pre ++ String.singleton d ++ post) =
      render value pre ++ String.singleton d ++ render value post := by
  rw [← String.toList_inj]
  simp only [render, String.toList_append, String.toList_singleton, String.toList_ofList,
    List.append_assoc, List.singleton_append, filled_append_cons h]

theorem render_joined (pieces : List String) :
    render value (joined (String.singleton d) pieces) =
      joined (String.singleton d) (pieces.map (render value)) := by
  fun_induction joined (String.singleton d) pieces with
  | case1 => simp [render, parts, joined]
  | case2 piece => rfl
  | case3 piece next pieces ih =>
    rw [render_append_singleton h, ih]
    rfl

end Separated

theorem render_append_of_separates (value : String → Option String) {lead : String}
    (h : ∀ c ∈ lead.toList, separates c = true) (text : String) :
    render value (lead ++ text) = lead ++ render value text := by
  rw [← String.toList_inj]
  simp only [render, String.toList_append, String.toList_ofList]
  generalize lead.toList = lead at h ⊢
  induction lead with
  | nil => rfl
  | cons c lead ih =>
    have first : separates c = true := h c List.mem_cons_self
    have others := ih fun c member => h c (List.mem_cons_of_mem _ member)
    have copied := filled_append_cons first value [] (lead ++ text.toList)
    rw [List.nil_append] at copied
    rw [List.cons_append, copied, others]
    simp [parts]

end Runbook.Template
