import Mathlib.Data.List.TakeWhile
import Runbook.Proofs.Text.Cut
import Runbook.Row.Basic
import Runbook.Text.AsciiCase
import Runbook.Text.Decimal

set_option autoImplicit false

/-!
Trimming and blank texts. Trimming leaves nothing exactly of a text that is all blank, and so a row
has the name of an action exactly when it is an instruction. What is trimmed stays as it is when it
is trimmed again, letter case does not matter to it, and a beginning without blanks is kept.
-/
namespace Runbook.Text

theorem toList_trimmed (s : String) : (trimmed s).toList = trim s.toList :=
  String.toList_ofList

theorem allBlank_iff (cs : List Char) : allBlank cs = true ↔ ∀ c ∈ cs, isBlank c = true :=
  List.all_eq_true

theorem isBlankText_empty : isBlankText "" = true := rfl

theorem trimStart_eq_nil_iff (cs : List Char) : trimStart cs = [] ↔ allBlank cs = true := by
  rw [trimStart, List.dropWhile_eq_nil_iff, allBlank_iff]

theorem trimStart_cases (cs : List Char) :
    trimStart cs = [] ∨ ∃ c rest, isBlank c = false ∧ trimStart cs = c :: rest := by
  induction cs with
  | nil => exact .inl rfl
  | cons c cs ih =>
    cases blank : isBlank c with
    | true =>
      rw [trimStart, List.dropWhile_cons_of_pos blank]
      exact ih
    | false => exact .inr ⟨c, cs, blank, List.dropWhile_cons_of_neg (by simp [blank])⟩

private theorem trimStart_eq_nil_of_allBlank {cs : List Char} (h : allBlank (trimStart cs) = true) :
    trimStart cs = [] := by
  rcases trimStart_cases cs with nothing | ⟨c, rest, solid, left⟩
  · exact nothing
  · have blank := (allBlank_iff _).1 h c (by rw [left]; exact List.mem_cons_self)
    rw [solid] at blank
    exact nomatch blank

theorem trim_eq_nil_iff (cs : List Char) : trim cs = [] ↔ allBlank cs = true := by
  have ends : trim cs = [] ↔ allBlank (trimStart cs) = true := by
    simp only [trim, trimEndOf, List.reverse_eq_nil_iff, List.dropWhile_eq_nil_iff,
      List.mem_reverse, allBlank_iff]
  rw [ends, ← trimStart_eq_nil_iff cs]
  constructor
  · exact trimStart_eq_nil_of_allBlank
  · intro nothing
    rw [nothing]
    rfl

theorem trimmed_eq_empty_iff (s : String) : trimmed s = "" ↔ isBlankText s = true := by
  rw [isBlankText, ← trim_eq_nil_iff, trimmed, ← String.toList_inj, String.toList_ofList]
  rfl

theorem lowered_trimmed_eq_empty_iff (s : String) :
    lowered (trimmed s) = "" ↔ isBlankText s = true := by
  rw [← trimmed_eq_empty_iff, ← String.toList_inj, ← String.toList_inj, toList_lowered, lower]
  exact List.map_eq_nil_iff

theorem trimEndOf_append_of_not {p : Char → Bool} {c : Char} (h : p c = false)
    (cs rest : List Char) : trimEndOf p (cs ++ c :: rest) = cs ++ c :: trimEndOf p rest := by
  simp only [trimEndOf, List.reverse_append, List.reverse_cons, List.append_assoc,
    List.dropWhile_append]
  cases rest.reverse.dropWhile p with
  | nil => simp [h]
  | cons d left => simp

theorem trimStart_of_not_blank {c : Char} (h : isBlank c = false) (cs : List Char) :
    trimStart (c :: cs) = c :: cs :=
  List.dropWhile_cons_of_neg (by simp [h])

theorem trimEndOf_subset (p : Char → Bool) (cs : List Char) : trimEndOf p cs ⊆ cs := by
  intro c member
  rw [trimEndOf, List.mem_reverse] at member
  exact List.mem_reverse.1 ((List.dropWhile_sublist _).subset member)

theorem trimEndOf_eq_self_iff {p : Char → Bool} {cs : List Char} :
    trimEndOf p cs = cs ↔ ∀ c ∈ cs.getLast?, p c = false := by
  rw [trimEndOf, List.reverse_eq_iff, List.dropWhile_eq_self_iff, List.getLast?_eq_head?_reverse]
  cases cs.reverse with
  | nil => simp
  | cons c cs => simp

theorem trimEndOf_trimEndOf (p : Char → Bool) (cs : List Char) :
    trimEndOf p (trimEndOf p cs) = trimEndOf p cs := by
  simp only [trimEndOf, List.reverse_reverse, List.reverse_inj]
  rw [List.dropWhile_eq_self_iff]
  intro nonempty
  exact List.dropWhile_get_zero_not _ _ nonempty

@[simp] theorem trim_trim (cs : List Char) : trim (trim cs) = trim cs := by
  rcases trimStart_cases cs with nothing | ⟨c, rest, solid, left⟩
  · simp only [trim, nothing]
    rfl
  · have kept := trimEndOf_append_of_not solid [] rest
    simp only [List.nil_append] at kept
    rw [trim, trim, left, kept, trimStart_of_not_blank solid, ← kept, trimEndOf_trimEndOf]

theorem isBlank_toLower (c : Char) : isBlank c.toLower = isBlank c := by
  rcases toLower_cases c with ⟨low, high, value⟩ | same
  · simp only [isBlank, value]
    rw [Bool.eq_iff_iff]
    simp
    omega
  · rw [same]

theorem isDigit_toLower (c : Char) : isDigit c.toLower = isDigit c := by
  rcases toLower_cases c with ⟨low, high, value⟩ | same
  · rw [Bool.eq_iff_iff, isDigit_iff, isDigit_iff, value]
    omega
  · rw [same]

theorem isBlank_of_isDigit {c : Char} (h : isDigit c = true) : isBlank c = false := by
  rw [isDigit_iff] at h
  simp [isBlank]
  omega

theorem trim_lower (cs : List Char) : trim (lower cs) = lower (trim cs) := by
  have same : isBlank ∘ Char.toLower = isBlank := funext isBlank_toLower
  simp only [trim, trimEndOf, trimStart, lower, ← List.map_reverse, List.dropWhile_map, same]

@[simp] theorem trimmed_trimmed (s : String) : trimmed (trimmed s) = trimmed s := by
  simp [trimmed]

theorem trimEndOf_trim (cs : List Char) : trimEndOf isBlank (trim cs) = trim cs :=
  trimEndOf_trimEndOf isBlank (trimStart cs)

theorem exists_blanks (s : String) :
    ∃ blanks, isBlankText blanks = true ∧ s = blanks ++ String.ofList (trimStart s.toList) := by
  obtain ⟨blanks, rest, blank, ends, rfl⟩ := exists_run isBlank s
  refine ⟨blanks, (allBlank_iff _).2 blank, ?_⟩
  rw [trimStart, String.toList_append, dropWhile_append_of_ends blank ends, String.ofList_toList]

theorem trim_eq_self {cs : List Char} (first : ∀ c ∈ cs.head?, isBlank c = false)
    (last : ∀ c ∈ cs.getLast?, isBlank c = false) : trim cs = cs := by
  have start : trimStart cs = cs := by
    cases cs with
    | nil => rfl
    | cons c cs => exact trimStart_of_not_blank (first c rfl) cs
  rw [trim, start, trimEndOf_eq_self_iff.2 last]

section Beginnings

variable {blanks : List Char}

theorem trimStart_append_of_allBlank (h : allBlank blanks = true) (rest : List Char) :
    trimStart (blanks ++ rest) = trimStart rest :=
  List.dropWhile_append_of_pos ((allBlank_iff blanks).1 h)

theorem trim_append_of_allBlank (h : allBlank blanks = true) (rest : List Char) :
    trim (blanks ++ rest) = trim rest := by
  rw [trim, trimStart_append_of_allBlank h, trim]

end Beginnings

section Ends

variable {p : Char → Bool} {after : List Char}

theorem trimEndOf_append_of_all (h : ∀ c ∈ after, p c = true) (cs : List Char) :
    trimEndOf p (cs ++ after) = trimEndOf p cs := by
  rw [trimEndOf, trimEndOf, List.reverse_append, List.dropWhile_append_of_pos]
  intro c member
  exact h c (List.mem_reverse.1 member)

theorem exists_trimEndOf (p : Char → Bool) (cs : List Char) :
    ∃ after, (∀ c ∈ after, p c = true) ∧ cs = trimEndOf p cs ++ after := by
  refine ⟨(cs.reverse.takeWhile p).reverse, ?_, ?_⟩
  · intro c member
    exact List.all_eq_true.1 List.all_takeWhile c (List.mem_reverse.1 member)
  · rw [trimEndOf, ← List.reverse_append, List.takeWhile_append_dropWhile, List.reverse_reverse]

theorem trim_append_right_of_allBlank (h : allBlank after = true) (cs : List Char) :
    trim (cs ++ after) = trim cs := by
  rcases trimStart_cases cs with nothing | ⟨c, rest, solid, left⟩
  · have blank := (trimStart_eq_nil_iff cs).1 nothing
    rw [trim_append_of_allBlank blank, (trim_eq_nil_iff after).2 h, (trim_eq_nil_iff cs).2 blank]
  · have start : trimStart (cs ++ after) = trimStart cs ++ after := by
      have stops : cs.dropWhile isBlank ≠ [] := by
        rw [← trimStart, left]
        exact List.cons_ne_nil c rest
      rw [trimStart, List.dropWhile_append, if_neg (by simpa using stops), trimStart]
    rw [trim, start, trimEndOf_append_of_all ((allBlank_iff after).1 h), trim]

end Ends

theorem trim_append_of_not_blank {cs : List Char} (nonempty : cs ≠ [])
    (solid : ∀ c ∈ cs, isBlank c = false) (rest : List Char) :
    trim (cs ++ rest) = cs ++ trimEndOf isBlank rest := by
  have first : trimStart (cs ++ rest) = cs ++ rest := by
    cases cs with
    | nil => exact absurd rfl nonempty
    | cons c cs => exact trimStart_of_not_blank (solid c List.mem_cons_self) _
  have last := List.dropLast_concat_getLast nonempty
  rw [trim, first, ← last, List.append_assoc, List.singleton_append,
    trimEndOf_append_of_not (solid _ (List.getLast_mem nonempty)), List.append_assoc,
    List.singleton_append]

end Runbook.Text

namespace Runbook.Row

theorem actionName_ne_empty {row : Row} (h : row.isEmpty = false) : row.actionName ≠ "" := by
  rw [actionName, ne_eq, Text.trimmed_eq_empty_iff]
  exact Bool.eq_false_iff.1 h

end Runbook.Row
