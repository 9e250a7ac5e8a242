import Runbook.Text.Split

set_option autoImplicit false

/-!
Cutting a text at the first occurrence of a character, and at the first character that is not of a
class. What is cut is the text itself, and the part before the cut does not have the character; only
a text without the character is not cut.
-/
namespace Runbook.Text

section Class

variable {p : Char → Bool} {cs rest : List Char}

theorem takeWhile_append_of_ends (inside : ∀ c ∈ cs, p c = true)
    (ends : ∀ c ∈ rest.head?, p c = false) : (cs ++ rest).takeWhile p = cs := by
  rw [List.takeWhile_append_of_pos inside]
  cases rest with
  | nil => exact List.append_nil cs
  | cons c rest => rw [List.takeWhile_cons_of_neg (by simp [ends c rfl]), List.append_nil]

theorem dropWhile_append_of_ends (inside : ∀ c ∈ cs, p c = true)
    (ends : ∀ c ∈ rest.head?, p c = false) : (cs ++ rest).dropWhile p = rest := by
  rw [List.dropWhile_append_of_pos inside]
  cases rest with
  | nil => rfl
  | cons c rest => rw [List.dropWhile_cons_of_neg (by simp [ends c rfl])]

private theorem not_of_head?_dropWhile {c : Char} (h : c ∈ (cs.dropWhile p).head?) :
    p c = false := by
  have stop := List.head?_dropWhile_not p cs
  rw [h] at stop
  exact stop

theorem exists_run (p : Char → Bool) (s : String) :
    ∃ run rest : String, (∀ c ∈ run.toList, p c = true) ∧ (∀ c ∈ rest.toList.head?, p c = false) ∧
      s = run ++ rest := by
  refine ⟨String.ofList (s.toList.takeWhile p), String.ofList (s.toList.dropWhile p), ?_, ?_, ?_⟩
  · rw [String.toList_ofList]
    exact List.all_eq_true.1 List.all_takeWhile
  · rw [String.toList_ofList]
    exact fun c => not_of_head?_dropWhile
  · rw [← String.ofList_append, List.takeWhile_append_dropWhile, String.ofList_toList]

end Class

theorem cut_eq_some_iff {d : Char} {cs before after : List Char} :
    cut d cs = some (before, after) ↔ d ∉ before ∧ cs = before ++ d :: after := by
  induction cs generalizing before with
  | nil => simp [cut]
  | cons c cs ih =>
    rw [cut]
    split
    · next same =>
      subst same
      rw [Option.some.injEq, Prod.mk.injEq]
      constructor
      · rintro ⟨rfl, rfl⟩
        exact ⟨List.not_mem_nil, rfl⟩
      · rintro ⟨fresh, split⟩
        cases before with
        | nil => exact ⟨rfl, (List.cons.inj split).2⟩
        | cons c' before =>
          obtain ⟨rfl, -⟩ := List.cons.inj split
          exact absurd List.mem_cons_self fresh
    · next differs =>
      rw [Option.map_eq_some_iff]
      constructor
      · rintro ⟨⟨before', after'⟩, found, same⟩
        obtain ⟨rfl, rfl⟩ := Prod.mk.inj same
        obtain ⟨fresh, rfl⟩ := ih.1 found
        exact ⟨List.not_mem_cons_of_ne_of_not_mem (Ne.symm differs) fresh, rfl⟩
      · rintro ⟨fresh, split⟩
        cases before with
        | nil => exact absurd (List.cons.inj split).1 differs
        | cons c' before =>
          obtain ⟨rfl, rest⟩ := List.cons.inj split
          exact ⟨(before, after), ih.2 ⟨List.not_mem_of_not_mem_cons fresh, rest⟩, rfl⟩

theorem cut_eq_none_iff {d : Char} {cs : List Char} : cut d cs = none ↔ d ∉ cs := by
  rw [Option.eq_none_iff_forall_ne_some]
  constructor
  · intro uncut member
    obtain ⟨before, after, rfl, fresh⟩ := List.eq_append_cons_of_mem member
    exact uncut (before, after) (cut_eq_some_iff.2 ⟨fresh, rfl⟩)
  · rintro absent ⟨before, after⟩ found
    obtain ⟨-, rfl⟩ := cut_eq_some_iff.1 found
    exact absent (List.mem_append_right before List.mem_cons_self)

theorem cut_cases (d : Char) (s : String) :
    d ∉ s.toList ∨
      ∃ before after : String, d ∉ before.toList ∧ s.toList = before.toList ++ d :: after.toList := by
  by_cases member : d ∈ s.toList
  · obtain ⟨before, after, split, fresh⟩ := List.eq_append_cons_of_mem member
    refine .inr ⟨String.ofList before, String.ofList after, ?_, ?_⟩
    · rwa [String.toList_ofList]
    · rw [split, String.toList_ofList, String.toList_ofList]
  · exact .inl member

end Runbook.Text
