import Runbook.Variables

set_option autoImplicit false

/-!
Texts without placeholders. A text in which no placeholder is found is its own rendering, whatever
the names stand for.
-/
namespace Runbook

namespace Template

theorem parts_slot {rest name after : List Char} (h : placeholder? rest = some (name, after)) :
    parts ('{' :: rest) = .slot (String.ofList (Text.lower name)) :: parts after := by
  rw [parts, if_pos rfl]
  split
  · next found =>
    obtain ⟨rfl, rfl⟩ := Prod.mk.inj (Option.some.inj (h.symm.trans found))
    rfl
  · next absent => exact (Option.some_ne_none _ (h.symm.trans absent)).elim

theorem parts_brace {rest : List Char} (h : placeholder? rest = none) :
    parts ('{' :: rest) = .char '{' :: parts rest := by
  rw [parts, if_pos rfl]
  split
  · next found => exact (Option.some_ne_none _ (found.symm.trans h)).elim
  · rfl

theorem parts_other {c : Char} (h : c ≠ '{') (rest : List Char) :
    parts (c :: rest) = .char c :: parts rest := by
  rw [parts, if_neg h]

private theorem fill_parts (value : String → Option String) (cs : List Char)
    (plain : ∀ part ∈ parts cs, part.name? = none) :
    (parts cs).flatMap (Part.fill value) = cs := by
  have copied (c : Char) (rest : List Char) (same : parts (c :: rest) = .char c :: parts rest)
      (plain : ∀ part ∈ parts (c :: rest), part.name? = none)
      (ih : (∀ part ∈ parts rest, part.name? = none) →
        (parts rest).flatMap (Part.fill value) = rest) :
      (parts (c :: rest)).flatMap (Part.fill value) = c :: rest := by
    rw [same] at plain ⊢
    rw [List.flatMap_cons, ih fun part member => plain part (List.mem_cons_of_mem _ member)]
    rfl
  induction cs using parts.induct with
  | case1 => simp [parts]
  | case2 rest name after found ih =>
    rw [parts_slot found] at plain
    exact nomatch plain _ List.mem_cons_self
  | case3 rest none ih => exact copied '{' rest (parts_brace none) plain ih
  | case4 c rest other ih => exact copied c rest (parts_other other rest) plain ih

theorem render_of_not_hasPlaceholder {text : String} (h : hasPlaceholder text = false)
    (value : String → Option String) : render value text = text := by
  rw [render, fill_parts, String.ofList_toList]
  intro part member
  rw [hasPlaceholder, List.any_eq_false] at h
  simpa using h part member

end Template

theorem Variables.substitute_of_not_hasPlaceholder {text : String}
    (h : Template.hasPlaceholder text = false) (v : Variables) : v.substitute text = text :=
  Template.render_of_not_hasPlaceholder h v.store.get?

end Runbook
