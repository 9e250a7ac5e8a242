import Runbook.Proofs.Template.Placeholders

set_option autoImplicit false

/-!
The names of a text. They are those of its placeholders, in their order and each once, and they are
exactly the names on whose values the rendering of the text depends.
-/
namespace Runbook.Template

open Text (lower lowered lowered_lowered)

section Placing

variable {m n : String} {l : List String}

private theorem mem_placeName : m ∈ placeName n l ↔ m = n ∨ m ∈ l := by
  induction l with
  | nil => simp [placeName]
  | cons n' l ih =>
    rw [placeName]
    split
    · next same => simp [same]
    split
    · exact List.mem_cons
    · rw [List.mem_cons, ih, List.mem_cons, or_left_comm]

private theorem placeName_increasing (h : l.Pairwise fun a b => a < b) :
    (placeName n l).Pairwise fun a b => a < b := by
  induction l with
  | nil => exact List.pairwise_singleton _ _
  | cons n' l ih =>
    obtain ⟨first, others⟩ := List.pairwise_cons.1 h
    rw [placeName]
    split
    · exact h
    next other =>
    split
    · next before =>
      refine List.pairwise_cons.2 ⟨fun m member => ?_, h⟩
      rcases List.mem_cons.1 member with rfl | later
      · exact before
      · exact String.lt_trans before (first m later)
    · next behind =>
      refine List.pairwise_cons.2 ⟨fun m member => ?_, ih others⟩
      rcases mem_placeName.1 member with rfl | later
      · exact Std.lt_of_le_of_ne (String.not_lt.1 behind) (Ne.symm other)
      · exact first m later

end Placing

private theorem mem_names {n : String} {template : String} :
    n ∈ names template ↔ .slot n ∈ parts template.toList := by
  have placed (l : List String) : n ∈ l.foldr placeName [] ↔ n ∈ l := by
    induction l with
    | nil => exact Iff.rfl
    | cons m l ih => rw [List.foldr_cons, mem_placeName, ih, List.mem_cons]
  rw [names, placed, List.mem_filterMap]
  constructor
  · rintro ⟨part, member, named⟩
    cases part with
    | char c => exact nomatch named
    | slot m =>
      obtain rfl := Option.some.inj named
      exact member
  · intro member
    exact ⟨_, member, rfl⟩

private theorem names_increasing (template : String) :
    (names template).Pairwise fun a b => a < b := by
  unfold names
  generalize (parts template.toList).filterMap Part.name? = l
  induction l with
  | nil => exact .nil
  | cons n l ih => exact placeName_increasing ih

private theorem slot_mem_parts_iff {n : String} {cs : List Char} :
    .slot n ∈ parts cs ↔ ∃ p : Placeholder cs, n = String.ofList (lower p.name) := by
  induction cs using parts_induction with
  | nil =>
    refine iff_of_false (by simp [parts]) ?_
    rintro ⟨p, -⟩
    exact Nat.not_lt_zero _ p.start_lt_length
  | slot name rest named nameChars read ih =>
    rw [read, List.mem_cons, Part.slot.injEq, ih]
    constructor
    · rintro (same | ⟨p, same⟩)
      · exact ⟨.first named nameChars rest, same⟩
      · exact ⟨p.after _, same⟩
    · rintro ⟨p, same⟩
      rcases p.eq_first_or_after named nameChars with rfl | after
      · exact .inl same
      · exact .inr ⟨p.ofAfter after, same⟩
  | char c rest none read ih =>
    rw [read, List.mem_cons, ih]
    constructor
    · rintro (same | ⟨p, same⟩)
      · cases same
      · exact ⟨p.after [c], same⟩
    · rintro ⟨(p : Placeholder ([c] ++ rest)), same⟩
      have later : [c].length ≤ p.start := Nat.pos_of_ne_zero (none p)
      exact .inr ⟨p.ofAfter later, same⟩

private theorem mem_names_iff {n : String} {template : String} :
    n ∈ names template ↔
      ∃ p : Placeholder template.toList, n = String.ofList (lower p.name) :=
  mem_names.trans slot_mem_parts_iff

private theorem lowered_of_mem_names {n template : String} (h : n ∈ names template) :
    lowered n = n := by
  obtain ⟨p, rfl⟩ := mem_names_iff.1 h
  simp [lowered]

private theorem render_congr {value value' : String → Option String} {template : String}
    (h : ∀ n ∈ names template, value n = value' n) : render value template = render value' template := by
  have same : (parts template.toList).map (Part.fill value) =
      (parts template.toList).map (Part.fill value') := by
    refine List.map_congr_left fun part member => ?_
    cases part with
    | char c => rfl
    | slot n => rw [Part.fill, Part.fill, h n (mem_names.2 member)]
  rw [render, render, List.flatMap_def, List.flatMap_def, same]

private theorem hasPlaceholder_iff {template : String} :
    hasPlaceholder template = true ↔ names template ≠ [] := by
  rw [hasPlaceholder, List.any_eq_true]
  constructor
  · rintro ⟨part, member, named⟩
    cases part with
    | char c => exact absurd named Bool.false_ne_true
    | slot n => exact List.ne_nil_of_mem (mem_names.2 member)
  · intro some
    obtain ⟨n, member⟩ := List.exists_mem_of_ne_nil _ some
    exact ⟨.slot n, mem_names.1 member, rfl⟩

private theorem length_le_of_mem_names {value : String → Option String} {n template : String}
    (h : n ∈ names template) :
    ((value n).getD "").toList.length ≤ (render value template).toList.length := by
  obtain ⟨before, after, split⟩ := List.append_of_mem (mem_names.1 h)
  rw [render, String.toList_ofList, split, List.flatMap_append, List.flatMap_cons, Part.fill]
  simp only [List.length_append]
  omega

private theorem exists_render_ne {n template : String} (h : n ∈ names template) :
    ∃ vars vars' : Keyed String, (∀ m, m ≠ n → vars.get? m = vars'.get? m) ∧
      render vars.get? template ≠ render vars'.get? template := by
  -- A value that is longer than the whole rendering without it.
  let size := (render (Keyed.empty (α := String)).get? template).toList.length
  let long := String.ofList (List.replicate (size + 1) 'x')
  refine ⟨.empty, Keyed.empty.insert n long, ?_, ?_⟩
  · intro m other
    rw [Keyed.get?_insert, if_neg other]
  · intro same
    have bound : (((Keyed.empty.insert n long).get? n).getD "").toList.length ≤ _ :=
      length_le_of_mem_names h
    rw [← same, Keyed.get?_insert, if_pos rfl] at bound
    simp only [long, Option.getD_some, String.toList_ofList, List.length_replicate] at bound
    exact Nat.not_succ_le_self size bound

/-- The names of a text are those of its placeholders, in increasing order, and exactly what its
rendering depends on. -/
theorem names_eq_dependencies (template : String) :
    (names template).Pairwise (fun m n => m < n) ∧
    (∀ n ∈ names template, lowered n = n) ∧
    (∀ n, n ∈ names template ↔
      ∃ p : Placeholder template.toList, n = String.ofList (lower p.name)) ∧
    (∀ value value' : String → Option String, (∀ n ∈ names template, value n = value' n) →
      render value template = render value' template) ∧
    (∀ n ∈ names template, ∃ vars vars' : Keyed String, (∀ m, m ≠ n → vars.get? m = vars'.get? m) ∧
      render vars.get? template ≠ render vars'.get? template) ∧
    (names template = [] ↔ ∀ vars : Keyed String, render vars.get? template = template) ∧
    (hasPlaceholder template = true ↔ names template ≠ []) := by
  refine ⟨names_increasing template, fun _ => lowered_of_mem_names, fun _ => mem_names_iff,
    fun _ _ => render_congr, fun _ => exists_render_ne, ?_, hasPlaceholder_iff⟩
  constructor
  · intro none vars
    refine render_of_not_hasPlaceholder (Bool.eq_false_iff.2 fun found => ?_) vars.get?
    exact hasPlaceholder_iff.1 found none
  · intro copied
    refine List.eq_nil_iff_forall_not_mem.2 fun n member => ?_
    obtain ⟨vars, vars', -, differ⟩ := exists_render_ne member
    exact differ ((copied vars).trans (copied vars').symm)

end Runbook.Template
