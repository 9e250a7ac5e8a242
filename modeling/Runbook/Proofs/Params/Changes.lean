import Runbook.Proofs.Params

set_option autoImplicit false

/-!
Parameters that are changed. However often a value is set and values are replaced, the parameters
stay a map that keeps its order: a key that is there keeps its place, and a new one comes last.
-/
namespace Runbook.Params

open Text

/-- Parameters that were read from a blob and then changed. -/
inductive Obtained : Params → Prop
  | parsed {syn : Syntax} {blob : String} {p : Params} : parse syn blob = .ok p → Obtained p
  | set {p : Params} (key value : String) : Obtained p → Obtained (p.set key value)
  | mapValues {p : Params} (f : String → String → String) : Obtained p → Obtained (p.mapValues f)

private theorem setEntry_of_not_mem {key : String} {l : List (String × String)}
    (absent : key ∉ l.map (·.1)) (value : String) : setEntry key value l = l ++ [(key, value)] := by
  induction l with
  | nil => rfl
  | cons e l ih =>
    obtain ⟨differs, absent⟩ := not_or.1 (List.mem_cons.not.1 absent)
    rw [setEntry, if_neg (Ne.symm differs), ih absent, List.cons_append]

section Setting

variable {p : Params} {key : String}

private theorem entries_set_of_absent (absent : normalKey key ∉ p.keys) (value : String) :
    (p.set key value).entries = p.entries ++ [(normalKey key, value)] :=
  setEntry_of_not_mem absent value

private theorem keys_set_of_absent (absent : normalKey key ∉ p.keys) (value : String) :
    (p.set key value).keys = p.keys ++ [normalKey key] := by
  rw [keys, entries_set_of_absent absent, List.map_append]
  rfl

private theorem Proper.entries_set_of_present (h : p.Proper) (present : normalKey key ∈ p.keys)
    (value : String) :
    ∃ before old after, p.entries = before ++ (normalKey key, old) :: after ∧
      (p.set key value).entries = before ++ (normalKey key, value) :: after ∧
      normalKey key ∉ before.map (·.1) ++ after.map (·.1) := by
  obtain ⟨⟨name, old⟩, member, rfl⟩ := List.mem_map.1 present
  obtain ⟨before, after, split⟩ := List.append_of_mem member
  have distinct := h.distinct
  rw [keys, split, List.map_append, List.map_cons, List.nodup_middle, List.nodup_cons] at distinct
  have fresh := distinct.1
  refine ⟨before, old, after, split, ?_, fresh⟩
  rw [set, split]
  exact setEntry_append (fun earlier => fresh (List.mem_append_left _ earlier)) old value after

private theorem Proper.keys_set_of_present (h : p.Proper) (present : normalKey key ∈ p.keys)
    (value : String) : (p.set key value).keys = p.keys := by
  obtain ⟨before, old, after, was, is, -⟩ := h.entries_set_of_present present value
  rw [keys, keys, was, is, List.map_append, List.map_append]
  rfl

private theorem Proper.mem_set_iff (h : p.Proper) {value : String} {e : String × String} :
    e ∈ (p.set key value).entries ↔
      e = (normalKey key, value) ∨ e ∈ p.entries ∧ e.1 ≠ normalKey key := by
  by_cases present : normalKey key ∈ p.keys
  · obtain ⟨before, old, after, was, is, fresh⟩ := h.entries_set_of_present present value
    have others (e : String × String) (member : e ∈ before ∨ e ∈ after) : e.1 ≠ normalKey key := by
      rintro same
      rw [← same, ← List.map_append] at fresh
      exact fresh (List.mem_map_of_mem (List.mem_append.2 member))
    rw [was, is, List.mem_append, List.mem_cons, List.mem_append, List.mem_cons]
    constructor
    · rintro (earlier | rfl | later)
      · exact .inr ⟨.inl earlier, others e (.inl earlier)⟩
      · exact .inl rfl
      · exact .inr ⟨.inr (.inr later), others e (.inr later)⟩
    · rintro (rfl | ⟨earlier | rfl | later, differs⟩)
      · exact .inr (.inl rfl)
      · exact .inl earlier
      · exact absurd rfl differs
      · exact .inr (.inr later)
  · have others (member : e ∈ p.entries) : e.1 ≠ normalKey key := by
      rintro same
      rw [← same] at present
      exact present (List.mem_map_of_mem member)
    rw [entries_set_of_absent present, List.mem_append, List.mem_singleton, or_comm]
    exact or_congr_right (iff_self_and.2 others)

private theorem Proper.set (h : p.Proper) (key value : String) : (p.set key value).Proper := by
  by_cases present : normalKey key ∈ p.keys
  · exact h.of_keys (h.keys_set_of_present present value)
  · constructor
    · rw [keys_set_of_absent present]
      intro k member
      rcases List.mem_append.1 member with earlier | last
      · exact h.normal k earlier
      · rw [List.mem_singleton.1 last, normalKey_normalKey]
    · rw [keys_set_of_absent present, ← List.concat_eq_append]
      exact h.distinct.concat present

private theorem Proper.get?_set (h : p.Proper) (key value q : String) :
    (p.set key value).get? q =
      if sameIgnoringCase q (trimmed key) then some value else p.get? q := by
  refine Option.ext fun found => ?_
  rw [(h.set key value).get?_eq_some_iff, h.mem_set_iff]
  have normal : normalKey key = lowered (trimmed key) := rfl
  split
  · next same =>
    rw [sameIgnoringCase_iff, ← normal] at same
    simp [same, eq_comm]
  · next differs =>
    rw [sameIgnoringCase_iff, ← normal] at differs
    simp [differs, h.get?_eq_some_iff]

private theorem Proper.contains_trimmed_iff (h : p.Proper) :
    p.contains (trimmed key) = true ↔ normalKey key ∈ p.keys := by
  rw [contains, Option.isSome_iff_ne_none, ne_eq, h.get?_eq_none_iff, not_not, normalKey]

end Setting

private theorem Obtained.proper {p : Params} (h : Obtained p) : p.Proper := by
  induction h with
  | parsed ok => exact parse_proper ok
  | set key value _ ih => exact ih.set key value
  | mapValues f _ ih => exact ih.mapValues f

private theorem trimmed_of_normal {key : String} (h : normalKey key = key) : trimmed key = key := by
  rw [← h, normalKey, trimmed, lowered, String.toList_ofList, trim_lower, trimmed, String.toList_ofList,
    trim_trim]

private theorem Proper.countP_le_one {p : Params} (h : p.Proper) (key : String) :
    p.entries.countP (fun e => sameIgnoringCase e.1 key) ≤ 1 := by
  have same : p.entries.countP (fun e => sameIgnoringCase e.1 key) = p.keys.count (lowered key) := by
    rw [keys, List.count, List.countP_map]
    refine List.countP_congr fun e member => ?_
    rw [sameIgnoringCase, h.lowered_key member]
    rfl
  rw [same]
  exact List.nodup_iff_count_le_one.1 h.distinct _

private theorem Proper.get?_mapValues {p : Params} (h : p.Proper) (f : String → String → String)
    (key : String) : (p.mapValues f).get? key = (p.get? key).map (f (lowered key)) := by
  refine Option.ext fun value => ?_
  rw [(h.mapValues f).get?_eq_some_iff, Option.map_eq_some_iff]
  simp only [h.get?_eq_some_iff, Params.mapValues, List.mem_map, Prod.mk.injEq]
  constructor
  · rintro ⟨e, member, same, rfl⟩
    rw [← same]
    exact ⟨e.2, member, rfl⟩
  · rintro ⟨old, member, rfl⟩
    exact ⟨_, member, rfl, rfl⟩

/-- Parameters are a map that keeps its order, however they were obtained. -/
theorem insertion_ordered {p : Params} (obtained : Obtained p) :
    (∀ key ∈ p.keys, trimmed key = key ∧ lowered key = key) ∧ p.keys.Nodup ∧
    (∀ q, p.entries.countP (fun e => sameIgnoringCase e.1 q) ≤ 1) ∧
    (∀ key value, let p' := p.set key value
      (∀ q, p'.get? q = if sameIgnoringCase q (trimmed key) then some value else p.get? q) ∧
      p'.keys = (if p.contains (trimmed key) then p.keys else p.keys ++ [normalKey key]) ∧
      p'.entries.length = p.entries.length + if p.contains (trimmed key) then 0 else 1) ∧
    ∀ f, (p.mapValues f).keys = p.keys ∧
      ∀ q, (p.mapValues f).get? q = (p.get? q).map (f (lowered q)) := by
  have proper := obtained.proper
  refine ⟨?_, proper.distinct, proper.countP_le_one, ?_, ?_⟩
  · intro key member
    have normal := proper.normal key member
    exact ⟨trimmed_of_normal normal, lowered_of_normal normal⟩
  · intro key value p'
    have keys : p'.keys =
        if p.contains (trimmed key) then p.keys else p.keys ++ [normalKey key] := by
      simp only [proper.contains_trimmed_iff]
      split
      · next present => exact proper.keys_set_of_present present value
      · next absent => exact keys_set_of_absent absent value
    refine ⟨proper.get?_set key value, keys, ?_⟩
    have lengths (q : Params) : q.entries.length = q.keys.length := by simp [Params.keys]
    rw [lengths, lengths, keys]
    split
    · rfl
    · exact List.length_append
  · intro f
    exact ⟨keys_mapValues p f, proper.get?_mapValues f⟩

def editedParams : Params :=
  Params.set ⟨[("b", "1"), ("a", "2")]⟩ " C" "3"

theorem editedParams_ordered :
    Obtained editedParams ∧ (editedParams.set "A " "4").keys = ["b", "a", "c"] ∧
    (editedParams.set "A " "4").get? "a" = some "4" ∧
    (editedParams.set "A " "4").get? "B" = some "1" ∧
    (editedParams.set "d" "5").keys = ["b", "a", "c", "d"] := by
  have read : parse {} "b=1; A =2;" = .ok ⟨[("b", "1"), ("a", "2")]⟩ := by rfl
  have obtained : Obtained editedParams := .set " C" "3" (.parsed read)
  obtain ⟨-, -, -, changed, -⟩ := insertion_ordered obtained
  obtain ⟨found, keys, -⟩ := changed "A " "4"
  obtain ⟨-, longer, -⟩ := changed "d" "5"
  refine ⟨obtained, ?_, ?_, ?_, ?_⟩
  · rw [keys]
    decide +kernel
  · rw [found]
    decide +kernel
  · rw [found]
    decide +kernel
  · rw [longer]
    decide +kernel

end Runbook.Params
