import Mathlib.Data.List.Nodup
import Mathlib.Data.List.Perm.Basic
import Runbook.Keyed

set_option autoImplicit false

/-!
Maps by their look-ups. A map is determined by what is found in it; of entries that are put in one
after the other the last of a name is found; and the order does not matter when no name is there
twice.
-/
namespace Runbook.Keyed

variable {α : Type}

section Find

variable {k : String} {v : α} {l : List (String × α)}

theorem find_isSome_iff : (find k l).isSome = true ↔ ∃ e ∈ l, e.1 = k := by
  induction l with
  | nil => simp [find]
  | cons e l ih =>
    rw [List.exists_mem_cons_iff, ← ih, find]
    split
    · next same => simp [same]
    · next differs => simp [Ne.symm differs]

theorem find_eq_none_iff : find k l = none ↔ k ∉ l.map (·.1) := by
  rw [← Option.not_isSome_iff_eq_none, find_isSome_iff, List.mem_map]

theorem mem_of_find (h : find k l = some v) : (k, v) ∈ l := by
  induction l with
  | nil => exact nomatch h
  | cons e l ih =>
    rw [find] at h
    split at h
    · next same =>
      obtain rfl := Option.some.inj h
      rw [same]
      exact List.mem_cons_self
    · exact List.mem_cons_of_mem e (ih h)

private theorem find_eq_some_iff (distinct : (l.map (·.1)).Nodup) :
    find k l = some v ↔ (k, v) ∈ l := by
  refine ⟨mem_of_find, fun member => ?_⟩
  obtain ⟨v', found⟩ := Option.isSome_iff_exists.1 (find_isSome_iff.2 ⟨_, member, rfl⟩)
  have same := List.inj_on_of_nodup_map distinct (mem_of_find found) member rfl
  rw [found, (Prod.mk.inj same).2]

private theorem find_append (k : String) (l l' : List (String × α)) :
    find k (l ++ l') = (find k l).or (find k l') := by
  induction l with
  | nil => rfl
  | cons e l ih =>
    simp only [List.cons_append, find, ih]
    split <;> rfl

end Find

theorem distinct (m : Keyed α) : (m.entries.map (·.1)).Nodup := by
  refine List.pairwise_map.2 (m.increasing.imp fun before same => ?_)
  rw [same] at before
  exact String.lt_irrefl _ before

theorem nodup_keys (m : Keyed α) : m.keys.Nodup :=
  m.distinct

theorem get?_eq_some_iff {m : Keyed α} {k : String} {v : α} :
    m.get? k = some v ↔ (k, v) ∈ m.entries :=
  find_eq_some_iff m.distinct

theorem mem_keys_iff {m : Keyed α} {k : String} : k ∈ m.keys ↔ (m.get? k).isSome = true := by
  rw [get?, find_isSome_iff, keys, List.mem_map]

theorem ext_get? {m m' : Keyed α} (h : ∀ k, m.get? k = m'.get? k) : m = m' := by
  have members : m.entries.Perm m'.entries := by
    refine (List.perm_ext_iff_of_nodup m.distinct.of_map m'.distinct.of_map).2 fun e => ?_
    rw [← get?_eq_some_iff, h, get?_eq_some_iff]
  have entries : m.entries = m'.entries := by
    refine members.eq_of_pairwise (fun a b _ _ before after => ?_) m.increasing m'.increasing
    exact absurd (String.lt_trans before after) (String.lt_irrefl _)
  obtain ⟨l, increasing⟩ := m
  obtain ⟨l', increasing'⟩ := m'
  obtain rfl : l = l' := entries
  rfl

private theorem insert_comm (m : Keyed α) {k k' : String} (differ : k ≠ k') (v v' : α) :
    (m.insert k v).insert k' v' = (m.insert k' v').insert k v := by
  refine ext_get? fun name => ?_
  simp only [get?_insert]
  split
  · next first =>
    rw [if_neg fun second => differ (second.symm.trans first)]
  · rfl

theorem insert_of_get? {m : Keyed α} {k : String} {v : α} (h : m.get? k = some v) :
    m.insert k v = m := by
  refine ext_get? fun name => ?_
  rw [get?_insert]
  split
  · next same => rw [same, h]
  · rfl

theorem insertAll_append (m : Keyed α) (l l' : List (String × α)) :
    m.insertAll (l ++ l') = (m.insertAll l).insertAll l' :=
  List.foldl_append

theorem get?_insertAll (m : Keyed α) (l : List (String × α)) (k : String) :
    (m.insertAll l).get? k = (find k l.reverse).or (m.get? k) := by
  induction l generalizing m with
  | nil => rfl
  | cons e l ih =>
    change ((m.insert e.1 e.2).insertAll l).get? k = _
    rw [ih, get?_insert, List.reverse_cons, find_append, Option.or_assoc]
    congr 1
    simp only [find]
    split <;> rfl

theorem mem_keys_ofList {l : List (String × α)} {k : String} :
    k ∈ (ofList l).keys ↔ k ∈ l.map (·.1) := by
  rw [mem_keys_iff, ofList, get?_insertAll, get?_empty, Option.or_none, find_isSome_iff, List.mem_map]
  simp only [List.mem_reverse]

theorem mem_insertAll {m : Keyed α} {l : List (String × α)} {e : String × α}
    (h : e ∈ (m.insertAll l).entries) : e ∈ m.entries ∨ e ∈ l := by
  rw [← get?_eq_some_iff, get?_insertAll, Option.or_eq_some_iff, get?_eq_some_iff] at h
  rcases h with put | ⟨-, before⟩
  · exact .inr (List.mem_reverse.1 (mem_of_find put))
  · exact .inl before

theorem get?_insertAll_of_not_mem (m : Keyed α) {l : List (String × α)} {k : String}
    (absent : k ∉ l.map (·.1)) : (m.insertAll l).get? k = m.get? k := by
  have nowhere : find k l.reverse = none := by
    rw [find_eq_none_iff, List.map_reverse, List.mem_reverse]
    exact absent
  rw [get?_insertAll, nowhere, Option.none_or]

theorem get?_insertAll_of_mem (m : Keyed α) {l : List (String × α)} {k : String} {v : α}
    (distinct : (l.map (·.1)).Nodup) (member : (k, v) ∈ l) :
    (m.insertAll l).get? k = some v := by
  have found : find k l.reverse = some v := by
    rw [find_eq_some_iff, List.mem_reverse]
    · exact member
    · rw [List.map_reverse, List.nodup_reverse]
      exact distinct
  rw [get?_insertAll, found, Option.some_or]

theorem insertAll_perm (m : Keyed α) {l l' : List (String × α)} (distinct : (l.map (·.1)).Nodup)
    (perm : l.Perm l') : m.insertAll l = m.insertAll l' := by
  refine perm.foldl_eq' (fun e member e' member' m => ?_) m
  by_cases same : e.1 = e'.1
  · rw [List.inj_on_of_nodup_map distinct member member' same]
  · exact insert_comm m same e.2 e'.2

end Runbook.Keyed
