import Mathlib.Data.List.Nodup
import Runbook.Params
import Runbook.Proofs.Text.Blank

set_option autoImplicit false

/-!
Parameters as maps. The keys that are read from a blob are in the form in which keys are stored, and
no key is there twice; in such parameters a value is found under a key exactly when the two are an
entry.
-/
namespace Runbook.Params

open Text

/-- Keys in their stored form, and none of them twice. -/
structure Proper (p : Params) : Prop where
  normal : ∀ key ∈ p.keys, normalKey key = key
  distinct : p.keys.Nodup

theorem normalKey_normalKey (key : String) : normalKey (normalKey key) = normalKey key := by
  simp [normalKey, lowered, trimmed, trim_lower]

theorem lowered_of_normal {key : String} (h : normalKey key = key) : lowered key = key := by
  rw [← h, normalKey, lowered_lowered]

theorem Proper.lowered_key {p : Params} (h : p.Proper) {e : String × String}
    (member : e ∈ p.entries) : lowered e.1 = e.1 :=
  lowered_of_normal (h.normal e.1 (List.mem_map_of_mem member))

theorem Proper.get?_eq_some_iff {p : Params} (h : p.Proper) {key value : String} :
    p.get? key = some value ↔ (lowered key, value) ∈ p.entries := by
  rw [get?, Option.map_eq_some_iff]
  constructor
  · rintro ⟨e, found, rfl⟩
    have member := List.mem_of_find?_eq_some found
    have same := List.find?_some found
    rw [sameIgnoringCase_iff, h.lowered_key member] at same
    rw [← same]
    exact member
  · intro member
    have matched : sameIgnoringCase (lowered key) key = true := by simp [sameIgnoringCase]
    have present : (p.entries.find? fun e => sameIgnoringCase e.1 key).isSome = true :=
      List.find?_isSome.2 ⟨_, member, matched⟩
    obtain ⟨e, found⟩ := Option.isSome_iff_exists.1 present
    have other := List.mem_of_find?_eq_some found
    have same := List.find?_some found
    rw [sameIgnoringCase_iff, h.lowered_key other] at same
    -- Two entries under one key are the same entry.
    obtain rfl := List.inj_on_of_nodup_map h.distinct other member same
    exact ⟨_, found, rfl⟩

theorem Proper.get?_eq_none_iff {p : Params} (h : p.Proper) {key : String} :
    p.get? key = none ↔ lowered key ∉ p.keys := by
  rw [Option.eq_none_iff_forall_ne_some]
  constructor
  · intro absent present
    obtain ⟨e, member, same⟩ := List.mem_map.1 present
    refine absent e.2 (h.get?_eq_some_iff.2 ?_)
    rw [← same]
    exact member
  · intro absent value found
    exact absent (List.mem_map_of_mem (h.get?_eq_some_iff.1 found))

theorem keys_mapValues (p : Params) (f : String → String → String) :
    (p.mapValues f).keys = p.keys := by
  simp [keys, mapValues]

theorem Proper.of_keys {p q : Params} (h : p.Proper) (same : q.keys = p.keys) : q.Proper := by
  constructor
  · rw [same]
    exact h.normal
  · rw [same]
    exact h.distinct

theorem Proper.mapValues {p : Params} (h : p.Proper) (f : String → String → String) :
    (p.mapValues f).Proper :=
  h.of_keys (keys_mapValues p f)

theorem Proper.get?_congr {p q : Params} (h : p.Proper) (perm : q.entries.Perm p.entries)
    (key : String) : q.get? key = p.get? key := by
  have keys : q.keys.Perm p.keys := perm.map _
  have proper : q.Proper :=
    ⟨fun key member => h.normal key (keys.subset member), keys.nodup_iff.2 h.distinct⟩
  refine Option.ext fun value => ?_
  rw [proper.get?_eq_some_iff, h.get?_eq_some_iff, perm.mem_iff]

theorem get?_mapValues (p : Params) (f : String → String) (key : String) :
    (p.mapValues fun _ value => f value).get? key = (p.get? key).map f := by
  simp only [get?, mapValues, List.find?_map, Option.map_map]
  rfl

theorem setEntry_append {key : String} {before : List (String × String)}
    (absent : key ∉ before.map (·.1)) (old new : String) (after : List (String × String)) :
    setEntry key new (before ++ (key, old) :: after) = before ++ (key, new) :: after := by
  induction before with
  | nil => exact if_pos rfl
  | cons e before ih =>
    obtain ⟨differs, absent⟩ := not_or.1 (List.mem_cons.not.1 absent)
    rw [List.cons_append, List.cons_append, setEntry, if_neg (Ne.symm differs), ih absent]

theorem proper_empty : Proper {} :=
  ⟨nofun, List.nodup_nil⟩

private theorem normalKey_of_entry {segment : List Char} {key value : String}
    (h : entry segment = .ok (key, value)) : normalKey key = key := by
  unfold entry at h
  split at h
  · exact nomatch h
  · dsimp only at h
    split at h
    · exact nomatch h
    · obtain ⟨rfl, -⟩ := Prod.mk.inj (Except.ok.inj h)
      simp [normalKey, lowered, trimmed, trim_lower]

private theorem Proper.concat {p : Params} (h : p.Proper) {key : String}
    (normal : normalKey key = key)
    (absent : p.contains key = false) (value : String) :
    Proper ⟨p.entries ++ [(key, value)]⟩ := by
  have fresh : key ∉ p.keys := by
    rw [← lowered_of_normal normal, ← h.get?_eq_none_iff]
    simpa [contains] using absent
  have keys : Params.keys ⟨p.entries ++ [(key, value)]⟩ = p.keys ++ [key] := List.map_append
  constructor
  · intro k member
    rw [keys, List.mem_append, List.mem_singleton] at member
    rcases member with earlier | rfl
    · exact h.normal k earlier
    · exact normal
  · rw [keys]
    exact List.nodup_append.2 ⟨h.distinct, List.nodup_singleton key, by
      rintro k earlier _ (last : _ ∈ [key]) rfl
      exact fresh (List.mem_singleton.1 last ▸ earlier)⟩

private theorem readSegments_proper {p q : Params} {segments : List (List Char)} (h : p.Proper)
    (read : readSegments p segments = .ok q) : q.Proper := by
  induction segments generalizing p with
  | nil =>
    obtain rfl := Except.ok.inj read
    exact h
  | cons segment rest ih =>
    rw [readSegments] at read
    split at read
    · exact nomatch read
    · next key value found =>
      split at read
      · exact nomatch read
      · next absent =>
        exact ih (h.concat (normalKey_of_entry found) (Bool.eq_false_iff.2 absent) value) read

theorem parse_proper {syn : Syntax} {blob : String} {p : Params} (h : parse syn blob = .ok p) :
    p.Proper :=
  readSegments_proper proper_empty h

end Runbook.Params
