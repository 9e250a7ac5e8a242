import Runbook.Proofs.DateToken.Rendering
import Runbook.Proofs.Keyed

set_option autoImplicit false

/-!
What is laid over variables. A date token that can be expanded lays the bundle of its moment over
them, and setting variables lays their values over the others. All names of a bundle are reserved,
so no date token touches a variable of the user.
-/
namespace Runbook

open Text

namespace DateToken

open Calendar

def moment? (now : Moment) (token : String) : Option Moment :=
  match parse token with
  | .ok t => t.shifted? now
  | .error _ => none

theorem moment?_of_not_isToken {value : String} (h : isToken value = false) (now : Moment) :
    moment? now value = none := by
  rw [moment?, parse_of_not_isToken h]

/-- The entries of the bundles of those texts that are expandable date tokens, one bundle after the
other. -/
def bundles (now : Moment) (values : List String) : List (String × String) :=
  (values.filterMap (moment? now)).flatMap fun m => (bundle m).entries

theorem bundles_of_not_isToken {now : Moment} {values : List String}
    (h : ∀ value ∈ values, isToken value = false) : bundles now values = [] := by
  have nothing : values.filterMap (moment? now) = [] :=
    List.filterMap_eq_nil_iff.2 fun value member => moment?_of_not_isToken (h value member) now
  rw [bundles, nothing, List.flatMap_nil]

theorem bundles_cons_of_none {now : Moment} {value : String} (h : moment? now value = none)
    (values : List String) : bundles now (value :: values) = bundles now values := by
  rw [bundles, List.filterMap_cons_none h]
  rfl

theorem bundles_cons_of_some {now : Moment} {value : String} {m : Moment}
    (h : moment? now value = some m) (values : List String) :
    bundles now (value :: values) = (bundle m).entries ++ bundles now values := by
  rw [bundles, List.filterMap_cons_some h]
  rfl

theorem bundles_filter_isToken (now : Moment) (values : List String) :
    bundles now (values.filter isToken) = bundles now values := by
  induction values with
  | nil => rfl
  | cons value values ih =>
    cases token : isToken value with
    | false =>
      rw [List.filter_cons_of_neg (by simp [token]), ih,
        bundles_cons_of_none (moment?_of_not_isToken token now)]
    | true =>
      rw [List.filter_cons_of_pos token]
      cases moment : moment? now value with
      | none => rw [bundles_cons_of_none moment, bundles_cons_of_none moment, ih]
      | some m => rw [bundles_cons_of_some moment, bundles_cons_of_some moment, ih]

def bundleNames : List String :=
  (Style.all.flatMap fun s => styledOutputs.map fun o => entryName o s) ++
    ["$hours24", "$hours12", "$minutes", "$seconds", "$ampm", "$millis", "$timestamp"]

theorem map_fst_bundleEntries (m : Moment) : (bundleEntries m).map (·.1) = bundleNames := by
  simp only [bundleEntries, bundleNames, List.map_append, List.map_flatMap, List.map_map]
  rfl

theorem reserved_of_mem_bundleNames {name : String} (h : name ∈ bundleNames) :
    Variables.isReserved name = true := by
  have all : bundleNames.all Variables.isReserved = true := by decide +kernel
  exact List.all_eq_true.1 all name h

theorem mem_bundleNames_of_bundles {now : Moment} {values : List String} {e : String × String}
    (h : e ∈ bundles now values) : e.1 ∈ bundleNames := by
  obtain ⟨m, -, member⟩ := List.mem_flatMap.1 h
  rcases Keyed.mem_insertAll member with nowhere | entry
  · exact nomatch nowhere
  · rw [← map_fst_bundleEntries m]
    exact List.mem_map_of_mem entry

end DateToken

namespace Variables

def overlaid (v : Variables) (l : List (String × String)) : Variables :=
  { v with store := v.store.insertAll l }

theorem now_overlaid (v : Variables) (l : List (String × String)) : (v.overlaid l).now = v.now :=
  rfl

theorem overlaid_append (v : Variables) (l l' : List (String × String)) :
    v.overlaid (l ++ l') = (v.overlaid l).overlaid l' := by
  simp only [overlaid, Keyed.insertAll_append]

theorem overlaid_perm (v : Variables) {l l' : List (String × String)}
    (distinct : (l.map (·.1)).Nodup) (perm : l.Perm l') : v.overlaid l = v.overlaid l' := by
  rw [overlaid, overlaid, v.store.insertAll_perm distinct perm]

theorem setAll_eq_overlaid (v : Variables) {pairs : List (String × String)}
    (small : ∀ e ∈ pairs, lowered e.1 = e.1) : v.setAll pairs = v.overlaid pairs := by
  induction pairs generalizing v with
  | nil => rfl
  | cons e pairs ih =>
    have first : v.set e.1 e.2 = v.overlaid [e] := by
      rw [set, small e List.mem_cons_self]
      rfl
    calc v.setAll (e :: pairs)
        = (v.overlaid [e]).setAll pairs := congrArg (setAll · pairs) first
      _ = (v.overlaid [e]).overlaid pairs :=
          ih _ fun e member => small e (List.mem_cons_of_mem _ member)
      _ = v.overlaid (e :: pairs) := (v.overlaid_append [e] pairs).symm

theorem get?_overlaid_of_not_mem (v : Variables) {l : List (String × String)} {name : String}
    (absent : lowered name ∉ l.map (·.1)) : (v.overlaid l).get? name = v.get? name :=
  v.store.get?_insertAll_of_not_mem absent

theorem get?_overlaid_of_mem (v : Variables) {l : List (String × String)} {name value : String}
    (distinct : (l.map (·.1)).Nodup) (member : (lowered name, value) ∈ l) :
    (v.overlaid l).get? name = some value :=
  v.store.get?_insertAll_of_mem distinct member

theorem isReserved_lowered (name : String) : isReserved (lowered name) = isReserved name := by
  have dollar (c : Char) : c.toLower = '$' ↔ c = '$' := by
    rcases toLower_cases c with ⟨low, high, value⟩ | same
    · have number : '$'.toNat = 36 := rfl
      constructor
      · intro same
        rw [same, number] at value
        omega
      · rintro rfl
        omega
    · rw [same]
  rw [isReserved, isReserved, lowered, String.toList_ofList, lower, List.head?_map]
  cases name.toList.head? with
  | none => rfl
  | some c => simp [dollar]

theorem get?_overlaid_bundles (v : Variables) (now : Calendar.Moment) (values : List String)
    {name : String} (user : isReserved name = false) :
    (v.overlaid (DateToken.bundles now values)).get? name = v.get? name := by
  refine v.get?_overlaid_of_not_mem fun member => ?_
  obtain ⟨e, entry, same⟩ := List.mem_map.1 member
  have reserved := DateToken.reserved_of_mem_bundleNames (DateToken.mem_bundleNames_of_bundles entry)
  rw [same, isReserved_lowered, user] at reserved
  exact nomatch reserved

section Merging

variable {v : Variables} {e : String × String} {l : List (String × String)}

private theorem mergeEntry_eq (n : Nat) :
    mergeEntry (v, n) e = (v.overlaid [e], if v.store.get? e.1 = some e.2 then n else n + 1) := by
  rw [mergeEntry]
  split
  · next present =>
    have same : v.store.insertAll [e] = v.store := Keyed.insert_of_get? present
    rw [overlaid, same]
  · rfl

private theorem foldl_mergeEntry (distinct : (l.map (·.1)).Nodup) (n : Nat) :
    l.foldl mergeEntry (v, n) =
      (v.overlaid l, n + l.countP fun e => v.store.get? e.1 ≠ some e.2) := by
  induction l generalizing v n with
  | nil => rfl
  | cons e l ih =>
    obtain ⟨fresh, rest⟩ := List.nodup_cons.1 distinct
    have others : (l.countP fun e' => (v.overlaid [e]).store.get? e'.1 ≠ some e'.2) =
        l.countP fun e' => v.store.get? e'.1 ≠ some e'.2 := by
      refine List.countP_congr fun e' member => ?_
      have apart : e'.1 ∉ [e].map (·.1) := by
        intro same
        refine fresh ?_
        rw [← List.mem_singleton.1 same]
        exact List.mem_map_of_mem member
      have kept : (v.overlaid [e]).store.get? e'.1 = v.store.get? e'.1 :=
        v.store.get?_insertAll_of_not_mem apart
      rw [kept]
    rw [List.foldl_cons, mergeEntry_eq, ih rest, others, ← v.overlaid_append [e] l, List.countP_cons]
    by_cases present : v.store.get? e.1 = some e.2
    · simp [present]
    · simp [present, Nat.add_assoc, Nat.add_comm 1]

private theorem merge_eq (v : Variables) (b : Keyed String) :
    v.merge b =
      (v.overlaid b.entries, b.entries.countP fun e => v.store.get? e.1 ≠ some e.2) := by
  rw [merge, foldl_mergeEntry b.distinct, Nat.zero_add]

end Merging

theorem expandDate_of_shifted {v : Variables} {token : String} {t : DateToken} {m : Calendar.Moment}
    (read : DateToken.parse token = .ok t) (moment : t.shifted? v.now = some m) :
    v.expandDate token =
      (.ok ⟨DateToken.write m t.output t.style, DateToken.bundle m,
          (DateToken.bundle m).entries.countP fun e => v.store.get? e.1 ≠ some e.2⟩,
        v.overlaid (DateToken.bundle m).entries) := by
  simp only [expandDate, read, moment, merge_eq]

/-- A token is expanded exactly when it stands for a moment, whose bundle is then laid over the
variables. -/
theorem expandDate_cases (v : Variables) (token : String) :
    (∃ e, v.expandDate token = (.error e, v) ∧ DateToken.rendered v.now token = .error e ∧
      DateToken.moment? v.now token = none) ∨
    ∃ x m, v.expandDate token = (.ok x, v.overlaid (DateToken.bundle m).entries) ∧
      DateToken.rendered v.now token = .ok x.value ∧ DateToken.moment? v.now token = some m := by
  rw [DateToken.moment?]
  cases read : DateToken.parse token with
  | error e =>
    refine .inl ⟨e, ?_, DateToken.rendered_of_parse_error read v.now, rfl⟩
    rw [expandDate, read]
  | ok t =>
    cases moment : t.shifted? v.now with
    | none =>
      refine .inl ⟨.outOfRange token, ?_, ?_, moment⟩
      · simp only [expandDate, read, moment]
      · simp only [DateToken.rendered, read, moment]
    | some m =>
      have written : DateToken.rendered v.now token = .ok (DateToken.write m t.output t.style) := by
        simp only [DateToken.rendered, read, moment]
      exact .inr ⟨_, m, expandDate_of_shifted read moment, written, moment⟩

end Variables
end Runbook
