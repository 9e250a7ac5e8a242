import Mathlib.Data.Finset.Card
import Mathlib.Logic.Function.Basic
import Runbook.Proofs.Template.Placeholders
import Runbook.Proofs.Variables

set_option autoImplicit false

/-!
Variables as a map from names. Whatever is done to variables one after the other, they are a map
from names in small letters, and every look-up goes by the name in small letters. Placeholders are
looked up as they are, and the names of date bundles are put in as they are; both agree with the
rest because no name is ever stored in capitals.
-/
namespace Runbook

open Text

private theorem DateToken.lowered_of_mem_bundleNames {name : String} (h : name ∈ bundleNames) :
    lowered name = name := by
  have all : bundleNames.all (fun name => lowered name == name) = true := by decide +kernel
  exact eq_of_beq (List.all_eq_true.1 all name h)

private theorem DateToken.lowered_of_mem_bundle {m : Calendar.Moment} {e : String × String}
    (h : e ∈ (bundle m).entries) : lowered e.1 = e.1 := by
  rcases Keyed.mem_insertAll h with nowhere | entry
  · exact nomatch nowhere
  · refine lowered_of_mem_bundleNames ?_
    rw [← map_fst_bundleEntries m]
    exact List.mem_map_of_mem entry

private theorem Template.render_braced (value : String → Option String) {name : String}
    (named : name ≠ "")
    (nameChars : ∀ c ∈ name.toList, isNameChar c = true) :
    render value (String.ofList (braced name.toList)) = (value (lowered name)).getD "" := by
  have found : placeholder? (name.toList ++ '}' :: []) = some (name.toList, []) :=
    placeholder?_eq_some_iff.2 ⟨fun none => named (String.toList_eq_nil_iff.1 none), nameChars, rfl⟩
  have nothing : parts [] = [] := by simp [parts]
  rw [render, String.toList_ofList, braced, parts_slot found, nothing, List.flatMap_singleton,
    Part.fill, String.ofList_toList]
  rfl

namespace Variables

/-- What can be done to variables. In the meantime the clock and the offset may change. -/
inductive Change
  | set (name value : String)
  | erase (name : String)
  | clearUser
  | clear
  | expand (token : String)
  | turn (clock : Calendar.Instant) (offset : Calendar.Offset)

def change (v : Variables) : Change → Variables
  | .set name value => v.set name value
  | .erase name => v.erase name
  | .clearUser => v.clearUser
  | .clear => v.clear
  | .expand token => (v.expandDate token).2
  | .turn clock offset => { v with clock, offset }

/-- A map from names, of which only those in small letters have values, and the present moment. -/
structure Reference where
  values : String → Option String := fun _ => none
  now : Calendar.Moment

namespace Reference

def put (m : Reference) (name : String) (value : Option String) : Reference :=
  { m with values := Function.update m.values (lowered name) value }

def putAll (m : Reference) (entries : List (String × String)) : Reference :=
  entries.foldl (fun m e => m.put e.1 (some e.2)) m

def change (m : Reference) : Change → Reference
  | .set name value => m.put name (some value)
  | .erase name => m.put name none
  | .clearUser => { m with values := fun name => if isReserved name then m.values name else none }
  | .clear => { m with values := fun _ => none }
  | .expand token =>
    match DateToken.moment? m.now token with
    | some moment => m.putAll (DateToken.bundle moment).entries
    | none => m
  | .turn clock offset => { m with now := ⟨clock, offset⟩ }

end Reference

/-- Variables that are such a map, all of whose names are in small letters. -/
structure Refines (v : Variables) (m : Reference) : Prop where
  values : v.store.get? = m.values
  small : ∀ name, (m.values name).isSome = true → lowered name = name
  now : v.now = m.now

namespace Refines

variable {v : Variables} {m : Reference}

private theorem set (h : Refines v m) (name value : String) :
    Refines (v.set name value) (m.put name (some value)) where
  values := by
    funext k
    rw [Variables.set, Keyed.get?_insert, h.values]
    exact (Function.update_apply m.values (lowered name) (some value) k).symm
  small := by
    intro k present
    simp only [Reference.put, Function.update_apply] at present
    split at present
    · next same => rw [same, lowered_lowered]
    · exact h.small k present
  now := h.now

private theorem erase (h : Refines v m) (name : String) :
    Refines (v.erase name) (m.put name none) where
  values := by
    funext k
    rw [Variables.erase, Keyed.get?_erase, h.values]
    exact (Function.update_apply m.values (lowered name) none k).symm
  small := by
    intro k present
    simp only [Reference.put, Function.update_apply] at present
    split at present
    · exact nomatch present
    · exact h.small k present
  now := h.now

private theorem setAll (h : Refines v m) (pairs : List (String × String)) :
    Refines (v.setAll pairs) (m.putAll pairs) := by
  induction pairs generalizing v m with
  | nil => exact h
  | cons e pairs ih => exact ih (h.set e.1 e.2)

private theorem clearUser (h : Refines v m) : Refines v.clearUser (m.change .clearUser) where
  values := by
    funext k
    rw [Variables.clearUser, Keyed.get?_filter, h.values]
    simp only [Reference.change]
    cases m.values k with
    | none => exact (ite_self none).symm
    | some value => rfl
  small := by
    intro k present
    simp only [Reference.change] at present
    split at present
    · exact h.small k present
    · exact nomatch present
  now := h.now

private theorem expand (h : Refines v m) (token : String) :
    Refines (v.change (.expand token)) (m.change (.expand token)) := by
  rcases v.expandDate_cases token with ⟨e, refused, -, moment⟩ | ⟨x, moment, expanded, -, found⟩
  · simp only [Variables.change, Reference.change, ← h.now, refused, moment]
    exact h
  · simp only [Variables.change, Reference.change, ← h.now, expanded, found]
    rw [← v.setAll_eq_overlaid fun e => DateToken.lowered_of_mem_bundle]
    exact h.setAll _

private theorem change (h : Refines v m) (c : Change) : Refines (v.change c) (m.change c) := by
  cases c with
  | set name value => exact h.set name value
  | erase name => exact h.erase name
  | clearUser => exact h.clearUser
  | clear => exact ⟨rfl, fun _ present => (nomatch present), h.now⟩
  | expand token => exact h.expand token
  | turn clock offset => exact ⟨h.values, h.small, rfl⟩

private theorem changes (h : Refines v m) (cs : List Change) :
    Refines (cs.foldl Variables.change v) (cs.foldl Reference.change m) := by
  induction cs generalizing v m with
  | nil => exact h
  | cons c cs ih => exact ih (h.change c)

end Refines

private theorem get?_clearUser (v : Variables) (name : String) :
    v.clearUser.get? name = if isReserved name then v.get? name else none := by
  rw [get?, clearUser, Keyed.get?_filter, isReserved_lowered, get?]
  cases v.store.get? (lowered name) with
  | none => exact (ite_self none).symm
  | some value => rfl

private theorem get?_erase (v : Variables) (name q : String) :
    (v.erase name).get? q = if lowered q = lowered name then none else v.get? q :=
  v.store.get?_erase (lowered name) (lowered q)

/-- Variables are a map from names that does not distinguish the case of letters, whatever is done
to them. -/
theorem refines_reference (clock : Calendar.Instant) (offset : Calendar.Offset) (cs : List Change) :
    let v := cs.foldl change { clock, offset }
    let m := cs.foldl Reference.change { now := ⟨clock, offset⟩ }
    (∀ name ∈ v.store.keys, lowered name = name) ∧
    (∀ name, v.get? name = m.values (lowered name) ∧
      v.get name = (m.values (lowered name)).getD "" ∧
      v.contains name = (m.values (lowered name)).isSome) ∧
    (∃ names : Finset String, (∀ name, name ∈ names ↔ (m.values name).isSome = true) ∧
      v.size = names.card) ∧
    (∀ name q, (v.erase name).get? q = if lowered q = lowered name then none else v.get? q) ∧
    (∀ name, v.clearUser.get? name = if isReserved name then v.get? name else none) ∧
    ∀ name, name ≠ "" → (∀ c ∈ name.toList, Template.isNameChar c = true) →
      v.substitute (String.ofList (Template.braced name.toList)) = v.get name := by
  intro v m
  have empty : Refines { clock, offset } { now := ⟨clock, offset⟩ } := by
    refine ⟨rfl, fun name present => ?_, rfl⟩
    exact nomatch present
  have refines : Refines v m := empty.changes cs
  have found (name : String) : v.get? name = m.values (lowered name) :=
    congrFun refines.values (lowered name)
  refine ⟨?_, ?_, ?_, v.get?_erase, v.get?_clearUser, ?_⟩
  · intro name member
    rw [Keyed.mem_keys_iff, refines.values] at member
    exact refines.small name member
  · intro name
    rw [get, contains, found]
    exact ⟨rfl, rfl, rfl⟩
  · refine ⟨v.store.keys.toFinset, fun name => ?_, ?_⟩
    · rw [List.mem_toFinset, Keyed.mem_keys_iff, refines.values]
    · rw [List.toFinset_card_of_nodup v.store.nodup_keys, Keyed.keys, List.length_map]
      rfl
  · intro name named nameChars
    rw [substitute, Template.render_braced _ named nameChars]
    rfl

end Variables
end Runbook
