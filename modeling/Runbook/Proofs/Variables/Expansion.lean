import Runbook.Proofs.DateToken.Bundle
import Runbook.Proofs.Variables.Refinement

set_option autoImplicit false

/-!
Expanding a date token. A bundle is laid over the variables entry by entry, and entries that are
there already are not counted. So the variables afterwards are those before with the bundle over
them, and when the token is expanded once more there is nothing to count.
-/
namespace Runbook

open Text

namespace Variables

section Overlays

variable {v : Variables} {l : List (String × String)}

private theorem overlaid_overlaid : (v.overlaid l).overlaid l = v.overlaid l := by
  have store : (v.store.insertAll l).insertAll l = v.store.insertAll l := by
    refine Keyed.ext_get? fun name => ?_
    simp only [Keyed.get?_insertAll]
    rw [← Option.or_assoc, Option.or_self]
  simp only [overlaid, store]

private theorem get?_store_overlaid (v : Variables) (b : Keyed String) (name : String) :
    (v.overlaid b.entries).store.get? name = (b.get? name).or (v.store.get? name) := by
  cases held : b.get? name with
  | none =>
    have absent : name ∉ b.entries.map (·.1) := Keyed.find_eq_none_iff.1 held
    rw [Option.none_or]
    exact v.store.get?_insertAll_of_not_mem absent
  | some value =>
    rw [Option.some_or]
    exact v.store.get?_insertAll_of_mem b.distinct (Keyed.get?_eq_some_iff.1 held)

private theorem countP_entries (v : Variables) (b : Keyed String) :
    b.entries.countP (fun e => v.store.get? e.1 ≠ some e.2) =
      b.keys.countP fun name => v.store.get? name ≠ b.get? name := by
  rw [Keyed.keys, List.countP_map]
  refine List.countP_congr fun e member => ?_
  have held : b.get? e.1 = some e.2 := Keyed.get?_eq_some_iff.2 member
  simp only [Function.comp_apply, held]

private theorem countP_overlaid (v : Variables) (b : Keyed String) :
    b.entries.countP (fun e => (v.overlaid b.entries).store.get? e.1 ≠ some e.2) = 0 := by
  refine List.countP_eq_zero.2 fun e member => ?_
  have held : b.get? e.1 = some e.2 := Keyed.get?_eq_some_iff.2 member
  rw [get?_store_overlaid, held]
  simp

end Overlays

section Expansions

variable {v v' : Variables} {token : String} {x : Expansion}

private theorem expandDate_eq_error_iff {e : DateToken.Error} :
    v.expandDate token = (.error e, v) ↔ DateToken.parse token = .error e ∨
      e = .outOfRange token ∧
        ∃ t, DateToken.parse token = .ok t ∧ t.shifted? v.now = none := by
  cases read : DateToken.parse token with
  | error e' =>
    have refused : v.expandDate token = (.error e', v) := by
      rw [expandDate, read]
    simp [refused]
  | ok t =>
    cases moment : t.shifted? v.now with
    | none =>
      have refused : v.expandDate token = (.error (.outOfRange token), v) := by
        simp only [expandDate, read, moment]
      simp [refused, moment, eq_comm]
    | some m => simp [expandDate_of_shifted read moment, moment]

theorem exists_of_expandDate_eq_ok (h : v.expandDate token = (.ok x, v')) :
    ∃ t m, DateToken.parse token = .ok t ∧ t.shifted? v.now = some m := by
  cases read : DateToken.parse token with
  | error e =>
    rw [expandDate_eq_error_iff.2 (.inl read)] at h
    cases h
  | ok t =>
    cases moment : t.shifted? v.now with
    | none =>
      rw [expandDate_eq_error_iff.2 (.inr ⟨rfl, t, read, moment⟩)] at h
      cases h
    | some m => exact ⟨t, m, rfl, moment⟩

private theorem expandDate_of_error {e : DateToken.Error} (h : (v.expandDate token).1 = .error e) :
    (v.expandDate token).2 = v := by
  rcases v.expandDate_cases token with ⟨_, refused, -⟩ | ⟨x, m, expanded, -⟩
  · rw [refused]
  · rw [expanded] at h
    cases h

theorem expandDate_eq_ok_iff {t : DateToken} {m : Calendar.Moment}
    (read : DateToken.parse token = .ok t) (moment : t.shifted? v.now = some m) :
    v.expandDate token = (.ok x, v') ↔
      x = ⟨DateToken.write m t.output t.style, DateToken.bundle m,
        DateToken.bundleNames.countP fun name =>
          v.store.get? name ≠ (DateToken.bundle m).get? name⟩ ∧
        v' = v.overlaid (DateToken.bundle m).entries := by
  rw [expandDate_of_shifted read moment, countP_entries, (DateToken.keys_bundle m).countP_eq,
    Prod.mk.injEq, Except.ok.injEq]
  exact and_congr eq_comm eq_comm

private theorem get?_overlaid_bundle {name : String} (m : Calendar.Moment)
    (other : lowered name ∉ DateToken.bundleNames) :
    (v.overlaid (DateToken.bundle m).entries).get? name = v.get? name := by
  refine v.get?_overlaid_of_not_mem fun member => other ?_
  exact DateToken.mem_keys_bundle.1 member

end Expansions

/-- A token is expanded exactly when it leads to a moment in range, and then its bundle is laid over
the variables. -/
theorem expansion_laid_over (v : Variables) (token : String) :
    ((∃ x v', v.expandDate token = (.ok x, v')) ↔
      ∃ t m, DateToken.parse token = .ok t ∧ t.shifted? v.now = some m) ∧
    (∀ e, (v.expandDate token).1 = .error e → (v.expandDate token).2 = v) ∧
    ∀ x v', v.expandDate token = (.ok x, v') →
      v.change (.expand token) = v' ∧ v'.now = v.now ∧
      (∀ name, v'.store.get? name = (x.bundle.get? name).or (v.store.get? name)) ∧
      x.bundle.keys.Perm DateToken.bundleNames ∧
      (∀ name, lowered name ∉ DateToken.bundleNames → v'.get? name = v.get? name) ∧
      (∀ name, isReserved name = false → v'.get? name = v.get? name) ∧
      (x.changed = DateToken.bundleNames.countP fun name =>
        v.store.get? name ≠ x.bundle.get? name) ∧
      (∀ t, DateToken.parse token = .ok t → t.output ∈ DateToken.styledOutputs →
        x.bundle.get? ("$" ++ t.style.name ++ t.output.name) = some x.value) ∧
      v'.expandDate token = (.ok { x with changed := 0 }, v') := by
  refine ⟨⟨?_, ?_⟩, fun e => expandDate_of_error, ?_⟩
  · rintro ⟨x, v', expanded⟩
    exact exists_of_expandDate_eq_ok expanded
  · rintro ⟨t, m, read, moment⟩
    exact ⟨_, _, expandDate_of_shifted read moment⟩
  · intro x v' expanded
    obtain ⟨t, m, read, moment⟩ := exists_of_expandDate_eq_ok expanded
    have changed : v.change (.expand token) = v' := by
      rw [change, expanded]
    obtain ⟨rfl, rfl⟩ := (expandDate_eq_ok_iff read moment).1 expanded
    refine ⟨changed, v.now_overlaid _, v.get?_store_overlaid _, DateToken.keys_bundle m,
      fun name => get?_overlaid_bundle m, ?_, rfl, ?_, ?_⟩
    · intro name user
      refine get?_overlaid_bundle m fun member => ?_
      have reserved := DateToken.reserved_of_mem_bundleNames member
      rw [isReserved_lowered, user] at reserved
      cases reserved
    · intro t' read' styled
      obtain rfl := Except.ok.inj (read.symm.trans read')
      exact DateToken.get?_bundle_entryName styled t.style
    · rw [← v.now_overlaid (DateToken.bundle m).entries] at moment
      have again := expandDate_of_shifted read moment
      rw [countP_overlaid, overlaid_overlaid] at again
      exact again

/-- A variable of the user stays when a token is expanded, and a token of an unknown unit sets none.
-/
theorem expansion_laid_over_host :
    let v : Variables :=
      { store := .ofList [("host", "a"), ("$longyear", "b")], clock := ⟨1391682600, 0⟩ }
    (v.expandDate "%date+1eons%").2 = v ∧
      ∃ x v', v.expandDate "%date+1years,year,long%" = (.ok x, v') ∧ v'.get? "Host" = some "a" ∧
        x.bundle.get? "$longyear" = some x.value ∧
        v'.expandDate "%date+1years,year,long%" = (.ok { x with changed := 0 }, v') := by
  intro v
  obtain ⟨-, refused, -⟩ := expansion_laid_over v "%date+1eons%"
  obtain ⟨given, -, laid⟩ := expansion_laid_over v "%date+1years,year,long%"
  have read : DateToken.parse "%date+1years,year,long%" = .ok ⟨some ⟨1, .years⟩, .year, .long⟩ := by rfl
  obtain ⟨x, v', expanded⟩ := given.2 ⟨_, ⟨⟨1423218600, 0⟩, .utc⟩, read, by decide +kernel⟩
  obtain ⟨-, -, -, -, other, -, -, value, again⟩ := laid x v' expanded
  refine ⟨refused (.unknownUnit "%date+1eons%" "eons") (by rfl), x, v', expanded, ?_,
    value _ read (by decide), again⟩
  rw [other "Host" (by decide +kernel)]
  decide +kernel

end Variables
end Runbook
