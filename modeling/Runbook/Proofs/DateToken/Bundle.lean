import Runbook.Proofs.Variables

set_option autoImplicit false

/-!
The bundle of a moment. Every bundle has the same names, and under each of them it holds what its
one entry of that name says.
-/
namespace Runbook.DateToken

open Calendar Text

private theorem nodup_bundleNames : bundleNames.Nodup := by
  decide +kernel

section Bundles

variable {m : Moment} {name value : String}

theorem mem_keys_bundle : name ∈ (bundle m).keys ↔ name ∈ bundleNames := by
  rw [bundle, Keyed.mem_keys_ofList, map_fst_bundleEntries]

theorem keys_bundle (m : Moment) : (bundle m).keys.Perm bundleNames :=
  (List.perm_ext_iff_of_nodup (bundle m).nodup_keys nodup_bundleNames).2 fun _ => mem_keys_bundle

theorem get?_bundle_of_mem (entry : (name, value) ∈ bundleEntries m) :
    (bundle m).get? name = some value := by
  have distinct : ((bundleEntries m).map (·.1)).Nodup := by
    rw [map_fst_bundleEntries]
    exact nodup_bundleNames
  exact Keyed.empty.get?_insertAll_of_mem distinct entry

theorem get?_bundle_entryName {o : Output} (styled : o ∈ styledOutputs) (s : Style) :
    (bundle m).get? (entryName o s) = some (write m o s) := by
  refine get?_bundle_of_mem (List.mem_append_left _ ?_)
  refine List.mem_flatMap.2 ⟨s, by cases s <;> decide, ?_⟩
  exact List.mem_map_of_mem (f := fun o => (entryName o s, write m o s)) styled

theorem get?_bundle_timestamp :
    (bundle m).get? "$timestamp" = some (integer m.instant.millis) := by
  refine get?_bundle_of_mem (List.mem_append_right _ ?_)
  simp

end Bundles

end Runbook.DateToken
