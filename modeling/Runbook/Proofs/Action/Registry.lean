import Runbook.Action.Builtin
import Runbook.Proofs.Keyed

set_option autoImplicit false

/-!
Registries as they come of registering actions. Every action stands under its own name in small
letters, so an action is found by a name exactly when one of the names in the registry is the same
but for case and the blanks around it. A registry is plain if none of its actions makes up programs.
-/
namespace Runbook

open Text

private theorem Keyed.place_ne_nil {α : Type} (k : String) (v : α) (l : List (String × α)) :
    Keyed.place k v l ≠ [] := by
  cases l with
  | nil => exact List.cons_ne_nil _ _
  | cons e l =>
    simp only [Keyed.place]
    split
    · exact List.cons_ne_nil _ _
    · split
      · exact List.cons_ne_nil _ _
      · exact List.cons_ne_nil _ _

/-- Whether an action makes up programs. -/
def Action.hosts (a : Action) : Bool :=
  match a.body with
  | .hosting _ => true
  | _ => false

/-- What a script does to the run between its programs is of some kind. -/
def Action.Script.Touches (allowed : Action.Touch → Prop) : Action.Script → Prop
  | .answer effect => allowed effect.toTouch
  | .run touch _ _ _ next =>
    allowed touch ∧ ∀ summary call, (next summary call).Touches allowed

theorem Action.Script.touches_trivial (script : Action.Script) :
    script.Touches fun _ => True := by
  induction script with
  | answer effect => trivial
  | run touch name rows dir next ih => exact ⟨trivial, ih⟩

namespace Registry

/-- No action makes up programs. -/
def Plain (r : Registry) : Prop :=
  ∀ a ∈ r.toList, a.hosts = false

instance (r : Registry) : Decidable r.Plain :=
  inferInstanceAs (Decidable (∀ a ∈ r.toList, a.hosts = false))

theorem Plain.of_find? {r : Registry} (h : r.Plain) {name : String} {a : Action}
    (found : r.find? name = some a) : a.hosts = false :=
  h a (List.mem_map_of_mem (Keyed.mem_of_find found))

theorem plain_builtin : builtin.Plain := by
  decide +kernel

def ofList (actions : List Action) : Registry :=
  actions.foldl register {}

/-- Every action stands under its own name. -/
def Named (r : Registry) : Prop :=
  ∀ e ∈ r.actions.entries, e.1 = lowered e.2.name

private theorem Named.register {r : Registry} (h : r.Named) (a : Action) :
    (r.register a).Named := by
  intro e member
  rcases Keyed.mem_place member with rfl | earlier
  · rfl
  · exact h e earlier

theorem named_ofList (actions : List Action) : (ofList actions).Named := by
  have kept (l : List Action) (r : Registry) (h : r.Named) :
      (l.foldl Registry.register r).Named := by
    induction l generalizing r with
    | nil => exact h
    | cons a l ih => exact ih _ (h.register a)
  exact kept actions {} nofun

private theorem actions_ofList (actions : List Action) :
    (ofList actions).actions = .ofList (actions.map fun a => (lowered a.name, a)) := by
  have put (l : List Action) (r : Registry) : (l.foldl Registry.register r).actions =
      r.actions.insertAll (l.map fun a => (lowered a.name, a)) := by
    induction l generalizing r with
    | nil => rfl
    | cons a l ih => exact ih (r.register a)
  exact put actions {}

theorem mem_of_find?_ofList {actions : List Action} {name : String} {a : Action}
    (h : (ofList actions).find? name = some a) : a ∈ actions := by
  have member := Keyed.mem_of_find h
  rw [actions_ofList] at member
  rcases Keyed.mem_insertAll member with nowhere | registered
  · exact nomatch nowhere
  · obtain ⟨b, registered, same⟩ := List.mem_map.1 registered
    exact (Prod.mk.inj same).2 ▸ registered

theorem find?_ofList_of_mem {actions : List Action}
    (distinct : (actions.map fun a => lowered a.name).Nodup) {a : Action} (member : a ∈ actions)
    {name : String} (same : lowered a.name = lowered (trimmed name)) :
    (ofList actions).find? name = some a := by
  rw [find?, actions_ofList, ← same]
  refine Keyed.get?_insertAll_of_mem _ ?_ (List.mem_map_of_mem member)
  rw [List.map_map]
  exact distinct

theorem names_ofList_ne_nil {actions : List Action} (h : actions ≠ []) :
    (ofList actions).names ≠ [] := by
  have last := List.dropLast_concat_getLast h
  rw [ofList, ← last, List.foldl_append]
  simp only [names, toList, Keyed.values, ne_eq, List.map_eq_nil_iff]
  exact Keyed.place_ne_nil _ _ _

theorem find?_isSome_iff {r : Registry} (h : r.Named) (name : String) :
    (r.find? name).isSome = true ↔
      ∃ known ∈ r.names, sameIgnoringCase known (trimmed name) = true := by
  rw [find?, Keyed.get?, Keyed.find_isSome_iff]
  simp only [names, toList, Keyed.values, List.map_map, List.mem_map, sameIgnoringCase_iff]
  constructor
  · rintro ⟨e, member, same⟩
    exact ⟨_, ⟨e, member, rfl⟩, (h e member).symm.trans same⟩
  · rintro ⟨_, ⟨e, member, rfl⟩, same⟩
    exact ⟨e, member, (h e member).trans same⟩

end Registry
end Runbook
