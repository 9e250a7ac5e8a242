set_option autoImplicit false

/-!
Finite maps from names, kept in the order of the names. Two maps are equal exactly when they
hold the same value under every name, and a listing of a map is always sorted.
-/
namespace Runbook

/-- A finite map from strings. The names of its entries increase strictly. -/
structure Keyed (α : Type) where
  entries : List (String × α)
  increasing : entries.Pairwise fun a b => a.1 < b.1
  deriving DecidableEq

namespace Keyed

variable {α : Type}

def empty : Keyed α :=
  ⟨[], .nil⟩

instance : Inhabited (Keyed α) := ⟨empty⟩

/-- The value of the first entry of that name. -/
def find (k : String) : List (String × α) → Option α
  | [] => none
  | (k', v) :: rest => if k = k' then some v else find k rest

/-- Puts an entry at its place in an increasing list, over the one of the same name. -/
def place (k : String) (v : α) : List (String × α) → List (String × α)
  | [] => [(k, v)]
  | (k', v') :: rest =>
    if k = k' then (k, v) :: rest
    else if k < k' then (k, v) :: (k', v') :: rest
    else (k', v') :: place k v rest

theorem mem_place {k : String} {v : α} {l : List (String × α)} {e : String × α}
    (h : e ∈ place k v l) : e = (k, v) ∨ e ∈ l := by
  induction l with
  | nil => simpa [place] using h
  | cons x rest ih =>
    obtain ⟨k', v'⟩ := x
    simp only [place] at h
    split at h
    · rcases List.mem_cons.1 h with h | h
      · exact .inl h
      · exact .inr (List.mem_cons_of_mem _ h)
    · split at h
      · exact List.mem_cons.1 h
      · rcases List.mem_cons.1 h with h | h
        · exact .inr (h ▸ List.mem_cons_self)
        · exact (ih h).imp id (List.mem_cons_of_mem _)

theorem place_increasing {k : String} {v : α} {l : List (String × α)}
    (h : l.Pairwise fun a b => a.1 < b.1) : (place k v l).Pairwise fun a b => a.1 < b.1 := by
  induction l with
  | nil => exact List.pairwise_singleton _ _
  | cons x rest ih =>
    obtain ⟨k', v'⟩ := x
    obtain ⟨hhead, htail⟩ := List.pairwise_cons.1 h
    simp only [place]
    split
    · next he =>
      subst he
      exact List.pairwise_cons.2 ⟨hhead, htail⟩
    · next hne =>
      split
      · next hlt =>
        refine List.pairwise_cons.2 ⟨fun e he => ?_, h⟩
        rcases List.mem_cons.1 he with rfl | he
        · exact hlt
        · exact String.lt_trans hlt (hhead e he)
      · next hnlt =>
        refine List.pairwise_cons.2 ⟨fun e he => ?_, ih htail⟩
        rcases mem_place he with rfl | he
        · exact Std.lt_of_le_of_ne (String.not_lt.1 hnlt) (Ne.symm hne)
        · exact hhead e he

def get? (m : Keyed α) (k : String) : Option α :=
  find k m.entries

/-- The map that holds `v` under `k` and is otherwise the same. -/
def insert (m : Keyed α) (k : String) (v : α) : Keyed α :=
  ⟨place k v m.entries, place_increasing m.increasing⟩

/-- The map of the entries that satisfy `p`. -/
def filter (m : Keyed α) (p : String → α → Bool) : Keyed α :=
  ⟨m.entries.filter fun e => p e.1 e.2, m.increasing.filter _⟩

/-- The map without the entry of that name. -/
def erase (m : Keyed α) (k : String) : Keyed α :=
  m.filter fun k' _ => k' ≠ k

def contains (m : Keyed α) (k : String) : Bool :=
  (m.get? k).isSome

def size (m : Keyed α) : Nat :=
  m.entries.length

/-- The names in their order. -/
def keys (m : Keyed α) : List String :=
  m.entries.map (·.1)

/-- The values in the order of their names. -/
def values (m : Keyed α) : List α :=
  m.entries.map (·.2)

/-- Entries put in one after the other; a later one replaces an earlier one of its name. -/
def insertAll (m : Keyed α) (l : List (String × α)) : Keyed α :=
  l.foldl (fun m e => m.insert e.1 e.2) m

def ofList (l : List (String × α)) : Keyed α :=
  empty.insertAll l

@[simp] theorem get?_empty (k : String) : (empty : Keyed α).get? k = none := rfl

theorem find_place (k k' : String) (v : α) (l : List (String × α)) :
    find k' (place k v l) = if k' = k then some v else find k' l := by
  induction l with
  | nil => simp [place, find]
  | cons x rest ih =>
    obtain ⟨k'', v''⟩ := x
    simp only [place]
    split
    · next he =>
      subst he
      simp only [find]
      split <;> rfl
    · split
      · rfl
      · simp only [find, ih]
        split
        · next h1 =>
          split
          · next h2 => exact absurd (h2.symm.trans h1) ‹¬k = k''›
          · rfl
        · rfl

@[simp] theorem get?_insert (m : Keyed α) (k k' : String) (v : α) :
    (m.insert k v).get? k' = if k' = k then some v else m.get? k' :=
  find_place k k' v m.entries

theorem find_filter {l : List (String × α)} (h : l.Pairwise fun a b => a.1 < b.1)
    (p : String → α → Bool) (k : String) :
    find k (l.filter fun e => p e.1 e.2) = (find k l).filter (p k) := by
  induction l with
  | nil => rfl
  | cons x rest ih =>
    obtain ⟨k', v'⟩ := x
    obtain ⟨hhead, htail⟩ := List.pairwise_cons.1 h
    by_cases he : k = k'
    · subst he
      by_cases hp : p k v'
      · simp [find, hp, Option.filter]
      · have habsent : ∀ l : List (String × α), (∀ e ∈ l, k < e.1) → find k l = none := by
          intro l hl
          induction l with
          | nil => rfl
          | cons y l ihl =>
            have hy := hl y List.mem_cons_self
            have : k ≠ y.1 := fun heq => String.lt_irrefl k (by rw [← heq] at hy; exact hy)
            simp [find, this, ihl fun e he => hl e (List.mem_cons_of_mem _ he)]
        simp [find, hp, Option.filter, habsent _ fun e he => hhead e (List.mem_filter.1 he).1]
    · by_cases hp : p k' v'
      · simp [find, he, hp, ih htail]
      · simp [find, he, hp, ih htail]

@[simp] theorem get?_filter (m : Keyed α) (p : String → α → Bool) (k : String) :
    (m.filter p).get? k = (m.get? k).filter (p k) :=
  find_filter m.increasing p k

@[simp] theorem get?_erase (m : Keyed α) (k k' : String) :
    (m.erase k).get? k' = if k' = k then none else m.get? k' := by
  rw [erase, get?_filter]
  by_cases h : k' = k
  · cases hg : m.get? k' <;> simp [h, Option.filter]
  · cases hg : m.get? k' <;> simp [h, Option.filter]

end Keyed
end Runbook
