import Mathlib.Data.List.TakeDrop
import Runbook.Proofs.Template
import Runbook.Proofs.Text.Cut

set_option autoImplicit false

/-!
The placeholders of a text, by their places. No two of them overlap, so that there is one way to put
a value in the place of each and to copy all that stands outside of them; rendering does that.
-/
namespace Runbook.Template

open Text (lower takeWhile_append_of_ends dropWhile_append_of_ends)

def braced (name : List Char) : List Char :=
  '{' :: (name ++ ['}'])

@[simp] theorem length_braced (name : List Char) : (braced name).length = name.length + 2 := by
  simp [braced]

private theorem braced_append (name rest : List Char) :
    braced name ++ rest = '{' :: (name ++ '}' :: rest) := by
  simp [braced]

private theorem ends_name (rest : List Char) : ∀ c ∈ ('}' :: rest).head?, isNameChar c = false := by
  intro c head
  obtain rfl := Option.some.inj head
  decide

theorem placeholder?_eq_some_iff {cs name rest : List Char} :
    placeholder? cs = some (name, rest) ↔
      name ≠ [] ∧ (∀ c ∈ name, isNameChar c = true) ∧ cs = name ++ '}' :: rest := by
  unfold placeholder?
  constructor
  · intro h
    split at h
    · next c cs' rest' front back =>
      obtain ⟨rfl, rfl⟩ := Prod.mk.inj (Option.some.inj h)
      refine ⟨List.cons_ne_nil _ _, ?_, ?_⟩
      · rw [← front]
        exact List.all_eq_true.1 List.all_takeWhile
      · rw [← front, ← back, List.takeWhile_append_dropWhile]
    · exact nomatch h
  · rintro ⟨named, nameChars, rfl⟩
    rw [takeWhile_append_of_ends nameChars (ends_name rest),
      dropWhile_append_of_ends nameChars (ends_name rest)]
    cases name with
    | nil => exact absurd rfl named
    | cons c name => rfl

/-- A placeholder of a text: a name that stands between braces from a place of the text on. -/
structure Placeholder (cs : List Char) where
  start : Nat
  name : List Char
  named : name ≠ []
  nameChars : ∀ c ∈ name, isNameChar c = true
  stands : braced name <+: cs.drop start

namespace Placeholder

variable {cs : List Char}

def stop (p : Placeholder cs) : Nat :=
  p.start + (braced p.name).length

theorem start_lt_stop (p : Placeholder cs) : p.start < p.stop := by
  simp [stop]

private theorem stop_le_length (p : Placeholder cs) : p.stop ≤ cs.length := by
  have bound := p.stands.length_le
  rw [List.length_drop] at bound
  have filled : 0 < (braced p.name).length := by simp
  unfold stop
  omega

theorem start_lt_length (p : Placeholder cs) : p.start < cs.length :=
  Nat.lt_of_lt_of_le p.start_lt_stop p.stop_le_length

theorem getElem?_add (p : Placeholder cs) {k : Nat} (h : k < (braced p.name).length) :
    cs[p.start + k]? = (braced p.name)[k]? := by
  obtain ⟨rest, same⟩ := p.stands
  rw [← List.getElem?_drop, ← same, List.getElem?_append_left h]

private theorem getElem?_start (p : Placeholder cs) : cs[p.start]? = some '{' :=
  p.getElem?_add (k := 0) (Nat.zero_lt_succ _)

/-- No brace is opened behind the opening brace of a placeholder, up to its end. -/
private theorem getElem?_inside (p : Placeholder cs) {i : Nat} (after : p.start < i)
    (before : i < p.stop) :
    cs[i]? ≠ some '{' := by
  obtain ⟨k, rfl⟩ := Nat.exists_eq_add_of_lt after
  have within : k + 1 < (braced p.name).length := by
    unfold stop at before
    omega
  rw [Nat.add_assoc, p.getElem?_add within, braced, List.getElem?_cons_succ]
  intro opened
  rcases List.mem_append.1 (List.mem_of_getElem? opened) with inName | closing
  · exact absurd (p.nameChars _ inName) (by decide)
  · exact absurd (List.mem_singleton.1 closing) (by decide)

private theorem stop_le_of_start_lt {p q : Placeholder cs} (h : p.start < q.start) :
    p.stop ≤ q.start :=
  Nat.le_of_not_lt fun before => p.getElem?_inside h before q.getElem?_start

private theorem eq_of_start {p q : Placeholder cs} (h : p.start = q.start) : p = q := by
  obtain ⟨start, name, named, nameChars, rest, stands⟩ := p
  obtain ⟨start', name', named', nameChars', rest', stands'⟩ := q
  obtain rfl : start = start' := h
  have same := stands.trans stands'.symm
  rw [braced_append, braced_append] at same
  obtain rfl : name = name' := by
    rw [← takeWhile_append_of_ends nameChars (ends_name rest),
      ← takeWhile_append_of_ends nameChars' (ends_name rest')]
    exact congrArg _ (List.cons.inj same).2
  rfl

def whole {name : List Char} (named : name ≠ []) (nameChars : ∀ c ∈ name, isNameChar c = true) :
    Placeholder (braced name) :=
  ⟨0, name, named, nameChars, List.prefix_refl _⟩

def after (pre : List Char) (p : Placeholder cs) : Placeholder (pre ++ cs) where
  start := pre.length + p.start
  name := p.name
  named := p.named
  nameChars := p.nameChars
  stands := by
    rw [List.drop_length_add_append]
    exact p.stands

def before (p : Placeholder cs) (post : List Char) : Placeholder (cs ++ post) where
  start := p.start
  name := p.name
  named := p.named
  nameChars := p.nameChars
  stands := by
    rw [List.drop_append_of_le_length (Nat.le_of_lt p.start_lt_length)]
    exact p.stands.trans (List.prefix_append _ _)

def first {name : List Char} (named : name ≠ []) (nameChars : ∀ c ∈ name, isNameChar c = true)
    (cs : List Char) : Placeholder (braced name ++ cs) :=
  (whole named nameChars).before cs

theorem eq_first_or_after {name : List Char} (named : name ≠ [])
    (nameChars : ∀ c ∈ name, isNameChar c = true) (p : Placeholder (braced name ++ cs)) :
    p = first named nameChars cs ∨ (braced name).length ≤ p.start := by
  rcases Nat.eq_zero_or_pos p.start with same | later
  · exact .inl (eq_of_start same)
  · have apart := stop_le_of_start_lt (p := first named nameChars cs) later
    have ends : (first named nameChars cs).stop = (braced name).length := Nat.zero_add _
    rw [ends] at apart
    exact .inr apart

def ofAfter {pre : List Char} (p : Placeholder (pre ++ cs)) (h : pre.length ≤ p.start) :
    Placeholder cs where
  start := p.start - pre.length
  name := p.name
  named := p.named
  nameChars := p.nameChars
  stands := by
    have stands := p.stands
    rw [List.drop_append, List.drop_eq_nil_of_le h, List.nil_append] at stands
    exact stands

def ofBefore {post : List Char} (p : Placeholder (cs ++ post)) (h : p.stop ≤ cs.length) :
    Placeholder cs where
  start := p.start
  name := p.name
  named := p.named
  nameChars := p.nameChars
  stands := by
    have within := Nat.lt_of_lt_of_le p.start_lt_stop h
    have stands := p.stands
    rw [List.drop_append_of_le_length (Nat.le_of_lt within)] at stands
    refine List.prefix_of_prefix_length_le stands (List.prefix_append _ _) ?_
    unfold stop at h
    rw [List.length_drop]
    omega

end Placeholder

/-- Pieces of a text, one for each character of another one, of which a placeholder's first is the
value of its name. -/
structure FillsIn (value : List Char → List Char) (cs : List Char) (pieces : List (List Char)) :
    Prop where
  length : pieces.length = cs.length
  start : ∀ p : Placeholder cs, pieces[p.start]? = some (value p.name)
  inside : ∀ (p : Placeholder cs) i, p.start < i → i < p.stop → pieces[i]? = some []
  outside : ∀ i, (∀ p : Placeholder cs, i < p.start ∨ p.stop ≤ i) →
    pieces[i]? = cs[i]?.map fun c => [c]

namespace FillsIn

variable {value : List Char → List Char} {cs pre : List Char} {pieces pieces' : List (List Char)}

theorem unique (h : FillsIn value cs pieces) (h' : FillsIn value cs pieces') : pieces = pieces' := by
  apply List.ext_getElem?
  intro i
  by_cases covered : ∃ p : Placeholder cs, p.start ≤ i ∧ i < p.stop
  · obtain ⟨p, after, before⟩ := covered
    rcases Nat.eq_or_lt_of_le after with rfl | after
    · rw [h.start p, h'.start p]
    · rw [h.inside p i after before, h'.inside p i after before]
  · have apart : ∀ p : Placeholder cs, i < p.start ∨ p.stop ≤ i := by
      intro p
      by_contra within
      exact covered ⟨p, by omega, by omega⟩
    rw [h.outside i apart, h'.outside i apart]

private theorem copied (none : Placeholder cs → False) :
    FillsIn value cs (cs.map fun c => [c]) where
  length := List.length_map _
  start p := (none p).elim
  inside p := (none p).elim
  outside _ _ := List.getElem?_map

private theorem braced {name : List Char} (named : name ≠ [])
    (nameChars : ∀ c ∈ name, isNameChar c = true) :
    FillsIn value (braced name) (value name :: List.replicate (name.length + 1) []) := by
  have only (p : Placeholder (Template.braced name)) : p = .whole named nameChars := by
    apply Placeholder.eq_of_start
    -- Another one would have to start where the text ends.
    refine Nat.le_antisymm (Nat.le_of_not_lt fun later => ?_) (Nat.zero_le _)
    have beyond := Placeholder.stop_le_of_start_lt later
    have within := p.start_lt_length
    change 0 + (Template.braced name).length ≤ p.start at beyond
    omega
  refine ⟨?_, ?_, ?_, ?_⟩
  · simp
  · intro p
    rw [only p]
    rfl
  · intro p i after before
    rw [only p] at after before
    obtain ⟨k, rfl⟩ := Nat.exists_eq_add_of_lt after
    change 0 + k + 1 < 0 + (Template.braced name).length at before
    rw [length_braced] at before
    rw [List.getElem?_cons_succ, List.getElem?_replicate]
    exact if_pos (by change 0 + k < _; omega)
  · intro i free
    have beyond : (Template.braced name).length ≤ i := by
      rcases free (.whole named nameChars) with before | after
      · exact absurd before (Nat.not_lt_zero i)
      · rw [← Nat.zero_add (Template.braced name).length]
        exact after
    have same : (value name :: List.replicate (name.length + 1) []).length =
        (Template.braced name).length := by simp
    rw [List.getElem?_eq_none beyond, List.getElem?_eq_none (by rw [same]; exact beyond)]
    rfl

theorem append (h : FillsIn value pre pieces) (h' : FillsIn value cs pieces')
    (apart : ∀ p : Placeholder (pre ++ cs), p.stop ≤ pre.length ∨ pre.length ≤ p.start) :
    FillsIn value (pre ++ cs) (pieces ++ pieces') where
  length := by rw [List.length_append, List.length_append, h.length, h'.length]
  start p := by
    rcases apart p with first | second
    · have within := Nat.lt_of_lt_of_le p.start_lt_stop first
      rw [List.getElem?_append_left (by rw [h.length]; exact within)]
      exact h.start (p.ofBefore first)
    · rw [List.getElem?_append_right (by rw [h.length]; exact second), h.length]
      exact h'.start (p.ofAfter second)
  inside p i after before := by
    rcases apart p with first | second
    · rw [List.getElem?_append_left (by rw [h.length]; omega)]
      exact h.inside (p.ofBefore first) i after before
    · rw [List.getElem?_append_right (by rw [h.length]; omega), h.length]
      refine h'.inside (p.ofAfter second) _ ?_ ?_
      · change p.start - pre.length < _
        omega
      · change _ < p.start - pre.length + (Template.braced p.name).length
        unfold Placeholder.stop at before
        omega
  outside i free := by
    by_cases first : i < pre.length
    · rw [List.getElem?_append_left (by rw [h.length]; exact first),
        List.getElem?_append_left first]
      exact h.outside i fun p => free (p.before cs)
    · rw [List.getElem?_append_right (by rw [h.length]; omega),
        List.getElem?_append_right (by omega), h.length]
      apply h'.outside
      intro p
      rcases free (p.after pre) with before | after
      · change i < pre.length + p.start at before
        exact .inl (by omega)
      · change pre.length + p.start + (Template.braced p.name).length ≤ i at after
        exact .inr (by unfold Placeholder.stop; omega)

theorem cons {c : Char} (h : FillsIn value cs pieces) (none : ∀ p : Placeholder (c :: cs), p.start ≠ 0) :
    FillsIn value (c :: cs) ([c] :: pieces) := by
  have alone : FillsIn value [c] [[c]] := by
    refine .copied fun p => ?_
    have bound := p.stop_le_length
    rw [Placeholder.stop, length_braced, List.length_singleton] at bound
    omega
  exact alone.append h fun p => .inr (Nat.pos_of_ne_zero (none p))

private theorem braced_append {name : List Char} (named : name ≠ [])
    (nameChars : ∀ c ∈ name, isNameChar c = true) (h : FillsIn value cs pieces) :
    FillsIn value (Template.braced name ++ cs)
      (value name :: List.replicate (name.length + 1) [] ++ pieces) := by
  refine (braced named nameChars).append h fun p => ?_
  rcases p.eq_first_or_after named nameChars with rfl | after
  · exact .inl (Nat.le_of_eq (Nat.zero_add _))
  · exact .inr after

end FillsIn

/-- Reading a text part by part: it starts with a placeholder, or with a character at which none
starts. -/
theorem parts_induction {P : List Char → Prop} (nil : P [])
    (slot : ∀ name rest, name ≠ [] → (∀ c ∈ name, isNameChar c = true) →
      parts (braced name ++ rest) = .slot (String.ofList (lower name)) :: parts rest →
      P rest → P (braced name ++ rest))
    (char : ∀ c rest, (∀ p : Placeholder (c :: rest), p.start ≠ 0) →
      parts (c :: rest) = .char c :: parts rest → P rest → P (c :: rest))
    (cs : List Char) : P cs := by
  induction cs using parts.induct with
  | case1 => exact nil
  | case2 rest name after found ih =>
    obtain ⟨named, nameChars, rfl⟩ := placeholder?_eq_some_iff.1 found
    have read := parts_slot found
    rw [← braced_append] at read ⊢
    exact slot name after named nameChars read ih
  | case3 rest absent ih =>
    refine char '{' rest (fun p first => ?_) (parts_brace absent) ih
    obtain ⟨after, stands⟩ := p.stands
    rw [braced_append, first] at stands
    have found := placeholder?_eq_some_iff.2 ⟨p.named, p.nameChars, (List.cons.inj stands).2.symm⟩
    exact Option.some_ne_none _ (found.symm.trans absent)
  | case4 c rest other ih =>
    refine char c rest (fun p first => ?_) (parts_other other rest) ih
    have opens := p.getElem?_start
    rw [first] at opens
    exact other (Option.some.inj opens)

/-- What is put in the place of a placeholder: the value of its name in small letters, or nothing.
-/
def inPlaceOf (value : String → Option String) (name : List Char) : List Char :=
  ((value (String.ofList (lower name))).getD "").toList

theorem exists_fillsIn (value : String → Option String) (cs : List Char) :
    ∃ pieces, FillsIn (inPlaceOf value) cs pieces ∧
      (parts cs).flatMap (Part.fill value) = pieces.flatten := by
  induction cs using parts_induction with
  | nil =>
    exact ⟨[], .copied fun p => absurd p.start_lt_length (Nat.not_lt_zero _), by simp [parts]⟩
  | slot name rest named nameChars read ih =>
    obtain ⟨pieces, fills, filled⟩ := ih
    refine ⟨_, fills.braced_append named nameChars, ?_⟩
    rw [read, List.flatMap_cons, filled, List.flatten_append, List.flatten_cons,
      List.flatten_replicate_nil, List.append_nil]
    rfl
  | char c rest none read ih =>
    obtain ⟨pieces, fills, filled⟩ := ih
    refine ⟨[c] :: pieces, fills.cons none, ?_⟩
    rw [read, List.flatMap_cons, filled]
    rfl

/-- The rendering is the only text in which each placeholder is replaced by the value of its name.
-/
theorem render_eq_iff (value : String → Option String) (template : String) :
    (∀ p q : Placeholder template.toList, p = q ∨ p.stop ≤ q.start ∨ q.stop ≤ p.start) ∧
    ∀ rendered : String, render value template = rendered ↔
      ∃ pieces, FillsIn (inPlaceOf value) template.toList pieces ∧
        rendered.toList = pieces.flatten := by
  refine ⟨?_, ?_⟩
  · intro p q
    rcases Nat.lt_trichotomy p.start q.start with first | same | second
    · exact .inr (.inl (Placeholder.stop_le_of_start_lt first))
    · exact .inl (Placeholder.eq_of_start same)
    · exact .inr (.inr (Placeholder.stop_le_of_start_lt second))
  · intro rendered
    obtain ⟨pieces, fills, filled⟩ := exists_fillsIn value template.toList
    have written : (render value template).toList = pieces.flatten := by
      rw [render, String.toList_ofList, filled]
    constructor
    · rintro rfl
      exact ⟨pieces, fills, written⟩
    · rintro ⟨pieces', fills', written'⟩
      obtain rfl := fills.unique fills'
      exact String.toList_inj.1 (written.trans written'.symm)

/-- A brace around a placeholder is copied, and a value that looks like a placeholder is not read. -/
example : render (fun _ => some "\x7ba\x7d") "\x7b\x7bA\x7d\x7d" = "\x7b\x7ba\x7d\x7d" := by
  decide +kernel

end Runbook.Template
