import Runbook.Json.Printer

set_option autoImplicit false

/-!
What written JSON looks like. Strings are escaped, so that a value that holds no number of a
spelling of its own is written without control characters, and in particular on one line.
-/
namespace Runbook.Json

open Text

/-- A value that is written exactly: it holds no number with a fraction or an exponent, whose
spelling is free, and no ill-formed string. -/
inductive Plain : Json → Prop
  | null : Plain .null
  | bool (b : Bool) : Plain (.bool b)
  | int (i : Int) : Plain (.int i)
  | str (s : String) : Plain (.str s)
  | arr {items : List Json} (each : ∀ j ∈ items, Plain j) : Plain (.arr items)
  | obj {members : List (String × Json)} (each : ∀ m ∈ members, Plain m.2) : Plain (.obj members)

def Printable (cs : List Char) : Prop :=
  ∀ c ∈ cs, 32 ≤ c.toNat

private theorem Printable.nil : Printable [] := by
  intro c member
  cases member

private theorem Printable.append {cs cs' : List Char} (h : Printable cs) (h' : Printable cs') :
    Printable (cs ++ cs') := by
  intro c member
  rcases List.mem_append.1 member with first | later
  · exact h c first
  · exact h' c later

private theorem Printable.cons {c : Char} {cs : List Char} (h : 32 ≤ c.toNat) (h' : Printable cs) :
    Printable (c :: cs) := by
  intro c' member
  rcases List.mem_cons.1 member with rfl | later
  · exact h
  · exact h' c' later

private theorem Printable.literal {cs : List Char} (h : cs.all (fun c => 32 ≤ c.toNat) = true) :
    Printable cs := by
  intro c member
  exact of_decide_eq_true (List.all_eq_true.1 h c member)

theorem Printable.feed_not_mem {cs : List Char} (h : Printable cs) : '\n' ∉ cs := by
  intro member
  have bound := h '\n' member
  exact absurd bound (by decide)

private theorem printable_of_digit {c : Char} (h : isDigit c = true) : 32 ≤ c.toNat :=
  Nat.le_trans (by decide) (isDigit_iff.1 h).1

private theorem printable_hexDigit {n : Nat} (h : n < 16) : 32 ≤ (hexDigit n).toNat := by
  have each : ∀ n < 16, 32 ≤ (hexDigit n).toNat := by decide
  exact each n h

private theorem printable_escapeChar (c : Char) : Printable (escapeChar c) := by
  unfold escapeChar
  split
  · exact .literal (by decide)
  split
  · exact .literal (by decide)
  split
  · exact .literal (by decide)
  split
  · exact .literal (by decide)
  split
  · exact .literal (by decide)
  split
  · exact .literal (by decide)
  split
  · exact .literal (by decide)
  split
  · next control =>
    have prefixed : Printable ['\\', 'u', '0', '0'] := .literal (by decide)
    refine prefixed.append (.cons (printable_hexDigit ?_) (.cons (printable_hexDigit ?_) .nil))
    · omega
    · exact Nat.mod_lt _ (by decide)
  · next solid => exact .cons (Nat.not_lt.1 solid) .nil

private theorem printable_quoted (s : String) : Printable (quoted s) := by
  have escaped : Printable (s.toList.flatMap escapeChar) := by
    intro c member
    obtain ⟨c', -, written⟩ := List.mem_flatMap.1 member
    exact printable_escapeChar c' c written
  exact .cons (by decide) (escaped.append (.cons (by decide) .nil))

private theorem printable_integer (i : Int) : Printable (integer i).toList := by
  have number : Printable (decimal i.natAbs).toList := by
    intro c member
    exact printable_of_digit (isDigit_of_mem_decimal _ c member)
  unfold integer
  split
  · rw [String.toList_append]
    exact .append (.cons (by decide) .nil) number
  · exact number

private theorem printable_compactItems {items : List Json}
    (h : ∀ j ∈ items, Printable (compact j)) : Printable (compactItems items) := by
  induction items with
  | nil => exact .cons (by decide) .nil
  | cons item items ih =>
    rw [compactItems]
    have first := h item List.mem_cons_self
    exact .cons (by decide) (first.append (ih fun j member => h j (List.mem_cons_of_mem _ member)))

private theorem printable_compactMembers {members : List (String × Json)}
    (h : ∀ m ∈ members, Printable (compact m.2)) : Printable (compactMembers members) := by
  induction members with
  | nil => exact .cons (by decide) .nil
  | cons m members ih =>
    rw [compactMembers]
    have first := h m List.mem_cons_self
    have others := ih fun m' member => h m' (List.mem_cons_of_mem _ member)
    exact .cons (by decide) ((printable_quoted m.1).append (.cons (by decide) (first.append others)))

theorem Plain.printable {j : Json} (h : Plain j) : Printable (compact j) := by
  induction h with
  | null => exact .literal (by decide)
  | bool b =>
    cases b with
    | false => exact .literal (by decide)
    | true => exact .literal (by decide)
  | int i => exact printable_integer i
  | str s => exact printable_quoted s
  | @arr items _ ih =>
    cases items with
    | nil => exact .cons (by decide) (.cons (by decide) .nil)
    | cons item items =>
      rw [compact]
      have first := ih item List.mem_cons_self
      exact .cons (by decide) (first.append
        (printable_compactItems fun j member => ih j (List.mem_cons_of_mem _ member)))
  | @obj members _ ih =>
    cases members with
    | nil => exact .cons (by decide) (.cons (by decide) .nil)
    | cons m members =>
      rw [compact]
      have first := ih m List.mem_cons_self
      have others := printable_compactMembers fun m' member => ih m' (List.mem_cons_of_mem _ member)
      exact .cons (by decide) ((printable_quoted m.1).append (.cons (by decide) (first.append others)))

theorem compact_obj (members : List (String × Json)) :
    ∃ inner, compact (.obj members) = '{' :: inner ++ ['}'] := by
  have closed (members : List (String × Json)) : ∃ inner, compactMembers members = inner ++ ['}'] := by
    induction members with
    | nil => exact ⟨[], rfl⟩
    | cons m members ih =>
      obtain ⟨inner, same⟩ := ih
      rw [compactMembers, same]
      exact ⟨',' :: (quoted m.1 ++ ':' :: (compact m.2 ++ inner)), by simp⟩
  cases members with
  | nil => exact ⟨[], rfl⟩
  | cons m members =>
    obtain ⟨inner, same⟩ := closed members
    rw [compact, same]
    exact ⟨quoted m.1 ++ ':' :: (compact m.2 ++ inner), by simp⟩

end Runbook.Json
