set_option autoImplicit false

/-!
Cutting a text at a separating character, and putting the pieces together again: the pieces of
`splitAt` joined at the same character give the text back.
-/
namespace Runbook.Text

/-- The pieces of a text between the occurrences of `d`; there is always at least one. -/
def splitAt (d : Char) : List Char → List (List Char)
  | [] => [[]]
  | c :: cs =>
    if c = d then [] :: splitAt d cs
    else
      match splitAt d cs with
      | [] => [[c]]
      | piece :: pieces => (c :: piece) :: pieces

/-- The text before and the text after the first `d`; `none` when there is no `d`. -/
def cut (d : Char) : List Char → Option (List Char × List Char)
  | [] => none
  | c :: cs => if c = d then some ([], cs) else (cut d cs).map fun (a, b) => (c :: a, b)

/-- Pieces written one after the other with `d` between them. -/
def joinAt (d : Char) : List (List Char) → List Char
  | [] => []
  | [piece] => piece
  | piece :: next :: pieces => piece ++ d :: joinAt d (next :: pieces)

/-- The lines of a text: its pieces at line feeds, where a final line feed starts no line. -/
def lines (cs : List Char) : List (List Char) :=
  let pieces := splitAt '\n' cs
  if pieces.getLast? = some [] then pieces.dropLast else pieces

/-- Strings written one after the other with `sep` between them. -/
def joined (sep : String) : List String → String
  | [] => ""
  | [s] => s
  | s :: t :: ss => s ++ sep ++ joined sep (t :: ss)

theorem splitAt_ne_nil (d : Char) (cs : List Char) : splitAt d cs ≠ [] := by
  induction cs with
  | nil => simp [splitAt]
  | cons c cs ih =>
    simp only [splitAt]
    split
    · simp
    · split <;> simp

theorem splitAt_cons_of_ne {d c : Char} (h : c ≠ d) (cs : List Char) :
    ∃ piece pieces, splitAt d cs = piece :: pieces ∧
      splitAt d (c :: cs) = (c :: piece) :: pieces := by
  cases hs : splitAt d cs with
  | nil => exact absurd hs (splitAt_ne_nil d cs)
  | cons piece pieces => exact ⟨piece, pieces, rfl, by simp [splitAt, h, hs]⟩

@[simp] theorem joinAt_splitAt (d : Char) (cs : List Char) : joinAt d (splitAt d cs) = cs := by
  induction cs with
  | nil => rfl
  | cons c cs ih =>
    by_cases h : c = d
    · subst h
      cases hs : splitAt c cs with
      | nil => exact absurd hs (splitAt_ne_nil c cs)
      | cons piece pieces =>
        rw [hs] at ih
        simp [splitAt, hs, joinAt, ih]
    · obtain ⟨piece, pieces, hs, hc⟩ := splitAt_cons_of_ne h cs
      rw [hc]
      rw [hs] at ih
      cases pieces with
      | nil => simpa [joinAt] using ih
      | cons next rest => simpa [joinAt] using ih

end Runbook.Text
