import Mathlib.Data.List.TakeDrop
import Runbook.Json.Parser
import Runbook.Proofs.Json.Printing
import Runbook.Proofs.Text.Cut

set_option autoImplicit false

/-!
Reading what was written. A value that is written exactly is read back from its text, whatever
follows the text, as long as what follows a number does not go on with it.
-/
namespace Runbook.Json

open Text

section Strings

private theorem hexValue_hexDigit {n : Nat} (h : n < 16) : hexValue (hexDigit n) = some n := by
  have each : ∀ n < 16, hexValue (hexDigit n) = some n := by decide
  exact each n h

private theorem joinPieces_unit {u : Nat} (h : u < 32) (ps : List Piece) :
    joinPieces (.unit u :: ps) = (joinPieces ps).map (Char.ofNat u :: ·) := by
  have high : isHighSurrogate u = false := by
    simp [isHighSurrogate]
    omega
  have low : isLowSurrogate u = false := by
    simp [isLowSurrogate]
    omega
  cases ps with
  | nil => simp [joinPieces, high, low]
  | cons p ps =>
    cases p with
    | char c => simp [joinPieces, high, low]
    | unit v => simp [joinPieces, high, low]

variable {cs rest : List Char} {ps : List Piece}

private theorem stringPieces_short {e c : Char} (other : e ≠ 'u') (read : shortEscape e = some c)
    (h : stringPieces cs = some (ps, rest)) :
    stringPieces ('\\' :: e :: cs) = some (.char c :: ps, rest) := by
  rw [stringPieces.eq_4 e cs fun _ _ _ _ _ same _ => other same, read, h]
  rfl

private theorem stringPieces_unit {a b c d : Char} {u : Nat} (read : hexUnit a b c d = some u)
    (h : stringPieces cs = some (ps, rest)) :
    stringPieces ('\\' :: 'u' :: a :: b :: c :: d :: cs) = some (.unit u :: ps, rest) := by
  rw [stringPieces, read, h]
  rfl

private theorem stringPieces_char {c : Char} (quote : c ≠ '"') (backslash : c ≠ '\\')
    (solid : 32 ≤ c.toNat)
    (h : stringPieces cs = some (ps, rest)) :
    stringPieces (c :: cs) = some (.char c :: ps, rest) := by
  have accepted : ¬(c.toNat < 32 ∨ c = '\\') := by
    rintro (control | same)
    · omega
    · exact backslash same
  rw [stringPieces.eq_5 c cs quote (fun _ _ _ _ _ same _ => backslash same)
    (fun _ _ same _ => backslash same), if_neg accepted, h]
  rfl

private theorem stringPieces_escapeChar (c : Char) (h : stringPieces cs = some (ps, rest)) :
    ∃ p, stringPieces (escapeChar c ++ cs) = some (p :: ps, rest) ∧
      joinPieces (p :: ps) = (joinPieces ps).map (c :: ·) := by
  have by_number {n : Nat} (same : c.toNat = n) : Char.ofNat n = c := by
    rw [← same, Char.ofNat_toNat]
  unfold escapeChar
  split
  · next same => exact ⟨.char c, stringPieces_short (by decide) (by rw [same]; rfl) h, rfl⟩
  next quote =>
  split
  · next same => exact ⟨.char c, stringPieces_short (by decide) (by rw [same]; rfl) h, rfl⟩
  next backslash =>
  split
  · next same => exact ⟨.char c, stringPieces_short (by decide) (by rw [same]; rfl) h, rfl⟩
  split
  · next same => exact ⟨.char c, stringPieces_short (by decide) (by rw [same]; rfl) h, rfl⟩
  split
  · next same => exact ⟨.char c, stringPieces_short (by decide) (by rw [same]; rfl) h, rfl⟩
  split
  · next same =>
    exact ⟨.char c, stringPieces_short (by decide) (by rw [← by_number same]; rfl) h, rfl⟩
  split
  · next same =>
    exact ⟨.char c, stringPieces_short (by decide) (by rw [← by_number same]; rfl) h, rfl⟩
  split
  · next control =>
    have read : hexUnit '0' '0' (hexDigit (c.toNat / 16)) (hexDigit (c.toNat % 16)) =
        some c.toNat := by
      have zero : hexValue '0' = some 0 := by decide
      have high := hexValue_hexDigit (n := c.toNat / 16) (by omega)
      have low := hexValue_hexDigit (n := c.toNat % 16) (by omega)
      simp only [hexUnit, zero, high, low, Option.pure_def, Option.bind_eq_bind, Option.bind_some]
      congr 1
      omega
    refine ⟨.unit c.toNat, stringPieces_unit read h, ?_⟩
    rw [joinPieces_unit control, Char.ofNat_toNat]
  · next solid =>
    exact ⟨.char c, stringPieces_char quote backslash (Nat.not_lt.1 solid) h, rfl⟩

private theorem stringPieces_escaped (cs rest : List Char) :
    ∃ ps, stringPieces (cs.flatMap escapeChar ++ '"' :: rest) = some (ps, rest) ∧
      joinPieces ps = some cs := by
  induction cs with
  | nil => exact ⟨[], rfl, rfl⟩
  | cons c cs ih =>
    obtain ⟨ps, read, same⟩ := ih
    obtain ⟨p, first, joined⟩ := stringPieces_escapeChar c read
    refine ⟨p :: ps, ?_, ?_⟩
    · rw [List.flatMap_cons, List.append_assoc, first]
    · rw [joined, same, Option.map_some]

private theorem memberName_quoted (name : String) (rest : List Char) :
    memberName (quoted name ++ ':' :: rest) = some (some name, rest) := by
  obtain ⟨ps, read, same⟩ := stringPieces_escaped name.toList (':' :: rest)
  have opened : skipSpace (quoted name ++ ':' :: rest) =
      '"' :: (name.toList.flatMap escapeChar ++ '"' :: ':' :: rest) := by
    simp [quoted, skipSpace, isSpace]
  have colon : skipSpace (':' :: rest) = ':' :: rest := by
    simp [skipSpace, isSpace]
  simp only [memberName, opened, read, colon, same, Option.map_some, String.ofList_toList]

end Strings

section Numbers

def EndsNumber (rest : List Char) : Prop :=
  ∀ c ∈ rest.head?, isDigit c = false ∧ c ≠ '.' ∧ c ≠ 'e' ∧ c ≠ 'E'

private theorem spanDigits_append {ds rest : List Char} (digits : ds.all isDigit = true)
    (h : EndsNumber rest) : spanDigits (ds ++ rest) = (ds, rest) := by
  have each := List.all_eq_true.1 digits
  have stop : ∀ c ∈ rest.head?, isDigit c = false := fun c head => (h c head).1
  rw [spanDigits, List.span_eq_takeWhile_dropWhile, takeWhile_append_of_ends each stop,
    dropWhile_append_of_ends each stop]

private theorem head?_digits {n : Nat} (h : (digits n).head? = some '0') : n = 0 := by
  induction n using Nat.strongRecOn with
  | ind n ih =>
    rw [digits] at h
    split at h
    · next small =>
      have value := digitValue_digitOf small
      rw [List.head?_cons, Option.some.injEq] at h
      rw [h] at value
      exact value.symm
    · next large =>
      have front : (digits (n / 10)).head? = some '0' := by
        have nonempty := digits_ne_nil (n / 10)
        generalize digits (n / 10) = ds at h nonempty ⊢
        cases ds with
        | nil => exact absurd rfl nonempty
        | cons d ds => exact h
      have := ih (n / 10) (by omega) front
      omega

private theorem unsignedNumber_digits (negative : Bool) {n : Nat} (signed : negative = true → n ≠ 0)
    {rest : List Char} (h : EndsNumber rest) :
    unsignedNumber negative (digits n ++ rest) =
      some (.int (if negative then -(n : Int) else n), rest) := by
  have whole := spanDigits_append (all_isDigit_digits n) h
  have value := digitsValue_digits n
  have plain : ¬((digits n).head? = some '0' ∧ (digits n).length ≠ 1) := by
    rintro ⟨zero, long⟩
    rw [head?_digits zero] at long
    exact long (by rw [digits]; rfl)
  have sign : ¬(negative ∧ digits n = ['0']) := by
    rintro ⟨minus, zero⟩
    exact signed minus (head?_digits (by rw [zero]; rfl))
  have frac : fraction rest = some ([], rest) := by
    cases rest with
    | nil => rfl
    | cons c rest =>
      have other := (h c rfl).2.1
      rw [fraction.eq_2]
      intro rest' same
      exact other (List.cons.inj same).1
  have exp : exponent rest = some ([], rest) := by
    cases rest with
    | nil => rfl
    | cons c rest =>
      obtain ⟨-, -, small, capital⟩ := h c rfl
      rw [exponent, if_neg (not_or.2 ⟨small, capital⟩)]
  have nonempty := digits_ne_nil n
  unfold unsignedNumber
  rw [whole]
  generalize digits n = ds at nonempty value plain sign
  cases ds with
  | nil => exact absurd rfl nonempty
  | cons d ds =>
    simp only [if_neg plain, frac, exp, Option.pure_def, Option.bind_eq_bind, Option.bind_some,
      value, sign, not_false_eq_true, and_self, if_true]

private theorem digits_cons (n : Nat) : ∃ d ds, digits n = d :: ds ∧ isDigit d = true := by
  have each := List.all_eq_true.1 (all_isDigit_digits n)
  obtain ⟨d, ds, same⟩ := List.exists_cons_of_ne_nil (digits_ne_nil n)
  exact ⟨d, ds, same, each d (by rw [same]; exact List.mem_cons_self)⟩

private theorem toList_integer (i : Int) :
    (integer i).toList = (if i < 0 then ['-'] else []) ++ digits i.natAbs := by
  unfold integer
  split
  · simp [decimal]
  · simp [decimal]

private theorem number_integer (i : Int) {rest : List Char} (h : EndsNumber rest) :
    number ((integer i).toList ++ rest) = some (.int i, rest) := by
  rw [toList_integer]
  split
  · next negative =>
    have signed : i.natAbs ≠ 0 := by omega
    have read := unsignedNumber_digits true (fun _ => signed) h
    have same : -(i.natAbs : Int) = i := by omega
    rw [if_pos rfl, same] at read
    exact read
  · next positive =>
    have read := unsignedNumber_digits false (n := i.natAbs) nofun h
    have same : (i.natAbs : Int) = i := by omega
    rw [if_neg Bool.false_ne_true, same] at read
    rw [List.nil_append, number.eq_2]
    · exact read
    · obtain ⟨d, ds, first, digit⟩ := digits_cons i.natAbs
      intro rest' minus
      rw [first] at minus
      rw [(List.cons.inj minus).1] at digit
      exact absurd digit (by decide)

end Numbers

section Values

private theorem skipSpace_cons {c : Char} (h : isSpace c = false) (cs : List Char) :
    skipSpace (c :: cs) = c :: cs :=
  List.dropWhile_cons_of_neg (by simp [h])

def StartsNumber (c : Char) : Prop :=
  c = '-' ∨ isDigit c = true

private theorem integer_cons (i : Int) : ∃ c cs, (integer i).toList = c :: cs ∧ StartsNumber c := by
  rw [toList_integer]
  split
  · exact ⟨'-', _, rfl, .inl rfl⟩
  · obtain ⟨d, ds, first, digit⟩ := digits_cons i.natAbs
    exact ⟨d, ds, first, .inr digit⟩

private theorem StartsNumber.ne {c d : Char} (h : StartsNumber c) (minus : d ≠ '-')
    (digit : isDigit d = false) : c ≠ d := by
  rintro rfl
  rcases h with same | number
  · exact minus same
  · rw [digit] at number
    exact nomatch number

private theorem StartsNumber.isSpace {c : Char} (h : StartsNumber c) : isSpace c = false := by
  have blank := h.ne (d := ' ') (by decide) (by decide)
  have tab := h.ne (d := '\t') (by decide) (by decide)
  have feed := h.ne (d := '\n') (by decide) (by decide)
  have ret := h.ne (d := '\r') (by decide) (by decide)
  simp [Json.isSpace, blank, tab, feed, ret]

private theorem value_number {c : Char} (h : StartsNumber c) (fuel : Nat) (cs : List Char) :
    value (fuel + 1) (c :: cs) = number (c :: cs) := by
  have quote := h.ne (d := '"') (by decide) (by decide)
  have bracket := h.ne (d := '[') (by decide) (by decide)
  have brace := h.ne (d := '{') (by decide) (by decide)
  have t := h.ne (d := 't') (by decide) (by decide)
  have f := h.ne (d := 'f') (by decide) (by decide)
  have n := h.ne (d := 'n') (by decide) (by decide)
  rw [value, skipSpace_cons h.isSpace]
  split
  · next same => exact absurd (List.cons.inj same).1 quote
  · next same => exact absurd (List.cons.inj same).1 bracket
  · next same => exact absurd (List.cons.inj same).1 brace
  · next same => exact absurd (List.cons.inj same).1 t
  · next same => exact absurd (List.cons.inj same).1 f
  · next same => exact absurd (List.cons.inj same).1 n
  · rfl

/-- A value starts with a character that tells it from white space and from the end of a list. -/
private theorem compact_cons {j : Json} (h : Plain j) :
    ∃ c cs, compact j = c :: cs ∧ isSpace c = false ∧ c ≠ ']' := by
  cases h with
  | null => exact ⟨'n', _, rfl, by decide, by decide⟩
  | bool b =>
    cases b with
    | false => exact ⟨'f', _, rfl, by decide, by decide⟩
    | true => exact ⟨'t', _, rfl, by decide, by decide⟩
  | int i =>
    obtain ⟨c, cs, first, number⟩ := integer_cons i
    exact ⟨c, cs, first, number.isSpace, number.ne (by decide) (by decide)⟩
  | str s => exact ⟨'"', _, rfl, by decide, by decide⟩
  | @arr items each =>
    cases items with
    | nil => exact ⟨'[', _, rfl, by decide, by decide⟩
    | cons item items => exact ⟨'[', _, rfl, by decide, by decide⟩
  | @obj members each =>
    cases members with
    | nil => exact ⟨'{', _, rfl, by decide, by decide⟩
    | cons m members => exact ⟨'{', _, rfl, by decide, by decide⟩

/-- A value is read back from its text with as much fuel as the text is long, and what follows is
left. -/
def ReadsBack (j : Json) : Prop :=
  ∀ fuel rest, (compact j).length < fuel → EndsNumber rest →
    value fuel (compact j ++ rest) = some (j, rest)

private theorem readsBack_of_succ {j : Json}
    (h : ∀ fuel rest, (compact j).length ≤ fuel → EndsNumber rest →
      value (fuel + 1) (compact j ++ rest) = some (j, rest)) : ReadsBack j := by
  intro fuel rest enough ends
  cases fuel with
  | zero => exact absurd enough (Nat.not_lt_zero _)
  | succ fuel => exact h fuel rest (Nat.le_of_lt_succ enough) ends

private theorem endsNumber_cons {c : Char} (h : isDigit c = false ∧ c ≠ '.' ∧ c ≠ 'e' ∧ c ≠ 'E')
    (cs : List Char) : EndsNumber (c :: cs) := by
  rintro c' ⟨⟩
  exact h

private theorem endsNumber_compactItems (items : List Json) (rest : List Char) :
    EndsNumber (compactItems items ++ rest) := by
  cases items with
  | nil => exact endsNumber_cons (by decide) _
  | cons item items => exact endsNumber_cons (by decide) _

private theorem endsNumber_compactMembers (members : List (String × Json)) (rest : List Char) :
    EndsNumber (compactMembers members ++ rest) := by
  cases members with
  | nil => exact endsNumber_cons (by decide) _
  | cons m members => exact endsNumber_cons (by decide) _

private theorem compactItems_length_pos (items : List Json) : 0 < (compactItems items).length := by
  cases items with
  | nil => exact Nat.zero_lt_one
  | cons item items => exact Nat.zero_lt_succ _

private theorem moreItems_compactItems {items : List Json} (h : ∀ j ∈ items, ReadsBack j)
    (fuel : Nat)
    (rest : List Char) (enough : (compactItems items).length ≤ fuel) :
    moreItems fuel (compactItems items ++ rest) = some (items, rest) := by
  induction items generalizing fuel with
  | nil =>
    cases fuel with
    | zero => exact absurd enough (by decide)
    | succ fuel => rfl
  | cons item items ih =>
    simp only [compactItems, List.length_cons, List.length_append] at enough
    cases fuel with
    | zero => omega
    | succ fuel =>
      have closed := compactItems_length_pos items
      have short : (compact item).length < fuel := by omega
      have first := h item List.mem_cons_self fuel (compactItems items ++ rest) short
        (endsNumber_compactItems items rest)
      have others := ih (fun j member => h j (List.mem_cons_of_mem _ member)) fuel (by omega)
      simp only [compactItems, List.cons_append, List.append_assoc, moreItems]
      rw [skipSpace_cons (by decide)]
      simp only [first, others, Option.pure_def, Option.bind_eq_bind, Option.bind_some]

private theorem moreMembers_compactMembers {members : List (String × Json)}
    (h : ∀ m ∈ members, ReadsBack m.2) (fuel : Nat) (rest : List Char)
    (enough : (compactMembers members).length ≤ fuel) :
    moreMembers fuel (compactMembers members ++ rest) =
      some (members.map fun m => (some m.1, m.2), rest) := by
  induction members generalizing fuel with
  | nil =>
    cases fuel with
    | zero => exact absurd enough (by decide)
    | succ fuel => rfl
  | cons m members ih =>
    simp only [compactMembers, List.length_cons, List.length_append] at enough
    cases fuel with
    | zero => omega
    | succ fuel =>
      have name := memberName_quoted m.1 (compact m.2 ++ (compactMembers members ++ rest))
      have first := h m List.mem_cons_self fuel (compactMembers members ++ rest) (by omega)
        (endsNumber_compactMembers members rest)
      have others := ih (fun m' member => h m' (List.mem_cons_of_mem _ member)) fuel (by omega)
      simp only [compactMembers, List.cons_append, List.append_assoc, moreMembers]
      rw [skipSpace_cons (by decide)]
      simp only [name, first, others, Option.pure_def, Option.bind_eq_bind, Option.bind_some,
        List.map_cons]

private theorem ofMembers_map (members : List (String × Json)) :
    ofMembers (members.map fun m => (some m.1, m.2)) = .obj members := by
  have named : (members.map fun m => ((some m.1, m.2) : Member)).mapM
      (fun m => m.1.map (·, m.2)) = some members := by
    induction members with
    | nil => rfl
    | cons m members ih =>
      rw [List.map_cons, List.mapM_cons, ih]
      rfl
  rw [ofMembers, named]

private theorem readsBack_arr {items : List Json} (plain : ∀ j ∈ items, Plain j)
    (h : ∀ j ∈ items, ReadsBack j) : ReadsBack (.arr items) := by
  apply readsBack_of_succ
  intro fuel rest enough _
  cases items with
  | nil => rfl
  | cons item items =>
    simp only [compact, List.length_cons, List.length_append] at enough
    have closed := compactItems_length_pos items
    have short : (compact item).length < fuel := by omega
    have first := h item List.mem_cons_self fuel (compactItems items ++ rest) short
      (endsNumber_compactItems items rest)
    have others := moreItems_compactItems
      (fun j member => h j (List.mem_cons_of_mem _ member)) fuel rest (by omega)
    obtain ⟨c, cs, start, solid, other⟩ := compact_cons (plain item List.mem_cons_self)
    simp only [compact, List.cons_append, List.append_assoc, value]
    rw [skipSpace_cons (by decide)]
    simp only [start, List.cons_append, skipSpace_cons solid] at first ⊢
    split
    · next same => exact absurd (List.cons.inj same).1 other
    · simp only [first, others, Option.pure_def, Option.bind_eq_bind, Option.bind_some]

private theorem readsBack_obj {members : List (String × Json)} (h : ∀ m ∈ members, ReadsBack m.2) :
    ReadsBack (.obj members) := by
  apply readsBack_of_succ
  intro fuel rest enough _
  cases members with
  | nil => rfl
  | cons m members =>
    simp only [compact, List.length_cons, List.length_append] at enough
    have name := memberName_quoted m.1 (compact m.2 ++ (compactMembers members ++ rest))
    have first := h m List.mem_cons_self fuel (compactMembers members ++ rest) (by omega)
      (endsNumber_compactMembers members rest)
    have others := moreMembers_compactMembers
      (fun m' member => h m' (List.mem_cons_of_mem _ member)) fuel rest (by omega)
    have named := ofMembers_map (m :: members)
    rw [List.map_cons] at named
    simp only [compact, List.cons_append, List.append_assoc, value]
    rw [skipSpace_cons (by decide)]
    simp only [quoted, List.cons_append] at name ⊢
    rw [skipSpace_cons (by decide)]
    split
    · next same => exact absurd (List.cons.inj same).1 (by decide)
    · simp only [name, first, others, named, Option.pure_def, Option.bind_eq_bind,
        Option.bind_some]

private theorem readsBack_str (s : String) : ReadsBack (.str s) := by
  apply readsBack_of_succ
  intro fuel rest _ _
  obtain ⟨ps, read, same⟩ := stringPieces_escaped s.toList rest
  simp only [compact, quoted, List.cons_append, List.append_assoc, List.nil_append, value]
  rw [skipSpace_cons (by decide)]
  simp only [read, ofPieces, same, Option.map_some, String.ofList_toList]

private theorem readsBack_int (i : Int) : ReadsBack (.int i) := by
  apply readsBack_of_succ
  intro fuel rest _ ends
  have read := number_integer i ends
  obtain ⟨c, cs, first, starts⟩ := integer_cons i
  rw [first, List.cons_append] at read
  rw [compact, first, List.cons_append, value_number starts, read]

private theorem Plain.readsBack {j : Json} (h : Plain j) : ReadsBack j := by
  induction h with
  | null => exact readsBack_of_succ fun _ _ _ _ => rfl
  | bool b =>
    cases b with
    | false => exact readsBack_of_succ fun _ _ _ _ => rfl
    | true => exact readsBack_of_succ fun _ _ _ _ => rfl
  | int i => exact readsBack_int i
  | str s => exact readsBack_str s
  | arr each ih => exact readsBack_arr each ih
  | obj each ih => exact readsBack_obj ih

end Values

theorem parseChars_compact {j : Json} (h : Plain j) : parseChars (compact j) = some j := by
  have read := h.readsBack ((compact j).length + 1) [] (Nat.lt_succ_self _) nofun
  rw [List.append_nil] at read
  rw [parseChars, read]
  rfl

end Runbook.Json
