set_option autoImplicit false

/-!
Decimal numerals. `digits` writes a natural number with no leading zero; `natural?` reads a
non-empty run of ASCII digits, leading zeros allowed, and reading what was written gives the
number back.
-/
namespace Runbook.Text

def isDigit (c : Char) : Bool :=
  '0' ≤ c && c ≤ '9'

def digitValue (c : Char) : Nat :=
  c.toNat - '0'.toNat

/-- The digit of a number below ten. -/
def digitOf (n : Nat) : Char :=
  Char.ofNat ('0'.toNat + n)

/-- The decimal digits of a number, the most significant first. -/
def digits (n : Nat) : List Char :=
  if n < 10 then [digitOf n] else digits (n / 10) ++ [digitOf (n % 10)]
termination_by n
decreasing_by omega

/-- `digits` as a string. -/
def decimal (n : Nat) : String :=
  String.ofList (digits n)

/-- The decimal text of an integer; only negative numbers carry a sign. -/
def integer (n : Int) : String :=
  if n < 0 then "-" ++ decimal n.natAbs else decimal n.natAbs

/-- Digits of a number, filled up with zeros on the left to at least `width` places. -/
def padded (width n : Nat) : String :=
  let ds := digits n
  String.ofList (List.replicate (width - ds.length) '0' ++ ds)

def digitsValue (cs : List Char) : Nat :=
  cs.foldl (fun n c => 10 * n + digitValue c) 0

/-- Reads one or more digits and nothing else. -/
def natural? (cs : List Char) : Option Nat :=
  if cs ≠ [] ∧ cs.all isDigit then some (digitsValue cs) else none

/-- Reads an unsigned number up to `bound`; one plus sign may stand in front. -/
def unsigned? (bound : Nat) (cs : List Char) : Option Nat :=
  let body := match cs with
    | '+' :: rest => rest
    | _ => cs
  (natural? body).filter (· ≤ bound)

/-- The number of values that so many bits can have. -/
def wordCount (bits : Nat) : Nat :=
  Nat.pow 2 bits

/-- A one with so many zeros after it. -/
def tenTo (zeros : Nat) : Nat :=
  Nat.pow 10 zeros

/-- The largest number of 32 bits. -/
def maxWord32 : Nat := wordCount 32 - 1

/-- The largest number of 64 bits. -/
def maxWord64 : Nat := wordCount 64 - 1

theorem isDigit_iff {c : Char} : isDigit c = true ↔ 48 ≤ c.toNat ∧ c.toNat ≤ 57 := by
  simp only [isDigit, Bool.and_eq_true, decide_eq_true_eq, Char.le_def, UInt32.le_iff_toNat_le]
  rfl

theorem isDigit_digitOf {n : Nat} (h : n < 10) : isDigit (digitOf n) = true := by
  match n, h with
  | 0, _ | 1, _ | 2, _ | 3, _ | 4, _ | 5, _ | 6, _ | 7, _ | 8, _ | 9, _ => decide

theorem digitValue_digitOf {n : Nat} (h : n < 10) : digitValue (digitOf n) = n := by
  match n, h with
  | 0, _ | 1, _ | 2, _ | 3, _ | 4, _ | 5, _ | 6, _ | 7, _ | 8, _ | 9, _ => decide

theorem digits_ne_nil (n : Nat) : digits n ≠ [] := by
  rw [digits]
  split <;> simp

theorem all_isDigit_digits (n : Nat) : (digits n).all isDigit = true := by
  induction n using Nat.strongRecOn with
  | ind n ih =>
    rw [digits]
    split
    · next h => simp [isDigit_digitOf h]
    · next h =>
      simp only [List.all_append, ih (n / 10) (by omega), List.all_cons, List.all_nil,
        isDigit_digitOf (Nat.mod_lt n (by decide)), Bool.and_self]

theorem digitsValue_digits (n : Nat) : digitsValue (digits n) = n := by
  induction n using Nat.strongRecOn with
  | ind n ih =>
    rw [digits]
    split
    · next h => simp [digitsValue, digitValue_digitOf h]
    · next h =>
      have hq := ih (n / 10) (by omega)
      simp only [digitsValue] at hq ⊢
      rw [List.foldl_append, hq]
      simp only [List.foldl_cons, List.foldl_nil, digitValue_digitOf (Nat.mod_lt n (by decide))]
      omega

theorem decimal_ne_empty (n : Nat) : decimal n ≠ "" := by
  rw [decimal, ne_eq, ← String.toList_inj, String.toList_ofList]
  exact digits_ne_nil n

theorem isDigit_of_mem_decimal (n : Nat) : ∀ c ∈ (decimal n).toList, isDigit c = true := by
  rw [decimal, String.toList_ofList]
  exact List.all_eq_true.1 (all_isDigit_digits n)

@[simp] theorem digitsValue_decimal (n : Nat) : digitsValue (decimal n).toList = n := by
  rw [decimal, String.toList_ofList, digitsValue_digits]

@[simp] theorem natural?_digits (n : Nat) : natural? (digits n) = some n := by
  simp [natural?, digits_ne_nil, all_isDigit_digits, digitsValue_digits]

end Runbook.Text
