import Mathlib.Algebra.BigOperators.Group.List.Basic
import Mathlib.Algebra.GroupWithZero.Nat
import Mathlib.Order.Monotone.Basic
import Runbook.Calendar.Date

set_option autoImplicit false

/-!
Dates and days. Every day has one date that exists, and every date that exists has one day. The year
that is estimated from the mean length of a year and put right by one is the year in which the day
lies, and so the day falls into one of its twelve months.
-/
namespace Runbook.Calendar

private theorem daysBeforeYear_succ (y : Int) :
    daysBeforeYear (y + 1) = daysBeforeYear y + if isLeap y then 366 else 365 := by
  simp only [daysBeforeYear, isLeap, Bool.and_eq_true, Bool.or_eq_true, beq_iff_eq, bne_iff_ne]
  split
  · omega
  · omega

private theorem daysBeforeYear_lt_succ (y : Int) : daysBeforeYear y < daysBeforeYear (y + 1) := by
  rw [daysBeforeYear_succ]
  split
  · omega
  · omega

private theorem yearOfDay_spec (n : Int) :
    daysBeforeYear (yearOfDay n) ≤ n ∧ n < daysBeforeYear (yearOfDay n + 1) := by
  simp only [yearOfDay]
  split
  · next early =>
    simp only [Int.sub_add_cancel, daysBeforeYear] at early ⊢
    omega
  · next late =>
    split
    · next later =>
      simp only [daysBeforeYear] at later ⊢
      omega
    · next within =>
      simp only [daysBeforeYear] at late within ⊢
      omega

private theorem yearOfDay_eq {n y : Int} (first : daysBeforeYear y ≤ n)
    (last : n < daysBeforeYear (y + 1)) :
    yearOfDay n = y := by
  have increasing : StrictMono daysBeforeYear := strictMono_int_of_lt_succ daysBeforeYear_lt_succ
  obtain ⟨first', last'⟩ := yearOfDay_spec n
  have notLater := increasing.lt_iff_lt.1 (first'.trans_lt last)
  have notEarlier := increasing.lt_iff_lt.1 (first.trans_lt last')
  omega

private theorem length_monthLengths (y : Int) : (monthLengths y).length = 12 := rfl

private theorem sum_monthLengths (y : Int) :
    (monthLengths y).sum = if isLeap y then 366 else 365 := by
  cases leap : isLeap y with
  | true => simp [monthLengths, leap]
  | false => simp [monthLengths, leap]

private theorem daysBeforeMonth_eq_sum (y : Int) (m : Nat) :
    daysBeforeMonth y m = ((monthLengths y).take (m - 1)).sum :=
  List.sum_eq_foldl.symm

private theorem splitMonths_spec {lens : List Nat} {d : Nat} (h : d < lens.sum) :
    (∃ len, lens[(splitMonths lens d).1]? = some len ∧ (splitMonths lens d).2 < len) ∧
      (lens.take (splitMonths lens d).1).sum + (splitMonths lens d).2 = d := by
  induction lens generalizing d with
  | nil => exact absurd h (Nat.not_lt_zero d)
  | cons len lens ih =>
    rw [splitMonths]
    split
    · next within => exact ⟨⟨len, rfl, within⟩, by simp⟩
    · next beyond =>
      rw [List.sum_cons] at h
      obtain ⟨month, total⟩ := ih (d := d - len) (by omega)
      refine ⟨by simpa using month, ?_⟩
      change (List.take ((splitMonths lens (d - len)).1 + 1) (len :: lens)).sum +
        (splitMonths lens (d - len)).2 = d
      rw [List.take_succ_cons, List.sum_cons]
      omega

private theorem splitMonths_take {lens : List Nat} {m r len : Nat} (h : lens[m]? = some len)
    (within : r < len) : splitMonths lens ((lens.take m).sum + r) = (m, r) := by
  induction lens generalizing m with
  | nil => simp at h
  | cons len' lens ih =>
    cases m with
    | zero =>
      obtain rfl : len' = len := by simpa using h
      simp [splitMonths, within]
    | succ m =>
      have rest := ih (m := m) (by simpa using h)
      rw [List.take_succ_cons, List.sum_cons, splitMonths, if_neg (by omega)]
      have left : len' + (lens.take m).sum + r - len' = (lens.take m).sum + r := by omega
      rw [left, rest]

private theorem getElem?_monthLengths (y : Int) {m : Nat} (first : 1 ≤ m) (last : m ≤ 12) :
    (monthLengths y)[m - 1]? = some (daysInMonth y m) := by
  have bound : m - 1 < (monthLengths y).length := by
    rw [length_monthLengths]
    omega
  rw [daysInMonth, List.getElem?_eq_getElem bound, Option.getD_some]

theorem twentyeight_le_daysInMonth (y : Int) (m : Nat) : 28 ≤ daysInMonth y m := by
  have each : ∀ len ∈ monthLengths y, 28 ≤ len := by
    cases leap : isLeap y with
    | true => simp [monthLengths, leap]
    | false => simp [monthLengths, leap]
  rw [daysInMonth]
  cases found : (monthLengths y)[m - 1]? with
  | none => simp
  | some len => exact each len (List.mem_of_getElem? found)

/-- The number of a day in its year, counted from 0. -/
def Date.dayOfYear (d : Date) : Nat :=
  daysBeforeMonth d.year d.month + (d.day - 1)

private theorem Date.toDays_eq (d : Date) :
    d.toDays + epochShift = daysBeforeYear d.year + d.dayOfYear := by
  simp only [toDays, dayOfYear]
  omega

section Valid

variable {d : Date}

private theorem Date.Valid.dayOfYear_lt (h : d.Valid) :
    d.dayOfYear < (monthLengths d.year).sum := by
  obtain ⟨first, last, one, bound⟩ := h
  have month := getElem?_monthLengths d.year first last
  obtain ⟨place, same⟩ := List.getElem?_eq_some_iff.1 month
  have split := List.sum_take_add_sum_drop (monthLengths d.year) (d.month - 1)
  rw [List.drop_eq_getElem_cons place, List.sum_cons, same] at split
  rw [Date.dayOfYear, daysBeforeMonth_eq_sum]
  omega

theorem Date.Valid.toDays_bounds (h : d.Valid) :
    daysBeforeYear d.year ≤ d.toDays + epochShift ∧
      d.toDays + epochShift < daysBeforeYear (d.year + 1) := by
  have within := h.dayOfYear_lt
  rw [sum_monthLengths] at within
  rw [d.toDays_eq, daysBeforeYear_succ]
  split at within
  · next leap =>
    rw [if_pos leap]
    omega
  · next common =>
    rw [if_neg common]
    omega

theorem Date.Valid.ofDays_toDays (h : d.Valid) : Date.ofDays d.toDays = d := by
  obtain ⟨first, last⟩ := h.toDays_bounds
  have year : yearOfDay (d.toDays + epochShift) = d.year := yearOfDay_eq first last
  have offset : (d.toDays + epochShift - daysBeforeYear d.year).toNat = d.dayOfYear := by
    rw [d.toDays_eq]
    omega
  obtain ⟨firstMonth, lastMonth, one, bound⟩ := h
  have month : splitMonths (monthLengths d.year) d.dayOfYear = (d.month - 1, d.day - 1) := by
    rw [dayOfYear, daysBeforeMonth_eq_sum]
    exact splitMonths_take (getElem?_monthLengths d.year firstMonth lastMonth) (by omega)
  simp only [ofDays, year, offset, month, Nat.sub_add_cancel firstMonth, Nat.sub_add_cancel one]

end Valid

private theorem Date.ofDays_spec (n : Int) :
    (Date.ofDays n).Valid ∧ (Date.ofDays n).toDays = n := by
  obtain ⟨first, last⟩ := yearOfDay_spec (n + epochShift)
  rw [daysBeforeYear_succ] at last
  generalize year : yearOfDay (n + epochShift) = y at first last
  generalize offset : (n + epochShift - daysBeforeYear y).toNat = r
  have within : r < (monthLengths y).sum := by
    rw [sum_monthLengths]
    split at last
    · next leap =>
      rw [if_pos leap]
      omega
    · next common =>
      rw [if_neg common]
      omega
  obtain ⟨⟨len, month, day⟩, total⟩ := splitMonths_spec within
  have date : Date.ofDays n = ⟨y, (splitMonths (monthLengths y) r).1 + 1,
      (splitMonths (monthLengths y) r).2 + 1⟩ := by
    simp only [ofDays, year, offset]
  rw [date]
  generalize (splitMonths (monthLengths y) r).1 = m at month total ⊢
  generalize (splitMonths (monthLengths y) r).2 = k at day total ⊢
  obtain ⟨bound, -⟩ := List.getElem?_eq_some_iff.1 month
  rw [length_monthLengths] at bound
  constructor
  · refine ⟨Nat.succ_pos m, bound, Nat.succ_pos k, ?_⟩
    rw [daysInMonth, Nat.add_sub_cancel, month]
    exact day
  · simp only [toDays, daysBeforeMonth_eq_sum, Nat.add_sub_cancel]
    omega

theorem Date.valid_ofDays (n : Int) : (Date.ofDays n).Valid :=
  (ofDays_spec n).1

@[simp] theorem Date.toDays_ofDays (n : Int) : (Date.ofDays n).toDays = n :=
  (ofDays_spec n).2

end Runbook.Calendar
