import Runbook.DateToken.Rendering
import Runbook.Proofs.Calendar.Months

set_option autoImplicit false

/-!
Shifts by months and by years. A year counts as twelve months, so both move a moment by whole
months.
-/
namespace Runbook.DateToken

open Calendar Calendar.Moment Text

/-- The months that a token goes forward, if it is shifted by months or by years. -/
def months? (t : DateToken) : Option Int :=
  match t.shift with
  | some ⟨amount, .years⟩ => some (12 * amount)
  | some ⟨amount, .months⟩ => some amount
  | _ => none

section Words

variable {t : DateToken} {n : Int} (months : t.months? = some n) {m m' : Moment}
include months

private theorem shifted?_cases (m : Moment) :
    t.shifted? m = m.shiftMonths? n ∨ t.shifted? m = none ∧ wordCount 63 ≤ n.natAbs := by
  obtain ⟨_ | ⟨amount, span⟩, output, style⟩ := t
  · exact nomatch months
  · cases span with
    | years =>
      obtain rfl := Option.some.inj months
      simp only [shifted?, Shift.apply?, word64?, Int.mul_comm amount]
      split
      · exact .inl rfl
      · next wide => exact .inr ⟨rfl, by omega⟩
    | months =>
      obtain rfl := Option.some.inj months
      exact .inl rfl
    | days | hours | minutes | seconds => exact nomatch months

theorem addMonths?_of_shifted? (h : t.shifted? m = some m') : m.addMonths? n = some m' := by
  rcases shifted?_cases months m with same | ⟨none, -⟩
  · exact addMonths?_of_shiftMonths? (same.symm.trans h)
  · exact nomatch none.symm.trans h

private theorem shifted?_of_months? (range : m.instant.InRange) :
    t.shifted? m = m.addMonths? n := by
  rcases shifted?_cases months m with same | ⟨none, wide⟩
  · rw [same, shiftMonths?_eq range]
  · have words : wordCount 31 ≤ wordCount 63 := by decide
    rw [none, addMonths?_eq_none range (words.trans wide)]

end Words

/-- Shifts by months and years keep the time and the day, or lead to the last day of a short month.
-/
theorem month_shifts_clamp (m : Moment) (t : DateToken) (n : Int) (months : t.months? = some n) :
    (∀ m', t.shifted? m = some m' → MonthsLater n m m') ∧
    (∀ m' m'', MonthsLater n m m' → MonthsLater n m m'' → m' = m'') ∧
    (1 ≤ m.date.year → m.date.year ≤ 9999 → m.instant.InRange) ∧
    (m.instant.InRange → t.shifted? m = m.addMonths? n ∧
      (1 ≤ (m.date.monthIndex + n) / 12 → (m.date.monthIndex + n) / 12 ≤ 9999 →
        (t.shifted? m).isSome = true) ∧
      (wordCount 31 ≤ n.natAbs → t.shifted? m = none) ∧
      (m.date.day ≤ 28 → ∀ m', t.shifted? m = some m' →
        ∀ (t' : DateToken) (n' : Int) (m'' : Moment), t'.months? = some n' →
          t'.shifted? m' = some m'' → (n' = -n → m'' = m) ∧
            ∀ t'' : DateToken, t''.months? = some (n + n') → t''.shifted? m = some m'')) := by
  refine ⟨fun m' given => (addMonths?_eq_some_iff.1 (addMonths?_of_shifted? months given)).1,
    fun m' m'' => MonthsLater.unique, inRange_of_date, fun range => ?_⟩
  rw [shifted?_of_months? months range]
  refine ⟨rfl, isSome_addMonths?, addMonths?_eq_none range, ?_⟩
  intro early m' given t' n' m'' months' given'
  have sum := addMonths?_add early given (addMonths?_of_shifted? months' given')
  constructor
  · rintro rfl
    rw [Int.add_right_neg] at sum
    exact (addMonths?_eq_some_iff.1 sum).1.unique (.zero m)
  · intro t'' months''
    rw [shifted?_of_months? months'' range]
    exact sum

/-- From 31 January 2016 a month leads to 29 February, and 2⁶³ months or years back lead nowhere. -/
theorem month_shifts_clamp_january :
    let january : Moment := ⟨⟨1454234400, 0⟩, ⟨7230, by decide⟩⟩
    let february : Moment := ⟨⟨1456740000, 0⟩, ⟨7230, by decide⟩⟩
    let march : Moment := ⟨⟨1710500000, 5⟩, ⟨-5400, by decide⟩⟩
    MonthsLater 1 january february ∧ february.date = ⟨2016, 2, 29⟩ ∧
      shifted? { shift := some ⟨-1, .years⟩ } march =
        (shifted? { shift := some ⟨-14, .months⟩ } march).bind
          (shifted? { shift := some ⟨2, .months⟩ }) ∧
      shifted? { shift := some ⟨-wordCount 63, .months⟩ } march = none ∧
      shifted? { shift := some ⟨-wordCount 63, .years⟩ } march = none := by
  have range : (⟨1710500000, 5⟩ : Instant).InRange := by decide +kernel
  refine ⟨?_, by decide +kernel, ?_, ?_, ?_⟩
  · exact (month_shifts_clamp _ { shift := some ⟨1, .months⟩ } 1 rfl).1 _ (by decide +kernel)
  · have back : shifted? { shift := some ⟨-14, .months⟩ } ⟨⟨1710500000, 5⟩, ⟨-5400, by decide⟩⟩ =
        some ⟨⟨1673780000, 5⟩, ⟨-5400, by decide⟩⟩ := by decide +kernel
    have forward : shifted? { shift := some ⟨2, .months⟩ } ⟨⟨1673780000, 5⟩, ⟨-5400, by decide⟩⟩ =
        some ⟨⟨1678877600, 5⟩, ⟨-5400, by decide⟩⟩ := by decide +kernel
    obtain ⟨-, -, -, added⟩ := (month_shifts_clamp ⟨⟨1710500000, 5⟩, ⟨-5400, by decide⟩⟩
      { shift := some ⟨-14, .months⟩ } (-14) rfl).2.2.2 range
    have year := (added (by decide +kernel) _ back { shift := some ⟨2, .months⟩ } 2 _ rfl forward).2
      { shift := some ⟨-1, .years⟩ } rfl
    rw [year, back]
    exact forward.symm
  · exact ((month_shifts_clamp _ { shift := some ⟨-wordCount 63, .months⟩ } (-wordCount 63)
      rfl).2.2.2 range).2.2.1 (by decide +kernel)
  · exact ((month_shifts_clamp _ { shift := some ⟨-wordCount 63, .years⟩ } (12 * -wordCount 63)
      rfl).2.2.2 range).2.2.1 (by decide +kernel)

end Runbook.DateToken
