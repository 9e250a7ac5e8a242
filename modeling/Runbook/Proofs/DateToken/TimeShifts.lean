import Runbook.Proofs.Calendar.Seconds
import Runbook.Proofs.DateToken.Bundle

set_option autoImplicit false

/-!
Shifts by days, hours, minutes and seconds. Each of these units always takes the same time, so all
of them move a moment by whole seconds, whatever the calendar and the offset make of it.
-/
namespace Runbook.DateToken

open Calendar Calendar.Moment Text

/-- The seconds that a token goes forward, if its unit always takes the same time. -/
def time? (t : DateToken) : Option Int :=
  match t.shift with
  | some ⟨amount, .days⟩ => some (86400 * amount)
  | some ⟨amount, .hours⟩ => some (3600 * amount)
  | some ⟨amount, .minutes⟩ => some (60 * amount)
  | some ⟨amount, .seconds⟩ => some amount
  | _ => none

theorem shifted?_of_time? {t : DateToken} {d : Int} (h : t.time? = some d) (m : Moment) :
    t.shifted? m = m.addSeconds? d := by
  obtain ⟨_ | ⟨amount, span⟩, output, style⟩ := t
  · cases h
  · cases span with
    | years | months => cases h
    | days | hours | minutes | seconds =>
      obtain rfl := Option.some.inj h
      rfl

private theorem time?_of_days {t : DateToken} {n : Int} (h : t.shift = some ⟨n, .days⟩) :
    t.time? = some (86400 * n) := by
  rw [time?, h]

private theorem time?_of_smaller {t : DateToken} {n : Int}
    (h : t.shift ∈ [some ⟨24 * n, .hours⟩, some ⟨1440 * n, .minutes⟩, some ⟨86400 * n, .seconds⟩]) :
    t.time? = some (86400 * n) := by
  have whole (k : Int) (unit : Int) (same : unit * k = 86400) : unit * (k * n) = 86400 * n := by
    rw [← Int.mul_assoc, same]
  simp only [List.mem_cons, List.not_mem_nil, or_false] at h
  rcases h with hours | minutes | seconds
  · rw [time?, hours]
    exact congrArg some (whole 24 3600 rfl)
  · rw [time?, minutes]
    exact congrArg some (whole 1440 60 rfl)
  · rw [time?, seconds]

private theorem write_weekday_congr {m m' : Moment} (h : weekday m'.localDay = weekday m.localDay)
    (s : Style) : write m' .weekday s = write m .weekday s := by
  have name : weekdayName m' = weekdayName m := by
    rw [weekdayName, h, weekdayName]
  cases s with
  | short | medium => exact congrArg shortName name
  | long | full => exact name

/-- Shifts by days, hours, minutes and seconds move a moment by exactly their time, if it can be
counted and stays in range. -/
theorem time_shifts_exact (m : Moment) (plain : m.instant.isLeap = false) (range : m.instant.InRange)
    (t : DateToken) (d : Int) (time : t.time? = some d) :
    (∀ m', t.shifted? m = some m' ↔
      m' = m.later d ∧ TimeInRange d ∧ m'.instant.InRange) ∧
    (t.shifted? m = none ↔ ¬ TimeInRange d ∨ ¬ (m.later d).instant.InRange) ∧
    (∀ offset, t.shifted? { m with offset } = (t.shifted? m).map ({ · with offset })) ∧
    (∀ m', t.shifted? m = some m' →
      (bundle m).get? "$timestamp" = some (integer m.instant.millis) ∧
      (bundle m').get? "$timestamp" = some (integer (m.instant.millis + 1000 * d))) ∧
    (∀ n, t.shift = some ⟨n, .days⟩ → ∀ t' : DateToken,
      t'.shift ∈ [some ⟨24 * n, .hours⟩, some ⟨1440 * n, .minutes⟩, some ⟨86400 * n, .seconds⟩] →
      t'.shifted? m = t.shifted? m) ∧
    (∀ m' m'' (t' t'' : DateToken) d', t.shifted? m = some m' → t'.time? = some d' →
      t'.shifted? m' = some m'' → t''.time? = some (d + d') → t''.shifted? m = some m'') ∧
    (∀ n m', t.shift = some ⟨n, .days⟩ → t.shifted? m = some m' →
      m'.secondOfDay = m.secondOfDay ∧ m'.date.Valid ∧ m'.date.toDays = m.date.toDays + n) ∧
    ∀ n m', t.shift = some ⟨7 * n, .days⟩ → t.shifted? m = some m' →
      ∀ s, write m' .weekday s = write m .weekday s := by
  have reaches {m'} : t.shifted? m = some m' ↔ m' = m.later d ∧ m'.instant.InRange := by
    rw [shifted?_of_time? time]
    exact addSeconds?_eq_some_iff plain
  refine ⟨?_, ?_, ?_, ?_, ?_, ?_, ?_, ?_⟩
  · intro m'
    rw [reaches]
    refine and_congr_right ?_
    rintro rfl
    exact (and_iff_right_of_imp (timeInRange_of_inRange range)).symm
  · rw [shifted?_of_time? time]
    exact addSeconds?_eq_none_iff plain range
  · intro offset
    rw [shifted?_of_time? time, shifted?_of_time? time]
    exact m.addSeconds?_offset offset d
  · intro m' given
    obtain ⟨rfl, -⟩ := reaches.1 given
    rw [← m.millis_later d]
    exact ⟨get?_bundle_timestamp, get?_bundle_timestamp⟩
  · intro n days t' smaller
    obtain rfl := Option.some.inj ((time?_of_days days).symm.trans time)
    rw [shifted?_of_time? time, shifted?_of_time? (time?_of_smaller smaller)]
  · intro m' m'' t' t'' d' given time' given' time''
    rw [shifted?_of_time? time] at given
    rw [shifted?_of_time? time'] at given'
    rw [shifted?_of_time? time'']
    exact addSeconds?_add plain given given'
  · intro n m' days given
    obtain rfl := Option.some.inj ((time?_of_days days).symm.trans time)
    obtain ⟨rfl, -⟩ := reaches.1 given
    refine ⟨m.secondOfDay_later_days n, valid_date _, ?_⟩
    rw [toDays_date, toDays_date, m.localDay_later_days]
  · intro n m' weeks given
    obtain rfl := Option.some.inj ((time?_of_days weeks).symm.trans time)
    obtain ⟨rfl, -⟩ := reaches.1 given
    refine write_weekday_congr ?_
    rw [m.localDay_later_days, weekday_add_weeks]

/-- Two weeks after a moment of 20 February 2016 it is 5 March, on the same day of the week. -/
theorem time_shifts_exact_march :
    let february : Moment := ⟨⟨1456012799, 999000000⟩, ⟨-5400, by decide⟩⟩
    let march : Moment := ⟨⟨1457222399, 999000000⟩, ⟨-5400, by decide⟩⟩
    february.instant.isLeap = false ∧ february.instant.InRange ∧
      time? { shift := some ⟨14, .days⟩ } = some 1209600 ∧
      shifted? { shift := some ⟨14, .days⟩ } february = some march ∧
      shifted? { shift := some ⟨336, .hours⟩ } february = some march ∧
      february.date = ⟨2016, 2, 20⟩ ∧ march.date = ⟨2016, 3, 5⟩ ∧
      (bundle march).get? "$timestamp" = some "1457222399999" ∧
      write march .weekday .full = write february .weekday .full ∧
      shifted? { shift := some ⟨maxAmount, .days⟩ } february = none := by
  intro february march
  have plain : february.instant.isLeap = false := by decide +kernel
  have range : february.instant.InRange := by decide +kernel
  obtain ⟨reached, -, -, stamps, smaller, -, -, weeks⟩ :=
    time_shifts_exact february plain range { shift := some ⟨14, .days⟩ } 1209600 rfl
  obtain ⟨-, nowhere, -⟩ :=
    time_shifts_exact february plain range { shift := some ⟨maxAmount, .days⟩ } (86400 * maxAmount) rfl
  have there : shifted? { shift := some ⟨14, .days⟩ } february = some march :=
    (reached march).2 ⟨rfl, by decide +kernel, by decide +kernel⟩
  refine ⟨plain, range, rfl, there, ?_, by decide +kernel, by decide +kernel, ?_,
    weeks 2 march rfl there .full, nowhere.2 (.inl (by decide +kernel))⟩
  · rw [smaller 14 rfl { shift := some ⟨336, .hours⟩ } (by decide), there]
  · rw [(stamps march there).2]
    decide +kernel

end Runbook.DateToken
