import Runbook.Proofs.Calendar.Months

set_option autoImplicit false

/-!
Moments some seconds later. Outside of leap seconds a moment some seconds later has the same offset
and the same fraction of the second, and it is given exactly when it is in range; the time between
two moments in range can always be counted. Whole days later it is the same local time of day, on a
date as many days later, and so after whole weeks on the same day of the week.
-/
namespace Runbook.Calendar

/-- A time in seconds whose milliseconds are counted by 63 bits and a sign. -/
def TimeInRange (seconds : Int) : Prop :=
  -Text.wordCount 63 < 1000 * seconds ∧ 1000 * seconds < Text.wordCount 63

instance (seconds : Int) : Decidable (TimeInRange seconds) :=
  inferInstanceAs (Decidable (_ ∧ _))

theorem weekday_add_weeks (day weeks : Int) : weekday (day + 7 * weeks) = weekday day := by
  simp only [weekday]
  omega

theorem Instant.inRange?_eq_some_iff {t t' : Instant} :
    t.inRange? = some t' ↔ t' = t ∧ t'.InRange := by
  simp only [inRange?, Option.ite_none_right_eq_some, Option.some.injEq]
  constructor
  · rintro ⟨range, rfl⟩
    exact ⟨rfl, range⟩
  · rintro ⟨rfl, range⟩
    exact ⟨range, rfl⟩

namespace Moment

def later (m : Moment) (seconds : Int) : Moment where
  instant := ⟨m.instant.seconds + seconds, m.instant.nanos⟩
  offset := m.offset

private theorem later_later (m : Moment) (a b : Int) : (m.later a).later b = m.later (a + b) := by
  simp only [later, Int.add_assoc]

private theorem localSeconds_later (m : Moment) (seconds : Int) :
    (m.later seconds).localSeconds = m.localSeconds + seconds := by
  simp only [localSeconds, later]
  omega

theorem millis_later (m : Moment) (seconds : Int) :
    (m.later seconds).instant.millis = m.instant.millis + 1000 * seconds := by
  simp only [Instant.millis, later]
  omega

theorem toDays_date (m : Moment) : m.date.toDays = m.localDay :=
  Date.toDays_ofDays m.localDay

section Days

variable (m : Moment) (days : Int)

theorem localDay_later_days : (m.later (86400 * days)).localDay = m.localDay + days := by
  rw [localDay, localDay, localSeconds_later, secondsPerDay]
  omega

theorem secondOfDay_later_days : (m.later (86400 * days)).secondOfDay = m.secondOfDay := by
  rw [secondOfDay, secondOfDay, localSeconds_later, secondsPerDay]
  omega

end Days

section Range

variable {m m' : Moment} {seconds : Int}

/-- Outside of leap seconds a moment some seconds later is given if it is in range. -/
theorem addSeconds?_eq_some_iff (plain : m.instant.isLeap = false) :
    m.addSeconds? seconds = some m' ↔ m' = m.later seconds ∧ m'.instant.InRange := by
  have moved : m.instant.addSeconds? seconds = (m.later seconds).instant.inRange? := by
    rw [Instant.addSeconds?, plain]
    exact if_neg (by simp)
  rw [addSeconds?, moved, Option.map_eq_some_iff]
  constructor
  · rintro ⟨t, given, rfl⟩
    obtain ⟨rfl, range⟩ := Instant.inRange?_eq_some_iff.1 given
    exact ⟨rfl, range⟩
  · rintro ⟨rfl, range⟩
    exact ⟨_, Instant.inRange?_eq_some_iff.2 ⟨rfl, range⟩, rfl⟩

theorem timeInRange_of_inRange (first : m.instant.InRange)
    (last : (m.later seconds).instant.InRange) : TimeInRange seconds := by
  have word : Text.wordCount 63 = 9223372036854775808 := rfl
  rw [Instant.InRange, firstSecond_eq, lastSecond_eq] at first last
  simp only [later] at last
  rw [TimeInRange, word]
  omega

theorem addSeconds?_eq_none_iff (plain : m.instant.isLeap = false) (range : m.instant.InRange) :
    m.addSeconds? seconds = none ↔
      ¬ TimeInRange seconds ∨ ¬ (m.later seconds).instant.InRange := by
  have given : m.addSeconds? seconds = none ↔ ¬ (m.later seconds).instant.InRange := by
    rw [Option.eq_none_iff_forall_ne_some]
    constructor
    · intro nothing within
      exact nothing _ ((addSeconds?_eq_some_iff plain).2 ⟨rfl, within⟩)
    · rintro beyond m' given
      obtain ⟨rfl, within⟩ := (addSeconds?_eq_some_iff plain).1 given
      exact beyond within
  rw [given]
  constructor
  · exact .inr
  · rintro (endless | beyond) within
    · exact endless (timeInRange_of_inRange range within)
    · exact beyond within

theorem addSeconds?_add {m'' : Moment} {more : Int} (plain : m.instant.isLeap = false)
    (h : m.addSeconds? seconds = some m') (h' : m'.addSeconds? more = some m'') :
    m.addSeconds? (seconds + more) = some m'' := by
  obtain ⟨rfl, -⟩ := (addSeconds?_eq_some_iff plain).1 h
  obtain ⟨rfl, range⟩ := (addSeconds?_eq_some_iff (m := m.later seconds) plain).1 h'
  exact (addSeconds?_eq_some_iff plain).2 ⟨m.later_later seconds more, range⟩

end Range

theorem addSeconds?_offset (m : Moment) (offset : Offset) (seconds : Int) :
    ({ m with offset } : Moment).addSeconds? seconds =
      (m.addSeconds? seconds).map ({ · with offset }) := by
  rw [addSeconds?, addSeconds?, Option.map_map]
  rfl

end Moment

end Runbook.Calendar
