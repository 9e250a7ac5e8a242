import Runbook.Calendar.Instant
import Runbook.Proofs.Calendar.Date

set_option autoImplicit false

/-!
Moments some months later. Months are counted without a break, and a date is its month and its day
in it. A moment is its offset, its local date and its time of day, so a moment some months later is
determined by its month and the day there; it is given exactly when it is in range.
-/
namespace Runbook.Calendar

section Months

variable {d : Date}

private theorem Date.valid_inMonth (index : Int) {day : Nat} (h : 1 ≤ day) :
    (Date.inMonth index day).Valid := by
  have length := twentyeight_le_daysInMonth (index / 12) ((index % 12).toNat + 1)
  simp only [Date.Valid, Date.inMonth]
  omega

private theorem Date.monthIndex_inMonth (index : Int) (day : Nat) :
    (Date.inMonth index day).monthIndex = index := by
  simp only [Date.monthIndex, Date.inMonth]
  omega

private theorem Date.Valid.inMonth_monthIndex (h : d.Valid) :
    Date.inMonth d.monthIndex d.day = d := by
  obtain ⟨first, last, -, bound⟩ := h
  have year : d.monthIndex / 12 = d.year := by
    rw [Date.monthIndex]
    omega
  have month : (d.monthIndex % 12).toNat + 1 = d.month := by
    rw [Date.monthIndex]
    omega
  simp only [Date.inMonth, year, month, Nat.min_eq_left bound]

end Months

private theorem Offset.seconds_bounds (o : Offset) :
    -secondsPerDay < o.seconds ∧ o.seconds < secondsPerDay := by
  have bound := o.less_than_day
  simp only [secondsPerDay]
  omega

namespace Moment

private theorem localSeconds_eq (m : Moment) :
    m.localSeconds = m.localDay * secondsPerDay + m.secondOfDay := by
  simp only [localDay, secondOfDay, secondsPerDay]
  omega

private theorem secondOfDay_lt (m : Moment) : m.secondOfDay < 86400 := by
  simp only [secondOfDay, secondsPerDay]
  omega

theorem valid_date (m : Moment) : m.date.Valid :=
  Date.valid_ofDays m.localDay

/-- The moment at the same local time of day on another date, whether or not it is in range. -/
def movedTo (m : Moment) (d : Date) : Moment where
  instant := ⟨d.toDays * secondsPerDay + m.secondOfDay - m.offset.seconds, m.instant.nanos⟩
  offset := m.offset

theorem localSeconds_movedTo (m : Moment) (d : Date) :
    (m.movedTo d).localSeconds = d.toDays * secondsPerDay + m.secondOfDay := by
  simp only [localSeconds, movedTo]
  omega

@[simp] theorem secondOfDay_movedTo (m : Moment) (d : Date) :
    (m.movedTo d).secondOfDay = m.secondOfDay := by
  have bound := m.secondOfDay_lt
  rw [secondOfDay, localSeconds_movedTo, secondsPerDay]
  omega

private theorem localDay_movedTo (m : Moment) (d : Date) : (m.movedTo d).localDay = d.toDays := by
  have bound := m.secondOfDay_lt
  rw [localDay, localSeconds_movedTo, secondsPerDay]
  omega

private theorem date_movedTo (m : Moment) {d : Date} (h : d.Valid) : (m.movedTo d).date = d := by
  rw [date, localDay_movedTo, h.ofDays_toDays]

private theorem movedTo_date (m : Moment) : m.movedTo m.date = m := by
  have same : m.date.toDays * secondsPerDay + m.secondOfDay - m.offset.seconds =
      m.instant.seconds := by
    rw [date, Date.toDays_ofDays, ← localSeconds_eq, localSeconds]
    omega
  rw [movedTo, same]

private theorem eq_movedTo {m m' : Moment} (offset : m'.offset = m.offset)
    (secondOfDay : m'.secondOfDay = m.secondOfDay) (nanos : m'.instant.nanos = m.instant.nanos) :
    m' = m.movedTo m'.date := by
  rw [movedTo, ← offset, ← secondOfDay, ← nanos]
  exact m'.movedTo_date.symm

private theorem onDate?_eq_some_iff {m m' : Moment} {d : Date} :
    m.onDate? d = some m' ↔ m' = m.movedTo d ∧ yearInRange d.year = true ∧ m'.instant.InRange := by
  simp only [onDate?, Instant.inRange?, Option.ite_none_right_eq_some, Option.map_eq_some_iff]
  constructor
  · rintro ⟨year, instant, ⟨range, same⟩, rfl⟩
    obtain rfl := Option.some.inj same
    exact ⟨rfl, year, range⟩
  · rintro ⟨rfl, year, range⟩
    exact ⟨year, _, ⟨range, rfl⟩, rfl⟩

/-- The moment `m'` is `n` months after `m`, at the same time of the same day or, in a short month,
of the last. -/
structure MonthsLater (n : Int) (m m' : Moment) : Prop where
  offset : m'.offset = m.offset
  secondOfDay : m'.secondOfDay = m.secondOfDay
  nanos : m'.instant.nanos = m.instant.nanos
  valid : m'.date.Valid
  month : m'.date.monthIndex = m.date.monthIndex + n
  day : m'.date.day = min m.date.day (daysInMonth m'.date.year m'.date.month)

def dateAfter (m : Moment) (n : Int) : Date :=
  .inMonth (m.date.monthIndex + n) m.date.day

private theorem valid_dateAfter (m : Moment) (n : Int) : (m.dateAfter n).Valid :=
  Date.valid_inMonth _ m.valid_date.2.2.1

private theorem dateAfter_zero (m : Moment) : m.dateAfter 0 = m.date := by
  rw [dateAfter, Int.add_zero, m.valid_date.inMonth_monthIndex]

section MonthsLater

variable {m m' m'' : Moment} {a b n : Int}

private theorem MonthsLater.date_eq (h : MonthsLater n m m') : m'.date = m.dateAfter n := by
  have own := h.valid.inMonth_monthIndex
  rw [h.month] at own
  have year : m'.date.year = (m.date.monthIndex + n) / 12 := (congrArg Date.year own).symm
  have month : m'.date.month = ((m.date.monthIndex + n) % 12).toNat + 1 :=
    (congrArg Date.month own).symm
  have day := h.day
  rw [year, month] at day
  calc m'.date = ⟨m'.date.year, m'.date.month, m'.date.day⟩ := rfl
    _ = m.dateAfter n := by rw [year, month, day]; rfl

theorem monthsLater_iff : MonthsLater n m m' ↔ m' = m.movedTo (m.dateAfter n) := by
  constructor
  · intro later
    rw [← later.date_eq]
    exact eq_movedTo later.offset later.secondOfDay later.nanos
  · rintro rfl
    have date := m.date_movedTo (m.valid_dateAfter n)
    refine ⟨rfl, m.secondOfDay_movedTo _, rfl, valid_date _, ?_, ?_⟩
    · rw [date, dateAfter, Date.monthIndex_inMonth]
    · rw [date]
      rfl

theorem MonthsLater.unique (h : MonthsLater n m m') (h' : MonthsLater n m m'') : m' = m'' :=
  (monthsLater_iff.1 h).trans (monthsLater_iff.1 h').symm

theorem MonthsLater.zero (m : Moment) : MonthsLater 0 m m := by
  rw [monthsLater_iff, dateAfter_zero, movedTo_date]

private theorem MonthsLater.trans (h : MonthsLater a m m') (h' : MonthsLater b m' m'')
    (early : m.date.day ≤ 28) : MonthsLater (a + b) m m'' := by
  have kept (y : Int) (k : Nat) : min m.date.day (daysInMonth y k) = m.date.day :=
    Nat.min_eq_left (early.trans (twentyeight_le_daysInMonth y k))
  refine ⟨h'.offset.trans h.offset, h'.secondOfDay.trans h.secondOfDay, h'.nanos.trans h.nanos,
    h'.valid, ?_, ?_⟩
  · rw [h'.month, h.month, Int.add_assoc]
  · rw [h'.day, h.day, kept, kept]

/-- A moment some months later is given if it is the same one or in range. -/
theorem addMonths?_eq_some_iff :
    m.addMonths? n = some m' ↔ MonthsLater n m m' ∧
      (n = 0 ∨ yearInRange m'.date.year = true ∧ m'.instant.InRange) := by
  rw [addMonths?, ← dateAfter]
  split
  · next zero =>
    subst zero
    rw [Option.some.injEq]
    constructor
    · rintro rfl
      exact ⟨.zero m, .inl rfl⟩
    · rintro ⟨later, -⟩
      exact (MonthsLater.zero m).unique later
  · next nonzero =>
    rw [onDate?_eq_some_iff, monthsLater_iff, or_iff_right nonzero]
    refine and_congr_right ?_
    rintro rfl
    rw [m.date_movedTo (m.valid_dateAfter n)]

theorem addMonths?_add (early : m.date.day ≤ 28) (h : m.addMonths? a = some m')
    (h' : m'.addMonths? b = some m'') : m.addMonths? (a + b) = some m'' := by
  rw [addMonths?_eq_some_iff] at h h' ⊢
  obtain ⟨later, first⟩ := h
  obtain ⟨later', second⟩ := h'
  refine ⟨later.trans later' early, ?_⟩
  rcases second with rfl | range
  · obtain rfl := later'.unique (.zero m')
    rw [Int.add_zero]
    exact first
  · exact .inr range

end MonthsLater

section Range

private theorem yearInRange_iff {y : Int} : yearInRange y = true ↔ -262143 ≤ y ∧ y ≤ 262142 := by
  rw [yearInRange, Bool.and_eq_true, decide_eq_true_iff, decide_eq_true_iff]
  rfl

theorem firstSecond_eq : firstSecond = -8334601228800 := by decide

theorem lastSecond_eq : lastSecond = 8210266876799 := by decide

variable {m : Moment} {n : Int}

private theorem localDay_bounds (m : Moment) :
    daysBeforeYear m.date.year ≤ m.localDay + epochShift ∧
      m.localDay + epochShift < daysBeforeYear (m.date.year + 1) := by
  have bounds := m.valid_date.toDays_bounds
  rwa [date, Date.toDays_ofDays] at bounds

private theorem seconds_bounds (m : Moment) :
    (daysBeforeYear m.date.year - epochShift - 1) * secondsPerDay < m.instant.seconds ∧
      m.instant.seconds < (daysBeforeYear (m.date.year + 1) - epochShift + 1) * secondsPerDay := by
  obtain ⟨first, last⟩ := m.localDay_bounds
  have seconds := m.localSeconds_eq
  have time := m.secondOfDay_lt
  have offset := m.offset.seconds_bounds
  rw [localSeconds] at seconds
  simp only [secondsPerDay] at seconds offset ⊢
  omega

theorem inRange_of_date (first : 1 ≤ m.date.year) (last : m.date.year ≤ 9999) :
    m.instant.InRange := by
  obtain ⟨after, before⟩ := m.seconds_bounds
  rw [Instant.InRange, firstSecond_eq, lastSecond_eq]
  simp only [daysBeforeYear, epochShift, secondsPerDay] at after before
  omega

theorem isSome_addMonths? (first : 1 ≤ (m.date.monthIndex + n) / 12)
    (last : (m.date.monthIndex + n) / 12 ≤ 9999) : (m.addMonths? n).isSome = true := by
  have date := m.date_movedTo (m.valid_dateAfter n)
  have year : (m.movedTo (m.dateAfter n)).date.year = (m.date.monthIndex + n) / 12 := by
    rw [date]
    rfl
  rw [← year] at first last
  have range : yearInRange (m.movedTo (m.dateAfter n)).date.year = true := by
    rw [yearInRange_iff]
    omega
  rw [addMonths?_eq_some_iff.2 ⟨monthsLater_iff.2 rfl, .inr ⟨range, inRange_of_date first last⟩⟩]
  rfl

theorem addMonths?_eq_none (range : m.instant.InRange) (far : Text.wordCount 31 ≤ n.natAbs) :
    m.addMonths? n = none := by
  have word : Text.wordCount 31 = 2147483648 := rfl
  -- So many months are more years than lie between the first and the last.
  have year : -262145 ≤ m.date.year ∧ m.date.year ≤ 262145 := by
    obtain ⟨after, before⟩ := m.seconds_bounds
    rw [Instant.InRange, firstSecond_eq, lastSecond_eq] at range
    simp only [daysBeforeYear, epochShift, secondsPerDay] at after before
    omega
  have month := m.valid_date.2.1
  rw [Option.eq_none_iff_forall_ne_some]
  intro m' given
  obtain ⟨later, zero | ⟨near, -⟩⟩ := addMonths?_eq_some_iff.1 given
  · omega
  · rw [later.date_eq, yearInRange_iff] at near
    simp only [dateAfter, Date.inMonth, Date.monthIndex] at near
    omega

end Range

section Words

variable {m m' : Moment} {n : Int}

private theorem shiftMonths?_of_lt (h : n.natAbs < Text.wordCount 32) :
    m.shiftMonths? n = m.addMonths? n := by
  rw [shiftMonths?, if_pos h]
  split
  · next forward => rw [Int.natAbs_of_nonneg forward]
  · next backward => rw [Int.ofNat_natAbs_of_nonpos (not_le.1 backward).le, Int.neg_neg]

theorem addMonths?_of_shiftMonths? (h : m.shiftMonths? n = some m') :
    m.addMonths? n = some m' := by
  have fits : n.natAbs < Text.wordCount 32 := by
    rw [shiftMonths?, Option.ite_none_right_eq_some] at h
    exact h.1
  rw [← shiftMonths?_of_lt fits, h]

theorem shiftMonths?_eq (range : m.instant.InRange) (n : Int) :
    m.shiftMonths? n = m.addMonths? n := by
  by_cases fits : n.natAbs < Text.wordCount 32
  · exact shiftMonths?_of_lt fits
  · have words : Text.wordCount 31 ≤ Text.wordCount 32 := by decide
    rw [shiftMonths?, if_neg fits, addMonths?_eq_none range (words.trans (Nat.le_of_not_lt fits))]

end Words

end Moment

end Runbook.Calendar
