import Runbook.Proofs.DateToken.MonthShifts
import Runbook.Proofs.DateToken.TimeShifts
import Runbook.Proofs.Variables.Expansion

set_option autoImplicit false

/-!
What the offset does to date tokens. It moves the local reading of the clock and nothing else: a
clock that is set forward by the offset, without one, reads the same on its calendar and goes on
reading the same through every shift. Only the timestamp, which counts from the instant, and what
prints the zone can tell the two apart.
-/
namespace Runbook

namespace Calendar

/-- Moments that the local calendar and the local clock read in the same way. -/
structure Moment.ReadAlike (m m' : Moment) : Prop where
  localSeconds : m'.localSeconds = m.localSeconds
  nanos : m'.instant.nanos = m.instant.nanos

private theorem Instant.addSeconds?_apart {t t' u u' : Instant} {n : Int}
    (nanos : u.nanos = t.nanos)
    (h : t.addSeconds? n = some t') (h' : u.addSeconds? n = some u') :
    u'.seconds - t'.seconds = u.seconds - t.seconds ∧ u'.nanos = t'.nanos := by
  have leap : u.isLeap = t.isLeap := by
    rw [isLeap, isLeap, nanos]
  rw [addSeconds?, leap, nanos] at h'
  rw [addSeconds?] at h
  split at h
  · next passed =>
    rw [if_pos passed] at h'
    obtain ⟨rfl, -⟩ := inRange?_eq_some_iff.1 h
    obtain ⟨rfl, -⟩ := inRange?_eq_some_iff.1 h'
    refine ⟨?_, rfl⟩
    dsimp only
    split <;> omega
  · next within =>
    rw [if_neg within] at h'
    obtain ⟨rfl, -⟩ := inRange?_eq_some_iff.1 h
    obtain ⟨rfl, -⟩ := inRange?_eq_some_iff.1 h'
    refine ⟨?_, rfl⟩
    dsimp only
    omega

namespace Moment.ReadAlike

variable {m m' a b : Moment} (alike : ReadAlike m m')

include alike

private theorem localDay : m'.localDay = m.localDay := by
  rw [Moment.localDay, alike.localSeconds, Moment.localDay]

private theorem date : m'.date = m.date := by
  rw [Moment.date, alike.localDay, Moment.date]

private theorem secondOfDay : m'.secondOfDay = m.secondOfDay := by
  rw [Moment.secondOfDay, alike.localSeconds, Moment.secondOfDay]

private theorem hour : m'.hour = m.hour := by
  rw [Moment.hour, alike.secondOfDay, Moment.hour]

private theorem minute : m'.minute = m.minute := by
  rw [Moment.minute, alike.secondOfDay, Moment.minute]

private theorem second : m'.second = m.second := by
  rw [Moment.second, alike.secondOfDay, alike.nanos, Moment.second]

private theorem fraction : m'.nanos = m.nanos := by
  rw [Moment.nanos, alike.nanos, Moment.nanos]

private theorem addSeconds? {n : Int} (h : m.addSeconds? n = some a)
    (h' : m'.addSeconds? n = some b) :
    ReadAlike a b := by
  rw [Moment.addSeconds?, Option.map_eq_some_iff] at h h'
  obtain ⟨t, reached, rfl⟩ := h
  obtain ⟨u, reached', rfl⟩ := h'
  obtain ⟨seconds, nanos⟩ := Instant.addSeconds?_apart alike.nanos reached reached'
  have before := alike.localSeconds
  refine ⟨?_, nanos⟩
  simp only [Moment.localSeconds] at before ⊢
  omega

private theorem addMonths? {n : Int} (h : m.addMonths? n = some a) (h' : m'.addMonths? n = some b) :
    ReadAlike a b := by
  have same : m'.dateAfter n = m.dateAfter n := by
    rw [dateAfter, alike.date, dateAfter]
  obtain rfl := monthsLater_iff.1 (addMonths?_eq_some_iff.1 h).1
  obtain rfl := monthsLater_iff.1 (addMonths?_eq_some_iff.1 h').1
  refine ⟨?_, alike.nanos⟩
  rw [localSeconds_movedTo, localSeconds_movedTo, same, alike.secondOfDay]

end Moment.ReadAlike

end Calendar

namespace DateToken

open Calendar Calendar.Moment Text

private theorem shift_cases (t : DateToken) :
    t.shift = none ∨ (∃ n, t.months? = some n) ∨ ∃ d, t.time? = some d := by
  obtain ⟨_ | ⟨amount, span⟩, output, style⟩ := t
  · exact .inl rfl
  · cases span with
    | years | months => exact .inr (.inl ⟨_, rfl⟩)
    | days | hours | minutes | seconds => exact .inr (.inr ⟨_, rfl⟩)

private theorem shifted?_of_unshifted {t : DateToken} (h : t.shift = none) (m : Moment) :
    t.shifted? m = some m := by
  rw [shifted?, h]

private theorem shifted?_readAlike {t : DateToken} {m m' a b : Moment} (alike : ReadAlike m m')
    (h : t.shifted? m = some a) (h' : t.shifted? m' = some b) : ReadAlike a b := by
  rcases t.shift_cases with unshifted | ⟨n, months⟩ | ⟨d, time⟩
  · rw [shifted?_of_unshifted unshifted] at h h'
    obtain rfl := Option.some.inj h
    obtain rfl := Option.some.inj h'
    exact alike
  · exact alike.addMonths? (addMonths?_of_shifted? months h) (addMonths?_of_shifted? months h')
  · rw [shifted?_of_time? time] at h h'
    exact alike.addSeconds? h h'

private theorem shifted?_offset {t : DateToken} (h : t.months? = none) (m : Moment)
    (offset : Offset) :
    t.shifted? { m with offset } = (t.shifted? m).map ({ · with offset }) := by
  rcases t.shift_cases with unshifted | ⟨n, months⟩ | ⟨d, time⟩
  · simp only [shifted?_of_unshifted unshifted, Option.map_some]
  · rw [h] at months
    cases months
  · simp only [shifted?_of_time? time, addSeconds?_offset]

def printsZone : Output → Style → Bool
  | .time, .long | .time, .full | .datetime, .long | .datetime, .full => true
  | _, _ => false

def offsetNames : List String :=
  ["$timestamp", "$longtime", "$fulltime", "$longdatetime", "$fulldatetime"]

section Writing

variable {m m' : Moment} (alike : ReadAlike m m')

include alike

private theorem dateText_readAlike (s : Style) : dateText m' s = dateText m s := by
  cases s <;>
    simp only [dateText, monthName, weekdayName, shortYear, alike.date, alike.localDay]

private theorem hour12_readAlike : hour12 m' = hour12 m := by
  simp only [hour12, alike.hour]

private theorem halfOfDay_readAlike : halfOfDay m' = halfOfDay m := by
  simp only [halfOfDay, alike.hour]

private theorem write_readAlike {o : Output} {s : Style} (zone : printsZone o s = false) :
    write m' o s = write m o s := by
  have timeText (s : Style) (brief : printsZone .time s = false) : timeText m' s = timeText m s := by
    cases s with
    | short | medium =>
      simp only [DateToken.timeText, hour12_readAlike alike, halfOfDay_readAlike alike, alike.minute,
        alike.second]
    | long | full => cases brief
  cases o with
  | date => exact dateText_readAlike alike s
  | time => exact timeText s zone
  | datetime =>
    have brief : printsZone .time s = false := by
      rw [← zone]
      cases s <;> rfl
    simp only [write, dateText_readAlike alike, timeText s brief]
  | year | month | day => cases s <;> simp only [write, shortYear, monthName, alike.date]
  | weekday => cases s <;> simp only [write, weekdayName, alike.localDay]
  | hours => cases s <;> simp only [write, alike.hour]
  | minutes => simp only [write, alike.minute]
  | seconds => simp only [write, alike.second]

private theorem mem_bundleEntries_readAlike {name value : String}
    (entry : (name, value) ∈ bundleEntries m)
    (other : name ∉ offsetNames) : (name, value) ∈ bundleEntries m' := by
  have zoned : ∀ s ∈ Style.all, ∀ o ∈ styledOutputs, printsZone o s = true →
      entryName o s ∈ offsetNames := by
    decide +kernel
  rw [bundleEntries, List.mem_append] at entry ⊢
  refine entry.imp ?_ ?_
  · intro styled
    obtain ⟨s, style, entry⟩ := List.mem_flatMap.1 styled
    obtain ⟨o, output, same⟩ := List.mem_map.1 entry
    obtain ⟨rfl, rfl⟩ := Prod.mk.inj same
    have zone : printsZone o s = false :=
      Bool.eq_false_iff.2 fun zone => other (zoned s style o output zone)
    rw [← write_readAlike alike zone]
    exact List.mem_flatMap.2 ⟨s, style, List.mem_map_of_mem output⟩
  · intro single
    have apart : name ≠ "$timestamp" := fun same => other (same ▸ List.mem_cons_self)
    simpa [apart, alike.hour, alike.minute, alike.second, alike.fraction, hour12_readAlike alike,
      halfOfDay_readAlike alike] using single

private theorem get?_bundle_readAlike {name : String} (other : name ∉ offsetNames) :
    (bundle m').get? name = (bundle m).get? name := by
  cases held : (bundle m).get? name with
  | none =>
    have absent : name ∉ (bundle m).keys := by
      simp [Keyed.mem_keys_iff, held]
    have absent' : name ∉ (bundle m').keys := fun member =>
      absent (mem_keys_bundle.2 (mem_keys_bundle.1 member))
    simpa [Keyed.mem_keys_iff] using absent'
  | some value =>
    have entry : (name, value) ∈ bundleEntries m :=
      (Keyed.mem_insertAll (Keyed.get?_eq_some_iff.1 held)).resolve_left List.not_mem_nil
    exact get?_bundle_of_mem (mem_bundleEntries_readAlike alike entry other)

end Writing

end DateToken

namespace Variables

open Calendar

/-- The offset only moves the local reading: setting the clock forward by it gives the same entries
without zone. -/
theorem offset_moves_local_reading (v w : Variables)
    (clock : w.clock = ⟨v.clock.seconds + v.offset.seconds, v.clock.nanos⟩)
    (offset : w.offset = .utc) (token : String) :
    (∀ x v' y w', v.expandDate token = (.ok x, v') → w.expandDate token = (.ok y, w') →
      (∀ name ∉ DateToken.offsetNames, y.bundle.get? name = x.bundle.get? name) ∧
      ∀ t, DateToken.parse token = .ok t → DateToken.printsZone t.output t.style = false →
        y.value = x.value) ∧
    ∀ t, DateToken.parse token = .ok t → t.months? = none → ∀ offset x v',
      v.expandDate token = (.ok x, v') →
      ∃ y u', ({ v with offset } : Variables).expandDate token = (.ok y, u') ∧
        y.bundle.get? "$timestamp" = x.bundle.get? "$timestamp" := by
  constructor
  · intro x v' y w' expanded expanded'
    obtain ⟨t, m, read, moment⟩ := exists_of_expandDate_eq_ok expanded
    obtain ⟨t', m', read', moment'⟩ := exists_of_expandDate_eq_ok expanded'
    obtain rfl := Except.ok.inj (read.symm.trans read')
    obtain ⟨rfl, -⟩ := (expandDate_eq_ok_iff read moment).1 expanded
    obtain ⟨rfl, -⟩ := (expandDate_eq_ok_iff read moment').1 expanded'
    have now : v.now.ReadAlike w.now := by
      constructor <;>
        simp [Moment.localSeconds, Variables.now, clock, offset, Offset.utc]
    have alike := DateToken.shifted?_readAlike now moment moment'
    refine ⟨fun name => DateToken.get?_bundle_readAlike alike, fun t' read' zone => ?_⟩
    obtain rfl := Except.ok.inj (read.symm.trans read')
    exact DateToken.write_readAlike alike zone
  · intro t read months offset x v' expanded
    obtain ⟨t', m, read', moment⟩ := exists_of_expandDate_eq_ok expanded
    obtain rfl := Except.ok.inj (read.symm.trans read')
    obtain ⟨rfl, -⟩ := (expandDate_eq_ok_iff read moment).1 expanded
    have elsewhere : t.shifted? ({ v with offset } : Variables).now = some { m with offset } := by
      calc t.shifted? ({ v with offset } : Variables).now
          = (t.shifted? v.now).map ({ · with offset }) := DateToken.shifted?_offset months v.now offset
        _ = some { m with offset } := by rw [moment, Option.map_some]
    refine ⟨_, _, expandDate_of_shifted read elsewhere, ?_⟩
    rw [DateToken.get?_bundle_timestamp, DateToken.get?_bundle_timestamp]

/-- Half an hour before midnight of 31 January it is February two hours further east, and a month
leads to 1 March. -/
theorem offset_moves_local_reading_midnight :
    let v : Variables := { clock := ⟨1391211000, 0⟩, offset := ⟨7230, by decide⟩ }
    let w : Variables := { clock := ⟨1391218230, 0⟩ }
    (∃ x v' y w', v.expandDate "%date+1months%" = (.ok x, v') ∧
      w.expandDate "%date+1months%" = (.ok y, w') ∧
      y.value = x.value ∧ y.bundle.get? "$mediumdatetime" = x.bundle.get? "$mediumdatetime" ∧
      x.bundle.get? "$mediumdatetime" = some "Mar 1, 2014 1:30:30 AM") ∧
    ∃ x v' y u', v.expandDate "%date+1days%" = (.ok x, v') ∧
      ({ v with offset := ⟨-5400, by decide⟩ } : Variables).expandDate "%date+1days%" = (.ok y, u') ∧
      y.bundle.get? "$timestamp" = x.bundle.get? "$timestamp" := by
  intro v w
  obtain ⟨alike, -⟩ := offset_moves_local_reading v w (by decide) rfl "%date+1months%"
  obtain ⟨-, stays⟩ := offset_moves_local_reading v w (by decide) rfl "%date+1days%"
  have months : DateToken.parse "%date+1months%" = .ok ⟨some ⟨1, .months⟩, .date, .short⟩ := by rfl
  have days : DateToken.parse "%date+1days%" = .ok ⟨some ⟨1, .days⟩, .date, .short⟩ := by rfl
  have here := expandDate_of_shifted (v := v) (m := ⟨⟨1393630200, 0⟩, ⟨7230, by decide⟩⟩) months
    (by decide +kernel)
  have there := expandDate_of_shifted (v := w) (m := ⟨⟨1393637430, 0⟩, .utc⟩) months (by decide +kernel)
  have later := expandDate_of_shifted (v := v) (m := ⟨⟨1391297400, 0⟩, ⟨7230, by decide⟩⟩) days
    (by decide +kernel)
  obtain ⟨y, u', moved, stamp⟩ := stays _ days rfl ⟨-5400, by decide⟩ _ _ later
  obtain ⟨entries, value⟩ := alike _ _ _ _ here there
  refine ⟨⟨_, _, _, _, here, there, value _ months rfl, entries _ (by decide), by decide +kernel⟩,
    _, _, y, u', later, moved, stamp⟩

end Variables

end Runbook
