import Runbook.Calendar.Offset
import Runbook.Proofs.DateToken.Grammar

set_option autoImplicit false

/-!
The grammar of offsets. An offset is a name of UTC, or it is a sign, the digits of at most 23 hours
and perhaps, after a colon, those of at most 59 minutes; zeros may stand in front of both. It may as
well be read from the first byte and in words of 32 bits: no text is then cut inside of a character,
and neither a word nor the bound of a day is ever too small.
-/
namespace Runbook

namespace Text

/-- One or more digits, perhaps with zeros in front, of a number up to a bound. -/
structure DecimalUpTo (bound : Nat) (s : String) : Prop where
  nonempty : s ≠ ""
  digits : ∀ c ∈ s.toList, isDigit c = true
  le : digitsValue s.toList ≤ bound

private theorem natural?_eq_some_iff {cs : List Char} {n : Nat} :
    natural? cs = some n ↔ (cs ≠ [] ∧ ∀ c ∈ cs, isDigit c = true) ∧ digitsValue cs = n := by
  rw [natural?, Option.ite_none_right_eq_some, List.all_eq_true, Option.some.injEq]

private theorem DecimalUpTo.natural?_eq {bound : Nat} {s : String} (h : DecimalUpTo bound s) :
    natural? s.toList = some (digitsValue s.toList) :=
  natural?_eq_some_iff.2 ⟨⟨String.toList_eq_nil_iff.not.2 h.nonempty, h.digits⟩, rfl⟩

private theorem decimalUpTo_of_natural? {bound n : Nat} {cs : List Char} (h : natural? cs = some n)
    (le : n ≤ bound) : DecimalUpTo bound (String.ofList cs) := by
  obtain ⟨⟨nonempty, digits⟩, rfl⟩ := natural?_eq_some_iff.1 h
  refine ⟨?_, ?_, ?_⟩
  · rwa [ne_eq, ← String.toList_eq_nil_iff, String.toList_ofList]
  · rwa [String.toList_ofList]
  · rwa [String.toList_ofList]

private theorem digitsValue_replicate_append (zeros : Nat) (cs : List Char) :
    digitsValue (List.replicate zeros '0' ++ cs) = digitsValue cs := by
  induction zeros with
  | zero => rfl
  | succ zeros ih => exact ih

private theorem decimalUpTo_padded (width : Nat) {n bound : Nat} (h : n ≤ bound) :
    DecimalUpTo bound (padded width n) where
  nonempty := by
    rw [padded, ne_eq, ← String.toList_eq_nil_iff, String.toList_ofList]
    exact fun none => digits_ne_nil n (List.append_eq_nil_iff.1 none).2
  digits := by
    intro c member
    rw [padded, String.toList_ofList, List.mem_append] at member
    rcases member with zero | digit
    · rw [List.eq_of_mem_replicate zero]
      rfl
    · exact List.all_eq_true.1 (all_isDigit_digits n) c digit
  le := by
    rw [padded, String.toList_ofList, digitsValue_replicate_append, digitsValue_digits]
    exact h

private theorem digitsValue_padded (width n : Nat) : digitsValue (padded width n).toList = n := by
  rw [padded, String.toList_ofList, digitsValue_replicate_append, digitsValue_digits]

end Text

namespace Calendar.Offset

open Text
open DateToken (signText signed CutAt cutAt_append)

def utcNames : List String := ["", "z", "utc"]

/-- An offset as it is written: a sign, the digits of the hours, and perhaps a colon and the digits
of the minutes. -/
structure Written where
  negative : Bool
  hours : String
  minutes : Option String
  hours_decimal : DecimalUpTo 23 hours
  minutes_decimal : ∀ m ∈ minutes, DecimalUpTo 59 m

namespace Written

variable (w : Written)

def clock : String :=
  w.hours ++ (w.minutes.map fun m => ":" ++ m).getD ""

def text : String :=
  signText w.negative ++ w.clock

def hour : Nat :=
  digitsValue w.hours.toList

def minute : Nat :=
  digitsValue (w.minutes.getD "0").toList

private theorem decimal_minutes : DecimalUpTo 59 (w.minutes.getD "0") := by
  cases minutes : w.minutes with
  | none => exact ⟨by decide, List.all_eq_true.1 (by decide), by decide⟩
  | some m => exact w.minutes_decimal m minutes

private theorem hour_le : w.hour ≤ 23 := w.hours_decimal.le

private theorem minute_le : w.minute ≤ 59 := w.decimal_minutes.le

private theorem natAbs_seconds_lt :
    (signed w.negative (3600 * w.hour + 60 * w.minute)).natAbs < 86400 := by
  have hour := w.hour_le
  have minute := w.minute_le
  rw [signed]
  split <;> omega

def offset : Offset :=
  ⟨signed w.negative (3600 * w.hour + 60 * w.minute), w.natAbs_seconds_lt⟩

end Written

private theorem ofClock?_eq_some_iff {negative : Bool} {hours minutes : Nat} {o : Offset} :
    ofClock? negative hours minutes = some o ↔
      (hours ≤ 23 ∧ minutes ≤ 59) ∧ o.seconds = signed negative (3600 * hours + 60 * minutes) := by
  have total : (3600 * hours + 60 * minutes : Nat) = (3600 * hours + 60 * minutes : Int) := by omega
  rw [ofClock?, Option.dite_none_right_eq_some]
  simp only [signed, total]
  constructor
  · rintro ⟨range, same⟩
    obtain rfl := Option.some.inj same
    exact ⟨range, rfl⟩
  · rintro ⟨range, same⟩
    obtain ⟨seconds, bound⟩ := o
    obtain rfl : seconds = _ := same
    exact ⟨range, rfl⟩

private theorem Written.cut_clock (w : Written) :
    (cut ':' w.clock.toList).getD (w.clock.toList, ['0']) =
      (w.hours.toList, (w.minutes.getD "0").toList) := by
  have plain : ':' ∉ w.hours.toList := fun colon =>
    absurd (w.hours_decimal.digits ':' colon) (by decide)
  rw [clock]
  cases w.minutes with
  | none =>
    rw [Option.map_none, Option.getD_none, String.append_empty, cut_eq_none_iff.2 plain]
    rfl
  | some m =>
    have split : (w.hours ++ (":" ++ m)).toList = w.hours.toList ++ ':' :: m.toList := by
      simp
    rw [Option.map_some, Option.getD_some, cut_eq_some_iff.2 ⟨plain, split⟩]
    rfl

private theorem Written.ofClock?_eq (w : Written) :
    ofClock? w.negative w.hour w.minute = some w.offset :=
  ofClock?_eq_some_iff.2 ⟨⟨w.hour_le, w.minute_le⟩, rfl⟩

private theorem Written.whole (w : Written) : 60 ∣ w.offset.seconds := by
  change 60 ∣ signed w.negative (3600 * w.hour + 60 * w.minute)
  rw [signed]
  split <;> omega

private theorem Written.unsigned?_clock (w : Written) :
    unsigned? w.negative w.clock.toList = some w.offset := by
  rw [unsigned?, w.cut_clock]
  simp only [w.hours_decimal.natural?_eq, w.decimal_minutes.natural?_eq, Option.bind_eq_bind,
    Option.bind_some]
  exact w.ofClock?_eq

private theorem exists_written {negative : Bool} {h : String} {m : Option String}
    {hours minutes : Nat}
    {o : Offset} (hour : natural? h.toList = some hours)
    (minute : natural? (m.getD "0").toList = some minutes)
    (given : ofClock? negative hours minutes = some o) :
    ∃ w : Written, w.negative = negative ∧ w.hours = h ∧ w.minutes = m ∧ o = w.offset := by
  obtain ⟨⟨hour_le, minute_le⟩, -⟩ := ofClock?_eq_some_iff.1 given
  have decimal := decimalUpTo_of_natural? hour hour_le
  have decimal' := decimalUpTo_of_natural? minute minute_le
  rw [String.ofList_toList] at decimal decimal'
  obtain ⟨-, rfl⟩ := natural?_eq_some_iff.1 hour
  obtain ⟨-, rfl⟩ := natural?_eq_some_iff.1 minute
  let w : Written := ⟨negative, h, m, decimal, by
    rintro m' written
    obtain rfl := Option.mem_def.1 written
    exact decimal'⟩
  exact ⟨w, rfl, rfl, rfl, Option.some.inj (given.symm.trans w.ofClock?_eq)⟩

private theorem unsigned?_eq_some_iff {negative : Bool} {rest : String} {o : Offset} :
    unsigned? negative rest.toList = some o ↔
      ∃ w : Written, w.negative = negative ∧ w.clock = rest ∧ o = w.offset := by
  constructor
  · intro read
    rcases cut_cases ':' rest with plain | ⟨h, m, plain, split⟩
    · rw [unsigned?, cut_eq_none_iff.2 plain] at read
      simp only [Option.getD_none, Option.bind_eq_bind, Option.bind_eq_some_iff] at read
      obtain ⟨hours, hour, minutes, minute, given⟩ := read
      obtain ⟨w, same, rfl, absent, own⟩ := exists_written (m := none) hour minute given
      refine ⟨w, same, ?_, own⟩
      rw [Written.clock, absent]
      exact String.append_empty
    · rw [unsigned?, cut_eq_some_iff.2 ⟨plain, split⟩] at read
      simp only [Option.getD_some, Option.bind_eq_bind, Option.bind_eq_some_iff] at read
      obtain ⟨hours, hour, minutes, minute, given⟩ := read
      obtain ⟨w, same, rfl, present, own⟩ := exists_written (m := some m) hour minute given
      refine ⟨w, same, ?_, own⟩
      rw [Written.clock, present, ← String.toList_inj, split]
      simp
  · rintro ⟨w, rfl, rfl, rfl⟩
    exact w.unsigned?_clock

section Texts

variable {s : String}

private theorem named_iff (s : String) : trim s.toList = [] ∨ lower (trim s.toList) = ['z'] ∨
    lower (trim s.toList) = ['u', 't', 'c'] ↔ lowered (trimmed s) ∈ utcNames := by
  have empty : trim s.toList = [] ↔ lower (trim s.toList) = [] := by
    rw [lower, List.map_eq_nil_iff]
  simp only [utcNames, List.mem_cons, List.not_mem_nil, or_false, ← String.toList_inj,
    toList_lowered, toList_trimmed, empty]
  rfl

private theorem parse?_of_named (h : lowered (trimmed s) ∈ utcNames) : parse? s = some .utc := by
  unfold parse? ofChars?
  rw [if_pos ((named_iff s).2 h)]

private theorem not_named_of_sign {negative : Bool} {rest : String}
    (h : trimmed s = signText negative ++ rest) : lowered (trimmed s) ∉ utcNames := by
  have head : (lowered (trimmed s)).toList.head? = some (if negative then '-' else '+') := by
    rw [toList_lowered, h]
    cases negative <;> simp [signText, lower]
  have names : ∀ name ∈ utcNames, name.toList.head? ≠ some '-' ∧ name.toList.head? ≠ some '+' := by
    decide
  intro named
  obtain ⟨minus, plus⟩ := names _ named
  rw [head] at minus plus
  cases negative with
  | true => exact minus rfl
  | false => exact plus rfl

private theorem parse?_of_sign {negative : Bool} {rest : String}
    (h : trimmed s = signText negative ++ rest) :
    parse? s = unsigned? negative rest.toList := by
  have other := (named_iff s).not.2 (not_named_of_sign h)
  have chars : trim s.toList = (if negative then '-' else '+') :: rest.toList := by
    rw [← toList_trimmed, h]
    cases negative <;> simp [signText]
  unfold parse? ofChars?
  rw [if_neg other, chars]
  cases negative <;> rfl

private theorem parse?_of_unsigned (other : lowered (trimmed s) ∉ utcNames)
    (h : ∀ c ∈ (trimmed s).toList.head?, c ≠ '+' ∧ c ≠ '-') : parse? s = none := by
  rw [toList_trimmed] at h
  unfold parse? ofChars?
  rw [if_neg ((named_iff s).not.2 other)]
  split
  · next same => exact absurd rfl (h '+' (by rw [same]; rfl)).1
  · next same => exact absurd rfl (h '-' (by rw [same]; rfl)).2
  · rfl

private theorem text_cases (s : String) :
    lowered (trimmed s) ∈ utcNames ∨ (∃ negative rest, trimmed s = signText negative ++ rest) ∨
      lowered (trimmed s) ∉ utcNames ∧ ∀ c ∈ (trimmed s).toList.head?, c ≠ '+' ∧ c ≠ '-' := by
  by_cases named : lowered (trimmed s) ∈ utcNames
  · exact .inl named
  · rcases DateToken.signed_or_unsigned (trimmed s) with ⟨negative, amount, rest, signed⟩ | unsigned
    · obtain ⟨blanks, -, same⟩ := signed.split
      simp only [String.append_assoc] at same
      exact .inr (.inl ⟨negative, _, same⟩)
    · exact .inr (.inr ⟨named, unsigned⟩)

private theorem parse?_eq_some_iff {o : Offset} :
    parse? s = some o ↔ lowered (trimmed s) ∈ utcNames ∧ o = .utc ∨
      ∃ w : Written, trimmed s = w.text ∧ o = w.offset := by
  constructor
  · intro read
    rcases text_cases s with named | ⟨negative, rest, split⟩ | ⟨other, unsigned⟩
    · rw [parse?_of_named named] at read
      exact .inl ⟨named, (Option.some.inj read).symm⟩
    · rw [parse?_of_sign split, unsigned?_eq_some_iff] at read
      obtain ⟨w, rfl, rfl, rfl⟩ := read
      exact .inr ⟨w, split, rfl⟩
    · rw [parse?_of_unsigned other unsigned] at read
      cases read
  · rintro (⟨named, rfl⟩ | ⟨w, same, rfl⟩)
    · exact parse?_of_named named
    · rw [parse?_of_sign same, w.unsigned?_clock]

end Texts

private theorem whole_of_parse? {s : String} {o : Offset} (h : parse? s = some o) :
    60 ∣ o.seconds := by
  rcases parse?_eq_some_iff.1 h with ⟨-, rfl⟩ | ⟨w, -, rfl⟩
  · exact ⟨0, rfl⟩
  · exact w.whole

def written (o : Offset) : Written where
  negative := o.seconds < 0
  hours := padded 2 (o.seconds.natAbs / 3600)
  minutes := some (padded 2 (o.seconds.natAbs / 60 % 60))
  hours_decimal := decimalUpTo_padded 2 (by have := o.less_than_day; omega)
  minutes_decimal := by
    rintro m same
    obtain rfl := Option.some.inj same
    exact decimalUpTo_padded 2 (by omega)

section Whole

variable {o : Offset} (whole : 60 ∣ o.seconds)
include whole

private theorem text_written : o.written.text = o.text := by
  have rounded : (o.seconds.natAbs + 30) / 60 = o.seconds.natAbs / 60 := by omega
  simp only [Written.text, Written.clock, written, signText, text, rounded, Nat.div_div_eq_div_mul,
    decide_eq_true_iff, Option.map_some, Option.getD_some, String.append_assoc]

private theorem offset_written : o.written.offset = o := by
  have total : signed o.written.negative (3600 * o.written.hour + 60 * o.written.minute) =
      o.seconds := by
    simp only [signed, written, Written.hour, Written.minute, Option.getD_some, digitsValue_padded,
      decide_eq_true_iff]
    split <;> omega
  have own := o.written.ofClock?_eq
  rw [ofClock?_eq_some_iff.2 ⟨⟨o.written.hour_le, o.written.minute_le⟩, total.symm⟩] at own
  exact (Option.some.inj own).symm

end Whole

private theorem Written.not_blank (w : Written) : ∀ c ∈ w.text.toList, isBlank c = false := by
  have own {bound : Nat} {s : String} (h : DecimalUpTo bound s) : ∀ c ∈ s.toList, isBlank c = false :=
    fun c member => isBlank_of_isDigit (h.digits c member)
  have sign : ∀ c ∈ (signText w.negative).toList, isBlank c = false := by
    cases w.negative <;> simp [signText] <;> decide
  have minutes : ∀ c ∈ ((w.minutes.map fun m => ":" ++ m).getD "").toList, isBlank c = false := by
    cases same : w.minutes with
    | none => simp
    | some m =>
      intro c member
      rw [Option.map_some, Option.getD_some, String.toList_append, List.mem_append] at member
      rcases member with colon | digit
      · rw [List.mem_singleton.1 colon]
        decide
      · exact own (w.minutes_decimal m same) c digit
  rw [text, clock]
  simp only [String.toList_append, List.mem_append]
  rintro c (h | h | h)
  · exact sign c h
  · exact own w.hours_decimal c h
  · exact minutes c h

private theorem parse?_text {o : Offset} (whole : 60 ∣ o.seconds) : parse? o.text = some o := by
  have solid : trim o.text.toList = o.text.toList := by
    rw [← text_written whole]
    exact trim_eq_self (fun c head => o.written.not_blank c (List.mem_of_head? head))
      fun c last => o.written.not_blank c (List.mem_of_getLast? last)
  have own : trimmed o.text = o.written.text := by
    rw [text_written whole, ← String.toList_inj, toList_trimmed, solid]
  exact parse?_eq_some_iff.2 (.inr ⟨o.written, own, (offset_written whole).symm⟩)

section Machine

/-- How the reading of an offset could end without one. -/
inductive Stop
  | refused | insideCharacter | overflow | beyondDay
  deriving DecidableEq, Repr

/-- A result of arithmetic in words of 32 bits. -/
def word (n : Int) : Except Stop Int :=
  if -wordCount 31 ≤ n ∧ n < wordCount 31 then .ok n else .error .overflow

def wordOf (digits : List Char) : Except Stop Int :=
  match natural? digits with
  | some n => if n < wordCount 31 then .ok n else .error .refused
  | none => .error .refused

/-- The seconds of hours and minutes in one direction, if they are less than a day. -/
def secondsIn (negative : Bool) (hours minutes : Int) : Except Stop Int := do
  let hourSeconds ← word (hours * 3600)
  let minuteSeconds ← word (minutes * 60)
  let total ← word (hourSeconds + minuteSeconds)
  let seconds ← word ((if negative then -1 else 1) * total)
  if -secondsPerDay < seconds ∧ seconds < secondsPerDay then .ok seconds else .error .beyondDay

def secondsAfter (negative : Bool) (cs : List Char) : Except Stop Int := do
  let (h, m) := (cut ':' cs).getD (cs, ['0'])
  let hours ← wordOf h
  let minutes ← wordOf m
  if hours ≤ 23 ∧ minutes ≤ 59 then secondsIn negative hours minutes else .error .refused

def afterByte (s : String) : Except Stop (List Char) :=
  if CutAt s 1 then .ok (s.toList.drop 1) else .error .insideCharacter

/-- The seconds of an offset, by the first byte of its text. -/
def secondsOf (s : String) : Except Stop Int :=
  if lowered (trimmed s) ∈ utcNames then .ok 0
  else
    match (trimmed s).toUTF8.toList.head? with
    | some 43 => afterByte (trimmed s) >>= secondsAfter false
    | some 45 => afterByte (trimmed s) >>= secondsAfter true
    | _ => .error .refused

def secondsRead (o : Option Offset) : Except Stop Int :=
  match o with
  | some o => .ok o.seconds
  | none => .error .refused

variable {s : String}

private theorem wordOf_cases (digits : List Char) :
    (∃ n : Nat, natural? digits = some n ∧ wordOf digits = .ok n) ∨
      wordOf digits = .error .refused ∧ ∀ n, natural? digits = some n → wordCount 31 ≤ n := by
  rw [wordOf]
  cases natural? digits with
  | none => exact .inr ⟨rfl, by rintro n ⟨⟩⟩
  | some n =>
    by_cases fits : n < wordCount 31
    · exact .inl ⟨n, rfl, if_pos fits⟩
    · refine .inr ⟨if_neg fits, fun n' same => ?_⟩
      obtain rfl := Option.some.inj same
      exact Nat.le_of_not_lt fits

private theorem word_of_small {n : Int} (h : n.natAbs ≤ 86400) : word n = .ok n := by
  have words : wordCount 31 = 2147483648 := rfl
  exact if_pos (by omega)

private theorem secondsIn_eq (negative : Bool) {hours minutes : Nat}
    (h : hours ≤ 23 ∧ minutes ≤ 59) :
    secondsIn negative hours minutes = .ok (signed negative (3600 * hours + 60 * minutes)) := by
  obtain ⟨hour, minute⟩ := h
  have sign : (if negative then -1 else 1) * ((3600 * hours + 60 * minutes : Nat) : Int) =
      signed negative (3600 * hours + 60 * minutes) := by
    cases negative <;> simp [signed]
  have total : (hours * 3600 + minutes * 60 : Int) = (3600 * hours + 60 * minutes : Nat) := by omega
  have within : (signed negative (3600 * hours + 60 * minutes)).natAbs < 86400 := by
    rw [signed]
    split <;> omega
  generalize signed negative (3600 * hours + 60 * minutes) = seconds at within sign ⊢
  have goes_on (n : Int) (f : Int → Except Stop Int) : (.ok n : Except Stop Int) >>= f = f n := rfl
  rw [secondsIn, word_of_small (by omega), word_of_small (by omega), goes_on, goes_on, total,
    word_of_small (by omega), goes_on, sign, word_of_small (by omega), goes_on, secondsPerDay,
    if_pos (by omega)]

private theorem unsigned?_eq_none {negative : Bool} {h m : List Char}
    (beyond : ∀ hours minutes, natural? h = some hours → natural? m = some minutes →
      ¬ (hours ≤ 23 ∧ minutes ≤ 59)) :
    (natural? h).bind (fun hours => (natural? m).bind fun minutes => ofClock? negative hours minutes) =
      none := by
  rw [Option.eq_none_iff_forall_ne_some]
  intro o given
  obtain ⟨hours, hour, given⟩ := Option.bind_eq_some_iff.1 given
  obtain ⟨minutes, minute, given⟩ := Option.bind_eq_some_iff.1 given
  exact beyond hours minutes hour minute (ofClock?_eq_some_iff.1 given).1

private theorem secondsAfter_eq (negative : Bool) (cs : List Char) :
    secondsAfter negative cs = secondsRead (unsigned? negative cs) := by
  have words : wordCount 31 = 2147483648 := rfl
  simp only [secondsAfter, unsigned?, Option.bind_eq_bind]
  generalize (cut ':' cs).getD (cs, ['0']) = parts
  obtain ⟨h, m⟩ := parts
  dsimp only
  -- A number that does not fit a word is no number of hours or minutes either.
  rcases wordOf_cases h with ⟨hours, hour, hourWord⟩ | ⟨refused, large⟩
  · rcases wordOf_cases m with ⟨minutes, minute, minuteWord⟩ | ⟨refused, large⟩
    · rw [hourWord, minuteWord]
      change (if (hours : Int) ≤ 23 ∧ (minutes : Int) ≤ 59 then _ else _) = _
      by_cases range : hours ≤ 23 ∧ minutes ≤ 59
      · obtain ⟨o, given⟩ : ∃ o, ofClock? negative hours minutes = some o := ⟨_, dif_pos range⟩
        rw [if_pos (by omega), secondsIn_eq negative range, ← (ofClock?_eq_some_iff.1 given).2, hour,
          minute, Option.bind_some, Option.bind_some, given]
        rfl
      · rw [if_neg (by omega), unsigned?_eq_none]
        · rfl
        · intro hours' minutes' hour' minute'
          obtain rfl := Option.some.inj (hour.symm.trans hour')
          obtain rfl := Option.some.inj (minute.symm.trans minute')
          exact range
    · rw [hourWord, refused, unsigned?_eq_none]
      · rfl
      · intro hours' minutes' _ minute'
        have := large minutes' minute'
        omega
  · rw [refused, unsigned?_eq_none]
    · rfl
    · intro hours' minutes' hour' _
      have := large hours' hour'
      omega

private theorem head?_toUTF8_of_sign (negative : Bool) (rest : String) :
    (signText negative ++ rest).toUTF8.toList.head? = some (if negative then 45 else 43) := by
  rw [toList_toUTF8]
  cases negative with
  | true =>
    have byte : String.utf8EncodeChar '-' = [45] := by decide
    simp [signText, byte]
  | false =>
    have byte : String.utf8EncodeChar '+' = [43] := by decide
    simp [signText, byte]

private theorem afterByte_of_sign (negative : Bool) (rest : String) :
    afterByte (signText negative ++ rest) = .ok rest.toList := by
  have one : (signText negative).utf8ByteSize = 1 := by
    cases negative <;> rfl
  have cut := cutAt_append (signText negative) rest
  rw [one] at cut
  rw [afterByte, if_pos cut]
  cases negative <;> simp [signText]

private theorem secondsOf_eq (s : String) : secondsOf s = secondsRead (parse? s) := by
  rcases text_cases s with named | ⟨negative, rest, split⟩ | ⟨other, unsigned⟩
  · rw [secondsOf, if_pos named, parse?_of_named named]
    rfl
  · rw [secondsOf, if_neg (not_named_of_sign split), parse?_of_sign split, split,
      head?_toUTF8_of_sign, afterByte_of_sign]
    cases negative with
    | true => exact secondsAfter_eq true rest.toList
    | false => exact secondsAfter_eq false rest.toList
  · rw [secondsOf, if_neg other, parse?_of_unsigned other unsigned]
    cases chars : (trimmed s).toList with
    | nil =>
      have nothing : trimmed s = "" := String.toList_eq_nil_iff.1 chars
      rw [nothing] at other
      exact absurd (by decide) other
    | cons c cs =>
      obtain ⟨b, head, narrow⟩ := head?_utf8EncodeChar c
      obtain ⟨plus, minus⟩ := unsigned c (by rw [chars]; rfl)
      have first : (trimmed s).toUTF8.toList.head? = some b := by
        rw [toList_toUTF8, chars, List.flatMap_cons, List.head?_append, head]
        rfl
      rw [first]
      split
      · next same =>
        obtain rfl := Option.some.inj same
        exact absurd (Char.toNat_inj.1 (narrow (by decide)).symm) plus
      · next same =>
        obtain rfl := Option.some.inj same
        exact absurd (Char.toNat_inj.1 (narrow (by decide)).symm) minus
      · rfl

end Machine

/-- Offsets are read exactly by their grammar, and by bytes and in words of 32 bits as by it. -/
theorem offsets_read_by_grammar (s : String) :
    (∀ o, parse? s = some o ↔ lowered (trimmed s) ∈ ["", "z", "utc"] ∧ o = .utc ∨
      ∃ w : Written, trimmed s = w.text ∧ o = w.offset) ∧
    (∀ w : Written, w.offset.seconds = signed w.negative (3600 * w.hour + 60 * w.minute)) ∧
    (∀ o, parse? s = some o → o.seconds.natAbs < 86400 ∧ parse? o.text = some o) ∧
    secondsOf s = secondsRead (parse? s) := by
  exact ⟨fun o => parse?_eq_some_iff, fun w => rfl,
    fun o read => ⟨o.less_than_day, parse?_text (whole_of_parse? read)⟩, secondsOf_eq s⟩

/-- An offset with blanks around it and zeros in front, and texts that come close to one. -/
theorem offsets_read_by_grammar_half_hour :
    let o : Offset := ⟨-19800, by decide⟩
    parse? " -005:30 " = some o ∧ o.seconds = -19800 ∧ parse? "-05:30" = some o ∧
      secondsOf " -005:30 " = .ok (-19800) ∧
      ∀ s ∈ ["+-5:00", "+5:", "+:30", "+05:30:00", "+24", "+00:60", "0500", "+4294967301"],
        secondsOf s = .error .refused := by
  intro o
  have given : parse? " -005:30 " = some o := by decide +kernel
  have refused : ∀ s ∈ ["+-5:00", "+5:", "+:30", "+05:30:00", "+24", "+00:60", "0500", "+4294967301"],
      parse? s = none := by
    decide +kernel
  obtain ⟨-, -, back, seconds⟩ := offsets_read_by_grammar " -005:30 "
  have text : o.text = "-05:30" := by decide +kernel
  refine ⟨given, by decide, ?_, ?_, fun s member => ?_⟩
  · rw [← text]
    exact (back o given).2
  · rw [seconds, given]
    rfl
  · rw [(offsets_read_by_grammar s).2.2.2, refused s member]
    rfl

end Calendar.Offset

end Runbook
