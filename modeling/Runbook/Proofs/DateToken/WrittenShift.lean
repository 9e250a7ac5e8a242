import Mathlib.Data.List.Basic
import Runbook.Proofs.DateToken.Names
import Runbook.Proofs.Text.Cut

set_option autoImplicit false

/-!
Shifts as they are written: a sign, an amount in digits and the name of a unit. A field is blank, or
it is a shift, or one thing is wrong with it, the first that is met from left to right.
-/
namespace Runbook.DateToken

open Text

def signText (negative : Bool) : String :=
  if negative then "-" else "+"

def signed (negative : Bool) (n : Nat) : Int :=
  if negative then -n else n

/-- A shift as it is written: a sign, an amount in digits and the name of a unit, perhaps with
blanks between them. -/
structure WrittenShift where
  negative : Bool
  blanks : String
  amount : String
  gap : String
  unit : String
  span : Span
  blanks_blank : isBlankText blanks = true
  gap_blank : isBlankText gap = true
  nonempty : amount ≠ ""
  digits : ∀ c ∈ amount.toList, isDigit c = true
  bounded : digitsValue amount.toList ≤ maxAmount
  named : lowered unit ∈ span.names

namespace WrittenShift

def text (w : WrittenShift) : String :=
  signText w.negative ++ w.blanks ++ w.amount ++ w.gap ++ w.unit

def shift (w : WrittenShift) : Shift :=
  ⟨signed w.negative (digitsValue w.amount.toList), w.span⟩

end WrittenShift

/-- A field is blank, or a written shift between blanks. -/
inductive ReadsShift (field : String) : Option Shift → Prop
  | blank : isBlankText field = true → ReadsShift field none
  | written (w : WrittenShift) : trimmed field = w.text → ReadsShift field (some w.shift)

/-- A text is a sign, perhaps blanks, all the digits that come next, and a rest. -/
structure Signed (text : String) (negative : Bool) (amount rest : String) : Prop where
  split : ∃ blanks, isBlankText blanks = true ∧ text = signText negative ++ blanks ++ amount ++ rest
  digits : ∀ c ∈ amount.toList, isDigit c = true
  ends : ∀ c ∈ rest.toList.head?, isDigit c = false ∧ (amount = "" → isBlank c = false)

/-- What is wrong with a field that is neither blank nor a shift, and what is said of it. -/
inductive ShiftFault (token field : String) : Error → Prop
  | unsigned : isBlankText field = false →
      (∀ c ∈ (trimmed field).toList.head?, c ≠ '+' ∧ c ≠ '-') →
      ShiftFault token field (.invalidShift token (trimmed field) "must start with '+' or '-'")
  | noAmount {negative : Bool} {rest : String} : Signed (trimmed field) negative "" rest →
      ShiftFault token field (.invalidShift token (trimmed field) "missing amount")
  | tooLarge {negative : Bool} {amount rest : String} : Signed (trimmed field) negative amount rest →
      maxAmount < digitsValue amount.toList →
      ShiftFault token field (.invalidShift token (trimmed field) "amount is too large")
  | noUnit {negative : Bool} {amount rest : String} : Signed (trimmed field) negative amount rest →
      amount ≠ "" → digitsValue amount.toList ≤ maxAmount → isBlankText rest = true →
      ShiftFault token field (.invalidShift token (trimmed field) "missing unit")
  | unknownUnit {negative : Bool} {amount rest : String} :
      Signed (trimmed field) negative amount rest → amount ≠ "" →
      digitsValue amount.toList ≤ maxAmount → Span.naming.Unknown rest →
      ShiftFault token field (.unknownUnit token (trimmed rest))

def readShift (token field : String) : Except Error (Option Shift) :=
  if trim field.toList = [] then pure none else some <$> Shift.ofChars token (trim field.toList)

section Shifts

variable {token field text amount rest : String} {negative : Bool}

private theorem ofChars?_eq_find? (unit : String) :
    Span.ofChars? unit.toList = Span.naming.find? (lowered unit) := by
  have test (u : Span) : decide (lowered unit = u.name ∨ lowered unit = u.singular) =
      u.names.contains (lowered unit) := by
    simp [Span.names]
  exact congrArg (fun p => Span.all.find? p) (funext test)

private theorem Signed.toList_eq (h : Signed text negative amount rest) :
    ∃ blanks, allBlank blanks = true ∧
      text.toList = (if negative then '-' else '+') :: (blanks ++ (amount.toList ++ rest.toList)) := by
  obtain ⟨blanks, blank, rfl⟩ := h.split
  refine ⟨blanks.toList, blank, ?_⟩
  cases negative with
  | true => simp [signText]
  | false => simp [signText]

private theorem Signed.solid (h : Signed text negative amount rest) :
    ∀ c ∈ (amount.toList ++ rest.toList).head?, isBlank c = false := by
  intro c head
  cases digits : amount.toList with
  | nil =>
    rw [digits] at head
    exact (h.ends c head).2 (String.toList_eq_nil_iff.1 digits)
  | cons d ds =>
    rw [digits] at head
    obtain rfl := Option.some.inj head
    exact isBlank_of_isDigit (h.digits d (by rw [digits]; exact List.mem_cons_self))

private theorem ofChars_of_signed (h : Signed text negative amount rest) :
    Shift.ofChars token text.toList =
      if amount.toList = [] then .error (.invalidShift token text "missing amount")
      else if digitsValue amount.toList > maxAmount then
        .error (.invalidShift token text "amount is too large")
      else if trim rest.toList = [] then .error (.invalidShift token text "missing unit")
      else
        match Span.naming.find? (lowered (trimmed rest)) with
        | none => .error (.unknownUnit token (trimmed rest))
        | some span => .ok ⟨signed negative (digitsValue amount.toList), span⟩ := by
  obtain ⟨blanks, blank, same⟩ := h.toList_eq
  have start : trimStart (blanks ++ (amount.toList ++ rest.toList)) = amount.toList ++ rest.toList :=
    dropWhile_append_of_ends ((allBlank_iff blanks).1 blank) h.solid
  have taken := takeWhile_append_of_ends h.digits fun c head => (h.ends c head).1
  have left := dropWhile_append_of_ends h.digits fun c head => (h.ends c head).1
  have whole : Shift.ofChars token text.toList = Shift.afterSign token text.toList negative
      (blanks ++ (amount.toList ++ rest.toList)) := by
    rw [same]
    cases negative with
    | true => rfl
    | false => rfl
  rw [whole, Shift.afterSign, start, taken, left, String.ofList_toList, ← toList_trimmed,
    ofChars?_eq_find?, String.ofList_toList, toList_trimmed]
  cases Span.naming.find? (lowered (trimmed rest)) with
  | none => rfl
  | some span => rfl

private theorem signed_of_sign (negative : Bool) (tail : String) :
    ∃ amount rest, Signed (signText negative ++ tail) negative amount rest := by
  obtain ⟨blanks, left, blank, solid, rfl⟩ := exists_run isBlank tail
  obtain ⟨amount, rest, digits, stop, rfl⟩ := exists_run isDigit left
  refine ⟨amount, rest, ⟨blanks, (allBlank_iff _).2 blank, ?_⟩, digits, fun c head => ⟨stop c head, ?_⟩⟩
  · simp only [String.append_assoc]
  · rintro rfl
    rw [String.empty_append] at solid
    exact solid c head

theorem signed_or_unsigned (text : String) :
    (∃ negative amount rest, Signed text negative amount rest) ∨
      ∀ c ∈ text.toList.head?, c ≠ '+' ∧ c ≠ '-' := by
  cases chars : text.toList with
  | nil => exact .inr (by simp)
  | cons c cs =>
    have whole : text = String.singleton c ++ String.ofList cs := by
      simp [← String.toList_inj, chars]
    by_cases plus : c = '+'
    · rw [whole, plus]
      exact .inl ⟨false, signed_of_sign false _⟩
    · by_cases minus : c = '-'
      · rw [whole, minus]
        exact .inl ⟨true, signed_of_sign true _⟩
      · refine .inr fun c' head => ?_
        obtain rfl := Option.some.inj head
        exact ⟨plus, minus⟩

private theorem name_chars {u : Span} {unit : String} (h : lowered unit ∈ u.names) :
    unit ≠ "" ∧ ∀ c ∈ unit.toList, isBlank c = false ∧ isDigit c = false := by
  have names : ∀ u ∈ Span.all, ∀ name ∈ u.names,
      name.toList.all (fun c => !isBlank c && !isDigit c) = true := by
    decide +kernel
  constructor
  · rintro rfl
    exact Span.naming.nonempty u (Span.naming.complete u) h
  · intro c member
    have lower : c.toLower ∈ (lowered unit).toList := by
      rw [toList_lowered]
      exact List.mem_map_of_mem member
    have solid := List.all_eq_true.1 (names u (Span.naming.complete u) _ h) _ lower
    rw [isBlank_toLower, isDigit_toLower] at solid
    simpa using solid

private theorem WrittenShift.trimmed_rest (w : WrittenShift) :
    trimmed (w.gap ++ w.unit) = w.unit := by
  have chars := (name_chars w.named).2
  rw [← String.toList_inj, toList_trimmed, String.toList_append, trim_append_of_allBlank w.gap_blank]
  exact trim_eq_self (fun c head => (chars c (List.mem_of_head? head)).1)
    fun c last => (chars c (List.mem_of_getLast? last)).1

private theorem WrittenShift.signed (w : WrittenShift) :
    Signed w.text w.negative w.amount (w.gap ++ w.unit) where
  split := ⟨w.blanks, w.blanks_blank, String.append_assoc⟩
  digits := w.digits
  ends := by
    intro c head
    refine ⟨?_, fun none => absurd none w.nonempty⟩
    rw [String.toList_append] at head
    -- After the digits comes a blank of the gap or, where there is no gap, a letter of the unit.
    cases gap : w.gap.toList with
    | nil =>
      rw [gap, List.nil_append] at head
      exact ((name_chars w.named).2 c (List.mem_of_head? head)).2
    | cons d ds =>
      rw [gap] at head
      obtain rfl := Option.some.inj head
      have blank : isBlank d = true :=
        (allBlank_iff _).1 w.gap_blank d (by rw [gap]; exact List.mem_cons_self)
      rw [Bool.eq_false_iff]
      intro digit
      rw [isBlank_of_isDigit digit] at blank
      exact nomatch blank

private theorem Signed.trimmed_rest (h : Signed (trimmed field) negative amount rest) :
    trim rest.toList = trimStart rest.toList := by
  obtain ⟨blanks, -, same⟩ := h.toList_eq
  have ends := trimEndOf_eq_self_iff.1 (trimEndOf_trim field.toList)
  rw [← toList_trimmed, same] at ends
  refine trimEndOf_eq_self_iff.2 fun c last => ends c ?_
  have nonempty : trimStart rest.toList ≠ [] := by
    intro nothing
    rw [nothing] at last
    exact nomatch last
  have kept : rest.toList.takeWhile isBlank ++ trimStart rest.toList = rest.toList :=
    List.takeWhile_append_dropWhile
  rw [← kept, ← List.append_assoc, ← List.append_assoc, ← List.cons_append,
    List.getLast?_append_of_ne_nil _ nonempty]
  exact last

private theorem Signed.written (h : Signed (trimmed field) negative amount rest)
    (nonempty : amount ≠ "")
    (bounded : digitsValue amount.toList ≤ maxAmount) {u : Span}
    (named : lowered (trimmed rest) ∈ u.names) : ∃ w : WrittenShift, trimmed field = w.text := by
  obtain ⟨blanks, blank, same⟩ := h.split
  obtain ⟨gap, gapBlank, parts⟩ := exists_blanks rest
  have unit : trimmed rest = String.ofList (trimStart rest.toList) := by
    rw [trimmed, h.trimmed_rest]
  rw [← unit] at parts
  refine ⟨⟨negative, blanks, amount, gap, trimmed rest, u, blank, gapBlank, nonempty, h.digits, bounded,
    named⟩, ?_⟩
  rw [WrittenShift.text, String.append_assoc, ← parts]
  exact same

theorem readsShift_or_fault (token field : String) :
    (∃ s, ReadsShift field s) ∨ ∃ e, ShiftFault token field e := by
  cases blank : isBlankText field with
  | true => exact .inl ⟨none, .blank blank⟩
  | false =>
    rcases signed_or_unsigned (trimmed field) with ⟨negative, amount, rest, split⟩ | unsigned
    · by_cases none : amount = ""
      · rw [none] at split
        exact .inr ⟨_, .noAmount split⟩
      · rcases Nat.lt_or_ge maxAmount (digitsValue amount.toList) with large | bounded
        · exact .inr ⟨_, .tooLarge split large⟩
        · cases noUnit : isBlankText rest with
          | true => exact .inr ⟨_, .noUnit split none bounded noUnit⟩
          | false =>
            by_cases named : ∃ u : Span, lowered (trimmed rest) ∈ u.names
            · obtain ⟨u, named⟩ := named
              obtain ⟨w, same⟩ := split.written none bounded named
              exact .inl ⟨_, .written w same⟩
            · exact .inr ⟨_, .unknownUnit split none bounded ⟨noUnit, not_exists.1 named⟩⟩
    · exact .inr ⟨_, .unsigned blank unsigned⟩

private theorem readShift_of_signed (h : Signed (trimmed field) negative amount rest) :
    readShift token field = some <$> Shift.ofChars token (trimmed field).toList := by
  obtain ⟨blanks, -, same⟩ := h.toList_eq
  rw [toList_trimmed] at same
  rw [readShift, toList_trimmed, if_neg (by rw [same]; exact List.cons_ne_nil _ _)]

theorem readShift_of_reads {s : Option Shift} (h : ReadsShift field s) :
    readShift token field = .ok s := by
  rcases h with blank | ⟨w, same⟩
  · exact if_pos ((trim_eq_nil_iff _).2 blank)
  · have signed := w.signed
    rw [← same] at signed
    have unit : trim (w.gap ++ w.unit).toList = w.unit.toList := by
      rw [← toList_trimmed, w.trimmed_rest]
    rw [readShift_of_signed signed, ofChars_of_signed signed,
      if_neg (String.toList_eq_nil_iff.not.2 w.nonempty), if_neg (Nat.not_lt.2 w.bounded), unit,
      if_neg (String.toList_eq_nil_iff.not.2 (name_chars w.named).1), w.trimmed_rest,
      Span.naming.find?_of_named w.named]
    rfl

private theorem ofChars_of_unsigned (h : ∀ c ∈ (trimmed field).toList.head?, c ≠ '+' ∧ c ≠ '-') :
    Shift.ofChars token (trim field.toList) =
      .error (.invalidShift token (trimmed field) "must start with '+' or '-'") := by
  rw [toList_trimmed] at h
  unfold Shift.ofChars
  split
  · next same => exact absurd rfl (h '+' (by rw [same]; rfl)).1
  · next same => exact absurd rfl (h '-' (by rw [same]; rfl)).2
  · rfl

theorem readShift_of_fault {e : Error} (h : ShiftFault token field e) :
    readShift token field = .error e := by
  cases h with
  | unsigned solid unsigned =>
    have solid := (trim_eq_nil_iff _).not.2 (Bool.eq_false_iff.1 solid)
    rw [readShift, if_neg solid, ofChars_of_unsigned unsigned]
    rfl
  | noAmount split =>
    rw [readShift_of_signed split, ofChars_of_signed split]
    rfl
  | @tooLarge negative amount rest split large =>
    have nonempty : amount.toList ≠ [] := by
      intro nothing
      rw [nothing] at large
      exact Nat.not_lt_zero _ large
    rw [readShift_of_signed split, ofChars_of_signed split, if_neg nonempty, if_pos large]
    rfl
  | noUnit split nonempty bounded noUnit =>
    rw [readShift_of_signed split, ofChars_of_signed split,
      if_neg (String.toList_eq_nil_iff.not.2 nonempty), if_neg (Nat.not_lt.2 bounded),
      if_pos ((trim_eq_nil_iff _).2 noUnit)]
    rfl
  | unknownUnit split nonempty bounded unknown =>
    have solid := (trim_eq_nil_iff _).not.2 (Bool.eq_false_iff.1 unknown.1)
    rw [readShift_of_signed split, ofChars_of_signed split,
      if_neg (String.toList_eq_nil_iff.not.2 nonempty), if_neg (Nat.not_lt.2 bounded),
      if_neg solid, Span.naming.find?_of_not_named unknown.2]
    rfl

end Shifts

end Runbook.DateToken
