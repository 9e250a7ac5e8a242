import Runbook.Proofs.DateToken.Grammar

set_option autoImplicit false

/-!
Reading back what was written. The text of a token is read as the token, unless its amount is so
large that no token has it; and so the text is a normal form of every text that is read.
-/
namespace Runbook.DateToken

open Text

/-- The amounts that tokens are read with. -/
def Shift.Bounded (s : Shift) : Prop :=
  -wordCount 63 < s.amount ∧ s.amount < wordCount 63

private theorem Shift.bounded_iff {s : Shift} : s.Bounded ↔ s.amount.natAbs ≤ maxAmount := by
  have word : wordCount 63 = maxAmount + 1 := rfl
  rw [Shift.Bounded, word]
  omega

private theorem Span.named (u : Span) : lowered u.name ∈ u.names := by
  cases u <;> decide +kernel

section Shifts

variable {s : Shift}

private theorem Shift.bounded_digits (h : s.Bounded) :
    digitsValue (decimal s.amount.natAbs).toList ≤ maxAmount := by
  rw [digitsValue_decimal]
  exact Shift.bounded_iff.1 h

def Shift.written (h : s.Bounded) : WrittenShift where
  negative := s.amount < 0
  blanks := ""
  amount := decimal s.amount.natAbs
  gap := ""
  unit := s.span.name
  span := s.span
  blanks_blank := isBlankText_empty
  gap_blank := isBlankText_empty
  nonempty := decimal_ne_empty _
  digits := isDigit_of_mem_decimal _
  bounded := Shift.bounded_digits h
  named := s.span.named

private theorem Shift.text_written (h : s.Bounded) : (Shift.written h).text = s.text := by
  simp only [WrittenShift.text, Shift.written, String.append_empty, signText, decide_eq_true_iff]
  rfl

private theorem Shift.shift_written (h : s.Bounded) : (Shift.written h).shift = s := by
  have amount : signed (decide (s.amount < 0)) s.amount.natAbs = s.amount := by
    rw [signed]
    split
    · next negative =>
      have below := of_decide_eq_true negative
      omega
    · next positive =>
      have above := of_decide_eq_false (Bool.eq_false_iff.2 positive)
      omega
  simp only [WrittenShift.shift, Shift.written, digitsValue_decimal, amount]

private theorem Shift.plain_text : ∀ c ∈ s.text.toList, isBlank c = false ∧ c ≠ ',' := by
  have names : ∀ u ∈ Span.all, u.name.toList.all (fun c => !isBlank c && c != ',') = true := by
    decide +kernel
  intro c member
  simp only [Shift.text, String.toList_append, List.mem_append] at member
  rcases member with (sign | digit) | letter
  · split at sign
    · rw [List.mem_singleton.1 sign]
      decide
    · rw [List.mem_singleton.1 sign]
      decide
  · have digit := isDigit_of_mem_decimal _ c digit
    refine ⟨isBlank_of_isDigit digit, ?_⟩
    rintro rfl
    exact nomatch digit
  · simpa using List.all_eq_true.1 (names s.span (Span.naming.complete s.span)) c letter

private theorem Shift.reads_text (h : s.Bounded) : ReadsShift s.text (some s) := by
  have solid : trim s.text.toList = s.text.toList :=
    trim_eq_self (fun c head => (Shift.plain_text c (List.mem_of_head? head)).1)
      fun c last => (Shift.plain_text c (List.mem_of_getLast? last)).1
  have own : trimmed s.text = (Shift.written h).text := by
    rw [Shift.text_written, ← String.toList_inj, toList_trimmed, solid]
  have read := ReadsShift.written _ own
  rwa [Shift.shift_written h] at read

end Shifts

def writtenFields (t : DateToken) : List String :=
  [(t.shift.map Shift.text).getD "", t.output.name, t.style.name]

private theorem hasFields_text (t : DateToken) : HasFields t.text (writtenFields t) where
  nonempty := List.cons_ne_nil _ _
  apart := by
    have outputs : ∀ o ∈ Output.all, ',' ∉ o.name.toList := by decide +kernel
    have styles : ∀ s ∈ Style.all, ',' ∉ s.name.toList := by decide +kernel
    intro field member
    rcases List.mem_cons.1 member with rfl | member
    · cases t.shift with
      | none => exact List.not_mem_nil
      | some s => exact fun comma => (Shift.plain_text _ comma).2 rfl
    rcases List.mem_cons.1 member with rfl | member
    · exact outputs _ (Output.naming.complete _)
    · rw [List.mem_singleton.1 member]
      exact styles _ (Style.naming.complete _)
  enclosed := by
    have whole : t.text = "%date" ++ joined "," (writtenFields t) ++ "%" := by
      simp only [text, writtenFields, joined, String.append_assoc]
    refine ⟨"%date", by decide +kernel, ?_⟩
    rw [← whole, ← String.toList_inj, toList_trimmed]
    refine trim_eq_self (fun c head => ?_) fun c last => ?_
    · rw [whole, String.append_assoc, String.toList_append] at head
      obtain rfl := Option.some.inj head
      decide
    · rw [whole, String.toList_append] at last
      change c ∈ (_ ++ ['%']).getLast? at last
      rw [List.getLast?_concat] at last
      obtain rfl := Option.some.inj last
      decide

private theorem reads_writtenFields {t : DateToken} (h : ∀ s ∈ t.shift, s.Bounded) :
    Reads (writtenFields t) t where
  few := Nat.le_refl 3
  shift := by
    cases same : t.shift with
    | none => exact .blank (by rw [fieldAt, writtenFields, same]; exact isBlankText_empty)
    | some s =>
      have read := Shift.reads_text (h s same)
      rwa [fieldAt, writtenFields, same]
  output := .named <| by
    have names : ∀ o ∈ Output.all, lowered (trimmed o.name) ∈ Output.naming.names o := by
      decide +kernel
    exact names _ (Output.naming.complete _)
  style := .named <| by
    have names : ∀ s ∈ Style.all, lowered (trimmed s.name) ∈ Style.naming.names s := by
      decide +kernel
    exact names _ (Style.naming.complete _)

/-- A token is read back from its text exactly when its amount is one that tokens are read with. -/
theorem text_read_back :
    (∀ t : DateToken, parse t.text = .ok t ↔
      ∀ s ∈ t.shift, -wordCount 63 < s.amount ∧ s.amount < wordCount 63) ∧
    ∀ (s : String) (t : DateToken), parse s = .ok t → parse t.text = .ok t := by
  have bounded {s : String} {t : DateToken} (read : parse s = .ok t) : ∀ s ∈ t.shift, s.Bounded :=
    fun shift member => Shift.bounded_iff.2 (amount_le_of_parse read shift member)
  have back {t : DateToken} (h : ∀ s ∈ t.shift, s.Bounded) : parse t.text = .ok t :=
    parse_of_reads (hasFields_text t) (reads_writtenFields h)
  exact ⟨fun t => ⟨bounded, back⟩, fun s t read => back (bounded read)⟩

/-- The least amount of 64 bits is not read back, the next one is. -/
theorem text_read_back_least :
    parse (text ⟨some ⟨-wordCount 63, .hours⟩, .date, .short⟩) ≠
        .ok ⟨some ⟨-wordCount 63, .hours⟩, .date, .short⟩ ∧
      parse (text ⟨some ⟨1 - wordCount 63, .hours⟩, .time, .full⟩) =
        .ok ⟨some ⟨1 - wordCount 63, .hours⟩, .time, .full⟩ ∧
      parse (text ⟨some ⟨0, .months⟩, .day, .short⟩) = parse " %Date -000 Month , DAY% " := by
  have read : parse " %Date -000 Month , DAY% " = .ok ⟨some ⟨0, .months⟩, .day, .short⟩ := by rfl
  refine ⟨fun least => ?_, (text_read_back.1 _).2 ?_, ?_⟩
  · exact absurd ((text_read_back.1 _).1 least _ rfl).1 (by decide)
  · intro s member
    obtain rfl := Option.some.inj member
    decide
  · rw [read]
    exact text_read_back.2 _ _ read

end Runbook.DateToken
