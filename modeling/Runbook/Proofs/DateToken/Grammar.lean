import Runbook.Proofs.DateToken.Rendering
import Runbook.Proofs.DateToken.WrittenShift
import Runbook.Proofs.Text.Line

set_option autoImplicit false

/-!
The grammar of date tokens. A token is `%date`, fields between commas, and `%`; the first field is
blank or a shift, the second blank or an output, the third blank or a style. What is said of a token
that is refused is said of its first field that is none of these.
-/
namespace Runbook.DateToken

open Text

/-- A text is, between blanks, `%date` in whatever case, fields with commas between them, and `%`.
-/
structure HasFields (token : String) (fields : List String) : Prop where
  nonempty : fields ≠ []
  apart : ∀ field ∈ fields, ',' ∉ field.toList
  enclosed : ∃ head, lowered head = "%date" ∧ trimmed token = head ++ joined "," fields ++ "%"

def fieldAt (fields : List String) (i : Nat) : String :=
  fields[i]?.getD ""

/-- What each field of a token stands for. -/
structure Reads (fields : List String) (t : DateToken) : Prop where
  few : fields.length ≤ 3
  shift : ReadsShift (fieldAt fields 0) t.shift
  output : Output.naming.Reads .date (fieldAt fields 1) t.output
  style : Style.naming.Reads .short (fieldAt fields 2) t.style

/-- What is said of the fields of a token that is refused: that there are too many, or what is wrong
with the first that is. -/
inductive Faulty (token : String) (fields : List String) : Error → Prop
  | tooMany : 3 < fields.length → Faulty token fields (.tooManyFields token)
  | shift {e : Error} : fields.length ≤ 3 → ShiftFault token (fieldAt fields 0) e →
      Faulty token fields e
  | output {s : Option Shift} : fields.length ≤ 3 → ReadsShift (fieldAt fields 0) s →
      Output.naming.Unknown (fieldAt fields 1) →
      Faulty token fields (.unknownOutput (lowered (trimmed (fieldAt fields 1))))
  | style {s : Option Shift} {o : Output} : fields.length ≤ 3 → ReadsShift (fieldAt fields 0) s →
      Output.naming.Reads .date (fieldAt fields 1) o → Style.naming.Unknown (fieldAt fields 2) →
      Faulty token fields (.unknownStyle (lowered (trimmed (fieldAt fields 2))))

section Tokens

variable {token : String} {fields : List String}

private theorem body?_eq_some_iff {cs body : List Char} :
    body? cs = some body ↔ ∃ head, lower head = "%date".toList ∧ cs = head ++ body ++ ['%'] := by
  rw [body?]
  constructor
  · intro enclosed
    split at enclosed
    · next h =>
      obtain rfl := Option.some.inj enclosed
      refine ⟨cs.take 5, h.1, ?_⟩
      rw [List.append_assoc, List.dropLast_append_getLast? _ h.2, List.take_append_drop]
    · cases enclosed
  · rintro ⟨head, date, rfl⟩
    have length : head.length = 5 := by
      have same := congrArg List.length date
      rwa [lower, List.length_map] at same
    have front : (head ++ body ++ ['%']).take 5 = head := by
      rw [List.append_assoc, ← length, List.take_left]
    have back : (head ++ body ++ ['%']).drop 5 = body ++ ['%'] := by
      rw [List.append_assoc, ← length, List.drop_left]
    rw [front, back, if_pos ⟨date, List.getLast?_concat⟩, List.dropLast_concat]

private theorem hasFields_iff :
    HasFields token fields ↔
      ∃ body, body? (trim token.toList) = some body ∧ splitAt ',' body = fields.map String.toList := by
  simp only [body?_eq_some_iff]
  constructor
  · rintro ⟨nonempty, apart, head, date, same⟩
    refine ⟨joinAt ',' (fields.map String.toList), ⟨head.toList, ?_, ?_⟩, splitAt_joinAt ?_ ?_⟩
    · rw [← toList_lowered, date]
    · rw [← toList_trimmed, same, String.toList_append, String.toList_append, ← toList_joined]
      rfl
    · rwa [ne_eq, List.map_eq_nil_iff]
    · intro piece member
      obtain ⟨field, among, rfl⟩ := List.mem_map.1 member
      exact apart field among
  · rintro ⟨body, ⟨head, date, same⟩, split⟩
    refine ⟨?_, ?_, String.ofList head, ?_, ?_⟩
    · rintro rfl
      exact splitAt_ne_nil ',' body split
    · intro field member
      have among : field.toList ∈ splitAt ',' body := by
        rw [split]
        exact List.mem_map_of_mem member
      exact not_mem_of_mem_splitAt among
    · rw [lowered, String.toList_ofList, date, String.ofList_toList]
    · have joined_ : (joined "," fields).toList = body := by
        rw [← joinAt_splitAt ',' body, split]
        exact toList_joined ',' fields
      rw [← String.toList_inj, toList_trimmed, same, String.toList_append, String.toList_append,
        String.toList_ofList, joined_]
      rfl

private theorem hasFields_or_not_isToken (token : String) :
    (∃ fields, HasFields token fields) ∨ isToken token = false := by
  simp only [hasFields_iff, isToken]
  cases body? (trim token.toList) with
  | none => exact .inr rfl
  | some body => exact .inl ⟨(splitAt ',' body).map String.ofList, body, rfl, by simp⟩

private theorem HasFields.isToken (h : HasFields token fields) : isToken token = true := by
  obtain ⟨body, found, -⟩ := hasFields_iff.1 h
  rw [DateToken.isToken, found]
  rfl

private theorem ofFields_eq (token shift output style : String) :
    ofFields token shift.toList output.toList style.toList = (do
      let shift ← readShift token shift
      let output ← Output.naming.read .date .unknownOutput output
      let style ← Style.naming.read .short .unknownStyle style
      return { shift, output, style }) := by
  rw [← read_output, ← read_style, ofFields, readShift]
  -- Each field is blank or not, whatever the others are.
  split_ifs <;> rfl

private theorem parse_of_hasFields (h : HasFields token fields) :
    parse token =
      if 3 < fields.length then .error (.tooManyFields token)
      else do
        let shift ← readShift token (fieldAt fields 0)
        let output ← Output.naming.read .date .unknownOutput (fieldAt fields 1)
        let style ← Style.naming.read .short .unknownStyle (fieldAt fields 2)
        return { shift, output, style } := by
  obtain ⟨body, found, split⟩ := hasFields_iff.1 h
  simp only [parse, found, split, ← ofFields_eq]
  rcases fields with _ | ⟨_, _ | ⟨_, _ | ⟨_, _ | ⟨_, rest⟩⟩⟩⟩
  · exact absurd rfl h.nonempty
  · rfl
  · rfl
  · rfl
  · rw [if_pos (by simp)]
    rfl

theorem parse_of_reads (h : HasFields token fields) {t : DateToken} (reads : Reads fields t) :
    parse token = .ok t := by
  rw [parse_of_hasFields h, if_neg (Nat.not_lt.2 reads.few), readShift_of_reads reads.shift,
    Output.naming.read_of_reads reads.output, Style.naming.read_of_reads reads.style]
  rfl

private theorem parse_of_faulty (h : HasFields token fields) {e : Error}
    (faulty : Faulty token fields e) :
    parse token = .error e := by
  rw [parse_of_hasFields h]
  cases faulty with
  | tooMany many => exact if_pos many
  | shift few fault =>
    rw [if_neg (Nat.not_lt.2 few), readShift_of_fault fault]
    rfl
  | output few shift unknown =>
    rw [if_neg (Nat.not_lt.2 few), readShift_of_reads shift,
      Output.naming.read_of_unknown unknown]
    rfl
  | style few shift output unknown =>
    rw [if_neg (Nat.not_lt.2 few), readShift_of_reads shift,
      Output.naming.read_of_reads output, Style.naming.read_of_unknown unknown]
    rfl

private theorem reads_or_faulty (token : String) (fields : List String) :
    (∃ t, Reads fields t) ∨ ∃ e, Faulty token fields e := by
  rcases Nat.lt_or_ge 3 fields.length with many | few
  · exact .inr ⟨_, .tooMany many⟩
  rcases readsShift_or_fault token (fieldAt fields 0) with ⟨s, shift⟩ | ⟨e, fault⟩
  · rcases Output.naming.reads_or_unknown .date (fieldAt fields 1) with ⟨o, output⟩ | unknown
    · rcases Style.naming.reads_or_unknown .short (fieldAt fields 2) with ⟨st, style⟩ | unknown
      · exact .inl ⟨⟨s, o, st⟩, few, shift, output, style⟩
      · exact .inr ⟨_, .style few shift output unknown⟩
    · exact .inr ⟨_, .output few shift unknown⟩
  · exact .inr ⟨e, .shift few fault⟩

private theorem parse_cases (token : String) :
    (isToken token = false ∧ parse token = .error (.notAToken token)) ∨
      ∃ fields, HasFields token fields ∧
        ((∃ t, Reads fields t ∧ parse token = .ok t) ∨
          ∃ e, Faulty token fields e ∧ parse token = .error e) := by
  rcases hasFields_or_not_isToken token with ⟨fields, has⟩ | other
  · refine .inr ⟨fields, has, ?_⟩
    rcases reads_or_faulty token fields with ⟨t, reads⟩ | ⟨e, faulty⟩
    · exact .inl ⟨t, reads, parse_of_reads has reads⟩
    · exact .inr ⟨e, faulty, parse_of_faulty has faulty⟩
  · exact .inl ⟨other, parse_of_not_isToken other⟩

private theorem parse_eq_ok_iff {t : DateToken} :
    parse token = .ok t ↔ ∃ fields, HasFields token fields ∧ Reads fields t := by
  constructor
  · intro ok
    rcases parse_cases token with ⟨-, refused⟩ | ⟨fields, has, ⟨t', reads, read⟩ | ⟨e, -, refused⟩⟩
    · rw [refused] at ok
      cases ok
    · rw [read] at ok
      obtain rfl := Except.ok.inj ok
      exact ⟨fields, has, reads⟩
    · rw [refused] at ok
      cases ok
  · rintro ⟨fields, has, reads⟩
    exact parse_of_reads has reads

private theorem parse_eq_error_iff {e : Error} :
    parse token = .error e ↔
      isToken token = false ∧ e = .notAToken token ∨
        ∃ fields, HasFields token fields ∧ Faulty token fields e := by
  constructor
  · intro error
    rcases parse_cases token with ⟨other, refused⟩ | ⟨fields, has, ⟨t, -, read⟩ | ⟨e', faulty, refused⟩⟩
    · rw [refused] at error
      exact .inl ⟨other, (Except.error.inj error).symm⟩
    · rw [read] at error
      cases error
    · rw [refused] at error
      obtain rfl := Except.error.inj error
      exact .inr ⟨fields, has, faulty⟩
  · rintro (⟨other, rfl⟩ | ⟨fields, has, faulty⟩)
    · exact parse_of_not_isToken other
    · exact parse_of_faulty has faulty

end Tokens

/-- After so many bytes of a text one character ends and another begins. -/
def CutAt (s : String) (bytes : Nat) : Prop :=
  (⟨bytes⟩ : String.Pos.Raw).IsValid s

instance (s : String) (bytes : Nat) : Decidable (CutAt s bytes) :=
  inferInstanceAs (Decidable (String.Pos.Raw.IsValid s ⟨bytes⟩))

section Cuts

theorem cutAt_append (front back : String) : CutAt (front ++ back) front.utf8ByteSize :=
  String.Pos.Raw.isValid_iff_exists_append.2 ⟨front, back, rfl, rfl⟩

private theorem utf8Size_eq_one {c : Char} (h : c.toNat ≤ 127) : c.utf8Size = 1 := by
  have small : c.val ≤ 127 := UInt32.le_iff_toNat_le.2 h
  exact if_pos small

private theorem utf8ByteSize_of_narrow {s : String} (h : ∀ c ∈ s.toList, c.toNat ≤ 127) :
    s.utf8ByteSize = s.length := by
  have chars (cs : List Char) (narrow : ∀ c ∈ cs, c.toNat ≤ 127) :
      (String.ofList cs).utf8ByteSize = cs.length := by
    induction cs with
    | nil => rfl
    | cons c cs ih =>
      have first := utf8Size_eq_one (narrow c List.mem_cons_self)
      have others := ih fun c member => narrow c (List.mem_cons_of_mem _ member)
      have split : String.ofList (c :: cs) = String.singleton c ++ String.ofList cs := by
        simp
      rw [split, String.utf8ByteSize_append, String.utf8ByteSize_singleton, first, others,
        List.length_cons, Nat.add_comm]
  have own := chars s.toList h
  rwa [String.ofList_toList, String.length_toList] at own

private theorem utf8ByteSize_of_date {head : String} (h : lowered head = "%date") :
    head.utf8ByteSize = 5 := by
  have chars := congrArg String.toList h
  rw [toList_lowered] at chars
  have narrow : ∀ c ∈ head.toList, c.toNat ≤ 127 := by
    intro c member
    have each : "%date".toList.all (fun c => c.toNat ≤ 127) = true := by decide
    have small : c.toLower.toNat ≤ 127 := by
      refine of_decide_eq_true (List.all_eq_true.1 each _ ?_)
      rw [← chars]
      exact List.mem_map_of_mem member
    rcases toLower_cases c with ⟨-, capital, -⟩ | same
    · omega
    · rwa [same] at small
  have length : head.toList.length = 5 := by
    have same := congrArg List.length chars
    rwa [lower, List.length_map] at same
  rw [utf8ByteSize_of_narrow narrow, ← String.length_toList, length]

variable {token text amount rest : String} {fields : List String} {negative : Bool}

private theorem HasFields.cuts (h : HasFields token fields) :
    6 ≤ (trimmed token).utf8ByteSize ∧ CutAt (trimmed token) 5 ∧
      CutAt (trimmed token) ((trimmed token).utf8ByteSize - 1) := by
  obtain ⟨head, date, same⟩ := h.enclosed
  have five := utf8ByteSize_of_date date
  have front := cutAt_append head (joined "," fields ++ "%")
  have back := cutAt_append (head ++ joined "," fields) "%"
  have size : (trimmed token).utf8ByteSize = (head ++ joined "," fields).utf8ByteSize + 1 := by
    rw [same, String.utf8ByteSize_append]
    rfl
  rw [← String.append_assoc, ← same, five] at front
  rw [← same] at back
  rw [size, Nat.add_sub_cancel]
  refine ⟨?_, front, back⟩
  rw [String.utf8ByteSize_append, five]
  omega

private theorem Signed.cuts (h : Signed text negative amount rest) :
    CutAt text 1 ∧ CutAt (amount ++ rest) amount.length := by
  constructor
  · obtain ⟨blanks, -, rfl⟩ := h.split
    have front := cutAt_append (signText negative) (blanks ++ (amount ++ rest))
    have one : (signText negative).utf8ByteSize = 1 := by
      cases negative with
      | true => rfl
      | false => rfl
    rwa [one, ← String.append_assoc, ← String.append_assoc] at front
  · have narrow := utf8ByteSize_of_narrow fun c member =>
      (isDigit_iff.1 (h.digits c member)).2.trans (by decide : 57 ≤ 127)
    rw [← narrow]
    exact cutAt_append amount rest

end Cuts

private theorem ReadsShift.amount_le {field : String} {s : Shift} (h : ReadsShift field (some s)) :
    s.amount.natAbs ≤ maxAmount := by
  cases h with
  | written w same =>
    have size : w.shift.amount.natAbs = digitsValue w.amount.toList := by
      simp only [WrittenShift.shift, signed]
      split
      · exact Int.natAbs_neg _
      · rfl
    rw [size]
    exact w.bounded

theorem amount_le_of_parse {s : String} {t : DateToken} (h : parse s = .ok t) :
    ∀ shift ∈ t.shift, shift.amount.natAbs ≤ maxAmount := by
  intro shift member
  obtain ⟨fields, -, reads⟩ := parse_eq_ok_iff.1 h
  have read := reads.shift
  rw [member] at read
  exact read.amount_le

private theorem isToken_iff {s : String} : isToken s = true ↔ ∃ fields, HasFields s fields := by
  constructor
  · intro token
    rcases hasFields_or_not_isToken s with has | other
    · exact has
    · rw [token] at other
      exact nomatch other
  · rintro ⟨fields, has⟩
    exact has.isToken

private theorem exists_notAToken_iff {s : String} :
    (∃ other, parse s = .error (.notAToken other)) ↔ isToken s = false := by
  constructor
  · rintro ⟨other, error⟩
    rcases parse_eq_error_iff.1 error with ⟨other, -⟩ | ⟨fields, has, faulty⟩
    · exact other
    · cases faulty with
      | shift few fault => exact nomatch fault
  · intro other
    exact ⟨s, parse_of_not_isToken other⟩

/-- Tokens are read exactly by their grammar, and refused for the first field that stands for
nothing. -/
theorem tokens_read_by_grammar (s : String) :
    (∀ t, parse s = .ok t ↔ ∃ fields, HasFields s fields ∧ Reads fields t) ∧
    (∀ e, parse s = .error e ↔
      isToken s = false ∧ e = .notAToken s ∨ ∃ fields, HasFields s fields ∧ Faulty s fields e) ∧
    (isToken s = true ↔ ∃ fields, HasFields s fields) ∧
    ((∃ other, parse s = .error (.notAToken other)) ↔ isToken s = false) ∧
    (∀ fields, HasFields s fields →
      6 ≤ (trimmed s).utf8ByteSize ∧ CutAt (trimmed s) 5 ∧
        CutAt (trimmed s) ((trimmed s).utf8ByteSize - 1)) ∧
    (∀ text negative amount rest, Signed text negative amount rest →
      CutAt text 1 ∧ CutAt (amount ++ rest) amount.length) ∧
    ∀ t, parse s = .ok t → ∀ shift ∈ t.shift, shift.amount.natAbs ≤ maxAmount :=
  ⟨fun _ => parse_eq_ok_iff, fun _ => parse_eq_error_iff, isToken_iff, exists_notAToken_iff,
    fun _ => HasFields.cuts, fun _ _ _ _ => Signed.cuts, fun _ => amount_le_of_parse⟩

/-- A token in capitals with blanks in it, leading zeros and an output left out; and one more than
the largest amount. -/
theorem tokens_read_by_grammar_days :
    parse " %DATE - 007 Day,, FULL% " = .ok ⟨some ⟨-7, .days⟩, .date, .full⟩ ∧
      parse "%date+9223372036854775808 days%" = .error (.invalidShift "%date+9223372036854775808 days%"
        "+9223372036854775808 days" "amount is too large") ∧
      CutAt (trimmed " %DATE - 007 Day,, FULL% ") 5 := by
  obtain ⟨back, text, shift⟩ : ∃ w : WrittenShift, w.text = "- 007 Day" ∧ w.shift = ⟨-7, .days⟩ :=
    ⟨⟨true, " ", "007", " ", "Day", .days, by decide +kernel, by decide +kernel, by decide +kernel,
      List.all_eq_true.1 (by decide +kernel), by decide +kernel, by decide +kernel⟩, by decide +kernel,
      by decide +kernel⟩
  have days : HasFields " %DATE - 007 Day,, FULL% " [" - 007 Day", "", " FULL"] :=
    ⟨by decide, by decide +kernel, "%DATE", by decide +kernel, by decide +kernel⟩
  have read : ReadsShift " - 007 Day" (some ⟨-7, .days⟩) := by
    rw [← shift]
    exact .written back (by rw [text]; decide +kernel)
  have large : HasFields "%date+9223372036854775808 days%" ["+9223372036854775808 days"] :=
    ⟨by decide, by decide +kernel, "%date", by decide +kernel, by decide +kernel⟩
  have same : trimmed "+9223372036854775808 days" = "+9223372036854775808 days" := by decide +kernel
  have split : Signed (trimmed "+9223372036854775808 days") false "9223372036854775808" " days" :=
    ⟨⟨"", by decide +kernel, by decide +kernel⟩, List.all_eq_true.1 (by decide +kernel),
      fun c head => by
        obtain rfl := Option.some.inj head
        decide +kernel⟩
  have fault : ShiftFault "%date+9223372036854775808 days%" "+9223372036854775808 days"
      (.invalidShift "%date+9223372036854775808 days%" "+9223372036854775808 days"
        "amount is too large") := by
    have named : ShiftFault "%date+9223372036854775808 days%" _ _ := .tooLarge split (by decide +kernel)
    rwa [same] at named
  obtain ⟨parsed, -, -, -, cuts, -⟩ := tokens_read_by_grammar " %DATE - 007 Day,, FULL% "
  obtain ⟨-, refused, -⟩ := tokens_read_by_grammar "%date+9223372036854775808 days%"
  refine ⟨(parsed _).2 ⟨_, days, ?_⟩, (refused _).2 (.inr ⟨_, large, .shift (by decide) fault⟩),
    (cuts _ days).2.1⟩
  exact ⟨by decide, read, .blank (by decide +kernel), .named (by decide +kernel)⟩

end Runbook.DateToken
