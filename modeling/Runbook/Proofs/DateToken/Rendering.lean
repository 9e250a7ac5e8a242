import Runbook.Policy
import Runbook.Variables
import Runbook.Proofs.Calendar.Date
import Runbook.Proofs.Text.Blank

set_option autoImplicit false

/-!
Dates are no decisions. What is written of a moment starts with a digit, a sign, or the name of a
month or of a day of the week, and a date token starts with a percent sign; no decision on what
follows a step starts so. What a token is written as depends on the present moment only.
-/
namespace Runbook

open Text

namespace PolicyAction

def starts : List (List Char) :=
  [['c', 'o'], ['q', 'u'], ['s', 'k']]

private theorem starts_of_parse? {s : String} {a : PolicyAction} (h : parse? s = some a) :
    lower (trim s.toList) = [] ∨ ∃ start ∈ starts, start <+: lower (trim s.toList) := by
  have word {text : String} (same : String.ofList (lower (trim s.toList)) = text) :
      lower (trim s.toList) = text.toList := by
    rw [← same, String.toList_ofList]
  simp only [parse?] at h
  split at h
  · next goes =>
    rcases goes with blank | goes
    · exact .inl (word blank)
    · exact .inr ⟨['c', 'o'], by decide, by rw [word goes]; decide⟩
  · split at h
    · next quits =>
      refine .inr ⟨['q', 'u'], by decide, ?_⟩
      rcases quits with quits | quits
      · rw [word quits]
        decide
      · rw [word quits]
        decide
    · split at h
      · next quits =>
        refine .inr ⟨['q', 'u'], by decide, ?_⟩
        rcases quits with quits | quits
        · rw [word quits]
          decide
        · rw [word quits]
          decide
      · split at h
        · next skips =>
          refine .inr ⟨['s', 'k'], by decide, ?_⟩
          have first : ['s', 'k'] <+: (lower (trim s.toList)).take 5 := by
            rw [skips]
            decide
          exact first.trans (List.take_prefix _ _)
        · exact nomatch h

def Foreign (cs : List Char) : Prop :=
  cs ≠ [] ∧ ∀ start ∈ starts, ¬ start <+: cs ∧ ¬ cs <+: start

instance (cs : List Char) : Decidable (Foreign cs) :=
  inferInstanceAs (Decidable (_ ∧ _))

private theorem parse?_eq_none_of_prefix {s : String} {first : List Char} (foreign : Foreign first)
    (h : first <+: lower (trim s.toList)) : parse? s = none := by
  cases read : parse? s with
  | none => rfl
  | some a =>
    rcases starts_of_parse? read with blank | ⟨start, member, begins⟩
    · rw [blank] at h
      exact absurd (List.prefix_nil.1 h) foreign.1
    · obtain ⟨longer, shorter⟩ := foreign.2 start member
      rcases List.prefix_or_prefix_of_prefix begins h with within | beyond
      · exact absurd within longer
      · exact absurd beyond shorter

def StartsForeign (cs : List Char) : Prop :=
  ∃ first, first <+: cs ∧ (∀ c ∈ first, isBlank c = false) ∧ Foreign (lower first)

private theorem parse?_eq_none_of_startsForeign {s : String} (h : StartsForeign s.toList) :
    parse? s = none := by
  obtain ⟨first, ⟨rest, split⟩, solid, foreign⟩ := h
  have nonempty : first ≠ [] := by
    rintro rfl
    exact foreign.1 rfl
  refine parse?_eq_none_of_prefix foreign ?_
  rw [← split, trim_append_of_not_blank nonempty solid, lower, lower, List.map_append]
  exact List.prefix_append _ _

namespace StartsForeign

private theorem append {cs : List Char} (h : StartsForeign cs) (rest : List Char) :
    StartsForeign (cs ++ rest) := by
  obtain ⟨first, begins, solid, foreign⟩ := h
  exact ⟨first, begins.trans (List.prefix_append _ _), solid, foreign⟩

private theorem of_head {c : Char} (solid : isBlank c = false) (foreign : Foreign (lower [c]))
    (rest : List Char) : StartsForeign (c :: rest) :=
  ⟨[c], ⟨rest, rfl⟩, fun _ member => List.mem_singleton.1 member ▸ solid, foreign⟩

private theorem of_digitOf {k : Nat} (h : k < 10) (rest : List Char) :
    StartsForeign (digitOf k :: rest) := by
  refine of_head ?_ ?_ rest
  · match k, h with
    | 0, _ | 1, _ | 2, _ | 3, _ | 4, _ | 5, _ | 6, _ | 7, _ | 8, _ | 9, _ => decide
  · match k, h with
    | 0, _ | 1, _ | 2, _ | 3, _ | 4, _ | 5, _ | 6, _ | 7, _ | 8, _ | 9, _ => decide

private theorem digits (n : Nat) : StartsForeign (Text.digits n) := by
  induction n using Nat.strongRecOn with
  | ind n ih =>
    rw [Text.digits]
    split
    · next small => exact of_digitOf small []
    · next large => exact (ih (n / 10) (by omega)).append _

private theorem decimal (n : Nat) : StartsForeign (Text.decimal n).toList := by
  rw [Text.decimal, String.toList_ofList]
  exact digits n

private theorem padded (width n : Nat) : StartsForeign (Text.padded width n).toList := by
  simp only [Text.padded, String.toList_ofList]
  cases width - (Text.digits n).length with
  | zero => exact digits n
  | succ k => exact of_digitOf (k := 0) (by decide) _

private theorem of_name {name : String} (h : name ∈ Calendar.monthNames ++ Calendar.weekdayNames) :
    StartsForeign (Calendar.shortName name).toList ∧ StartsForeign name.toList := by
  -- Three letters tell each name from every decision.
  have short : (Calendar.monthNames ++ Calendar.weekdayNames).all fun name =>
      (name.toList.take 3).all (fun c => !isBlank c) &&
        decide (Foreign (lower (name.toList.take 3))) := by
    decide
  obtain ⟨solid, foreign⟩ : (∀ c ∈ name.toList.take 3, isBlank c = false) ∧
      Foreign (lower (name.toList.take 3)) := by
    simpa using List.all_eq_true.1 short name h
  rw [Calendar.shortName, String.toList_ofList]
  exact ⟨⟨_, List.prefix_refl _, solid, foreign⟩, ⟨_, List.take_prefix _ _, solid, foreign⟩⟩

private theorem yearText (y : Int) : StartsForeign (Calendar.yearText y).toList := by
  unfold Calendar.yearText
  split
  · exact padded 4 _
  · rw [String.toList_append]
    split
    · exact of_head (c := '-') (by decide) (by decide) _
    · exact of_head (c := '+') (by decide) (by decide) _

end StartsForeign

end PolicyAction

namespace DateToken

open Calendar PolicyAction

private theorem monthName_mem (m : Moment) : monthName m ∈ monthNames := by
  obtain ⟨first, last, -⟩ := Date.valid_ofDays m.localDay
  have bound : m.date.month - 1 < monthNames.length := by
    change (Date.ofDays m.localDay).month - 1 < 12
    omega
  rw [monthName, List.getElem?_eq_getElem bound]
  exact List.getElem_mem bound

private theorem weekdayName_mem (m : Moment) : weekdayName m ∈ weekdayNames := by
  have bound : weekday m.localDay < weekdayNames.length := by
    change ((m.localDay + 4) % 7).toNat < 7
    omega
  rw [weekdayName, List.getElem?_eq_getElem bound]
  exact List.getElem_mem bound

private theorem startsForeign_month (m : Moment) :
    StartsForeign (shortName (monthName m)).toList ∧ StartsForeign (monthName m).toList :=
  StartsForeign.of_name (List.mem_append_left _ (monthName_mem m))

private theorem startsForeign_weekday (m : Moment) :
    StartsForeign (shortName (weekdayName m)).toList ∧ StartsForeign (weekdayName m).toList :=
  StartsForeign.of_name (List.mem_append_right _ (weekdayName_mem m))

private theorem startsForeign_dateText (m : Moment) (s : Style) :
    StartsForeign (dateText m s).toList := by
  cases s with
  | short =>
    simp only [dateText, String.toList_append, List.append_assoc]
    exact (StartsForeign.decimal _).append _
  | medium =>
    simp only [dateText, String.toList_append, List.append_assoc]
    exact (startsForeign_month m).1.append _
  | long =>
    simp only [dateText, String.toList_append, List.append_assoc]
    exact (startsForeign_month m).2.append _
  | full =>
    simp only [dateText, String.toList_append, List.append_assoc]
    exact (startsForeign_weekday m).2.append _

private theorem startsForeign_timeText (m : Moment) (s : Style) :
    StartsForeign (timeText m s).toList := by
  have hour (rest : List Char) : StartsForeign ((hour12 m).toList ++ rest) :=
    (StartsForeign.decimal _).append rest
  cases s with
  | short | medium | long | full =>
    simp only [timeText, String.toList_append, List.append_assoc]
    exact hour _

private theorem startsForeign_write (m : Moment) (o : Output) (s : Style) :
    StartsForeign (write m o s).toList := by
  cases o with
  | date => exact startsForeign_dateText m s
  | time => exact startsForeign_timeText m s
  | datetime =>
    simp only [write, String.toList_append, List.append_assoc]
    exact (startsForeign_dateText m s).append _
  | year =>
    cases s with
    | short => exact .padded _ _
    | medium | long | full => exact .yearText _
  | month =>
    cases s with
    | short => exact .decimal _
    | medium => exact .padded _ _
    | long => exact (startsForeign_month m).1
    | full => exact (startsForeign_month m).2
  | day =>
    cases s with
    | short => exact .decimal _
    | medium | long | full => exact .padded _ _
  | weekday =>
    cases s with
    | short | medium => exact (startsForeign_weekday m).1
    | long | full => exact (startsForeign_weekday m).2
  | hours =>
    cases s with
    | short => exact .decimal _
    | medium | long | full => exact .padded _ _
  | minutes => exact .padded _ _
  | seconds => exact .padded _ _

private theorem parse?_write (m : Moment) (o : Output) (s : Style) :
    PolicyAction.parse? (write m o s) = none :=
  parse?_eq_none_of_startsForeign (startsForeign_write m o s)

theorem parse?_of_isToken {s : String} (h : isToken s = true) :
    PolicyAction.parse? s = none := by
  simp only [isToken, body?] at h
  split at h
  · next enclosed =>
    refine parse?_eq_none_of_prefix (by decide : Foreign "%date".toList) ?_
    rw [← enclosed.1, lower, lower, List.map_take]
    exact List.take_prefix _ _
  · cases h

theorem parse_of_not_isToken {s : String} (h : isToken s = false) :
    parse s = .error (.notAToken s) := by
  rw [isToken, Option.isSome_eq_false_iff, Option.isNone_iff_eq_none] at h
  simp only [parse, h]

def rendered (now : Moment) (token : String) : Except Error String :=
  match parse token with
  | .error e => .error e
  | .ok t =>
    match t.shifted? now with
    | none => .error (.outOfRange token)
    | some m => .ok (write m t.output t.style)

theorem rendered_of_parse_error {token : String} {e : Error} (h : parse token = .error e)
    (now : Moment) : rendered now token = .error e := by
  rw [rendered, h]

theorem parse?_of_rendered {now : Moment} {token text : String}
    (h : rendered now token = .ok text) : PolicyAction.parse? text = none := by
  unfold rendered at h
  split at h
  · exact nomatch h
  · split at h
    · exact nomatch h
    · obtain rfl := Except.ok.inj h
      exact parse?_write _ _ _

theorem rendered_error {now : Moment} {token : String} {t : DateToken} {e : Error}
    (h : rendered now token = .error e) (read : parse token = .ok t) :
    e = .outOfRange token ∧ t.shifted? now = none := by
  rw [rendered, read] at h
  dsimp only at h
  split at h
  · next far => exact ⟨(Except.error.inj h).symm, far⟩
  · exact nomatch h

end DateToken

end Runbook
