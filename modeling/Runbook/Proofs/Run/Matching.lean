import Runbook.Proofs.Run.Nesting

set_option autoImplicit false

/-!
Programs that are left were entered. In the log of a run each program that is left was entered
before, its rows were carried out in between, and between the two no other point could be taken for
its end.
-/
namespace Runbook.Run

private theorem RowsLog.not_after_left {l x : Log} {f : FrameSummary} {st : RunState}
    (closed : RowsLog l)
    (h : RowsLog (l ++ ⟨.left f, st⟩ :: x)) : False := by
  have first : l ++ [⟨.left f, st⟩] <+: l ++ ⟨.left f, st⟩ :: x := ⟨x, by simp⟩
  -- A program around the rows would have to stay open.
  have open_ := h.suffix_openAfter _ first [.program default]
  rw [openAfter_append, closed.openAfter_eq] at open_
  exact nomatch List.suffix_nil.1 open_

theorem RowsLog.eq_of_append_left {l l' x x' : Log} {f f' : FrameSummary} {st st' : RunState}
    (h : RowsLog l) (h' : RowsLog l')
    (same : l ++ ⟨.left f, st⟩ :: x = l' ++ ⟨.left f', st'⟩ :: x') : l = l' := by
  rcases List.append_eq_append_iff.1 same with ⟨more, rfl, rest⟩ | ⟨more, rfl, rest⟩
  · cases more with
    | nil => exact (List.append_nil l).symm
    | cons e more =>
      obtain ⟨rfl, -⟩ := List.cons.inj rest
      exact (h.not_after_left h').elim
  · cases more with
    | nil => exact List.append_nil l'
    | cons e more =>
      obtain ⟨rfl, -⟩ := List.cons.inj rest
      exact (h'.not_after_left h).elim

/-- A program that is left after a log that leaves no other open was entered before that log. -/
theorem RowsLog.mem_of_settled {l x before inner : Log} {q : Program} {st : RunState}
    (balanced : RowsLog inner) (same : l ++ x = before ++ ⟨.entered q, st⟩ :: inner)
    (settled : othersAfter 0 x = 0) : ⟨.entered q, st⟩ ∈ l := by
  -- The program itself would be open after what follows the log.
  have absurd {c : Log} (h : x = c ++ ⟨.entered q, st⟩ :: inner) : False := by
    rw [h, othersAfter_append] at settled
    change othersAfter (othersAfter 0 c + 1) inner = 0 at settled
    rw [balanced.othersAfter_eq] at settled
    exact nomatch settled
  rcases List.append_eq_append_iff.1 same with ⟨c, -, rest⟩ | ⟨a, rfl, rest⟩
  · exact (absurd rest).elim
  · cases a with
    | nil => exact (absurd (c := []) rest.symm).elim
    | cons e a =>
      obtain ⟨rfl, -⟩ := List.cons.inj rest
      exact List.mem_append_right _ List.mem_cons_self

/-- Every program that is left in a log was entered in it, and in between its rows were carried
out. -/
def Matched (l : Log) : Prop :=
  ∀ pre f st post, l = pre ++ ⟨.left f, st⟩ :: post →
    ∃ before q st' inner, pre = before ++ ⟨.entered q, st'⟩ :: inner ∧ RowsLog inner

namespace Matched

private theorem nil : Matched [] := by
  intro pre f st post split
  exact absurd split (by simp)

private theorem singleton {e : LogEntry} (h : ∀ f, e.what ≠ .left f) : Matched [e] := by
  intro pre f st post split
  cases pre with
  | nil =>
    obtain ⟨rfl, -⟩ := List.cons.inj split
    exact absurd rfl (h f)
  | cons e' pre => exact absurd (List.cons.inj split).2 (by simp)

private theorem append {l l' : Log} (h : Matched l) (h' : Matched l') : Matched (l ++ l') := by
  intro pre f st post split
  rcases List.append_eq_append_iff.1 split with ⟨more, rfl, rest⟩ | ⟨more, rfl, rest⟩
  · obtain ⟨before, q, st', inner, rfl, balanced⟩ := h' more f st post rest
    exact ⟨l ++ before, q, st', inner, (List.append_assoc _ _ _).symm, balanced⟩
  · cases more with
    | nil =>
      obtain ⟨before, q, st', inner, absurd, -⟩ := h' [] f st post rest.symm
      exact nomatch List.append_eq_nil_iff.1 absurd.symm
    | cons e more =>
      obtain ⟨rfl, -⟩ := List.cons.inj rest
      exact h pre f st more rfl

private theorem frame {inner : Log} (balanced : RowsLog inner) (h : Matched inner) (p : Program)
    (f : FrameSummary) (st st' : RunState) :
    Matched (⟨.entered p, st⟩ :: inner ++ [⟨.left f, st'⟩]) := by
  have opened : Matched (⟨.entered p, st⟩ :: inner) :=
    append (singleton (e := ⟨.entered p, st⟩) (by rintro f ⟨⟩)) h
  intro pre f' st'' post split
  rcases List.eq_nil_or_concat post with rfl | ⟨post, last, rfl⟩
  · obtain ⟨rfl, -⟩ := List.append_inj' split rfl
    exact ⟨[], p, st, inner, rfl, balanced⟩
  · rw [List.concat_eq_append, ← List.cons_append, ← List.append_assoc] at split
    exact opened pre f' st'' post (List.append_inj' split rfl).1

end Matched

private theorem PartLog.matched {part : Part} {l : Log} (h : PartLog part l) : Matched l := by
  induction h with
  | nil => exact .nil
  | interrupted seq st => exact .singleton (by rintro f ⟨⟩)
  | @step record record' calls l directive st st' _ _ _ ih ih' =>
    have begun : Matched [⟨.began record, st⟩] := .singleton (by rintro f ⟨⟩)
    have ended : Matched [⟨.ended record' directive, st'⟩] := .singleton (by rintro f ⟨⟩)
    exact (begun.append ih).append (ended.append ih')
  | @call p f inner l st st' _ balanced _ ih ih' =>
    have called := (Matched.frame balanced ih p f st st').append ih'
    rw [List.append_assoc] at called
    exact called

theorem FrameLog.matched {p : Program} {l : Log} (h : FrameLog p l) : Matched l := by
  obtain ⟨st, st', -, balanced⟩ := h
  exact .frame balanced balanced.matched _ _ _ _

end Runbook.Run
