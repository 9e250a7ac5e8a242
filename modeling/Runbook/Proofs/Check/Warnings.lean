import Mathlib.Data.Finset.Dedup
import Mathlib.Data.Finset.SDiff
import Mathlib.Data.Finset.Card
import Runbook.Proofs.Check
import Runbook.Proofs.Run.Rows
import Runbook.Proofs.Template

set_option autoImplicit false

/-!
What the check warns of. There are three warnings: of a row that a runner takes no notice of, of an
identifier that an earlier row has, and of a flag that every record of the row will have a comment
on. Each is given exactly where it is true, and neither what is wrong with the parameters of a row
nor which actions are known has a part in it.
-/
namespace Runbook

open Text

/-- A runner takes no notice of a row: rows that it comes before are run as without it, except that
they have the places after it. -/
def Runner.Ignores (r : Runner) (row : Row) : Prop :=
  ∀ (deeper : Run.Deeper) (p : Program) (rest : List Row) (seq skips : Nat) (g : Run.Progress)
    (st : RunState), Run.rows r deeper p (row :: rest) seq skips g st =
      Run.rows r deeper p rest (seq + 1) skips g st

private theorem Runner.ignores_iff (r : Runner) {row : Row} :
    r.Ignores row ↔ row.isEmpty = true := by
  constructor
  · intro ignored
    by_contra counted
    have lowered : ({} : RunState).interrupted = false := rfl
    obtain ⟨more, begun⟩ := Run.rows_began (Bool.eq_false_iff.2 counted) lowered r none
      { name := "", rows := [] } [] 1 0 {}
    rw [ignored] at begun
    exact nomatch begun
  · intro empty deeper p rest seq skips g st
    exact Run.rows_of_empty empty rest g

private theorem Record.comments_place (row : Row) (position : Position) (vars : Variables) :
    ((Record.ofRow row).place position vars).comments =
      if (Activation.parse? (vars.substitute row.activation)).isNone then
        [Record.flagComment (vars.substitute row.activation)]
      else [] := by
  simp only [Record.place, Record.ofRow]
  cases Activation.parse? (vars.substitute row.activation) with
  | none => rfl
  | some activation => rfl

namespace Check

def blankWarning (place : Nat) (row : Row) : Issue :=
  ⟨place, row.id, .warning, "blank action, row will be ignored"⟩

def repeatWarning (place : Nat) (row : Row) : Issue :=
  ⟨place, row.id, .warning, "duplicate id '" ++ trimmed row.id ++ "'"⟩

def flagWarning (place : Nat) (row : Row) : Issue :=
  ⟨place, row.id, .warning, "unrecognised activation flag '" ++ trimmed row.activation ++ "'"⟩

def Issue.isWarning (issue : Issue) : Bool :=
  issue.severity = .warning

def Issue.isRepeat (issue : Issue) : Bool :=
  issue.isWarning && issue.message = "duplicate id '" ++ trimmed issue.id ++ "'"

/-- Whether a row is an instruction with an identifier. -/
def isIdentified (row : Row) : Bool :=
  !row.isEmpty && !isBlankText row.id

/-- The identifiers of instructions, in the form in which they are compared. -/
def idKeys (rows : List Row) : List String :=
  (rows.filter isIdentified).map idKey

def rowWarnings (seen : List String) (row : Row) : List Remark :=
  if row.isEmpty then [(.warning, "blank action, row will be ignored")]
  else idRemarks seen row ++ flagRemarks row

variable {syn : Params.Syntax} {known seen : List String} {row : Row} {rows : List Row}

section Remarks

private theorem warning_not_mem_actionRemarks (m : String) :
    (Severity.warning, m) ∉ actionRemarks known row := by
  unfold actionRemarks
  split <;> simp

private theorem warning_not_mem_policyRemarks (key value m : String) :
    (Severity.warning, m) ∉ policyRemarks key value := by
  unfold policyRemarks
  split
  · split <;> simp
  · simp

private theorem warning_not_mem_tokenRemarks (key value m : String) :
    (Severity.warning, m) ∉ tokenRemarks key value := by
  unfold tokenRemarks
  split
  · split <;> simp
  · simp

private theorem warning_not_mem_blobRemarks (m : String) :
    (Severity.warning, m) ∉ blobRemarks syn row := by
  unfold blobRemarks
  split
  · next p parsed =>
    rw [List.mem_flatMap]
    rintro ⟨e, -, said⟩
    unfold paramRemarks at said
    split at said
    · exact nomatch said
    · rcases List.mem_append.1 said with policy | token
      · exact warning_not_mem_policyRemarks e.1 e.2 m policy
      · exact warning_not_mem_tokenRemarks e.1 e.2 m token
  · simp

private theorem filter_rowRemarks (syn : Params.Syntax) (known seen : List String) (row : Row) :
    (rowRemarks syn known seen row).filter (fun m => m.1 = .warning) = rowWarnings seen row := by
  have errors {l : List Remark} (h : ∀ m, (Severity.warning, m) ∉ l) :
      l.filter (fun m => m.1 = .warning) = [] := by
    rw [List.filter_eq_nil_iff]
    rintro ⟨severity, m⟩ member warns
    obtain rfl : severity = .warning := of_decide_eq_true warns
    exact h m member
  have warnings {l : List Remark} (h : ∀ m, (Severity.error, m) ∉ l) :
      l.filter (fun m => m.1 = .warning) = l := by
    rw [List.filter_eq_self]
    rintro ⟨severity, m⟩ member
    cases severity with
    | warning => rfl
    | error => exact absurd member (h m)
  rw [rowRemarks, rowWarnings]
  cases row.isEmpty with
  | true => rfl
  | false =>
    simp only [Bool.false_eq_true, if_false, List.filter_append,
      errors warning_not_mem_actionRemarks, errors warning_not_mem_blobRemarks,
      warnings error_not_mem_idRemarks, warnings error_not_mem_flagRemarks, List.nil_append,
      List.append_nil]

private theorem message_ne {m m' : String} (start : m.toList.head? ≠ m'.toList.head?) : m ≠ m' :=
  mt (congrArg fun m : String => m.toList.head?) start

private theorem repeatMessage_ne (id : String) :
    "duplicate id '" ++ id ++ "'" ≠ "blank action, row will be ignored" :=
  message_ne (by simp)

private theorem flagMessage_ne (flag : String) :
    "unrecognised activation flag '" ++ flag ++ "'" ≠ "blank action, row will be ignored" :=
  message_ne (by simp)

private theorem flagMessage_ne_repeatMessage (flag id : String) :
    "unrecognised activation flag '" ++ flag ++ "'" ≠ "duplicate id '" ++ id ++ "'" :=
  message_ne (by simp)

private theorem warning_mem_rowRemarks {m : String} :
    (Severity.warning, m) ∈ rowRemarks syn known seen row ↔
      (row.isEmpty = true ∧ m = "blank action, row will be ignored") ∨
        (row.isEmpty = false ∧
          (((idKey row ≠ "" ∧ idKey row ∈ seen) ∧ m = "duplicate id '" ++ trimmed row.id ++ "'") ∨
            ((Template.hasPlaceholder row.activation = false ∧
                Activation.parse? row.activation = none) ∧
              m = "unrecognised activation flag '" ++ trimmed row.activation ++ "'"))) := by
  have kept : (Severity.warning, m) ∈ (rowRemarks syn known seen row).filter
      (fun m => m.1 = .warning) ↔ (Severity.warning, m) ∈ rowRemarks syn known seen row := by
    simp [List.mem_filter]
  rw [← kept, filter_rowRemarks, rowWarnings]
  cases row.isEmpty with
  | true => simp
  | false => simp [idRemarks, flagRemarks, List.mem_ite_nil_right]

end Remarks

section Rows

private theorem mem_foldl_nextSeen {key : String} :
    key ∈ rows.foldl nextSeen seen ↔
      key ∈ seen ∨ ∃ earlier ∈ rows, earlier.isEmpty = false ∧ idKey earlier = key := by
  induction rows generalizing seen with
  | nil => simp
  | cons first rest ih =>
    rw [List.foldl_cons, ih, List.exists_mem_cons_iff, nextSeen]
    cases first.isEmpty with
    | true => simp
    | false =>
      simp only [Bool.false_eq_true, if_false, List.mem_cons, true_and]
      rw [or_assoc, or_left_comm, eq_comm]

private theorem issuesFrom_inOrder (syn : Params.Syntax) (known seen : List String) (i : Nat)
    (rows : List Row) :
    (issuesFrom syn known seen i rows).Pairwise fun issue later => issue.row ≤ later.row := by
  induction rows generalizing seen i with
  | nil => exact .nil
  | cons first rest ih =>
    rw [issuesFrom, List.pairwise_append]
    refine ⟨?_, ih _ _, ?_⟩
    · rw [List.pairwise_map]
      exact List.pairwise_of_forall fun _ _ => Nat.le_refl i
    · intro issue own later after
      obtain ⟨m, -, rfl⟩ := List.mem_map.1 own
      exact Nat.le_of_succ_le (le_row_of_mem_issuesFrom after)

private theorem filter_issuesFrom_cons (syn : Params.Syntax) (known seen : List String) (i : Nat)
    (row : Row) (rest : List Row) :
    (issuesFrom syn known seen i (row :: rest)).filter Issue.isWarning =
      ((rowWarnings seen row).map fun m => ⟨i, row.id, m.1, m.2⟩) ++
        (issuesFrom syn known (nextSeen seen row) (i + 1) rest).filter Issue.isWarning := by
  rw [issuesFrom, List.filter_append, List.filter_map, ← filter_rowRemarks syn known]
  rfl

private theorem filter_issuesFrom_congr {rows' : List Row}
    (h : List.Forall₂ (fun row row' => ∃ parameters, row' = { row with parameters }) rows rows')
    (syn syn' : Params.Syntax) (known known' seen : List String) (i : Nat) :
    (issuesFrom syn' known' seen i rows').filter Issue.isWarning =
      (issuesFrom syn known seen i rows).filter Issue.isWarning := by
  induction h generalizing seen i with
  | nil => rfl
  | cons same _ ih =>
    obtain ⟨parameters, rfl⟩ := same
    rw [filter_issuesFrom_cons, filter_issuesFrom_cons]
    exact congrArg _ (ih _ _)

private theorem isIdentified_iff :
    isIdentified row = true ↔ row.isEmpty = false ∧ idKey row ≠ "" := by
  rw [isIdentified, idKey, ne_eq, lowered_trimmed_eq_empty_iff, Bool.and_eq_true, Bool.not_eq_true',
    Bool.not_eq_true', Bool.not_eq_true]

private theorem nextSeen_of_isIdentified (h : isIdentified row = true) :
    nextSeen seen row = idKey row :: seen := by
  rw [nextSeen, (isIdentified_iff.1 h).1, if_neg Bool.false_ne_true]

private theorem countP_rowWarnings (i : Nat) :
    ((rowWarnings seen row).map fun m => (⟨i, row.id, m.1, m.2⟩ : Issue)).countP Issue.isRepeat =
      if isIdentified row ∧ idKey row ∈ seen then 1 else 0 := by
  simp only [rowWarnings, isIdentified_iff]
  cases row.isEmpty with
  | true => simp [Issue.isRepeat, (repeatMessage_ne _).symm]
  | false =>
    have flag : ((flagRemarks row).map fun m => (⟨i, row.id, m.1, m.2⟩ : Issue)).countP
        Issue.isRepeat = 0 := by
      rw [flagRemarks]
      split
      · rw [List.map_singleton, List.countP_eq_zero]
        intro issue member
        obtain rfl := List.mem_singleton.1 member
        rw [Issue.isRepeat, Bool.and_eq_true, decide_eq_true_iff]
        exact fun told => flagMessage_ne_repeatMessage _ _ told.2
      · rfl
    simp only [Bool.false_eq_true, if_false, List.map_append, List.countP_append, flag, Nat.add_zero,
      true_and, idRemarks, List.contains_iff_mem]
    split
    · simp [Issue.isRepeat, Issue.isWarning]
    · rfl

private theorem idKeys_cons (row : Row) (rest : List Row) :
    idKeys (row :: rest) = if isIdentified row then idKey row :: idKeys rest else idKeys rest := by
  rw [idKeys, List.filter_cons]
  split
  · rfl
  · rfl

private theorem empty_not_mem_idKeys (rows : List Row) : "" ∉ idKeys rows := by
  intro member
  obtain ⟨row, among, blank⟩ := List.mem_map.1 member
  exact (isIdentified_iff.1 (List.mem_filter.1 among).2).2 blank

private theorem card_idKeys_cons_sdiff (seen : List String) (row : Row) (rest : List Row) :
    ((idKeys (row :: rest)).toFinset \ seen.toFinset).card =
      (if isIdentified row ∧ idKey row ∉ seen then 1 else 0) +
        ((idKeys rest).toFinset \ (nextSeen seen row).toFinset).card := by
  rw [idKeys_cons]
  by_cases identified : isIdentified row = true
  · rw [if_pos identified, nextSeen_of_isIdentified identified, List.toFinset_cons,
      List.toFinset_cons]
    by_cases there : idKey row ∈ seen
    · have among : idKey row ∈ seen.toFinset := List.mem_toFinset.2 there
      rw [if_neg fun new => new.2 there, Finset.insert_sdiff_of_mem _ among,
        Finset.insert_eq_of_mem among, Nat.zero_add]
    · have absent : idKey row ∈ insert (idKey row) (idKeys rest).toFinset \ seen.toFinset := by
        simp [there]
      rw [if_pos ⟨identified, there⟩, ← Finset.card_erase_add_one absent, ← Finset.sdiff_insert,
        Finset.insert_sdiff_insert, Nat.add_comm]
  · rw [if_neg identified, if_neg (mt And.left identified), Nat.zero_add, nextSeen]
    split
    · rfl
    · next counted =>
      -- The identifier is blank, and no identified row has a blank one.
      have blank : idKey row = "" := by
        by_contra named
        exact identified (isIdentified_iff.2 ⟨Bool.eq_false_iff.2 counted, named⟩)
      rw [List.toFinset_cons, blank, Finset.sdiff_insert_of_notMem]
      simpa using empty_not_mem_idKeys rest

/-- Every identified row is one that has a new identifier, or one that is warned of. -/
private theorem countP_issuesFrom (syn : Params.Syntax) (known seen : List String) (i : Nat)
    (rows : List Row) :
    ((issuesFrom syn known seen i rows).filter Issue.isWarning).countP Issue.isRepeat +
      ((idKeys rows).toFinset \ seen.toFinset).card = (idKeys rows).length := by
  induction rows generalizing seen i with
  | nil => simp [issuesFrom, idKeys]
  | cons row rest ih =>
    have later := ih (nextSeen seen row) (i + 1)
    rw [filter_issuesFrom_cons, List.countP_append, countP_rowWarnings, card_idKeys_cons_sdiff,
      idKeys_cons]
    by_cases identified : isIdentified row = true
    · by_cases there : idKey row ∈ seen
      · simp only [identified, there, not_true_eq_false, and_true, and_false, if_true, if_false,
          List.length_cons]
        omega
      · simp only [identified, there, not_false_eq_true, and_true, and_false, if_true, if_false,
          List.length_cons]
        omega
    · simp only [identified, Bool.false_eq_true, false_and, if_false]
      omega

private theorem countP_issues (syn : Params.Syntax) (known : List String) (rows : List Row) :
    (issues syn known rows).countP Issue.isRepeat =
      (rows.filter isIdentified).length - (idKeys rows).toFinset.card := by
  have warned : (issues syn known rows).countP Issue.isRepeat =
      ((issues syn known rows).filter Issue.isWarning).countP Issue.isRepeat := by
    rw [List.countP_filter]
    apply List.countP_congr
    intro issue _
    simp only [Issue.isRepeat, Bool.and_eq_true]
    exact ⟨fun told => ⟨told, told.1⟩, And.left⟩
  have all := countP_issuesFrom syn known [] 1 rows
  rw [List.toFinset_nil, Finset.sdiff_empty, idKeys, List.length_map] at all
  rw [warned, issues, idKeys]
  omega

end Rows

/-- A row at a place is an instruction whose identifier an earlier instruction has. -/
def Repeats (rows : List Row) (place : Nat) (row : Row) : Prop :=
  isIdentified row = true ∧ ∃ earlier ∈ rows.take place, earlier.isEmpty = false ∧
    sameIgnoringCase (trimmed earlier.id) (trimmed row.id) = true

/-- A record of the row has a comment on its flag, wherever it is placed and whatever the variables
are. -/
def Commented (row : Row) : Prop :=
  ∀ (position : Position) (vars : Variables),
    Record.flagComment (vars.substitute row.activation) ∈
      ((Record.ofRow row).place position vars).comments

/-- Findings warn of the row after so many others exactly as they should. -/
structure WarnedOf (r : Runner) (found : List Issue) (rows : List Row) (i : Nat) (row : Row) :
    Prop where
  ignored : blankWarning (i + 1) row ∈ found ↔ r.Ignores row
  alone : r.Ignores row →
    found.filter (fun issue => issue.row = i + 1) = [blankWarning (i + 1) row]
  repeated : repeatWarning (i + 1) row ∈ found ↔ Repeats rows i row
  commented : flagWarning (i + 1) row ∈ found ↔
    row.isEmpty = false ∧ Template.hasPlaceholder row.activation = false ∧ Commented row
  only : ∀ issue ∈ found, issue.row = i + 1 → issue.severity = .warning →
    issue = blankWarning (i + 1) row ∨ issue = repeatWarning (i + 1) row ∨
      issue = flagWarning (i + 1) row

private theorem repeats_iff {i : Nat} :
    Repeats rows i row ↔
      row.isEmpty = false ∧ idKey row ≠ "" ∧ idKey row ∈ (rows.take i).foldl nextSeen [] := by
  rw [mem_foldl_nextSeen, Repeats, isIdentified_iff, and_assoc]
  simp [sameIgnoringCase_iff, idKey]

private theorem commented_iff (plain : Template.hasPlaceholder row.activation = false) :
    Commented row ↔ Activation.parse? row.activation = none := by
  simp only [Commented, Record.comments_place,
    Variables.substitute_of_not_hasPlaceholder plain, List.mem_ite_nil_right,
    Option.isNone_iff_eq_none, List.mem_singleton, and_true]
  exact ⟨fun unread => unread {} {}, fun unread _ _ => unread⟩

section Findings

variable {i : Nat} (here : rows[i]? = some row)
include here

private theorem warning_mem_issues_iff {m : String} :
    (⟨i + 1, row.id, .warning, m⟩ : Issue) ∈ issues syn known rows ↔
      (Severity.warning, m) ∈ rowRemarks syn known ((rows.take i).foldl nextSeen []) row := by
  have place : 1 + i = i + 1 := Nat.add_comm 1 i
  constructor
  · intro member
    obtain ⟨⟨severity, m'⟩, said, same⟩ := (mem_issuesFrom_iff here).1 ⟨member, place.symm⟩
    obtain ⟨-, -, rfl, rfl⟩ := Issue.mk.inj same
    exact said
  · intro said
    obtain ⟨member, -⟩ := (mem_issuesFrom_iff here).2 ⟨_, said, rfl⟩
    rw [place] at member
    exact member

private theorem warnedOf (r : Runner) (syn : Params.Syntax) (known : List String) :
    WarnedOf r (issues syn known rows) rows i row where
  ignored := by
    rw [r.ignores_iff, blankWarning, warning_mem_issues_iff here, warning_mem_rowRemarks]
    simp [(repeatMessage_ne _).symm, (flagMessage_ne _).symm]
  alone ignored := by
    have found : (issuesFrom syn known [] 1 rows).filter (fun issue => issue.row = 1 + i) = _ :=
      filter_issuesFrom here
    rw [Nat.add_comm 1 i, rowRemarks, if_pos (r.ignores_iff.1 ignored)] at found
    exact found
  repeated := by
    rw [repeats_iff, repeatWarning, warning_mem_issues_iff here, warning_mem_rowRemarks]
    simp [repeatMessage_ne, (flagMessage_ne_repeatMessage _ _).symm]
  commented := by
    rw [flagWarning, warning_mem_issues_iff here, warning_mem_rowRemarks]
    simp only [flagMessage_ne, flagMessage_ne_repeatMessage, and_false, false_or, and_true]
    exact and_congr_right fun _ => and_congr_right fun plain => (commented_iff plain).symm
  only issue member place warns := by
    have shifted : issue.row = 1 + i := place.trans (Nat.add_comm i 1)
    obtain ⟨⟨severity, m⟩, said, rfl⟩ := (mem_issuesFrom_iff here).1 ⟨member, shifted⟩
    obtain rfl : severity = .warning := warns
    rw [blankWarning, repeatWarning, flagWarning, Nat.add_comm i 1]
    rcases warning_mem_rowRemarks.1 said with ⟨-, rfl⟩ | ⟨-, ⟨-, rfl⟩ | ⟨-, rfl⟩⟩
    · exact .inl rfl
    · exact .inr (.inl rfl)
    · exact .inr (.inr rfl)

end Findings

/-- The findings are in the order of the rows, and each row is warned of exactly as it should be. -/
theorem warnings_exact (r : Runner) (syn : Params.Syntax) (known : List String) (rows : List Row) :
    let found := issues syn known rows
    found.Pairwise (fun issue later => issue.row ≤ later.row) ∧
      (∀ issue ∈ found, ∃ i row, rows[i]? = some row ∧ issue.row = i + 1) ∧
      (∀ i row, rows[i]? = some row → WarnedOf r found rows i row) ∧
      found.countP Issue.isRepeat =
        (rows.filter isIdentified).length - (idKeys rows).toFinset.card ∧
      ∀ rows', List.Forall₂ (fun row row' => ∃ parameters, row' = { row with parameters }) rows
          rows' →
        ∀ syn' known',
          (issues syn' known' rows').filter Issue.isWarning = found.filter Issue.isWarning := by
  intro found
  refine ⟨issuesFrom_inOrder syn known [] 1 rows, ?_, ?_, countP_issues syn known rows, ?_⟩
  · intro issue member
    obtain ⟨i, row, here, place⟩ := row_of_mem_issuesFrom member
    exact ⟨i, row, here, place.trans (Nat.add_comm 1 i)⟩
  · intro i row here
    exact warnedOf here r syn known
  · intro rows' same syn' known'
    exact filter_issuesFrom_congr same syn syn' known known' [] 1

def warnedRows : List Row :=
  [{ id := "a" }, { id := "A", action := "Comment", parameters := "x" },
    { id := " a", action := "Comment", activation := "maybe" }]

def readableRows : List Row :=
  warnedRows.map fun row => { row with parameters := "x=1" }

theorem warnedRows_warned :
    let found := issues {} ["Comment"] warnedRows
    found.filter (fun issue => issue.row = 1) = [blankWarning 1 { id := "a" }] ∧
      repeatWarning 3 { id := " a" } ∈ found ∧
      flagWarning 3 { id := " a", activation := "maybe" } ∈ found ∧
      found.countP Issue.isRepeat = 1 ∧
      (issues {} [] readableRows).filter Issue.isWarning = found.filter Issue.isWarning := by
  intro found
  obtain ⟨-, -, warned, count, same⟩ := warnings_exact {} {} ["Comment"] warnedRows
  have first := warned 0 { id := "a" } rfl
  have third := warned 2 { id := " a", action := "Comment", activation := "maybe" } rfl
  refine ⟨first.alone (({} : Runner).ignores_iff.2 rfl), third.repeated.2 ?_, third.commented.2 ?_,
    count.trans (by decide +kernel), same readableRows ?_ {} []⟩
  · refine ⟨by decide +kernel, { id := "A", action := "Comment", parameters := "x" }, ?_, rfl, ?_⟩
    · exact List.mem_of_getElem? (show (warnedRows.take 2)[1]? = some _ from rfl)
    · decide +kernel
  · have plain : Template.hasPlaceholder "maybe" = false := by decide +kernel
    exact ⟨rfl, plain, (commented_iff plain).2 (by decide +kernel)⟩
  · exact .cons ⟨_, rfl⟩ (.cons ⟨_, rfl⟩ (.cons ⟨_, rfl⟩ .nil))

end Check
end Runbook
