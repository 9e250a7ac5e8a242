import Runbook.Check
import Runbook.Proofs.Action.Registry
import Runbook.Proofs.Params
import Runbook.Proofs.Text.Blank

set_option autoImplicit false

/-!
What the check finds. An error is found in a row exactly when the row is an instruction and has one
of four faults: its action is not known, its blob cannot be read, one of its parameters should be a
decision and is none, or one is a date token that cannot be read. The rows before it do not matter.
-/
namespace Runbook.Check

open Text

/-- What makes an instruction unfit to be carried out, whatever the variables are. -/
inductive Fault (syn : Params.Syntax) (known : List String) (row : Row) : Prop
  | action (unknown : isKnown known row.actionName = false)
  | blob (e : Params.Error) (parsed : Params.parse syn row.parameters = .error e)
  | policy (p : Params) (e : String × String) (parsed : Params.parse syn row.parameters = .ok p)
      (member : e ∈ p.entries) (plain : Template.hasPlaceholder e.2 = false)
      (key : isPolicyKey e.1 = true) (invalid : PolicyAction.parse? e.2 = none)
  | token (p : Params) (e : String × String) (parsed : Params.parse syn row.parameters = .ok p)
      (member : e ∈ p.entries) (plain : Template.hasPlaceholder e.2 = false)
      (isToken : DateToken.isToken e.2 = true) (fault : DateToken.Error)
      (invalid : DateToken.parse e.2 = .error fault)

variable {syn : Params.Syntax} {known seen : List String} {row : Row}

private theorem error_mem_actionRemarks :
    (∃ m, (Severity.error, m) ∈ actionRemarks known row) ↔
      isKnown known row.actionName = false := by
  unfold actionRemarks
  cases isKnown known row.actionName with
  | true => simp
  | false => simp

theorem error_not_mem_idRemarks (m : String) : (Severity.error, m) ∉ idRemarks seen row := by
  unfold idRemarks
  split <;> simp

theorem error_not_mem_flagRemarks (m : String) : (Severity.error, m) ∉ flagRemarks row := by
  unfold flagRemarks
  split <;> simp

private theorem error_mem_policyRemarks {key value : String} :
    (∃ m, (Severity.error, m) ∈ policyRemarks key value) ↔
      isPolicyKey key = true ∧ PolicyAction.parse? value = none := by
  unfold policyRemarks PolicyAction.parse
  split
  · next policy =>
    cases PolicyAction.parse? value with
    | none => simp [policy]
    | some a => simp
  · next other => simp [other]

private theorem error_mem_tokenRemarks (key : String) {value : String} :
    (∃ m, (Severity.error, m) ∈ tokenRemarks key value) ↔
      DateToken.isToken value = true ∧ ∃ fault, DateToken.parse value = .error fault := by
  unfold tokenRemarks
  split
  · next token =>
    cases DateToken.parse value with
    | error e => simp [token]
    | ok t => simp
  · next other => simp [other]

private theorem error_mem_paramRemarks {e : String × String} :
    (∃ m, (Severity.error, m) ∈ paramRemarks e) ↔ Template.hasPlaceholder e.2 = false ∧
      ((isPolicyKey e.1 = true ∧ PolicyAction.parse? e.2 = none) ∨
        (DateToken.isToken e.2 = true ∧ ∃ fault, DateToken.parse e.2 = .error fault)) := by
  rw [← error_mem_policyRemarks, ← error_mem_tokenRemarks e.1, ← exists_or, paramRemarks]
  cases Template.hasPlaceholder e.2 with
  | true => simp
  | false => simp

private theorem error_mem_blobRemarks :
    (∃ m, (Severity.error, m) ∈ blobRemarks syn row) ↔
      (∃ e, Params.parse syn row.parameters = .error e) ∨
        ∃ p, Params.parse syn row.parameters = .ok p ∧
          ∃ e ∈ p.entries, ∃ m, (Severity.error, m) ∈ paramRemarks e := by
  unfold blobRemarks
  cases Params.parse syn row.parameters with
  | error e => simp
  | ok p =>
    simp only [List.mem_flatMap, reduceCtorEq, exists_false, false_or, Except.ok.injEq,
      exists_eq_left']
    constructor
    · rintro ⟨m, e, member, said⟩
      exact ⟨e, member, m, said⟩
    · rintro ⟨e, member, m, said⟩
      exact ⟨m, e, member, said⟩

private theorem error_mem_rowRemarks (seen : List String) :
    (∃ m, (Severity.error, m) ∈ rowRemarks syn known seen row) ↔
      row.isEmpty = false ∧ Fault syn known row := by
  unfold rowRemarks
  cases row.isEmpty with
  | true => simp
  | false =>
    simp only [Bool.false_eq_true, if_false, List.mem_append, error_not_mem_idRemarks,
      error_not_mem_flagRemarks, or_false, exists_or, error_mem_actionRemarks,
      error_mem_blobRemarks, error_mem_paramRemarks, true_and]
    constructor
    · rintro (unknown | ⟨e, parsed⟩ | ⟨p, parsed, e, member, plain, policy | token⟩)
      · exact .action unknown
      · exact .blob e parsed
      · exact .policy p e parsed member plain policy.1 policy.2
      · obtain ⟨isToken, fault, invalid⟩ := token
        exact .token p e parsed member plain isToken fault invalid
    · rintro (unknown | ⟨e, parsed⟩ | ⟨p, e, parsed, member, plain, key, invalid⟩ |
        ⟨p, e, parsed, member, plain, isToken, fault, invalid⟩)
      · exact .inl unknown
      · exact .inr (.inl ⟨e, parsed⟩)
      · exact .inr (.inr ⟨p, parsed, e, member, plain, .inl ⟨key, invalid⟩⟩)
      · exact .inr (.inr ⟨p, parsed, e, member, plain, .inr ⟨isToken, fault, invalid⟩⟩)

theorem row_of_mem_issuesFrom {rows : List Row} {i : Nat} {issue : Issue}
    (h : issue ∈ issuesFrom syn known seen i rows) :
    ∃ j row, rows[j]? = some row ∧ issue.row = i + j := by
  induction rows generalizing seen i with
  | nil => exact nomatch h
  | cons first rest ih =>
    rcases List.mem_append.1 h with own | later
    · obtain ⟨m, -, rfl⟩ := List.mem_map.1 own
      exact ⟨0, first, rfl, rfl⟩
    · obtain ⟨j, row, here, place⟩ := ih later
      exact ⟨j + 1, row, here, by omega⟩

theorem le_row_of_mem_issuesFrom {rows : List Row} {i : Nat} {issue : Issue}
    (h : issue ∈ issuesFrom syn known seen i rows) : i ≤ issue.row := by
  obtain ⟨j, row, -, place⟩ := row_of_mem_issuesFrom h
  rw [place]
  exact Nat.le_add_right i j

theorem filter_issuesFrom {rows : List Row} {start i : Nat} (here : rows[i]? = some row) :
    (issuesFrom syn known seen start rows).filter (fun issue => issue.row = start + i) =
      (rowRemarks syn known ((rows.take i).foldl nextSeen seen) row).map fun m =>
        ⟨start + i, row.id, m.1, m.2⟩ := by
  induction rows generalizing seen start i with
  | nil => exact nomatch here
  | cons first rest ih =>
    rw [issuesFrom, List.filter_append]
    cases i with
    | zero =>
      obtain rfl := Option.some.inj here
      have later : (issuesFrom syn known (nextSeen seen first) (start + 1) rest).filter
          (fun issue => issue.row = start + 0) = [] := by
        rw [List.filter_eq_nil_iff]
        intro issue member
        have after := le_row_of_mem_issuesFrom member
        simp only [decide_eq_true_eq]
        omega
      rw [later, List.append_nil]
      apply List.filter_eq_self.2
      intro issue member
      obtain ⟨m, -, rfl⟩ := List.mem_map.1 member
      exact decide_eq_true rfl
    | succ i =>
      have own : ((rowRemarks syn known seen first).map fun m =>
          (⟨start, first.id, m.1, m.2⟩ : Issue)).filter
            (fun issue => issue.row = start + (i + 1)) = [] := by
        rw [List.filter_eq_nil_iff]
        intro issue member
        obtain ⟨m, -, rfl⟩ := List.mem_map.1 member
        simp
      rw [own, List.nil_append, ← Nat.add_assoc, Nat.add_right_comm]
      exact ih here

theorem mem_issuesFrom_iff {rows : List Row} {start i : Nat} (here : rows[i]? = some row)
    {issue : Issue} :
    issue ∈ issuesFrom syn known seen start rows ∧ issue.row = start + i ↔
      ∃ m ∈ rowRemarks syn known ((rows.take i).foldl nextSeen seen) row,
        issue = ⟨start + i, row.id, m.1, m.2⟩ := by
  have placed : issue ∈ (issuesFrom syn known seen start rows).filter
      (fun issue => issue.row = start + i) ↔ _ := List.mem_filter
  rw [decide_eq_true_iff] at placed
  rw [← placed, filter_issuesFrom here, List.mem_map]
  simp only [eq_comm]

theorem error_mem_issuesFrom {rows : List Row} {start i : Nat} (here : rows[i]? = some row) :
    (∃ issue ∈ issuesFrom syn known seen start rows,
        issue.row = start + i ∧ issue.severity = .error) ↔
      row.isEmpty = false ∧ Fault syn known row := by
  rw [← error_mem_rowRemarks ((rows.take i).foldl nextSeen seen)]
  constructor
  · rintro ⟨issue, member, place, severe⟩
    obtain ⟨⟨severity, m⟩, said, rfl⟩ := (mem_issuesFrom_iff here).1 ⟨member, place⟩
    obtain rfl : severity = .error := severe
    exact ⟨m, said⟩
  · rintro ⟨m, said⟩
    obtain ⟨member, place⟩ := (mem_issuesFrom_iff here).2 ⟨_, said, rfl⟩
    exact ⟨_, member, place, rfl⟩

/-- The actions of a registry are known to the check exactly when they are found in it. -/
theorem isKnown_iff {actions : List Action} (given : actions ≠ []) (row : Row) :
    isKnown (Registry.ofList actions).names row.actionName = true ↔
      ((Registry.ofList actions).find? row.actionName).isSome = true := by
  rw [Registry.find?_isSome_iff (Registry.named_ofList actions), isKnown, Bool.or_eq_true,
    List.any_eq_true, Row.actionName, trimmed_trimmed]
  have named := Registry.names_ofList_ne_nil given
  simp [named]

end Runbook.Check
