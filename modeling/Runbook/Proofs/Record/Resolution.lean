import Runbook.Record
import Runbook.Proofs.Params
import Runbook.Proofs.Template
import Runbook.Proofs.Variables

set_option autoImplicit false

/-!
What resolving a record comes to. Its parameters are those of its row, each value substituted and
then expanded on its own, at the same moment; errors are only added, and each is told by what is
wrong with the blob, with a token or with a decision. Expanding makes no decision and unmakes none.
-/
namespace Runbook

namespace DateToken

/-- What a value becomes: a date token that can be expanded is replaced by what it is written
as. -/
def expanded (now : Calendar.Moment) (value : String) : String :=
  match rendered now value with
  | .ok text => text
  | .error _ => value

theorem expanded_of_ok {now : Calendar.Moment} {value text : String}
    (h : rendered now value = .ok text) : expanded now value = text := by
  rw [expanded, h]

private theorem expanded_of_error {now : Calendar.Moment} {value : String} {e : Error}
    (h : rendered now value = .error e) : expanded now value = value := by
  rw [expanded, h]

theorem expanded_of_not_isToken {value : String} (h : isToken value = false)
    (now : Calendar.Moment) : expanded now value = value :=
  expanded_of_error (rendered_of_parse_error (parse_of_not_isToken h) now)

private theorem parse?_expanded (now : Calendar.Moment) (value : String) :
    PolicyAction.parse? (expanded now value) = PolicyAction.parse? value := by
  cases token : isToken value with
  | false => rw [expanded_of_not_isToken token]
  | true =>
    cases written : rendered now value with
    | error e => rw [expanded_of_error written]
    | ok text => rw [expanded_of_ok written, parse?_of_rendered written, parse?_of_isToken token]

end DateToken

namespace Policy

/-- The decision that parameters state under a key, if it is one; left out, it is to go on. -/
def stated? (p : Params) (key : String) : Option PolicyAction :=
  PolicyAction.parse? (p.getD key "")

private theorem stated?_expanded (p : Params) (now : Calendar.Moment) (key : String) :
    stated? (p.mapValues fun _ => DateToken.expanded now) key = stated? p key := by
  simp only [stated?, Params.getD, Params.get?_mapValues]
  cases p.get? key with
  | none => rfl
  | some value => exact DateToken.parse?_expanded now value

theorem ofParams_of_stated {p : Params} {onPass onFail : PolicyAction}
    (pass : stated? p onPassKey = some onPass) (fail : stated? p onFailKey = some onFail) :
    ofParams p = .ok ⟨onPass, onFail⟩ := by
  simp only [stated?] at pass fail
  simp only [ofParams, PolicyAction.parse, pass, fail]
  rfl

theorem ofParams_of_not_stated {p : Params} {key : String} (policy : isPolicyKey key = true)
    (h : stated? p key = none) : ∃ message, ofParams p = .error message := by
  simp only [stated?] at h
  simp only [isPolicyKey, Bool.or_eq_true, beq_iff_eq] at policy
  unfold ofParams PolicyAction.parse
  rcases policy with rfl | rfl
  · rw [h]
    exact ⟨_, rfl⟩
  · rw [h]
    cases PolicyAction.parse? (p.getD onPassKey "") with
    | none => exact ⟨_, rfl⟩
    | some onPass => exact ⟨_, rfl⟩

end Policy

namespace Record

open DateToken (isToken rendered expanded)

def tokenError (key : String) (e : DateToken.Error) : String :=
  "parameter '" ++ key ++ "': " ++ e.message

theorem mem_errors_addError {r : Record} {error noted : String} :
    error ∈ (r.addError noted).errors ↔ error ∈ r.errors ∨ error = noted := by
  unfold addError
  split
  · next last =>
    have there : noted ∈ r.errors := List.mem_of_getLast? last
    constructor
    · exact .inl
    · rintro (member | rfl)
      · exact member
      · exact there
  · exact List.mem_append.trans (or_congr_right List.mem_singleton)

private theorem exception_addError (r : Record) (noted : String) :
    (r.addError noted).exception = r.exception := by
  unfold addError
  split <;> rfl

theorem params_addError (r : Record) (noted : String) : (r.addError noted).params = r.params := by
  unfold addError
  split <;> rfl

private theorem entries_expandTokens (todo : List (String × String)) {done : List (String × String)}
    {r : Record} (split : r.params.entries = done ++ todo) (proper : r.params.Proper)
    (vars : Variables) :
    (r.expandTokens vars (todo.filter fun e => isToken e.2)).1.params.entries =
      done ++ todo.map fun e => (e.1, expanded vars.now e.2) := by
  induction todo generalizing done r vars with
  | nil => exact split
  | cons e todo ih =>
    obtain ⟨key, value⟩ := e
    -- The first of them is done once it has become what it is to be.
    have next {r' : Record} {vars' : Variables} {value' : String}
        (becomes : value' = expanded vars.now value) (now : vars'.now = vars.now)
        (split' : r'.params.entries = done ++ (key, value') :: todo) :
        (r'.expandTokens vars' (todo.filter fun e => isToken e.2)).1.params.entries =
          done ++ ((key, value) :: todo).map fun e => (e.1, expanded vars.now e.2) := by
      have keys : r'.params.keys = r.params.keys := by
        simp only [Params.keys, split, split', List.map_append, List.map_cons]
      have further : r'.params.entries = (done ++ [(key, value')]) ++ todo := by
        rw [split', List.append_cons]
      rw [ih further (proper.of_keys keys), now, becomes, List.append_assoc]
      rfl
    cases token : isToken value with
    | false =>
      rw [List.filter_cons_of_neg (by simp [token])]
      exact next (DateToken.expanded_of_not_isToken token _).symm rfl split
    | true =>
      rw [List.filter_cons_of_pos (by exact token)]
      simp only [expandTokens]
      rcases vars.expandDate_cases value with ⟨fault, fails, written, -⟩ | ⟨x, m, works, written, -⟩
      · rw [fails]
        refine next (DateToken.expanded_of_error written).symm rfl ?_
        rw [params_addError, split]
      · rw [works]
        refine next (DateToken.expanded_of_ok written).symm (vars.now_overlaid _) ?_
        have member : key ∈ r.params.keys := by simp [Params.keys, split]
        have fresh : key ∉ done.map (·.1) := by
          have distinct := proper.distinct
          simp only [Params.keys, split, List.map_append, List.map_cons] at distinct
          exact fun earlier =>
            (List.nodup_append.1 distinct).2.2 key earlier key List.mem_cons_self rfl
        simp only [Params.set, proper.normal key member, split]
        exact Params.setEntry_append fresh value x.value todo

private theorem params_expandTokens {r : Record} (proper : r.params.Proper) (vars : Variables) :
    (r.expandTokens vars (r.params.entries.filter fun e => isToken e.2)).1.params =
      r.params.mapValues fun _ => expanded vars.now :=
  congrArg Params.mk (entries_expandTokens r.params.entries (List.nil_append _).symm proper vars)

private theorem mem_errors_expandTokens {tokens : List (String × String)} {r : Record}
    {vars : Variables}
    {error : String} :
    error ∈ (r.expandTokens vars tokens).1.errors ↔
      error ∈ r.errors ∨ ∃ e ∈ tokens, ∃ fault, rendered vars.now e.2 = .error fault ∧
        error = tokenError e.1 fault := by
  induction tokens generalizing r vars with
  | nil => simp [expandTokens]
  | cons e tokens ih =>
    simp only [expandTokens]
    rcases vars.expandDate_cases e.2 with ⟨fault, fails, written, -⟩ | ⟨x, m, works, written, -⟩
    · rw [fails]
      simp only [ih, mem_errors_addError, List.exists_mem_cons_iff, written, Except.error.injEq,
        exists_eq_left', or_assoc]
      rfl
    · rw [works]
      simp only [ih, Variables.now_overlaid, List.exists_mem_cons_iff, written, reduceCtorEq, false_and,
        exists_false, false_or]

private theorem exception_expandTokens (tokens : List (String × String)) (r : Record)
    (vars : Variables) :
    (r.expandTokens vars tokens).1.exception = r.exception := by
  induction tokens generalizing r vars with
  | nil => rfl
  | cons e tokens ih =>
    simp only [expandTokens]
    split
    · rw [ih]
    · rw [ih, exception_addError]

private theorem vars_expandTokens (tokens : List (String × String)) (r : Record)
    (vars : Variables) :
    (r.expandTokens vars tokens).2 =
      vars.overlaid (DateToken.bundles vars.now (tokens.map (·.2))) := by
  induction tokens generalizing r vars with
  | nil => rfl
  | cons e tokens ih =>
    simp only [expandTokens, List.map_cons]
    rcases vars.expandDate_cases e.2 with ⟨fault, fails, -, moment⟩ | ⟨x, m, works, -, moment⟩
    · rw [fails, DateToken.bundles_cons_of_none moment]
      exact ih _ vars
    · rw [works, DateToken.bundles_cons_of_some moment, Variables.overlaid_append]
      dsimp only
      rw [ih, Variables.now_overlaid]

def readParamsD (row : Row) (syn : Params.Syntax) (vars : Variables) : Params :=
  match readParams row syn vars with
  | .ok p => p
  | .error _ => {}

theorem readParams_of_parse {row : Row} {syn : Params.Syntax} {p : Params}
    (h : Params.parse syn row.parameters = .ok p) (vars : Variables) :
    readParams row syn vars = .ok (p.mapValues fun _ value => vars.substitute value) := by
  rw [readParams, h]
  rfl

theorem readParams_of_parse_error {row : Row} {syn : Params.Syntax} {e : Params.Error}
    (h : Params.parse syn row.parameters = .error e) (vars : Variables) :
    readParams row syn vars = .error e := by
  rw [readParams, h]
  rfl

theorem readParamsD_proper (row : Row) (syn : Params.Syntax) (vars : Variables) :
    (readParamsD row syn vars).Proper := by
  cases read : Params.parse syn row.parameters with
  | error e =>
    rw [readParamsD, readParams_of_parse_error read]
    exact Params.proper_empty
  | ok p =>
    rw [readParamsD, readParams_of_parse read]
    exact (Params.parse_proper read).mapValues _

private theorem params_readPolicy (r : Record) : r.readPolicy.params = r.params := by
  unfold readPolicy
  split
  · rfl
  · exact params_addError r _

private theorem mem_errors_readPolicy {r : Record} {error : String} :
    error ∈ r.readPolicy.errors ↔
      error ∈ r.errors ∨ Policy.ofParams r.params = .error error := by
  unfold readPolicy
  split
  · next read => simp [read]
  · next read =>
    rw [read, Except.error.injEq, eq_comm (b := error)]
    exact mem_errors_addError

private theorem exception_readPolicy (r : Record) : r.readPolicy.exception = r.exception := by
  unfold readPolicy
  split
  · rfl
  · exact exception_addError r _

section Resolve

variable (r : Record) (syn : Params.Syntax) (vars : Variables)

def withBlob : Record :=
  match readParams r.row syn vars with
  | .ok params => { r with params }
  | .error e => { r.addError ("invalid parameters: " ++ e.message) with params := {} }

/-- Resolving in three stages: the blob is read, its tokens are expanded, the decisions are read. -/
theorem resolve_stages :
    r.resolve syn vars =
      ((r.withBlob syn vars).expandTokens vars
        ((r.withBlob syn vars).params.entries.filter fun e => isToken e.2)).map readPolicy id := by
  cases read : readParams r.row syn vars with
  | ok params => simp only [resolve, withBlob, read, Prod.map, id]
  | error e => simp only [resolve, withBlob, read, Prod.map, id]

theorem resolve_eq :
    (r.resolve syn vars).1 =
      ((r.withBlob syn vars).expandTokens vars
        ((r.withBlob syn vars).params.entries.filter fun e => isToken e.2)).1.readPolicy := by
  rw [resolve_stages, Prod.map_fst]

theorem params_withBlob : (r.withBlob syn vars).params = readParamsD r.row syn vars := by
  unfold withBlob readParamsD
  split <;> rfl

private theorem mem_errors_withBlob {error : String} :
    error ∈ (r.withBlob syn vars).errors ↔
      error ∈ r.errors ∨ ∃ e, readParams r.row syn vars = .error e ∧
        error = "invalid parameters: " ++ e.message := by
  unfold withBlob
  split
  · next read => simp [read]
  · next e read =>
    simp only [read, Except.error.injEq, exists_eq_left']
    exact mem_errors_addError

private theorem exception_withBlob : (r.withBlob syn vars).exception = r.exception := by
  unfold withBlob
  split
  · rfl
  · exact exception_addError r _

theorem params_resolve :
    (r.resolve syn vars).1.params =
      (readParamsD r.row syn vars).mapValues fun _ => expanded vars.now := by
  have proper : (r.withBlob syn vars).params.Proper := by
    rw [params_withBlob]
    exact readParamsD_proper _ _ _
  rw [resolve_eq, params_readPolicy, params_expandTokens proper, params_withBlob]

theorem vars_resolve :
    (r.resolve syn vars).2 = vars.overlaid (DateToken.bundles vars.now
      ((readParamsD r.row syn vars).entries.map (·.2))) := by
  have tokens (l : List (String × String)) :
      (l.filter fun e => isToken e.2).map (·.2) = (l.map (·.2)).filter isToken := by
    rw [List.filter_map]
    rfl
  rw [resolve_stages, Prod.map_snd, id, vars_expandTokens, tokens,
    DateToken.bundles_filter_isToken, params_withBlob]

/-- The errors of a resolved record: those it had, and those of its blob, its tokens and its
decisions. -/
theorem mem_errors_resolve {error : String} :
    error ∈ (r.resolve syn vars).1.errors ↔
      (error ∈ r.errors ∨ ∃ e, readParams r.row syn vars = .error e ∧
        error = "invalid parameters: " ++ e.message) ∨
      (∃ e ∈ (readParamsD r.row syn vars).entries, isToken e.2 = true ∧
        ∃ fault, rendered vars.now e.2 = .error fault ∧ error = tokenError e.1 fault) ∨
      Policy.ofParams (r.resolve syn vars).1.params = .error error := by
  rw [resolve_eq, mem_errors_readPolicy, params_readPolicy, mem_errors_expandTokens,
    mem_errors_withBlob, params_withBlob, or_assoc]
  simp only [List.mem_filter, and_assoc]

theorem exception_resolve : (r.resolve syn vars).1.exception = r.exception := by
  rw [resolve_eq, exception_readPolicy, exception_expandTokens, exception_withBlob]

theorem policy_resolve :
    (r.resolve syn vars).1.policy =
      match Policy.ofParams (r.resolve syn vars).1.params with
      | .ok policy => policy
      | .error _ => {} := by
  rw [resolve_eq, params_readPolicy, readPolicy]
  split <;> simp [*]

theorem stated?_resolve (key : String) :
    Policy.stated? (r.resolve syn vars).1.params key =
      Policy.stated? (readParamsD r.row syn vars) key := by
  rw [params_resolve, Policy.stated?_expanded]

end Resolve

end Record
end Runbook
