import Runbook.Proofs.Params.Blob
import Runbook.Proofs.Record.Resolution
import Runbook.Proofs.Run.Step
import Runbook.Proofs.Template.Separators

set_option autoImplicit false

/-!
The parameters of a record beside the blob of its row. The blob alone says which parameters there
are; variables and dates only give them values. What a value is substituted to stands so in the blob
that is reported with the record, as long as the delimiters of blobs stand in no placeholder.
-/
namespace Runbook

open Text

/-- Delimiters that stand in no placeholder. -/
def Params.Syntax.Apart (syn : Params.Syntax) : Prop :=
  ∀ c ∈ syn.delimiter :: syn.validDelimiters.toList, Template.separates c = true

instance (syn : Params.Syntax) : Decidable syn.Apart :=
  List.decidableBAll (fun c => Template.separates c = true) _

private theorem Params.Syntax.Apart.delimiterOf {syn : Params.Syntax} (h : syn.Apart)
    (blob : String) :
    Template.separates (Params.delimiterOf syn blob) = true := by
  apply h
  rw [Params.delimiterOf, Params.delimited]
  split
  · split
    · next listed => exact List.mem_cons_of_mem _ (List.contains_iff_mem.1 listed)
    · exact List.mem_cons_self
  · exact List.mem_cons_self

namespace Record

open DateToken (expanded)

theorem parametersText_place (row : Row) (position : Position) (vars : Variables) :
    ((ofRow row).place position vars).parametersText = vars.substitute row.parameters := by
  simp only [place]
  split <;> rfl

/-- What is reported of parameters is what is read of them, when delimiters stand in no placeholder.
-/
theorem reported_parameters_agree {syn : Params.Syntax} (apart : syn.Apart) (vars : Variables) :
    (∀ blob, let d := Params.delimiterOf syn blob
      vars.substitute blob =
        joined (String.singleton d) ((piecesAt d blob).map vars.substitute)) ∧
    (∀ key value, vars.substitute (key ++ "=" ++ value) =
      vars.substitute key ++ "=" ++ vars.substitute value) ∧
    ∀ (row : Row) (position : Position) (p : Params), Params.parse syn row.parameters = .ok p →
      let between := String.singleton (Params.delimiterOf syn row.parameters)
      let pieces := Params.pieces syn row.parameters
      let stated := pieces.filter fun piece => !isBlankText piece
      let record := (ofRow row).place position vars
      ∃ lead, ∃ ws : List Params.Written,
        row.parameters = lead ++ joined between pieces ∧
        record.parametersText = lead ++ joined between (pieces.map vars.substitute) ∧
        stated = ws.map Params.Written.text ∧
        stated.map vars.substitute =
          ws.map (fun w => vars.substitute w.key ++ "=" ++ vars.substitute w.value) ∧
        (record.withBlob syn vars).params.entries =
          ws.map (fun w => (Params.normalKey w.key, vars.substitute w.value)) ∧
        (record.resolve syn vars).1.params.entries =
          ws.map fun w => (Params.normalKey w.key, expanded vars.now (vars.substitute w.value)) := by
  have whole (blob : String) : vars.substitute blob =
      joined (String.singleton (Params.delimiterOf syn blob))
        ((piecesAt (Params.delimiterOf syn blob) blob).map vars.substitute) := by
    have pieces := Template.render_joined (apart.delimiterOf blob) vars.store.get?
      (piecesAt (Params.delimiterOf syn blob) blob)
    rw [joined_piecesAt] at pieces
    exact pieces
  have parameter (key value : String) : vars.substitute (key ++ "=" ++ value) =
      vars.substitute key ++ "=" ++ vars.substitute value :=
    Template.render_append_singleton (d := '=') (by decide) vars.store.get? key value
  refine ⟨whole, parameter, fun row position p parsed => ?_⟩
  intro between pieces stated record
  obtain ⟨lead, blob, separators⟩ := Params.exists_lead syn row.parameters
  obtain ⟨ws, written, entries⟩ := Params.written_of_parse parsed
  have here : record.row = row := (Run.place_placed row position vars).row
  have read : readParamsD record.row syn vars =
      ⟨ws.map fun w => (Params.normalKey w.key, vars.substitute w.value)⟩ := by
    rw [here, readParamsD, readParams_of_parse parsed, Params.mapValues, entries, List.map_map]
    rfl
  refine ⟨lead, ws, blob, ?_, written, ?_, ?_, ?_⟩
  · -- The beginning of a blob holds nothing that could open or close a placeholder.
    have copied : ∀ c ∈ lead.toList, Template.separates c = true := fun c member =>
      (separators c member).elim Template.separates_of_isBlank
        fun same => same ▸ apart.delimiterOf row.parameters
    calc record.parametersText
        = vars.substitute (lead ++ joined between pieces) := by
          rw [parametersText_place, ← blob]
      _ = lead ++ vars.substitute (joined between pieces) :=
          Template.render_append_of_separates vars.store.get? copied _
      _ = lead ++ joined between (pieces.map vars.substitute) := by
          rw [Variables.substitute, Template.render_joined (apart.delimiterOf row.parameters)]
          rfl
  · change (pieces.filter _).map vars.substitute = _
    rw [written, List.map_map]
    exact List.map_congr_left fun w _ => parameter w.key w.value
  · rw [params_withBlob, read]
  · rw [params_resolve, read, Params.mapValues, List.map_map]
    rfl

def bracedRow : Row :=
  { id := "braced", action := "Comment", parameters := " |a=\x7bx|y\x7d;b=\x7bu\x7d| |\x7bu\x7d=1=\x7bU\x7d" }

def twoInOne : Variables :=
  ({} : Variables).set "u" "v|OnPass=quitsession"

theorem bracedRow_agrees :
    ({} : Params.Syntax).Apart ∧
    (∃ p, Params.parse {} bracedRow.parameters = .ok p ∧
      p.keys = ["a", "y\x7d;b", "\x7bu\x7d"]) ∧
    Params.pieces {} bracedRow.parameters =
      ["a=\x7bx", "y\x7d;b=\x7bu\x7d", " ", "\x7bu\x7d=1=\x7bU\x7d"] ∧
    ∃ lead, ((ofRow bracedRow).place {} twoInOne).parametersText =
      lead ++ joined (String.singleton '|')
        ((Params.pieces {} bracedRow.parameters).map twoInOne.substitute) := by
  have apart : ({} : Params.Syntax).Apart := by decide +kernel
  have parsed : ∃ p, Params.parse {} bracedRow.parameters = .ok p ∧
      p.keys = ["a", "y\x7d;b", "\x7bu\x7d"] := by
    refine ⟨⟨[("a", "\x7bx"), ("y\x7d;b", "\x7bu\x7d"), ("\x7bu\x7d", "1=\x7bU\x7d")]⟩, ?_, rfl⟩
    decide +kernel
  have delimiter : Params.delimiterOf {} bracedRow.parameters = '|' := by decide +kernel
  refine ⟨apart, parsed, by decide +kernel, ?_⟩
  obtain ⟨p, ok, -⟩ := parsed
  obtain ⟨-, -, agree⟩ := reported_parameters_agree apart twoInOne
  obtain ⟨lead, ws, -, reported, -⟩ := agree bracedRow {} p ok
  rw [delimiter] at reported
  exact ⟨lead, reported⟩

private theorem syntaxError_ne_tokenError (text key : String) (e : DateToken.Error) :
    "invalid parameters: " ++ text ≠ tokenError key e := by
  have differ (rest : String) : "invalid parameters: " ++ text ≠ "parameter '" ++ rest := by
    intro same
    have characters := congrArg String.toList same
    simp at characters
  intro same
  refine differ (key ++ "': " ++ e.message) (same.trans ?_)
  simp only [tokenError, String.append_assoc]

private theorem syntaxError_ne_invalidMessage (text s : String) :
    "invalid parameters: " ++ text ≠ PolicyAction.invalidMessage s := by
  have differ (rest : String) :
      "invalid parameters: " ++ text ≠ "invalid post-test policy '" ++ rest := by
    intro same
    have characters := congrArg String.toList same
    simp at characters
  intro same
  exact differ _ (same.trans (String.append_assoc ..))

end Record

private theorem PolicyAction.parse_error {s message : String} (h : parse s = .error message) :
    message = invalidMessage s := by
  unfold parse at h
  split at h
  · cases h
  · exact (Except.error.inj h).symm

namespace Policy

private theorem ofParams_error {p : Params} {message : String} (h : ofParams p = .error message) :
    ∃ s, message = PolicyAction.invalidMessage s := by
  cases pass : PolicyAction.parse (p.getD onPassKey "") with
  | error fault =>
    simp only [ofParams, pass, bind, Except.bind, Except.error.injEq] at h
    exact ⟨_, h ▸ PolicyAction.parse_error pass⟩
  | ok onPass =>
    cases fail : PolicyAction.parse (p.getD onFailKey "") with
    | error fault =>
      simp only [ofParams, pass, fail, bind, Except.bind, Except.error.injEq] at h
      exact ⟨_, h ▸ PolicyAction.parse_error fail⟩
    | ok onFail =>
      simp only [ofParams, pass, fail, bind, Except.bind] at h
      cases h

private theorem stated?_of_ofParams {p : Params} {policy : Policy} (h : ofParams p = .ok policy) :
    stated? p onPassKey = some policy.onPass ∧ stated? p onFailKey = some policy.onFail := by
  cases pass : stated? p onPassKey with
  | none =>
    obtain ⟨message, fails⟩ := ofParams_of_not_stated (by decide) pass
    exact nomatch h.symm.trans fails
  | some onPass =>
    cases fail : stated? p onFailKey with
    | none =>
      obtain ⟨message, fails⟩ := ofParams_of_not_stated (by decide) fail
      exact nomatch h.symm.trans fails
    | some onFail =>
      obtain rfl := Except.ok.inj (h.symm.trans (ofParams_of_stated pass fail))
      exact ⟨rfl, rfl⟩

theorem ofParams_congr {p q : Params} (same : ∀ key, p.get? key = q.get? key) :
    ofParams p = ofParams q := by
  simp only [ofParams, Params.getD, same]

private theorem stated?_of_not_mem {p : Params} (proper : p.Proper) {key : String}
    (absent : lowered key ∉ p.keys) : stated? p key = some .proceed := by
  rw [stated?, Params.getD, proper.get?_eq_none_iff.2 absent]
  decide

end Policy

namespace Params

def ofBlob (syn : Syntax) (blob : String) : Params :=
  match parse syn blob with
  | .ok p => p
  | .error _ => {}

theorem ofBlob_of_parse {syn : Syntax} {blob : String} {p : Params}
    (h : parse syn blob = .ok p) : ofBlob syn blob = p := by
  rw [ofBlob, h]

theorem ofBlob_proper (syn : Syntax) (blob : String) : (ofBlob syn blob).Proper := by
  cases read : parse syn blob with
  | ok p =>
    rw [ofBlob_of_parse read]
    exact parse_proper read
  | error e =>
    rw [ofBlob, read]
    exact proper_empty

end Params

namespace Record

open DateToken (expanded)

theorem readParamsD_eq (row : Row) (syn : Params.Syntax) (vars : Variables) :
    readParamsD row syn vars =
      (Params.ofBlob syn row.parameters).mapValues fun _ value => vars.substitute value := by
  cases read : Params.parse syn row.parameters with
  | ok p => simp only [readParamsD, readParams_of_parse read, Params.ofBlob, read]
  | error e =>
    simp only [readParamsD, readParams_of_parse_error read, Params.ofBlob, read]
    rfl

section Written

variable {r : Record} {row : Row} (here : r.row = row) (syn : Params.Syntax) (vars : Variables)

include here

theorem params_resolve_eq :
    (r.resolve syn vars).1.params =
      ((Params.ofBlob syn row.parameters).mapValues fun _ value => vars.substitute value).mapValues
        fun _ => expanded vars.now := by
  rw [params_resolve, readParamsD_eq, here]

private theorem keys_resolve :
    (r.resolve syn vars).1.params.keys = (Params.ofBlob syn row.parameters).keys := by
  rw [params_resolve_eq here, Params.keys_mapValues, Params.keys_mapValues]

theorem entries_resolve :
    (r.resolve syn vars).1.params.entries = (Params.ofBlob syn row.parameters).entries.map
      fun e => (e.1, expanded vars.now (vars.substitute e.2)) := by
  rw [params_resolve_eq here, Params.mapValues, Params.mapValues, List.map_map]
  rfl

theorem vars_resolve_eq :
    (r.resolve syn vars).2 = vars.overlaid (DateToken.bundles vars.now
      ((Params.ofBlob syn row.parameters).entries.map fun e => vars.substitute e.2)) := by
  rw [vars_resolve, readParamsD_eq, here, Params.mapValues, List.map_map]
  rfl

private theorem stated?_of_not_mem {key : String}
    (absent : lowered key ∉ (Params.ofBlob syn row.parameters).keys) :
    Policy.stated? (r.resolve syn vars).1.params key = some .proceed := by
  rw [stated?_resolve]
  refine Policy.stated?_of_not_mem (readParamsD_proper _ _ _) ?_
  rw [readParamsD_eq, Params.keys_mapValues, here]
  exact absent

private theorem proceeds_of_not_mem :
    (onPassKey ∉ (Params.ofBlob syn row.parameters).keys →
      (r.resolve syn vars).1.policy.onPass = .proceed) ∧
    (onFailKey ∉ (Params.ofBlob syn row.parameters).keys →
      (r.resolve syn vars).1.policy.onFail = .proceed) := by
  rw [policy_resolve]
  split
  · next policy decided =>
    obtain ⟨pass, fail⟩ := Policy.stated?_of_ofParams decided
    constructor
    · intro absent
      exact Option.some.inj (pass.symm.trans (stated?_of_not_mem here syn vars absent))
    · intro absent
      exact Option.some.inj (fail.symm.trans (stated?_of_not_mem here syn vars absent))
  · exact ⟨fun _ => rfl, fun _ => rfl⟩

private theorem syntaxError_mem_iff (clean : r.errors = []) (text : String) :
    "invalid parameters: " ++ text ∈ (r.resolve syn vars).1.errors ↔
      ∃ e, Params.parse syn row.parameters = .error e ∧ text = e.message := by
  have unread : (∃ e, readParams row syn vars = .error e ∧
      "invalid parameters: " ++ text = "invalid parameters: " ++ e.message) ↔
      ∃ e, Params.parse syn row.parameters = .error e ∧ text = e.message := by
    cases read : Params.parse syn row.parameters with
    | ok p => simp [readParams_of_parse read]
    | error e => simp [readParams_of_parse_error read]
  rw [mem_errors_resolve, clean, here, unread]
  constructor
  · rintro ((old | found) | ⟨e, -, -, fault, -, same⟩ | undecided)
    · exact nomatch old
    · exact found
    · exact absurd same (syntaxError_ne_tokenError _ _ _)
    · obtain ⟨s, same⟩ := Policy.ofParams_error undecided
      exact absurd same (syntaxError_ne_invalidMessage _ _)
  · exact fun found => .inl (.inr found)

end Written

/-- The record of a row, placed with some variables and resolved with others. -/
def resolvedOf (row : Row) (syn : Params.Syntax) (position : Position) (before vars : Variables) :
    Record :=
  (((ofRow row).place position before).resolve syn vars).1

/-- Values inject nothing: the parameters and the decisions of a resolved record are written in the
blob of its row. -/
theorem values_inject_nothing (row : Row) (syn : Params.Syntax) :
    let written := Params.ofBlob syn row.parameters
    (∀ position before vars,
      (resolvedOf row syn position before vars).params.keys = written.keys ∧
      (resolvedOf row syn position before vars).params.entries =
        written.entries.map (fun e => (e.1, expanded vars.now (vars.substitute e.2))) ∧
      (∀ text, "invalid parameters: " ++ text ∈ (resolvedOf row syn position before vars).errors ↔
        ∃ e, Params.parse syn row.parameters = .error e ∧ text = e.message) ∧
      (onPassKey ∉ written.keys →
        (resolvedOf row syn position before vars).policy.onPass = .proceed) ∧
      (onFailKey ∉ written.keys →
        (resolvedOf row syn position before vars).policy.onFail = .proceed)) ∧
    ∀ position position' before before' vars vars',
      (resolvedOf row syn position before vars).params.keys =
        (resolvedOf row syn position' before' vars').params.keys ∧
      ∀ text, "invalid parameters: " ++ text ∈ (resolvedOf row syn position before vars).errors ↔
        "invalid parameters: " ++ text ∈ (resolvedOf row syn position' before' vars').errors := by
  intro written
  have placed (position : Position) (before : Variables) := Run.place_placed row position before
  have keys (position : Position) (before vars : Variables) :
      (resolvedOf row syn position before vars).params.keys = written.keys := by
    rw [resolvedOf, keys_resolve (placed position before).row]
  have told (position : Position) (before vars : Variables) (text : String) :
      "invalid parameters: " ++ text ∈ (resolvedOf row syn position before vars).errors ↔
        ∃ e, Params.parse syn row.parameters = .error e ∧ text = e.message := by
    rw [resolvedOf, syntaxError_mem_iff (placed position before).row syn vars
      (placed position before).errors]
  constructor
  · intro position before vars
    refine ⟨keys position before vars, ?_, told position before vars, ?_⟩
    · rw [resolvedOf, entries_resolve (placed position before).row]
    · rw [resolvedOf]
      exact proceeds_of_not_mem (placed position before).row syn vars
  · intro position position' before before' vars vars'
    refine ⟨?_, fun text => ?_⟩
    · rw [keys, keys]
    · rw [told, told]

def templateRow : Row :=
  { id := "template", action := "Comment", parameters := "User=\x7bu\x7d; When = %date+1day%" }

/-- A value that looks like a decision stays a value. -/
theorem templateRow_injects_nothing :
    (resolvedOf templateRow {} {} {} twoInOne).params.keys = ["user", "when"] ∧
    (resolvedOf templateRow {} {} {} twoInOne).params.entries =
      [("user", "v|OnPass=quitsession"), ("when", "1/2/70")] ∧
    (resolvedOf templateRow {} {} {} twoInOne).policy.onPass = .proceed := by
  have written : (Params.ofBlob {} templateRow.parameters).entries =
      [("user", "\x7bu\x7d"), ("when", " %date+1day%")] := by
    decide +kernel
  have keys : (Params.ofBlob {} templateRow.parameters).keys = ["user", "when"] := by
    rw [Params.keys, written]
    rfl
  obtain ⟨fixed, -⟩ := values_inject_nothing templateRow {}
  obtain ⟨same, entries, -, onPass, -⟩ := fixed {} {} twoInOne
  refine ⟨same.trans keys, ?_, onPass ?_⟩
  · rw [entries, written]
    decide +kernel
  · rw [keys]
    decide

end Record
end Runbook
