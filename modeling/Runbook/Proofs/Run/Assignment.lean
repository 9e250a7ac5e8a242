import Runbook.Proofs.Action.Registry
import Runbook.Proofs.Run.Inert
import Runbook.Proofs.Run.Setup

set_option autoImplicit false

/-!
Setting variables is one simultaneous assignment. All values are read before any variable is
written: each is substituted by the variables as they were before the step and, if it is a date
token, expanded. What the step leaves behind are those variables with the bundles of its date tokens
laid over them and then the values, and the row after it sees all of them.
-/
namespace Runbook

open Text DateToken

namespace Params

/-- The variables that the pairs of a blob assign, all but the decisions, each with its value
substituted and expanded. -/
def assigned (syn : Syntax) (blob : String) (vars : Variables) : List (String × String) :=
  ((ofBlob syn blob).entries.filter fun e => !isPolicyKey e.1).map fun e =>
    (e.1, expanded vars.now (vars.substitute e.2))

variable {syn : Syntax} {blob : String} {vars : Variables}

private theorem lowered_of_mem_assigned {e : String × String} (h : e ∈ assigned syn blob vars) :
    lowered e.1 = e.1 := by
  obtain ⟨pair, member, rfl⟩ := List.mem_map.1 h
  exact (ofBlob_proper syn blob).lowered_key (e := pair) (List.mem_filter.1 member).1

private theorem assigned_distinct : ((assigned syn blob vars).map (·.1)).Nodup := by
  rw [assigned, List.map_map]
  exact (ofBlob_proper syn blob).distinct.sublist (List.filter_sublist.map _)

private theorem assigned_perm {blob' : String}
    (perm : (ofBlob syn blob').entries.Perm (ofBlob syn blob).entries) :
    (assigned syn blob' vars).Perm (assigned syn blob vars) :=
  (perm.filter _).map _

end Params

namespace Record

section Written

variable {r : Record} {row : Row} (here : r.row = row) (syn : Params.Syntax) (vars : Variables)

include here

private theorem assignments_resolve :
    Action.assignments (r.resolve syn vars).1 = Params.assigned syn row.parameters vars := by
  rw [Action.assignments, entries_resolve here, List.filter_map]
  rfl

private theorem values_of_errors_eq_nil (clean : (r.resolve syn vars).1.errors = []) :
    Params.parse syn row.parameters = .ok (Params.ofBlob syn row.parameters) ∧
    ∀ e ∈ (Params.ofBlob syn row.parameters).entries, isToken (vars.substitute e.2) = true →
      rendered vars.now (vars.substitute e.2) = .ok (expanded vars.now (vars.substitute e.2)) := by
  have none {error : String} (member : error ∈ (r.resolve syn vars).1.errors) : False := by
    rw [clean] at member
    exact nomatch member
  constructor
  · cases read : Params.parse syn row.parameters with
    | ok p => rw [Params.ofBlob_of_parse read]
    | error e =>
      refine (none ((mem_errors_resolve r syn vars).2 (.inl (.inr ⟨e, ?_, rfl⟩)))).elim
      rw [here]
      exact readParams_of_parse_error read vars
  · intro e member token
    cases written : rendered vars.now (vars.substitute e.2) with
    | ok text => rw [expanded_of_ok written]
    | error fault =>
      refine (none ((mem_errors_resolve r syn vars).2
        (.inr (.inl ⟨(e.1, vars.substitute e.2), ?_, token, fault, written, rfl⟩)))).elim
      rw [readParamsD_eq, here]
      exact List.mem_map.2 ⟨e, member, rfl⟩

private theorem errors_resolve_perm {r' : Record} {row' : Row} (here' : r'.row = row')
    (fresh : r'.errors = []) {p' : Params} (read : Params.parse syn row'.parameters = .ok p')
    (perm : p'.entries.Perm (Params.ofBlob syn row.parameters).entries)
    (plain : ∀ e ∈ (Params.ofBlob syn row.parameters).entries,
      isToken (vars.substitute e.2) = false)
    (clean : (r.resolve syn vars).1.errors = []) : (r'.resolve syn vars).1.errors = [] := by
  refine List.eq_nil_iff_forall_not_mem.2 fun error noted => ?_
  rcases (mem_errors_resolve r' syn vars).1 noted with
    (old | ⟨e, unread, -⟩) | ⟨e, member, token, -⟩ | undecided
  · rw [fresh] at old
    exact nomatch old
  · rw [here', readParams_of_parse read] at unread
    exact nomatch unread
  · rw [readParamsD_eq, here', Params.ofBlob_of_parse read] at member
    obtain ⟨pair, written, rfl⟩ := List.mem_map.1 member
    rw [plain pair (perm.subset written)] at token
    exact nomatch token
  · have same (key : String) : (r'.resolve syn vars).1.params.get? key =
        (r.resolve syn vars).1.params.get? key := by
      rw [params_resolve_eq here', params_resolve_eq here, Params.get?_mapValues,
        Params.get?_mapValues, Params.get?_mapValues, Params.get?_mapValues,
        Params.ofBlob_of_parse read, (Params.ofBlob_proper syn row.parameters).get?_congr perm]
    rw [Policy.ofParams_congr same] at undecided
    have member := (mem_errors_resolve r syn vars).2 (.inr (.inr undecided))
    rw [clean] at member
    exact nomatch member

end Written

end Record

namespace Run

section SetVars

variable {r : Runner}

private theorem vars_withVars (st : RunState) (vars : Variables) :
    (st.withVars vars).session.vars = vars :=
  rfl

private theorem execute_setVars {record : Record} (clean : record.hasErrors = false)
    (named : record.action ≠ "") (found : r.registry.find? record.action = some Action.setVars)
    (deeper : Deeper) (baseDir : Option String) (st : RunState) :
    (execute r deeper record baseDir st).state.session.vars =
        st.session.vars.setAll (Action.assignments record) ∧
      (execute r deeper record baseDir st).state.interrupted = st.interrupted := by
  have carried : dispatchSound r deeper record baseDir st = dispatch r deeper record baseDir st := by
    rw [dispatchSound, clean, if_neg Bool.false_ne_true]
  rw [execute, carried, dispatch, if_neg named, found]
  exact ⟨rfl, Bool.or_false st.interrupted⟩

variable {p : Program} {seq skips : Nat} {row : Row} {st : RunState}

/-- The row sets variables, it is carried out, and nothing is wrong with its parameters. -/
structure SetsVars (r : Runner) (p : Program) (seq : Nat) (row : Row) (skips : Nat) (st : RunState) :
    Prop where
  counted : row.isEmpty = false
  found : r.registry.find? row.actionName = some Action.setVars
  active : (begunRecord p seq row skips (opened r row st)).isActive = true
  clean : ((begunRecord p seq row skips (opened r row st)).resolve r.params
    st.session.vars).1.errors = []

private theorem SetsVars.step (h : SetsVars r p seq row skips st) (deeper : Deeper) :
    (Run.step r deeper p seq row skips st).state.session.vars =
        (st.session.vars.overlaid (bundles st.session.vars.now
          ((Params.ofBlob r.params row.parameters).entries.map fun e =>
            st.session.vars.substitute e.2))).overlaid
          (Params.assigned r.params row.parameters st.session.vars) ∧
      (Run.step r deeper p seq row skips st).state.interrupted = st.interrupted := by
  have placed := begunRecord_placed p seq row skips (opened r row st)
  have bundled := Record.vars_resolve_eq placed.row r.params st.session.vars
  have written := Record.assignments_resolve placed.row r.params st.session.vars
  have resolved := Record.Continues.resolve (begunRecord p seq row skips (opened r row st)) r.params
    st.session.vars
  have calm := (Record.exception_resolve _ r.params st.session.vars).trans placed.exception
  have attempted := attempt_of_active h.active r deeper p.baseDir (opened r row st)
  have clean := h.clean
  rw [resolvedState, vars_opened] at attempted
  rw [Run.step]
  generalize (begunRecord p seq row skips (opened r row st)).resolve r.params st.session.vars = x
    at bundled written resolved calm attempted clean
  have action : x.1.action = row.actionName := congrArg Row.actionName (resolved.row.trans placed.row)
  have sound : x.1.hasErrors = false := (Record.hasErrors_eq_false_iff x.1).2 ⟨clean, calm⟩
  obtain ⟨vars, interrupted⟩ := execute_setVars sound (action ▸ Row.actionName_ne_empty h.counted)
    (action ▸ h.found) deeper p.baseDir ((opened r row st).withVars x.2)
  rw [attempted]
  refine ⟨?_, interrupted⟩
  rw [vars_finished, vars, written, vars_withVars, bundled,
    Variables.setAll_eq_overlaid _ fun e member => Params.lowered_of_mem_assigned member]

private theorem SetsVars.permuted (h : SetsVars r p seq row skips st) {blob : String} {p' : Params}
    (read : Params.parse r.params blob = .ok p')
    (perm : p'.entries.Perm (Params.ofBlob r.params row.parameters).entries)
    (plain : ∀ e ∈ (Params.ofBlob r.params row.parameters).entries,
      isToken (st.session.vars.substitute e.2) = false) :
    SetsVars r p seq { row with parameters := blob } skips st := by
  have placed := begunRecord_placed p seq row skips (opened r row st)
  have placed' := begunRecord_placed p seq { row with parameters := blob } skips
    (opened r { row with parameters := blob } st)
  have rewritten := begunRecord_withArguments blob row.locatorKind row.locatorSpec row.query p row seq
    skips (opened r row st)
  refine ⟨h.counted, h.found, ?_, ?_⟩
  · have active := h.active
    generalize begunRecord p seq row skips (opened r row st) = record at rewritten active
    exact (congrArg Record.isActive rewritten).trans active
  · exact Record.errors_resolve_perm placed.row r.params st.session.vars placed'.row placed'.errors
      read perm plain h.clean

end SetVars

private theorem parametersText_begunRecord (p : Program) (seq : Nat) (row : Row) (skips : Nat)
    (st : RunState) :
    (begunRecord p seq row skips st).parametersText =
      st.session.vars.substitute row.parameters := by
  have written := Record.parametersText_place row
    ⟨seq, p.level, p.parentStep, st.session.counters.done⟩ st.session.vars
  simp only [begunRecord, placeRecord]
  generalize (Record.ofRow row).place _ _ = record at written ⊢
  split
  · exact written
  · exact written

/-- Setting variables is one simultaneous assignment under the variables before the step, in
whatever order. -/
theorem setVars_simultaneous {r : Runner} {p : Program} {seq : Nat} {row : Row} {skips : Nat}
    {st : RunState} (sets : SetsVars r p seq row skips st) (deeper : Deeper) :
    let vars := st.session.vars
    let s := step r deeper p seq row skips st
    let after := s.state.session.vars
    let written := Params.ofBlob r.params row.parameters
    let values := written.entries.map fun e => vars.substitute e.2
    let dated := vars.overlaid (bundles vars.now values)
    let assigned := Params.assigned r.params row.parameters vars
    Params.parse r.params row.parameters = .ok written ∧
    (∀ value ∈ values, if isToken value then rendered vars.now value = .ok (expanded vars.now value)
      else expanded vars.now value = value) ∧
    after = dated.overlaid assigned ∧
    (∀ e ∈ assigned, after.get? e.1 = some e.2) ∧
    (∀ name, lowered name ∉ assigned.map (·.1) → after.get? name = dated.get? name ∧
      (lowered name ∉ (bundles vars.now values).map (·.1) → after.get? name = vars.get? name)) ∧
    ((∀ value ∈ values, isToken value = false) → ∀ blob written',
      Params.parse r.params blob = .ok written' → written'.entries.Perm written.entries →
      (step r deeper p seq { row with parameters := blob } skips st).state.session.vars = after) ∧
    ∀ (next : Row) (rest : List Row) (g : Progress), next.isEmpty = false →
      st.interrupted = false → stopReason? s = none →
      ∃ record more, (rows r deeper p (row :: next :: rest) seq skips g st).log =
          s.log ++ ⟨.began record, opened r next s.state⟩ :: more ∧
        record.row = next ∧ record.description = after.substitute next.description ∧
        record.parametersText = after.substitute next.parameters ∧
        (opened r next s.state).session.vars = after := by
  obtain ⟨overlaid, calm⟩ := sets.step deeper
  have placed := begunRecord_placed p seq row skips (opened r row st)
  obtain ⟨read, tokens⟩ := Record.values_of_errors_eq_nil placed.row r.params st.session.vars sets.clean
  dsimp only
  refine ⟨read, ?_, overlaid, ?_, ?_, ?_, ?_⟩
  · intro value member
    obtain ⟨e, written, rfl⟩ := List.mem_map.1 member
    split
    · next token => exact tokens e written token
    · next other => exact expanded_of_not_isToken (Bool.eq_false_iff.2 other) _
  · intro e member
    rw [overlaid]
    refine Variables.get?_overlaid_of_mem _ Params.assigned_distinct ?_
    rw [Params.lowered_of_mem_assigned member]
    exact member
  · intro name absent
    rw [overlaid, Variables.get?_overlaid_of_not_mem _ absent]
    exact ⟨rfl, fun undated => Variables.get?_overlaid_of_not_mem _ undated⟩
  · intro plain blob written' read' perm
    have plain (e) (member : e ∈ (Params.ofBlob r.params row.parameters).entries) :
        isToken (st.session.vars.substitute e.2) = false :=
      plain _ (List.mem_map_of_mem member)
    have undated {q : Params} (perm : q.entries.Perm (Params.ofBlob r.params row.parameters).entries) :
        bundles st.session.vars.now (q.entries.map fun e => st.session.vars.substitute e.2) = [] := by
      refine bundles_of_not_isToken fun value member => ?_
      obtain ⟨e, there, rfl⟩ := List.mem_map.1 member
      exact plain e (perm.subset there)
    obtain ⟨overlaid', -⟩ := (sets.permuted read' perm plain).step deeper
    rw [← Params.ofBlob_of_parse read'] at perm
    rw [overlaid, overlaid', undated perm, undated (.refl _)]
    exact Variables.overlaid_perm _ Params.assigned_distinct (Params.assigned_perm perm)
  · intro next rest g counted lowered goes
    obtain ⟨more, began⟩ := rows_began counted (calm.trans lowered) r deeper p rest (seq + 1)
      (step r deeper p seq row skips st).skips (g.add (step r deeper p seq row skips st).result)
    have placed' := begunRecord_placed p (seq + 1) next (step r deeper p seq row skips st).skips
      (opened r next (step r deeper p seq row skips st).state)
    refine ⟨_, more, ?_, placed'.row, placed'.description, parametersText_begunRecord .., rfl⟩
    rw [rows_of_goes sets.counted lowered goes, RowsRun.after, began]

def setRow (parameters : String) : Row :=
  { id := "set", action := "SetVars", parameters }

def swapRow : Row :=
  setRow "a=\x7bb\x7d;b=\x7ba\x7d;OnPass=skip:1"

def stampRow : Row :=
  setRow "When=%date%;Year=\x7b$shortyear\x7d;$shortday=x"

def setter : Program :=
  { name := "setter", rows := [swapRow, stampRow] }

def setStart : RunState :=
  { session := { vars := (({} : Variables).set "a" "1").set "b" "2" } }

private theorem find?_setRow (parameters : String) :
    ({} : Runner).registry.find? (setRow parameters).actionName = some Action.setVars := by
  have distinct : (Action.builtins.map fun a => lowered a.name).Nodup := by decide +kernel
  have same : lowered Action.setVars.name = lowered (trimmed (trimmed "SetVars")) := by
    decide +kernel
  exact Registry.find?_ofList_of_mem distinct List.mem_cons_self same

def leftBy (row : Row) : Variables :=
  (step {} none setter 1 row 0 setStart).state.session.vars

theorem swapRow_swaps_stampRow_stamps :
    SetsVars {} setter 1 swapRow 0 setStart ∧ SetsVars {} setter 1 stampRow 0 setStart ∧
    (leftBy swapRow).get? "a" = some "2" ∧ (leftBy swapRow).get? "b" = some "1" ∧
    leftBy (setRow "B=\x7ba\x7d;OnPass=skip:1;A=\x7bb\x7d") = leftBy swapRow ∧
    (leftBy stampRow).get? "when" = some "1/1/70" ∧ (leftBy stampRow).get? "year" = some "" ∧
    (leftBy stampRow).get? "$shortday" = some "x" ∧ (leftBy stampRow).get? "a" = some "1" := by
  have swaps : SetsVars {} setter 1 swapRow 0 setStart :=
    ⟨by decide +kernel, find?_setRow _, by decide +kernel, by decide +kernel⟩
  have stamps : SetsVars {} setter 1 stampRow 0 setStart :=
    ⟨by decide +kernel, find?_setRow _, by decide +kernel, by decide +kernel⟩
  have swapped : Params.assigned ({} : Runner).params swapRow.parameters setStart.session.vars =
      [("a", "2"), ("b", "1")] := by
    decide +kernel
  have stamped : Params.assigned ({} : Runner).params stampRow.parameters setStart.session.vars =
      [("when", "1/1/70"), ("year", ""), ("$shortday", "x")] := by
    decide +kernel
  obtain ⟨-, -, -, seen, -, permuted, -⟩ := setVars_simultaneous swaps none
  obtain ⟨-, -, -, seen', kept, -⟩ := setVars_simultaneous stamps none
  rw [swapped] at seen
  rw [stamped] at seen' kept
  refine ⟨swaps, stamps, seen ("a", "2") (by decide), seen ("b", "1") (by decide), ?_,
    seen' ("when", "1/1/70") (by decide), seen' ("year", "") (by decide),
    seen' ("$shortday", "x") (by decide), ?_⟩
  · exact permuted (by decide +kernel) _
      ⟨[("b", "\x7ba\x7d"), ("onpass", "skip:1"), ("a", "\x7bb\x7d")]⟩ (by decide +kernel)
      (by decide +kernel)
  · have undated : lowered "a" ∉ bundleNames := by decide +kernel
    rw [leftBy, (kept "a" (by decide +kernel)).2]
    · decide +kernel
    · intro member
      obtain ⟨e, entry, same⟩ := List.mem_map.1 member
      exact undated (same ▸ mem_bundleNames_of_bundles entry)

end Run
end Runbook
