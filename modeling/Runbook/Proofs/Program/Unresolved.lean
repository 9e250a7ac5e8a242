import Runbook.Proofs.Program.Loader
import Runbook.Proofs.Text.Cut

set_option autoImplicit false

/-!
References that lead to no rows. A file yields its rows or none of them: one line that is not text,
or that is not the JSON of a row where it should be, is enough. So a reference leads to no rows
exactly when it is none, when it names nothing that is there, or when there is such a line in the
file.
-/
namespace Runbook

open Text

namespace Row

/-- A line that no file of that format may hold: it is no text, or should be the JSON of a row and
is not. -/
def Spoils (format : RowFormat) : Line → Prop
  | none => True
  | some cs =>
    format = .jsonl ∧ allBlank cs = false ∧ (Json.parseChars (trim cs)).bind ofJson? = none

private theorem error_mem_readJsonlFrom_iff {number : Nat} {ls : List Line} :
    (∃ e, .error e ∈ readJsonlFrom number ls) ↔ ∃ line ∈ ls, Spoils .jsonl line := by
  fun_induction readJsonlFrom number ls with
  | case1 => simp
  | case2 number rest ih => simp [Spoils]
  | case3 number cs rest blank ih => simp [Spoils, blank, ih]
  | case4 number cs rest solid row read ih =>
    have sound : ¬Spoils .jsonl (some cs) := by
      rintro ⟨-, -, unread⟩
      exact Option.some_ne_none row (read.symm.trans unread)
    simp [sound, ih]
  | case5 number cs rest solid unread ih =>
    have bad : Spoils .jsonl (some cs) := ⟨rfl, Bool.eq_false_iff.2 solid, unread⟩
    simp [bad]

private theorem error_mem_readTsvFrom_iff {seen : Bool} {ls : List Line} :
    (∃ e, .error e ∈ readTsvFrom seen ls) ↔ ∃ line ∈ ls, Spoils .tsv line := by
  fun_induction readTsvFrom seen ls with
  | case1 => simp
  | case2 seen rest ih => simp [Spoils]
  | case3 seen cs rest line comment ih => simp [Spoils, ih]
  | case4 seen cs rest line solid fs header ih => simp [Spoils, ih]
  | case5 seen cs rest line solid fs plain ih => simp [Spoils, ih]

private theorem error_mem_read_iff {format : RowFormat} {ls : List Line} :
    (∃ e, .error e ∈ read format ls) ↔ ∃ line ∈ ls, Spoils format line := by
  cases format with
  | jsonl => exact error_mem_readJsonlFrom_iff
  | tsv => exact error_mem_readTsvFrom_iff

private theorem exists_mapM_eq_error_iff {α ε : Type} {items : List (Except ε α)} :
    (∃ e, items.mapM (fun item => item) = .error e) ↔ ∃ e, .error e ∈ items := by
  induction items with
  | nil => simp [pure, Except.pure]
  | cons item items ih =>
    rw [List.mapM_cons]
    cases item with
    | error e => simp [bind, Except.bind]
    | ok a =>
      cases rest : items.mapM fun item => item with
      | error e =>
        rw [rest] at ih
        have later := ih.1 ⟨e, rfl⟩
        simpa [bind, Except.bind] using later
      | ok l =>
        rw [rest] at ih
        simpa [bind, Except.bind, pure, Except.pure] using ih

private theorem exists_readAll_eq_error_iff {format : RowFormat} {ls : List Line} :
    (∃ e, readAll format ls = .error e) ↔ ∃ line ∈ ls, Spoils format line := by
  rw [readAll, exists_mapM_eq_error_iff, error_mem_read_iff]

end Row

namespace Provider

def words : List String := ["jsonl", "json", "tsv", "inline"]

private theorem exists_parse_eq_error_iff {s : String} :
    (∃ e, parse s = .error e) ↔ lowered (trimmed s) ∉ words := by
  simp only [parse, words, List.mem_cons, List.not_mem_nil, or_false, ← or_assoc]
  split
  · next json => simp [json]
  · next other =>
    split
    · next tsv => simp [tsv]
    · next other' =>
      split
      · next inline => simp [inline]
      · next unknown => simp [other, other', unknown]

end Provider

namespace Reference

private theorem parse_of_not_mem {s : String} (absent : ':' ∉ s.toList) :
    parse s = .error (.invalidReference s) := by
  rw [parse, cut_eq_none_iff.2 absent]

private theorem parse_of_cut {s provider source : String} (fresh : ':' ∉ provider.toList)
    (split : s.toList = provider.toList ++ ':' :: source.toList) :
    parse s =
      if isBlankText source = true then .error (.invalidReference s)
      else (Provider.parse provider).map fun p => ⟨p, trimmed source⟩ := by
  rw [parse, cut_eq_some_iff.2 ⟨fresh, split⟩]
  dsimp only
  rw [String.ofList_toList, isBlankText]
  cases Provider.parse provider with
  | error e => rfl
  | ok p => rfl

end Reference

namespace Loader

/-- Why a reference in a program of that directory leads to no rows. -/
inductive Unresolved (l : Loader) (reference : String) (baseDir : Option String) : Prop
  | noColon : ':' ∉ reference.toList → Unresolved l reference baseDir
  | noSource (provider source : String) : ':' ∉ provider.toList →
      reference.toList = provider.toList ++ ':' :: source.toList → isBlankText source = true →
        Unresolved l reference baseDir
  | noProvider (provider source : String) : ':' ∉ provider.toList →
      reference.toList = provider.toList ++ ':' :: source.toList →
        lowered (trimmed provider) ∉ Provider.words → Unresolved l reference baseDir
  | notRegistered (name : String) : Reference.parse reference = .ok ⟨.inline, name⟩ →
      l.inline.get? (lowered name) = none → Unresolved l reference baseDir
  | unreadable (path : String) (format : RowFormat) (e : FileError) :
      l.file? reference baseDir = some (path, format) → l.files.readLines path = .error e →
        Unresolved l reference baseDir
  | spoiled (path : String) (format : RowFormat) (ls : List Line) (line : Line) :
      l.file? reference baseDir = some (path, format) → l.files.readLines path = .ok ls →
        line ∈ ls → Row.Spoils format line → Unresolved l reference baseDir

variable {l : Loader} {reference : String} {baseDir : Option String}

private theorem unresolved_of_parse_eq_error {e : LoadError}
    (refused : Reference.parse reference = .error e) :
    Unresolved l reference baseDir := by
  rcases cut_cases ':' reference with absent | ⟨provider, source, fresh, split⟩
  · exact .noColon absent
  · rw [Reference.parse_of_cut fresh split] at refused
    split at refused
    · next blank => exact .noSource provider source fresh split blank
    · refine .noProvider provider source fresh split (Provider.exists_parse_eq_error_iff.1 ?_)
      cases parsed : Provider.parse provider with
      | error e => exact ⟨e, rfl⟩
      | ok p =>
        rw [parsed] at refused
        exact nomatch refused

private theorem exists_loadFile_eq_error_iff {path : String} {format : RowFormat} :
    (∃ e, l.loadFile path format = .error e) ↔
      (∃ e, l.files.readLines path = .error e) ∨
        ∃ ls, l.files.readLines path = .ok ls ∧ ∃ line ∈ ls, Row.Spoils format line := by
  rw [loadFile, readRows]
  cases l.files.readLines path with
  | error e => simp
  | ok ls =>
    simp only [← Row.exists_readAll_eq_error_iff, reduceCtorEq, exists_false, false_or,
      Except.ok.injEq, exists_eq_left']
    cases Row.readAll format ls with
    | error e => simp
    | ok rows => simp

private theorem resolve_of_file? {path : String} {format : RowFormat}
    (file : l.file? reference baseDir = some (path, format)) :
    l.resolve reference baseDir = l.loadFile path format := by
  rw [file?] at file
  rw [resolve]
  cases parsed : Reference.parse reference with
  | error e =>
    rw [parsed] at file
    cases file
  | ok ref =>
    rw [parsed] at file
    obtain ⟨format', known, same⟩ := Option.map_eq_some_iff.1 file
    obtain ⟨rfl, rfl⟩ := Prod.mk.inj same
    simp only [bind, Except.bind]
    cases provider : ref.provider with
    | jsonl =>
      rw [provider] at known
      obtain rfl := Option.some.inj known
      rfl
    | tsv =>
      rw [provider] at known
      obtain rfl := Option.some.inj known
      rfl
    | inline =>
      rw [provider] at known
      cases known

private theorem resolve_of_inline {name : String}
    (parsed : Reference.parse reference = .ok ⟨.inline, name⟩) :
    l.resolve reference baseDir =
      match l.inline.get? (lowered name) with
      | some rows => .ok ⟨name, rows, baseDir⟩
      | none => .error (.notRegistered name) := by
  rw [resolve, parsed]
  rfl

/-- A reference is refused exactly when it is unresolved. -/
theorem exists_resolve_eq_error_iff :
    (∃ e, l.resolve reference baseDir = .error e) ↔ Unresolved l reference baseDir := by
  constructor
  · rintro ⟨e, refused⟩
    cases parsed : Reference.parse reference with
    | error e => exact unresolved_of_parse_eq_error parsed
    | ok ref =>
      cases file : l.file? reference baseDir with
      | some found =>
        rw [resolve_of_file? file] at refused
        rcases exists_loadFile_eq_error_iff.1 ⟨e, refused⟩ with
          ⟨e, unread⟩ | ⟨ls, read, line, member, spoils⟩
        · exact .unreadable found.1 found.2 e file unread
        · exact .spoiled found.1 found.2 ls line file read member spoils
      | none =>
        obtain ⟨provider, name⟩ := ref
        rw [file?, parsed] at file
        cases provider with
        | jsonl => cases file
        | tsv => cases file
        | inline =>
          refine .notRegistered name parsed ?_
          rw [resolve_of_inline parsed] at refused
          cases rows : l.inline.get? (lowered name) with
          | none => rfl
          | some rows' =>
            rw [rows] at refused
            cases refused
  · intro unresolved
    have unparsed {e : LoadError} (refused : Reference.parse reference = .error e) :
        ∃ e, l.resolve reference baseDir = .error e :=
      ⟨e, by rw [resolve, refused]; rfl⟩
    cases unresolved with
    | noColon absent => exact unparsed (Reference.parse_of_not_mem absent)
    | noSource provider source fresh split blank =>
      exact unparsed ((Reference.parse_of_cut fresh split).trans (if_pos blank))
    | noProvider provider source fresh split unknown =>
      obtain ⟨e, unknown⟩ := Provider.exists_parse_eq_error_iff.2 unknown
      have refused := Reference.parse_of_cut fresh split
      rw [unknown] at refused
      split at refused
      · exact unparsed refused
      · exact unparsed refused
    | notRegistered name parsed absent =>
      exact ⟨_, by rw [resolve_of_inline parsed, absent]⟩
    | unreadable path format e file unread =>
      rw [resolve_of_file? file]
      exact exists_loadFile_eq_error_iff.2 (.inl ⟨e, unread⟩)
    | spoiled path format ls line file read member spoils =>
      rw [resolve_of_file? file]
      exact exists_loadFile_eq_error_iff.2 (.inr ⟨ls, read, line, member, spoils⟩)

end Loader
end Runbook
