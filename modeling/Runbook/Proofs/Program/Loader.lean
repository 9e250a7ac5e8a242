import Runbook.Program.Loader

set_option autoImplicit false

/-!
What references lead to. A file that can be read lies in a directory, from which the file names in
its rows are taken. For rows that are registered they are taken from the same directory as before.
-/
namespace Runbook

namespace Path

variable {p : String}

private theorem parent?_eq_none_iff : parent? p = none ↔ places p = [] := by
  unfold parent?
  rw [← List.reverse_eq_nil_iff]
  split
  · next none => exact iff_of_true rfl none
  · next one => exact iff_of_false (Option.some_ne_none _) (by rw [one]; exact List.cons_ne_nil _ _)
  · next more => exact iff_of_false (Option.some_ne_none _) (by rw [more]; exact List.cons_ne_nil _ _)

private theorem places_eq_nil_iff :
    places p = [] ↔ ∀ i piece, (pieces p)[i]? = some piece → counts p i piece = false := by
  rw [places, List.map_eq_nil_iff, List.filter_eq_nil_iff]
  simp [List.mem_zipIdx_iff_getElem?, forall_comm (α := String)]

private theorem pieces_of_places_eq_nil (none : places p = []) (nonempty : p ≠ "") :
    isAbsolute p = true ∧ ∀ piece ∈ pieces p, piece = "" ∨ piece = "." := by
  have blank := places_eq_nil_iff.1 none
  have absolute : isAbsolute p = true := by
    rw [isAbsolute]
    cases chars : p.toList with
    | nil => exact absurd (String.toList_eq_nil_iff.1 chars) nonempty
    | cons c cs =>
      by_cases slash : c = '/'
      · simp [slash]
      · -- The first piece starts with the first character, and counts even if it is a point.
        obtain ⟨piece, rest, -, cut⟩ := Text.splitAt_cons_of_ne slash cs
        have first : (pieces p)[0]? = some (String.ofList (c :: piece)) := by
          rw [pieces, chars, cut, List.map_cons, List.getElem?_cons_zero]
        have counted := blank 0 _ first
        simp [counts, isAbsolute, chars, slash] at counted
  refine ⟨absolute, fun piece member => ?_⟩
  obtain ⟨i, here⟩ := List.mem_iff_getElem?.1 member
  have counted := blank i piece here
  simpa [counts, absolute, Decidable.or_iff_not_imp_left] using counted

end Path

namespace FileTree

variable {t : FileTree} {p : String} {bytes : ByteArray}

private theorem walk_root {names : List String} (blank : ∀ name ∈ names, name = "" ∨ name = ".") :
    t.walk [] names = .ok [] := by
  induction names with
  | nil => rfl
  | cons name names ih =>
    obtain ⟨first, rest⟩ := List.forall_mem_cons.1 blank
    have root : t.at? [] = some .dir := if_pos rfl
    rw [walk, root]
    exact (if_pos first).trans (ih rest)

private theorem parent?_of_read (h : t.read p = .ok bytes) : ∃ dir, Path.parent? p = some dir := by
  rw [← Option.ne_none_iff_exists']
  intro none
  have none := Path.parent?_eq_none_iff.1 none
  rw [read, find, locate, locatePieces] at h
  split at h
  · exact nomatch h
  next nonempty =>
  split at h
  · exact nomatch h
  split at h
  · exact nomatch h
  obtain ⟨absolute, blank⟩ := Path.pieces_of_places_eq_nil none nonempty
  rw [if_pos absolute, walk_root blank] at h
  exact nomatch h

end FileTree

def Provider.format? : Provider → Option RowFormat
  | .jsonl => some .jsonl
  | .tsv => some .tsv
  | .inline => none

namespace Loader

variable {l : Loader} {reference : String} {baseDir : Option String} {found : Loaded}

/-- The file that a reference in a program of that directory leads to, if it leads to one, and how
the file holds rows. -/
def file? (l : Loader) (reference : String) (baseDir : Option String) : Option (String × RowFormat) :=
  match Reference.parse reference with
  | .ok ref => ref.provider.format?.map fun format => (l.sourcePath ref.source baseDir, format)
  | .error _ => none

private theorem loadFile_ok {path : String} {format : RowFormat}
    (h : l.loadFile path format = .ok found) :
    l.readRows path format = .ok found.rows ∧ found.dir = Path.parent? path := by
  rw [loadFile] at h
  split at h
  · exact nomatch h
  · next rows read =>
    obtain rfl := Except.ok.inj h
    exact ⟨read, rfl⟩

private theorem parent?_of_readRows {path : String} {format : RowFormat} {rows : List Row}
    (h : l.readRows path format = .ok rows) : ∃ dir, Path.parent? path = some dir := by
  rw [readRows, FileTree.readLines] at h
  cases read : l.files.read path with
  | error e =>
    rw [read] at h
    exact nomatch h
  | ok bytes => exact FileTree.parent?_of_read read

/-- What a reference leads to: rows of a file, with its directory, or registered rows, with that of
the program. -/
inductive LeadsTo (l : Loader) (reference : String) (baseDir : Option String) (found : Loaded) : Prop
  | file (path : String) (format : RowFormat) (dir : String) :
      l.file? reference baseDir = some (path, format) → l.readRows path format = .ok found.rows →
        Path.parent? path = some dir → found.dir = some dir → LeadsTo l reference baseDir found
  | registered (name : String) :
      l.file? reference baseDir = none → l.inline.get? name = some found.rows →
        found.dir = baseDir → LeadsTo l reference baseDir found

private theorem leadsTo_of_loadFile {path : String} {format : RowFormat}
    (file : l.file? reference baseDir = some (path, format))
    (h : l.loadFile path format = .ok found) : LeadsTo l reference baseDir found := by
  obtain ⟨rows, same⟩ := loadFile_ok h
  obtain ⟨dir, parent⟩ := parent?_of_readRows rows
  exact .file path format dir file rows parent (same.trans parent)

theorem leadsTo_of_resolve (h : l.resolve reference baseDir = .ok found) :
    LeadsTo l reference baseDir found := by
  rw [resolve] at h
  cases parsed : Reference.parse reference with
  | error e =>
    rw [parsed] at h
    exact nomatch h
  | ok ref =>
    rw [parsed] at h
    simp only [bind, Except.bind] at h
    have file : l.file? reference baseDir =
        ref.provider.format?.map fun format => (l.sourcePath ref.source baseDir, format) := by
      rw [file?, parsed]
    cases provider : ref.provider with
    | jsonl =>
      rw [provider] at h file
      exact leadsTo_of_loadFile file h
    | tsv =>
      rw [provider] at h file
      exact leadsTo_of_loadFile file h
    | inline =>
      rw [provider] at h file
      cases rows : l.inline.get? (Text.lowered ref.source) with
      | none =>
        simp only [rows] at h
        exact nomatch h
      | some rows' =>
        simp only [rows] at h
        obtain rfl := Except.ok.inj h
        exact .registered _ file rows rfl

end Loader
end Runbook
