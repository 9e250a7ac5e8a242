import Runbook.Proofs.Params.Blob
import Runbook.Proofs.Text.Line

set_option autoImplicit false

/-!
The grammar of blobs. A blob is read exactly when each of its segments is a written parameter and no
key is there twice; otherwise what is said is said of its first segment that is none, or that
repeats a key. Every list of parameters that can stand between delimiters is read back from the blob
in which it is written.
-/
namespace Runbook.Params

open Text

/-- How a blob begins: after blanks it may state its delimiter, and then comes its body. -/
inductive Heads (syn : Syntax) (blob : String) (d : Char) (body : String) : Prop
  | stated (blanks : String) : isBlankText blanks = true → isBlank d = false →
      d ∈ syn.validDelimiters.toList → blob = blanks ++ String.singleton d ++ body →
        Heads syn blob d body
  | unstated (blanks : String) : isBlankText blanks = true →
      (∀ c ∈ body.toList.head?, isBlank c = false ∧ c ∉ syn.validDelimiters.toList) →
        d = syn.delimiter → blob = blanks ++ body → Heads syn blob d body

section Heading

variable {syn : Syntax} {blob body : String} {d : Char}

private theorem Heads.delimited_eq (h : Heads syn blob d body) :
    delimited syn blob.toList = (d, body.toList) := by
  cases h with
  | stated blanks blank solid listed same =>
    rw [same, delimited, String.toList_append, String.toList_append, String.toList_singleton,
      List.append_assoc, trimStart_append_of_allBlank blank, List.singleton_append,
      trimStart_of_not_blank solid]
    exact if_pos (List.contains_iff_mem.2 listed)
  | unstated blanks blank first same split =>
    rw [split, delimited, String.toList_append, trimStart_append_of_allBlank blank, same]
    cases chars : body.toList with
    | nil => rfl
    | cons c cs =>
      rw [chars] at first
      obtain ⟨solid, unlisted⟩ := first c rfl
      rw [trimStart_of_not_blank solid]
      exact if_neg fun listed => unlisted (List.contains_iff_mem.1 listed)

private theorem exists_heads (syn : Syntax) (blob : String) : ∃ d body, Heads syn blob d body := by
  obtain ⟨blanks, blank, whole⟩ := exists_blanks blob
  rcases trimStart_cases blob.toList with nothing | ⟨c, rest, solid, left⟩
  · rw [nothing] at whole
    exact ⟨syn.delimiter, _, .unstated blanks blank (by simp) rfl whole⟩
  · rw [left] at whole
    by_cases listed : c ∈ syn.validDelimiters.toList
    · refine ⟨c, String.ofList rest, .stated blanks blank solid listed (whole.trans ?_)⟩
      simp [← String.toList_inj]
    · exact ⟨syn.delimiter, _, .unstated blanks blank (by simp [solid, listed]) rfl whole⟩

end Heading

namespace Written

def name (w : Written) : String :=
  normalKey w.key

private theorem toList_text (w : Written) :
    w.text.toList = w.key.toList ++ '=' :: w.value.toList := by
  simp [text]

end Written

/-- A segment that is no parameter, or none beside parameters with these keys, and what is said of
it. -/
inductive Offends (keys : List String) (segment : String) : Error → Prop
  | unsigned : '=' ∉ segment.toList → Offends keys segment (.missingSeparator (trimmed segment))
  | unnamed (key value : String) : '=' ∉ key.toList → isBlankText key = true →
      segment = key ++ "=" ++ value → Offends keys segment (.blankKey (trimmed segment))
  | repeated (w : Written) : segment = w.text → w.name ∈ keys →
      Offends keys segment (.duplicateKey w.name)

private theorem normalKey_eq_empty_iff (key : String) :
    normalKey key = "" ↔ isBlankText key = true :=
  lowered_trimmed_eq_empty_iff key

private theorem written_or_offends (keys : List String) (segment : String) :
    (∃ w : Written, segment = w.text ∧ w.name ∉ keys) ∨ ∃ e, Offends keys segment e := by
  rcases cut_cases '=' segment with absent | ⟨key, value, unsigned, split⟩
  · exact .inr ⟨_, .unsigned absent⟩
  · have same : segment = key ++ "=" ++ value := by
      rw [← String.toList_inj, split]
      simp
    by_cases named : normalKey key = ""
    · exact .inr ⟨_, .unnamed key value unsigned ((normalKey_eq_empty_iff key).1 named) same⟩
    · let w : Written := ⟨key, value, unsigned, named⟩
      by_cases there : w.name ∈ keys
      · exact .inr ⟨_, .repeated w same there⟩
      · exact .inl ⟨w, same, there⟩

private theorem written_or_first_offends (before : List Written) (segments : List String)
    (distinct : (before.map Written.name).Nodup) :
    (∃ ws, segments = ws.map Written.text ∧ ((before ++ ws).map Written.name).Nodup) ∨
    ∃ ws segment rest e, segments = ws.map Written.text ++ segment :: rest ∧
      ((before ++ ws).map Written.name).Nodup ∧
      Offends ((before ++ ws).map Written.name) segment e := by
  induction segments generalizing before with
  | nil => exact .inl ⟨[], rfl, by rwa [List.append_nil]⟩
  | cons segment segments ih =>
    rcases written_or_offends (before.map Written.name) segment with ⟨w, rfl, fresh⟩ | ⟨e, offends⟩
    · have longer : ((before ++ [w]).map Written.name).Nodup := by
        rw [List.map_append, List.map_singleton, ← List.concat_eq_append]
        exact distinct.concat fresh
      rcases ih (before ++ [w]) longer with ⟨ws, rfl, all⟩ | ⟨ws, segment, rest, e, rfl, all, offends⟩
      · rw [List.append_assoc, List.singleton_append] at all
        exact .inl ⟨w :: ws, rfl, all⟩
      · rw [List.append_assoc, List.singleton_append] at all offends
        exact .inr ⟨w :: ws, segment, rest, e, rfl, all, offends⟩
    · refine .inr ⟨[], segment, segments, e, rfl, ?_, ?_⟩
      · rwa [List.append_nil]
      · rwa [List.append_nil]

def ofWritten (ws : List Written) : Params :=
  ⟨ws.map Written.entry⟩

private theorem keys_ofWritten (ws : List Written) : (ofWritten ws).keys = ws.map Written.name :=
  List.map_map

private theorem ofWritten_proper {ws : List Written} (distinct : (ws.map Written.name).Nodup) :
    (ofWritten ws).Proper := by
  constructor
  · intro key member
    rw [keys_ofWritten] at member
    obtain ⟨w, -, rfl⟩ := List.mem_map.1 member
    exact normalKey_normalKey w.key
  · rw [keys_ofWritten]
    exact distinct

section Reading

variable {before : List Written} (distinct : (before.map Written.name).Nodup)

include distinct in
private theorem contains_ofWritten (w : Written) :
    (ofWritten before).contains w.name = true ↔ w.name ∈ before.map Written.name := by
  have normal : lowered w.name = w.name := lowered_of_normal (normalKey_normalKey w.key)
  rw [contains, Option.isSome_iff_ne_none, ne_eq, (ofWritten_proper distinct).get?_eq_none_iff,
    not_not, normal, keys_ofWritten]

private theorem entry_text (w : Written) : Params.entry w.text.toList = .ok w.entry := by
  have found : cut '=' w.text.toList = some (w.key.toList, w.value.toList) :=
    cut_eq_some_iff.2 ⟨w.unsigned, w.toList_text⟩
  have named : lower (trim w.key.toList) ≠ [] := by
    intro nothing
    apply w.named
    rw [normalKey, lowered, trimmed, String.toList_ofList, nothing]
  unfold Params.entry
  rw [found]
  dsimp only
  rw [if_neg named, String.ofList_toList]
  exact congrArg (fun key => Except.ok (key, w.value)) (by simp [normalKey, lowered, trimmed])

include distinct

private theorem readSegments_text {w : Written} (fresh : w.name ∉ before.map Written.name)
    (rest : List (List Char)) :
    readSegments (ofWritten before) (w.text.toList :: rest) =
      readSegments (ofWritten (before ++ [w])) rest := by
  have absent : ¬(ofWritten before).contains w.name = true :=
    (contains_ofWritten distinct w).not.2 fresh
  rw [readSegments, entry_text]
  have added : ofWritten (before ++ [w]) = ⟨(ofWritten before).entries ++ [w.entry]⟩ :=
    congrArg Params.mk List.map_append
  rw [added]
  exact if_neg absent

private theorem readSegments_of_offends {segment : String} {e : Error}
    (offends : Offends (before.map Written.name) segment e) (rest : List (List Char)) :
    readSegments (ofWritten before) (segment.toList :: rest) = .error e := by
  rw [readSegments]
  cases offends with
  | unsigned absent =>
    rw [Params.entry, cut_eq_none_iff.2 absent]
    rfl
  | unnamed key value unsigned blank same =>
    have found : cut '=' segment.toList = some (key.toList, value.toList) :=
      cut_eq_some_iff.2 ⟨unsigned, by simp [same]⟩
    have nothing : lower (trim key.toList) = [] := by
      rw [(trim_eq_nil_iff _).2 blank]
      rfl
    rw [Params.entry, found]
    dsimp only
    rw [if_pos nothing]
    rfl
  | repeated w same there =>
    have present : (ofWritten before).contains w.name = true :=
      (contains_ofWritten distinct w).2 there
    rw [same, entry_text]
    exact if_pos present

omit distinct in
private theorem readSegments_texts (before : List Written) {ws : List Written}
    (distinct : ((before ++ ws).map Written.name).Nodup) (rest : List (List Char)) :
    readSegments (ofWritten before) (ws.map (fun w => w.text.toList) ++ rest) =
      readSegments (ofWritten (before ++ ws)) rest := by
  induction ws generalizing before with
  | nil => rw [List.append_nil, List.map_nil, List.nil_append]
  | cons w ws ih =>
    have split : before ++ w :: ws = (before ++ [w]) ++ ws := by simp
    rw [split] at distinct ⊢
    have first := distinct
    rw [List.map_append] at first
    have first : ((before ++ [w]).map Written.name).Nodup := first.of_append_left
    rw [List.map_append, List.map_singleton, List.nodup_append] at first
    obtain ⟨earlier, -, apart⟩ := first
    have fresh : w.name ∉ before.map Written.name := fun there =>
      apart _ there _ (List.mem_singleton.2 rfl) rfl
    rw [List.map_cons, List.cons_append, readSegments_text earlier fresh, ih _ distinct]

end Reading

/-- The segments between the delimiters of a body: its pieces that are not blank. -/
def segmentsAt (d : Char) (body : String) : List String :=
  (piecesAt d body).filter fun piece => !isBlankText piece

section Parsing

variable {syn : Syntax} {blob body : String} {d : Char} (heads : Heads syn blob d body)
  {ws : List Written} (distinct : (ws.map Written.name).Nodup)

include heads

private theorem parse_of_heads :
    parse syn blob = readSegments (ofWritten []) ((segmentsAt d body).map String.toList) := by
  rw [parse, segments, heads.delimited_eq, segmentsAt, piecesAt, List.filter_map, List.map_map]
  simp [isBlankText, Function.comp_def, ofWritten]

include distinct

private theorem parse_of_written (same : segmentsAt d body = ws.map Written.text) :
    parse syn blob = .ok (ofWritten ws) := by
  have read := readSegments_texts [] distinct []
  rw [List.append_nil, List.nil_append] at read
  rw [parse_of_heads heads, same, List.map_map]
  exact read

private theorem parse_of_offends {segment : String} {rest : List String} {e : Error}
    (same : segmentsAt d body = ws.map Written.text ++ segment :: rest)
    (offends : Offends (ws.map Written.name) segment e) : parse syn blob = .error e := by
  have read := readSegments_texts [] distinct (segment.toList :: rest.map String.toList)
  rw [List.nil_append, readSegments_of_offends distinct offends] at read
  rw [parse_of_heads heads, same, List.map_append, List.map_map]
  exact read

omit distinct in
private theorem parse_eq_ok_iff {p : Params} :
    parse syn blob = .ok p ↔
      ∃ ws : List Written, segmentsAt d body = ws.map Written.text ∧
        (ws.map Written.name).Nodup ∧ p.entries = ws.map Written.entry := by
  constructor
  · intro ok
    rcases written_or_first_offends [] (segmentsAt d body) List.nodup_nil with
      ⟨ws, same, distinct⟩ | ⟨ws, segment, rest, e, same, distinct, offends⟩
    · rw [parse_of_written heads distinct same] at ok
      obtain rfl := Except.ok.inj ok
      exact ⟨ws, same, distinct, rfl⟩
    · rw [parse_of_offends heads distinct same offends] at ok
      exact nomatch ok
  · rintro ⟨ws, same, distinct, entries⟩
    rw [parse_of_written heads distinct same, ofWritten, ← entries]

omit distinct in
private theorem parse_eq_error_iff {e : Error} :
    parse syn blob = .error e ↔
      ∃ (ws : List Written) (segment : String) (rest : List String),
        segmentsAt d body = ws.map Written.text ++ segment :: rest ∧
        (ws.map Written.name).Nodup ∧ Offends (ws.map Written.name) segment e := by
  constructor
  · intro error
    rcases written_or_first_offends [] (segmentsAt d body) List.nodup_nil with
      ⟨ws, same, distinct⟩ | ⟨ws, segment, rest, e', same, distinct, offends⟩
    · rw [parse_of_written heads distinct same] at error
      exact nomatch error
    · rw [parse_of_offends heads distinct same offends] at error
      obtain rfl := Except.error.inj error
      exact ⟨ws, segment, rest, same, distinct, offends⟩
  · rintro ⟨ws, segment, rest, same, distinct, offends⟩
    exact parse_of_offends heads distinct same offends

end Parsing

/-- A parameter that can be written as it is stored, in a blob with that delimiter. -/
structure Writable (d : Char) (e : String × String) : Prop where
  trim : trimmed e.1 = e.1
  small : lowered e.1 = e.1
  named : isBlankText e.1 = false
  unsigned : '=' ∉ e.1.toList
  keyApart : d ∉ e.1.toList
  valueApart : d ∉ e.2.toList

namespace Writable

variable {d : Char} {e : String × String}

private theorem normalKey_eq (h : Writable d e) : normalKey e.1 = e.1 := by
  rw [normalKey, h.trim, h.small]

def written (h : Writable d e) : Written where
  key := e.1
  value := e.2
  unsigned := h.unsigned
  named := by
    rw [ne_eq, normalKey_eq_empty_iff]
    exact Bool.eq_false_iff.1 h.named

private theorem entry_written (h : Writable d e) : h.written.entry = e :=
  congrArg (·, e.2) h.normalKey_eq

private theorem not_mem_text (h : Writable d e) (unlike : d ≠ '=') : d ∉ h.written.text.toList := by
  rw [Written.toList_text, List.mem_append, List.mem_cons, not_or, not_or]
  exact ⟨h.keyApart, unlike, h.valueApart⟩

end Writable

private theorem Written.isBlankText_text (w : Written) : isBlankText w.text = false := by
  have solid : ¬isBlankText w.key = true := (normalKey_eq_empty_iff w.key).not.1 w.named
  rw [Bool.eq_false_iff]
  intro blank
  refine solid ((allBlank_iff _).2 fun c member => (allBlank_iff _).1 blank c ?_)
  rw [w.toList_text]
  exact List.mem_append_left _ member

private theorem segmentsAt_joined {d : Char} {texts : List String}
    (apart : ∀ text ∈ texts, d ∉ text.toList)
    (solid : ∀ text ∈ texts, isBlankText text = false) :
    segmentsAt d (joined (String.singleton d) texts) = texts := by
  cases texts with
  | nil => rfl
  | cons text texts =>
    have split : splitAt d (joinAt d ((text :: texts).map String.toList)) =
        (text :: texts).map String.toList := by
      refine splitAt_joinAt (by simp) fun piece member => ?_
      obtain ⟨text', member', rfl⟩ := List.mem_map.1 member
      exact apart text' member'
    have pieces : piecesAt d (joined (String.singleton d) (text :: texts)) = text :: texts := by
      rw [piecesAt, toList_joined, split]
      simp
    rw [segmentsAt, pieces, List.filter_eq_self]
    intro text' member
    rw [solid text' member]
    rfl

private theorem exists_written {d : Char} {l : List (String × String)}
    (writable : ∀ e ∈ l, Writable d e)
    (unlike : d ≠ '=') :
    ∃ ws : List Written, ws.map Written.entry = l ∧
      ws.map Written.text = l.map (fun e => e.1 ++ "=" ++ e.2) ∧
      ∀ text ∈ ws.map Written.text, d ∉ text.toList := by
  induction l with
  | nil => exact ⟨[], rfl, rfl, nofun⟩
  | cons e l ih =>
    obtain ⟨first, others⟩ := List.forall_mem_cons.1 writable
    obtain ⟨ws, entries, texts, apart⟩ := ih others
    refine ⟨first.written :: ws, ?_, ?_, ?_⟩
    · rw [List.map_cons, entries, first.entry_written]
    · rw [List.map_cons, texts]
      rfl
    · exact List.forall_mem_cons.2 ⟨first.not_mem_text unlike, apart⟩

/-- Blobs are accepted exactly by their grammar, and refused for the first segment that offends. -/
theorem parse_follows_grammar (syn : Syntax) :
    (∀ blob, (∃ d body, Heads syn blob d body) ∧
      ∀ d body, Heads syn blob d body →
        (∀ p, parse syn blob = .ok p ↔
          ∃ ws : List Written, segmentsAt d body = ws.map Written.text ∧
            (ws.map Written.name).Nodup ∧ p.entries = ws.map Written.entry) ∧
        ∀ e, parse syn blob = .error e ↔
          ∃ (ws : List Written) (segment : String) (rest : List String),
            segmentsAt d body = ws.map Written.text ++ segment :: rest ∧
            (ws.map Written.name).Nodup ∧ Offends (ws.map Written.name) segment e) ∧
    ∀ d ∈ syn.validDelimiters.toList, d ≠ '=' → isBlank d = false →
      ∀ l : List (String × String), (∀ e ∈ l, Writable d e) → (l.map (·.1)).Nodup →
        parse syn (String.singleton d ++
          joined (String.singleton d) (l.map fun e => e.1 ++ "=" ++ e.2)) = .ok ⟨l⟩ := by
  refine ⟨fun blob => ⟨exists_heads syn blob, fun d body heads => ?_⟩, ?_⟩
  · exact ⟨fun p => parse_eq_ok_iff heads, fun e => parse_eq_error_iff heads⟩
  · intro d listed unlike solid l writable distinct
    obtain ⟨ws, entries, texts, apart⟩ := exists_written writable unlike
    have heads : Heads syn (String.singleton d ++ joined (String.singleton d) (ws.map Written.text)) d
        (joined (String.singleton d) (ws.map Written.text)) :=
      .stated "" rfl solid listed (by rw [String.empty_append])
    have names : ws.map Written.name = l.map (·.1) := by
      rw [← entries, List.map_map]
      rfl
    have nonblank : ∀ text ∈ ws.map Written.text, isBlankText text = false := by
      intro text member
      obtain ⟨w, -, rfl⟩ := List.mem_map.1 member
      exact w.isBlankText_text
    rw [← names] at distinct
    rw [← texts, parse_of_written heads distinct (segmentsAt_joined apart nonblank), ofWritten, entries]

/-- The blob states its delimiter; the last value has the sign and the usual delimiter. -/
example : parse {} " |a= 1| | B =x;=" = .ok ⟨[("a", " 1"), ("b", "x;=")]⟩ := by
  rfl

end Runbook.Params
