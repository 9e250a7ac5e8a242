import Runbook.Text.Line

set_option autoImplicit false

/-!
Pieces and lines. Pieces without the separator are what their joined text is cut into, and lines
that are each ended by a line feed are what the text is cut into. In a file a line feed is one byte,
which is part of no other character, so that the lines of the bytes of a text are the lines of the
text.
-/
namespace Runbook.Text

variable {d : Char}

theorem splitAt_of_not_mem {cs : List Char} (h : d ∉ cs) : splitAt d cs = [cs] := by
  induction cs with
  | nil => rfl
  | cons c cs ih =>
    rw [List.mem_cons, not_or] at h
    simp only [splitAt, if_neg (Ne.symm h.1), ih h.2]

private theorem splitAt_append_cons {cs : List Char} (h : d ∉ cs) (rest : List Char) :
    splitAt d (cs ++ d :: rest) = cs :: splitAt d rest := by
  induction cs with
  | nil => simp [splitAt]
  | cons c cs ih =>
    rw [List.mem_cons, not_or] at h
    simp only [List.cons_append, splitAt, if_neg (Ne.symm h.1), ih h.2]

theorem splitAt_joinAt {pieces : List (List Char)} (nonempty : pieces ≠ [])
    (h : ∀ piece ∈ pieces, d ∉ piece) : splitAt d (joinAt d pieces) = pieces := by
  induction pieces with
  | nil => exact absurd rfl nonempty
  | cons piece pieces ih =>
    have first := h piece List.mem_cons_self
    cases pieces with
    | nil => exact splitAt_of_not_mem first
    | cons next rest =>
      have others : ∀ piece ∈ next :: rest, d ∉ piece := by
        intro piece member
        exact h piece (List.mem_cons_of_mem _ member)
      rw [joinAt, splitAt_append_cons first, ih (List.cons_ne_nil next rest) others]

theorem not_mem_of_mem_splitAt {cs piece : List Char} (h : piece ∈ splitAt d cs) : d ∉ piece := by
  induction cs generalizing piece with
  | nil =>
    rw [List.mem_singleton.1 h]
    exact List.not_mem_nil
  | cons c cs ih =>
    by_cases same : c = d
    · rw [splitAt, if_pos same] at h
      rcases List.mem_cons.1 h with rfl | later
      · exact List.not_mem_nil
      · exact ih later
    · obtain ⟨first, others, cut, longer⟩ := splitAt_cons_of_ne same cs
      rw [longer] at h
      rw [cut] at ih
      rcases List.mem_cons.1 h with rfl | later
      · rw [List.mem_cons, not_or]
        exact ⟨Ne.symm same, ih List.mem_cons_self⟩
      · exact ih (List.mem_cons_of_mem _ later)

private theorem subset_joinAt {pieces : List (List Char)} {piece : List Char} (h : piece ∈ pieces) :
    piece ⊆ joinAt d pieces := by
  fun_induction joinAt d pieces with
  | case1 => exact nomatch h
  | case2 only => rw [List.mem_singleton.1 h]; exact List.Subset.refl only
  | case3 first next pieces ih =>
    rcases List.mem_cons.1 h with rfl | later
    · exact List.subset_append_left _ _
    · exact List.subset_append_of_subset_right _ (List.subset_cons_of_subset _ (ih later))

theorem find?_joinAt {p : Char → Bool} (h : p d = false) (pieces : List (List Char)) :
    (joinAt d pieces).find? p = pieces.flatten.find? p := by
  fun_induction joinAt d pieces with
  | case1 => rfl
  | case2 piece => simp
  | case3 piece next pieces ih => simp [h, ih]

theorem mem_joinAt {c : Char} {pieces : List (List Char)} (h : c ∈ joinAt d pieces) :
    c = d ∨ ∃ piece ∈ pieces, c ∈ piece := by
  fun_induction joinAt d pieces with
  | case1 => exact absurd h List.not_mem_nil
  | case2 piece => exact .inr ⟨piece, List.mem_singleton_self piece, h⟩
  | case3 piece next pieces ih =>
    rcases List.mem_append.1 h with here | later
    · exact .inr ⟨piece, List.mem_cons_self, here⟩
    rcases List.mem_cons.1 later with between | beyond
    · exact .inl between
    · rcases ih beyond with between | ⟨piece', among, there⟩
      · exact .inl between
      · exact .inr ⟨piece', List.mem_cons_of_mem piece among, there⟩

theorem subset_of_mem_splitAt {cs piece : List Char} (h : piece ∈ splitAt d cs) : piece ⊆ cs := by
  rw [← joinAt_splitAt d cs]
  exact subset_joinAt h

def piecesAt (d : Char) (s : String) : List String :=
  (splitAt d s.toList).map String.ofList

theorem toList_joined (d : Char) (pieces : List String) :
    (joined (String.singleton d) pieces).toList = joinAt d (pieces.map String.toList) := by
  fun_induction joined (String.singleton d) pieces with
  | case1 => rfl
  | case2 piece => rfl
  | case3 piece next pieces ih =>
    simp only [String.toList_append, ih, List.map_cons, joinAt, String.toList_singleton,
      List.append_assoc, List.singleton_append]

theorem joined_piecesAt (d : Char) (s : String) :
    joined (String.singleton d) (piecesAt d s) = s := by
  have same : (piecesAt d s).map String.toList = splitAt d s.toList := by
    simp [piecesAt, Function.comp_def]
  rw [← String.toList_inj, toList_joined, same, joinAt_splitAt]

theorem lines_append_cons {cs : List Char} (h : '\n' ∉ cs) (rest : List Char) :
    lines (cs ++ '\n' :: rest) = cs :: lines rest := by
  have nonempty := splitAt_ne_nil '\n' rest
  simp only [lines, splitAt_append_cons h]
  generalize splitAt '\n' rest = pieces at nonempty ⊢
  cases pieces with
  | nil => exact absurd rfl nonempty
  | cons piece pieces =>
    rw [List.getLast?_cons_cons, List.dropLast_cons_cons]
    split
    · rfl
    · rfl

theorem lines_flatMap {ls : List (List Char)} (h : ∀ l ∈ ls, '\n' ∉ l) :
    lines (ls.flatMap fun l => l ++ ['\n']) = ls := by
  induction ls with
  | nil => rfl
  | cons l ls ih =>
    have first := h l List.mem_cons_self
    rw [List.flatMap_cons, List.append_assoc, List.singleton_append, lines_append_cons first,
      ih fun l member => h l (List.mem_cons_of_mem _ member)]

theorem not_mem_of_mem_lines {cs l : List Char} (h : l ∈ lines cs) : '\n' ∉ l := by
  simp only [lines] at h
  split at h
  · exact not_mem_of_mem_splitAt (List.dropLast_subset _ h)
  · exact not_mem_of_mem_splitAt h

section Bytes

private theorem toList_loop_eq (bs : ByteArray) (i : Nat) (l : List UInt8) :
    ByteArray.toList.loop bs i l = l.reverse ++ bs.data.toList.drop i := by
  fun_induction ByteArray.toList.loop bs i l with
  | case1 i l within ih =>
    have bound : i < bs.data.toList.length := by simpa using within
    rw [ih, List.drop_eq_getElem_cons bound]
    simp [ByteArray.get!, within]
  | case2 i l beyond =>
    rw [List.drop_eq_nil_of_le (by simpa using Nat.le_of_not_lt beyond), List.append_nil]

theorem toList_toUTF8 (s : String) : s.toUTF8.toList = s.toList.flatMap String.utf8EncodeChar := by
  rw [String.toUTF8_eq_toByteArray, ← String.utf8Encode_toList, List.utf8Encode, ByteArray.toList,
    toList_loop_eq, List.toList_data_toByteArray]
  rfl

private theorem feed_not_mem_utf8EncodeChar {c : Char} (h : c ≠ '\n') :
    (10 : UInt8) ∉ String.utf8EncodeChar c := by
  have other : c.val.toNat ≠ 10 := by
    intro same
    apply h
    exact Char.ext (UInt32.toNat_inj.1 same)
  -- A byte of a longer character is at least 128.
  fun_cases String.utf8EncodeChar c with
  | case1 | case2 | case3 | case4 =>
    simp [← UInt8.toNat_inj]
    omega

theorem head?_utf8EncodeChar (c : Char) :
    ∃ b, (String.utf8EncodeChar c).head? = some b ∧ (b.toNat ≤ 127 → b.toNat = c.toNat) := by
  fun_cases String.utf8EncodeChar c with
  | case1 =>
    refine ⟨_, rfl, fun _ => ?_⟩
    change (UInt8.ofNat c.val.toNat).toNat = c.val.toNat
    rw [UInt8.toNat_ofNat']
    omega
  | case2 | case3 | case4 =>
    refine ⟨_, rfl, fun narrow => ?_⟩
    rw [UInt8.toNat_ofNat'] at narrow
    omega

private theorem splitBytes_append {bs : List UInt8} (h : 10 ∉ bs) {rest piece : List UInt8}
    {pieces : List (List UInt8)} (cut : splitBytes rest = piece :: pieces) :
    splitBytes (bs ++ rest) = (bs ++ piece) :: pieces := by
  induction bs with
  | nil => exact cut
  | cons b bs ih =>
    rw [List.mem_cons, not_or] at h
    simp only [List.cons_append, splitBytes, if_neg (Ne.symm h.1), ih h.2]

private theorem splitBytes_flatMap (cs : List Char) :
    splitBytes (cs.flatMap String.utf8EncodeChar) =
      (splitAt '\n' cs).map fun piece => piece.flatMap String.utf8EncodeChar := by
  induction cs with
  | nil => rfl
  | cons c cs ih =>
    by_cases feed : c = '\n'
    · have byte : String.utf8EncodeChar '\n' = [10] := by decide
      rw [feed, List.flatMap_cons, byte, List.singleton_append, splitBytes, if_pos rfl, ih, splitAt,
        if_pos rfl, List.map_cons, List.flatMap_nil]
    · obtain ⟨piece, pieces, cut, longer⟩ := splitAt_cons_of_ne feed cs
      rw [cut, List.map_cons] at ih
      rw [List.flatMap_cons, splitBytes_append (feed_not_mem_utf8EncodeChar feed) ih, longer,
        List.map_cons, List.flatMap_cons]

private theorem decodeUtf8_flatMap (cs : List Char) :
    decodeUtf8 (cs.flatMap String.utf8EncodeChar) = some cs := by
  have bytes : ByteArray.mk (cs.flatMap String.utf8EncodeChar).toArray = cs.utf8Encode := by
    apply ByteArray.ext
    rw [List.utf8Encode, List.data_toByteArray]
  have valid : cs.utf8Encode.IsValidUTF8 := ByteArray.isValidUTF8_utf8Encode
  have decoded : String.fromUTF8 cs.utf8Encode valid = String.ofList cs := by
    rw [← String.toByteArray_inj, String.toByteArray_ofList]
    rfl
  rw [decodeUtf8, bytes, String.fromUTF8?, dif_pos valid, decoded, Option.map_some,
    String.toList_ofList]

/-- A file that holds a text has the lines of the text. -/
theorem byteLines_toUTF8 (s : String) : byteLines s.toUTF8.toList = textLines s := by
  have empty (piece : List Char) : piece.flatMap String.utf8EncodeChar = [] ↔ piece = [] := by
    cases piece with
    | nil => simp
    | cons c piece => simp [String.utf8EncodeChar_ne_nil]
  have last (pieces : List (List Char)) :
      (pieces.map fun piece => piece.flatMap String.utf8EncodeChar).getLast? = some [] ↔
        pieces.getLast? = some [] := by
    simp only [List.getLast?_map, Option.map_eq_some_iff, empty, exists_eq_right]
  have decoded (pieces : List (List Char)) :
      (pieces.map fun piece => piece.flatMap String.utf8EncodeChar).map decodeUtf8 =
        pieces.map some := by
    rw [List.map_map]
    apply List.map_congr_left
    intro piece _
    exact decodeUtf8_flatMap piece
  simp only [byteLines, textLines, lines, toList_toUTF8, splitBytes_flatMap, last]
  split
  · rw [← List.map_dropLast, decoded]
  · rw [decoded]

end Bytes

end Runbook.Text
