import Runbook.Text.Split

set_option autoImplicit false

/-!
Lines of files. A file is cut at line feeds into lines, and each line is decoded on its own: one
whose bytes are not UTF-8 has no text.
-/
namespace Runbook.Text

/-- The text of a line without its line feed; `none` when its bytes are not UTF-8. -/
abbrev Line := Option (List Char)

def textLines (s : String) : List Line :=
  (lines s.toList).map some

/-- The pieces of a run of bytes between its line feeds. -/
def splitBytes : List UInt8 → List (List UInt8)
  | [] => [[]]
  | b :: bs =>
    if b = 10 then [] :: splitBytes bs
    else
      match splitBytes bs with
      | [] => [[b]]
      | piece :: pieces => (b :: piece) :: pieces

/-- The text that bytes encode. -/
def decodeUtf8 (bytes : List UInt8) : Line :=
  (String.fromUTF8? (ByteArray.mk bytes.toArray)).map String.toList

def byteLines (bytes : List UInt8) : List Line :=
  let pieces := splitBytes bytes
  (if pieces.getLast? = some [] then pieces.dropLast else pieces).map decodeUtf8

end Runbook.Text
