import Runbook.Text.CaseTable

set_option autoImplicit false

/-!
Lower-casing of whole texts after the Unicode rules. Two rules go beyond the table of small
letters: the dotted capital I becomes two characters, and a capital sigma becomes a final sigma
at the end of a word.
-/
namespace Runbook.Text

/-- Whether a number lies in one of the runs. -/
def inRuns (n : Nat) (runs : List (Nat × Nat)) : Bool :=
  runs.any fun r => r.1 ≤ n && n ≤ r.2

/-- The small letter of a character by the table; the character itself when it has none. -/
def smallLetter (c : Char) : Char :=
  let n := c.toNat
  if n < 0x80 then c.toLower
  else
    match CaseTable.smallLetters.find? fun (a, b, step, _) => a ≤ n && n ≤ b && (n - a) % step == 0 with
    | some (_, _, _, delta) => Char.ofNat (n + delta).toNat
    | none => c

/-- A character that is ignored when the place of a letter in its word is looked for. -/
def isIgnorable (c : Char) : Bool :=
  inRuns c.toNat CaseTable.ignorable

/-- A cased character that is not ignored. -/
def isCased (c : Char) : Bool :=
  inRuns c.toNat CaseTable.cased

/-- Whether the first character that is not ignored is cased. -/
def startsCased (cs : List Char) : Bool :=
  match cs.dropWhile isIgnorable with
  | c :: _ => isCased c
  | [] => false

def capitalSigma : Char := Char.ofNat 0x3A3

/-- The lower case of the rest of a text, given the characters before it, the nearest first: a
sigma with a cased character before it and none after it ends its word. -/
def lowerAfter (before : List Char) : List Char → List Char
  | [] => []
  | c :: rest =>
    let small :=
      if c = capitalSigma then
        [Char.ofNat (if startsCased before && !startsCased rest then 0x3C2 else 0x3C3)]
      else if c.toNat = 0x130 then ['i', Char.ofNat 0x307]
      else [smallLetter c]
    small ++ lowerAfter (c :: before) rest

/-- The lower case of a text. -/
def lowerCase (s : String) : String :=
  String.ofList (lowerAfter [] s.toList)

end Runbook.Text
