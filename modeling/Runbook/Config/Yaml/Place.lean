import Runbook.Config.Yaml.Text

set_option autoImplicit false

/-!
Places in a YAML text, the way from one token to the next, and plain scalars, which go on over all
lines that are indented far enough.
-/
namespace Runbook.Config.Yaml

/-- Where a character stands. -/
structure Spot where
  line : Nat := 0
  /-- How many characters stand before it in its line. -/
  column : Nat := 0
  /-- How many bytes these take. -/
  bytes : Nat := 0

/-- Where the character after one stands. -/
def Spot.past (s : Spot) (c : Char) : Spot :=
  if isBreak c then { line := s.line + 1 }
  else ⟨s.line, s.column + 1, s.bytes + c.utf8Size⟩

/-- What is left to be read, and where it stands. -/
structure Place extends Spot where
  rest : List Char

/-- The place after so many characters. -/
def Place.advance : Nat → Place → Place
  | 0, p => p
  | n + 1, p =>
    match p.rest with
    | [] => p
    | c :: cs => advance n ⟨p.toSpot.past c, cs⟩

/-- The place at which so much of the text is left. -/
def Place.at (p : Place) (left : List Char) : Place :=
  p.advance (p.rest.length - left.length)

/-- A mark of the order of bytes, which says nothing here. -/
def byteOrderMark : Char := Char.ofNat 0xFEFF

/-- Goes on to the next token, over blanks, comments and line breaks, and says whether a key may
start there. -/
def Place.skipFrom (inBrackets : Bool) (comment keyAllowed : Bool) (s : Spot) :
    List Char → Place × Bool
  | [] => (⟨s, []⟩, keyAllowed)
  | c :: cs =>
    -- Outside brackets a line break allows a key, and where a key is allowed a tab is no blank.
    if isBreak c then skipFrom inBrackets false (keyAllowed || !inBrackets) (s.past c) cs
    else if comment || c == '#' then skipFrom inBrackets true keyAllowed (s.past c) cs
    else if c == ' ' || (c == '\t' && (inBrackets || !keyAllowed)) ||
        (c == byteOrderMark && s.column == 0) then
      skipFrom inBrackets false keyAllowed (s.past c) cs
    else (⟨s, c :: cs⟩, keyAllowed)

/-- The place of the next token, and whether a key may start there. -/
def Place.skip (p : Place) (inBrackets keyAllowed : Bool) : Place × Bool :=
  skipFrom inBrackets false keyAllowed p.toSpot p.rest

/-- Characters that end a plain scalar within brackets, and cannot start one. -/
def flowMarks : List Char := [',', '[', ']', '{', '}']

/-- Characters that cannot start a plain scalar. -/
def indicators : List Char :=
  flowMarks ++ ['#', '&', '*', '!', '|', '>', '\'', '"', '%', '@', Char.ofNat 0x60]

def startsPlain (inBrackets : Bool) : List Char → Bool
  | [] => false
  | c :: cs =>
    if c = '-' then !atGap cs
    else if c = '?' ∨ c = ':' then !inBrackets && !atGap cs
    else !(indicators.contains c || isInline c || isBreak c)

/-- Reads a plain scalar whose later lines are indented by `indent` columns at least; gives also
what is left, and whether the scalar was found to end in a later line. -/
def plainFrom (inBrackets : Bool) (indent : Nat) :
    Folding → Nat → List Char → Option (List Char × List Char × Bool)
  | f, _, [] => some (f.text, [], !f.breaks.isEmpty)
  | f, column, c :: cs =>
    let broken := !f.breaks.isEmpty
    let inGap := broken || !f.blanks.isEmpty
    let tooFarLeft := broken && column < indent
    if isBreak c then plainFrom inBrackets indent (f.lineBreak c) 0 cs
    else if isInline c then
      -- Only tabs have to be indented within brackets too.
      if c = '\t' && tooFarLeft then none
      else plainFrom inBrackets indent (f.blank c) (column + 1) cs
    else if (tooFarLeft && !inBrackets) || (inGap && c == '#') ||
        (column == 0 && atMark (c :: cs)) || (c == ':' && atGap cs) ||
        (inBrackets && flowMarks.contains c) then
      some (f.text, c :: cs, broken)
    -- Within brackets a colon must not stand before a bracket or a comma.
    else if inBrackets && c == ':' && ('?' :: flowMarks).any (cs.head? == some ·) then none
    else plainFrom inBrackets indent (f.add c) (column + 1) cs

def Place.plain (p : Place) (inBrackets : Bool) (indent : Nat) :
    Option (String × Place × Bool) :=
  (plainFrom inBrackets indent {} p.column p.rest).map fun (text, left, broken) =>
    (String.ofList text, p.at left, broken)

def Place.quoted (p : Place) : Option (String × Place) :=
  (Yaml.quoted p.rest).map fun (text, left) => (String.ofList text, p.at left)

/-- Reads the rest of a line that holds at most a comment, and its break. -/
def endOfLine (cs : List Char) : Option (List Char) :=
  match (cs.dropWhile isInline) with
  | [] => some []
  | c :: rest =>
    if isBreak c then some rest
    else if c = '#' then some ((rest.dropWhile fun c => !isBreak c).drop 1)
    else none

end Runbook.Config.Yaml
