import Runbook.Calendar.Date
import Runbook.Config.Value
import Runbook.Text.Numeral

set_option autoImplicit false

/-!
The scalars of TOML: strings of four kinds, integers, and those that no setting is.
-/
namespace Runbook.Config.Toml

open Text

/-- Whether a character may stand in a comment or in a string of one line. -/
def isOrdinary (c : Char) : Bool :=
  c == '\t' || (0x20 ≤ c.toNat && c.toNat != 0x7F)

def letterEscape : Char → Option Char
  | 'b' => some (Char.ofNat 8)
  | 't' => some '\t'
  | 'n' => some '\n'
  | 'f' => some (Char.ofNat 12)
  | 'r' => some '\r'
  | '"' => some '"'
  | '\\' => some '\\'
  | _ => none

/-- The character whose number hexadecimal digits are. -/
def numberEscape (ds : List Char) : Option Char := do
  let n ← inBase? 16 ds
  if Nat.isValidChar n then some (Char.ofNat n) else none

/-- Whether nothing but blanks is left of a line; the text from its break on. -/
def lineRest? (cs : List Char) : Option (List Char) :=
  match cs.dropWhile fun c => c == ' ' || c == '\t' with
  | '\n' :: rest => some ('\n' :: rest)
  | _ => none

/-- Reads a string that may hold escapes, after its opening quotes. At the end of a line of a
string of several lines a backslash drops all blanks and line breaks that follow; `dropping` says
that this is going on. -/
def basic (multiline : Bool) : Bool → List Char → Option (List Char × List Char)
  | _, [] => none
  | dropping, c :: rest =>
    if dropping ∧ (c = ' ' ∨ c = '\t' ∨ c = '\n') then basic multiline true rest
    else if c = '"' then
      if !multiline then some ([], rest)
      else
        match rest with
        | '"' :: '"' :: '"' :: '"' :: '"' :: _ => none
        | '"' :: '"' :: '"' :: '"' :: tail => some (['"', '"'], tail)
        | '"' :: '"' :: '"' :: tail => some (['"'], tail)
        | '"' :: '"' :: tail => some ([], tail)
        | _ => (basic multiline false rest).map fun (s, rest) => (c :: s, rest)
    else if c = '\\' then
      match rest with
      | 'u' :: a :: b :: c :: d :: tail => do
        let e ← numberEscape [a, b, c, d]
        let (s, rest) ← basic multiline false tail
        return (e :: s, rest)
      | 'U' :: a :: b :: c :: d :: a' :: b' :: c' :: d' :: tail => do
        let e ← numberEscape [a, b, c, d, a', b', c', d']
        let (s, rest) ← basic multiline false tail
        return (e :: s, rest)
      | e :: tail =>
        if multiline ∧ (lineRest? (e :: tail)).isSome then basic multiline true tail
        else do
          let e ← letterEscape e
          let (s, rest) ← basic multiline false tail
          return (e :: s, rest)
      | [] => none
    else if isOrdinary c ∨ (multiline ∧ c = '\n') then
      (basic multiline false rest).map fun (s, rest) => (c :: s, rest)
    else none

/-- Reads a string without escapes, after its opening quotes. -/
def literal (multiline : Bool) : List Char → Option (List Char × List Char)
  | [] => none
  | c :: rest =>
    if c = '\'' then
      if !multiline then some ([], rest)
      else
        match rest with
        | '\'' :: '\'' :: '\'' :: '\'' :: '\'' :: _ => none
        | '\'' :: '\'' :: '\'' :: '\'' :: tail => some (['\'', '\''], tail)
        | '\'' :: '\'' :: '\'' :: tail => some (['\''], tail)
        | '\'' :: '\'' :: tail => some ([], tail)
        | _ => (literal multiline rest).map fun (s, rest) => (c :: s, rest)
    else if isOrdinary c ∨ (multiline ∧ c = '\n') then
      (literal multiline rest).map fun (s, rest) => (c :: s, rest)
    else none

/-- A string of several lines does not hold a line break right after its opening quotes. -/
def withoutFirstBreak : List Char → List Char
  | '\n' :: rest => rest
  | rest => rest

/-- Reads a string of one line. -/
def lineString : List Char → Option (List Char × List Char)
  | '"' :: rest => basic false false rest
  | '\'' :: rest => literal false rest
  | _ => none

/-- Reads a string of any kind. -/
def string : List Char → Option (List Char × List Char)
  | '"' :: '"' :: '"' :: rest => basic true false (withoutFirstBreak rest)
  | '\'' :: '\'' :: '\'' :: rest => literal true (withoutFirstBreak rest)
  | cs => lineString cs

/-- Digits with single underscores between them, without the underscores. -/
def withoutUnderscores? (isDigit : Char → Bool) : List Char → Option (List Char)
  | [] => none
  | [c] => if isDigit c then some [c] else none
  | c :: '_' :: cs =>
    if isDigit c then (withoutUnderscores? isDigit cs).map (c :: ·) else none
  | c :: cs => if isDigit c then (withoutUnderscores? isDigit cs).map (c :: ·) else none

/-- Digits of base ten that start with a zero only if they are a zero. -/
def wholeDigits? (cs : List Char) : Option (List Char) :=
  (withoutUnderscores? isDigit cs).filter fun ds => ds.length = 1 ∨ ds.head? ≠ some '0'

/-- A text without a sign in front, and the sign. -/
def splitSign : List Char → Option Char × List Char
  | '+' :: cs => (some '+', cs)
  | '-' :: cs => (some '-', cs)
  | cs => (none, cs)

/-- Reads an integer of 64 bits. -/
def integer? (cs : List Char) : Option Int := do
  let (sign, body) := splitSign cs
  let isHex := fun c => (Json.hexValue c).isSome
  let told := match body with
    | '0' :: b :: ds =>
      if ['x', 'o', 'b'].contains b ∧ sign = none then
        (withoutUnderscores? isHex ds).bind fun ds => inToldBase? ('0' :: b :: ds)
      else none
    | _ => none
  let n ← told.orElse fun _ => (wholeDigits? body).map digitsValue
  let n : Int := if sign = some '-' then -(n : Int) else n
  if -(wordCount 63 : Int) ≤ n ∧ n < (wordCount 63 : Int) then some n else none

/-- Whether a word is a fraction: digits with a point, an exponent or both, an infinity, or no
number. -/
def isFraction (cs : List Char) : Bool :=
  let (sign, body) := splitSign cs
  let (number, power) := Numeral.splitExponent body
  let (whole, fraction) := number.span (· != '.')
  let powerOk := match power with
    | [] => true
    | _ :: power => (withoutUnderscores? isDigit (splitSign power).2).isSome
  let fractionOk := match fraction with
    | [] => power != []
    | _ :: ds => (withoutUnderscores? isDigit ds).isSome
  -- Digits above zero have to stand for a finite number.
  let isFinite := ((Numeral.unsigned? (body.filter (· != '_'))).map Numeral.isFinite).getD false
  body == ['i', 'n', 'f'] || body == ['n', 'a', 'n'] ||
    ((wholeDigits? whole).isSome && fractionOk && powerOk && (isFinite || sign == some '-'))

/-- Whether a word has the shape of another, in which a zero stands for any digit. -/
def hasShape (shape : String) (cs : List Char) : Bool :=
  shape.length == cs.length &&
    (shape.toList.zip cs).all fun (s, c) => if s = '0' then isDigit c else s == c

def numberAt (cs : List Char) (start length : Nat) : Nat :=
  digitsValue ((cs.drop start).take length)

/-- Whether a word is a date that exists. -/
def isDate (cs : List Char) : Bool :=
  hasShape "0000-00-00" cs &&
    decide (Calendar.Date.Valid ⟨numberAt cs 0 4, numberAt cs 5 2, numberAt cs 8 2⟩)

/-- Whether a word is a time of day, perhaps with a fraction of a second. A minute may have a leap
second. -/
def isTime (cs : List Char) : Bool :=
  hasShape "00:00:00" (cs.take 8) && numberAt cs 0 2 < 24 && numberAt cs 3 2 < 60 &&
    numberAt cs 6 2 ≤ 60 &&
    match cs.drop 8 with
    | [] => true
    | '.' :: ds => ds != [] && ds.all isDigit
    | _ => false

def isOffset (cs : List Char) : Bool :=
  (hasShape "+00:00" cs || hasShape "-00:00" cs) && numberAt cs 1 2 < 24 && numberAt cs 4 2 < 60

/-- Whether a word is a date, a time of day, or both with an offset or without one. -/
def isPointOfTime (cs : List Char) : Bool :=
  let clock := cs.drop 11
  let separated := ['T', 't', ' '].any fun c => (cs.drop 10).head? == some c
  let zoned := match clock.reverse with
    | 'Z' :: rest => isTime rest.reverse
    | 'z' :: rest => isTime rest.reverse
    | rest => isOffset (rest.take 6).reverse && isTime (rest.drop 6).reverse
  isTime cs || isDate cs || (isDate (cs.take 10) && separated && (isTime clock || zoned))

/-- A point of time as a value. It is not the value of a setting, and its name comes before the
names of all policies. -/
def pointOfTime : Value :=
  .table [("$time", .other)]

/-- Whether a character may stand in a word: a number, a truth value or a point of time. -/
def isWordChar (c : Char) : Bool :=
  c.isAlphanum || ['+', '-', '_', '.', ':'].contains c

/-- The word a text starts with. -/
def word (cs : List Char) : List Char × List Char :=
  let (first, rest) := cs.span isWordChar
  match rest with
  | ' ' :: rest =>
    -- A date and a time of day may have a blank between them.
    let (second, rest') := rest.span isWordChar
    if hasShape "0000-00-00" first && hasShape "00:" (second.take 3) then
      (first ++ ' ' :: second, rest')
    else (first, ' ' :: rest)
  | _ => (first, rest)

def wordValue? (cs : List Char) : Option Value :=
  if String.ofList cs = "true" ∨ String.ofList cs = "false" then some .other
  else
    match integer? cs with
    | some n => some (.int n)
    | none =>
      if isFraction cs then some .other
      else if isPointOfTime cs then some pointOfTime
      else none

end Runbook.Config.Toml
