import Runbook.Config.Yaml.Text
import Runbook.Text.Line

set_option autoImplicit false

/-!
Names that stand before a value or in a directive: anchors, and tags, which say what kind of value
follows. A tag is written with a handle, which stands for the beginning of its name, or in full.
-/
namespace Runbook.Config.Yaml

/-- Whether a character may stand in the name of an anchor, of a directive or of a handle. -/
def isWordChar (c : Char) : Bool :=
  c.isAlphanum || c == '_' || c == '-'

/-- Whether the name of an anchor may end before a text. -/
def endsAnchor (cs : List Char) : Bool :=
  atGap cs || ['?', ':', ',', ']', '}', '%', '@', Char.ofNat 0x60].any (cs.head? == some ·)

def anchorName (cs : List Char) : Option (String × List Char) :=
  let (name, rest) := cs.span isWordChar
  if name ≠ [] ∧ endsAnchor rest then some (String.ofList name, rest) else none

/-- Whether a character may stand in a tag as it is. In a tag between angle brackets and in a
directive commas and square brackets may stand as well. -/
def isTagChar (anyPlace : Bool) (c : Char) : Bool :=
  isWordChar c ||
    [';', '/', '?', ':', '@', '&', '=', '+', '$', '.', '!', '~', '*', '\'', '(', ')'].contains c ||
    (anyPlace && [',', '[', ']'].contains c)

/-- How many more bytes the character has that starts with a byte. -/
def bytesAfter? (byte : Nat) : Option Nat :=
  if byte < 0x80 then some 0
  else if byte < 0xC0 then none
  else if byte < 0xE0 then some 1
  else if byte < 0xF0 then some 2
  else if byte < 0xF8 then some 3
  else none

/-- Reads the bytes of a tag, given how many have to follow as parts of a character. -/
def tagBytes (anyPlace : Bool) : Nat → List Char → Option (List UInt8 × List Char)
  -- After a percent sign a byte is written in base sixteen.
  | due, '%' :: a :: b :: cs => do
    let byte := 16 * (← Json.hexValue a) + (← Json.hexValue b)
    let due ← match due with
      | 0 => bytesAfter? byte
      | due + 1 => if 0x80 ≤ byte ∧ byte < 0xC0 then some due else none
    let (bytes, rest) ← tagBytes anyPlace due cs
    return (byte.toUInt8 :: bytes, rest)
  | 0, [] => some ([], [])
  | 0, c :: cs =>
    if isTagChar anyPlace c then
      (tagBytes anyPlace 0 cs).map fun (bytes, rest) => (c.toNat.toUInt8 :: bytes, rest)
    else if c = '%' then none
    else some ([], c :: cs)
  | _ + 1, _ => none

/-- The bytes of a tag up to a zero, which ends it. -/
def beforeZero (bytes : List UInt8) : List UInt8 :=
  bytes.takeWhile (· != 0)

/-- A tag as it is written: its handle, if it has one, and the bytes after it. -/
structure WrittenTag where
  handle : String
  bytes : List UInt8
  deriving DecidableEq

/-- The handle of tags that are private to a document. -/
def privateHandle : String := "!"

/-- The handle of the tags that are known everywhere. -/
def knownHandle : String := "!!"

/-- Reads a tag, from its first mark on. -/
def writtenTag (cs : List Char) : Option (WrittenTag × List Char) :=
  match cs with
  | '!' :: '<' :: cs => do
    let (bytes, rest) ← tagBytes true 0 cs
    match rest with
    | '>' :: rest => if bytes = [] then none else some (⟨"", beforeZero bytes⟩, rest)
    | _ => none
  | '!' :: cs =>
    let (word, rest) := cs.span isWordChar
    match rest with
    | '!' :: rest => do
      let (bytes, rest) ← tagBytes false 0 rest
      if bytes = [] then none
      else some (⟨String.ofList ('!' :: word ++ ['!']), beforeZero bytes⟩, rest)
    | _ => do
      let (bytes, rest) ← tagBytes false 0 cs
      let bytes := beforeZero bytes
      return (if bytes = [] then ⟨"", ['!'.toNat.toUInt8]⟩ else ⟨privateHandle, bytes⟩, rest)
  | _ => none

/-- Whether a tag may end before a text. -/
def endsTag (inBrackets : Bool) (cs : List Char) : Bool :=
  atGap cs || (inBrackets && cs.head? == some ',')

/-- What a tag says of its value. -/
inductive Tag
  /-- A name that only a document gives. -/
  | custom (name : String)
  /-- A name that means the same everywhere. -/
  | known (name : String)
  deriving DecidableEq

/-- The tag of bytes. -/
def Tag.ofBytes? (bytes : List UInt8) : Option Tag :=
  let text := fun bytes => (Text.decodeUtf8 bytes).map String.ofList
  match bytes with
  | [] => some (.known "")
  | b :: rest =>
    -- A custom name that is no text says nothing.
    if b.toNat = '!'.toNat then (text rest).map .custom else some (.known ((text bytes).getD ""))

/-- What handles stand for. -/
abbrev Handles := List (String × List UInt8)

/-- What handles stand for where nothing else is said. -/
def usualHandles : Handles :=
  [(privateHandle, privateHandle.toUTF8.toList), (knownHandle, "tag:yaml.org,2002:".toUTF8.toList)]

/-- All bytes of a tag. `none` if its handle stands for nothing. -/
def WrittenTag.fullBytes? (t : WrittenTag) (handles : Handles) : Option (List UInt8) :=
  if t.handle = "" then some t.bytes
  else (handles.lookup t.handle).map (· ++ t.bytes)

inductive Directive
  | version (major minor : Nat)
  | handle (handle : String) (bytes : List UInt8)
  deriving DecidableEq

/-- The text after the blanks it starts with. -/
def afterBlanks (cs : List Char) : List Char :=
  cs.dropWhile isInline

/-- Reads one of the numbers of a version, which has at most nine digits. -/
def versionNumber (cs : List Char) : Option (Nat × List Char) :=
  let (ds, rest) := cs.span Text.isDigit
  if ds ≠ [] ∧ ds.length ≤ 9 then some (Text.digitsValue ds, rest) else none

def directiveHandle (cs : List Char) : Option (String × List Char) :=
  match cs with
  | '!' :: cs =>
    let (word, rest) := cs.span isWordChar
    match rest with
    | '!' :: rest => some (String.ofList ('!' :: word ++ ['!']), rest)
    | _ => if word = [] then some (privateHandle, rest) else none
  | _ => none

/-- Reads a directive after its mark, without the end of its line. -/
def directive (cs : List Char) : Option (Directive × List Char) := do
  let (name, rest) := cs.span isWordChar
  guard (atGap rest)
  match String.ofList name with
  | "YAML" =>
    let (major, rest) ← versionNumber (afterBlanks rest)
    match rest with
    | '.' :: rest =>
      let (minor, rest) ← versionNumber rest
      return (.version major minor, rest)
    | _ => none
  | "TAG" =>
    let (handle, rest) ← directiveHandle (afterBlanks rest)
    guard ((rest.head?.map isInline).getD false)
    let (bytes, rest) ← tagBytes true 0 (afterBlanks rest)
    guard (bytes ≠ [] && atGap rest)
    return (.handle handle (beforeZero bytes), rest)
  | _ => none

end Runbook.Config.Yaml
