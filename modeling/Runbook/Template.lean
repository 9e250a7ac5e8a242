import Runbook.Text.AsciiCase
import Runbook.Text.Decimal

set_option autoImplicit false

/-!
Texts with placeholders. A placeholder is a name between braces, the name being one or more ASCII
letters, digits, `_`, `-`, `.` or `$`. Rendering puts the value of the lower-cased name in its
place, nothing when the name has no value, and copies every other character. Values are not
looked at again.
-/
namespace Runbook.Template

open Text (lower)

/-- A character a placeholder name may hold. -/
def isNameChar (c : Char) : Bool :=
  c.isAlphanum || c == '_' || c == '-' || c == '.' || c == '$'

/-- The placeholder whose opening brace has just been read: its name and the text after its
closing brace. -/
def placeholder? (cs : List Char) : Option (List Char × List Char) :=
  match cs.takeWhile isNameChar, cs.dropWhile isNameChar with
  | c :: name, '}' :: rest => some (c :: name, rest)
  | _, _ => none

theorem placeholder?_length {cs name rest : List Char} (h : placeholder? cs = some (name, rest)) :
    rest.length < cs.length := by
  simp only [placeholder?] at h
  split at h
  · next c ns r htake hdrop =>
    obtain ⟨-, rfl⟩ := Prod.mk.inj (Option.some.inj h)
    have hl := congrArg List.length (List.takeWhile_append_dropWhile (p := isNameChar) (l := cs))
    rw [hdrop] at hl
    simp only [List.length_append, List.length_cons] at hl
    omega
  · exact absurd h (by simp)

/-- A part of a template: a character that stands for itself, or a placeholder's lower-cased
name. -/
inductive Part
  | char (c : Char)
  | slot (name : String)
  deriving DecidableEq

/-- The parts of a template, from left to right. -/
def parts (cs : List Char) : List Part :=
  match cs with
  | [] => []
  | c :: rest =>
    if c = '{' then
      match _h : placeholder? rest with
      | some (name, after) => .slot (String.ofList (lower name)) :: parts after
      | none => .char c :: parts rest
    else .char c :: parts rest
termination_by cs.length
decreasing_by
  · have := placeholder?_length _h
    simp only [List.length_cons]
    omega
  · simp
  · simp

def Part.fill (value : String → Option String) : Part → List Char
  | .char c => [c]
  | .slot name => ((value name).getD "").toList

/-- A template with every placeholder replaced by its value. -/
def render (value : String → Option String) (template : String) : String :=
  String.ofList ((parts template.toList).flatMap (Part.fill value))

def Part.name? : Part → Option String
  | .char _ => none
  | .slot name => some name

/-- Puts a name at its place in an increasing list that has none twice. -/
def placeName (name : String) : List String → List String
  | [] => [name]
  | n :: ns =>
    if name = n then n :: ns
    else if name < n then name :: n :: ns
    else n :: placeName name ns

/-- The lower-cased names a template refers to, in increasing order and each once. -/
def names (template : String) : List String :=
  ((parts template.toList).filterMap Part.name?).foldr placeName []

/-- Whether a text refers to any name. -/
def hasPlaceholder (text : String) : Bool :=
  (parts text.toList).any fun p => p.name?.isSome

end Runbook.Template
