import Runbook.Config.Yaml.Place
import Runbook.Text.Decimal

set_option autoImplicit false

/-!
Literal and folded blocks: scalars of whole lines. A block ends before the first line that is
indented less than its own first line.
-/
namespace Runbook.Config.Yaml

/-- What becomes of the line breaks at the end of a block. -/
inductive Chomping
  | strip | clip | keep
  deriving DecidableEq

/-- The first line of a block: how it is chomped, and how far it is indented if that is told. -/
structure BlockHeader where
  chomping : Chomping := .clip
  indentation : Option Nat := none

/-- Reads the marks of a block's first line, each kind at most once. -/
def blockMarks : Nat → BlockHeader → List Char → Option (BlockHeader × List Char)
  | marks + 1, h, c :: cs =>
    if (c = '+' ∨ c = '-') ∧ h.chomping = .clip then
      blockMarks marks { h with chomping := if c = '+' then .keep else .strip } cs
    else if Text.isDigit c ∧ h.indentation = none then
      if c = '0' then none
      else blockMarks marks { h with indentation := some (Text.digitValue c) } cs
    else some (h, c :: cs)
  | _, h, cs => some (h, cs)

/-- The blanks a line begins with, at most `limit` if there is one, and the rest. -/
def dropIndent (limit : Option Nat) (cs : List Char) : Nat × List Char :=
  let n := (cs.takeWhile (· == ' ')).length
  let n := match limit with
    | some limit => min n limit
    | none => n
  (n, cs.drop n)

/-- Passes over empty lines: their line breaks, the widest indentation seen, the indentation of
the next line that is not empty, and that line without it. -/
def emptyLines (limit : Option Nat) : Nat → List Char → Nat → List Char →
    Option (List Char × Nat × Nat × List Char)
  | 0, breaks, widest, cs => some (breaks, widest, 0, cs)
  | fuel + 1, breaks, widest, cs =>
    let (column, body) := dropIndent limit cs
    let widest := max widest column
    match body with
    | [] => some (breaks, widest, column, [])
    | c :: body =>
      if isBreak c then emptyLines limit fuel (breaks ++ [c]) widest body
      else if c = '\t' ∧ limit.all (column < ·) then none
      else some (breaks, widest, column, c :: body)

/-- The lines of a block that is indented by `indent` columns: each with the empty lines after it.
The break of a line and those of the lines after it are kept apart. -/
def blockLines (indent : Nat) : Nat → Nat → List Char →
    Option (List (List Char × List Char × List Char) × List Char)
  | 0, _, cs => some ([], cs)
  | fuel + 1, column, cs =>
    if column ≠ indent ∨ cs = [] then some ([], cs)
    else
      let (line, tail) := cs.span fun c => !isBreak c
      match emptyLines (some indent) (tail.length + 1) [] 0 (tail.drop 1) with
      | none => none
      | some (breaks, _, column, rest) =>
        match blockLines indent fuel column rest with
        | none => none
        | some (lines, rest) => some ((line, tail.take 1, breaks) :: lines, rest)

/-- Whether a line of a block starts with a blank; such lines are not folded. -/
def isMoreIndented (line : List Char) : Bool :=
  (line.head?.map isInline).getD false

/-- The text of a block's lines. -/
def blockText (folded : Bool) (chomping : Chomping) :
    List (List Char × List Char × List Char) → List Char
  | [] => []
  | [(line, lineEnd, breaks)] =>
    line ++ (if chomping = .strip then [] else lineEnd) ++ (if chomping = .keep then breaks else [])
  | (line, lineEnd, breaks) :: next :: lines =>
    -- In a folded block a break reads as a blank, or as nothing if empty lines follow it.
    let between :=
      if folded && lineEnd == ['\n'] && !isMoreIndented line && !isMoreIndented next.1 then
        if breaks = [] then [' '] else breaks
      else lineEnd ++ breaks
    line ++ between ++ blockText folded chomping (next :: lines)

/-- Reads a block after its first mark; its lines are indented by `indent` columns at least. -/
def block (folded : Bool) (indent : Nat) (cs : List Char) : Option (List Char × List Char) := do
  let (header, rest) ← blockMarks 2 {} cs
  let rest ← endOfLine rest
  let limit := header.indentation.map fun n => indent - 1 + n
  let (leading, widest, column, rest) ← emptyLines limit (rest.length + 1) [] 0 rest
  let width := limit.getD (max widest (max indent 1))
  let (lines, rest) ← blockLines width (rest.length + 1) column rest
  let text := match lines with
    | [] => if header.chomping = .keep then leading else []
    | lines => leading ++ blockText folded header.chomping lines
  return (text, rest)

def Place.block (p : Place) (folded : Bool) (indent : Nat) : Option (String × Place) :=
  (Yaml.block folded indent (p.rest.drop 1)).map fun (text, left) => (String.ofList text, p.at left)

end Runbook.Config.Yaml
