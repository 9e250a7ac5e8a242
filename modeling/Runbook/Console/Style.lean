import Runbook.Environment
import Runbook.Text.Decimal

set_option autoImplicit false

/-!
Texts for a terminal. A style says whether colors and bold letters are asked for by escape codes;
a plain style leaves every text as it is.
-/
namespace Runbook.Console

open Text (decimal)

/-- A color by its parts of red, green and blue, each up to 255. -/
structure Color where
  red : Nat
  green : Nat
  blue : Nat
  deriving DecidableEq, Repr

inductive Tone
  | good | caution | bad | muted
  deriving DecidableEq, Repr

def Tone.color : Tone → Color
  | .good => ⟨194, 217, 76⟩
  | .caution => ⟨255, 180, 84⟩
  | .bad => ⟨240, 113, 120⟩
  | .muted => ⟨108, 118, 128⟩

/-- An escape code that sets how letters look. -/
def escape (code : String) : String :=
  "\x1b[" ++ code ++ "m"

/-- Whether escape codes are written. -/
inductive Style
  | plain | colored
  deriving DecidableEq, Repr, Inhabited

namespace Style

def paint (s : Style) (t : Tone) (text : String) : String :=
  match s with
  | .plain => text
  | .colored =>
    let c := t.color
    escape ("38;2;" ++ decimal c.red ++ ";" ++ decimal c.green ++ ";" ++ decimal c.blue) ++ text ++
      escape "39"

def bold (s : Style) (text : String) : String :=
  match s with
  | .plain => text
  | .colored => escape "1" ++ text ++ escape "0"

def boldPaint (s : Style) (t : Tone) (text : String) : String :=
  s.bold (s.paint t text)

/-- The style an environment asks for. -/
def asked? (env : Environment) : Option Style :=
  -- What speaks against colors comes before what asks for them.
  if (env.get? "NO_COLOR").isSome ∨ env.get? "CLICOLOR" = some "0" ∨ env.get? "TERM" = some "dumb"
  then some .plain
  else if (env.get? "CLICOLOR_FORCE").isSome then some .colored
  else none

/-- The style of output that does not go to a terminal: plain, unless colors are asked for. -/
def ofEnvironment (env : Environment) : Style :=
  (asked? env).getD .plain

@[simp] theorem paint_plain (t : Tone) (text : String) : Style.plain.paint t text = text := rfl

@[simp] theorem bold_plain (text : String) : Style.plain.bold text = text := rfl

end Style
end Runbook.Console
