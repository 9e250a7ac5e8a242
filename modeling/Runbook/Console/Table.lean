import Runbook.Text.Blank
import Runbook.Text.Split

set_option autoImplicit false

/-!
Tables of texts in columns. A column is as wide as its widest cell; two blanks separate columns,
and no line ends with blanks.
-/
namespace Runbook.Console.Table

open Text (joined trimEndOf isBlank)

/-- The widths of the columns of some lines. -/
def widths (lines : List (List String)) : List Nat :=
  lines.foldl (fun ws line => widen ws (line.map String.utf8ByteSize)) []
where
  /-- The greater of two widths, column by column. -/
  widen : List Nat → List Nat → List Nat
    | [], bs => bs
    | as, [] => as
    | a :: as, b :: bs => max a b :: widen as bs

def alignedLeft (width : Nat) (text : String) : String :=
  text ++ String.ofList (List.replicate (width - text.length) ' ')

def line (ws : List Nat) (cells : List String) : String :=
  let text := joined "  " ((ws.zip cells).map fun (w, cell) => alignedLeft w cell)
  String.ofList (trimEndOf isBlank text.toList) ++ "\n"

def render (names : List String) (rows : List (List String)) : String :=
  let ws := widths (names :: rows)
  let rule := ws.map fun w => String.ofList (List.replicate w '-')
  String.join ((names :: rule :: rows).map (line ws))

end Runbook.Console.Table
