import Runbook.Text.Split

set_option autoImplicit false

/-!
Paths as texts: components between slashes. Empty components and single points mean nothing,
except a point at the very beginning; a path that starts with a slash is absolute.
-/
namespace Runbook.Path

open Text

def isAbsolute (p : String) : Bool :=
  p.toList.head? == some '/'

def pieces (p : String) : List String :=
  (splitAt '/' p.toList).map String.ofList

/-- Whether the piece at place `i` is a component of the path. -/
def counts (p : String) (i : Nat) (piece : String) : Bool :=
  piece != "" && (piece != "." || (i == 0 && !isAbsolute p))

/-- The places of the components among the pieces. -/
def places (p : String) : List Nat :=
  ((pieces p).zipIdx.filter fun (piece, i) => counts p i piece).map (·.2)

/-- The last component. -/
def last? (p : String) : Option String :=
  (places p).getLast?.bind fun i => (pieces p)[i]?

def fileName? (p : String) : Option String :=
  (last? p).filter fun name => name != ".." && name != "."

/-- The path without its last component; `none` for the empty path and for the root. -/
def parent? (p : String) : Option String :=
  match (places p).reverse with
  | [] => none
  | _ :: [] => some (if isAbsolute p then "/" else "")
  | _ :: i :: _ => some (joined "/" ((pieces p).take (i + 1)))

/-- A file name cut at its last point, unless that is its first character. -/
def splitExtension (name : String) : String × Option String :=
  match (splitAt '.' name.toList).reverse with
  | ext :: rest@(_ :: _) =>
    let stem := joinAt '.' rest.reverse
    if stem = [] then (name, none) else (String.ofList stem, some (String.ofList ext))
  | _ => (name, none)

/-- The name of the file without its extension. -/
def stem? (p : String) : Option String :=
  (fileName? p).map fun name => (splitExtension name).1

def extension? (p : String) : Option String :=
  (fileName? p).bind fun name => (splitExtension name).2

/-- A path taken from a directory; an absolute path stays. -/
def join (dir p : String) : String :=
  if isAbsolute p || dir == "" then p
  else if dir.toList.getLast? == some '/' then dir ++ p
  else dir ++ "/" ++ p

end Runbook.Path
