import Runbook.Keyed
import Runbook.Template
import Runbook.DateToken.Parser
import Runbook.DateToken.Rendering

set_option autoImplicit false

/-!
The variables of a session, with the clock and the offset that date tokens are read by. Names do
not distinguish the case of ASCII letters; a name that starts with `$` is reserved for date
bundles. A variable that is not set reads as the empty text.
-/
namespace Runbook

open Calendar Text

/-- The variables and the clock of a session. -/
structure Variables where
  store : Keyed String := .empty
  clock : Instant := ⟨0, 0⟩
  offset : Offset := .utc
  deriving DecidableEq, Inhabited

namespace Variables

def now (v : Variables) : Moment :=
  ⟨v.clock, v.offset⟩

def get? (v : Variables) (name : String) : Option String :=
  v.store.get? (lowered name)

/-- The value of a variable, empty when it is not set. -/
def get (v : Variables) (name : String) : String :=
  (v.get? name).getD ""

def contains (v : Variables) (name : String) : Bool :=
  (v.get? name).isSome

def set (v : Variables) (name value : String) : Variables :=
  { v with store := v.store.insert (lowered name) value }

/-- The variables with several set, from left to right. -/
def setAll (v : Variables) (pairs : List (String × String)) : Variables :=
  pairs.foldl (fun v p => v.set p.1 p.2) v

/-- The variables without one. -/
def erase (v : Variables) (name : String) : Variables :=
  { v with store := v.store.erase (lowered name) }

def isReserved (name : String) : Bool :=
  name.toList.head? = some '$'

/-- The variables whose names are reserved. -/
def clearUser (v : Variables) : Variables :=
  { v with store := v.store.filter fun name _ => isReserved name }

/-- The clock and the offset without any variables. -/
def clear (v : Variables) : Variables :=
  { v with store := .empty }

def size (v : Variables) : Nat :=
  v.store.size

/-- A text with its placeholders replaced by the values of the variables. -/
def substitute (v : Variables) (template : String) : String :=
  Template.render v.store.get? template

structure Expansion where
  value : String
  bundle : Keyed String
  changed : Nat
  deriving DecidableEq, Inhabited

/-- Puts in an entry and counts it, unless it is there already. -/
def mergeEntry (s : Variables × Nat) (e : String × String) : Variables × Nat :=
  if s.1.store.get? e.1 = some e.2 then s
  else ({ s.1 with store := s.1.store.insert e.1 e.2 }, s.2 + 1)

/-- The variables with a bundle's entries put in, and how many of them were not there before. -/
def merge (v : Variables) (bundle : Keyed String) : Variables × Nat :=
  bundle.entries.foldl mergeEntry (v, 0)

/-- Reads a date token and sets its bundle, and yields the variables as they are then. -/
def expandDate (v : Variables) (token : String) : Except DateToken.Error Expansion × Variables :=
  match DateToken.parse token with
  | .error e => (.error e, v)
  | .ok t =>
    match t.shifted? v.now with
    -- Nothing is set unless the token stands for a moment.
    | none => (.error (.outOfRange token), v)
    | some m =>
      let bundle := DateToken.bundle m
      let (v', changed) := v.merge bundle
      (.ok { value := DateToken.write m t.output t.style, bundle, changed }, v')

/-- The expansion of a token, for those that stop when there is none. -/
def expand (v : Variables) (token : String) : Except DateToken.Error (Expansion × Variables) :=
  let (outcome, v') := v.expandDate token
  outcome.map (·, v')

end Variables
end Runbook
