import Runbook.Text.Decimal
import Runbook.Text.Split

set_option autoImplicit false

/-!
Arguments of a command line in general. At each level of a command line there are options, words
and, below the level, commands. Arguments are taken from left to right, and the first one that
does not fit ends the reading.
-/
namespace Runbook.CommandLine

/-- Why reading ends before all arguments are taken. -/
inductive Stop
  | help
  /-- The version is asked for, perhaps that of a command. -/
  | version (command : Option String)
  | misuse (argument : String)
  deriving DecidableEq, Repr

structure ValueRule where
  /-- The texts that may be its value. -/
  accepts : String → Bool := fun _ => true
  /-- Whether a value in an argument of its own may look like an option. -/
  dashes : Bool := false
  /-- Whether the option may be given several times. -/
  repeats : Bool := false

/-- An option: a switch, or one with a value. -/
structure OptionRule where
  name : String
  short : Option Char := none
  value : Option ValueRule := none
  /-- A switch may end the reading. -/
  stop : Option Stop := none

/-- What may stand at a level of a command line. -/
structure Level where
  options : List OptionRule
  /-- The commands below the level. -/
  commands : List String := []
  /-- How many words there may be. -/
  words : Nat := 0
  /-- The texts that may be words. -/
  acceptsWord : String → Bool := fun _ => true

/-- What was given at a level. -/
structure Given where
  switches : List String := []
  values : List (String × String) := []
  words : List String := []
  deriving DecidableEq, Inhabited

/-- Whether a switch was given. -/
def Given.has (g : Given) (name : String) : Bool :=
  g.switches.contains name

def Given.value? (g : Given) (name : String) : Option String :=
  g.values.lookup name

/-- All values of an option, in their order. -/
def Given.all (g : Given) (name : String) : List String :=
  (g.values.filter (·.1 == name)).map (·.2)

/-- Takes a switch; none may be given twice. -/
def Given.addSwitch (g : Given) (o : OptionRule) : Except Stop Given :=
  match o.stop with
  | some stop => .error stop
  | none =>
    if g.has o.name then .error (.misuse o.name)
    else .ok { g with switches := g.switches ++ [o.name] }

def Given.addValue (g : Given) (o : OptionRule) (r : ValueRule) (value : String) :
    Except Stop Given :=
  if !r.accepts value || (!r.repeats && (g.value? o.name).isSome) then .error (.misuse o.name)
  else .ok { g with values := g.values ++ [(o.name, value)] }

def Given.addWord (g : Given) (l : Level) (word : String) : Except Stop Given :=
  if g.words.length < l.words ∧ l.acceptsWord word then .ok { g with words := g.words ++ [word] }
  else .error (.misuse word)

/-- Takes the letters of an argument with a single dash, which are switches. -/
def Given.addLetters (g : Given) (l : Level) : List Char → Except Stop Given
  | [] => .ok g
  | c :: cs =>
    match l.options.find? (·.short == some c) with
    | some o => do (← g.addSwitch o).addLetters l cs
    | none => .error (.misuse (String.ofList ['-', c]))

/-- Whether an argument looks like an option; a single dash is a word. -/
def looksLikeOption (argument : String) : Bool :=
  match argument.toList with
  | '-' :: _ :: _ => true
  | _ => false

/-- The name of an option and the value attached to it by an equals sign. -/
def splitOption (cs : List Char) : String × Option String :=
  match Text.cut '=' cs with
  | some (name, value) => (String.ofList name, some (String.ofList value))
  | none => (String.ofList cs, none)

/-- Takes arguments up to the first command of the level, if there is one; gives also the command
and what follows it. -/
def Level.read (l : Level) : Given → List String →
    Except Stop (Given × Option (String × List String))
  | g, [] => .ok (g, none)
  | g, argument :: rest =>
    if l.commands.contains argument then .ok (g, some (argument, rest))
    else
      match argument.toList with
      -- After two dashes there are only words.
      | ['-', '-'] => do return (← rest.foldlM (·.addWord l) g, none)
      | '-' :: '-' :: option =>
        let (name, attached) := splitOption option
        match l.options.find? (·.name == name) with
        | none => .error (.misuse argument)
        | some o =>
          match o.value, attached with
          | none, none => do l.read (← g.addSwitch o) rest
          | none, some _ => .error (.misuse argument)
          | some r, some value => do l.read (← g.addValue o r value) rest
          | some r, none =>
            match rest with
            | [] => .error (.misuse argument)
            | value :: rest =>
              if looksLikeOption value && !r.dashes then .error (.misuse argument)
              else do l.read (← g.addValue o r value) rest
      | '-' :: c :: cs => do l.read (← g.addLetters l (c :: cs)) rest
      | _ => do l.read (← g.addWord l argument) rest

end Runbook.CommandLine
