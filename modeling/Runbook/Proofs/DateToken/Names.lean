import Runbook.DateToken.Parser
import Runbook.Proofs.Text.Blank

set_option autoImplicit false

/-!
Names in date tokens. Units, outputs and styles are each found by their names, in whatever case;
outputs and styles may also be left blank. Since no name is that of two values, every value is found
by its own names, and what is found has that name.
-/
namespace Runbook.DateToken

open Text

/-- Names for the values of a type. No name is that of two values, and none is empty. -/
structure Naming (α : Type) where
  all : List α
  names : α → List String
  complete : ∀ a, a ∈ all
  apart : ∀ a ∈ all, ∀ b ∈ all, ∀ name ∈ names a, name ∈ names b → a = b
  nonempty : ∀ a ∈ all, "" ∉ names a

namespace Naming

variable {α : Type} (N : Naming α)

/-- A field is blank and stands for the usual value, or it is, between blanks and in whatever case,
a name of the value. -/
inductive Reads (usual : α) (field : String) : α → Prop
  | blank : isBlankText field = true → Reads usual field usual
  | named {a : α} : lowered (trimmed field) ∈ N.names a → Reads usual field a

def Unknown (field : String) : Prop :=
  isBlankText field = false ∧ ∀ a, lowered (trimmed field) ∉ N.names a

theorem reads_or_unknown (usual : α) (field : String) :
    (∃ a, N.Reads usual field a) ∨ N.Unknown field := by
  cases blank : isBlankText field with
  | true => exact .inl ⟨usual, .blank blank⟩
  | false =>
    by_cases named : ∃ a, lowered (trimmed field) ∈ N.names a
    · obtain ⟨a, named⟩ := named
      exact .inl ⟨a, .named named⟩
    · exact .inr ⟨blank, not_exists.1 named⟩

private theorem not_blank_of_named {field : String} {a : α}
    (h : lowered (trimmed field) ∈ N.names a) :
    isBlankText field = false := by
  rw [Bool.eq_false_iff]
  intro blank
  rw [(trimmed_eq_empty_iff field).2 blank] at h
  exact N.nonempty a (N.complete a) h

def find? (name : String) : Option α :=
  N.all.find? fun a => (N.names a).contains name

theorem find?_of_named {name : String} {a : α} (named : name ∈ N.names a) :
    N.find? name = some a := by
  have holds : ∃ b ∈ N.all, (N.names b).contains name = true :=
    ⟨a, N.complete a, List.contains_iff_mem.2 named⟩
  obtain ⟨b, found⟩ := Option.isSome_iff_exists.1 (List.find?_isSome.2 holds)
  have member := List.mem_of_find?_eq_some found
  have test := List.find?_some (p := fun a => (N.names a).contains name) found
  have other := List.contains_iff_mem.1 test
  rw [find?, found, N.apart b member a (N.complete a) name other named]

theorem find?_of_not_named {name : String} (unnamed : ∀ a, name ∉ N.names a) :
    N.find? name = none :=
  List.find?_eq_none.2 fun a _ holds => unnamed a (List.contains_iff_mem.1 holds)

def read (usual : α) (unknown : String → Error) (field : String) : Except Error α :=
  if trim field.toList = [] then .ok usual
  else
    match N.find? (lowered (trimmed field)) with
    | some a => .ok a
    | none => .error (unknown (lowered (trimmed field)))

variable {usual : α} {unknown : String → Error} {field : String}

theorem read_of_reads {a : α} (h : N.Reads usual field a) : N.read usual unknown field = .ok a := by
  rcases h with blank | named
  · exact if_pos ((trim_eq_nil_iff _).2 blank)
  · have solid := (trim_eq_nil_iff field.toList).not.2 (Bool.eq_false_iff.1 (N.not_blank_of_named named))
    rw [read, if_neg solid, N.find?_of_named named]

theorem read_of_unknown (h : N.Unknown field) :
    N.read usual unknown field = .error (unknown (lowered (trimmed field))) := by
  have solid := (trim_eq_nil_iff field.toList).not.2 (Bool.eq_false_iff.1 h.1)
  rw [read, if_neg solid, N.find?_of_not_named h.2]

end Naming

def Span.names (u : Span) : List String :=
  [u.name, u.singular]

def Span.naming : Naming Span where
  all := Span.all
  names := Span.names
  complete u := by cases u <;> decide
  apart := by decide +kernel
  nonempty := by decide +kernel

def Output.naming : Naming Output where
  all := Output.all
  names := Output.names
  complete o := by cases o <;> decide
  apart := by decide +kernel
  nonempty := by decide +kernel

def Style.naming : Naming Style where
  all := Style.all
  names s := [s.name]
  complete s := by cases s <;> decide
  apart := by decide +kernel
  nonempty := by decide +kernel

section Fields

variable {α : Type} (N : Naming α)

private theorem Naming.read_eq {usual : α} {unknown : String → Error} {field : String}
    {ofChars : List Char → Except Error α}
    (named : ofChars field.toList =
      match N.find? (lowered (trimmed field)) with
      | some a => .ok a
      | none => .error (unknown (lowered (trimmed field)))) :
    (if trim field.toList = [] then pure usual else ofChars field.toList) =
      N.read usual unknown field := by
  rw [named]
  rfl

theorem read_output (field : String) :
    (if trim field.toList = [] then pure .date else Output.ofChars field.toList) =
      Output.naming.read .date .unknownOutput field := by
  refine Output.naming.read_eq ?_
  have found : (Output.all.find? fun o => o.names.contains (lowered (trimmed field))) =
      Output.naming.find? (lowered (trimmed field)) := rfl
  rw [← found, Output.ofChars, lowered, toList_trimmed]
  cases Output.all.find? _ with
  | none => rfl
  | some o => rfl

theorem read_style (field : String) :
    (if trim field.toList = [] then pure .short else Style.ofChars field.toList) =
      Style.naming.read .short .unknownStyle field := by
  refine Style.naming.read_eq ?_
  have test (s : Style) : decide (lowered (trimmed field) = s.name) =
      [s.name].contains (lowered (trimmed field)) := by
    rw [Bool.eq_iff_iff, decide_eq_true_iff, List.contains_iff_mem]
    exact List.mem_singleton.symm
  have found : (Style.all.find? fun s => lowered (trimmed field) = s.name) =
      Style.naming.find? (lowered (trimmed field)) :=
    congrArg (fun p => Style.all.find? p) (funext test)
  rw [← found, Style.ofChars, lowered, toList_trimmed]
  cases Style.all.find? _ with
  | none => rfl
  | some s => rfl

end Fields

end Runbook.DateToken
