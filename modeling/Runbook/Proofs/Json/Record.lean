import Runbook.Json.Record

set_option autoImplicit false

/-!
Records that are written as objects. A field is read from the members that have one of its names:
from the only one of them, or, when there is none, as what the field stands for when it is left out.
-/
namespace Runbook.Json

@[simp] theorem isRecord_obj (size : Nat) (members : List (String × Json)) :
    isRecord size (.obj members) = true := rfl

section Matching

variable {f : Field} {name : String}

@[simp] theorem matching_nil : f.matching [] = [] := rfl

@[simp] theorem matching_append (l l' : List (String × Json)) :
    f.matching (l ++ l') = f.matching l ++ f.matching l' := by
  simp [Field.matching]

@[simp] theorem matching_cons_of_mem (h : f.names.contains name = true) (j : Json)
    (l : List (String × Json)) : f.matching ((name, j) :: l) = j :: f.matching l := by
  simp only [Field.matching, List.filter_cons, h, if_true, List.map_cons]

@[simp] theorem matching_cons_of_not_mem (h : f.names.contains name = false) (j : Json)
    (l : List (String × Json)) : f.matching ((name, j) :: l) = f.matching l := by
  simp only [Field.matching, List.filter_cons, h, Bool.false_eq_true, if_false]

@[simp] theorem matching_unless {c : Prop} [Decidable c] (l : List (String × Json)) :
    f.matching (if c then [] else l) = if c then [] else f.matching l := by
  split
  · rfl
  · rfl

end Matching

section Reading

variable {α : Type} {absent x : α} {read : Json → Option α}

/-- What is read from the values that are given for a field: several are not readable. -/
def readOnly (absent : Option α) (read : Json → Option α) : List Json → Option α
  | [] => absent
  | [j] => read j
  | _ => none

theorem required_obj (l : List (String × Json)) (f : Field) (read : Json → Option α) :
    required (.obj l) f read = readOnly none read (f.matching l) := by
  simp only [required, field]
  generalize f.matching l = values
  match values with
  | [] | [_] | _ :: _ :: _ => rfl

theorem optional_obj (l : List (String × Json)) (f : Field) (absent : α)
    (read : Json → Option α) :
    optional (.obj l) f absent read = readOnly (some absent) read (f.matching l) := by
  simp only [optional, field]
  generalize f.matching l = values
  match values with
  | [] | [_] | _ :: _ :: _ => rfl

@[simp] theorem readOnly_singleton (absent : Option α) (j : Json) :
    readOnly absent read [j] = read j := rfl

theorem readOnly_unless {c : Prop} [Decidable c] {j : Json} (left : c → x = absent)
    (given : read j = some x) :
    readOnly (some absent) read (if c then [] else [j]) = some x := by
  split
  · next none => exact congrArg some (left none).symm
  · exact given

theorem readOnly_text (text : String) :
    readOnly (some "") str? (if text = "" then [] else [.str text]) = some text :=
  readOnly_unless id rfl

end Reading

end Runbook.Json
