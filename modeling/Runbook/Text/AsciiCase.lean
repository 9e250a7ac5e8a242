set_option autoImplicit false

/-!
Letter case of the ASCII letters. Names and keywords are compared without regard to it; every
other character stands for itself.
-/
namespace Runbook.Text

/-- Each ASCII capital replaced by its small letter. -/
def lower (cs : List Char) : List Char :=
  cs.map Char.toLower

/-- `lower` on strings. -/
def lowered (s : String) : String :=
  String.ofList (lower s.toList)

/-- Equality up to the case of ASCII letters. -/
def sameIgnoringCase (s t : String) : Bool :=
  lowered s == lowered t

/-- A character is a capital and has its small letter, or stands for itself. -/
theorem toLower_cases (c : Char) :
    (65 ≤ c.toNat ∧ c.toNat ≤ 90 ∧ c.toLower.toNat = c.toNat + 32) ∨ c.toLower = c := by
  by_cases h : c.val ≥ 'A'.val ∧ c.val ≤ 'Z'.val
  · have low : 65 ≤ c.val.toNat := UInt32.le_iff_toNat_le.1 h.1
    have high : c.val.toNat ≤ 90 := UInt32.le_iff_toNat_le.1 h.2
    have step : ('a'.val - 'A'.val).toNat = 32 := rfl
    have value : c.toLower.val = c.val + ('a'.val - 'A'.val) :=
      congrArg Char.val (dif_pos h : c.toLower = _)
    refine .inl ⟨low, high, ?_⟩
    change c.toLower.val.toNat = c.val.toNat + 32
    rw [value, UInt32.toNat_add, step]
    omega
  · exact .inr (dif_neg h)

theorem toLower_toLower (c : Char) : c.toLower.toLower = c.toLower := by
  rcases toLower_cases c.toLower with ⟨-, high, -⟩ | same
  · rcases toLower_cases c with ⟨low, -, small⟩ | itself
    · omega
    · rw [itself, itself]
  · exact same

@[simp] theorem lower_lower (cs : List Char) : lower (lower cs) = lower cs :=
  List.map_map.trans (List.map_congr_left fun c _ => toLower_toLower c)

@[simp] theorem toList_lowered (s : String) : (lowered s).toList = lower s.toList :=
  String.toList_ofList

@[simp] theorem lowered_lowered (s : String) : lowered (lowered s) = lowered s := by
  simp [lowered]

theorem sameIgnoringCase_iff {s t : String} : sameIgnoringCase s t = true ↔ lowered s = lowered t := by
  simp [sameIgnoringCase]

end Runbook.Text
