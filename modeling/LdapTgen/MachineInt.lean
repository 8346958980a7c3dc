import Mathlib

/-! Signed integers of 32 bits: the values that fit, and what an operation leaves of a value that does
not. -/
namespace LdapTgen.MachineInt

def FitsInt32 (x : ℤ) : Prop := -2 ^ 31 ≤ x ∧ x < 2 ^ 31

def int32 (x : ℤ) : ℤ := x.bmod (2 ^ 32)

variable {x : ℤ}

lemma int32_fits (x : ℤ) : FitsInt32 (int32 x) := by
  have hlo := Int.le_bmod (x := x) (show 0 < 2 ^ 32 by decide)
  have hhi := Int.bmod_lt (x := x) (show 0 < 2 ^ 32 by decide)
  constructor
  · rw [int32]
    omega
  · rw [int32]
    omega

lemma int32_of_fits (h : FitsInt32 x) : int32 x = x := by
  obtain ⟨hlo, hhi⟩ := h
  exact Int.bmod_eq_of_le_mul_two (by omega) (by omega)

lemma int32_of_ge (hlo : 2 ^ 31 ≤ x) (hhi : x < 2 ^ 32 + 2 ^ 31) : int32 x = x - 2 ^ 32 := by
  have hturn : int32 (x - 2 ^ 32) = int32 x := by
    exact_mod_cast Int.sub_bmod_right x (2 ^ 32)
  rw [← hturn, int32_of_fits (by constructor <;> omega)]

lemma int32_of_lt (hhi : x < -2 ^ 31) (hlo : -2 ^ 32 - 2 ^ 31 ≤ x) : int32 x = x + 2 ^ 32 := by
  have hturn : int32 (x + 2 ^ 32) = int32 x := by
    exact_mod_cast Int.add_bmod_right x (2 ^ 32)
  rw [← hturn, int32_of_fits (by constructor <;> omega)]

lemma int32_cases (hlo : -2 ^ 32 - 2 ^ 31 ≤ x) (hhi : x < 2 ^ 32 + 2 ^ 31) :
    (FitsInt32 x ∧ int32 x = x) ∨ (2 ^ 31 ≤ x ∧ int32 x = x - 2 ^ 32) ∨
      (x < -2 ^ 31 ∧ int32 x = x + 2 ^ 32) := by
  rcases lt_or_ge x (-2 ^ 31) with hneg | hge
  · exact .inr (.inr ⟨hneg, int32_of_lt hneg hlo⟩)
  · rcases lt_or_ge x (2 ^ 31) with hlt | hpos
    · exact .inl ⟨⟨hge, hlt⟩, int32_of_fits ⟨hge, hlt⟩⟩
    · exact .inr (.inl ⟨hpos, int32_of_ge hpos hhi⟩)

end LdapTgen.MachineInt
