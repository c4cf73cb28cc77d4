import Mathlib

/-!
# Saturating arithmetic on machine words

The order of `UInt64`, and the clamped operations with their values as natural numbers. The
lemmas `lt_iff_toNat` and so on of the standard library bring comparisons down to `Nat` as well, so
that a goal about words becomes a goal for `omega`.
-/

namespace UInt64

instance linearOrder : LinearOrder UInt64 where
  le_refl := UInt64.le_refl
  le_trans _ _ _ := UInt64.le_trans
  lt_iff_le_not_ge a b := by
    rw [UInt64.not_le]
    exact ⟨fun h => ⟨UInt64.le_of_lt h, h⟩, fun h => h.2⟩
  le_antisymm _ _ := UInt64.le_antisymm
  le_total := UInt64.le_total
  toDecidableLE := inferInstance

/-- Addition that stops at the largest word. -/
def saturatingAdd (a b : UInt64) : UInt64 := .ofNat (min (a.toNat + b.toNat) (2 ^ 64 - 1))

/-- Subtraction that stops at zero. -/
def saturatingSub (a b : UInt64) : UInt64 := .ofNat (a.toNat - b.toNat)

/-- Multiplication that stops at the largest word. -/
def saturatingMul (a b : UInt64) : UInt64 := .ofNat (min (a.toNat * b.toNat) (2 ^ 64 - 1))

@[simp] theorem toNat_saturatingAdd (a b : UInt64) :
    (a.saturatingAdd b).toNat = min (a.toNat + b.toNat) (2 ^ 64 - 1) :=
  UInt64.toNat_ofNat_of_lt' (by simp only [UInt64.size]; omega)

@[simp] theorem toNat_saturatingSub (a b : UInt64) :
    (a.saturatingSub b).toNat = a.toNat - b.toNat :=
  UInt64.toNat_ofNat_of_lt' (by have := a.toNat_lt; simp only [UInt64.size]; omega)

@[simp] theorem toNat_saturatingMul (a b : UInt64) :
    (a.saturatingMul b).toNat = min (a.toNat * b.toNat) (2 ^ 64 - 1) :=
  UInt64.toNat_ofNat_of_lt' (by simp only [UInt64.size]; omega)

/-- A word is zero exactly when its value is. -/
theorem eq_zero_iff_toNat {a : UInt64} : a = 0 ↔ a.toNat = 0 := by
  rw [← UInt64.toNat_inj]; rfl

theorem ne_zero_iff_toNat_pos {a : UInt64} : a ≠ 0 ↔ 0 < a.toNat := by
  rw [ne_eq, eq_zero_iff_toNat]; omega

end UInt64

namespace UInt32

/-- Addition that stops at the largest word. -/
def saturatingAdd (a b : UInt32) : UInt32 := .ofNat (min (a.toNat + b.toNat) (2 ^ 32 - 1))

/-- Subtraction that stops at zero. -/
def saturatingSub (a b : UInt32) : UInt32 := .ofNat (a.toNat - b.toNat)

/-- Multiplication that stops at the largest word. -/
def saturatingMul (a b : UInt32) : UInt32 := .ofNat (min (a.toNat * b.toNat) (2 ^ 32 - 1))

@[simp] theorem toNat_saturatingAdd (a b : UInt32) :
    (a.saturatingAdd b).toNat = min (a.toNat + b.toNat) (2 ^ 32 - 1) :=
  UInt32.toNat_ofNat_of_lt' (by simp only [UInt32.size]; omega)

@[simp] theorem toNat_saturatingSub (a b : UInt32) :
    (a.saturatingSub b).toNat = a.toNat - b.toNat := by
  have hlt := a.toNat_lt
  exact UInt32.toNat_ofNat_of_lt' (by simp only [UInt32.size]; omega)

@[simp] theorem toNat_saturatingMul (a b : UInt32) :
    (a.saturatingMul b).toNat = min (a.toNat * b.toNat) (2 ^ 32 - 1) :=
  UInt32.toNat_ofNat_of_lt' (by simp only [UInt32.size]; omega)

end UInt32
