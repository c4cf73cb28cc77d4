import Mathlib

/-!
# The bytes of a word

A 64-bit word as eight bytes, the least significant first. Two words agree under a mask exactly when
their bytes do.
-/

namespace WordBytes

/-- Byte number `i` of the word. -/
def byteAt (x : UInt64) (i : Nat) : UInt8 := ⟨x.toBitVec.extractLsb' (8 * i) 8⟩

variable {x y mask : UInt64} {i : Nat}

theorem getLsbD_byteAt (x : UInt64) (i : Nat) {j : Nat} (hj : j < 8) :
    (byteAt x i).toBitVec.getLsbD j = x.toBitVec.getLsbD (8 * i + j) := by
  rw [byteAt, BitVec.getLsbD_extractLsb']
  simp [hj]

theorem byteAt_and (x y : UInt64) (i : Nat) : byteAt (x &&& y) i = byteAt x i &&& byteAt y i := by
  apply UInt8.eq_of_toBitVec_eq
  apply BitVec.eq_of_getLsbD_eq
  intro j hj
  rw [getLsbD_byteAt _ _ hj, UInt8.toBitVec_and, UInt64.toBitVec_and, BitVec.getLsbD_and,
    BitVec.getLsbD_and, getLsbD_byteAt _ _ hj, getLsbD_byteAt _ _ hj]

theorem eq_of_byteAt_eq (h : ∀ i < 8, byteAt x i = byteAt y i) : x = y := by
  apply UInt64.eq_of_toBitVec_eq
  apply BitVec.eq_of_getLsbD_eq
  intro k hk
  have hbyte := congrArg (fun b => b.toBitVec.getLsbD (k % 8)) (h (k / 8) (by omega))
  rw [getLsbD_byteAt _ _ (Nat.mod_lt _ (by decide)), getLsbD_byteAt _ _ (Nat.mod_lt _ (by decide)),
    Nat.div_add_mod] at hbyte
  exact hbyte

/-- A comparison under a mask compares byte by byte. -/
theorem and_eq_and_iff :
    x &&& mask = y &&& mask ↔
      ∀ i < 8, byteAt x i &&& byteAt mask i = byteAt y i &&& byteAt mask i := by
  constructor
  · intro h i _
    rw [← byteAt_and, ← byteAt_and, h]
  · intro h
    apply eq_of_byteAt_eq
    intro i hi
    rw [byteAt_and, byteAt_and]
    exact h i hi

/-! ## Words of two halves -/

theorem getLsbD_join {w n : Nat} (low high : BitVec w) (hn : n = 2 * w) {k : Nat} (hk : k < n) :
    (low.setWidth n ||| (high.setWidth n <<< w)).getLsbD k =
      if k < w then low.getLsbD k else high.getLsbD (k - w) := by
  rw [BitVec.getLsbD_or, BitVec.getLsbD_shiftLeft, BitVec.getLsbD_setWidth,
    BitVec.getLsbD_setWidth]
  by_cases hlow : k < w
  · rw [if_pos hlow, decide_eq_true hk, decide_eq_true hlow]
    simp
  · have hhigh : low.getLsbD k = false := BitVec.getLsbD_of_ge _ _ (not_lt.1 hlow)
    have hplace : k - w < n := by omega
    rw [if_neg hlow, decide_eq_true hk, decide_eq_false hlow, decide_eq_true hplace, hhigh]
    simp

/-! ## Pushing bytes -/

theorem getLsbD_push (x : UInt64) (b : UInt8) {k : Nat} (hk : k < 64) :
    ((x <<< 8) ||| b.toUInt64).toBitVec.getLsbD k =
      if k < 8 then b.toBitVec.getLsbD k else x.toBitVec.getLsbD (k - 8) := by
  rw [UInt64.toBitVec_or, UInt64.toBitVec_shiftLeft, BitVec.getLsbD_or, UInt8.toBitVec_toUInt64,
    BitVec.getLsbD_setWidth]
  change (BitVec.getLsbD (x.toBitVec <<< 8) k || _) = _
  rw [BitVec.getLsbD_shiftLeft]
  by_cases hlow : k < 8
  · simp [hk, hlow]
  · have hbyte : b.toBitVec.getLsbD k = false := BitVec.getLsbD_of_ge _ _ (by omega)
    simp [hk, hlow, hbyte]

theorem byteAt_push_zero (x : UInt64) (b : UInt8) : byteAt ((x <<< 8) ||| b.toUInt64) 0 = b := by
  apply UInt8.eq_of_toBitVec_eq
  apply BitVec.eq_of_getLsbD_eq
  intro j hj
  rw [getLsbD_byteAt _ _ hj, getLsbD_push _ _ (by omega), if_pos (by omega), Nat.mul_zero,
    Nat.zero_add]

theorem byteAt_push_succ (x : UInt64) (b : UInt8) (hi : i + 1 < 8) :
    byteAt ((x <<< 8) ||| b.toUInt64) (i + 1) = byteAt x i := by
  apply UInt8.eq_of_toBitVec_eq
  apply BitVec.eq_of_getLsbD_eq
  intro j hj
  rw [getLsbD_byteAt _ _ hj, getLsbD_byteAt _ _ hj, getLsbD_push _ _ (by omega),
    if_neg (by omega)]
  congr 1
  omega

end WordBytes
