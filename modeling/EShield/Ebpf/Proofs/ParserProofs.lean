import EShield.Ebpf.Parser

/-!
# Reading back what was written

A field that was written is read back, and a write leaves every field alone that it does not touch.
-/

namespace EShield

@[simp] theorem bswap16_bswap16 (v : UInt16) : bswap16 (bswap16 v) = v := by
  apply UInt16.eq_of_toBitVec_eq
  ext i hi
  simp [bswap16]
  interval_cases i <;> simp

@[simp] theorem bswap32_bswap32 (v : UInt32) : bswap32 (bswap32 v) = v := by
  apply UInt32.eq_of_toBitVec_eq
  ext i hi
  simp [bswap32]
  interval_cases i <;> simp

namespace Ebpf.XdpContext

variable {ctx ctx' : XdpContext} {p q n : Nat}

/-! ## Fields as numbers -/

theorem toNat_u16 (ctx : XdpContext) (p : Nat) :
    (ctx.u16 p).toNat = (ctx.mem p).toNat + 256 * (ctx.mem (p + 1)).toNat := by
  have hlo := (ctx.mem p).toNat_lt
  have hhi := (ctx.mem (p + 1)).toNat_lt
  have hshift : (8 : UInt16).toNat % 16 = 8 := rfl
  rw [u16, UInt16.toNat_or, UInt16.toNat_shiftLeft, UInt8.toNat_toUInt16, UInt8.toNat_toUInt16,
    hshift, Nat.shiftLeft_eq, Nat.mod_eq_of_lt (by omega), Nat.or_comm, Nat.mul_comm,
    ← Nat.two_pow_add_eq_or_of_lt hlo]
  omega

theorem toNat_u32 (ctx : XdpContext) (p : Nat) :
    (ctx.u32 p).toNat = (ctx.u16 p).toNat + 65536 * (ctx.u16 (p + 2)).toNat := by
  have hlo := (ctx.u16 p).toNat_lt
  have hhi := (ctx.u16 (p + 2)).toNat_lt
  have hshift : (16 : UInt32).toNat % 32 = 16 := rfl
  rw [u32, UInt32.toNat_or, UInt32.toNat_shiftLeft, UInt16.toNat_toUInt32, UInt16.toNat_toUInt32,
    hshift, Nat.shiftLeft_eq, Nat.mod_eq_of_lt (by omega), Nat.or_comm, Nat.mul_comm,
    ← Nat.two_pow_add_eq_or_of_lt hlo]
  omega

/-! ## Fields written -/

@[simp] theorem u16_setU16 (ctx : XdpContext) (p : Nat) (v : UInt16) :
    (ctx.setU16 p v).u16 p = v := by
  have h := v.toNat_lt
  rw [← UInt16.toNat_inj, toNat_u16]
  simp [setU16, setU8, Nat.shiftRight_eq_div_pow]
  omega

/-! ## Fields left alone -/

/-- The two frames have the same bytes outside of the `n` bytes at `q`. -/
def SameOutside (ctx ctx' : XdpContext) (q n : Nat) : Prop :=
  ∀ i, i < q ∨ q + n ≤ i → ctx'.mem i = ctx.mem i

theorem SameOutside.u8 (h : SameOutside ctx ctx' q n) (hp : p < q ∨ q + n ≤ p) :
    ctx'.u8 p = ctx.u8 p := h p hp

theorem SameOutside.u16 (h : SameOutside ctx ctx' q n) (hp : p + 2 ≤ q ∨ q + n ≤ p) :
    ctx'.u16 p = ctx.u16 p := by
  rw [XdpContext.u16, h p (by omega), h (p + 1) (by omega), XdpContext.u16]

theorem SameOutside.u32 (h : SameOutside ctx ctx' q n) (hp : p + 4 ≤ q ∨ q + n ≤ p) :
    ctx'.u32 p = ctx.u32 p := by
  rw [XdpContext.u32, h.u16 (by omega), h.u16 (by omega), XdpContext.u32]

theorem SameOutside.words {len : Nat} (h : SameOutside ctx ctx' q n)
    (hp : p + len ≤ q ∨ q + n ≤ p) : ctx'.words p len = ctx.words p len := by
  refine List.map_congr_left fun i hi => h.u32 ?_
  rw [List.mem_range] at hi
  omega

theorem sameOutside_setU8 (ctx : XdpContext) (q : Nat) (v : UInt8) :
    SameOutside ctx (ctx.setU8 q v) q 1 :=
  fun i hi => Function.update_of_ne (by omega) _ _

theorem sameOutside_setU16 (ctx : XdpContext) (q : Nat) (v : UInt16) :
    SameOutside ctx (ctx.setU16 q v) q 2 := fun i hi => by
  rw [setU16, sameOutside_setU8 _ _ _ i (by omega), sameOutside_setU8 _ _ _ i (by omega)]

theorem sameOutside_setU32 (ctx : XdpContext) (q : Nat) (v : UInt32) :
    SameOutside ctx (ctx.setU32 q v) q 4 := fun i hi => by
  rw [setU32, sameOutside_setU16 _ _ _ i (by omega), sameOutside_setU16 _ _ _ i (by omega)]

@[simp] theorem u32_setU32 (ctx : XdpContext) (p : Nat) (v : UInt32) :
    (ctx.setU32 p v).u32 p = v := by
  have h := v.toNat_lt
  rw [← UInt32.toNat_inj, toNat_u32, setU32, u16_setU16, (sameOutside_setU16 _ _ _).u16 (by omega),
    u16_setU16]
  simp [Nat.shiftRight_eq_div_pow]
  omega

theorem mem_swap_of_outside (ctx : XdpContext) (p q n : Nat) :
    (∀ i, (i < p ∨ p + n ≤ i) → (i < q ∨ q + n ≤ i) → (ctx.swap p q n).mem i = ctx.mem i) := by
  intro i hp hq
  simp only [swap]
  rw [if_neg (by omega), if_neg (by omega)]

/-! ## Fields swapped -/

theorem mem_swap_left {i : Nat} (hi : i < n) : (ctx.swap p q n).mem (p + i) = ctx.mem (q + i) := by
  simp only [swap]
  rw [if_pos (by omega), Nat.add_sub_cancel_left]

theorem mem_swap_right {i : Nat} (hi : i < n) (hd : p + n ≤ q ∨ q + n ≤ p) :
    (ctx.swap p q n).mem (q + i) = ctx.mem (p + i) := by
  simp only [swap]
  rw [if_neg (by omega), if_pos (by omega), Nat.add_sub_cancel_left]

@[simp] theorem u16_swap_left (hn : 2 ≤ n) : (ctx.swap p q n).u16 p = ctx.u16 q := by
  have h0 : (ctx.swap p q n).mem p = ctx.mem q := mem_swap_left (i := 0) (by omega)
  rw [u16, h0, mem_swap_left (by omega), u16]

@[simp] theorem u16_swap_right (hn : 2 ≤ n) (hd : p + n ≤ q ∨ q + n ≤ p) :
    (ctx.swap p q n).u16 q = ctx.u16 p := by
  have h0 : (ctx.swap p q n).mem q = ctx.mem p := mem_swap_right (i := 0) (by omega) hd
  rw [u16, h0, mem_swap_right (by omega) hd, u16]

@[simp] theorem u32_swap_left (hn : 4 ≤ n) : (ctx.swap p q n).u32 p = ctx.u32 q := by
  have h2 : (ctx.swap p q n).u16 (p + 2) = ctx.u16 (q + 2) := by
    rw [u16, Nat.add_assoc, mem_swap_left (by omega), mem_swap_left (by omega), u16]
  rw [u32, u16_swap_left (by omega), h2, u32]

@[simp] theorem u32_swap_right (hn : 4 ≤ n) (hd : p + n ≤ q ∨ q + n ≤ p) :
    (ctx.swap p q n).u32 q = ctx.u32 p := by
  have h2 : (ctx.swap p q n).u16 (q + 2) = ctx.u16 (p + 2) := by
    rw [u16, Nat.add_assoc, mem_swap_right (by omega) hd, mem_swap_right (by omega) hd, u16]
  rw [u32, u16_swap_right (by omega) hd, h2, u32]

@[simp] theorem u16_swap_of_disjoint {r : Nat} (hp : r + 2 ≤ p ∨ p + n ≤ r)
    (hq : r + 2 ≤ q ∨ q + n ≤ r) :
    (ctx.swap p q n).u16 r = ctx.u16 r := by
  rw [u16, mem_swap_of_outside _ _ _ _ _ (by omega) (by omega),
    mem_swap_of_outside _ _ _ _ _ (by omega) (by omega), u16]

@[simp] theorem u32_swap_of_disjoint {r : Nat} (hp : r + 4 ≤ p ∨ p + n ≤ r)
    (hq : r + 4 ≤ q ∨ q + n ≤ r) :
    (ctx.swap p q n).u32 r = ctx.u32 r := by
  rw [u32, u16_swap_of_disjoint (by omega) (by omega), u16_swap_of_disjoint (by omega) (by omega),
    u32]

/-! ## Fields beside a write

For `simp (disch := omega)`. -/

@[simp] theorem u8_setU8_of_ne {v : UInt8} (h : p ≠ q) : (ctx.setU8 q v).u8 p = ctx.u8 p :=
  (sameOutside_setU8 ctx q v).u8 (by omega)

@[simp] theorem u8_setU16_of_disjoint {v : UInt16} (h : p < q ∨ q + 2 ≤ p) :
    (ctx.setU16 q v).u8 p = ctx.u8 p := (sameOutside_setU16 ctx q v).u8 h

@[simp] theorem u8_setU32_of_disjoint {v : UInt32} (h : p < q ∨ q + 4 ≤ p) :
    (ctx.setU32 q v).u8 p = ctx.u8 p := (sameOutside_setU32 ctx q v).u8 h

@[simp] theorem u8_swap_of_disjoint {r : Nat} (hp : r < p ∨ p + n ≤ r) (hq : r < q ∨ q + n ≤ r) :
    (ctx.swap p q n).u8 r = ctx.u8 r := mem_swap_of_outside _ _ _ _ _ hp hq

@[simp] theorem u16_setU8_of_disjoint {v : UInt8} (h : p + 2 ≤ q ∨ q + 1 ≤ p) :
    (ctx.setU8 q v).u16 p = ctx.u16 p := (sameOutside_setU8 ctx q v).u16 h

@[simp] theorem u16_setU16_of_disjoint {v : UInt16} (h : p + 2 ≤ q ∨ q + 2 ≤ p) :
    (ctx.setU16 q v).u16 p = ctx.u16 p := (sameOutside_setU16 ctx q v).u16 h

@[simp] theorem u16_setU32_of_disjoint {v : UInt32} (h : p + 2 ≤ q ∨ q + 4 ≤ p) :
    (ctx.setU32 q v).u16 p = ctx.u16 p := (sameOutside_setU32 ctx q v).u16 h

@[simp] theorem u32_setU8_of_disjoint {v : UInt8} (h : p + 4 ≤ q ∨ q + 1 ≤ p) :
    (ctx.setU8 q v).u32 p = ctx.u32 p := (sameOutside_setU8 ctx q v).u32 h

@[simp] theorem u32_setU16_of_disjoint {v : UInt16} (h : p + 4 ≤ q ∨ q + 2 ≤ p) :
    (ctx.setU16 q v).u32 p = ctx.u32 p := (sameOutside_setU16 ctx q v).u32 h

@[simp] theorem u32_setU32_of_disjoint {v : UInt32} (h : p + 4 ≤ q ∨ q + 4 ≤ p) :
    (ctx.setU32 q v).u32 p = ctx.u32 p := (sameOutside_setU32 ctx q v).u32 h

@[simp] theorem len_setU16 (ctx : XdpContext) (p : Nat) (v : UInt16) :
    (ctx.setU16 p v).len = ctx.len := rfl

end Ebpf.XdpContext

/-! ## Bounds -/

namespace Ebpf

theorem ptrAt_eq_some_iff {ctx : XdpContext} {size offset p : Nat} :
    ctx.ptrAt size offset = some p ↔ offset + size ≤ ctx.len ∧ p = offset := by
  unfold XdpContext.ptrAt
  split <;> simp <;> omega

theorem ptrAt_of_le {ctx : XdpContext} {size offset : Nat} (h : offset + size ≤ ctx.len) :
    ctx.ptrAt size offset = some offset :=
  ptrAt_eq_some_iff.2 ⟨h, rfl⟩

end Ebpf

end EShield
