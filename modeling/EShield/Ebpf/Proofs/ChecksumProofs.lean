import EShield.Ebpf.Proofs.ParserProofs

/-!
# Checksums

`bpf_csum_diff` adds with the carry going round, which is addition modulo `2 ^ 32 - 1` and hence
modulo `2 ^ 16 - 1`; only zeros add up to zero. A region into which `finalize_csum` of its own sum
has been written adds up to all ones.
-/

namespace EShield.Ebpf

variable {a b sum : UInt32} {words : List UInt32}

/-! ## Accumulation -/

theorem toNat_csumAdd (a b : UInt32) :
    (csumAdd a b).toNat = (a.toNat + b.toNat) % 2 ^ 32 + (a.toNat + b.toNat) / 2 ^ 32 := by
  have ha := a.toNat_lt
  have hb := b.toNat_lt
  rw [csumAdd, UInt32.toNat_ofNat', Nat.mod_eq_of_lt]
  omega

theorem csumAdd_mod (a b : UInt32) : (csumAdd a b).toNat ≡ a.toNat + b.toNat [MOD 65535] := by
  rw [toNat_csumAdd, Nat.ModEq]
  omega

theorem csumAdd_eq_zero : csumAdd a b = 0 ↔ a = 0 ∧ b = 0 := by
  have ha := a.toNat_lt
  have hb := b.toNat_lt
  simp only [← UInt32.toNat_inj, toNat_csumAdd, UInt32.toNat_zero]
  omega

/-- The accumulated sum of some words, up to multiples of `2 ^ 16 - 1`. -/
theorem foldl_csumAdd_mod (words : List UInt32) (seed : UInt32) :
    (words.foldl csumAdd seed).toNat ≡ seed.toNat + (words.map UInt32.toNat).sum [MOD 65535] := by
  induction words generalizing seed with
  | nil => exact Nat.ModEq.refl _
  | cons w words ih =>
    rw [List.foldl_cons, List.map_cons, List.sum_cons, ← Nat.add_assoc]
    exact (ih _).trans ((csumAdd_mod seed w).add_right _)

theorem foldl_csumAdd_eq_zero (words : List UInt32) (seed : UInt32) :
    words.foldl csumAdd seed = 0 ↔ seed = 0 ∧ ∀ w ∈ words, w = 0 := by
  induction words generalizing seed with
  | nil => simp
  | cons w words ih => rw [List.foldl_cons, ih, csumAdd_eq_zero, List.forall_mem_cons, and_assoc]

/-! ## Folding to sixteen bits -/

/-- The sum of the two halves, with the carry going round. -/
def foldCsum (sum : UInt32) : UInt16 :=
  let v := (sum &&& (0xffff : UInt32)) + (sum >>> 16)
  ((v &&& (0xffff : UInt32)) + (v >>> 16)).toUInt16

theorem toNat_halves (v : UInt32) :
    (v &&& (0xffff : UInt32)).toNat = v.toNat % 65536 ∧ (v >>> 16).toNat = v.toNat / 65536 := by
  have hmask : (0xffff : UInt32).toNat = 2 ^ 16 - 1 := rfl
  have hshift : (16 : UInt32).toNat % 32 = 16 := rfl
  rw [UInt32.toNat_and, hmask, Nat.and_two_pow_sub_one_eq_mod, UInt32.toNat_shiftRight, hshift,
    Nat.shiftRight_eq_div_pow]
  exact ⟨rfl, rfl⟩

theorem toNat_foldCsum (sum : UInt32) :
    (foldCsum sum).toNat =
      (sum.toNat % 65536 + sum.toNat / 65536) % 65536 +
        (sum.toNat % 65536 + sum.toNat / 65536) / 65536 := by
  have hsum := sum.toNat_lt
  obtain ⟨hlo, hhi⟩ := toNat_halves sum
  obtain ⟨hlo', hhi'⟩ := toNat_halves ((sum &&& (0xffff : UInt32)) + (sum >>> 16))
  have hv : ((sum &&& (0xffff : UInt32)) + (sum >>> 16)).toNat =
      sum.toNat % 65536 + sum.toNat / 65536 := by
    rw [UInt32.toNat_add, hlo, hhi]
    omega
  rw [foldCsum, UInt32.toNat_toUInt16, UInt32.toNat_add, hlo', hhi', hv]
  omega

theorem foldCsum_mod (sum : UInt32) : (foldCsum sum).toNat ≡ sum.toNat [MOD 65535] := by
  rw [toNat_foldCsum, Nat.ModEq]
  omega

/-- The folded sum is all ones for the nonzero multiples of `2 ^ 16 - 1`. -/
theorem foldCsum_eq_ones : foldCsum sum = 0xffff ↔ sum ≠ 0 ∧ sum.toNat % 65535 = 0 := by
  have hsum := sum.toNat_lt
  have hones : (0xffff : UInt16).toNat = 65535 := rfl
  simp only [ne_eq, ← UInt16.toNat_inj, ← UInt32.toNat_inj, toNat_foldCsum, hones,
    UInt32.toNat_zero]
  omega

/-! ## Checksums that verify -/

/-- The receiver's test on a region and what it is seeded with: everything adds up to all ones. -/
def CsumVerifies (words : List UInt32) (seed : UInt32) : Prop :=
  foldCsum (words.foldl csumAdd seed) = 0xffff

instance (words : List UInt32) (seed : UInt32) : Decidable (CsumVerifies words seed) :=
  inferInstanceAs (Decidable (_ = _))

theorem finalizeCsum_eq (sum : UInt32) :
    finalizeCsum sum = if foldCsum sum = 0xffff then 0xffff else ~~~ foldCsum sum := by
  have hzero : ~~~ foldCsum sum = 0 ↔ foldCsum sum = 0xffff := by
    rw [← UInt16.not_inj, UInt16.not_not]
    rfl
  unfold finalizeCsum
  dsimp only
  rw [← foldCsum]
  simp only [hzero]

/-- The checksum of a sum is not zero and makes up for it modulo `2 ^ 16 - 1`. -/
theorem finalizeCsum_spec (sum : UInt32) :
    finalizeCsum sum ≠ 0 ∧ sum.toNat + (finalizeCsum sum).toNat ≡ 0 [MOD 65535] := by
  have hmod := foldCsum_mod sum
  have hlt := (foldCsum sum).toNat_lt
  rw [finalizeCsum_eq]
  split
  · rename_i hones
    rw [hones] at hmod
    exact ⟨by decide, (hmod.symm.add_right _).trans rfl⟩
  · rename_i hne
    have hcompl : (~~~ foldCsum sum).toNat = 65535 - (foldCsum sum).toNat := by
      rw [UInt16.toNat_not]
      rfl
    refine ⟨?_, ?_⟩
    · rw [ne_eq, ← UInt16.toNat_inj, hcompl]
      rw [← UInt16.toNat_inj] at hne
      change (foldCsum sum).toNat ≠ 65535 at hne
      change ¬ _ = 0
      omega
    · refine (hmod.symm.add_right _).trans ?_
      rw [hcompl, show (foldCsum sum).toNat + (65535 - (foldCsum sum).toNat) = 65535 by omega]
      rfl

/-- Words that add up to what the old ones do and the checksum of the old ones, up to multiples of
`2 ^ 16 - 1`, verify. -/
theorem csumVerifies_of_sum (words : List UInt32) {words' : List UInt32} {seed : UInt32}
    (hsum : (words'.map UInt32.toNat).sum ≡
      (words.map UInt32.toNat).sum + (finalizeCsum (words.foldl csumAdd seed)).toNat [MOD 65535])
    (hne : ∃ w ∈ words', w ≠ 0) : CsumVerifies words' seed := by
  rw [CsumVerifies, foldCsum_eq_ones, ne_eq, foldl_csumAdd_eq_zero]
  refine ⟨fun h => ?_, ?_⟩
  · obtain ⟨w, hw, hw0⟩ := hne
    exact hw0 (h.2 w hw)
  · have hold := (foldl_csumAdd_mod words seed).add_right
      (finalizeCsum (words.foldl csumAdd seed)).toNat
    have hnew : (words'.foldl csumAdd seed).toNat ≡ 0 [MOD 65535] := by
      refine (foldl_csumAdd_mod words' seed).trans ((hsum.add_left _).trans ?_)
      rw [← Nat.add_assoc]
      exact hold.symm.trans (finalizeCsum_spec _).2
    exact hnew

/-! ## Checksums inside the region they cover -/

open XdpContext

variable {ctx : XdpContext} {p q n j : Nat} {v : UInt16}

/-- A half word that was zero adds its new value to the word it lies in. -/
theorem u32_setU16_mod (hzero : ctx.u16 q = 0) {i : Nat} (hq : q = p + 2 * j) :
    ((ctx.setU16 q v).u32 (p + 4 * i)).toNat ≡
      (ctx.u32 (p + 4 * i)).toNat +
        (if j = 2 * i ∨ j = 2 * i + 1 then v.toNat else 0) [MOD 65535] := by
  have hold : (ctx.u16 q).toNat = 0 := by
    rw [hzero]
    rfl
  by_cases hlo : j = 2 * i
  · have hpos : p + 4 * i = q := by omega
    rw [if_pos (.inl hlo), hpos, toNat_u32, toNat_u32, u16_setU16,
      u16_setU16_of_disjoint (by omega), hold, Nat.ModEq]
    omega
  · by_cases hhi : j = 2 * i + 1
    · have hpos : p + 4 * i + 2 = q := by omega
      rw [if_pos (.inr hhi), toNat_u32, toNat_u32, hpos, u16_setU16,
        u16_setU16_of_disjoint (by omega), hold, Nat.ModEq]
      omega
    · rw [if_neg (not_or.2 ⟨hlo, hhi⟩), u32_setU16_of_disjoint (by omega)]
      rfl

/-- A half word that was zero adds its new value to the sum of a region it lies in. -/
theorem sum_words_setU16 (hzero : ctx.u16 q = 0) (hq : q = p + 2 * j) (hj : j < 2 * (n / 4)) :
    (((ctx.setU16 q v).words p n).map UInt32.toNat).sum ≡
      ((ctx.words p n).map UInt32.toNat).sum + v.toNat [MOD 65535] := by
  -- a beginning of the region gains the value when the half word lies in it
  have hpre : ∀ k, (((List.range k).map fun i => (ctx.setU16 q v).u32 (p + 4 * i)).map
        UInt32.toNat).sum ≡
      (((List.range k).map fun i => ctx.u32 (p + 4 * i)).map UInt32.toNat).sum +
        (if j < 2 * k then v.toNat else 0) [MOD 65535] := by
    intro k
    induction k with
    | zero => rfl
    | succ k ih =>
      simp only [List.range_succ, List.map_append, List.sum_append, List.map_cons, List.map_nil,
        List.sum_cons, List.sum_nil, Nat.add_zero]
      refine (ih.add (u32_setU16_mod (v := v) hzero hq)).trans ?_
      rw [Nat.ModEq]
      congr 1
      split_ifs <;> omega
  have h := hpre (n / 4)
  rwa [if_pos hj] at h

theorem exists_word_ne_zero (hne : ctx.u16 q ≠ 0) (hq : q = p + 2 * j) (hj : j < 2 * (n / 4)) :
    ∃ w ∈ ctx.words p n, w ≠ 0 := by
  refine ⟨ctx.u32 (p + 4 * (j / 2)),
    List.mem_map.2 ⟨j / 2, List.mem_range.2 (by omega), rfl⟩, fun h => hne ?_⟩
  rw [← UInt32.toNat_inj, toNat_u32, UInt32.toNat_zero] at h
  rw [← UInt16.toNat_inj, UInt16.toNat_zero]
  rcases Nat.mod_two_eq_zero_or_one j with hj2 | hj2
  · rw [show q = p + 4 * (j / 2) by omega]
    omega
  · rw [show q = p + 4 * (j / 2) + 2 by omega]
    omega

/-- A region verifies, behind any words in front of it, once the checksum of both has been written
into a half word of the region that held zero. -/
theorem csumVerifies_setU16 (front : List UInt32) (hzero : ctx.u16 q = 0) (hq : q = p + 2 * j)
    (hj : j < 2 * (n / 4)) :
    CsumVerifies
      (front ++
        (ctx.setU16 q (finalizeCsum ((front ++ ctx.words p n).foldl csumAdd 0))).words p n) 0 := by
  refine csumVerifies_of_sum (front ++ ctx.words p n) ?_ ?_
  · rw [List.map_append, List.sum_append, List.map_append, List.sum_append, Nat.add_assoc]
    exact (sum_words_setU16 hzero hq hj).add_left _
  · have hwritten : (ctx.setU16 q
        (finalizeCsum ((front ++ ctx.words p n).foldl csumAdd 0))).u16 q ≠ 0 := by
      rw [u16_setU16]
      exact (finalizeCsum_spec _).1
    obtain ⟨w, hw, hne⟩ := exists_word_ne_zero hwritten hq hj
    exact ⟨w, List.mem_append_right _ hw, hne⟩

end EShield.Ebpf
