import EShield.Common.Checksum
import EShield.Common.KeyBytes
import EShield.Ebpf.Proofs.ChecksumProofs
import EShield.Lib.OnesComplement

/-!
# The Internet checksum

`checksum` is the complement of the ones'-complement sum of the big-endian words of the data. Both ways
to compute it, by exact 32-bit addition and by `bpf_csum_diff` over little-endian words, fold the same
number, up to the byte order.
-/

namespace EShield.Ebpf

open OnesComplement Bytes

/-! ## What the data is -/

/-- The big-endian words, an odd last byte padded with zero. -/
def beWords : List UInt8 → List Nat
  | hi :: lo :: data => (hi.toNat * 256 + lo.toNat) :: beWords data
  | [tail] => [tail.toNat * 256]
  | [] => []

/-- The same words taken little-endian. -/
def leWords : List UInt8 → List UInt32
  | lo :: hi :: data => .ofNat (lo.toNat + 256 * hi.toNat) :: leWords data
  | [tail] => [.ofNat tail.toNat]
  | [] => []

/-- The same two at a time, as `bpf_csum_diff` reads them, the last one padded with zeros. -/
def leWordPairs : List UInt8 → List UInt32
  | b0 :: b1 :: b2 :: b3 :: data =>
    .ofNat (b0.toNat + 256 * b1.toNat + 65536 * (b2.toNat + 256 * b3.toNat)) :: leWordPairs data
  | [b0, b1, b2] => [.ofNat (b0.toNat + 256 * b1.toNat + 65536 * b2.toNat)]
  | [b0, b1] => [.ofNat (b0.toNat + 256 * b1.toNat)]
  | [b0] => [.ofNat b0.toNat]
  | [] => []

/-- The pseudo-header in front of TCP data. -/
def pseudoHeaderBytes (saddr daddr : UInt32) (proto : UInt8) (len : Nat) : List UInt8 :=
  (beBytes 4 saddr.toNat).toList ++ (beBytes 4 daddr.toNat).toList ++ [0, proto] ++
    (beBytes 2 len).toList

/-- The data with a big-endian word written at `k`. -/
def writeBe (data : List UInt8) (k : Nat) (v : UInt16) : List UInt8 :=
  (data.set k (v >>> 8).toUInt8).set (k + 1) v.toUInt8

/-- No addition of the loop overflows. -/
def SumFits : UInt32 → List UInt8 → Prop
  | sum, hi :: lo :: data =>
    sum.toNat + (wordBe hi lo).toNat < 2 ^ 32 ∧ SumFits (sum + wordBe hi lo) data
  | sum, [tail] => sum.toNat + (tail.toUInt32 <<< 8).toNat < 2 ^ 32
  | _, [] => True

/-- No addition of the folding loop overflows. -/
def FoldFits : Nat → UInt32 → Prop
  | 0, _ => True
  | n + 1, sum => sum >>> 16 = 0 ∨
    (sum &&& (0xffff : UInt32)).toNat + (sum >>> 16).toNat < 2 ^ 32 ∧
      FoldFits n ((sum &&& (0xffff : UInt32)) + (sum >>> 16))

/-- What is asked of the checksum of `data`. -/
structure ChecksumSpec (data : List UInt8) : Prop where
  noOverflow : SumFits 0 data ∧ FoldFits 4 (sumWords 0 data)
  folded : foldSum 4 (sumWords 0 data) >>> 16 = 0
  complement : (checksum data).toNat = 65535 - OnesComplement.sum 65536 (beWords data)
  written : ∀ k, 2 ∣ k → data[k]? = some 0 → data[k + 1]? = some 0 →
    checksum (writeBe data k (checksum data)) = 0
  tcp : ∀ saddr daddr proto,
    tcpChecksum saddr daddr proto data =
      checksum (pseudoHeaderBytes saddr daddr proto data.length ++ data)
  tcpNoOverflow : ∀ saddr daddr proto,
    ((pseudoWords saddr daddr proto data.length).map UInt32.toNat).sum < 2 ^ 32 ∧
      SumFits ((pseudoWords saddr daddr proto data.length).foldl (· + ·) 0) data
  words : finalizeCsum ((leWords data).foldl csumAdd 0) =
    if bswap16 (checksum data) = 0 then 0xffff else bswap16 (checksum data)
  wordPairs : finalizeCsum ((leWordPairs data).foldl csumAdd 0) =
    if bswap16 (checksum data) = 0 then 0xffff else bswap16 (checksum data)

variable {data : List UInt8} {sum : UInt32}

/-! ## The exact sum -/

theorem toNat_tail (tail : UInt8) : (tail.toUInt32 <<< 8).toNat = tail.toNat * 256 := by
  have hshift : (tail.toUInt32 <<< 8).toNat = 2 ^ 8 * tail.toNat :=
    toNat_toUInt32_shiftLeft tail (k := 8) (by decide)
  omega

theorem toNat_wordBe (hi lo : UInt8) : (wordBe hi lo).toNat = hi.toNat * 256 + lo.toNat := by
  have hlo : lo.toNat < 2 ^ 8 := lo.toNat_lt
  rw [wordBe, UInt32.toNat_or, toNat_tail, UInt8.toNat_toUInt32, Nat.mul_comm]
  exact (Nat.two_pow_add_eq_or_of_lt hlo hi.toNat).symm

theorem mem_beWords_lt (data : List UInt8) : ∀ w ∈ beWords data, w < 65536 := by
  fun_induction beWords data with
  | case1 hi lo data ih =>
    have hhi := hi.toNat_lt
    have hlo := lo.toNat_lt
    exact List.forall_mem_cons.2 ⟨by omega, ih⟩
  | case2 tail =>
    have htail := tail.toNat_lt
    exact List.forall_mem_cons.2 ⟨by omega, List.forall_mem_nil _⟩
  | case3 => exact List.forall_mem_nil _

/-- With room for all words the loop adds them exactly. -/
theorem sumWords_spec (sum : UInt32) (data : List UInt8)
    (hroom : sum.toNat + 65535 * ((data.length + 1) / 2) < 2 ^ 32) :
    SumFits sum data ∧ (sumWords sum data).toNat = sum.toNat + (beWords data).sum := by
  fun_induction sumWords sum data with
  | case1 sum hi lo data ih =>
    have hhi := hi.toNat_lt
    have hlo := lo.toNat_lt
    have hword := toNat_wordBe hi lo
    rw [List.length_cons, List.length_cons] at hroom
    have hadd : (sum + wordBe hi lo).toNat = sum.toNat + (wordBe hi lo).toNat := by
      rw [UInt32.toNat_add]
      exact Nat.mod_eq_of_lt (by omega)
    obtain ⟨hfits, hsum⟩ := ih (by omega)
    refine ⟨⟨by omega, hfits⟩, ?_⟩
    rw [hsum, hadd, hword, beWords, List.sum_cons, Nat.add_assoc]
  | case2 sum tail =>
    have htail := tail.toNat_lt
    have hword := toNat_tail tail
    rw [List.length_singleton] at hroom
    refine ⟨by rw [SumFits]; omega, ?_⟩
    rw [UInt32.toNat_add, hword, beWords, List.sum_singleton]
    exact Nat.mod_eq_of_lt (by omega)
  | case3 sum => exact ⟨trivial, rfl⟩

/-! ## Folding -/

theorem toNat_fold (sum : UInt32) :
    ((sum &&& (0xffff : UInt32)) + (sum >>> 16)).toNat = halves 65536 sum.toNat := by
  have hsum := sum.toNat_lt
  obtain ⟨hlo, hhi⟩ := toNat_halves sum
  rw [UInt32.toNat_add, hlo, hhi]
  exact Nat.mod_eq_of_lt (by omega)

theorem foldFits (n : Nat) (sum : UInt32) : FoldFits n sum := by
  induction n generalizing sum with
  | zero => trivial
  | succ n ih =>
    have hsum := sum.toNat_lt
    obtain ⟨hlo, hhi⟩ := toNat_halves sum
    exact .inr ⟨by omega, ih _⟩

theorem shiftRight_eq_zero : sum >>> 16 = 0 ↔ sum.toNat < 65536 := by
  rw [← UInt32.toNat_inj, (toNat_halves sum).2, UInt32.toNat_zero]
  omega

/-- Every folding keeps what the sum stands for. -/
theorem foldSum_keeps (n : Nat) (sum : UInt32) :
    (foldSum n sum).toNat ≡ sum.toNat [MOD 65536 - 1] ∧
      ((foldSum n sum).toNat = 0 ↔ sum.toNat = 0) := by
  fun_induction foldSum n sum with
  | case1 sum => exact ⟨Nat.ModEq.refl _, Iff.rfl⟩
  | case2 sum n hstop => exact ⟨Nat.ModEq.refl _, Iff.rfl⟩
  | case3 sum n hstop ih =>
    rw [toNat_fold] at ih
    exact ⟨ih.1.trans (halves_modEq (by decide) _), ih.2.trans halves_eq_zero⟩

theorem foldSum_of_lt (h : sum.toNat < 65536) (n : Nat) : foldSum n sum = sum := by
  cases n with
  | zero => rfl
  | succ n => rw [foldSum, if_pos (shiftRight_eq_zero.2 h)]

/-- Two foldings are enough. -/
theorem foldSum_lt (n : Nat) (sum : UInt32) : (foldSum (n + 2) sum).toNat < 65536 := by
  rw [foldSum]
  split
  · exact shiftRight_eq_zero.1 ‹_›
  · rw [foldSum]
    split
    · exact shiftRight_eq_zero.1 ‹_›
    · have hlt := halves_halves_lt (by decide : 1 < 65536) sum.toNat_lt
      rw [← toNat_fold, ← toNat_fold] at hlt
      rwa [foldSum_of_lt hlt]

theorem folds_foldSum (sum : UInt32) : Folds 65536 sum.toNat (foldSum 4 sum).toNat where
  lt := foldSum_lt 2 sum
  modEq := (foldSum_keeps 4 sum).1
  zero := (foldSum_keeps 4 sum).2

/-- The complement of a checksum is the word that the exact sum folds to. -/
theorem folds_not_checksum (hroom : 65535 * ((data.length + 1) / 2) < 2 ^ 32) :
    Folds 65536 (beWords data).sum (~~~checksum data).toNat := by
  have hsum := (sumWords_spec 0 data (by rw [UInt32.toNat_zero]; omega)).2
  have hfolds := folds_foldSum (sumWords 0 data)
  rw [hsum, UInt32.toNat_zero, Nat.zero_add] at hfolds
  rw [checksum, UInt16.not_not, UInt32.toNat_toUInt16, Nat.mod_eq_of_lt hfolds.lt]
  exact hfolds

theorem toNat_not (v : UInt16) : (~~~v).toNat = 65535 - v.toNat := by
  rw [UInt16.toNat_not]
  rfl

/-- Two complements of checksums that fold one number are those of one checksum. -/
theorem eq_of_folds {S : Nat} {v v' : UInt16} (h : Folds 65536 S (~~~v).toNat)
    (h' : Folds 65536 S (~~~v').toNat) : v = v' :=
  UInt16.not_inj.1 (UInt16.toNat_inj.1 (h.unique h'))

/-! ## A checksum in the data -/

theorem beWords_sum_writeBe {k : Nat} (hk : 2 ∣ k) (hhi : data[k]? = some 0)
    (hlo : data[k + 1]? = some 0) (v : UInt16) :
    (beWords (writeBe data k v)).sum = (beWords data).sum + v.toNat := by
  obtain ⟨j, rfl⟩ := hk
  induction j generalizing data with
  | zero =>
    match data with
    | hi :: lo :: data =>
      obtain rfl : hi = 0 := Option.some.inj hhi
      obtain rfl : lo = 0 := Option.some.inj hlo
      have hv := v.toNat_lt
      have hword : (v >>> 8).toUInt8.toNat * 256 + v.toUInt8.toNat = v.toNat := by
        rw [UInt16.toNat_toUInt8, UInt16.toNat_toUInt8, UInt16.toNat_shiftRight,
          Nat.shiftRight_eq_div_pow]
        show v.toNat / 2 ^ 8 % 2 ^ 8 * 256 + v.toNat % 2 ^ 8 = v.toNat
        omega
      show (((v >>> 8).toUInt8.toNat * 256 + v.toUInt8.toNat) :: beWords data).sum =
        (0 :: beWords data).sum + v.toNat
      rw [hword, List.sum_cons, List.sum_cons]
      omega
    | [_] => cases hlo
    | [] => cases hhi
  | succ j ih =>
    match data with
    | hi :: lo :: data =>
      have hrest : (beWords (writeBe data (2 * j) v)).sum = (beWords data).sum + v.toNat := ih hhi hlo
      show ((hi.toNat * 256 + lo.toNat) :: beWords (writeBe data (2 * j) v)).sum =
        ((hi.toNat * 256 + lo.toNat) :: beWords data).sum + v.toNat
      rw [List.sum_cons, List.sum_cons, hrest, ← Nat.add_assoc]
    | [_] => cases hhi
    | [] => cases hhi

theorem checksum_writeBe {k : Nat} (hroom : 65535 * ((data.length + 1) / 2) < 2 ^ 32) (hk : 2 ∣ k)
    (hhi : data[k]? = some 0) (hlo : data[k + 1]? = some 0) :
    checksum (writeBe data k (checksum data)) = 0 := by
  have hlen : (writeBe data k (checksum data)).length = data.length := by
    rw [writeBe, List.length_set, List.length_set]
  have hfolds : Folds 65536 (beWords (writeBe data k (checksum data))).sum _ :=
    folds_not_checksum (by rwa [hlen])
  have hold := (folds_not_checksum hroom).complement (by decide)
  have hlt := (checksum data).toNat_lt
  rw [beWords_sum_writeBe hk hhi hlo] at hfolds
  rw [toNat_not, show 65536 - 1 - (65535 - (checksum data).toNat) = (checksum data).toNat by omega]
    at hold
  exact eq_of_folds hfolds hold

/-! ## The pseudo-header -/

theorem toNat_byte (x : Nat) : (UInt8.ofNat x).toNat = x % 256 := by simp

theorem length_pseudoHeaderBytes (saddr daddr : UInt32) (proto : UInt8) (len : Nat) :
    (pseudoHeaderBytes saddr daddr proto len).length = 12 := by
  simp [pseudoHeaderBytes]

/-- The words of the pseudo-header, in front of those of the data. -/
theorem beWords_pseudoHeaderBytes (saddr daddr : UInt32) (proto : UInt8) {len : Nat}
    (hlen : len < 65536) (data : List UInt8) :
    beWords (pseudoHeaderBytes saddr daddr proto len ++ data) =
      saddr.toNat / 65536 :: saddr.toNat % 65536 :: daddr.toNat / 65536 :: daddr.toNat % 65536 ::
        proto.toNat :: len :: beWords data := by
  have hs := saddr.toNat_lt
  have hd := daddr.toNat_lt
  simp only [pseudoHeaderBytes, toList_beBytes_succ, toList_beBytes_zero, List.cons_append,
    List.nil_append, beWords, toNat_byte, UInt8.toNat_zero]
  simp only [List.cons.injEq, and_true]
  omega

/-- Words with room for all of them are added exactly. -/
theorem toNat_foldl_add (words : List UInt32) (sum : UInt32)
    (hroom : sum.toNat + (words.map UInt32.toNat).sum < 2 ^ 32) :
    (words.foldl (· + ·) sum).toNat = sum.toNat + (words.map UInt32.toNat).sum := by
  induction words generalizing sum with
  | nil => rfl
  | cons w words ih =>
    rw [List.map_cons, List.sum_cons] at hroom
    have hadd : (sum + w).toNat = sum.toNat + w.toNat := by
      rw [UInt32.toNat_add]
      exact Nat.mod_eq_of_lt (by omega)
    rw [List.foldl_cons, ih _ (by omega), hadd, List.map_cons, List.sum_cons, Nat.add_assoc]

theorem map_pseudoWords (saddr daddr : UInt32) (proto : UInt8) {len : Nat} (hlen : len < 65536) :
    (pseudoWords saddr daddr proto len).map UInt32.toNat =
      [saddr.toNat / 65536, saddr.toNat % 65536, daddr.toNat / 65536, daddr.toNat % 65536,
        proto.toNat, len] := by
  have hhigh : ∀ addr : UInt32, ((addr >>> 16) &&& (0xffff : UInt32)).toNat = addr.toNat / 65536 := by
    intro addr
    have hlt := addr.toNat_lt
    rw [(toNat_halves _).1, (toNat_halves addr).2]
    omega
  have hlen' : (UInt32.ofNat len).toNat = len :=
    UInt32.toNat_ofNat_of_lt' (hlen.trans (by decide))
  simp only [pseudoWords, List.map_cons, List.map_nil, hhigh, (toNat_halves _).1, hlen',
    UInt8.toNat_toUInt32]

/-- The pseudo-header is added exactly, and leaves room for the data. -/
theorem pseudoWords_spec (hlen : data.length ≤ 65535) (saddr daddr : UInt32) (proto : UInt8) :
    ((pseudoWords saddr daddr proto data.length).map UInt32.toNat).sum < 2 ^ 32 ∧
      SumFits ((pseudoWords saddr daddr proto data.length).foldl (· + ·) 0) data ∧
      (sumWords ((pseudoWords saddr daddr proto data.length).foldl (· + ·) 0) data).toNat =
        (beWords (pseudoHeaderBytes saddr daddr proto data.length ++ data)).sum := by
  have hs := saddr.toNat_lt
  have hd := daddr.toNat_lt
  have hp := proto.toNat_lt
  have hlen' : data.length < 65536 := by omega
  have hmap := congrArg List.sum (map_pseudoWords saddr daddr proto hlen')
  have hwords := congrArg List.sum (beWords_pseudoHeaderBytes saddr daddr proto hlen' data)
  simp only [List.sum_cons, List.sum_nil, Nat.add_zero] at hmap hwords
  have hpseudo := toNat_foldl_add (pseudoWords saddr daddr proto data.length) 0
    (by rw [UInt32.toNat_zero]; omega)
  rw [UInt32.toNat_zero, Nat.zero_add] at hpseudo
  obtain ⟨hfits, hsum⟩ :=
    sumWords_spec ((pseudoWords saddr daddr proto data.length).foldl (· + ·) 0) data (by omega)
  exact ⟨by omega, hfits, by omega⟩

theorem tcpChecksum_eq (hlen : data.length ≤ 65535) (saddr daddr : UInt32) (proto : UInt8) :
    tcpChecksum saddr daddr proto data =
      checksum (pseudoHeaderBytes saddr daddr proto data.length ++ data) := by
  have hroom : 65535 *
      (((pseudoHeaderBytes saddr daddr proto data.length ++ data).length + 1) / 2) < 2 ^ 32 := by
    rw [List.length_append, length_pseudoHeaderBytes]
    omega
  have hfolds := folds_not_checksum hroom
  refine eq_of_folds ?_ hfolds
  have hfold := folds_foldSum
    (sumWords ((pseudoWords saddr daddr proto data.length).foldl (· + ·) 0) data)
  rw [(pseudoWords_spec hlen saddr daddr proto).2.2] at hfold
  rwa [tcpChecksum, UInt16.not_not, UInt32.toNat_toUInt16, Nat.mod_eq_of_lt hfold.lt]

/-! ## Little-endian accumulation -/

/-- What `bpf_csum_diff` accumulates and folds. -/
theorem folds_foldCsum (words : List UInt32) :
    Folds 65536 (words.map UInt32.toNat).sum (foldCsum (words.foldl csumAdd 0)).toNat where
  lt := (foldCsum _).toNat_lt
  modEq := by
    have hmod := (foldCsum_mod _).trans (foldl_csumAdd_mod words 0)
    rwa [UInt32.toNat_zero, Nat.zero_add] at hmod
  zero := by
    have hfold : (foldCsum (words.foldl csumAdd 0)).toNat = 0 ↔ words.foldl csumAdd 0 = 0 := by
      rw [← UInt32.toNat_inj, toNat_foldCsum, UInt32.toNat_zero]
      omega
    rw [hfold, foldl_csumAdd_eq_zero, List.sum_eq_zero_iff, List.forall_mem_map]
    simp only [true_and, ← UInt32.toNat_inj, UInt32.toNat_zero]

theorem toNat_bswap16 (v : UInt16) : (bswap16 v).toNat = swap 256 v.toNat := by
  have hv := v.toNat_lt
  have hshift : (8 : UInt16).toNat % 16 = 8 := rfl
  have hlow : v.toNat / 256 < 2 ^ 8 := by omega
  have hhigh : v.toNat * 2 ^ 8 % 2 ^ 16 = 2 ^ 8 * (v.toNat % 256) := by omega
  rw [bswap16, UInt16.toNat_or, UInt16.toNat_shiftLeft, UInt16.toNat_shiftRight, hshift,
    Nat.shiftLeft_eq, Nat.shiftRight_eq_div_pow, hhigh, swap, Nat.mul_comm (v.toNat % 256)]
  exact (Nat.two_pow_add_eq_or_of_lt hlow _).symm

theorem bswap16_not (v : UInt16) : bswap16 (~~~v) = ~~~bswap16 v := by
  have hv := v.toNat_lt
  rw [← UInt16.toNat_inj, toNat_bswap16, toNat_not, toNat_not, toNat_bswap16, swap, swap]
  omega

/-- Words whose sum is that of the big-endian words times 256, with the same zeros. -/
theorem finalizeCsum_of_sum (hroom : 65535 * ((data.length + 1) / 2) < 2 ^ 32) {words : List UInt32}
    (hmod : (words.map UInt32.toNat).sum ≡ 256 * (beWords data).sum [MOD 65535])
    (hzero : (words.map UInt32.toNat).sum = 0 ↔ (beWords data).sum = 0) :
    finalizeCsum (words.foldl csumAdd 0) =
      if bswap16 (checksum data) = 0 then 0xffff else bswap16 (checksum data) := by
  have hfold : foldCsum (words.foldl csumAdd 0) = ~~~bswap16 (checksum data) := by
    have hcheck : Folds (256 * 256) _ _ := folds_not_checksum hroom
    rw [← bswap16_not, ← UInt16.toNat_inj, toNat_bswap16]
    exact (folds_foldCsum words).unique (hcheck.swap (by decide) hmod hzero)
  have hones : ~~~bswap16 (checksum data) = 0xffff ↔ bswap16 (checksum data) = 0 := by
    rw [← UInt16.not_inj, UInt16.not_not]
    rfl
  rw [finalizeCsum_eq, hfold, UInt16.not_not]
  simp only [hones]

theorem toNat_ofNat_lt {n : Nat} (h : n < 2 ^ 32) : (UInt32.ofNat n).toNat = n :=
  UInt32.toNat_ofNat_of_lt' h

/-- The other byte order multiplies every word by 256. -/
theorem sum_leWords (data : List UInt8) :
    ((leWords data).map UInt32.toNat).sum ≡ 256 * (beWords data).sum [MOD 65535] ∧
      (((leWords data).map UInt32.toNat).sum = 0 ↔ (beWords data).sum = 0) := by
  fun_induction leWords data with
  | case1 lo hi data ih =>
    have hlo := lo.toNat_lt
    have hhi := hi.toNat_lt
    rw [List.map_cons, List.sum_cons, beWords, List.sum_cons, toNat_ofNat_lt (by omega), Nat.ModEq]
    rw [Nat.ModEq] at ih
    omega
  | case2 tail =>
    have htail := tail.toNat_lt
    rw [List.map_singleton, List.sum_singleton, beWords, List.sum_singleton,
      toNat_ofNat_lt (by omega), Nat.ModEq]
    omega
  | case3 => exact ⟨Nat.ModEq.refl _, Iff.rfl⟩

theorem sum_leWordPairs (data : List UInt8) :
    ((leWordPairs data).map UInt32.toNat).sum ≡ 256 * (beWords data).sum [MOD 65535] ∧
      (((leWordPairs data).map UInt32.toNat).sum = 0 ↔ (beWords data).sum = 0) := by
  fun_induction leWordPairs data with
  | case1 b0 b1 b2 b3 data ih =>
    have h0 := b0.toNat_lt
    have h1 := b1.toNat_lt
    have h2 := b2.toNat_lt
    have h3 := b3.toNat_lt
    rw [List.map_cons, List.sum_cons, beWords, List.sum_cons, beWords, List.sum_cons,
      toNat_ofNat_lt (by omega), Nat.ModEq]
    rw [Nat.ModEq] at ih
    omega
  | case2 b0 b1 b2 =>
    have h0 := b0.toNat_lt
    have h1 := b1.toNat_lt
    have h2 := b2.toNat_lt
    rw [List.map_singleton, List.sum_singleton, beWords, List.sum_cons, beWords, List.sum_singleton,
      toNat_ofNat_lt (by omega), Nat.ModEq]
    omega
  | case3 b0 b1 =>
    have h0 := b0.toNat_lt
    have h1 := b1.toNat_lt
    rw [List.map_singleton, List.sum_singleton, beWords, List.sum_cons, beWords, List.sum_nil,
      toNat_ofNat_lt (by omega), Nat.ModEq]
    omega
  | case4 b0 =>
    have h0 := b0.toNat_lt
    rw [List.map_singleton, List.sum_singleton, beWords, List.sum_singleton,
      toNat_ofNat_lt (by omega), Nat.ModEq]
    omega
  | case5 => exact ⟨Nat.ModEq.refl _, Iff.rfl⟩

/-- A region of a frame, read as the helper reads it. -/
theorem leWordPairs_frame (ctx : XdpContext) (p k : Nat) :
    leWordPairs ((List.range (4 * k)).map fun i => ctx.mem (p + i)) = ctx.words p (4 * k) := by
  induction k generalizing p with
  | zero => rfl
  | succ k ih =>
    have hrange : List.range (4 * (k + 1)) = 0 :: 1 :: 2 :: 3 :: (List.range (4 * k)).map (4 + ·) := by
      rw [Nat.mul_succ, Nat.add_comm, List.range_add]
      rfl
    have hbytes : ((List.range (4 * k)).map (4 + ·)).map (fun i => ctx.mem (p + i)) =
        (List.range (4 * k)).map fun i => ctx.mem (p + 4 + i) := by
      rw [List.map_map]
      exact List.map_congr_left fun i _ => congrArg ctx.mem (Nat.add_assoc p 4 i).symm
    have hword : (UInt32.ofNat ((ctx.mem (p + 0)).toNat + 256 * (ctx.mem (p + 1)).toNat +
        65536 * ((ctx.mem (p + 2)).toNat + 256 * (ctx.mem (p + 3)).toNat))) = ctx.u32 p := by
      rw [← UInt32.ofNat_toNat (x := ctx.u32 p), XdpContext.toNat_u32, XdpContext.toNat_u16,
        XdpContext.toNat_u16]
      rfl
    have hwords : ctx.words p (4 * (k + 1)) = ctx.u32 p :: ctx.words (p + 4) (4 * k) := by
      rw [XdpContext.words, XdpContext.words, Nat.mul_div_cancel_left _ (by decide),
        Nat.mul_div_cancel_left _ (by decide), List.range_succ_eq_map, List.map_cons, List.map_map]
      refine congrArg₂ List.cons rfl (List.map_congr_left fun i _ => ?_)
      exact congrArg ctx.u32 (by rw [Nat.succ_eq_add_one]; omega)
    rw [hrange, List.map_cons, List.map_cons, List.map_cons, List.map_cons, hbytes, leWordPairs, ih,
      hword, hwords]

/-- What the data plane writes into a header is the checksum of its bytes, in the byte order of the
frame. -/
theorem finalizeCsum_words (ctx : XdpContext) (p : Nat) {k : Nat} (hk : 4 * k ≤ 65535) :
    let bytes := (List.range (4 * k)).map fun i => ctx.mem (p + i)
    finalizeCsum ((ctx.words p (4 * k)).foldl csumAdd 0) =
      if bswap16 (checksum bytes) = 0 then 0xffff else bswap16 (checksum bytes) := by
  intro bytes
  have hsum := sum_leWordPairs bytes
  have hlen : bytes.length = 4 * k := by rw [List.length_map, List.length_range]
  rw [← leWordPairs_frame]
  exact finalizeCsum_of_sum (by omega) hsum.1 hsum.2

/-! ## The checksum -/

/-- The checksum of data of up to 65535 bytes is that of RFC 1071, however it is computed. -/
theorem checksum_spec (hlen : data.length ≤ 65535) : ChecksumSpec data := by
  have hroom : 65535 * ((data.length + 1) / 2) < 2 ^ 32 := by omega
  have hsum := sumWords_spec 0 data (by rw [UInt32.toNat_zero]; omega)
  have hfolds := (folds_not_checksum hroom).unique (folds_sum (by decide) (mem_beWords_lt data))
  have hlt := (checksum data).toNat_lt
  exact {
    noOverflow := ⟨hsum.1, foldFits 4 _⟩
    folded := shiftRight_eq_zero.2 (folds_foldSum _).lt
    complement := by
      rw [toNat_not] at hfolds
      omega
    written := fun k hk hhi hlo => checksum_writeBe hroom hk hhi hlo
    tcp := fun saddr daddr proto => tcpChecksum_eq hlen saddr daddr proto
    tcpNoOverflow := fun saddr daddr proto =>
      ⟨(pseudoWords_spec hlen saddr daddr proto).1, (pseudoWords_spec hlen saddr daddr proto).2.1⟩
    words := finalizeCsum_of_sum hroom (sum_leWords data).1 (sum_leWords data).2
    wordPairs := finalizeCsum_of_sum hroom (sum_leWordPairs data).1 (sum_leWordPairs data).2 }

/-- The header of the source's own test, whose checksum is `0xb861`. -/
theorem checksum_spec_header :
    ChecksumSpec [0x45, 0x00, 0x00, 0x73, 0x00, 0x00, 0x40, 0x00, 0x40, 0x11, 0x00, 0x00, 0xc0, 0xa8,
      0x00, 0x01, 0xc0, 0xa8, 0x00, 0xc7] :=
  checksum_spec (by decide)

example : checksum [0x45, 0x00, 0x00, 0x73, 0x00, 0x00, 0x40, 0x00, 0x40, 0x11, 0x00, 0x00, 0xc0, 0xa8,
    0x00, 0x01, 0xc0, 0xa8, 0x00, 0xc7] = 0xb861 := by
  decide

end EShield.Ebpf
