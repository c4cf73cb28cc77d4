import EShield.Console.L7View
import EShield.Node.Proofs.L7PatternProofs

/-!
# The preview against the data plane

The preview compares eight bytes of the probe with the padded pattern. Without a mask the bytes behind a
short pattern count too, and have to be zero, while the data plane does not look at them.
-/

namespace EShield.Console

open Ebpf Node

variable {pat : L7PatternConfig} {probe : String}

/-! ## Padding -/

theorem encode_padEnd (s : List Char) (n : Nat) :
    encode (padEnd s n) = encode s ++ List.replicate (n - utf16Length s) 0 := by
  rw [encode, padEnd, List.flatMap_append, ← encode]
  congr 1
  generalize n - utf16Length s = k
  induction k with
  | zero => rfl
  | succ k ih =>
    rw [List.replicate_succ, List.flatMap_cons, ih]
    rfl

/-- Padding makes no difference to the bytes that are read. -/
theorem getD_first8Bytes (s : List Char) {i : Nat} (hi : i < 8) :
    (first8Bytes s).getD i 0 = (encode s).getD i 0 := by
  rw [first8Bytes, encode_padEnd, List.getD_eq_getElem?_getD, List.getElem?_take, if_pos hi,
    List.getD_eq_getElem?_getD]
  by_cases hlen : i < (encode s).length
  · rw [List.getElem?_append_left hlen]
  · rw [List.getElem?_append_right (not_lt.1 hlen), List.getElem?_eq_none (not_lt.1 hlen),
      List.getElem?_replicate]
    split
    · rfl
    · rfl

theorem encode_pattern (pat : L7PatternConfig) : encode pat.pattern.toList = pat.bytes :=
  (toList_toUTF8 pat.pattern).symm

/-! ## The comparison -/

theorem pattern_ne_nil (h : pat.Accepted) : pat.pattern.toList ≠ [] := by
  intro hnil
  have hbytes := encode_pattern pat
  rw [hnil] at hbytes
  exact h.nonempty hbytes.symm

theorem and_ones (b : UInt8) : b &&& 0xff = b := by
  apply UInt8.toNat_inj.1
  rw [UInt8.toNat_and]
  exact (Nat.and_two_pow_sub_one_eq_mod b.toNat 8).trans (Nat.mod_eq_of_lt b.toNat_lt)

/-- With a mask the preview compares what the data plane compares. -/
theorem matchPattern_of_mask (h : pat.Accepted) {mask : String} (hmask : pat.mask = some mask) :
    matchPattern probe pat = true ↔ pat.Matches fun i => (encode probe.toList).getD i 0 := by
  have hlen := h.mask
  have hshort := h.short
  have hmaskBytes : encode mask.toList = pat.maskBytes := by
    rw [L7PatternConfig.maskBytes, hmask]
    exact (toList_toUTF8 mask).symm
  have hnonempty : mask.toList ≠ [] := by
    intro hnil
    rw [hnil] at hmaskBytes
    rw [← hmaskBytes] at hlen
    exact h.nonempty (List.length_eq_zero_iff.1 hlen.symm)
  unfold matchPattern
  rw [if_neg (pattern_ne_nil h), hmask]
  dsimp only
  rw [if_neg hnonempty, List.all_eq_true]
  constructor
  · intro hall i hi
    have hbyte := of_decide_eq_true (hall i (List.mem_range.2 (by omega)))
    rw [getD_first8Bytes _ (by omega), getD_first8Bytes _ (by omega),
      getD_first8Bytes _ (by omega), hmaskBytes, encode_pattern] at hbyte
    exact hbyte
  · intro hmatches i hi
    have hi' := List.mem_range.1 hi
    rw [decide_eq_true_eq, getD_first8Bytes _ hi', getD_first8Bytes _ hi', getD_first8Bytes _ hi',
      hmaskBytes, encode_pattern]
    by_cases hin : i < pat.bytes.length
    · exact hmatches i hin
    · have hzero : pat.maskBytes.getD i 0 = 0 := List.getD_eq_default _ _ (by omega)
      rw [hzero, UInt8.and_zero, UInt8.and_zero]

/-- Without one it compares all eight bytes. -/
theorem matchPattern_of_no_mask (h : pat.Accepted) (hmask : pat.mask = none) :
    matchPattern probe pat = true ↔
      ∀ i < 8, (encode probe.toList).getD i 0 = pat.bytes.getD i 0 := by
  unfold matchPattern
  rw [if_neg (pattern_ne_nil h), hmask]
  dsimp only
  rw [List.all_eq_true]
  have hones : ∀ i < 8, (List.replicate 8 (0xff : UInt8)).getD i 0 = 0xff := by decide
  refine forall_congr' fun i => ?_
  rw [List.mem_range]
  refine forall_congr' fun hi => ?_
  rw [decide_eq_true_eq, getD_first8Bytes _ hi, getD_first8Bytes _ hi, hones i hi, and_ones, and_ones,
    encode_pattern]

theorem matches_of_no_mask (hmask : pat.mask = none) (payload : Nat → UInt8) :
    pat.Matches payload ↔ ∀ i < pat.bytes.length, payload i = pat.bytes.getD i 0 := by
  refine forall_congr' fun i => forall_congr' fun hi => ?_
  have hones : pat.maskBytes.getD i 0 = 0xff := by
    rw [L7PatternConfig.maskBytes, hmask, List.getD_eq_getElem?_getD, List.getElem?_map,
      List.getElem?_eq_getElem hi]
    rfl
  rw [hones, and_ones, and_ones]

/-- The beginning of a text, byte by byte. -/
theorem isPrefix_iff_getD {xs ys : List UInt8} (h : xs.length ≤ ys.length) :
    xs <+: ys ↔ ∀ i < xs.length, ys.getD i 0 = xs.getD i 0 := by
  rw [List.prefix_iff_eq_take]
  constructor
  · intro heq i hi
    have hget : xs[i]? = (ys.take xs.length)[i]? := by rw [← heq]
    rw [List.getElem?_take, if_pos hi] at hget
    rw [List.getD_eq_getElem?_getD, List.getD_eq_getElem?_getD, hget]
  · intro hall
    apply List.ext_getElem?
    intro i
    rw [List.getElem?_take]
    split
    · rename_i hi
      have hbyte := hall i hi
      rw [List.getD_eq_getElem _ _ (by omega), List.getD_eq_getElem _ _ hi] at hbyte
      rw [List.getElem?_eq_getElem hi, List.getElem?_eq_getElem (by omega), hbyte]
    · rename_i hi
      exact List.getElem?_eq_none (not_lt.1 hi)

/-! ## Agreement -/

/-- The pattern has a mask or all eight bytes, or the probe does not begin with it, or has only zeros
behind it as far as the eighth byte. -/
def PreviewApplies (pat : L7PatternConfig) (probe : List UInt8) : Prop :=
  pat.mask ≠ none ∨ pat.bytes.length = 8 ∨ ¬ pat.bytes <+: probe ∨
    ∀ i < 8, pat.bytes.length ≤ i → probe.getD i 0 = 0

/-- The preview and the comparison of the data plane agree exactly if this holds. -/
theorem matchPattern_iff_matches_iff (h : pat.Accepted)
    (hprobe : 8 ≤ (encode probe.toList).length) :
    (matchPattern probe pat = true ↔
        pat.Matches fun i => (encode probe.toList).getD i 0) ↔
      PreviewApplies pat (encode probe.toList) := by
  have hshort := h.short
  unfold PreviewApplies
  cases hmask : pat.mask with
  | some mask => exact iff_of_true (matchPattern_of_mask h hmask) (.inl nofun)
  | none =>
    rw [matchPattern_of_no_mask h hmask, matches_of_no_mask hmask,
      isPrefix_iff_getD (hshort.trans hprobe)]
    constructor
    · intro hagree
      by_cases hprefix : ∀ i < pat.bytes.length, (encode probe.toList).getD i 0 = pat.bytes.getD i 0
      · refine .inr (.inr (.inr fun i hi hbehind => ?_))
        rw [hagree.2 hprefix i hi]
        exact List.getD_eq_default _ _ hbehind
      · exact .inr (.inr (.inl hprefix))
    · rintro (hnone | hfull | hother | hzeros)
      · exact absurd rfl hnone
      · rw [hfull]
      · refine iff_of_false (fun hall => ?_) hother
        exact hother fun i hi => hall i (by omega)
      · constructor
        · exact fun hall i hi => hall i (by omega)
        · intro hprefix i hi
          by_cases hin : i < pat.bytes.length
          · exact hprefix i hin
          · rw [hzeros i hi (not_lt.1 hin)]
            exact (List.getD_eq_default _ _ (not_lt.1 hin)).symm

/-- A TCP packet whose payload is the text. -/
structure CarriesText (ctx : XdpContext) (ipHdrLen : Nat) (bytes : List UInt8) : Prop where
  doff : 5 ≤ (TcpHdr.doff ctx (ETH_HDR_LEN + ipHdrLen)).toNat
  ends : ETH_HDR_LEN + ipHdrLen + TcpHdr.hdrLen ctx (ETH_HDR_LEN + ipHdrLen) + bytes.length = ctx.len
  payload : ∀ i < bytes.length, tcpPayload ctx ipHdrLen i = bytes.getD i 0

/-- For an accepted pattern and a probe of eight bytes or more the preview shows a match exactly when
the data plane, loaded with the pattern, finds the probe in a TCP packet, if and only if the preview
applies to the pattern and the probe. -/
theorem l7_preview_agrees_iff (h : validateL7Patterns [pat] = .ok ())
    (hprobe : 8 ≤ (encode probe.toList).length) (m : Maps) (hon : m.config.l7ScanEnabled ≠ 0)
    {ctx : XdpContext} {ipHdrLen : Nat} (hcarries : CarriesText ctx ipHdrLen (encode probe.toList)) :
    ∃ m', (initL7PatternsMap [pat]).Passes m m' ∧
      ((matchPattern probe pat = true ↔
          scan m' ctx ipHdrLen IPPROTO_TCP (min m'.config.l7PatternCount 8) = true) ↔
        PreviewApplies pat (encode probe.toList)) := by
  have haccepted := accepted_of_mem h List.mem_cons_self
  have hshort := haccepted.short
  have hends := hcarries.ends
  have hpayload : HasPayload ctx ipHdrLen := ⟨hcarries.doff, by omega⟩
  have hsame : ∀ i < pat.bytes.length,
      tcpPayload ctx ipHdrLen i = (encode probe.toList).getD i 0 := fun i hi =>
    hcarries.payload i (by omega)
  have hscan := scan_writeL7Patterns_iff h hon hpayload
  simp only [List.mem_singleton, exists_eq_left] at hscan
  refine ⟨_, initL7PatternsMap_passes h m, ?_⟩
  rw [hscan, ← matchPattern_iff_matches_iff haccepted hprobe]
  have hmatches : pat.Matches (tcpPayload ctx ipHdrLen) ↔
      pat.Matches fun i => (encode probe.toList).getD i 0 := by
    refine forall_congr' fun i => forall_congr' fun hi => ?_
    rw [hsame i hi]
  rw [hmatches]

/-- The probe "GET /api" in a TCP packet. -/
theorem carriesText_frameOfGet : CarriesText frameOfGet 20 (encode "GET /api".toList) := by
  have hbytes : encode "GET /api".toList = [71, 69, 84, 32, 47, 97, 112, 105] := by decide +kernel
  rw [hbytes]
  exact ⟨by decide +kernel, by decide +kernel, by decide +kernel⟩

/-- With a mask of all its bytes the pattern "GET" is previewed as the data plane finds it. -/
theorem l7_preview_agrees_iff_mask :
    ∃ m', (initL7PatternsMap [{ pattern := "GET", mask := some "~~~" }]).Passes
        { config := { l7ScanEnabled := 1 } } m' ∧
      ((matchPattern "GET /api" { pattern := "GET", mask := some "~~~" } = true ↔
          scan m' frameOfGet 20 IPPROTO_TCP (min m'.config.l7PatternCount 8) = true) ↔
        PreviewApplies { pattern := "GET", mask := some "~~~" } (encode "GET /api".toList)) :=
  l7_preview_agrees_iff (by decide +kernel) (by decide +kernel) _ (by decide) carriesText_frameOfGet

/-- The data plane drops what begins with "GET", and the preview shows no match. -/
theorem short_pattern_not_previewed :
    ∃ m', (initL7PatternsMap [{ pattern := "GET" }]).Passes { config := { l7ScanEnabled := 1 } } m' ∧
      scan m' frameOfGet 20 IPPROTO_TCP (min m'.config.l7PatternCount 8) = true ∧
      matchPattern "GET /api" { pattern := "GET" } = false :=
  ⟨_, initL7PatternsMap_passes (by decide +kernel) _, by decide +kernel, by decide +kernel⟩

end EShield.Console
