import EShield.Ebpf.RateCounter
import EShield.Lib.WordBytes
import EShield.Node.Proofs.InForceProofs
import EShield.Node.Proofs.PortAclProofs

/-!
# L7 patterns match as configured

The control plane packs a pattern and its mask into words and the data plane compares a word of the
payload with them. Byte for byte this is the comparison of the pattern's own bytes: behind its length
the mask is zero.
-/

namespace EShield.Ebpf

open WordBytes

namespace XdpContext

theorem getLsbD_u16 (ctx : XdpContext) (p : Nat) {k : Nat} (hk : k < 16) :
    (ctx.u16 p).toBitVec.getLsbD k = (ctx.mem (p + k / 8)).toBitVec.getLsbD (k % 8) := by
  have hjoin := getLsbD_join (ctx.mem p).toBitVec (ctx.mem (p + 1)).toBitVec rfl hk
  change (ctx.u16 p).toBitVec.getLsbD k = _ at hjoin
  rw [hjoin]
  by_cases hlow : k < 8
  · rw [if_pos hlow, Nat.div_eq_of_lt hlow, Nat.mod_eq_of_lt hlow, Nat.add_zero]
  · have hdiv : k / 8 = 1 := by omega
    have hmod : k % 8 = k - 8 := by omega
    rw [if_neg hlow, hdiv, hmod]

theorem getLsbD_u32 (ctx : XdpContext) (p : Nat) {k : Nat} (hk : k < 32) :
    (ctx.u32 p).toBitVec.getLsbD k = (ctx.mem (p + k / 8)).toBitVec.getLsbD (k % 8) := by
  have hjoin := getLsbD_join (ctx.u16 p).toBitVec (ctx.u16 (p + 2)).toBitVec rfl hk
  change (ctx.u32 p).toBitVec.getLsbD k = _ at hjoin
  rw [hjoin]
  by_cases hlow : k < 16
  · rw [if_pos hlow, getLsbD_u16 ctx p hlow]
  · have hplace : p + 2 + (k - 16) / 8 = p + k / 8 := by omega
    have hbit : (k - 16) % 8 = k % 8 := by omega
    rw [if_neg hlow, getLsbD_u16 ctx (p + 2) (by omega), hplace, hbit]

theorem getLsbD_u64 (ctx : XdpContext) (p : Nat) {k : Nat} (hk : k < 64) :
    (ctx.u64 p).toBitVec.getLsbD k = (ctx.mem (p + k / 8)).toBitVec.getLsbD (k % 8) := by
  have hjoin := getLsbD_join (ctx.u32 p).toBitVec (ctx.u32 (p + 4)).toBitVec rfl hk
  change (ctx.u64 p).toBitVec.getLsbD k = _ at hjoin
  rw [hjoin]
  by_cases hlow : k < 32
  · rw [if_pos hlow, getLsbD_u32 ctx p hlow]
  · have hplace : p + 4 + (k - 32) / 8 = p + k / 8 := by omega
    have hbit : (k - 32) % 8 = k % 8 := by omega
    rw [if_neg hlow, getLsbD_u32 ctx (p + 4) (by omega), hplace, hbit]

/-- A native load has the bytes of the packet in their order. -/
theorem byteAt_u64 (ctx : XdpContext) (p : Nat) {i : Nat} (hi : i < 8) :
    byteAt (ctx.u64 p) i = ctx.mem (p + i) := by
  apply UInt8.eq_of_toBitVec_eq
  apply BitVec.eq_of_getLsbD_eq
  intro j hj
  have hdiv : (8 * i + j) / 8 = i := by omega
  have hmod : (8 * i + j) % 8 = j := by omega
  rw [getLsbD_byteAt _ _ hj, getLsbD_u64 ctx p (by omega), hdiv, hmod]

end XdpContext

end EShield.Ebpf

namespace EShield.Node

open Attempt Checks Ebpf Text WordBytes

/-! ## One pattern -/

theorem byteAt_leBytes (bytes : List UInt8) {i : Nat} (hi : i < 8) :
    byteAt (leBytes bytes) i = bytes.getD i 0 := by
  induction bytes generalizing i with
  | nil =>
    apply UInt8.eq_of_toBitVec_eq
    apply BitVec.eq_of_getLsbD_eq
    intro j hj
    rw [getLsbD_byteAt _ _ hj]
    simp [leBytes]
  | cons b bytes ih =>
    have hpush : leBytes (b :: bytes) = (leBytes bytes <<< 8) ||| b.toUInt64 := rfl
    rw [hpush]
    cases i with
    | zero => exact byteAt_push_zero _ _
    | succ i =>
      rw [byteAt_push_succ _ _ hi, List.getD_cons_succ]
      exact ih (by omega)

/-- The payload has the bytes of the pattern under the mask. -/
def L7PatternConfig.Matches (pat : L7PatternConfig) (payload : Nat → UInt8) : Prop :=
  ∀ i < pat.bytes.length,
    payload i &&& pat.maskBytes.getD i 0 = pat.bytes.getD i 0 &&& pat.maskBytes.getD i 0

variable {patterns : List L7PatternConfig} {pat : L7PatternConfig}

/-- The comparison of words is that of the pattern's bytes. -/
theorem entry_matches_iff (h : pat.Accepted) (ctx : XdpContext) (p : Nat) :
    ctx.u64 p &&& pat.entry.mask = pat.entry.signature &&& pat.entry.mask ↔
      pat.Matches fun i => ctx.mem (p + i) := by
  have hshort := h.short
  rw [and_eq_and_iff]
  constructor
  · intro heq i hi
    have hbyte := heq i (by omega)
    rw [L7PatternConfig.entry, byteAt_leBytes _ (by omega), byteAt_leBytes _ (by omega),
      XdpContext.byteAt_u64 _ _ (by omega)] at hbyte
    exact hbyte
  · intro hmatches i hi
    rw [L7PatternConfig.entry, byteAt_leBytes _ hi, byteAt_leBytes _ hi, XdpContext.byteAt_u64 _ _ hi]
    by_cases hlen : i < pat.bytes.length
    · exact hmatches i hlen
    · have hzero : pat.maskBytes.getD i 0 = 0 := List.getD_eq_default _ _ (by rw [h.mask]; omega)
      rw [hzero, UInt8.and_zero, UInt8.and_zero]

/-! ## The table -/

theorem length_le_of_accepted (h : validateL7Patterns patterns = .ok ()) :
    patterns.length ≤ MAX_L7_PATTERNS := by
  obtain ⟨hlen, -⟩ := check_bind_eq_ok.1 h
  exact not_lt.1 (rejectIf_eq_ok.1 hlen)

/-- The slots of the patterns have their entries. -/
theorem l7Table_getElem? (h : validateL7Patterns patterns = .ok ()) {i : Nat}
    (hi : i < patterns.length) : (l7Table patterns)[i]? = patterns[i]?.map L7PatternConfig.entry := by
  have hlen := length_le_of_accepted h
  have hentries : List.Forall₂ (fun pat entry => pat.Accepted ∧ entry = pat.entry) patterns
      (patterns.map L7PatternConfig.entry) := by
    rw [List.forall₂_map_right_iff, List.forall₂_same]
    intro pat hpat
    exact ⟨accepted_of_mem h hpat, rfl⟩
  have hencode : ∀ (i : Nat) (pat : L7PatternConfig) (entry : L7Pattern), i < MAX_L7_PATTERNS →
      pat.Accepted ∧ entry = pat.entry → l7Entry i pat = .ok entry := by
    rintro i pat entry - ⟨hpat, rfl⟩
    exact l7Entry_of_accepted hpat i
  obtain ⟨table, hfill, -, hat⟩ :=
    fillTable_spec hencode hentries 0 (by omega) (.replicate MAX_L7_PATTERNS {})
  have hslot := hat i (by rw [List.length_map]; exact hi)
  rw [Nat.zero_add, List.getElem?_map] at hslot
  rw [l7Table, List.take_of_length_le hlen, hfill]
  exact hslot

/-! ## The scan -/

/-- Behind the TCP header of the frame lie eight bytes of payload. -/
structure HasPayload (ctx : XdpContext) (ipHdrLen : Nat) : Prop where
  doff : 5 ≤ (TcpHdr.doff ctx (ETH_HDR_LEN + ipHdrLen)).toNat
  fits : ETH_HDR_LEN + ipHdrLen + TcpHdr.hdrLen ctx (ETH_HDR_LEN + ipHdrLen) + 8 ≤ ctx.len

/-- The payload behind the TCP header. -/
def tcpPayload (ctx : XdpContext) (ipHdrLen i : Nat) : UInt8 :=
  ctx.mem (ETH_HDR_LEN + ipHdrLen + TcpHdr.hdrLen ctx (ETH_HDR_LEN + ipHdrLen) + i)

theorem HasPayload.ptrAt {ctx : XdpContext} {ipHdrLen : Nat} (h : HasPayload ctx ipHdrLen) :
    ctx.ptrAt TCP_HDR_LEN (ETH_HDR_LEN + ipHdrLen) = some (ETH_HDR_LEN + ipHdrLen) := by
  have hdoff := h.doff
  have hfits := h.fits
  rw [TcpHdr.hdrLen] at hfits
  rw [XdpContext.ptrAt, if_neg]
  rw [TCP_HDR_LEN]
  omega

/-- The scan of a TCP packet goes through the slots that are in use. -/
theorem scan_iff {m : Maps} {ctx : XdpContext} {ipHdrLen : Nat} (hon : m.config.l7ScanEnabled ≠ 0)
    (h : HasPayload ctx ipHdrLen) (count : UInt8) :
    scan m ctx ipHdrLen IPPROTO_TCP count = true ↔
      ∃ i < count.toNat, ∃ entry, m.l7Patterns[i]? = some entry ∧ entry.length ≠ 0 ∧
        ctx.u64 (ETH_HDR_LEN + ipHdrLen + TcpHdr.hdrLen ctx (ETH_HDR_LEN + ipHdrLen)) &&&
          entry.mask = entry.signature &&& entry.mask := by
  have hfits := h.fits
  unfold scan
  rw [if_neg hon, if_neg (by decide), h.ptrAt]
  dsimp only
  rw [if_neg (by omega), List.any_eq_true]
  refine exists_congr fun i => and_congr List.mem_range ?_
  cases m.l7Patterns[i]? with
  | none => simp
  | some entry => simp

theorem entry_length_ne_zero (h : pat.Accepted) : pat.entry.length ≠ 0 := by
  have hpos := List.length_pos_iff.2 h.nonempty
  have hshort := h.short
  intro hzero
  have hlen := congrArg UInt8.toNat hzero
  rw [L7PatternConfig.entry, Nat.toUInt8_eq, UInt8.toNat_ofNat'] at hlen
  have : (0 : UInt8).toNat = 0 := rfl
  omega

/-- The scan after accepted patterns have been written. -/
theorem scan_writeL7Patterns_iff (h : validateL7Patterns patterns = .ok ()) {m : Maps}
    (hon : m.config.l7ScanEnabled ≠ 0) {ctx : XdpContext} {ipHdrLen : Nat}
    (hpayload : HasPayload ctx ipHdrLen) :
    scan (writeL7Patterns patterns m) ctx ipHdrLen IPPROTO_TCP
        (min (writeL7Patterns patterns m).config.l7PatternCount 8) = true ↔
      ∃ pat ∈ patterns, pat.Matches (tcpPayload ctx ipHdrLen) := by
  have hon' : (writeL7Patterns patterns m).config.l7ScanEnabled ≠ 0 := hon
  have hcount : (min (writeL7Patterns patterns m).config.l7PatternCount 8).toNat = patterns.length :=
    toNat_tableCount (length_le_of_accepted h) rfl
  rw [scan_iff hon' hpayload, hcount]
  have hslot : ∀ i < patterns.length, (writeL7Patterns patterns m).l7Patterns[i]? =
      patterns[i]?.map L7PatternConfig.entry := fun i hi => l7Table_getElem? h hi
  constructor
  · rintro ⟨i, hi, entry, hentry, -, hmatches⟩
    rw [hslot i hi, List.getElem?_eq_getElem hi, Option.map_some, Option.some.injEq] at hentry
    subst hentry
    have hpat := List.getElem_mem hi
    exact ⟨_, hpat, (entry_matches_iff (accepted_of_mem h hpat) ctx _).1 hmatches⟩
  · rintro ⟨pat, hpat, hmatches⟩
    obtain ⟨i, hi, rfl⟩ := List.getElem_of_mem hpat
    have haccepted := accepted_of_mem h hpat
    refine ⟨i, hi, patterns[i].entry, ?_, entry_length_ne_zero haccepted, ?_⟩
    · rw [hslot i hi, List.getElem?_eq_getElem hi, Option.map_some]
    · exact (entry_matches_iff haccepted ctx _).2 hmatches

/-- After accepted patterns have been written, which passes whatever was there before, the scan finds a
TCP payload exactly if one of them matches it. -/
theorem l7_patterns_match_exactly (h : validateL7Patterns patterns = .ok ()) (m : Maps)
    (hon : m.config.l7ScanEnabled ≠ 0) {ctx : XdpContext} {ipHdrLen : Nat}
    (hpayload : HasPayload ctx ipHdrLen) :
    ∃ m', (initL7PatternsMap patterns).Passes m m' ∧
      (scan m' ctx ipHdrLen IPPROTO_TCP (min m'.config.l7PatternCount 8) = true ↔
        ∃ pat ∈ patterns, pat.Matches (tcpPayload ctx ipHdrLen)) :=
  ⟨_, initL7PatternsMap_passes h m, scan_writeL7Patterns_iff h hon hpayload⟩

/-- A bare TCP frame with the payload "GET /api". -/
def frameOfGet : XdpContext :=
  .ofBytes (List.replicate 14 0 ++
    [0x45, 0, 0, 48, 0, 0, 0, 0, 64, 6, 0, 0, 10, 1, 2, 3, 10, 0, 0, 1] ++
    [0, 80, 0, 80, 0, 0, 0, 0, 0, 0, 0, 0, 0x50, 0, 0, 0, 0, 0, 0, 0] ++
    [71, 69, 84, 32, 47, 97, 112, 105])

/-- It is found by the pattern "GET". -/
theorem l7_patterns_match_exactly_get :
    ∃ m', (initL7PatternsMap [{ pattern := "GET" }]).Passes { config := { l7ScanEnabled := 1 } } m' ∧
      (scan m' frameOfGet 20 IPPROTO_TCP (min m'.config.l7PatternCount 8) = true ↔
        ∃ pat ∈ [({ pattern := "GET" } : L7PatternConfig)], pat.Matches (tcpPayload frameOfGet 20)) :=
  l7_patterns_match_exactly (by decide +kernel) _ (by decide)
    ⟨by decide +kernel, by decide +kernel⟩

end EShield.Node
