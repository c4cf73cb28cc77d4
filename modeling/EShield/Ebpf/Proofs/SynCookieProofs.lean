import EShield.Ebpf.Proofs.ChecksumProofs
import EShield.Ebpf.SynCookie

/-!
# The challenge frame

The SYN-ACK that answers a SYN is right in every field but one: data offset and flags are stored
without `to_be`, so that they are read back in the wrong order.
-/

namespace EShield.Ebpf

open XdpContext

/-! ## What a well-formed answer is -/

/-- The words of the IPv4 pseudo-header: both addresses, then the bytes `0, 6` and the length. -/
def pseudoHeader (frame : XdpContext) (ip tcpLen : Nat) : List UInt32 :=
  [IpHdr.saddr frame ip, IpHdr.daddr frame ip,
    ((6 : UInt32) <<< 8) ||| ((bswap16 (UInt16.ofNat tcpLen)).toUInt32 <<< 16)]

/-- The frame answers the SYN with sequence number `cookie`, in all fields but data offset and
flags. -/
structure AnswersSyn (syn frame : XdpContext) (ipHdrLen tcpHdrLen : Nat) (cookie : UInt32) :
    Prop where
  totLen : (bswap16 (IpHdr.totLen frame ETH_HDR_LEN)).toNat = ipHdrLen + tcpHdrLen
  fits : ETH_HDR_LEN + ipHdrLen + tcpHdrLen ≤ frame.len
  macs : ∀ i < 6, frame.u8 (EthHdr.dst 0 + i) = syn.u8 (EthHdr.src 0 + i) ∧
    frame.u8 (EthHdr.src 0 + i) = syn.u8 (EthHdr.dst 0 + i)
  saddr : IpHdr.saddr frame ETH_HDR_LEN = IpHdr.daddr syn ETH_HDR_LEN
  daddr : IpHdr.daddr frame ETH_HDR_LEN = IpHdr.saddr syn ETH_HDR_LEN
  source : TcpHdr.source frame (ETH_HDR_LEN + ipHdrLen) = TcpHdr.dest syn (ETH_HDR_LEN + ipHdrLen)
  dest : TcpHdr.dest frame (ETH_HDR_LEN + ipHdrLen) = TcpHdr.source syn (ETH_HDR_LEN + ipHdrLen)
  seq : bswap32 (TcpHdr.seq frame (ETH_HDR_LEN + ipHdrLen)) = cookie
  ackSeq : bswap32 (TcpHdr.ackSeq frame (ETH_HDR_LEN + ipHdrLen)) =
    bswap32 (TcpHdr.seq syn (ETH_HDR_LEN + ipHdrLen)) + 1
  ipCheck : CsumVerifies (frame.words ETH_HDR_LEN ipHdrLen) 0
  tcpCheck : CsumVerifies
    (pseudoHeader frame ETH_HDR_LEN tcpHdrLen ++
      frame.words (ETH_HDR_LEN + ipHdrLen) tcpHdrLen) 0

/-- The frame is a well-formed SYN-ACK that answers the SYN. -/
structure WellFormedSynack (syn frame : XdpContext) (ipHdrLen tcpHdrLen : Nat) (cookie : UInt32) :
    Prop extends AnswersSyn syn frame ipHdrLen tcpHdrLen cookie where
  flags : TcpHdr.flags frame (ETH_HDR_LEN + ipHdrLen) = TCP_FLAG_SYN ||| TCP_FLAG_ACK
  dataOffset : TcpHdr.hdrLen frame (ETH_HDR_LEN + ipHdrLen) = tcpHdrLen

/-! ## What is sent -/

variable {h : Helpers} {ctx ctx' : XdpContext} {m : Maps} {pc : PacketCtxRef}
  {ip tcp ipHdrLen tcpHdrLen : Nat} {mssIdx : UInt8} {cookie originalSeq : UInt32}

/-- The length of the TCP header of the answer. -/
def synackHdrLen (tcpHdrLen : Nat) : Nat := if tcpHdrLen ≥ 24 then 24 else 20

theorem synackHdrLen_cases (tcpHdrLen : Nat) :
    synackHdrLen tcpHdrLen = 24 ∨ synackHdrLen tcpHdrLen = 20 := by
  unfold synackHdrLen
  split
  · exact .inl rfl
  · exact .inr rfl

/-- The answer with its options, checksums still zero. -/
def synackBody (ctx : XdpContext) (ipHdrLen tcpHdrLen : Nat) (mssIdx : UInt8)
    (cookie originalSeq : UInt32) : XdpContext :=
  let ctx := rewriteSynack ctx 0 ETH_HDR_LEN (ETH_HDR_LEN + ipHdrLen) ipHdrLen
    (synackHdrLen tcpHdrLen) cookie originalSeq
  if synackHdrLen tcpHdrLen = 24 then writeMss ctx (ETH_HDR_LEN + ipHdrLen) mssIdx else ctx

/-- Cutting the end of a frame changes no byte. -/
theorem bpfXdpAdjustTail_shrink {delta : Int} (hdelta : delta ≤ 0)
    (hadj : bpfXdpAdjustTail h ctx delta = some ctx') : ctx'.mem = ctx.mem := by
  unfold bpfXdpAdjustTail at hadj
  dsimp only at hadj
  split at hadj
  · cases hadj
  · cases hadj
    funext i
    exact if_neg (by omega)

/-- A frame that is sent is the answer, cut to its length, with its checksums. -/
theorem sendSynack_cases
    (hsent : sendSynack h ctx pc tcpHdrLen mssIdx cookie originalSeq = (true, ctx')) :
    ∃ cut : XdpContext, cut.mem = ctx.mem ∧
      ETH_HDR_LEN + pc.ipHdrLen + synackHdrLen tcpHdrLen ≤ cut.len ∧
      computeChecksums (synackBody cut pc.ipHdrLen tcpHdrLen mssIdx cookie originalSeq) ETH_HDR_LEN
        (ETH_HDR_LEN + pc.ipHdrLen) pc.ipHdrLen (synackHdrLen tcpHdrLen) = (true, ctx') := by
  unfold sendSynack at hsent
  dsimp only at hsent
  unfold synackBody
  rw [show (if tcpHdrLen ≥ 24 then 24 else 20) = synackHdrLen tcpHdrLen from rfl] at hsent
  have hlong : synackHdrLen tcpHdrLen = 24 ∨ synackHdrLen tcpHdrLen = 20 := synackHdrLen_cases _
  generalize synackHdrLen tcpHdrLen = newTcpHdrLen at hsent hlong ⊢
  split at hsent
  · cases hsent
  rename_i cut hcut
  have hmem : cut.mem = ctx.mem := by
    split at hcut
    · exact bpfXdpAdjustTail_shrink (by omega) hcut
    · exact congrArg mem (Option.some.inj hcut).symm
  split at hsent
  case h_2 => cases hsent
  rename_i eth ip tcp heth hip htcp
  obtain ⟨_, rfl⟩ := ptrAt_eq_some_iff.1 heth
  obtain ⟨_, rfl⟩ := ptrAt_eq_some_iff.1 hip
  obtain ⟨hlen, rfl⟩ := ptrAt_eq_some_iff.1 htcp
  refine ⟨cut, hmem, ?_⟩
  by_cases hopts : newTcpHdrLen = 24
  · rw [if_pos hopts] at hsent ⊢
    split at hsent
    · cases hsent
    · rename_i base hbase
      obtain ⟨hlen', rfl⟩ := ptrAt_eq_some_iff.1 hbase
      exact ⟨hopts ▸ hlen', hsent⟩
  · rw [if_neg hopts] at hsent ⊢
    exact ⟨by rwa [hlong.resolve_left hopts], hsent⟩

theorem bpfCsumDiff_eq_some {size : Nat} {words : List UInt32} {seed sum : UInt32} :
    bpfCsumDiff size words seed = some sum ↔ size % 4 = 0 ∧ words.foldl csumAdd seed = sum := by
  unfold bpfCsumDiff
  split
  · rename_i hne
    exact ⟨fun h => (nomatch h), fun h => absurd h.1 hne⟩
  · rename_i heq
    rw [Option.some.injEq]
    exact ⟨fun h => ⟨not_not.1 heq, h⟩, And.right⟩

theorem pseudoSum_eq (ctx : XdpContext) (ip tcpHdrLen : Nat) :
    pseudoSum ctx ip tcpHdrLen =
      some ([IpHdr.saddr ctx ip, IpHdr.daddr ctx ip,
        ((6 : UInt32) <<< 8) ||| (UInt32.ofNat tcpHdrLen <<< 24)].foldl csumAdd 0) := rfl

/-- The checksums that are written, each over the frame as it is then. -/
theorem computeChecksums_cases (hsum : computeChecksums ctx ip tcp ipHdrLen tcpHdrLen = (true, ctx')) :
    ∃ mid, mid = ctx.setU16 (ip + 10) (finalizeCsum ((ctx.words ip ipHdrLen).foldl csumAdd 0)) ∧
      ctx' = mid.setU16 (tcp + 16)
        (finalizeCsum
          (([IpHdr.saddr mid ip, IpHdr.daddr mid ip,
              ((6 : UInt32) <<< 8) ||| (UInt32.ofNat tcpHdrLen <<< 24)] ++
            mid.words tcp tcpHdrLen).foldl csumAdd 0)) := by
  unfold computeChecksums at hsum
  split at hsum
  · cases hsum
  · rename_i ipSum hip
    dsimp only at hsum
    split at hsum
    · cases hsum
    · rename_i tcpSum htcp
      cases hsum
      rw [pseudoSum_eq, Option.bind_some] at htcp
      obtain ⟨-, rfl⟩ := bpfCsumDiff_eq_some.1 hip
      obtain ⟨-, rfl⟩ := bpfCsumDiff_eq_some.1 htcp
      exact ⟨_, rfl, by rw [List.foldl_append]⟩

theorem len_synackBody (ctx : XdpContext) (ipHdrLen tcpHdrLen : Nat) (mssIdx : UInt8)
    (cookie originalSeq : UInt32) :
    (synackBody ctx ipHdrLen tcpHdrLen mssIdx cookie originalSeq).len = ctx.len := by
  unfold synackBody
  dsimp only
  split <;> rfl

/-- Data offset and flags of the answer, in the order in which they are stored. -/
theorem doffFlags_synackBody (ctx : XdpContext) (ipHdrLen tcpHdrLen : Nat) (mssIdx : UInt8)
    (cookie originalSeq : UInt32) :
    TcpHdr.doffFlags (synackBody ctx ipHdrLen tcpHdrLen mssIdx cookie originalSeq)
        (ETH_HDR_LEN + ipHdrLen) =
      (UInt16.ofNat (synackHdrLen tcpHdrLen / 4) <<< 12) |||
        (TCP_FLAG_SYN ||| TCP_FLAG_ACK).toUInt16 := by
  unfold synackBody TcpHdr.doffFlags
  dsimp only
  split
  · simp (disch := omega) [writeMss, rewriteSynack]
  · simp (disch := omega) [rewriteSynack]

/-- Stored without `to_be`, the field is read back with the flags of its upper byte. -/
theorem flags_ne_of_doffFlags {tcp : Nat}
    (hfield : TcpHdr.doffFlags ctx tcp =
      (UInt16.ofNat (synackHdrLen tcpHdrLen / 4) <<< 12) |||
        (TCP_FLAG_SYN ||| TCP_FLAG_ACK).toUInt16) :
    TcpHdr.flags ctx tcp ≠ TCP_FLAG_SYN ||| TCP_FLAG_ACK := by
  unfold TcpHdr.flags
  rw [hfield]
  rcases synackHdrLen_cases tcpHdrLen with hlen | hlen <;> rw [hlen] <;> decide

/-- The frame that is sent has the data offset and flags of the answer. -/
theorem doffFlags_sendSynack
    (hsent : sendSynack h ctx pc tcpHdrLen mssIdx cookie originalSeq = (true, ctx')) :
    TcpHdr.doffFlags ctx' (ETH_HDR_LEN + pc.ipHdrLen) =
      (UInt16.ofNat (synackHdrLen tcpHdrLen / 4) <<< 12) |||
        (TCP_FLAG_SYN ||| TCP_FLAG_ACK).toUInt16 := by
  obtain ⟨cut, _, _, hsum⟩ := sendSynack_cases hsent
  obtain ⟨mid, rfl, rfl⟩ := computeChecksums_cases hsum
  rw [← doffFlags_synackBody cut pc.ipHdrLen tcpHdrLen mssIdx cookie originalSeq]
  unfold TcpHdr.doffFlags
  rw [u16_setU16_of_disjoint (by omega), u16_setU16_of_disjoint (by omega)]

/-! ## The other fields -/

/-- The answer before its checksums are written: the MAC addresses. -/
theorem macs_synackBody {cut : XdpContext} (hmem : cut.mem = ctx.mem) (tcpHdrLen : Nat)
    (mssIdx : UInt8) (cookie originalSeq : UInt32) {i : Nat} (hi : i < 6) :
    (synackBody cut 20 tcpHdrLen mssIdx cookie originalSeq).u8 (0 + i) = ctx.u8 (6 + i) ∧
      (synackBody cut 20 tcpHdrLen mssIdx cookie originalSeq).u8 (6 + i) = ctx.u8 (0 + i) := by
  obtain ⟨mem, len⟩ := cut
  cases hmem
  rcases synackHdrLen_cases tcpHdrLen with hlen | hlen
  all_goals
    simp (disch := omega) only [synackBody, hlen, rewriteSynack, writeMss, ETH_HDR_LEN, EthHdr.src,
      EthHdr.dst, reduceIte, Nat.reduceEqDiff, u8_setU8_of_ne, u8_setU16_of_disjoint,
      u8_setU32_of_disjoint, u8_swap_of_disjoint]
    exact ⟨mem_swap_right hi (by omega), mem_swap_left hi⟩

/-- The answer before its checksums are written: the fields of its headers. -/
theorem fields_synackBody {cut : XdpContext} (hmem : cut.mem = ctx.mem) (tcpHdrLen : Nat)
    (mssIdx : UInt8) (cookie originalSeq : UInt32) :
    let body := synackBody cut 20 tcpHdrLen mssIdx cookie originalSeq
    body.u16 16 = bswap16 (UInt16.ofNat (20 + synackHdrLen tcpHdrLen)) ∧
      body.u32 26 = ctx.u32 30 ∧ body.u32 30 = ctx.u32 26 ∧
      body.u16 34 = ctx.u16 36 ∧ body.u16 36 = ctx.u16 34 ∧
      body.u32 38 = bswap32 cookie ∧ body.u32 42 = bswap32 (originalSeq + 1) ∧
      body.u16 24 = 0 ∧ body.u16 50 = 0 := by
  obtain ⟨mem, len⟩ := cut
  cases hmem
  rcases synackHdrLen_cases tcpHdrLen with hlen | hlen
  all_goals
    simp only [synackBody, hlen, rewriteSynack, writeMss, ETH_HDR_LEN, EthHdr.src, EthHdr.dst]
    refine ⟨?_, ?_, ?_, ?_, ?_, ?_, ?_, ?_, ?_⟩
    all_goals simp (disch := omega)
    all_goals rfl

/-- A frame that is sent behind a 20-byte IP header answers the SYN in all fields but data offset
and flags. -/
theorem sendSynack_answersSyn (hihl : pc.ipHdrLen = 20)
    (hsent : sendSynack h ctx pc tcpHdrLen mssIdx cookie (bswap32 (TcpHdr.seq ctx 34)) = (true, ctx')) :
    AnswersSyn ctx ctx' pc.ipHdrLen (synackHdrLen tcpHdrLen) cookie := by
  obtain ⟨cut, hmem, hlen, hsum⟩ := sendSynack_cases hsent
  have hmacs := fun i (hi : i < 6) =>
    macs_synackBody hmem tcpHdrLen mssIdx cookie (bswap32 (TcpHdr.seq ctx 34)) hi
  obtain ⟨htot, hsaddr, hdaddr, hsource, hdest, hseq, hack, hipZero, htcpZero⟩ :=
    fields_synackBody hmem tcpHdrLen mssIdx cookie (bswap32 (TcpHdr.seq ctx 34))
  have hbody := len_synackBody cut 20 tcpHdrLen mssIdx cookie (bswap32 (TcpHdr.seq ctx 34))
  rw [hihl] at hlen hsum ⊢
  simp only [ETH_HDR_LEN, Nat.reduceAdd] at hlen hsum ⊢
  generalize synackBody cut 20 tcpHdrLen mssIdx cookie (bswap32 (TcpHdr.seq ctx 34)) = body at *
  obtain ⟨mid, hmid, hfinal⟩ := computeChecksums_cases hsum
  have hmid' : SameOutside body mid 24 2 := hmid ▸ sameOutside_setU16 _ _ _
  have hfinal' : SameOutside mid ctx' 50 2 := hfinal ▸ sameOutside_setU16 _ _ _
  exact
    { totLen := by
        change (bswap16 (ctx'.u16 16)).toNat = _
        rw [hfinal'.u16 (by omega), hmid'.u16 (by omega), htot, bswap16_bswap16]
        rcases synackHdrLen_cases tcpHdrLen with h | h <;> rw [h] <;> rfl
      fits := by
        rw [hfinal, len_setU16, hmid, len_setU16, hbody]
        exact hlen
      macs := fun i hi => by
        change ctx'.u8 (0 + i) = ctx.u8 (6 + i) ∧ ctx'.u8 (6 + i) = ctx.u8 (0 + i)
        rw [hfinal'.u8 (by omega), hmid'.u8 (by omega), hfinal'.u8 (by omega), hmid'.u8 (by omega)]
        exact hmacs i hi
      saddr := by
        change ctx'.u32 26 = ctx.u32 30
        rw [hfinal'.u32 (by omega), hmid'.u32 (by omega), hsaddr]
      daddr := by
        change ctx'.u32 30 = ctx.u32 26
        rw [hfinal'.u32 (by omega), hmid'.u32 (by omega), hdaddr]
      source := by
        change ctx'.u16 34 = ctx.u16 36
        rw [hfinal'.u16 (by omega), hmid'.u16 (by omega), hsource]
      dest := by
        change ctx'.u16 36 = ctx.u16 34
        rw [hfinal'.u16 (by omega), hmid'.u16 (by omega), hdest]
      seq := by
        change bswap32 (ctx'.u32 38) = cookie
        rw [hfinal'.u32 (by omega), hmid'.u32 (by omega), hseq, bswap32_bswap32]
      ackSeq := by
        change bswap32 (ctx'.u32 42) = _
        rw [hfinal'.u32 (by omega), hmid'.u32 (by omega), hack, bswap32_bswap32]
        rfl
      ipCheck := by
        change CsumVerifies (ctx'.words 14 20) 0
        rw [hfinal'.words (by omega), hmid]
        have hcheck := csumVerifies_setU16 [] (p := 14) (n := 20) (j := 5) hipZero rfl
          (by decide)
        rwa [List.nil_append, List.nil_append] at hcheck
      tcpCheck := by
        have hpseudo : pseudoHeader ctx' 14 (synackHdrLen tcpHdrLen) =
            [IpHdr.saddr mid 14, IpHdr.daddr mid 14,
              ((6 : UInt32) <<< 8) ||| (UInt32.ofNat (synackHdrLen tcpHdrLen) <<< 24)] := by
          unfold pseudoHeader IpHdr.saddr IpHdr.daddr
          rw [hfinal'.u32 (by omega), hfinal'.u32 (by omega)]
          rcases synackHdrLen_cases tcpHdrLen with h | h <;> rw [h] <;> rfl
        have hzero : mid.u16 50 = 0 := (hmid'.u16 (by omega)).trans htcpZero
        change CsumVerifies (pseudoHeader ctx' 14 _ ++ ctx'.words 34 _) 0
        rw [hpseudo, hfinal]
        refine csumVerifies_setU16 _ (j := 8) hzero rfl ?_
        rcases synackHdrLen_cases tcpHdrLen with h | h <;> rw [h] <;> decide }

/-! ## The challenge -/

/-- The MSS index of a challenge. -/
def challengeMssIdx (ctx : XdpContext) (pc : PacketCtxRef) (tcpHdrLen : Nat) : UInt8 :=
  ((parseMss ctx (ETH_HDR_LEN + pc.ipHdrLen) tcpHdrLen).map mssToIdx).getD 0

/-- The cookie of a challenge. -/
def challengeCookie (ctx : XdpContext) (m : Maps) (pc : PacketCtxRef) (ip tcp tcpHdrLen : Nat) :
    UInt32 :=
  cookieFor (IpHdr.saddr ctx ip) (IpHdr.daddr ctx ip) (bswap16 (TcpHdr.source ctx tcp))
    (bswap16 (TcpHdr.dest ctx tcp)) (bucketOf pc.nowNs)
    (challengeSecret m.cookieSecrets (bucketOf pc.nowNs)) (challengeMssIdx ctx pc tcpHdrLen)

theorem mssToIdx_lt (mss : UInt16) : mssToIdx mss < 4 := by
  unfold mssToIdx
  split
  · decide
  · split <;> decide

/-- The upper two bits of a cookie are its MSS index. -/
theorem mssIdx_of_buildCookieWords (saddr daddr : UInt32) (sport dport : UInt16) (bucket : UInt32)
    {mssIdx : UInt8} (hmss : mssIdx < 4) (words : List UInt32) :
    (buildCookieWords saddr daddr sport dport bucket mssIdx words >>> 30).toUInt8 = mssIdx := by
  unfold buildCookieWords
  dsimp only
  generalize List.foldl mix _ words = h
  have hmss' : mssIdx.toNat < 4 := UInt8.lt_iff_toNat_lt.1 hmss
  apply UInt8.toNat_inj.1
  have hlow : (h &&& 0x3fffffff).toNat < 2 ^ 30 := by
    rw [UInt32.toNat_and]
    exact Nat.and_lt_two_pow _ (by decide)
  simp only [UInt32.toNat_toUInt8, UInt32.toNat_shiftRight, UInt32.toNat_or,
    UInt32.toNat_shiftLeft, UInt8.toNat_toUInt32]
  generalize (h &&& 0x3fffffff).toNat = low at hlow
  have hshift : mssIdx.toNat <<< (30 % 32) % 2 ^ 32 = 2 ^ 30 * mssIdx.toNat := by
    rw [Nat.shiftLeft_eq, show 2 ^ (30 % 32) = 1073741824 from rfl]
    omega
  rw [show (30 : UInt32).toNat % 32 = 30 % 32 from rfl, hshift,
    ← Nat.two_pow_add_eq_or_of_lt hlow, Nat.shiftRight_eq_div_pow,
    show 2 ^ (30 % 32) = 1073741824 from rfl]
  omega

theorem challengeMssIdx_lt (ctx : XdpContext) (pc : PacketCtxRef) (tcpHdrLen : Nat) :
    challengeMssIdx ctx pc tcpHdrLen < 4 := by
  unfold challengeMssIdx
  cases parseMss ctx (ETH_HDR_LEN + pc.ipHdrLen) tcpHdrLen with
  | none => exact (by decide : (0 : UInt8) < 4)
  | some mss => exact mssToIdx_lt mss

theorem synChallenge_tx (hsent : (synChallenge h ctx m pc ip tcp tcpHdrLen).1 = some .tx) :
    sendSynack h ctx pc tcpHdrLen (challengeMssIdx ctx pc tcpHdrLen)
        (challengeCookie ctx m pc ip tcp tcpHdrLen) (bswap32 (TcpHdr.seq ctx tcp)) =
      (true, (synChallenge h ctx m pc ip tcp tcpHdrLen).2) := by
  unfold synChallenge at hsent ⊢
  rw [← challengeMssIdx] at hsent ⊢
  dsimp only at hsent ⊢
  rw [← challengeCookie] at hsent ⊢
  split at hsent
  · cases hsent
  · rename_i hin
    rw [if_neg hin]
    split at hsent
    · rename_i hsend
      rw [hsend]
    · cases hsent

/-- A rate counter update leaves the cookie secrets alone. -/
theorem updateRateCounter_cookieSecrets (m : Maps) (src : IpKey) (nowNs : UInt64) :
    (updateRateCounter m src nowNs).2.cookieSecrets = m.cookieSecrets := by
  unfold updateRateCounter
  dsimp only
  split <;> rfl

theorem isChallengedOrTrigger_cookieSecrets (m : Maps) (saddr : UInt32) (nowNs : UInt64) :
    (isChallengedOrTrigger m saddr nowNs).2.cookieSecrets = m.cookieSecrets := by
  have htrigger : ∀ m' : Maps, m'.cookieSecrets = m.cookieSecrets →
      (isChallengedOrTrigger.trigger nowNs (srcKey saddr) m').2.cookieSecrets = m.cookieSecrets := by
    intro m' hm'
    have hcount := updateRateCounter_cookieSecrets m' (srcKey saddr) nowNs
    unfold isChallengedOrTrigger.trigger
    split
    · rename_i hupdate
      rw [hupdate] at hcount
      split <;> exact hcount.trans hm'
    · rename_i hupdate
      rw [hupdate] at hcount
      exact hcount.trans hm'
  unfold isChallengedOrTrigger
  dsimp only
  split
  · split
    · rfl
    · exact htrigger _ rfl
  · exact htrigger _ rfl

/-- A SYN that is answered has a 20-byte IP header, and the answer is a challenge. -/
theorem handleSyn_tx (hsent : (handleSyn h ctx m pc ip tcp).1 = some .tx) :
    pc.ipHdrLen = 20 ∧ ∃ m' : Maps, m'.cookieSecrets = m.cookieSecrets ∧
      (synChallenge h ctx m' pc ip tcp (TcpHdr.hdrLen ctx tcp)).1 = some .tx ∧
      (handleSyn h ctx m pc ip tcp).2.1 =
        (synChallenge h ctx m' pc ip tcp (TcpHdr.hdrLen ctx tcp)).2 := by
  have hsecrets := isChallengedOrTrigger_cookieSecrets m (IpHdr.saddr ctx ip) pc.nowNs
  unfold handleSyn at hsent ⊢
  split at hsent
  · cases hsent
  rename_i hsyn
  rw [if_neg hsyn]
  split at hsent
  · cases hsent
  rename_i m' htrigger
  rw [htrigger] at hsecrets
  dsimp only at hsent ⊢
  split at hsent
  · cases hsent
  rename_i hihl
  rw [if_neg hihl]
  split at hsent
  · cases hsent
  rename_i hhdr
  rw [if_neg hhdr]
  split at hsent
  · cases hsent
  rename_i htot
  rw [if_neg htot]
  exact ⟨not_not.1 hihl, m', hsecrets, hsent, rfl⟩

/-- The frame that answers a SYN, in all fields but data offset and flags. -/
theorem handleSyn_answersSyn
    (hsent : (handleSyn h ctx m pc ETH_HDR_LEN (ETH_HDR_LEN + pc.ipHdrLen)).1 = some .tx) :
    AnswersSyn ctx (handleSyn h ctx m pc ETH_HDR_LEN (ETH_HDR_LEN + pc.ipHdrLen)).2.1 pc.ipHdrLen
      (synackHdrLen (TcpHdr.hdrLen ctx (ETH_HDR_LEN + pc.ipHdrLen)))
      (challengeCookie ctx m pc ETH_HDR_LEN (ETH_HDR_LEN + pc.ipHdrLen)
        (TcpHdr.hdrLen ctx (ETH_HDR_LEN + pc.ipHdrLen))) := by
  obtain ⟨hihl, m', hsecrets, hchallenge, hframe⟩ := handleSyn_tx hsent
  rw [hframe]
  have hcookie : challengeCookie ctx m pc ETH_HDR_LEN (ETH_HDR_LEN + pc.ipHdrLen)
        (TcpHdr.hdrLen ctx (ETH_HDR_LEN + pc.ipHdrLen)) =
      challengeCookie ctx m' pc ETH_HDR_LEN (ETH_HDR_LEN + pc.ipHdrLen)
        (TcpHdr.hdrLen ctx (ETH_HDR_LEN + pc.ipHdrLen)) := by
    unfold challengeCookie
    rw [hsecrets]
  rw [hcookie]
  have hsend := synChallenge_tx hchallenge
  have htcp : ETH_HDR_LEN + pc.ipHdrLen = 34 := by rw [hihl]; rfl
  rw [htcp] at hsend ⊢
  exact sendSynack_answersSyn hihl hsend

/-- No frame that the challenge sends is a well-formed SYN-ACK: read back in network order, its
flags are not SYN and ACK. -/
theorem synChallenge_not_wellFormed (h : Helpers) (ctx : XdpContext) (m : Maps) (pc : PacketCtxRef)
    (ip tcp tcpHdrLen : Nat) (hsent : (synChallenge h ctx m pc ip tcp tcpHdrLen).1 = some .tx)
    (newTcpHdrLen : Nat) (cookie : UInt32) :
    ¬ WellFormedSynack ctx (synChallenge h ctx m pc ip tcp tcpHdrLen).2 pc.ipHdrLen newTcpHdrLen
      cookie :=
  fun hwf => flags_ne_of_doffFlags (doffFlags_sendSynack (synChallenge_tx hsent)) hwf.flags

/-- A SYN without options from 192.0.2.1 port 40000 to 198.51.100.2 port 443. -/
def sampleSyn : XdpContext :=
  ofBytes
    [2, 0, 0, 0, 0, 2, 2, 0, 0, 0, 0, 1, 8, 0,
      0x45, 0, 0, 40, 0, 1, 0, 0, 64, 6, 0, 0, 192, 0, 2, 1, 198, 51, 100, 2,
      0x9c, 0x40, 1, 0xbb, 0, 0, 0x12, 0x34, 0, 0, 0, 0, 0x50, 2, 0xff, 0xff, 0, 0, 0, 0]

theorem synChallenge_not_wellFormed_sample :
    (synChallenge {} sampleSyn {} ⟨20, 0⟩ 14 34 20).1 = some .tx ∧
      ¬ WellFormedSynack sampleSyn (synChallenge {} sampleSyn {} ⟨20, 0⟩ 14 34 20).2 20 20
        (challengeCookie sampleSyn {} ⟨20, 0⟩ 14 34 20) :=
  have hsent : (synChallenge {} sampleSyn {} ⟨20, 0⟩ 14 34 20).1 = some .tx := by decide
  ⟨hsent, synChallenge_not_wellFormed {} sampleSyn {} ⟨20, 0⟩ 14 34 20 hsent 20 _⟩

/-- The challenge of that SYN goes out with the flags read back as ACK alone and a data offset of 1. -/
theorem synChallenge_sends_bare_ack :
    (synChallenge {} sampleSyn {} ⟨20, 0⟩ 14 34 20).1 = some .tx ∧
      TcpHdr.flags (synChallenge {} sampleSyn {} ⟨20, 0⟩ 14 34 20).2 34 = TCP_FLAG_ACK ∧
      TcpHdr.hdrLen (synChallenge {} sampleSyn {} ⟨20, 0⟩ 14 34 20).2 34 = 4 ∧
      ¬ WellFormedSynack sampleSyn (synChallenge {} sampleSyn {} ⟨20, 0⟩ 14 34 20).2 20 20
        (challengeCookie sampleSyn {} ⟨20, 0⟩ 14 34 20) := by
  have hflags : TcpHdr.flags (synChallenge {} sampleSyn {} ⟨20, 0⟩ 14 34 20).2 34 = TCP_FLAG_ACK := by
    decide
  refine ⟨by decide, hflags, by decide, fun hwf => ?_⟩
  have hread := hwf.flags
  rw [show ETH_HDR_LEN + 20 = 34 from rfl, hflags] at hread
  exact absurd hread (by decide)

end EShield.Ebpf
