import EShield.Ebpf.Proofs.OutcomeProofs
import EShield.Ebpf.Proofs.SynCookieProofs

/-!
# Reset replies

A dropped packet that is answered is rewritten in place behind its own IP header, whose version,
fragment offset and flags stay as they came. So the answer is a reset of a real segment exactly if
the packet was a whole one.
-/

namespace EShield.Ebpf

open XdpContext

variable {h : Helpers} {ctx frame : XdpContext} {m : Maps} {s t u : PacketState}

/-! ## What is asked -/

/-- The frame is an IPv4 packet, its header 20 bytes long, that carries its TCP header: no later
fragment, and not ended before the header is. -/
structure CarriesTcp (ctx : XdpContext) : Prop where
  etherType : EthHdr.proto ctx 0 = ETH_P_IP
  verIhl : IpHdr.verIhl ctx ETH_HDR_LEN = 0x45
  protocol : IpHdr.proto ctx ETH_HDR_LEN = IPPROTO_TCP
  offset : bswap16 (IpHdr.fragOff ctx ETH_HDR_LEN) &&& 0x1fff = 0
  covered : 40 ≤ (bswap16 (IpHdr.totLen ctx ETH_HDR_LEN)).toNat
  fits : ETH_HDR_LEN + 40 ≤ ctx.len

/-- The frame is a well-formed reset that answers the segment. -/
structure AnswersSegment (segment frame : XdpContext) : Prop where
  len : frame.len = ETH_HDR_LEN + 40
  parses : ∃ pc, parse frame = some pc ∧ pc.fragment = false ∧ pc.protocol = IPPROTO_TCP ∧
    pc.ipHdrLen = IP_HDR_LEN
  verIhl : IpHdr.verIhl frame ETH_HDR_LEN = 0x45
  whole : bswap16 (IpHdr.fragOff frame ETH_HDR_LEN) &&& 0x3fff = 0
  totLen : bswap16 (IpHdr.totLen frame ETH_HDR_LEN) = 40
  macs : ∀ i < 6, frame.u8 (EthHdr.dst 0 + i) = segment.u8 (EthHdr.src 0 + i) ∧
    frame.u8 (EthHdr.src 0 + i) = segment.u8 (EthHdr.dst 0 + i)
  saddr : IpHdr.saddr frame ETH_HDR_LEN = IpHdr.daddr segment ETH_HDR_LEN
  daddr : IpHdr.daddr frame ETH_HDR_LEN = IpHdr.saddr segment ETH_HDR_LEN
  source : TcpHdr.source frame 34 = TcpHdr.dest segment 34
  dest : TcpHdr.dest frame 34 = TcpHdr.source segment 34
  dataOffset : TcpHdr.doff frame 34 = 5
  flags : bswap16 (TcpHdr.doffFlags frame 34) &&& 0x0fff = (TCP_FLAG_RST ||| TCP_FLAG_ACK).toUInt16
  seq : TcpHdr.seq frame 34 = 0
  ackSeq : bswap32 (TcpHdr.ackSeq frame 34) = bswap32 (TcpHdr.seq segment 34) + 1
  ipCheck : CsumVerifies (frame.words ETH_HDR_LEN IP_HDR_LEN) 0
  tcpCheck : CsumVerifies
    (pseudoHeader frame ETH_HDR_LEN TCP_HDR_LEN ++ frame.words 34 TCP_HDR_LEN) 0

/-- Version 4, neither a fragment nor followed by one, and long enough for both headers. -/
def WholePacket (ctx : XdpContext) : Prop :=
  IpHdr.verIhl ctx ETH_HDR_LEN >>> 4 = 4 ∧
    bswap16 (IpHdr.fragOff ctx ETH_HDR_LEN) &&& 0x3fff = 0 ∧
    40 ≤ (bswap16 (IpHdr.totLen ctx ETH_HDR_LEN)).toNat

/-! ## What is built -/

/-- A reset that is sent: the packet, its end moved, is rewritten and gets its checksums, each over
the frame as it is then. -/
theorem buildRst_cases (hsent : buildRst h ctx = (true, frame)) :
    ∃ cut mid, bpfXdpAdjustTail h ctx ((ETH_HDR_LEN + 40 : Nat) - ctx.len) = some cut ∧
      IpHdr.proto cut ETH_HDR_LEN = IPPROTO_TCP ∧
      mid = (rewriteRst cut 0 14 34).setU16 24
        (finalizeCsum (((rewriteRst cut 0 14 34).words 14 20).foldl csumAdd 0)) ∧
      frame = mid.setU16 50
        (finalizeCsum
          (([IpHdr.saddr mid 14, IpHdr.daddr mid 14,
              ((6 : UInt32) <<< 8) ||| (UInt32.ofNat 20 <<< 24)] ++
            mid.words 34 20).foldl csumAdd 0)) := by
  unfold buildRst at hsent
  dsimp only at hsent
  split at hsent
  · cases hsent
  rename_i cut hcut
  split at hsent
  case h_2 => cases hsent
  rename_i eth ip tcp heth hip htcp
  obtain ⟨_, rfl⟩ := ptrAt_eq_some_iff.1 heth
  obtain ⟨_, rfl⟩ := ptrAt_eq_some_iff.1 hip
  obtain ⟨_, rfl⟩ := ptrAt_eq_some_iff.1 htcp
  split at hsent
  · cases hsent
  rename_i hproto
  split at hsent
  · cases hsent
  rename_i ipSum hipSum
  split at hsent
  · cases hsent
  rename_i tcpSum htcpSum
  cases hsent
  rw [pseudoSum_eq, Option.bind_some] at htcpSum
  unfold csum at hipSum htcpSum
  split at hipSum
  · cases hipSum
  split at htcpSum
  · cases htcpSum
  obtain ⟨-, rfl⟩ := bpfCsumDiff_eq_some.1 hipSum
  obtain ⟨-, rfl⟩ := bpfCsumDiff_eq_some.1 htcpSum
  exact ⟨cut, _, hcut, not_not.1 hproto, rfl, by rw [List.foldl_append]; rfl⟩

/-- The frame after its end has been moved. -/
theorem len_adjustTail {delta : Int} {cut : XdpContext}
    (hcut : bpfXdpAdjustTail h ctx delta = some cut) : (cut.len : Int) = ctx.len + delta := by
  unfold bpfXdpAdjustTail at hcut
  dsimp only at hcut
  split at hcut
  · cases hcut
  · cases hcut
    dsimp only
    omega

/-- The fields that are rewritten, and those that stay, checksums still zero. -/
theorem fields_rewriteRst (cut : XdpContext) :
    let body := rewriteRst cut 0 14 34
    (body.u16 16 = bswap16 40 ∧ body.u32 26 = cut.u32 30 ∧ body.u32 30 = cut.u32 26 ∧
        body.u16 34 = cut.u16 36 ∧ body.u16 36 = cut.u16 34 ∧ body.u32 38 = 0 ∧
        body.u32 42 = bswap32 (bswap32 (cut.u32 38) + 1) ∧ body.u16 46 = bswap16 0x5014 ∧
        body.u16 24 = 0 ∧ body.u16 50 = 0) ∧
      body.u16 12 = cut.u16 12 ∧ body.u8 14 = cut.u8 14 ∧ body.u16 20 = cut.u16 20 ∧
      body.u8 23 = cut.u8 23 := by
  simp only [rewriteRst, EthHdr.src, EthHdr.dst, TcpHdr.seq]
  refine ⟨⟨?_, ?_, ?_, ?_, ?_, ?_, ?_, ?_, ?_, ?_⟩, ?_, ?_, ?_, ?_⟩
  all_goals simp (disch := omega)
  all_goals rfl

theorem macs_rewriteRst (cut : XdpContext) {i : Nat} (hi : i < 6) :
    (rewriteRst cut 0 14 34).u8 (0 + i) = cut.u8 (6 + i) ∧
      (rewriteRst cut 0 14 34).u8 (6 + i) = cut.u8 (0 + i) := by
  simp (disch := omega) only [rewriteRst, EthHdr.src, EthHdr.dst, u8_setU16_of_disjoint,
    u8_setU32_of_disjoint, u8_swap_of_disjoint]
  exact ⟨mem_swap_right hi (by omega), mem_swap_left hi⟩

/-! ## Fragments -/

/-- Neither the offset nor the flag for more fragments is set. -/
theorem and_offset_of_whole {v : UInt16} (hwhole : v &&& 0x3fff = 0) : v &&& 0x1fff = 0 := by
  have hmask : v &&& 0x1fff = (v &&& 0x3fff) &&& 0x1fff := by
    rw [UInt16.and_assoc]
    rfl
  rw [hmask, hwhole]
  rfl

theorem isFragment_eq_false {ip : Nat} :
    isFragment ctx ip = false ↔ bswap16 (IpHdr.fragOff ctx ip) &&& 0x1fff = 0 := by
  rw [isFragment, bne_eq_false_iff_eq]

/-- The program reads a frame with the headers of an IPv4 TCP packet as one. -/
theorem parse_tcp (hlen : 54 ≤ ctx.len) (htype : EthHdr.proto ctx 0 = ETH_P_IP)
    (hihl : IpHdr.hdrLen ctx ETH_HDR_LEN = IP_HDR_LEN)
    (hproto : IpHdr.proto ctx ETH_HDR_LEN = IPPROTO_TCP)
    (hfrag : isFragment ctx ETH_HDR_LEN = false) :
    ∃ pc, parse ctx = some pc ∧ pc.fragment = false ∧ pc.protocol = IPPROTO_TCP ∧
      pc.ipHdrLen = IP_HDR_LEN := by
  have heth : ctx.ptrAt ETH_HDR_LEN 0 = some 0 := ptrAt_of_le (le_trans (by decide) hlen)
  have hip : ctx.ptrAt IP_HDR_LEN ETH_HDR_LEN = some ETH_HDR_LEN :=
    ptrAt_of_le (le_trans (by decide) hlen)
  have htcp : ctx.ptrAt TCP_HDR_LEN (ETH_HDR_LEN + IP_HDR_LEN) = some (ETH_HDR_LEN + IP_HDR_LEN) :=
    ptrAt_of_le hlen
  rw [parse, heth, Option.bind_some, if_pos htype, parseIpv4, hip, Option.bind_some]
  dsimp only
  rw [hihl, if_neg (by decide), hfrag, if_neg (by decide), hproto, readPorts, if_pos rfl, htcp]
  exact ⟨_, rfl, rfl, rfl, rfl⟩

/-- A packet that is read with a header of 20 bytes is an IPv4 packet, and one of TCP that is no later
fragment has its TCP header in the frame. -/
theorem fits_of_parse {pc : PacketCtx} (hparse : parse ctx = some pc)
    (hihl : pc.ipHdrLen = IP_HDR_LEN) (hproto : pc.protocol = IPPROTO_TCP) :
    EthHdr.proto ctx 0 = ETH_P_IP ∧ IpHdr.hdrLen ctx ETH_HDR_LEN = IP_HDR_LEN ∧
      IpHdr.proto ctx ETH_HDR_LEN = IPPROTO_TCP ∧
      (isFragment ctx ETH_HDR_LEN = false → ETH_HDR_LEN + 40 ≤ ctx.len) := by
  rcases parse_cases hparse with ⟨htype, hlen, -, hprotocol, hhdr⟩ | ⟨-, -, -, -, hv6, -⟩
  · refine ⟨htype, hhdr.symm.trans hihl, hprotocol.symm.trans hproto, fun hfrag => ?_⟩
    have heth : ctx.ptrAt ETH_HDR_LEN 0 = some 0 := ptrAt_of_le (le_trans (by decide) hlen)
    have hip : ctx.ptrAt IP_HDR_LEN ETH_HDR_LEN = some ETH_HDR_LEN := ptrAt_of_le hlen
    rw [parse, heth, Option.bind_some, if_pos htype, parseIpv4, hip, Option.bind_some] at hparse
    dsimp only at hparse
    rw [← hhdr, ← hprotocol, hihl, hproto, if_neg (by decide), hfrag, if_neg (by decide), readPorts,
      if_pos rfl] at hparse
    cases htcp : ctx.ptrAt TCP_HDR_LEN (ETH_HDR_LEN + IP_HDR_LEN) with
    | none =>
      rw [htcp] at hparse
      cases hparse
    | some tcp => exact (ptrAt_eq_some_iff.1 htcp).1
  · rw [hihl] at hv6
    exact absurd hv6 (by decide)

/-! ## The reply -/

/-- A whole packet is answered by a well-formed reset. -/
theorem answersSegment_of_whole (hsent : buildRst h ctx = (true, frame)) (hfits : 54 ≤ ctx.len)
    (htype : EthHdr.proto ctx 0 = ETH_P_IP) (hihl : IpHdr.verIhl ctx ETH_HDR_LEN = 0x45)
    (hwhole : bswap16 (IpHdr.fragOff ctx ETH_HDR_LEN) &&& 0x3fff = 0) :
    AnswersSegment ctx frame := by
  obtain ⟨cut, mid, hcut, hproto, hmid, hframe⟩ := buildRst_cases hsent
  have hlen : cut.len = 54 := by
    have hmoved := len_adjustTail hcut
    simp only [ETH_HDR_LEN] at hmoved
    omega
  have hmem : cut.mem = ctx.mem := bpfXdpAdjustTail_shrink (by simp only [ETH_HDR_LEN]; omega) hcut
  obtain ⟨⟨htot, hsaddr, hdaddr, hsource, hdest, hseq, hack, hdoff, hipZero, htcpZero⟩, htype', hihl',
    hfrag', hproto'⟩ := fields_rewriteRst cut
  have hmacs := fun i (hi : i < 6) => macs_rewriteRst cut hi
  have hbody : (rewriteRst cut 0 14 34).len = cut.len := rfl
  generalize rewriteRst cut 0 14 34 = body at *
  have hmid' : SameOutside body mid 24 2 := hmid ▸ sameOutside_setU16 _ _ _
  have hframe' : SameOutside mid frame 50 2 := hframe ▸ sameOutside_setU16 _ _ _
  obtain ⟨mem, cutLen⟩ := cut
  cases hmem
  have hflen : frame.len = 54 := by
    rw [hframe, len_setU16, hmid, len_setU16, hbody]
    exact hlen
  have hftype : EthHdr.proto frame 0 = ETH_P_IP := by
    change frame.u16 12 = _
    rw [hframe'.u16 (by omega), hmid'.u16 (by omega), htype']
    exact htype
  have hfihl : IpHdr.verIhl frame ETH_HDR_LEN = 0x45 := by
    change frame.u8 14 = _
    rw [hframe'.u8 (by omega), hmid'.u8 (by omega), hihl']
    exact hihl
  have hfproto : IpHdr.proto frame ETH_HDR_LEN = IPPROTO_TCP := by
    change frame.u8 23 = _
    rw [hframe'.u8 (by omega), hmid'.u8 (by omega), hproto']
    exact hproto
  have hffrag : bswap16 (IpHdr.fragOff frame ETH_HDR_LEN) &&& 0x3fff = 0 := by
    change bswap16 (frame.u16 20) &&& 0x3fff = 0
    rw [hframe'.u16 (by omega), hmid'.u16 (by omega), hfrag']
    exact hwhole
  have hfdoff : bswap16 (TcpHdr.doffFlags frame 34) = 0x5014 := by
    change bswap16 (frame.u16 46) = _
    rw [hframe'.u16 (by omega), hmid'.u16 (by omega), hdoff, bswap16_bswap16]
  exact
    { len := hflen
      parses := parse_tcp hflen.ge hftype (by rw [IpHdr.hdrLen, hfihl]; rfl) hfproto
        (isFragment_eq_false.2 (and_offset_of_whole hffrag))
      verIhl := hfihl
      whole := hffrag
      totLen := by
        change bswap16 (frame.u16 16) = _
        rw [hframe'.u16 (by omega), hmid'.u16 (by omega), htot, bswap16_bswap16]
      macs := fun i hi => by
        change frame.u8 (0 + i) = ctx.u8 (6 + i) ∧ frame.u8 (6 + i) = ctx.u8 (0 + i)
        rw [hframe'.u8 (by omega), hmid'.u8 (by omega), hframe'.u8 (by omega), hmid'.u8 (by omega)]
        exact hmacs i hi
      saddr := by
        change frame.u32 26 = ctx.u32 30
        rw [hframe'.u32 (by omega), hmid'.u32 (by omega), hsaddr]
        rfl
      daddr := by
        change frame.u32 30 = ctx.u32 26
        rw [hframe'.u32 (by omega), hmid'.u32 (by omega), hdaddr]
        rfl
      source := by
        change frame.u16 34 = ctx.u16 36
        rw [hframe'.u16 (by omega), hmid'.u16 (by omega), hsource]
        rfl
      dest := by
        change frame.u16 36 = ctx.u16 34
        rw [hframe'.u16 (by omega), hmid'.u16 (by omega), hdest]
        rfl
      dataOffset := by
        rw [TcpHdr.doff, hfdoff]
        rfl
      flags := by
        rw [hfdoff]
        rfl
      seq := by
        change frame.u32 38 = 0
        rw [hframe'.u32 (by omega), hmid'.u32 (by omega), hseq]
      ackSeq := by
        change bswap32 (frame.u32 42) = _
        rw [hframe'.u32 (by omega), hmid'.u32 (by omega), hack, bswap32_bswap32]
        rfl
      ipCheck := by
        change CsumVerifies (frame.words 14 20) 0
        rw [hframe'.words (by omega), hmid]
        have hcheck := csumVerifies_setU16 [] (p := 14) (n := 20) (j := 5) hipZero rfl (by decide)
        rwa [List.nil_append, List.nil_append] at hcheck
      tcpCheck := by
        have hpseudo : pseudoHeader frame 14 20 =
            [IpHdr.saddr mid 14, IpHdr.daddr mid 14,
              ((6 : UInt32) <<< 8) ||| (UInt32.ofNat 20 <<< 24)] := by
          unfold pseudoHeader IpHdr.saddr IpHdr.daddr
          rw [hframe'.u32 (by omega), hframe'.u32 (by omega)]
          rfl
        have hzero : mid.u16 50 = 0 := (hmid'.u16 (by omega)).trans htcpZero
        change CsumVerifies (pseudoHeader frame 14 20 ++ frame.words 34 20) 0
        rw [hpseudo, hframe]
        exact csumVerifies_setU16 _ (j := 8) hzero rfl (by decide) }

/-- The fragment field of the packet is sent back. -/
theorem fragOff_of_buildRst (hsent : buildRst h ctx = (true, frame)) (hfits : 54 ≤ ctx.len) :
    IpHdr.fragOff frame ETH_HDR_LEN = IpHdr.fragOff ctx ETH_HDR_LEN := by
  obtain ⟨cut, mid, hcut, -, hmid, hframe⟩ := buildRst_cases hsent
  have hmem : cut.mem = ctx.mem := bpfXdpAdjustTail_shrink (by simp only [ETH_HDR_LEN]; omega) hcut
  obtain ⟨-, -, -, hfrag, -⟩ := fields_rewriteRst cut
  change frame.u16 20 = ctx.u16 20
  rw [hframe, u16_setU16_of_disjoint (by omega), hmid, u16_setU16_of_disjoint (by omega), hfrag,
    XdpContext.u16, hmem, XdpContext.u16]

theorem verIhl_of_nibbles {v : UInt8} (hversion : v >>> 4 = 4) (hlen : (v &&& 0x0f).toNat * 4 = 20) :
    v = 0x45 := by
  have hv : v.toNat < 256 := v.toNat_lt
  have hhigh : v.toNat / 16 = 4 := by
    have h := congrArg UInt8.toNat hversion
    rwa [UInt8.toNat_shiftRight, Nat.shiftRight_eq_div_pow] at h
  have hlow : v.toNat % 16 = 5 := by
    rw [UInt8.toNat_and, show (0x0f : UInt8).toNat = 2 ^ 4 - 1 from rfl,
      Nat.and_two_pow_sub_one_eq_mod] at hlen
    omega
  rw [← UInt8.toNat_inj]
  change v.toNat = 69
  omega

/-- A packet that is read as one of TCP behind 20 bytes is answered well exactly if it is whole. -/
theorem buildRst_iff {pc : PacketCtx} (hparse : parse ctx = some pc)
    (hihl : pc.ipHdrLen = IP_HDR_LEN) (hproto : pc.protocol = IPPROTO_TCP)
    (hsent : buildRst h ctx = (true, frame)) :
    CarriesTcp ctx ∧ AnswersSegment ctx frame ↔ WholePacket ctx := by
  obtain ⟨htype, hhdr, hprotocol, hfits⟩ := fits_of_parse hparse hihl hproto
  constructor
  · rintro ⟨hcarries, hans⟩
    refine ⟨by rw [hcarries.verIhl]; rfl, ?_, hcarries.covered⟩
    rw [← fragOff_of_buildRst hsent hcarries.fits]
    exact hans.whole
  · rintro ⟨hversion, hwhole, hcovered⟩
    have hverIhl := verIhl_of_nibbles hversion hhdr
    have hoffset := and_offset_of_whole hwhole
    have hlen := hfits (isFragment_eq_false.2 hoffset)
    exact ⟨⟨htype, hverIhl, hprotocol, hoffset, hcovered, hlen⟩,
      answersSegment_of_whole hsent hlen htype hverIhl hwhole⟩

/-! ## Where packets are refused -/

/-- The packet is the one that came, as far as the reset looks at it. -/
structure OfPacket (s t : PacketState) : Prop where
  ctx : t.ctx = s.ctx
  protocol : t.pc.protocol = s.pc.protocol
  ipHdrLen : t.pc.ipHdrLen = s.pc.ipHdrLen

theorem OfPacket.trans (hst : OfPacket s t) (htu : OfPacket t u) : OfPacket s u :=
  ⟨htu.ctx.trans hst.ctx, htu.protocol.trans hst.protocol, htu.ipHdrLen.trans hst.ipHdrLen⟩

/-- What a stage that sends no cookie answers: nothing, a verdict that sends nothing, or the drop of the
packet that came. -/
inductive Refuses (h : Helpers) (s : PacketState) : Option XdpAction × PacketState → Prop where
  | goesOn (t : PacketState) (hof : OfPacket s t) : Refuses h s (none, t)
  | acted (a : XdpAction) (t : PacketState) (ha : a ≠ .tx) : Refuses h s (some a, t)
  | dropped (t : PacketState) (hof : OfPacket s t) :
    Refuses h s (some (dropPacket h t).1, (dropPacket h t).2)

theorem SamePacket.ofPacket (hsame : SamePacket s t) : OfPacket s t :=
  ⟨hsame.ctx, by rw [hsame.pc], by rw [hsame.pc]⟩

/-- A stage refuses the packets that come to it; for the one of TCP, unless it sends a cookie. -/
theorem refuses_stage {runtime : RuntimeConfig} {i : Nat}
    {f : PacketState → Option XdpAction × PacketState} (hf : (stages h runtime)[i]? = some f)
    (hcookie : i = 6 → answersWithCookie h runtime.synProxyEnabled s = false) :
    Refuses h s (f s) := by
  have hout := outcome_stage hf s
  generalize f s = r at hout
  cases hout with
  | goesOn t hsame => exact .goesOn t hsame.ofPacket
  | passes t hsame => exact .acted .pass t (by decide)
  | dropped t hsame hown => exact .dropped t hsame.ofPacket
  | proxied a t hown ha hsame hframe hip htcp hsyn =>
    refine .acted a t ?_
    rintro rfl
    have hnone := hcookie hown.1
    rw [answersWithCookie, if_pos hown.2, hip, htcp] at hnone
    exact of_decide_eq_false hnone hsyn

/-! ## Runs -/

/-- A run in which every stage refuses the packet it gets and that sends something ends in a drop of the
packet that came. -/
theorem dropPacket_of_runStages {list : List (PacketState → Option XdpAction × PacketState)}
    (hlist : ∀ i f t, list[i]? = some f → runStages h (list.take i) s = (none, t) →
      Refuses h t (f t))
    (htx : runStages h list s = (some .tx, u)) :
    ∃ t, OfPacket s t ∧ (dropPacket h t).1 = .tx ∧
      u = logPacketSample h .tx (dropPacket h t).2 := by
  induction list generalizing s with
  | nil => cases htx
  | cons f list ih =>
    have hf := hlist 0 f s rfl rfl
    rw [runStages] at htx
    generalize hstage : f s = r at hf htx
    cases hf with
    | goesOn t hof =>
      have hrest : ∀ i g v, list[i]? = some g → runStages h (list.take i) t = (none, v) →
          Refuses h v (g v) := by
        intro i g v hg hrun
        refine hlist (i + 1) g v hg ?_
        rw [List.take_succ_cons, runStages, hstage]
        exact hrun
      obtain ⟨v, hv, hdrop, hu⟩ := ih hrest htx
      exact ⟨v, hof.trans hv, hdrop, hu⟩
    | acted a t ha =>
      cases htx
      exact absurd rfl ha
    | dropped t hof =>
      obtain ⟨haction, hu⟩ := Prod.mk.inj htx
      have hdrop : (dropPacket h t).1 = .tx := Option.some.inj haction
      exact ⟨t, hof, hdrop, by rw [← hu, hdrop]⟩

theorem ctx_logPacketSample (h : Helpers) (action : XdpAction) (s : PacketState) :
    (logPacketSample h action s).ctx = s.ctx := by
  simp only [logPacketSample]
  repeat' split
  all_goals rfl

/-- What the program sends, other than a cookie, `drop_packet` has made of the packet that came. -/
theorem dropPacket_of_tryEshield {nowNs : UInt64} (htx : (tryEshield h nowNs ctx m).1 = .tx)
    (hcookie : cookieAnswered h nowNs ctx m = false) :
    ∃ pc t, parse ctx = some pc ∧ OfPacket (enter nowNs ctx m pc) t ∧ (dropPacket h t).1 = .tx ∧
      (tryEshield h nowNs ctx m).2.1 = (dropPacket h t).2.ctx := by
  cases hparse : parse ctx with
  | none =>
    rw [tryEshield, hparse] at htx
    cases htx
  | some pc =>
    rw [cookieAnswered, hparse] at hcookie
    rw [tryEshield_of_parse hparse] at htx ⊢
    split at htx
    · cases htx
    rename_i hlisted
    rw [if_neg hlisted]
    have hstages : ∀ i f t, (stages h m.config)[i]? = some f →
        runStages h ((stages h m.config).take i) (enter nowNs ctx m pc) = (none, t) →
        Refuses h t (f t) := by
      intro i f t hf hrun
      refine refuses_stage hf fun hi => ?_
      subst hi
      rw [show (stages h m.config).take 6 = stagesBeforeTcp h m.config from rfl] at hrun
      simpa only [hlisted, hrun, Bool.not_false, Bool.true_and] using hcookie
    obtain ⟨action, u, hrun⟩ : ∃ action u,
        runStages h (stages h m.config) (enter nowNs ctx m pc) = (action, u) := ⟨_, _, rfl⟩
    rw [hrun] at htx ⊢
    cases action with
    | none => cases htx
    | some action =>
      cases (show action = .tx from htx)
      obtain ⟨t, hof, hdrop, hu⟩ := dropPacket_of_runStages hstages hrun
      exact ⟨pc, t, rfl, hof, hdrop, by rw [leave, hu, ctx_logPacketSample]⟩

/-- A drop that is answered is one of TCP behind 20 bytes. -/
theorem buildRst_of_dropPacket (htx : (dropPacket h s).1 = .tx) :
    s.pc.protocol = IPPROTO_TCP ∧ s.pc.ipHdrLen = IP_HDR_LEN ∧
      buildRst h s.ctx = (true, (dropPacket h s).2.ctx) := by
  obtain ⟨m, hdrop, -⟩ := dropPacket_split h s
  rw [hdrop] at htx ⊢
  split at htx
  case isFalse => cases htx
  rename_i hdue
  rw [if_pos hdue]
  dsimp only at htx ⊢
  unfold replyTcpRst at htx ⊢
  split at htx
  case isFalse => cases htx
  rename_i hihl
  rw [if_pos hihl]
  split at htx
  · rename_i ctx hbuilt
    exact ⟨hdue.2, hihl, by rw [hbuilt]⟩
  · cases htx

/-- The frame that `drop_packet` sends answers a TCP segment, in a well-formed way, exactly if the frame
that came is a whole IPv4 packet. -/
theorem reset_answers_iff {nowNs : UInt64} (htx : (tryEshield h nowNs ctx m).1 = .tx)
    (hcookie : cookieAnswered h nowNs ctx m = false) :
    CarriesTcp ctx ∧ AnswersSegment ctx (tryEshield h nowNs ctx m).2.1 ↔ WholePacket ctx := by
  obtain ⟨pc, t, hparse, hof, hdrop, hframe⟩ := dropPacket_of_tryEshield htx hcookie
  obtain ⟨hproto, hihl, hbuilt⟩ := buildRst_of_dropPacket hdrop
  rw [hframe]
  rw [show t.ctx = ctx from hof.ctx] at hbuilt
  exact buildRst_iff hparse (hof.ipHdrLen.symm.trans hihl) (hof.protocol.symm.trans hproto) hbuilt

/-! ## A blocked source -/

/-- The source of `sampleSyn` is blocked for good, and drops are answered. -/
def blockedSource : Maps :=
  { config := { tcpResetOnDrop := 1 }
    blacklist := LruHashMap.empty.insert (srcKey (IpHdr.saddr sampleSyn 14))
      { blockedUntilNs := 0, firstSeenNs := 0, hitCount := 0, blockReason := 1, lastReason := 0 } }

theorem reset_answers_sample :
    CarriesTcp sampleSyn ∧ AnswersSegment sampleSyn (tryEshield {} 0 sampleSyn blockedSource).2.1 ↔
      WholePacket sampleSyn :=
  reset_answers_iff (by decide +kernel) (by decide +kernel)

/-- The bytes of `sampleSyn` as a last fragment, eight bytes into its packet. -/
def laterFragment : XdpContext := sampleSyn.setU16 20 (bswap16 0x0001)

/-- The bytes of `sampleSyn` with more fragments to come. -/
def firstFragment : XdpContext := sampleSyn.setU16 20 (bswap16 0x2000)

/-- A later fragment, whose payload is taken for a TCP header, is answered by a reset, and so is a first
one, by a reset that is a first fragment itself. -/
theorem fragments_are_reset :
    ((tryEshield {} 0 laterFragment blockedSource).1 = .tx ∧
        cookieAnswered {} 0 laterFragment blockedSource = false ∧ ¬ CarriesTcp laterFragment) ∧
      (tryEshield {} 0 firstFragment blockedSource).1 = .tx ∧
        cookieAnswered {} 0 firstFragment blockedSource = false ∧
        ¬ AnswersSegment firstFragment (tryEshield {} 0 firstFragment blockedSource).2.1 := by
  refine ⟨⟨by decide +kernel, by decide +kernel, fun hcarries => ?_⟩, by decide +kernel,
    by decide +kernel, fun hans => ?_⟩
  · exact absurd hcarries.offset (by decide +kernel)
  · exact absurd hans.whole (by decide +kernel)

end EShield.Ebpf
