import EShield.Ebpf.Proofs.ResetReplyProofs

/-!
# Packet samples

A sample is built after the verdict, from the context of the packet and from its frame as it is then.
So it describes the packet that came unless a reset or a challenge has been written into the frame
before, or the packet is a later fragment, in which an L4 header is skipped that it does not have.
-/

namespace EShield.Ebpf

open XdpContext

variable {h : Helpers} {nowNs : UInt64} {ctx : XdpContext} {m : Maps} {pc : PacketCtx}
  {s t u v : PacketState} {sample : PacketSample} {a : XdpAction} {l4 : Nat}

/-! ## What a frame holds -/

def frameIpHdrLen (ctx : XdpContext) : Nat :=
  if EthHdr.proto ctx 0 = ETH_P_IP then IpHdr.hdrLen ctx ETH_HDR_LEN else IPV6_HDR_LEN

def frameProtocol (ctx : XdpContext) : UInt8 :=
  if EthHdr.proto ctx 0 = ETH_P_IP then IpHdr.proto ctx ETH_HDR_LEN
  else Ipv6Hdr.nextHeader ctx ETH_HDR_LEN

/-- The destination address in the IP header of a frame. -/
def frameDestination (ctx : XdpContext) : BitVec 128 :=
  if EthHdr.proto ctx 0 = ETH_P_IP then (toNeBytes (IpHdr.daddr ctx ETH_HDR_LEN)).setWidth 128
  else Ipv6Hdr.daddr ctx ETH_HDR_LEN

/-- A later fragment, which has no L4 header. -/
def frameFragment (ctx : XdpContext) : Bool :=
  EthHdr.proto ctx 0 = ETH_P_IP && isFragment ctx ETH_HDR_LEN

/-- Source and destination port, zero where there are none. -/
def framePorts (ctx : XdpContext) : UInt16 × UInt16 :=
  let l4 := ETH_HDR_LEN + frameIpHdrLen ctx
  if frameFragment ctx then (0, 0)
  else if frameProtocol ctx = IPPROTO_TCP ∨ frameProtocol ctx = IPPROTO_UDP then
    (bswap16 (ctx.u16 l4), bswap16 (ctx.u16 (l4 + 2)))
  else (0, 0)

/-- The length of the L4 header that the frame has. -/
def frameL4HdrLen (ctx : XdpContext) : Nat :=
  if frameFragment ctx then 0
  else if frameProtocol ctx = IPPROTO_TCP then TcpHdr.hdrLen ctx (ETH_HDR_LEN + frameIpHdrLen ctx)
  else if frameProtocol ctx = IPPROTO_UDP ∨ frameProtocol ctx = IPPROTO_ICMP ∨
      frameProtocol ctx = IPPROTO_ICMPV6 then 8
  else 0

/-- Where the L7 payload of a frame begins. -/
def frameL7 (ctx : XdpContext) : Nat := ETH_HDR_LEN + frameIpHdrLen ctx + frameL4HdrLen ctx

/-- The sample describes the frame: its addresses, its protocol and ports, its length, and no payload or
the first 64 bytes of the frame's. -/
structure Describes (ctx : XdpContext) (sample : PacketSample) : Prop where
  family : sample.family = (frameSource ctx).family
  srcIp : sample.srcIp = (frameSource ctx).addr
  dstIp : sample.dstIp = frameDestination ctx
  protocol : sample.protocol = frameProtocol ctx
  ports : (sample.srcPort, sample.dstPort) = framePorts ctx
  packetLen : sample.packetLen.toNat = ctx.len
  payload : sample.payloadBytes = 0 ∨
    sample.payloadBytes = 64 ∧ frameL7 ctx + 64 ≤ ctx.len ∧
      sample.payloadSample = (List.range 64).map fun j => ctx.mem (frameL7 ctx + j)

theorem readPorts_eq {offset : Nat} {protocol : UInt8} {ports : UInt16 × UInt16}
    (hports : readPorts ctx offset protocol = some ports) :
    ports = if protocol = IPPROTO_TCP ∨ protocol = IPPROTO_UDP then
      (bswap16 (ctx.u16 offset), bswap16 (ctx.u16 (offset + 2))) else (0, 0) := by
  unfold readPorts at hports
  split at hports
  · rename_i htcp
    obtain ⟨tcp, hptr, rfl⟩ := Option.map_eq_some_iff.1 hports
    obtain ⟨-, rfl⟩ := ptrAt_eq_some_iff.1 hptr
    rw [if_pos (.inl htcp)]
    rfl
  · rename_i htcp
    split at hports
    · rename_i hudp
      obtain ⟨udp, hptr, rfl⟩ := Option.map_eq_some_iff.1 hports
      obtain ⟨-, rfl⟩ := ptrAt_eq_some_iff.1 hptr
      rw [if_pos (.inr hudp)]
      rfl
    · rename_i hudp
      rw [if_neg (not_or.2 ⟨htcp, hudp⟩)]
      exact (Option.some.inj hports).symm

/-- The parser reads what the frame holds. -/
theorem parse_frame (hparse : parse ctx = some pc) :
    pc.src = frameSource ctx ∧ pc.protocol = frameProtocol ctx ∧ pc.ipHdrLen = frameIpHdrLen ctx ∧
      pc.fragment = frameFragment ctx ∧ (pc.sport, pc.dport) = framePorts ctx := by
  refine ⟨parse_src hparse, ?_⟩
  unfold framePorts frameFragment frameIpHdrLen frameProtocol
  unfold parse at hparse
  obtain ⟨eth, heth, hparse⟩ := Option.bind_eq_some_iff.1 hparse
  obtain ⟨-, rfl⟩ := ptrAt_eq_some_iff.1 heth
  split at hparse
  · rename_i hproto
    simp only [if_pos hproto, decide_eq_true hproto, Bool.true_and]
    obtain ⟨ip, hip, hparse⟩ := Option.bind_eq_some_iff.1 hparse
    obtain ⟨-, rfl⟩ := ptrAt_eq_some_iff.1 hip
    dsimp only at hparse
    split at hparse
    · cases hparse
    split at hparse
    · rename_i hfrag
      cases hparse
      exact ⟨rfl, rfl, hfrag.symm, by rw [hfrag]; rfl⟩
    · rename_i hfrag
      obtain ⟨ports, hports, rfl⟩ := Option.map_eq_some_iff.1 hparse
      rw [Bool.not_eq_true] at hfrag
      refine ⟨rfl, rfl, hfrag.symm, ?_⟩
      rw [hfrag]
      exact readPorts_eq hports
  · rename_i hproto
    simp only [if_neg hproto, decide_eq_false hproto, Bool.false_and]
    split at hparse
    · obtain ⟨ip, hip, hparse⟩ := Option.bind_eq_some_iff.1 hparse
      obtain ⟨-, rfl⟩ := ptrAt_eq_some_iff.1 hip
      obtain ⟨ports, hports, rfl⟩ := Option.map_eq_some_iff.1 hparse
      exact ⟨rfl, rfl, rfl, readPorts_eq hports⟩
    · cases hparse

/-! ## What a sample holds -/

/-- What the sample of a packet holds, with this L4 header skipped. -/
structure SampleOf (u : PacketState) (l4 : Nat) (sample : PacketSample) : Prop where
  skipped : l4HdrLen u = some l4
  family : sample.family = u.pc.src.family
  srcIp : sample.srcIp = u.pc.src.addr
  dstIp : sample.dstIp = sampleDstIp u
  protocol : sample.protocol = u.pc.protocol
  ports : (sample.srcPort, sample.dstPort) = (u.pc.sport, u.pc.dport)
  packetLen : sample.packetLen.toNat = u.ctx.len % 2 ^ 16
  payloadBytes : sample.payloadBytes =
    if ETH_HDR_LEN + u.pc.ipHdrLen + l4 + 64 ≤ u.ctx.len then 64 else 0
  payloadSample : ETH_HDR_LEN + u.pc.ipHdrLen + l4 + 64 ≤ u.ctx.len →
    sample.payloadSample =
      (List.range 64).map fun j => u.ctx.mem (ETH_HDR_LEN + u.pc.ipHdrLen + l4 + j)

/-- A sample is taken of the packet, or none. -/
theorem logPacketSample_cases (h : Helpers) (a : XdpAction) (u : PacketState) :
    (logPacketSample h a u).maps.packetSamples = u.maps.packetSamples ∨
      ∃ l4 sample, SampleOf u l4 sample ∧
        (logPacketSample h a u).maps.packetSamples = u.maps.packetSamples ++ [sample] := by
  unfold logPacketSample
  dsimp only
  split
  · exact .inl rfl
  split
  · exact .inl rfl
  cases hl4 : l4HdrLen u with
  | none => exact .inl rfl
  | some l4 =>
    dsimp only
    split
    · exact .inl rfl
    · refine .inr ⟨l4, _, ?_, rfl⟩
      exact
        { skipped := hl4
          family := rfl
          srcIp := rfl
          dstIp := rfl
          protocol := rfl
          ports := rfl
          packetLen := UInt16.toNat_ofNat'
          payloadBytes := rfl
          payloadSample := fun hfull => if_pos hfull }

/-- The packet of which the sample is taken is the one that came, but for its frame. -/
structure SampledPacket (pc : PacketCtx) (u : PacketState) : Prop where
  src : u.pc.src = pc.src
  protocol : u.pc.protocol = pc.protocol
  ipHdrLen : u.pc.ipHdrLen = pc.ipHdrLen
  ports : (u.pc.sport, u.pc.dport) = (pc.sport, pc.dport)

/-- The sample describes the frame that came if destination, length and payload are still its own. -/
theorem describes_iff (hparse : parse ctx = some pc) (hu : SampledPacket pc u)
    (hsample : SampleOf u l4 sample) :
    Describes ctx sample ↔
      sampleDstIp u = frameDestination ctx ∧ u.ctx.len % 2 ^ 16 = ctx.len ∧
        (ETH_HDR_LEN + pc.ipHdrLen + l4 + 64 ≤ u.ctx.len →
          frameL7 ctx + 64 ≤ ctx.len ∧
            ∀ j < 64, u.ctx.mem (ETH_HDR_LEN + pc.ipHdrLen + l4 + j) = ctx.mem (frameL7 ctx + j)) := by
  obtain ⟨hsrc, hprotocol, -, -, hports⟩ := parse_frame hparse
  have hbytes := hsample.payloadBytes
  have hcopied := hsample.payloadSample
  rw [hu.ipHdrLen] at hbytes hcopied
  constructor
  · intro hdesc
    refine ⟨hsample.dstIp.symm.trans hdesc.dstIp, hsample.packetLen.symm.trans hdesc.packetLen, ?_⟩
    intro hfull
    rw [if_pos hfull] at hbytes
    rcases hdesc.payload with hnone | ⟨-, hlen, hpayload⟩
    · rw [hbytes] at hnone
      exact absurd hnone (by decide)
    · rw [hcopied hfull] at hpayload
      exact ⟨hlen, fun j hj => List.map_inj_left.1 hpayload j (List.mem_range.2 hj)⟩
  · rintro ⟨hdst, hlen, hpayload⟩
    exact
      { family := by rw [hsample.family, hu.src, hsrc]
        srcIp := by rw [hsample.srcIp, hu.src, hsrc]
        dstIp := hsample.dstIp.trans hdst
        protocol := by rw [hsample.protocol, hu.protocol, hprotocol]
        ports := by rw [hsample.ports, hu.ports, hports]
        packetLen := hsample.packetLen.trans hlen
        payload := by
          by_cases hfull : ETH_HDR_LEN + pc.ipHdrLen + l4 + 64 ≤ u.ctx.len
          · right
            obtain ⟨hroom, hbyte⟩ := hpayload hfull
            rw [if_pos hfull] at hbytes
            refine ⟨hbytes, hroom, ?_⟩
            rw [hcopied hfull]
            exact List.map_inj_left.2 fun j hj => hbyte j (List.mem_range.1 hj)
          · rw [if_neg hfull] at hbytes
            exact .inl hbytes }

/-! ## The frame of the packet -/

/-- A frame that is parsed has the IP header of its source's family. -/
theorem frame_cases (hparse : parse ctx = some pc) :
    (EthHdr.proto ctx 0 = ETH_P_IP ∧ pc.src.ipFamily = some .ipv4 ∧
        ETH_HDR_LEN + IP_HDR_LEN ≤ ctx.len) ∨
      (EthHdr.proto ctx 0 ≠ ETH_P_IP ∧ pc.src.ipFamily = some .ipv6 ∧
        ETH_HDR_LEN + IPV6_HDR_LEN ≤ ctx.len) := by
  rcases parse_cases hparse with ⟨hproto, hlen, hsrc, -⟩ | ⟨hproto, hlen, hsrc, -⟩
  · exact .inl ⟨hproto, by rw [hsrc]; rfl, hlen⟩
  · exact .inr ⟨by rw [hproto]; decide, by rw [hsrc]; rfl, hlen⟩

/-- The destination in a frame of IPv4. -/
theorem sampleDstIp_ipv4 (hfamily : u.pc.src.ipFamily = some .ipv4)
    (hlen : ETH_HDR_LEN + IP_HDR_LEN ≤ u.ctx.len) :
    sampleDstIp u = (toNeBytes (IpHdr.daddr u.ctx ETH_HDR_LEN)).setWidth 128 := by
  rw [sampleDstIp, hfamily, ptrAt_of_le hlen]

theorem sampleDstIp_kept (hparse : parse ctx = some pc) (hu : SampledPacket pc u)
    (hctx : u.ctx = ctx) : sampleDstIp u = frameDestination ctx := by
  rw [frameDestination]
  rcases frame_cases hparse with ⟨hproto, hfamily, hlen⟩ | ⟨hproto, hfamily, hlen⟩
  · rw [if_pos hproto, sampleDstIp_ipv4 (by rw [hu.src, hfamily]) (by rwa [hctx]), hctx]
  · rw [if_neg hproto, sampleDstIp, hu.src, hfamily, hctx, ptrAt_of_le hlen]

/-- Of a packet that is no later fragment the L4 header is skipped that it has. -/
theorem frameL4HdrLen_kept (hparse : parse ctx = some pc) (hu : SampledPacket pc u)
    (hctx : u.ctx = ctx) (hl4 : l4HdrLen u = some l4) (hfrag : frameFragment ctx = false) :
    frameL4HdrLen ctx = l4 := by
  obtain ⟨-, hprotocol, hihl, -, -⟩ := parse_frame hparse
  rw [l4HdrLen, hu.protocol, hu.ipHdrLen, hctx, hprotocol, hihl] at hl4
  rw [frameL4HdrLen, hfrag, if_neg (by decide)]
  split at hl4
  · rename_i htcp
    rw [if_pos htcp]
    obtain ⟨tcp, hptr, rfl⟩ := Option.map_eq_some_iff.1 hl4
    obtain ⟨-, rfl⟩ := ptrAt_eq_some_iff.1 hptr
    rfl
  · rename_i htcp
    rw [if_neg htcp]
    split at hl4
    · rename_i hother
      rw [if_pos hother]
      exact Option.some.inj hl4
    · rename_i hother
      rw [if_neg hother]
      exact Option.some.inj hl4

/-- In a later fragment the bytes behind the L4 header that is skipped are those it begins with, as far
as they are copied. -/
def FragmentRepeats (ctx : XdpContext) (s : PacketState) : Prop :=
  frameFragment ctx = true → ∀ l4, l4HdrLen s = some l4 → frameL7 ctx + l4 + 64 ≤ ctx.len →
    ∀ j < 64, ctx.mem (frameL7 ctx + l4 + j) = ctx.mem (frameL7 ctx + j)

/-- The sample of a packet whose frame is as it came. -/
theorem describes_kept_iff (hparse : parse ctx = some pc) (hu : SampledPacket pc u)
    (hctx : u.ctx = ctx) (hsample : SampleOf u l4 sample) :
    Describes ctx sample ↔ ctx.len < 2 ^ 16 ∧ FragmentRepeats ctx u := by
  obtain ⟨-, -, hihl, -, -⟩ := parse_frame hparse
  have hskip := frameL4HdrLen_kept hparse hu hctx hsample.skipped
  rw [describes_iff hparse hu hsample, hctx, hihl]
  have hlen : ctx.len % 2 ^ 16 = ctx.len ↔ ctx.len < 2 ^ 16 :=
    ⟨fun h => h ▸ Nat.mod_lt _ (by decide), Nat.mod_eq_of_lt⟩
  rw [hlen]
  cases hfrag : frameFragment ctx with
  | false =>
    rw [frameL7, hskip hfrag]
    refine ⟨fun ⟨_, hlen, _⟩ => ⟨hlen, fun h => ?_⟩, fun ⟨hlen, _⟩ => ?_⟩
    · rw [hfrag] at h
      cases h
    · exact ⟨sampleDstIp_kept hparse hu hctx, hlen, fun hfull => ⟨hfull, fun _ _ => rfl⟩⟩
  | true =>
    have hl7 : ETH_HDR_LEN + frameIpHdrLen ctx = frameL7 ctx := by
      rw [frameL7, frameL4HdrLen, hfrag, if_pos rfl, Nat.add_zero]
    rw [hl7]
    constructor
    · rintro ⟨-, hlen, hpayload⟩
      refine ⟨hlen, fun _ l4' hl4' hfull => ?_⟩
      cases hsample.skipped.symm.trans hl4'
      exact (hpayload hfull).2
    · rintro ⟨hlen, hrepeats⟩
      refine ⟨sampleDstIp_kept hparse hu hctx, hlen, fun hfull => ⟨by omega, ?_⟩⟩
      exact hrepeats hfrag l4 hsample.skipped hfull

/-! ## The frame of a reset -/

/-- The end of the frame can be moved to that of a reset. -/
def ResetFits (h : Helpers) (ctx : XdpContext) : Prop :=
  h.tailAdjustable = true ∧ ETH_HDR_LEN + 40 ≤ ctx.len + h.tailroom

theorem adjustTail_reset (hfits : ResetFits h ctx) :
    ∃ cut, bpfXdpAdjustTail h ctx ((ETH_HDR_LEN + 40 : Nat) - ctx.len) = some cut ∧
      cut.len = 54 ∧ ∀ i < ctx.len, cut.mem i = ctx.mem i := by
  obtain ⟨hadjustable, hroom⟩ := hfits
  simp only [ETH_HDR_LEN] at hroom
  unfold bpfXdpAdjustTail
  refine ⟨_, if_neg ?_, ?_, fun i hi => if_neg ?_⟩
  · simp only [hadjustable, ETH_HDR_LEN, Bool.not_true, Bool.false_eq_true, false_or]
    omega
  · simp only [ETH_HDR_LEN]
    omega
  · omega

theorem adjustTail_no_reset (hfits : ¬ ResetFits h ctx) :
    bpfXdpAdjustTail h ctx ((ETH_HDR_LEN + 40 : Nat) - ctx.len) = none := by
  unfold bpfXdpAdjustTail
  dsimp only
  refine if_pos ?_
  by_contra hnone
  rw [not_or, not_or] at hnone
  obtain ⟨hadjustable, -, hroom⟩ := hnone
  refine hfits ⟨by simpa using hadjustable, ?_⟩
  simp only [ETH_HDR_LEN] at hroom ⊢
  omega

/-- A frame that has been written into and keeps these fields of the header. -/
structure Written (before after : XdpContext) : Prop where
  len : after.len = before.len
  daddr : after.u32 30 = before.u32 30
  doffFlags : after.u16 46 = before.u16 46

theorem written_check (ctx : XdpContext) (v : UInt16) : Written ctx (ctx.setU16 24 v) where
  len := rfl
  daddr := u32_setU16_of_disjoint (by omega)
  doffFlags := u16_setU16_of_disjoint (by omega)

theorem written_tcpCheck (ctx : XdpContext) (v : UInt16) : Written ctx (ctx.setU16 50 v) where
  len := rfl
  daddr := u32_setU16_of_disjoint (by omega)
  doffFlags := u16_setU16_of_disjoint (by omega)

theorem Written.trans {a b c : XdpContext} (hab : Written a b) (hbc : Written b c) : Written a c where
  len := hbc.len.trans hab.len
  daddr := hbc.daddr.trans hab.daddr
  doffFlags := hbc.doffFlags.trans hab.doffFlags

theorem Written.refl (a : XdpContext) : Written a a := ⟨rfl, rfl, rfl⟩

/-- A frame of TCP becomes one of 54 bytes that goes back to its source. -/
theorem buildRst_frame (hfits : ResetFits h ctx) (hlen : ETH_HDR_LEN + IP_HDR_LEN ≤ ctx.len)
    (hproto : IpHdr.proto ctx ETH_HDR_LEN = IPPROTO_TCP) :
    (buildRst h ctx).2.len = 54 ∧
      IpHdr.daddr (buildRst h ctx).2 ETH_HDR_LEN = IpHdr.saddr ctx ETH_HDR_LEN ∧
      TcpHdr.hdrLen (buildRst h ctx).2 34 = 20 := by
  obtain ⟨cut, hcut, hcutLen, hmem⟩ := adjustTail_reset hfits
  simp only [ETH_HDR_LEN, IP_HDR_LEN] at hlen
  have hsaddr : cut.u32 26 = ctx.u32 26 := by
    simp only [XdpContext.u32, XdpContext.u16]
    rw [hmem _ (by omega), hmem _ (by omega), hmem _ (by omega), hmem _ (by omega)]
  have hproto' : IpHdr.proto cut ETH_HDR_LEN = IPPROTO_TCP := by
    rw [← hproto]
    exact hmem 23 (by omega)
  obtain ⟨⟨-, -, hdaddr, -, -, -, -, hdoff, -⟩, -⟩ := fields_rewriteRst cut
  have hbody : Written (rewriteRst cut 0 14 34) (buildRst h ctx).2 := by
    unfold buildRst
    dsimp only
    rw [hcut]
    dsimp only
    rw [ptrAt_of_le (by rw [hcutLen]; decide), ptrAt_of_le (by rw [hcutLen]; decide),
      ptrAt_of_le (by rw [hcutLen]; decide)]
    dsimp only
    rw [if_neg (not_not.2 hproto')]
    split
    · exact .refl _
    · split
      · exact written_check _ _
      · exact (written_check _ _).trans (written_tcpCheck _ _)
  refine ⟨hbody.len.trans hcutLen, ?_, ?_⟩
  · change (buildRst h ctx).2.u32 30 = ctx.u32 26
    rw [hbody.daddr, hdaddr, hsaddr]
  · change (bswap16 ((buildRst h ctx).2.u16 46) >>> 12).toUInt8.toNat * 4 = 20
    rw [hbody.doffFlags, hdoff, bswap16_bswap16]
    rfl

theorem buildRst_no_frame (hfits : ¬ ResetFits h ctx) : (buildRst h ctx).2 = ctx := by
  unfold buildRst
  dsimp only
  rw [adjustTail_no_reset hfits]

/-! ## The frame of a challenge -/

/-- By how much the TCP header becomes shorter. -/
def synackShrink (tcpHdrLen : Nat) : Nat := tcpHdrLen - synackHdrLen tcpHdrLen

/-- The frame is written into once its end could be moved and leaves room for a TCP header. -/
def ChallengeFits (h : Helpers) (ctx : XdpContext) (tcpHdrLen : Nat) : Prop :=
  (tcpHdrLen ≤ synackHdrLen tcpHdrLen ∨ h.tailAdjustable = true) ∧
    54 + synackShrink tcpHdrLen ≤ ctx.len

theorem adjustTail_shrink {n : Nat} (hadjustable : h.tailAdjustable = true)
    (hlen : ETH_HDR_LEN + n ≤ ctx.len) :
    bpfXdpAdjustTail h ctx (-(n : Int)) = some { mem := ctx.mem, len := ctx.len - n } := by
  simp only [ETH_HDR_LEN] at hlen
  unfold bpfXdpAdjustTail
  dsimp only
  rw [if_neg]
  · congr 2
    · funext i
      exact if_neg (by omega)
    · omega
  · simp only [hadjustable, ETH_HDR_LEN, Bool.not_true, Bool.false_eq_true, false_or]
    omega

/-- The frame cut to the new header, if that can be done and leaves room for the header. -/
theorem adjusted_cases (h : Helpers) (ctx : XdpContext) (tcpHdrLen : Nat) :
    let adjusted :=
      if tcpHdrLen > synackHdrLen tcpHdrLen then
        bpfXdpAdjustTail h ctx (-((tcpHdrLen - synackHdrLen tcpHdrLen : Nat) : Int))
      else some ctx
    (ChallengeFits h ctx tcpHdrLen →
        adjusted = some { mem := ctx.mem, len := ctx.len - synackShrink tcpHdrLen }) ∧
      (¬ ChallengeFits h ctx tcpHdrLen → adjusted = none ∨ ∃ cut ∈ adjusted, cut.len < 54) := by
  dsimp only
  by_cases hlong : tcpHdrLen > synackHdrLen tcpHdrLen
  · rw [if_pos hlong]
    refine ⟨fun ⟨hadjustable, hlen⟩ => ?_, fun hnot => ?_⟩
    · refine adjustTail_shrink (hadjustable.resolve_left (not_le.2 hlong)) ?_
      rw [synackShrink] at hlen
      simp only [ETH_HDR_LEN]
      omega
    · cases hcut : bpfXdpAdjustTail h ctx (-((tcpHdrLen - synackHdrLen tcpHdrLen : Nat) : Int)) with
      | none => exact .inl rfl
      | some cut =>
        refine .inr ⟨cut, rfl, not_le.1 fun hlen => hnot ⟨.inr (by_contra fun hfixed => ?_), ?_⟩⟩
        · unfold bpfXdpAdjustTail at hcut
          rw [if_pos (.inl (by simpa using hfixed))] at hcut
          cases hcut
        · have hcutLen := len_adjustTail hcut
          rw [synackShrink]
          omega
  · rw [if_neg hlong]
    have hshrink : synackShrink tcpHdrLen = 0 := Nat.sub_eq_zero_of_le (not_lt.1 hlong)
    refine ⟨fun _ => by rw [hshrink, Nat.sub_zero], fun hnot => .inr ⟨ctx, rfl, ?_⟩⟩
    refine not_le.1 fun hlen => hnot ⟨.inl (not_lt.1 hlong), ?_⟩
    rwa [hshrink]

theorem written_writeMss (ctx : XdpContext) (mssIdx : UInt8) :
    Written ctx (writeMss ctx 34 mssIdx) where
  len := rfl
  daddr := by simp (disch := omega) only [writeMss, u32_setU8_of_disjoint]
  doffFlags := by simp (disch := omega) only [writeMss, u16_setU8_of_disjoint]

theorem written_computeChecksums (ctx : XdpContext) (ipHdrLen tcpHdrLen : Nat) :
    Written ctx (computeChecksums ctx 14 34 ipHdrLen tcpHdrLen).2 := by
  unfold computeChecksums
  split
  · exact .refl _
  · dsimp only
    split
    · exact written_check _ _
    · exact (written_check _ _).trans (written_tcpCheck _ _)

/-- The fields of the challenge before its options and checksums are written. -/
theorem fields_rewriteSynack (cut : XdpContext) (newTcpHdrLen : Nat) (cookie originalSeq : UInt32) :
    let body := rewriteSynack cut 0 14 34 20 newTcpHdrLen cookie originalSeq
    body.len = cut.len ∧ body.u32 30 = cut.u32 26 ∧
      body.u16 46 =
        (UInt16.ofNat (newTcpHdrLen / 4) <<< 12) ||| (TCP_FLAG_SYN ||| TCP_FLAG_ACK).toUInt16 := by
  simp only [rewriteSynack, EthHdr.src, EthHdr.dst]
  refine ⟨rfl, ?_, ?_⟩
  · simp (disch := omega)
  · simp (disch := omega)

/-- A frame that is written into goes back to its source, with a TCP header that is read back as one of
four bytes. -/
theorem sendSynack_frame (pcr : PacketCtxRef) (hihl : pcr.ipHdrLen = 20) (tcpHdrLen : Nat)
    (mssIdx : UInt8) (cookie originalSeq : UInt32) :
    let frame := (sendSynack h ctx pcr tcpHdrLen mssIdx cookie originalSeq).2
    (ChallengeFits h ctx tcpHdrLen →
        frame.len = ctx.len - synackShrink tcpHdrLen ∧
          IpHdr.daddr frame ETH_HDR_LEN = IpHdr.saddr ctx ETH_HDR_LEN ∧
          TcpHdr.hdrLen frame 34 = 4) ∧
      (¬ ChallengeFits h ctx tcpHdrLen → frame = ctx ∨ frame.len < 54) := by
  obtain ⟨hfits, hnot⟩ := adjusted_cases h ctx tcpHdrLen
  unfold sendSynack
  dsimp only at hfits hnot ⊢
  rw [show (if tcpHdrLen ≥ 24 then 24 else 20) = synackHdrLen tcpHdrLen from rfl, hihl]
  constructor
  · intro hroom
    have hlen : 54 ≤ ctx.len - synackShrink tcpHdrLen := Nat.le_sub_of_add_le hroom.2
    obtain ⟨hbodyLen, hdaddr, hdoff⟩ := fields_rewriteSynack
      { mem := ctx.mem, len := ctx.len - synackShrink tcpHdrLen } (synackHdrLen tcpHdrLen) cookie
      originalSeq
    have hlong := synackHdrLen_cases tcpHdrLen
    rw [hfits hroom]
    dsimp only
    rw [ptrAt_of_le (le_trans (by decide) hlen), ptrAt_of_le (le_trans (by decide) hlen),
      ptrAt_of_le (le_trans (by decide) hlen)]
    dsimp only
    generalize synackHdrLen tcpHdrLen = newTcpHdrLen at hbodyLen hdaddr hdoff hlong ⊢
    generalize hbody : rewriteSynack _ 0 ETH_HDR_LEN (ETH_HDR_LEN + 20) 20 newTcpHdrLen cookie
      originalSeq = body
    rw [show rewriteSynack _ 0 14 34 20 newTcpHdrLen cookie originalSeq = body from hbody]
      at hbodyLen hdaddr hdoff
    have hwritten : ∀ frame : XdpContext, Written body frame →
        frame.len = ctx.len - synackShrink tcpHdrLen ∧
          IpHdr.daddr frame ETH_HDR_LEN = IpHdr.saddr ctx ETH_HDR_LEN ∧
          TcpHdr.hdrLen frame 34 = 4 := by
      intro frame hframe
      refine ⟨hframe.len.trans hbodyLen, hframe.daddr.trans hdaddr, ?_⟩
      change (bswap16 (frame.u16 46) >>> 12).toUInt8.toNat * 4 = 4
      rw [hframe.doffFlags, hdoff]
      rcases hlong with rfl | rfl
      · decide
      · decide
    split_ifs
    · cases hbase : body.ptrAt 24 (ETH_HDR_LEN + 20) with
      | none => exact hwritten _ (.refl _)
      | some base =>
        obtain ⟨-, rfl⟩ := ptrAt_eq_some_iff.1 hbase
        exact hwritten _ ((written_writeMss _ _).trans (written_computeChecksums _ _ _))
    · exact hwritten _ (written_computeChecksums _ _ _)
  · intro hroom
    rcases hnot hroom with hnone | ⟨cut, hcut, hshort⟩
    · rw [hnone]
      exact .inl rfl
    · rw [Option.mem_def.1 hcut]
      have htcp : cut.ptrAt TCP_HDR_LEN (ETH_HDR_LEN + 20) = none := if_pos hshort
      dsimp only
      rw [htcp]
      split
      · rename_i heq
        cases heq
      · exact .inr hshort

theorem ptrAt_isNone_iff {size offset : Nat} :
    (ctx.ptrAt size offset).isNone = true ↔ ctx.len < offset + size := by
  unfold XdpContext.ptrAt
  split
  · rename_i hgt
    exact ⟨fun _ => hgt, fun _ => rfl⟩
  · rename_i hle
    exact ⟨nofun, fun hgt => absurd hgt hle⟩

/-- A challenge is attempted where the frame holds the header, with its options if there are four bytes
of them. -/
theorem synChallenge_frame (h : Helpers) (ctx : XdpContext) (m : Maps) (pcr : PacketCtxRef)
    (hihl : pcr.ipHdrLen = 20) (ip tcp tcpHdrLen : Nat) :
    (54 ≤ ctx.len ∧ (tcpHdrLen = 24 → 58 ≤ ctx.len) →
        (synChallenge h ctx m pcr ip tcp tcpHdrLen).1 ≠ none ∧
          ∃ mssIdx cookie originalSeq, (synChallenge h ctx m pcr ip tcp tcpHdrLen).2 =
            (sendSynack h ctx pcr tcpHdrLen mssIdx cookie originalSeq).2) ∧
      (¬ (54 ≤ ctx.len ∧ (tcpHdrLen = 24 → 58 ≤ ctx.len)) →
        (synChallenge h ctx m pcr ip tcp tcpHdrLen).2 = ctx) := by
  unfold synChallenge
  simp only [ptrAt_isNone_iff, hihl, ETH_HDR_LEN, IP_HDR_LEN, TCP_HDR_LEN]
  constructor
  · rintro ⟨hlen, hopts⟩
    rw [if_neg (by omega)]
    generalize hsent : sendSynack h ctx pcr tcpHdrLen _ _ _ = sent
    obtain ⟨sent, frame⟩ := sent
    cases sent with
    | true => exact ⟨Option.some_ne_none _, _, _, _, by rw [hsent]⟩
    | false => exact ⟨Option.some_ne_none _, _, _, _, by rw [hsent]⟩
  · intro hnot
    rw [if_pos (by omega)]

/-- The SYN proxy writes a challenge into the frame of the packet. -/
structure ChallengeWritten (h : Helpers) (s : PacketState) : Prop where
  syn : isSynFlags (TcpHdr.flags s.ctx 34) = true
  challenged : (isChallengedOrTrigger s.maps (IpHdr.saddr s.ctx ETH_HDR_LEN) s.pc.nowNs).1 = true
  ipHdrLen : s.pc.ipHdrLen = 20
  tcpHdrLen : 20 ≤ TcpHdr.hdrLen s.ctx 34 ∧ TcpHdr.hdrLen s.ctx 34 ≤ 60
  totLen : (bswap16 (IpHdr.totLen s.ctx ETH_HDR_LEN)).toNat = 20 + TcpHdr.hdrLen s.ctx 34
  options : TcpHdr.hdrLen s.ctx 34 = 24 → 58 ≤ s.ctx.len
  fits : ChallengeFits h s.ctx (TcpHdr.hdrLen s.ctx 34)

/-- The frame that `handle_syn` leaves goes back to its source where a challenge is written, and is
otherwise as it came, or too short to be sampled. -/
theorem proxyFrame_cases (h : Helpers) (s : PacketState) :
    (ChallengeWritten h s →
        (handleSyn h s.ctx s.maps s.ref ETH_HDR_LEN (ETH_HDR_LEN + s.pc.ipHdrLen)).1 ≠ none ∧
          (proxyFrame h s).len = s.ctx.len - synackShrink (TcpHdr.hdrLen s.ctx 34) ∧
          IpHdr.daddr (proxyFrame h s) ETH_HDR_LEN = IpHdr.saddr s.ctx ETH_HDR_LEN ∧
          TcpHdr.hdrLen (proxyFrame h s) 34 = 4) ∧
      (¬ ChallengeWritten h s →
        proxyFrame h s = s.ctx ∨ s.pc.ipHdrLen = 20 ∧ (proxyFrame h s).len < 54) := by
  unfold proxyFrame handleSyn
  constructor
  · intro hwritten
    have hchallenged := hwritten.challenged
    obtain ⟨m, hm⟩ : ∃ m, isChallengedOrTrigger s.maps (IpHdr.saddr s.ctx ETH_HDR_LEN) s.pc.nowNs =
        (true, m) := ⟨_, Prod.ext hchallenged rfl⟩
    have hihl : s.ref.ipHdrLen = 20 := hwritten.ipHdrLen
    have hlen := hwritten.fits.2
    obtain ⟨hacted, mssIdx, cookie, originalSeq, hframe⟩ :=
      (synChallenge_frame h s.ctx m s.ref hihl ETH_HDR_LEN 34 (TcpHdr.hdrLen s.ctx 34)).1
        ⟨by omega, hwritten.options⟩
    have hsent := (@sendSynack_frame h s.ctx s.ref hihl (TcpHdr.hdrLen s.ctx 34) mssIdx cookie
      originalSeq).1 hwritten.fits
    rw [hwritten.ipHdrLen, show ETH_HDR_LEN + 20 = 34 from rfl, hwritten.syn,
      show s.ref.nowNs = s.pc.nowNs from rfl, hm, hihl]
    dsimp only
    rw [if_neg (by decide), if_neg (by decide), if_neg (not_not.2 hwritten.tcpHdrLen),
      if_neg (not_not.2 hwritten.totLen)]
    rw [← hframe] at hsent
    exact ⟨hacted, hsent⟩
  · intro hnot
    split
    · exact .inl rfl
    rename_i hsyn
    split
    · exact .inl rfl
    rename_i m hm
    dsimp only
    split
    · exact .inl rfl
    rename_i hihl
    have hihl : s.ref.ipHdrLen = 20 := not_not.1 hihl
    rw [show ETH_HDR_LEN + s.pc.ipHdrLen = 34 by rw [show s.pc.ipHdrLen = 20 from hihl]; rfl] at hsyn ⊢
    split
    · exact .inl rfl
    rename_i htcpHdrLen
    split
    · exact .inl rfl
    rename_i htotLen
    obtain ⟨hsent, hkept⟩ :=
      synChallenge_frame h s.ctx m s.ref hihl ETH_HDR_LEN 34 (TcpHdr.hdrLen s.ctx 34)
    by_cases hroom : 54 ≤ s.ctx.len ∧ (TcpHdr.hdrLen s.ctx 34 = 24 → 58 ≤ s.ctx.len)
    · obtain ⟨-, mssIdx, cookie, originalSeq, hframe⟩ := hsent hroom
      dsimp only
      rw [hframe]
      have hfits : ¬ ChallengeFits h s.ctx (TcpHdr.hdrLen s.ctx 34) := fun hfits => hnot
        { syn := by simpa using hsyn
          challenged := congrArg Prod.fst hm
          ipHdrLen := hihl
          tcpHdrLen := not_not.1 htcpHdrLen
          totLen := by rw [not_not.1 htotLen, hihl]
          options := hroom.2
          fits := hfits }
      have hsent := (@sendSynack_frame h s.ctx s.ref hihl (TcpHdr.hdrLen s.ctx 34) mssIdx cookie
        originalSeq).2 hfits
      exact hsent.imp_right fun hshort => ⟨hihl, hshort⟩
    · exact .inl (hkept hroom)

end EShield.Ebpf
