import EShield.Ebpf.RateCounter
import EShield.Ebpf.TcpReset

/-!
# SYN cookies

A source that exceeds its rate enters challenge mode: its SYNs are rewritten in place into SYN-ACKs
whose sequence number is a cookie, and an ACK that returns the cookie ends the mode.
-/

namespace EShield.Ebpf

/-- The context shared with the main flow. -/
structure PacketCtxRef where
  ipHdrLen : Nat
  nowNs : UInt64

def TCP_OPT_MSS : UInt8 := 2
def BUCKET_DURATION_S : UInt64 := 60
def VALID_BUCKETS : Nat := 2
def CHALLENGE_TIMEOUT_NS : UInt64 := 30000000000

/-- The MSS announced for each index. -/
def MSS_TABLE : List UInt16 := [536, 1300, 1460]

/-- The source a loaded address stands for. -/
def srcKey (saddr : UInt32) : IpKey := .fromIpv4 (toNeBytes saddr)

/-- The time bucket of a clock value. -/
def bucketOf (nowNs : UInt64) : UInt64 := nowNs / 1000000000 / BUCKET_DURATION_S

/-- The source is in challenge mode, or this SYN puts it there. -/
def isChallengedOrTrigger (m : Maps) (saddr : UInt32) (nowNs : UInt64) : Bool × Maps :=
  let src := srcKey saddr
  match m.synProxyConn src with
  | some ts =>
    if nowNs.saturatingSub ts < CHALLENGE_TIMEOUT_NS then (true, m)
    else trigger src { m with synProxyConn := m.synProxyConn.remove src }
  | none => trigger src m
where
  trigger (src : IpKey) (m : Maps) : Bool × Maps :=
    match updateRateCounter m src nowNs with
    | (some update, m) =>
      if update.counter > update.threshold then
        (true, { m with synProxyConn := m.synProxyConn.insert src nowNs })
      else (false, m)
    | (none, m) => (false, m)

/-- The MSS option of a 24-byte TCP header. -/
def parseMss (ctx : XdpContext) (tcpOffset tcpHdrLen : Nat) : Option UInt16 := do
  if tcpHdrLen ≠ 24 then none
  let optsOffset := tcpOffset + 20
  let kind ← (ctx.ptrAt 1 optsOffset).map ctx.u8
  let len ← (ctx.ptrAt 1 (optsOffset + 1)).map ctx.u8
  if kind ≠ TCP_OPT_MSS ∨ len ≠ 4 then none
  let b0 ← (ctx.ptrAt 1 (optsOffset + 2)).map ctx.u8
  let b1 ← (ctx.ptrAt 1 (optsOffset + 3)).map ctx.u8
  some ((b0.toUInt16 <<< 8) ||| b1.toUInt16)

/-! ## Rewriting the SYN -/

/-- Swaps the addresses and ports and writes the SYN-ACK fields, checksums still zero. -/
def rewriteSynack (ctx : XdpContext) (eth ip tcp ipHdrLen newTcpHdrLen : Nat)
    (cookie originalSeq : UInt32) : XdpContext :=
  let ctx := ctx.swap (EthHdr.src eth) (EthHdr.dst eth) 6
  let ctx := ctx.swap (ip + 12) (ip + 16) 4
  let ctx := ctx.setU8 (ip + 8) 64
  let ctx := ctx.setU16 (ip + 10) 0
  let ctx := ctx.setU16 (ip + 2) (bswap16 (UInt16.ofNat (ipHdrLen + newTcpHdrLen)))
  let ctx := ctx.swap tcp (tcp + 2) 2
  let ctx := ctx.setU32 (tcp + 4) (bswap32 cookie)
  let ctx := ctx.setU32 (tcp + 8) (bswap32 (originalSeq + 1))
  -- `u16::from_be_bytes([0x00, SYN | ACK])`; the field is stored without `to_be`
  let doff := UInt16.ofNat (newTcpHdrLen / 4) <<< 12
  let flags := (TCP_FLAG_SYN ||| TCP_FLAG_ACK).toUInt16
  let ctx := ctx.setU16 (tcp + 12) (doff ||| flags)
  let ctx := ctx.setU16 (tcp + 14) (bswap16 65535)
  ctx.setU16 (tcp + 16) 0

/-- Writes the MSS option behind a 20-byte TCP header at `base`. -/
def writeMss (ctx : XdpContext) (base : Nat) (mssIdx : UInt8) : XdpContext :=
  let mssVal := MSS_TABLE.getD mssIdx.toNat 0
  let ctx := ctx.setU8 (base + 20) TCP_OPT_MSS
  let ctx := ctx.setU8 (base + 21) 4
  let ctx := ctx.setU8 (base + 22) (mssVal >>> 8).toUInt8
  ctx.setU8 (base + 23) (mssVal &&& 0xff).toUInt8

/-- Computes and writes the IP and TCP checksums. -/
def computeChecksums (ctx : XdpContext) (ip tcp ipHdrLen tcpHdrLen : Nat) : Bool × XdpContext :=
  match bpfCsumDiff ipHdrLen (ctx.words ip ipHdrLen) 0 with
  | none => (false, ctx)
  | some ipSum =>
    let ctx := ctx.setU16 (ip + 10) (finalizeCsum ipSum)
    match (pseudoSum ctx ip tcpHdrLen).bind (bpfCsumDiff tcpHdrLen (ctx.words tcp tcpHdrLen)) with
    | none => (false, ctx)
    | some tcpSum => (true, ctx.setU16 (tcp + 16) (finalizeCsum tcpSum))

/-- Rewrites the SYN into the challenge. A header longer than 24 bytes is cut to 24 by moving the end
of the frame. The frame is returned on failure too, as far as it was rewritten. -/
def sendSynack (h : Helpers) (ctx : XdpContext) (pc : PacketCtxRef) (originalTcpHdrLen : Nat)
    (mssIdx : UInt8) (cookie originalSeq : UInt32) : Bool × XdpContext :=
  let newTcpHdrLen := if originalTcpHdrLen ≥ 24 then 24 else 20
  let adjusted :=
    if originalTcpHdrLen > newTcpHdrLen then
      bpfXdpAdjustTail h ctx (-((originalTcpHdrLen - newTcpHdrLen : Nat) : Int))
    else some ctx
  match adjusted with
  | none => (false, ctx)
  | some ctx =>
    match ctx.ptrAt ETH_HDR_LEN 0, ctx.ptrAt IP_HDR_LEN ETH_HDR_LEN,
      ctx.ptrAt TCP_HDR_LEN (ETH_HDR_LEN + pc.ipHdrLen) with
    | some eth, some ip, some tcp =>
      let ctx := rewriteSynack ctx eth ip tcp pc.ipHdrLen newTcpHdrLen cookie originalSeq
      if newTcpHdrLen = 24 then
        match ctx.ptrAt 24 (ETH_HDR_LEN + pc.ipHdrLen) with
        | none => (false, ctx)
        | some base => computeChecksums (writeMss ctx base mssIdx) ip tcp pc.ipHdrLen newTcpHdrLen
      else computeChecksums ctx ip tcp pc.ipHdrLen newTcpHdrLen
    | _, _, _ => (false, ctx)

/-! ## Challenge and verification -/

/-- The secret a challenge of bucket `bucket` is built with; a bucket that has not been rotated in
yet falls back to the current secret. -/
def challengeSecret (secret : CookieSecret) (bucket : UInt64) : BitVec 128 :=
  if bucket = secret.bucketIndex then secret.current
  else if bucket = secret.bucketIndex.saturatingSub 1 then secret.previous
  else secret.current

/-- The secret an ACK of bucket `bucket` is checked with, if there is one. -/
def verifySecret (secret : CookieSecret) (bucket : UInt64) : Option (BitVec 128) :=
  if bucket = secret.bucketIndex then some secret.current
  else if bucket = secret.bucketIndex.saturatingSub 1 then some secret.previous
  else none

/-- The cookie of a connection, both ends and ports as the SYN carries them. -/
def cookieFor (saddr daddr : UInt32) (sport dport : UInt16) (bucket : UInt64)
    (secret : BitVec 128) (mssIdx : UInt8) : UInt32 :=
  buildCookieRuntime (saddr.toUInt64 ||| (daddr.toUInt64 <<< 32))
    (sport.toUInt64 ||| (dport.toUInt64 <<< 16) ||| (bucket <<< 32)) secret mssIdx

/-- Answers the SYN with a cookie. -/
def synChallenge (h : Helpers) (ctx : XdpContext) (m : Maps) (pc : PacketCtxRef) (ip tcp : Nat)
    (tcpHdrLen : Nat) : Option XdpAction × XdpContext :=
  if (ctx.ptrAt ETH_HDR_LEN 0).isNone ∨ (ctx.ptrAt IP_HDR_LEN ETH_HDR_LEN).isNone ∨
      (ctx.ptrAt TCP_HDR_LEN (ETH_HDR_LEN + pc.ipHdrLen)).isNone ∨
      (tcpHdrLen = 24 ∧ (ctx.ptrAt 24 (ETH_HDR_LEN + pc.ipHdrLen)).isNone) then
    (none, ctx)
  else
    let sport := bswap16 (TcpHdr.source ctx tcp)
    let dport := bswap16 (TcpHdr.dest ctx tcp)
    let originalSeq := bswap32 (TcpHdr.seq ctx tcp)
    let mssIdx := ((parseMss ctx (ETH_HDR_LEN + pc.ipHdrLen) tcpHdrLen).map mssToIdx).getD 0
    let secret := m.cookieSecrets
    let bucket := bucketOf pc.nowNs
    let cookie := cookieFor (IpHdr.saddr ctx ip) (IpHdr.daddr ctx ip) sport dport bucket
      (challengeSecret secret bucket) mssIdx
    match sendSynack h ctx pc tcpHdrLen mssIdx cookie originalSeq with
    | (true, ctx) => (some .tx, ctx)
    | (false, ctx) => (some .drop, ctx)

/-- Handles a SYN: passed on below the rate, challenged or dropped above it. -/
def handleSyn (h : Helpers) (ctx : XdpContext) (m : Maps) (pc : PacketCtxRef) (ip tcp : Nat) :
    Option XdpAction × XdpContext × Maps :=
  if !isSynFlags (TcpHdr.flags ctx tcp) then (none, ctx, m)
  else
    match isChallengedOrTrigger m (IpHdr.saddr ctx ip) pc.nowNs with
    | (false, m) => (none, ctx, m)
    | (true, m) =>
      let tcpHdrLen := TcpHdr.hdrLen ctx tcp
      if pc.ipHdrLen ≠ 20 then (some .drop, ctx, m)
      else if ¬(20 ≤ tcpHdrLen ∧ tcpHdrLen ≤ 60) then (some .drop, ctx, m)
      else if (bswap16 (IpHdr.totLen ctx ip)).toNat ≠ pc.ipHdrLen + tcpHdrLen then
        (some .drop, ctx, m)
      else
        let r := synChallenge h ctx m pc ip tcp tcpHdrLen
        (r.1, r.2, m)

/-- Handles an ACK of a source in challenge mode: a cookie that matches one of the two valid buckets
ends the mode and lets the packet pass. -/
def handleAck (ctx : XdpContext) (m : Maps) (pc : PacketCtxRef) (ip tcp : Nat) :
    Option XdpAction × Maps :=
  let flags := TcpHdr.flags ctx tcp
  if flags &&& TCP_FLAG_ACK = 0 ∨ flags &&& TCP_FLAG_SYN ≠ 0 then (none, m)
  else
    let saddr := IpHdr.saddr ctx ip
    let src := srcKey saddr
    match m.synProxyConn src with
    | none => (none, m)
    | some ts =>
      if ¬ pc.nowNs.saturatingSub ts < CHALLENGE_TIMEOUT_NS then
        (none, { m with synProxyConn := m.synProxyConn.remove src })
      else
        let expected := bswap32 (TcpHdr.ackSeq ctx tcp) - 1
        let mssIdx := (expected >>> 30).toUInt8
        let daddr := IpHdr.daddr ctx ip
        let sport := bswap16 (TcpHdr.source ctx tcp)
        let dport := bswap16 (TcpHdr.dest ctx tcp)
        let currentBucket := bucketOf pc.nowNs
        let valid := (List.range VALID_BUCKETS).any fun i =>
          let bucket := currentBucket.saturatingSub (UInt64.ofNat i)
          match verifySecret m.cookieSecrets bucket with
          | some secret => cookieFor saddr daddr sport dport bucket secret mssIdx = expected
          | none => false
        if valid then (some .pass, { m with synProxyConn := m.synProxyConn.remove src })
        else (none, m)

end EShield.Ebpf
