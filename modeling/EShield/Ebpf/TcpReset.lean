import EShield.Ebpf.Maps

/-!
# TCP reset replies

Turns a dropped IPv4 TCP packet into a RST|ACK sent back out of the same interface. Every failure
falls back to a silent drop, and the frame keeps whatever rewrite was made by then.
-/

namespace EShield.Ebpf

def RST_PKT_LEN : UInt16 := 40

/-- The ones'-complement sum of a packet region, if it lies inside the frame. -/
def csum (ctx : XdpContext) (offset len : Nat) (seed : UInt32) : Option UInt32 :=
  if offset + len > ctx.len then none else bpfCsumDiff len (ctx.words offset len) seed

/-- The sum of the IPv4 pseudo-header; its last word has the bytes `[0, proto, 0, len]`. -/
def pseudoSum (ctx : XdpContext) (ip : Nat) (tcpHdrLen : Nat) : Option UInt32 := do
  let sum ← bpfCsumDiff 4 [IpHdr.saddr ctx ip] 0
  let sum ← bpfCsumDiff 4 [IpHdr.daddr ctx ip] sum
  bpfCsumDiff 4 [((6 : UInt32) <<< 8) ||| (UInt32.ofNat tcpHdrLen <<< 24)] sum

/-- The header rewrite of a reset, checksums still zero. -/
def rewriteRst (ctx : XdpContext) (eth ip tcp : Nat) : XdpContext :=
  let ctx := ctx.swap (EthHdr.src eth) (EthHdr.dst eth) 6
  let ctx := ctx.swap (ip + 12) (ip + 16) 4
  let ctx := ctx.swap tcp (tcp + 2) 2
  let incomingSeq := bswap32 (TcpHdr.seq ctx tcp)
  let ctx := ctx.setU32 (tcp + 4) 0
  let ctx := ctx.setU32 (tcp + 8) (bswap32 (incomingSeq + 1))
  let flags := TCP_FLAG_RST ||| TCP_FLAG_ACK
  let ctx := ctx.setU16 (tcp + 12) (bswap16 (((5 : UInt16) <<< 12) ||| flags.toUInt16))
  let ctx := ctx.setU16 (tcp + 14) 0
  let ctx := ctx.setU16 (tcp + 18) 0
  let ctx := ctx.setU16 (ip + 10) 0
  let ctx := ctx.setU16 (tcp + 16) 0
  ctx.setU16 (ip + 2) (bswap16 RST_PKT_LEN)

/-- The frame after the attempt, and whether the reset is ready to be sent. -/
def buildRst (h : Helpers) (ctx : XdpContext) : Bool × XdpContext :=
  let delta : Int := (ETH_HDR_LEN + 40 : Nat) - ctx.len
  match bpfXdpAdjustTail h ctx delta with
  | none => (false, ctx)
  | some ctx =>
    match ctx.ptrAt ETH_HDR_LEN 0, ctx.ptrAt IP_HDR_LEN ETH_HDR_LEN,
      ctx.ptrAt TCP_HDR_LEN (ETH_HDR_LEN + IP_HDR_LEN) with
    | some eth, some ip, some tcp =>
      if IpHdr.proto ctx ip ≠ IPPROTO_TCP then (false, ctx)
      else
        let ctx := rewriteRst ctx eth ip tcp
        match csum ctx ETH_HDR_LEN IP_HDR_LEN 0 with
        | none => (false, ctx)
        | some ipCheck =>
          let ctx := ctx.setU16 (ip + 10) (finalizeCsum ipCheck)
          match (pseudoSum ctx ip TCP_HDR_LEN).bind
            (csum ctx (ETH_HDR_LEN + IP_HDR_LEN) TCP_HDR_LEN) with
          | none => (false, ctx)
          | some tcpCheck => (true, ctx.setU16 (tcp + 16) (finalizeCsum tcpCheck))
    | _, _, _ => (false, ctx)

/-- Answers with a reset when the IP header has 20 bytes, else drops. -/
def replyTcpRst (h : Helpers) (ctx : XdpContext) (m : Maps) (ipHdrLen : Nat) :
    XdpAction × XdpContext × Maps :=
  if ipHdrLen = IP_HDR_LEN then
    match buildRst h ctx with
    | (true, ctx) => (.tx, ctx, m.withStats fun s => { s with tcpRstSent := s.tcpRstSent + 1 })
    | (false, ctx) => (.drop, ctx, m.withStats fun s => { s with tcpRstFail := s.tcpRstFail + 1 })
  else (.drop, ctx, m.withStats fun s => { s with tcpRstFail := s.tcpRstFail + 1 })

end EShield.Ebpf
