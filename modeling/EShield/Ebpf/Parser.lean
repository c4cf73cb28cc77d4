import EShield.Common.Pure

/-!
# Packet memory and headers

`XdpContext` is the packet buffer of one program run. A header pointer is its offset into the
buffer: the accessors read the field the pointer's type has there, so that a read after a rewrite
sees the rewritten bytes. Multi-byte loads and stores are those of a little-endian host.
-/

namespace EShield.Ebpf

/-- The packet buffer: `mem i` is the byte at `data + i`, `len` is `data_end - data`. -/
structure XdpContext where
  mem : Nat → UInt8
  len : Nat

/-- The verdicts the program can return. -/
inductive XdpAction where
  | drop
  | pass
  | tx
  deriving DecidableEq, Repr

namespace XdpContext

def ofBytes (bytes : List UInt8) : XdpContext := ⟨fun i => bytes.getD i 0, bytes.length⟩

/-- `ptr_at::<T>` with `size_of::<T>() = size`. -/
def ptrAt (ctx : XdpContext) (size offset : Nat) : Option Nat :=
  if offset + size > ctx.len then none else some offset

def u8 (ctx : XdpContext) (p : Nat) : UInt8 := ctx.mem p

def u16 (ctx : XdpContext) (p : Nat) : UInt16 :=
  (ctx.mem p).toUInt16 ||| ((ctx.mem (p + 1)).toUInt16 <<< 8)

def u32 (ctx : XdpContext) (p : Nat) : UInt32 :=
  (ctx.u16 p).toUInt32 ||| ((ctx.u16 (p + 2)).toUInt32 <<< 16)

def u64 (ctx : XdpContext) (p : Nat) : UInt64 :=
  (ctx.u32 p).toUInt64 ||| ((ctx.u32 (p + 4)).toUInt64 <<< 32)

/-- Sixteen bytes as one big-endian number. -/
def addr16 (ctx : XdpContext) (p : Nat) : BitVec 128 :=
  (List.range 16).foldl (fun acc i => (acc <<< 8) ||| (ctx.mem (p + i)).toBitVec.setWidth 128) 0

def setU8 (ctx : XdpContext) (p : Nat) (v : UInt8) : XdpContext :=
  { ctx with mem := Function.update ctx.mem p v }

def setU16 (ctx : XdpContext) (p : Nat) (v : UInt16) : XdpContext :=
  (ctx.setU8 p v.toUInt8).setU8 (p + 1) (v >>> 8).toUInt8

def setU32 (ctx : XdpContext) (p : Nat) (v : UInt32) : XdpContext :=
  (ctx.setU16 p v.toUInt16).setU16 (p + 2) (v >>> 16).toUInt16

/-- `mem::swap` of the two disjoint fields of `n` bytes at `p` and `q`. -/
def swap (ctx : XdpContext) (p q n : Nat) : XdpContext :=
  { ctx with
    mem := fun i =>
      if p ≤ i ∧ i < p + n then ctx.mem (q + (i - p))
      else if q ≤ i ∧ i < q + n then ctx.mem (p + (i - q))
      else ctx.mem i }

/-- The native words of `n` bytes from `p` on. -/
def words (ctx : XdpContext) (p n : Nat) : List UInt32 :=
  (List.range (n / 4)).map fun i => ctx.u32 (p + 4 * i)

end XdpContext

/-! ## Header layouts -/

def ETH_HDR_LEN : Nat := 14
def IP_HDR_LEN : Nat := 20
def IPV6_HDR_LEN : Nat := 40
def TCP_HDR_LEN : Nat := 20
def UDP_HDR_LEN : Nat := 8

/-- `u16::to_be(0x0800)`. -/
def ETH_P_IP : UInt16 := bswap16 0x0800

/-- `u16::to_be(0x86dd)`. -/
def ETH_P_IPV6 : UInt16 := bswap16 0x86dd

def IPPROTO_TCP : UInt8 := 6
def IPPROTO_UDP : UInt8 := 17
def IPPROTO_ICMP : UInt8 := 1
def IPPROTO_ICMPV6 : UInt8 := 58

def TCP_FLAG_SYN : UInt8 := 0x02
def TCP_FLAG_RST : UInt8 := 0x04
def TCP_FLAG_ACK : UInt8 := 0x10

/-- A SYN that is not a SYN+ACK. -/
def isSynFlags (flags : UInt8) : Bool := flags &&& TCP_FLAG_SYN != 0 && flags &&& TCP_FLAG_ACK == 0

def isAckOrRstFlags (flags : UInt8) : Bool :=
  flags &&& TCP_FLAG_ACK != 0 || flags &&& TCP_FLAG_RST != 0

namespace EthHdr

/-- Offsets of `dst` and `src`. -/
def dst (eth : Nat) : Nat := eth
def src (eth : Nat) : Nat := eth + 6

def proto (ctx : XdpContext) (eth : Nat) : UInt16 := ctx.u16 (eth + 12)

end EthHdr

namespace IpHdr

def verIhl (ctx : XdpContext) (ip : Nat) : UInt8 := ctx.u8 ip
def totLen (ctx : XdpContext) (ip : Nat) : UInt16 := ctx.u16 (ip + 2)
def fragOff (ctx : XdpContext) (ip : Nat) : UInt16 := ctx.u16 (ip + 6)
def ttl (ctx : XdpContext) (ip : Nat) : UInt8 := ctx.u8 (ip + 8)
def proto (ctx : XdpContext) (ip : Nat) : UInt8 := ctx.u8 (ip + 9)
def check (ctx : XdpContext) (ip : Nat) : UInt16 := ctx.u16 (ip + 10)
def saddr (ctx : XdpContext) (ip : Nat) : UInt32 := ctx.u32 (ip + 12)
def daddr (ctx : XdpContext) (ip : Nat) : UInt32 := ctx.u32 (ip + 16)

/-- Header length in bytes, from the low four bits of the first byte. -/
def hdrLen (ctx : XdpContext) (ip : Nat) : Nat := (verIhl ctx ip &&& 0x0f).toNat * 4

end IpHdr

namespace Ipv6Hdr

def nextHeader (ctx : XdpContext) (ip : Nat) : UInt8 := ctx.u8 (ip + 6)
def saddr (ctx : XdpContext) (ip : Nat) : BitVec 128 := ctx.addr16 (ip + 8)
def daddr (ctx : XdpContext) (ip : Nat) : BitVec 128 := ctx.addr16 (ip + 24)

end Ipv6Hdr

namespace TcpHdr

def source (ctx : XdpContext) (tcp : Nat) : UInt16 := ctx.u16 tcp
def dest (ctx : XdpContext) (tcp : Nat) : UInt16 := ctx.u16 (tcp + 2)
def seq (ctx : XdpContext) (tcp : Nat) : UInt32 := ctx.u32 (tcp + 4)
def ackSeq (ctx : XdpContext) (tcp : Nat) : UInt32 := ctx.u32 (tcp + 8)
def doffFlags (ctx : XdpContext) (tcp : Nat) : UInt16 := ctx.u16 (tcp + 12)
def check (ctx : XdpContext) (tcp : Nat) : UInt16 := ctx.u16 (tcp + 16)

def doff (ctx : XdpContext) (tcp : Nat) : UInt8 := (bswap16 (doffFlags ctx tcp) >>> 12).toUInt8

def flags (ctx : XdpContext) (tcp : Nat) : UInt8 :=
  (bswap16 (doffFlags ctx tcp) &&& 0x3f).toUInt8

def isSyn (ctx : XdpContext) (tcp : Nat) : Bool := isSynFlags (flags ctx tcp)

/-- Header length in bytes. -/
def hdrLen (ctx : XdpContext) (tcp : Nat) : Nat := (doff ctx tcp).toNat * 4

end TcpHdr

namespace UdpHdr

def source (ctx : XdpContext) (udp : Nat) : UInt16 := ctx.u16 udp
def dest (ctx : XdpContext) (udp : Nat) : UInt16 := ctx.u16 (udp + 2)

end UdpHdr

/-- `u32::to_ne_bytes` of a loaded address: its four bytes in memory order. -/
def toNeBytes (x : UInt32) : BitVec 32 := (bswap32 x).toBitVec

/-! ## Kernel helpers -/

/-- What the kernel helpers answer in one program run. -/
structure Helpers where
  /-- `bpf_get_prandom_u32`. -/
  prandomU32 : UInt32 := 0
  /-- The clock when a drop event is emitted. -/
  eventKtimeNs : UInt64 := 0
  /-- The driver lets `bpf_xdp_adjust_tail` move the end of this frame. -/
  tailAdjustable : Bool := true
  /-- Room behind the frame. -/
  tailroom : Nat := 0
  /-- EVENTS and PACKET_SAMPLES have no room for a record. -/
  eventsFull : Bool := false
  samplesFull : Bool := false

/-- `bpf_xdp_adjust_tail`: moves the end of the frame by `delta`, never below the Ethernet header
nor beyond the tailroom; bytes it adds are zero. -/
def bpfXdpAdjustTail (h : Helpers) (ctx : XdpContext) (delta : Int) : Option XdpContext :=
  let newLen : Int := ctx.len + delta
  if !h.tailAdjustable ∨ newLen < ETH_HDR_LEN ∨ delta > h.tailroom then none
  else
    some
      { mem := fun i => if ctx.len ≤ i ∧ (i : Int) < newLen then 0 else ctx.mem i
        len := newLen.toNat }

/-- Ones'-complement addition of 32-bit words: the carry goes round. -/
def csumAdd (a b : UInt32) : UInt32 :=
  .ofNat ((a.toNat + b.toNat) % 2 ^ 32 + (a.toNat + b.toNat) / 2 ^ 32)

/-- `bpf_csum_diff(null, 0, to, to_size, seed)`: accumulates the words of `to`; a size that is not
a multiple of four is refused. -/
def bpfCsumDiff (toSize : Nat) (toWords : List UInt32) (seed : UInt32) : Option UInt32 :=
  if toSize % 4 ≠ 0 then none else some (toWords.foldl csumAdd seed)

/-- Folds the 32-bit accumulator into the checksum to write. -/
def finalizeCsum (sum : UInt32) : UInt16 :=
  let v := (sum &&& (0xffff : UInt32)) + (sum >>> 16)
  let v := (v &&& (0xffff : UInt32)) + (v >>> 16)
  let r := ~~~v.toUInt16
  if r = 0 then 0xffff else r

end EShield.Ebpf
