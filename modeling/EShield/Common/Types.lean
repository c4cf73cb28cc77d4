import EShield.Lib.Saturating

/-!
# Shared data types

The structures that the data plane (`eshield-ebpf`) and the control plane (`eshield`) exchange
through the BPF maps, and the constants of `eshield-common`. Padding bytes, which every
constructor of the source sets to zero, are left out.
-/

namespace EShield

/-- Address family. -/
inductive IpFamily where
  | ipv4
  | ipv6
  deriving DecidableEq, Repr

/-- `IpFamily as u8`. -/
def IpFamily.toU8 : IpFamily → UInt8
  | ipv4 => 4
  | ipv6 => 6

def IpFamily.fromU8 (v : UInt8) : Option IpFamily :=
  if v = 4 then some ipv4 else if v = 6 then some ipv6 else none

/-- The key of every per-source map: family and sixteen address bytes. `addr` is those bytes read
as one big-endian number, an IPv4 address taking the last four. -/
structure IpKey where
  family : UInt8
  addr : BitVec 128
  deriving DecidableEq, Repr

namespace IpKey

/-- `octets` are the four bytes in memory order, the first one most significant. -/
def fromIpv4 (octets : BitVec 32) : IpKey := ⟨IpFamily.ipv4.toU8, octets.setWidth 128⟩

def fromIpv6 (addr : BitVec 128) : IpKey := ⟨IpFamily.ipv6.toU8, addr⟩

def ipFamily (k : IpKey) : Option IpFamily := IpFamily.fromU8 k.family

/-- The IPv4 address, meaningful when the family is IPv4. -/
def ipv4 (k : IpKey) : BitVec 32 := k.addr.setWidth 32

/-- Keys are ordered as their seventeen bytes are: by family, then by address. -/
instance : Ord IpKey := ⟨compareLex (compareOn IpKey.family) (compareOn IpKey.addr)⟩

instance : Std.TransOrd IpKey := inferInstanceAs (Std.TransCmp (compareLex _ _))

instance : Std.LawfulEqOrd IpKey where
  eq_of_compare {a b} h := by
    obtain ⟨hfamily, haddr⟩ := compareLex_eq_eq.1 h
    cases a
    cases b
    simp_all [compareOn]

end IpKey

/-! ## Rule identifiers -/

namespace rules

def UNKNOWN : UInt16 := 0
def BLACKLIST : UInt16 := 1
def RATE_LIMIT : UInt16 := 2
def SYN_FLOOD : UInt16 := 3
def L7_PATTERN : UInt16 := 4
def ADAPTIVE : UInt16 := 5
def API_BLOCK : UInt16 := 6
def PORT_ACL : UInt16 := 7
def UDP_FLOOD : UInt16 := 8
def ICMP_FLOOD : UInt16 := 9
def GEOIP : UInt16 := 10
def THREAT_INTEL : UInt16 := 11
def PROJECT_POLICY : UInt16 := 12
def CONN_TRACK : UInt16 := 13
def FRAGMENT : UInt16 := 14
def PORT_RATE : UInt16 := 15

end rules

/-! ## Blacklist and trust entries -/

/-- A blacklist entry. -/
structure BlockEntry where
  blockedUntilNs : UInt64
  firstSeenNs : UInt64
  hitCount : UInt32
  /-- First (authoritative) reason. -/
  blockReason : UInt8
  /-- Last reason laid over it, 0 if none. -/
  lastReason : UInt8
  deriving DecidableEq, Repr

/-- `blocked_until_ns == 0` means a permanent block. -/
def BLOCK_PERMANENT : UInt64 := 0

/-- The reputation of one source, `trustScore` in 0..=1000. -/
structure TrustEntry where
  lastUpdateNs : UInt64 := 0
  trustScore : UInt32 := 0
  passCount : UInt32 := 0
  dropCount : UInt32 := 0
  level : UInt8 := 0
  deriving DecidableEq, Repr

def TRUST_MAX : UInt32 := 1000
def TRUST_MIN : UInt32 := 0
def TRUST_ADD_DIVISOR : UInt32 := 100
def TRUST_SUB_DIVISOR : UInt32 := 3
def TRUST_DEFAULT : UInt32 := 500

/-- Half-open connection count of one source. -/
structure ConnTrackEntry where
  lastSeenNs : UInt64
  halfOpen : UInt32
  deriving DecidableEq, Repr

def MAX_PORT_ACL : Nat := 32
def MAX_L7_PATTERNS : Nat := 8

/-- Exponentially decaying packet counter. -/
structure RateCounter where
  counter : UInt64
  lastDecayNs : UInt64
  deriving DecidableEq, Repr

/-! ## Statistics and configuration -/

/-- The statistics of one CPU. -/
structure GlobalStats where
  totalPackets : UInt64 := 0
  totalDropped : UInt64 := 0
  totalPassed : UInt64 := 0
  synFloodBlocked : UInt64 := 0
  rateLimited : UInt64 := 0
  l7Blocked : UInt64 := 0
  udpFloodBlocked : UInt64 := 0
  icmpFloodBlocked : UInt64 := 0
  geoipBlocked : UInt64 := 0
  blacklistBlocked : UInt64 := 0
  tcpRstSent : UInt64 := 0
  tcpRstFail : UInt64 := 0
  tcpRstAttempt : UInt64 := 0
  tcpDropped : UInt64 := 0
  udpDropped : UInt64 := 0
  icmpDropped : UInt64 := 0
  otherDropped : UInt64 := 0
  blacklistGen : UInt64 := 0
  blacklistHitGen : UInt64 := 0
  fragmentBlocked : UInt64 := 0
  portRateBlocked : UInt64 := 0
  connTrackBlocked : UInt64 := 0
  trustPassSample : UInt32 := 0
  trustDropSample : UInt32 := 0
  blacklistHitSample : UInt32 := 0
  topAttackerSample : UInt32 := 0
  deriving DecidableEq, Repr

/-- The runtime configuration the data plane reads from the CONFIG map. -/
structure RuntimeConfig where
  trustAddDivisor : UInt32 := 0
  trustSubDivisor : UInt32 := 0
  connTrackThreshold : UInt32 := 0
  connTrackWindowMs : UInt64 := 0
  packetLogSampleRate : UInt16 := 0
  rateLimitEnabled : UInt8 := 0
  synProxyEnabled : UInt8 := 0
  l7ScanEnabled : UInt8 := 0
  udpFloodEnabled : UInt8 := 0
  icmpFloodEnabled : UInt8 := 0
  geoipEnabled : UInt8 := 0
  /-- 0 = pass (block list only), 1 = drop (allow list only). -/
  geoipDefaultAction : UInt8 := 0
  tcpResetOnDrop : UInt8 := 0
  trustEnabled : UInt8 := 0
  dangerLevel : UInt8 := 0
  packetLogEnabled : UInt8 := 0
  projectEnabled : UInt8 := 0
  portAclCount : UInt8 := 0
  l7PatternCount : UInt8 := 0
  portRateLimitEnabled : UInt8 := 0
  connTrackEnabled : UInt8 := 0
  rateLimitDportGrouping : UInt8 := 0
  /-- Non-first fragments: 0 = pass, 1 = rate limit, 2 = drop. -/
  fragmentPolicy : UInt8 := 0
  /-- 0 = hard (blacklist), 1 = soft (drop only). -/
  rateLimitSoft : UInt8 := 0
  deriving DecidableEq, Repr

structure RateLimitConfig where
  threshold : UInt64 := 200
  tickMs : UInt64 := 100
  decayNum : UInt64 := 7
  decayDen : UInt64 := 8
  blockDurationS : UInt64 := 300
  deriving DecidableEq, Repr

/-- SYN cookie secrets of the current and of the previous time bucket. A secret is the number whose
little-endian bytes are the sixteen bytes of the source. -/
structure CookieSecret where
  current : BitVec 128
  previous : BitVec 128
  bucketIndex : UInt64
  deriving DecidableEq, Repr

/-- One L7 signature: eight bytes read as a little-endian number, with its mask. -/
structure L7Pattern where
  signature : UInt64 := 0
  mask : UInt64 := 0
  length : UInt8 := 0
  action : UInt8 := 0
  deriving DecidableEq, Repr

/-- One port ACL rule; the ports are in network byte order. -/
structure PortAclEntry where
  protocol : UInt8 := 0
  dportLow : UInt16 := 0
  dportHigh : UInt16 := 0
  /-- 1 = allow, 2 = drop. -/
  action : UInt8 := 0
  deriving DecidableEq, Repr

/-- Key of a protection project; `addr` and `dport` in network byte order. -/
structure ProjectPolicyKey where
  addr : UInt32
  dport : UInt16
  protocol : UInt8
  deriving DecidableEq, Repr

structure ProjectPolicy where
  flags : UInt16
  action : UInt8
  deriving DecidableEq, Repr

namespace project_modules

def SYN_FLOOD : UInt16 := (1 : UInt16) <<< 0
def UDP_FLOOD : UInt16 := (1 : UInt16) <<< 1
def ICMP_FLOOD : UInt16 := (1 : UInt16) <<< 2
def RATE_LIMIT : UInt16 := (1 : UInt16) <<< 3
def ADAPTIVE : UInt16 := (1 : UInt16) <<< 4
def L7_SCAN : UInt16 := (1 : UInt16) <<< 5
def GEOIP : UInt16 := (1 : UInt16) <<< 6
def TCP_RESET : UInt16 := (1 : UInt16) <<< 7
def PORT_ACL : UInt16 := (1 : UInt16) <<< 8
def CONN_TRACK : UInt16 := (1 : UInt16) <<< 9

end project_modules

namespace project_action

def PASS : UInt8 := 1
def DROP : UInt8 := 2
def DEFEND : UInt8 := 3

end project_action

/-- Source address and destination port, for grouped rate limiting. -/
structure RateLimitPortKey where
  ip : IpKey
  dport : UInt16
  deriving DecidableEq, Repr

/-- Protocol and destination port in network byte order. -/
structure PortRateKey where
  dport : UInt16
  protocol : UInt8
  deriving DecidableEq, Repr

def PROJECT_FLAGS_ALL : UInt16 := 0xffff

/-! ## Ring buffer records -/

structure DropEvent where
  timestampNs : UInt64
  srcIp : BitVec 128
  family : UInt8
  protocol : UInt8
  ruleId : UInt16
  dstPort : UInt16
  deriving DecidableEq, Repr

structure PacketSample where
  timestampNs : UInt64
  srcIp : BitVec 128
  dstIp : BitVec 128
  family : UInt8
  protocol : UInt8
  srcPort : UInt16
  dstPort : UInt16
  /-- 0 = drop, 1 = pass. -/
  action : UInt8
  ruleId : UInt16
  packetLen : UInt16
  payloadBytes : UInt8
  payloadSample : List UInt8
  deriving DecidableEq, Repr

end EShield
