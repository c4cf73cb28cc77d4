import EShield.Ebpf.Blacklist

/-!
# Rate counters

The decaying per-source counter shared by the flood modules and the global rate limit, the modules
that compare it with the modulated threshold, and the fixed-window counter of a destination port.
-/

namespace EShield.Ebpf

/-- What a counter update reports. -/
structure RateUpdate where
  counter : UInt64
  threshold : UInt64
  blockDurationS : UInt64

/-- `base * trust / 1000 * danger / 1000`, dividing first where the product could overflow. -/
def modulateThreshold (base trustF dangerF : UInt64) : UInt64 :=
  let safeMax : UInt64 := 0xffffffffffffffff / 1000
  let step1 := if base > safeMax then base / 1000 * trustF else base * trustF / 1000
  if step1 > safeMax then step1 / 1000 * dangerF else step1 * dangerF / 1000

/-- The counter after one more packet at `nowNs`. Only whole ticks are taken off the elapsed time. -/
def countPacket (cfg : RateLimitConfig) (tickNs nowNs : UInt64) (prev : Option RateCounter) :
    RateCounter :=
  match prev with
  | some entry =>
    let elapsedNs := nowNs.saturatingSub entry.lastDecayNs
    let decayed := decayCounter entry.counter elapsedNs tickNs cfg.decayNum cfg.decayDen
    let ticks := elapsedNs / tickNs
    { counter := decayed.saturatingAdd 1
      lastDecayNs := min (entry.lastDecayNs + ticks * tickNs) nowNs }
  | none => { counter := 1, lastDecayNs := nowNs }

/-- The threshold for `src` under the trust score and the danger level. -/
def effectiveThreshold (m : Maps) (src : IpKey) : UInt64 :=
  if m.config.trustEnabled ≠ 0 then
    modulateThreshold m.rateLimitCfg.threshold (trustFactor m src) (dangerFactor m.config.dangerLevel)
  else m.rateLimitCfg.threshold

/-- The report on an updated counter. -/
def rateUpdate (m : Maps) (src : IpKey) (updated : RateCounter) : RateUpdate :=
  { counter := updated.counter
    threshold := effectiveThreshold m src
    blockDurationS := m.rateLimitCfg.blockDurationS }

/-- Counts a packet of `src` in RATE_MAP; no tick length, no count. -/
def updateRateCounter (m : Maps) (src : IpKey) (nowNs : UInt64) : Option RateUpdate × Maps :=
  let tickNs := msToNs m.rateLimitCfg.tickMs
  if tickNs = 0 then (none, m)
  else
    let updated := countPacket m.rateLimitCfg tickNs nowNs (m.rateMap src)
    let m := { m with rateMap := m.rateMap.insert src updated }
    (some (rateUpdate m src updated), m)

/-- The same for RATE_MAP_PORT, by source and destination port. -/
def updateRateCounterPort (m : Maps) (src : IpKey) (dport : UInt16) (nowNs : UInt64) :
    Option RateUpdate × Maps :=
  let tickNs := msToNs m.rateLimitCfg.tickMs
  if tickNs = 0 then (none, m)
  else
    let key : RateLimitPortKey := { ip := src, dport := bswap16 dport }
    let updated := countPacket m.rateLimitCfg tickNs nowNs (m.rateMapPort key)
    let m := { m with rateMapPort := m.rateMapPort.insert key updated }
    (some (rateUpdate m src updated), m)

/-- Acts on an update: over the threshold the packet is refused and, unless `soft`, its source
blacklisted for `reason`. -/
def enforceRate (r : Option RateUpdate × Maps) (src : IpKey) (nowNs : UInt64) (reason : UInt16)
    (soft : Bool) : Bool × Maps :=
  match r with
  | (none, m) => (false, m)
  | (some update, m) =>
    if update.counter > update.threshold then
      (true, if soft then m else addToBlacklist m src nowNs update.blockDurationS reason.toUInt8)
    else (false, m)

/-- SYN flood detection; it does not consult the soft mode. -/
def handleSynFlood (m : Maps) (src : IpKey) (tcpFlags : UInt8) (nowNs : UInt64) : Bool × Maps :=
  if !isSynFlags tcpFlags then (false, m)
  else enforceRate (updateRateCounter m src nowNs) src nowNs rules.SYN_FLOOD false

def handleUdpFlood (m : Maps) (src : IpKey) (nowNs : UInt64) : Bool × Maps :=
  if m.config.udpFloodEnabled = 0 then (false, m)
  else
    enforceRate (updateRateCounter m src nowNs) src nowNs rules.UDP_FLOOD
      (m.config.rateLimitSoft != 0)

def handleIcmpFlood (m : Maps) (src : IpKey) (nowNs : UInt64) : Bool × Maps :=
  if m.config.icmpFloodEnabled = 0 then (false, m)
  else
    enforceRate (updateRateCounter m src nowNs) src nowNs rules.ICMP_FLOOD
      (m.config.rateLimitSoft != 0)

/-- The global rate limit, per source or per source and port. -/
def checkRateLimit (m : Maps) (src : IpKey) (dport : UInt16) (nowNs : UInt64) : Bool × Maps :=
  if m.config.rateLimitEnabled = 0 then (false, m)
  else
    let updated :=
      if m.config.rateLimitDportGrouping ≠ 0 then updateRateCounterPort m src dport nowNs
      else updateRateCounter m src nowNs
    enforceRate updated src nowNs rules.RATE_LIMIT (m.config.rateLimitSoft != 0)

/-- Fixed-window counter of a protocol and destination port. -/
def checkPortRate (m : Maps) (key : PortRateKey) (nowNs : UInt64) : Bool × Maps :=
  let cfg := m.portRateLimitCfg
  let windowNs := msToNs cfg.tickMs
  if windowNs = 0 then (false, m)
  else
    let updated : RateCounter :=
      match m.portRateMap key with
      | some entry =>
        if nowNs.saturatingSub entry.lastDecayNs < windowNs then
          { counter := entry.counter.saturatingAdd 1, lastDecayNs := entry.lastDecayNs }
        else { counter := 1, lastDecayNs := nowNs }
      | none => { counter := 1, lastDecayNs := nowNs }
    let m := { m with portRateMap := m.portRateMap.insert key updated }
    (decide (updated.counter > cfg.threshold), m)

/-- Half-open connections of a source; an entry that drops to zero is removed. -/
def checkConnTrack (m : Maps) (src : IpKey) (tcpFlags : UInt8) (nowNs : UInt64)
    (threshold : UInt32) (windowMs : UInt64) : Bool × Maps :=
  let isSyn := isSynFlags tcpFlags
  let isAckOrRst := isAckOrRstFlags tcpFlags
  if !isSyn && !isAckOrRst then (false, m)
  else
    let windowNs := msToNs windowMs
    let entry := (m.connTrack src).getD { lastSeenNs := 0, halfOpen := 0 }
    let step :=
      connTrackStep entry.halfOpen entry.lastSeenNs nowNs isSyn isAckOrRst threshold windowNs
    let connTrack :=
      if step.halfOpen = 0 then m.connTrack.remove src
      else m.connTrack.insert src { lastSeenNs := step.lastSeenNs, halfOpen := step.halfOpen }
    (step.drop, { m with connTrack := connTrack })

/-- First-match evaluation of the port ACL table. -/
def checkPortAcl (m : Maps) (protocol : UInt8) (dport : UInt16) (count : UInt8) : Bool :=
  let verdict := (List.range count.toNat).findSome? fun i =>
    match m.portAcl[i]? with
    | some entry =>
      matchPortAclEntry protocol dport entry.protocol (bswap16 entry.dportLow)
        (bswap16 entry.dportHigh) entry.action
    | none => none
  verdict = some .drop

/-- Matches the first eight bytes of a TCP payload against the L7 patterns. -/
def scan (m : Maps) (ctx : XdpContext) (ipHdrLen : Nat) (protocol : UInt8) (patternCount : UInt8) :
    Bool :=
  if m.config.l7ScanEnabled = 0 then false
  else if protocol ≠ 6 then false
  else
    match ctx.ptrAt TCP_HDR_LEN (ETH_HDR_LEN + ipHdrLen) with
    | none => false
    | some tcp =>
      let payloadOff := ETH_HDR_LEN + ipHdrLen + TcpHdr.hdrLen ctx tcp
      if payloadOff + 8 > ctx.len then false
      else
        let chunk := ctx.u64 payloadOff
        (List.range patternCount.toNat).any fun i =>
          match m.l7Patterns[i]? with
          | some pat => pat.length ≠ 0 ∧ chunk &&& pat.mask = pat.signature &&& pat.mask
          | none => false

end EShield.Ebpf
