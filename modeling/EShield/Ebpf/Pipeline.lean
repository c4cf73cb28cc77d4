import EShield.Ebpf.SynCookie

/-!
# The XDP program

Parsing, the detection stages in their order, and the entry point `tryEshield`. A stage answers
`none` for `NO_ACTION`; the first one that acts ends the run.
-/

namespace EShield.Ebpf

/-- What the main flow carries from stage to stage. -/
structure PacketCtx where
  src : IpKey
  protocol : UInt8
  ipHdrLen : Nat
  sport : UInt16 := 0
  dport : UInt16 := 0
  tcpResetOnDrop : UInt8 := 0
  trustAddDivisor : UInt32 := TRUST_ADD_DIVISOR
  trustSubDivisor : UInt32 := TRUST_SUB_DIVISOR
  nowNs : UInt64 := 0
  ruleId : UInt16 := rules.UNKNOWN
  /-- Some flood module has counted this packet in RATE_MAP. -/
  rateCounted : Bool := false
  /-- A non-first IPv4 fragment, which has no L4 header. -/
  fragment : Bool := false
  /-- Modules the protection project keeps on. -/
  projectFlags : UInt16 := PROJECT_FLAGS_ALL

/-- A packet on its way through the stages. -/
structure PacketState where
  pc : PacketCtx
  maps : Maps
  ctx : XdpContext

/-! ## Parsing -/

/-- Source and destination port, zero for a protocol without ports; `none` when the header is cut
off. -/
def readPorts (ctx : XdpContext) (transportOffset : Nat) (protocol : UInt8) :
    Option (UInt16 × UInt16) :=
  if protocol = IPPROTO_TCP then
    (ctx.ptrAt TCP_HDR_LEN transportOffset).map fun tcp =>
      (bswap16 (TcpHdr.source ctx tcp), bswap16 (TcpHdr.dest ctx tcp))
  else if protocol = IPPROTO_UDP then
    (ctx.ptrAt UDP_HDR_LEN transportOffset).map fun udp =>
      (bswap16 (UdpHdr.source ctx udp), bswap16 (UdpHdr.dest ctx udp))
  else some (0, 0)

/-- The low 13 bits of `frag_off` are not zero. -/
def isFragment (ctx : XdpContext) (ip : Nat) : Bool :=
  bswap16 (IpHdr.fragOff ctx ip) &&& 0x1fff != 0

def parseIpv4 (ctx : XdpContext) : Option PacketCtx :=
  (ctx.ptrAt IP_HDR_LEN ETH_HDR_LEN).bind fun ip =>
    let len := IpHdr.hdrLen ctx ip
    if len < IP_HDR_LEN then none
    else
      let pc : PacketCtx :=
        { src := srcKey (IpHdr.saddr ctx ip), protocol := IpHdr.proto ctx ip, ipHdrLen := len }
      if isFragment ctx ip then some { pc with fragment := true }
      else
        (readPorts ctx (ETH_HDR_LEN + len) pc.protocol).map fun ports =>
          { pc with sport := ports.1, dport := ports.2 }

def parseIpv6 (ctx : XdpContext) : Option PacketCtx :=
  (ctx.ptrAt IPV6_HDR_LEN ETH_HDR_LEN).bind fun ip =>
    let protocol := Ipv6Hdr.nextHeader ctx ip
    (readPorts ctx (ETH_HDR_LEN + IPV6_HDR_LEN) protocol).map fun ports =>
      { src := .fromIpv6 (Ipv6Hdr.saddr ctx ip), protocol := protocol, ipHdrLen := IPV6_HDR_LEN
        sport := ports.1, dport := ports.2 }

/-- Parses the frame; `none` is every way in which the program lets it through unseen. -/
def parse (ctx : XdpContext) : Option PacketCtx :=
  (ctx.ptrAt ETH_HDR_LEN 0).bind fun eth =>
    if EthHdr.proto ctx eth = ETH_P_IP then parseIpv4 ctx
    else if EthHdr.proto ctx eth = ETH_P_IPV6 then parseIpv6 ctx
    else none

/-! ## Lookups by source -/

/-- Looks `src` up with its full length in the trie of its family. -/
def lpmContains (v4 : LpmTrie 32 UInt8) (v6 : LpmTrie 128 UInt8) (src : IpKey) : Bool :=
  match src.ipFamily with
  | some .ipv4 => (v4.get ⟨32, src.ipv4⟩).isSome
  | some .ipv6 => (v6.get ⟨128, src.addr⟩).isSome
  | none => false

def isWhitelisted (m : Maps) (src : IpKey) : Bool := lpmContains m.whitelistV4 m.whitelistV6 src

def isGeoipBlocked (m : Maps) (src : IpKey) : Bool :=
  lpmContains m.geoipBlockedV4 m.geoipBlockedV6 src

def isGeoipAllowed (m : Maps) (src : IpKey) : Bool :=
  lpmContains m.geoipAllowedV4 m.geoipAllowedV6 src

/-! ## Dropping -/

def incProtocolDropped (stats : GlobalStats) (protocol : UInt8) : GlobalStats :=
  if protocol = IPPROTO_TCP then { stats with tcpDropped := stats.tcpDropped + 1 }
  else if protocol = IPPROTO_UDP then { stats with udpDropped := stats.udpDropped + 1 }
  else if protocol = IPPROTO_ICMP ∨ protocol = IPPROTO_ICMPV6 then
    { stats with icmpDropped := stats.icmpDropped + 1 }
  else { stats with otherDropped := stats.otherDropped + 1 }

/-- Writes a drop event if the ring buffer has room. -/
def emitDropEvent (h : Helpers) (pc : PacketCtx) (m : Maps) : Maps :=
  if h.eventsFull then m
  else
    { m with
      events := m.events ++
        [{ timestampNs := h.eventKtimeNs, srcIp := pc.src.addr, family := pc.src.family
           protocol := pc.protocol, ruleId := pc.ruleId, dstPort := pc.dport }] }

/-- The bookkeeping of a drop, then a reset for TCP if that is configured. -/
def dropPacket (h : Helpers) (s : PacketState) : XdpAction × PacketState :=
  let pc := s.pc
  let m := s.maps.withStats fun stats =>
    { stats with
      tcpRstAttempt :=
        if pc.protocol = IPPROTO_TCP then stats.tcpRstAttempt + 1 else stats.tcpRstAttempt
      topAttackerSample := stats.topAttackerSample + 1 }
  let due := m.globalStats.topAttackerSample &&& 0xf = 0
  let m := trustDrop m pc.src pc.nowNs pc.trustSubDivisor
  let m :=
    if due then
      let prev := (m.topAttackers pc.src).getD 0
      { m with topAttackers := m.topAttackers.insert pc.src (prev.saturatingAdd 16) }
    else m
  let m := if pc.ruleId ≠ rules.BLACKLIST then emitDropEvent h pc m else m
  if pc.tcpResetOnDrop ≠ 0 ∧ pc.protocol = IPPROTO_TCP then
    let r := replyTcpRst h s.ctx m pc.ipHdrLen
    (r.1, { pc := pc, maps := r.2.2, ctx := r.2.1 })
  else (.drop, { pc := pc, maps := m, ctx := s.ctx })

/-- A stage's drop: its rule, its own counter and that of `protocol`, then `dropPacket`. -/
def dropAs (h : Helpers) (ruleId : UInt16) (count : GlobalStats → GlobalStats) (protocol : UInt8)
    (s : PacketState) : Option XdpAction × PacketState :=
  let s :=
    { s with
      pc := { s.pc with ruleId := ruleId }
      maps := s.maps.withStats fun stats =>
        incProtocolDropped (count { stats with totalDropped := stats.totalDropped + 1 }) protocol }
  let r := dropPacket h s
  (some r.1, r.2)

/-- The bookkeeping of a packet let through. -/
def countPassed (m : Maps) (pc : PacketCtx) : Maps :=
  trustPassSampled (m.withStats fun stats => { stats with totalPassed := stats.totalPassed + 1 })
    pc.src pc.nowNs pc.trustAddDivisor

/-! ## Stages -/

def checkPortAclDrop (h : Helpers) (aclCount : UInt8) (s : PacketState) :
    Option XdpAction × PacketState :=
  if aclCount = 0 ∨ s.pc.fragment then (none, s)
  else if checkPortAcl s.maps s.pc.protocol s.pc.dport aclCount then
    dropAs h rules.PORT_ACL id s.pc.protocol s
  else (none, s)

def checkBlacklistDrop (h : Helpers) (s : PacketState) : Option XdpAction × PacketState :=
  match isBlacklisted s.maps s.pc.src s.pc.nowNs with
  | (true, m) =>
    dropAs h rules.BLACKLIST (fun st => { st with blacklistBlocked := st.blacklistBlocked + 1 })
      s.pc.protocol { s with maps := m }
  | (false, m) => (none, { s with maps := m })

/-- Counts the packet against a destination port (already in network order) and drops it for
`ruleId` when the window is full. -/
def portRateDrop (h : Helpers) (ruleId : UInt16) (count : GlobalStats → GlobalStats)
    (protocol : UInt8) (dport : UInt16) (s : PacketState) : Option XdpAction × PacketState :=
  match checkPortRate s.maps { protocol := s.pc.protocol, dport := dport } s.pc.nowNs with
  | (true, m) => dropAs h ruleId count protocol { s with maps := m }
  | (false, m) => (none, { s with maps := m })

def countFragment (st : GlobalStats) : GlobalStats :=
  { st with fragmentBlocked := st.fragmentBlocked + 1 }

def countPortRate (st : GlobalStats) : GlobalStats :=
  { st with portRateBlocked := st.portRateBlocked + 1 }

/-- Non-first fragments: let through, limited by protocol, or dropped. -/
def checkFragmentDrop (h : Helpers) (policy portRateEnabled : UInt8) (s : PacketState) :
    Option XdpAction × PacketState :=
  if !s.pc.fragment ∨ policy = 0 then (none, s)
  else if policy = 2 then dropAs h rules.FRAGMENT countFragment s.pc.protocol s
  else if portRateEnabled ≠ 0 then
    portRateDrop h rules.FRAGMENT countFragment s.pc.protocol 0 s
  else (none, s)

/-- The project of a destination: exact, any protocol, any port, any of both. -/
def lookupProject (m : Maps) (addr : UInt32) (dport : UInt16) (protocol : UInt8) :
    Option ProjectPolicy :=
  [(dport, protocol), (dport, 0), (0, protocol), (0, 0)].findSome? fun k =>
    m.projectPolicy { addr := addr, dport := k.1, protocol := k.2 }

def checkProjectPolicy (h : Helpers) (s : PacketState) : Option XdpAction × PacketState :=
  if s.maps.config.projectEnabled = 0 ∨ s.pc.fragment then (none, s)
  else if s.pc.src.ipFamily ≠ some .ipv4 then (none, s)
  else
    match s.ctx.ptrAt IP_HDR_LEN ETH_HDR_LEN with
    | none => (none, s)
    | some ip =>
      match lookupProject s.maps (IpHdr.daddr s.ctx ip) (bswap16 s.pc.dport) s.pc.protocol with
      | none => (none, s)
      | some policy =>
        if policy.action = project_action.PASS then
          let pc := { s.pc with ruleId := rules.PROJECT_POLICY }
          (some .pass, { s with pc := pc, maps := countPassed s.maps pc })
        else if policy.action = project_action.DROP then
          dropAs h rules.PROJECT_POLICY id s.pc.protocol s
        else if policy.action = project_action.DEFEND then
          let flags := if policy.flags = 0 then PROJECT_FLAGS_ALL else policy.flags
          (none, { s with pc := { s.pc with projectFlags := flags } })
        else (none, s)

def checkGeoipDrop (h : Helpers) (geoipEnabled geoipDefaultAction : UInt8) (s : PacketState) :
    Option XdpAction × PacketState :=
  if geoipEnabled = 0 ∨ s.pc.projectFlags &&& project_modules.GEOIP = 0 then (none, s)
  else if isGeoipBlocked s.maps s.pc.src ∨
      (geoipDefaultAction = 1 ∧ !isGeoipAllowed s.maps s.pc.src) then
    dropAs h rules.GEOIP (fun st => { st with geoipBlocked := st.geoipBlocked + 1 })
      s.pc.protocol s
  else (none, s)

def checkConnTrackDrop (h : Helpers) (enabled : UInt8) (threshold : UInt32) (windowMs : UInt64)
    (s : PacketState) : Option XdpAction × PacketState :=
  if enabled = 0 ∨ s.pc.fragment ∨ s.pc.protocol ≠ IPPROTO_TCP ∨
      s.pc.projectFlags &&& project_modules.CONN_TRACK = 0 then
    (none, s)
  else
    match s.ctx.ptrAt TCP_HDR_LEN (ETH_HDR_LEN + s.pc.ipHdrLen) with
    | none => (none, s)
    | some tcp =>
      match checkConnTrack s.maps s.pc.src (TcpHdr.flags s.ctx tcp) s.pc.nowNs (max threshold 1)
        (max windowMs 1) with
      | (true, m) =>
        dropAs h rules.CONN_TRACK (fun st => { st with connTrackBlocked := st.connTrackBlocked + 1 })
          IPPROTO_TCP { s with maps := m }
      | (false, m) => (none, { s with maps := m })

def countSynFlood (st : GlobalStats) : GlobalStats :=
  { st with synFloodBlocked := st.synFloodBlocked + 1 }

/-- The SYN proxy: challenges SYNs of sources over the rate, lets the ACKs that answer pass. -/
def synProxy (h : Helpers) (s : PacketState) : Option XdpAction × PacketState :=
  match s.ctx.ptrAt IP_HDR_LEN ETH_HDR_LEN with
  | none => (some .pass, s)
  | some ip =>
    match s.ctx.ptrAt TCP_HDR_LEN (ETH_HDR_LEN + s.pc.ipHdrLen) with
    | none => (none, s)
    | some tcp =>
      let s :=
        if TcpHdr.isSyn s.ctx tcp then { s with pc := { s.pc with rateCounted := true } } else s
      let pcr : PacketCtxRef := { ipHdrLen := s.pc.ipHdrLen, nowNs := s.pc.nowNs }
      match handleSyn h s.ctx s.maps pcr ip tcp with
      | (some action, ctx, m) =>
        let m := m.withStats fun st =>
          let st := countSynFlood st
          if action ≠ .tx then
            incProtocolDropped { st with totalDropped := st.totalDropped + 1 } IPPROTO_TCP
          else st
        (some action, { pc := { s.pc with ruleId := rules.SYN_FLOOD }, maps := m, ctx := ctx })
      | (none, ctx, m) =>
        match handleAck ctx m pcr ip tcp with
        | (some action, m) => (some action, { pc := s.pc, maps := countPassed m s.pc, ctx := ctx })
        | (none, m) => (none, { pc := s.pc, maps := m, ctx := ctx })

/-- SYN flood detection without the proxy, then the limit of the destination port. -/
def synFloodDrop (h : Helpers) (portRateEnabled : UInt8) (s : PacketState) :
    Option XdpAction × PacketState :=
  let counted :=
    match s.ctx.ptrAt TCP_HDR_LEN (ETH_HDR_LEN + s.pc.ipHdrLen) with
    | some tcp =>
      let pc := if TcpHdr.isSyn s.ctx tcp then { s.pc with rateCounted := true } else s.pc
      let r := handleSynFlood s.maps s.pc.src (TcpHdr.flags s.ctx tcp) s.pc.nowNs
      (r.1, { s with pc := pc, maps := r.2 })
    | none => (false, s)
  match counted with
  | (true, s) => dropAs h rules.SYN_FLOOD countSynFlood IPPROTO_TCP s
  | (false, s) =>
    if portRateEnabled ≠ 0 ∧ s.pc.projectFlags &&& project_modules.SYN_FLOOD ≠ 0 then
      portRateDrop h rules.PORT_RATE countPortRate IPPROTO_TCP (bswap16 s.pc.dport) s
    else (none, s)

def checkTcpDrop (h : Helpers) (synProxyEnabled portRateEnabled : UInt8) (s : PacketState) :
    Option XdpAction × PacketState :=
  if s.pc.projectFlags &&& project_modules.SYN_FLOOD = 0 ∨ s.pc.fragment then (none, s)
  else if s.pc.src.family = IpFamily.ipv4.toU8 ∧ synProxyEnabled ≠ 0 then synProxy h s
  else synFloodDrop h portRateEnabled s

/-- The common shape of the UDP and the ICMP stage: the flood module, which counts the packet in
RATE_MAP, then the limit of the destination port. -/
def floodDrop (h : Helpers) (enabled portRateEnabled : UInt8) (module : UInt16)
    (handleFlood : Maps → IpKey → UInt64 → Bool × Maps) (ruleId : UInt16)
    (count : GlobalStats → GlobalStats) (dport : UInt16) (s : PacketState) :
    Option XdpAction × PacketState :=
  let active := s.pc.projectFlags &&& module ≠ 0
  let counted :=
    if enabled ≠ 0 ∧ active then
      let r := handleFlood s.maps s.pc.src s.pc.nowNs
      (r.1, { s with pc := { s.pc with rateCounted := true }, maps := r.2 })
    else (false, s)
  match counted with
  | (true, s) => dropAs h ruleId count s.pc.protocol s
  | (false, s) =>
    if portRateEnabled ≠ 0 ∧ active then
      portRateDrop h rules.PORT_RATE countPortRate s.pc.protocol dport s
    else (none, s)

def checkUdpDrop (h : Helpers) (udpFloodEnabled portRateEnabled : UInt8) (s : PacketState) :
    Option XdpAction × PacketState :=
  if s.pc.protocol ≠ IPPROTO_UDP ∨ s.pc.fragment then (none, s)
  else
    floodDrop h udpFloodEnabled portRateEnabled project_modules.UDP_FLOOD handleUdpFlood
      rules.UDP_FLOOD (fun st => { st with udpFloodBlocked := st.udpFloodBlocked + 1 })
      (bswap16 s.pc.dport) s

def checkIcmpDrop (h : Helpers) (icmpFloodEnabled portRateEnabled : UInt8) (s : PacketState) :
    Option XdpAction × PacketState :=
  if (s.pc.protocol ≠ IPPROTO_ICMP ∧ s.pc.protocol ≠ IPPROTO_ICMPV6) ∨ s.pc.fragment then (none, s)
  else
    floodDrop h icmpFloodEnabled portRateEnabled project_modules.ICMP_FLOOD handleIcmpFlood
      rules.ICMP_FLOOD (fun st => { st with icmpFloodBlocked := st.icmpFloodBlocked + 1 }) 0 s

def checkL7Drop (h : Helpers) (patternCount : UInt8) (s : PacketState) :
    Option XdpAction × PacketState :=
  if patternCount = 0 ∨ s.pc.projectFlags &&& project_modules.L7_SCAN = 0 ∨ s.pc.fragment then
    (none, s)
  else if scan s.maps s.ctx s.pc.ipHdrLen s.pc.protocol patternCount then
    dropAs h rules.L7_PATTERN (fun st => { st with l7Blocked := st.l7Blocked + 1 }) s.pc.protocol s
  else (none, s)

def checkRateLimitDrop (h : Helpers) (s : PacketState) : Option XdpAction × PacketState :=
  if s.pc.projectFlags &&& project_modules.RATE_LIMIT = 0 then (none, s)
  else if s.pc.rateCounted then (none, s)
  else
    match checkRateLimit s.maps s.pc.src s.pc.dport s.pc.nowNs with
    | (true, m) =>
      dropAs h rules.RATE_LIMIT (fun st => { st with rateLimited := st.rateLimited + 1 })
        s.pc.protocol { s with maps := m }
    | (false, m) => (none, { s with maps := m })

/-! ## Packet samples -/

/-- The L4 header length that `logPacketSample` skips. -/
def l4HdrLen (s : PacketState) : Option Nat :=
  if s.pc.protocol = IPPROTO_TCP then
    (s.ctx.ptrAt TCP_HDR_LEN (ETH_HDR_LEN + s.pc.ipHdrLen)).map (TcpHdr.hdrLen s.ctx)
  else if s.pc.protocol = IPPROTO_UDP ∨ s.pc.protocol = IPPROTO_ICMP ∨
      s.pc.protocol = IPPROTO_ICMPV6 then
    some 8
  else some 0

/-- The destination address as the frame holds it now. -/
def sampleDstIp (s : PacketState) : BitVec 128 :=
  match s.pc.src.ipFamily with
  | some .ipv4 =>
    match s.ctx.ptrAt IP_HDR_LEN ETH_HDR_LEN with
    | some ip => (toNeBytes (IpHdr.daddr s.ctx ip)).setWidth 128
    | none => 0
  | some .ipv6 =>
    match s.ctx.ptrAt IPV6_HDR_LEN ETH_HDR_LEN with
    | some ip => Ipv6Hdr.daddr s.ctx ip
    | none => 0
  | none => 0

/-- Writes a sample of the packet at the configured rate. The payload is copied only when its first
64 bytes lie inside the frame. -/
def logPacketSample (h : Helpers) (action : XdpAction) (s : PacketState) : PacketState :=
  let runtime := s.maps.config
  if runtime.packetLogEnabled = 0 ∨ runtime.packetLogSampleRate = 0 then s
  else if h.prandomU32 % runtime.packetLogSampleRate.toUInt32 ≠ 0 then s
  else
    match l4HdrLen s with
    | none => s
    | some l4 =>
      if h.samplesFull then s
      else
        let payloadOff := ETH_HDR_LEN + s.pc.ipHdrLen + l4
        let full := payloadOff + 64 ≤ s.ctx.len
        let sample : PacketSample :=
          { timestampNs := s.pc.nowNs
            srcIp := s.pc.src.addr
            dstIp := sampleDstIp s
            family := s.pc.src.family
            protocol := s.pc.protocol
            srcPort := s.pc.sport
            dstPort := s.pc.dport
            action := if action = .pass then 1 else 0
            ruleId := s.pc.ruleId
            packetLen := UInt16.ofNat s.ctx.len
            payloadBytes := if full then 64 else 0
            payloadSample :=
              if full then (List.range 64).map fun j => s.ctx.mem (payloadOff + j)
              else List.replicate 64 0 }
        { s with maps := { s.maps with packetSamples := s.maps.packetSamples ++ [sample] } }

/-! ## Entry point -/

/-- The stages behind the whitelist, in the order in which they are asked. The blacklist comes
before the projects, so that a project's PASS does not let a blocked source through. -/
def stages (h : Helpers) (runtime : RuntimeConfig) :
    List (PacketState → Option XdpAction × PacketState) :=
  [ checkPortAclDrop h (min runtime.portAclCount 32),
    checkBlacklistDrop h,
    checkFragmentDrop h runtime.fragmentPolicy runtime.portRateLimitEnabled,
    checkProjectPolicy h,
    checkGeoipDrop h runtime.geoipEnabled runtime.geoipDefaultAction,
    checkConnTrackDrop h runtime.connTrackEnabled runtime.connTrackThreshold
      runtime.connTrackWindowMs,
    fun s =>
      if s.pc.protocol = IPPROTO_TCP then
        checkTcpDrop h runtime.synProxyEnabled runtime.portRateLimitEnabled s
      else (none, s),
    checkUdpDrop h runtime.udpFloodEnabled runtime.portRateLimitEnabled,
    checkIcmpDrop h runtime.icmpFloodEnabled runtime.portRateLimitEnabled,
    fun s =>
      if runtime.l7ScanEnabled ≠ 0 then checkL7Drop h (min runtime.l7PatternCount 8) s
      else (none, s),
    checkRateLimitDrop h ]

/-- Asks the stages one after the other until one acts, and samples the packet it acted on. -/
def runStages (h : Helpers) :
    List (PacketState → Option XdpAction × PacketState) → PacketState →
    Option XdpAction × PacketState
  | [], s => (none, s)
  | stage :: rest, s =>
    match stage s with
    | (some action, s) => (some action, logPacketSample h action s)
    | (none, s) => runStages h rest s

/-- The program on one frame: its verdict, the frame it leaves and the maps. -/
def tryEshield (h : Helpers) (nowNs : UInt64) (ctx : XdpContext) (m : Maps) :
    XdpAction × XdpContext × Maps :=
  match parse ctx with
  | none => (.pass, ctx, m)
  | some pc =>
    let m := m.withStats fun st => { st with totalPackets := st.totalPackets + 1 }
    let runtime := m.config
    let pc :=
      { pc with
        nowNs := nowNs
        tcpResetOnDrop := runtime.tcpResetOnDrop
        trustAddDivisor := max runtime.trustAddDivisor 1
        trustSubDivisor := max runtime.trustSubDivisor 1 }
    if isWhitelisted m pc.src then (.pass, ctx, countPassed m pc)
    else
      match runStages h (stages h runtime) { pc := pc, maps := m, ctx := ctx } with
      | (some action, s) => (action, s.ctx, s.maps)
      | (none, s) => (.pass, s.ctx, countPassed s.maps s.pc)

end EShield.Ebpf
