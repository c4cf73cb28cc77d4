import EShield.Ebpf.Proofs.PipelineProofs

/-!
# What the stages do

A stage that does not act hands the packet on: the same frame, the same source and ports, and maps
that differ in its own entries only. What a stage does to the maps is said here once, by the part of
them that it leaves alone.
-/

namespace EShield.Ebpf

variable {s t u : PacketState}

/-! ## Parts of the maps -/

/-- The statistics that count packets by what became of them, without the others. -/
def tallyOf (s : GlobalStats) : GlobalStats :=
  { totalPackets := s.totalPackets
    totalDropped := s.totalDropped
    totalPassed := s.totalPassed
    tcpDropped := s.tcpDropped
    udpDropped := s.udpDropped
    icmpDropped := s.icmpDropped
    otherDropped := s.otherDropped }

def tallyPassed (s : GlobalStats) : GlobalStats := { s with totalPassed := s.totalPassed + 1 }

def tallyDropped (s : GlobalStats) (protocol : UInt8) : GlobalStats :=
  incProtocolDropped { s with totalDropped := s.totalDropped + 1 } protocol

/-- The maps without the books that are kept about packets, except for the tally: no other
statistics, no top attackers, events, samples and trust. -/
def Maps.core (m : Maps) : Maps :=
  { m with
    globalStats := tallyOf m.globalStats
    topAttackers := .empty
    events := []
    packetSamples := []
    trustMap := .empty }

/-- The part of the maps that no module writes: what the control plane sets, and the tally. -/
def Maps.frame (m : Maps) : Maps :=
  { m.core with
    blacklist := .empty
    rateMap := .empty
    rateMapPort := .empty
    portRateMap := .empty
    synProxyConn := .empty
    connTrack := .empty }

theorem core_withStats (m : Maps) {f : GlobalStats → GlobalStats}
    (hf : ∀ st, tallyOf (f st) = tallyOf st) : (m.withStats f).core = m.core := by
  simp only [Maps.withStats, Maps.core, hf]

@[simp] theorem core_trustPassSampled (m : Maps) (src : IpKey) (nowNs : UInt64)
    (addDivisor : UInt32) : (trustPassSampled m src nowNs addDivisor).core = m.core := by
  simp only [trustPassSampled]
  split <;> rfl

@[simp] theorem core_trustDrop (m : Maps) (src : IpKey) (nowNs : UInt64) (subDivisor : UInt32) :
    (trustDrop m src nowNs subDivisor).core = m.core := by
  simp only [trustDrop]
  repeat' split
  all_goals rfl

@[simp] theorem core_emitDropEvent (h : Helpers) (pc : PacketCtx) (m : Maps) :
    (emitDropEvent h pc m).core = m.core := by
  unfold emitDropEvent
  split <;> rfl

@[simp] theorem core_replyTcpRst (h : Helpers) (ctx : XdpContext) (m : Maps) (ipHdrLen : Nat) :
    (replyTcpRst h ctx m ipHdrLen).2.2.core = m.core := by
  unfold replyTcpRst
  split
  · split <;> rfl
  · rfl

@[simp] theorem core_logPacketSample (h : Helpers) (action : XdpAction) (s : PacketState) :
    (logPacketSample h action s).maps.core = s.maps.core := by
  simp only [logPacketSample]
  repeat' split
  all_goals rfl

/-! ## Passing and dropping -/

/-- A packet that passes is counted. -/
theorem core_countPassed (m : Maps) (pc : PacketCtx) :
    (countPassed m pc).core = { m.core with globalStats := tallyPassed m.core.globalStats } := by
  rw [countPassed, core_trustPassSampled]
  rfl

@[simp] theorem core_dropPacket (h : Helpers) (s : PacketState) :
    (dropPacket h s).2.maps.core = s.maps.core := by
  have hdue : ∀ (m : Maps) (due : Prop) [Decidable due] (prev : UInt64),
      (if due then { m with topAttackers := m.topAttackers.insert s.pc.src prev } else m).core =
        m.core := by
    intro m due _ prev
    split <;> rfl
  have hemit : ∀ (m : Maps),
      (if s.pc.ruleId ≠ rules.BLACKLIST then emitDropEvent h s.pc m else m).core = m.core := by
    intro m
    split
    · exact core_emitDropEvent h s.pc m
    · rfl
  have hstats : ∀ (m : Maps) (attempt : GlobalStats → UInt64),
      (m.withStats fun stats =>
        { stats with
          tcpRstAttempt := attempt stats
          topAttackerSample := stats.topAttackerSample + 1 }).core = m.core :=
    fun m _ => core_withStats m fun _ => rfl
  simp only [dropPacket]
  split <;> simp only [core_replyTcpRst, hemit, hdue, core_trustDrop, hstats]

theorem tallyOf_incProtocolDropped (st : GlobalStats) (protocol : UInt8) :
    tallyOf (incProtocolDropped st protocol) = incProtocolDropped (tallyOf st) protocol := by
  simp only [incProtocolDropped]
  repeat' split
  all_goals rfl

theorem core_dropAs (h : Helpers) (ruleId : UInt16) {count : GlobalStats → GlobalStats}
    (hcount : ∀ st, tallyOf (count st) = tallyOf st) (protocol : UInt8) (s : PacketState) :
    (dropAs h ruleId count protocol s).2.maps.core =
      { s.maps.core with globalStats := tallyDropped s.maps.core.globalStats protocol } := by
  simp only [dropAs, core_dropPacket]
  simp only [Maps.core, Maps.withStats, tallyOf_incProtocolDropped, hcount]
  rfl

/-! ## What the modules change -/

theorem core_isBlacklisted (m : Maps) (src : IpKey) (nowNs : UInt64) :
    ∃ blacklist, (isBlacklisted m src nowNs).2.core = { m.core with blacklist := blacklist } := by
  unfold isBlacklisted
  split
  · split
    · dsimp only
      split <;> exact ⟨_, rfl⟩
    · exact ⟨_, rfl⟩
  · exact ⟨_, rfl⟩

theorem core_checkPortRate (m : Maps) (key : PortRateKey) (nowNs : UInt64) :
    ∃ portRateMap,
      (checkPortRate m key nowNs).2.core = { m.core with portRateMap := portRateMap } := by
  simp only [checkPortRate]
  split <;> exact ⟨_, rfl⟩

theorem core_checkConnTrack (m : Maps) (src : IpKey) (tcpFlags : UInt8) (nowNs : UInt64)
    (threshold : UInt32) (windowMs : UInt64) :
    ∃ connTrack, (checkConnTrack m src tcpFlags nowNs threshold windowMs).2.core =
      { m.core with connTrack := connTrack } := by
  simp only [checkConnTrack]
  split <;> exact ⟨_, rfl⟩

theorem core_updateRateCounter (m : Maps) (src : IpKey) (nowNs : UInt64) :
    ∃ rateMap, (updateRateCounter m src nowNs).2.core = { m.core with rateMap := rateMap } := by
  simp only [updateRateCounter]
  split <;> exact ⟨_, rfl⟩

theorem core_updateRateCounterPort (m : Maps) (src : IpKey) (dport : UInt16) (nowNs : UInt64) :
    ∃ rateMapPort, (updateRateCounterPort m src dport nowNs).2.core =
      { m.core with rateMapPort := rateMapPort } := by
  simp only [updateRateCounterPort]
  split <;> exact ⟨_, rfl⟩

theorem core_enforceRate (r : Option RateUpdate × Maps) (src : IpKey) (nowNs : UInt64)
    (reason : UInt16) (soft : Bool) :
    ∃ blacklist, (enforceRate r src nowNs reason soft).2.core =
      { r.2.core with blacklist := blacklist } := by
  unfold enforceRate
  split
  · exact ⟨_, rfl⟩
  · split
    · dsimp only
      split <;> exact ⟨_, rfl⟩
    · exact ⟨_, rfl⟩

theorem core_isChallengedOrTrigger (m : Maps) (saddr : UInt32) (nowNs : UInt64) :
    ∃ rateMap synProxyConn, (isChallengedOrTrigger m saddr nowNs).2.core =
      { m.core with rateMap := rateMap, synProxyConn := synProxyConn } := by
  have htrigger : ∀ m : Maps, ∃ rateMap synProxyConn,
      (isChallengedOrTrigger.trigger nowNs (srcKey saddr) m).2.core =
        { m.core with rateMap := rateMap, synProxyConn := synProxyConn } := by
    intro m
    obtain ⟨rateMap, hcount⟩ := core_updateRateCounter m (srcKey saddr) nowNs
    simp only [isChallengedOrTrigger.trigger]
    split
    · rename_i update m' heq
      rw [heq] at hcount
      split
      · exact ⟨_, _, congrArg
          (fun m => { m with synProxyConn := m'.synProxyConn.insert (srcKey saddr) nowNs }) hcount⟩
      · exact ⟨_, _, hcount⟩
    · rename_i heq
      rw [heq] at hcount
      exact ⟨_, _, hcount⟩
  simp only [isChallengedOrTrigger]
  split
  · split
    · exact ⟨_, _, rfl⟩
    · exact htrigger _
  · exact htrigger _

theorem core_handleSyn (h : Helpers) (ctx : XdpContext) (m : Maps) (pc : PacketCtxRef)
    (ip tcp : Nat) :
    ∃ rateMap synProxyConn, (handleSyn h ctx m pc ip tcp).2.2.core =
      { m.core with rateMap := rateMap, synProxyConn := synProxyConn } := by
  have htrigger := core_isChallengedOrTrigger m (IpHdr.saddr ctx ip) pc.nowNs
  unfold handleSyn
  split
  · exact ⟨_, _, rfl⟩
  · split
    · rename_i heq
      rw [heq] at htrigger
      exact htrigger
    · rename_i heq
      rw [heq] at htrigger
      dsimp only
      repeat' split
      all_goals exact htrigger

theorem core_handleAck (ctx : XdpContext) (m : Maps) (pc : PacketCtxRef) (ip tcp : Nat) :
    ∃ synProxyConn, (handleAck ctx m pc ip tcp).2.core =
      { m.core with synProxyConn := synProxyConn } := by
  simp only [handleAck]
  repeat' split
  all_goals exact ⟨_, rfl⟩

theorem core_handleSynFlood (m : Maps) (src : IpKey) (tcpFlags : UInt8) (nowNs : UInt64) :
    ∃ rateMap blacklist, (handleSynFlood m src tcpFlags nowNs).2.core =
      { m.core with rateMap := rateMap, blacklist := blacklist } := by
  unfold handleSynFlood
  split
  · exact ⟨_, _, rfl⟩
  · obtain ⟨rateMap, hcount⟩ := core_updateRateCounter m src nowNs
    obtain ⟨blacklist, henforce⟩ :=
      core_enforceRate (updateRateCounter m src nowNs) src nowNs rules.SYN_FLOOD false
    exact ⟨rateMap, blacklist, by rw [henforce, hcount]⟩

/-- The handlers of the UDP and the ICMP flood differ in their switch and their reason. -/
def FloodHandler (handleFlood : Maps → IpKey → UInt64 → Bool × Maps)
    (enabled : RuntimeConfig → UInt8) (reason : UInt16) : Prop :=
  ∀ m src nowNs, handleFlood m src nowNs =
    if enabled m.config = 0 then (false, m)
    else
      enforceRate (updateRateCounter m src nowNs) src nowNs reason (m.config.rateLimitSoft != 0)

theorem handleUdpFlood_floodHandler :
    FloodHandler handleUdpFlood RuntimeConfig.udpFloodEnabled rules.UDP_FLOOD := fun _ _ _ => rfl

theorem handleIcmpFlood_floodHandler :
    FloodHandler handleIcmpFlood RuntimeConfig.icmpFloodEnabled rules.ICMP_FLOOD := fun _ _ _ => rfl

theorem FloodHandler.core {handleFlood : Maps → IpKey → UInt64 → Bool × Maps}
    {enabled : RuntimeConfig → UInt8} {reason : UInt16}
    (hflood : FloodHandler handleFlood enabled reason) (m : Maps) (src : IpKey) (nowNs : UInt64) :
    ∃ rateMap blacklist, (handleFlood m src nowNs).2.core =
      { m.core with rateMap := rateMap, blacklist := blacklist } := by
  rw [hflood m src nowNs]
  split
  · exact ⟨_, _, rfl⟩
  · obtain ⟨rateMap, hcount⟩ := core_updateRateCounter m src nowNs
    obtain ⟨blacklist, henforce⟩ := core_enforceRate (updateRateCounter m src nowNs) src nowNs
      reason (m.config.rateLimitSoft != 0)
    exact ⟨rateMap, blacklist, by rw [henforce, hcount]⟩

theorem core_checkRateLimit (m : Maps) (src : IpKey) (dport : UInt16) (nowNs : UInt64) :
    ∃ rateMap rateMapPort blacklist, (checkRateLimit m src dport nowNs).2.core =
      { m.core with rateMap := rateMap, rateMapPort := rateMapPort, blacklist := blacklist } := by
  simp only [checkRateLimit]
  split
  · exact ⟨_, _, _, rfl⟩
  · split
    · obtain ⟨rateMapPort, hcount⟩ := core_updateRateCounterPort m src dport nowNs
      obtain ⟨blacklist, henforce⟩ := core_enforceRate (updateRateCounterPort m src dport nowNs) src
        nowNs rules.RATE_LIMIT (m.config.rateLimitSoft != 0)
      exact ⟨m.rateMap, rateMapPort, blacklist, by rw [henforce, hcount]; rfl⟩
    · obtain ⟨rateMap, hcount⟩ := core_updateRateCounter m src nowNs
      obtain ⟨blacklist, henforce⟩ := core_enforceRate (updateRateCounter m src nowNs) src
        nowNs rules.RATE_LIMIT (m.config.rateLimitSoft != 0)
      exact ⟨rateMap, m.rateMapPort, blacklist, by rw [henforce, hcount]; rfl⟩

/-! ## Answers of a stage -/

/-- `t` is the packet `s` with a stage's work done on it: the same packet, and maps that differ in
what the modules write. -/
structure Worked (s t : PacketState) : Prop where
  ctx : t.ctx = s.ctx
  pc : t.pc =
    { s.pc with
      ruleId := t.pc.ruleId
      rateCounted := t.pc.rateCounted
      projectFlags := t.pc.projectFlags }
  frame : t.maps.frame = s.maps.frame

namespace Worked

theorem refl (s : PacketState) : Worked s s := ⟨rfl, rfl, rfl⟩

theorem trans (hst : Worked s t) (htu : Worked t u) : Worked s u where
  ctx := htu.ctx.trans hst.ctx
  pc := by
    rw [htu.pc, hst.pc]
  frame := htu.frame.trans hst.frame

theorem src (hst : Worked s t) : t.pc.src = s.pc.src := by
  rw [hst.pc]

theorem protocol (hst : Worked s t) : t.pc.protocol = s.pc.protocol := by
  rw [hst.pc]

theorem nowNs (hst : Worked s t) : t.pc.nowNs = s.pc.nowNs := by
  rw [hst.pc]

theorem dport (hst : Worked s t) : t.pc.dport = s.pc.dport := by
  rw [hst.pc]

theorem fragment (hst : Worked s t) : t.pc.fragment = s.pc.fragment := by
  rw [hst.pc]

theorem config (hst : Worked s t) : t.maps.config = s.maps.config :=
  (congrArg Maps.config hst.frame :)

theorem rateLimitCfg (hst : Worked s t) : t.maps.rateLimitCfg = s.maps.rateLimitCfg :=
  (congrArg Maps.rateLimitCfg hst.frame :)

theorem portRateLimitCfg (hst : Worked s t) : t.maps.portRateLimitCfg = s.maps.portRateLimitCfg :=
  (congrArg Maps.portRateLimitCfg hst.frame :)

theorem projectPolicy (hst : Worked s t) : t.maps.projectPolicy = s.maps.projectPolicy :=
  (congrArg Maps.projectPolicy hst.frame :)

theorem tally (hst : Worked s t) : t.maps.core.globalStats = s.maps.core.globalStats :=
  (congrArg Maps.globalStats hst.frame :)

end Worked

/-- How a stage answers once its work has made `t` of the packet: it goes on with `t`, or it passes
or drops the packet and counts that. -/
inductive Answers (t : PacketState) : Option XdpAction × PacketState → Prop where
  | goesOn : Answers t (none, t)
  | passes {u : PacketState}
    (hu : u.maps.core = { t.maps.core with globalStats := tallyPassed t.maps.core.globalStats }) :
    Answers t (some .pass, u)
  | drops {a : XdpAction} {u : PacketState} (ha : a ≠ .pass) (protocol : UInt8)
    (hu : u.maps.core =
      { t.maps.core with globalStats := tallyDropped t.maps.core.globalStats protocol }) :
    Answers t (some a, u)

/-- A stage that acts does not let the packet go on. -/
theorem acted_ne_goesOn {a : XdpAction} :
    ((some a, t) : Option XdpAction × PacketState) ≠ (none, u) :=
  fun heq => Option.some_ne_none a (congrArg Prod.fst heq)

theorem Answers.eq_of_none (ht : Answers t (none, u)) : u = t := by
  cases ht
  rfl

/-- An answer changes the statistics at most. -/
theorem Answers.core {r : Option XdpAction × PacketState} (hans : Answers t r) :
    ∃ globalStats, r.2.maps.core = { t.maps.core with globalStats := globalStats } := by
  cases hans with
  | goesOn => exact ⟨_, rfl⟩
  | passes hu => exact ⟨_, hu⟩
  | drops _ _ hu => exact ⟨_, hu⟩

/-- The sample that is taken of the packet changes nothing that the answer speaks of. -/
theorem Answers.sampled {a : XdpAction} (hans : Answers t (some a, u)) (h : Helpers) :
    Answers t (some a, logPacketSample h a u) := by
  cases hans with
  | passes hu => exact .passes ((core_logPacketSample h _ _).trans hu)
  | drops ha protocol hu => exact .drops ha protocol ((core_logPacketSample h _ _).trans hu)

theorem answers_dropAs (h : Helpers) (ruleId : UInt16) {count : GlobalStats → GlobalStats}
    (hcount : ∀ st, tallyOf (count st) = tallyOf st) (protocol : UInt8) (t : PacketState) :
    Answers t (dropAs h ruleId count protocol t) :=
  .drops (dropPacket_ne_pass h _) protocol (core_dropAs h ruleId hcount protocol t)

theorem checkPortAclDrop_answers (h : Helpers) (aclCount : UInt8) (s : PacketState) :
    Answers s (checkPortAclDrop h aclCount s) := by
  unfold checkPortAclDrop
  split
  · exact .goesOn
  · split
    · exact answers_dropAs h _ (by intro _; rfl) _ _
    · exact .goesOn

theorem checkBlacklistDrop_answers (h : Helpers) (s : PacketState) :
    Answers { s with maps := (isBlacklisted s.maps s.pc.src s.pc.nowNs).2 }
      (checkBlacklistDrop h s) := by
  unfold checkBlacklistDrop
  split
  · rename_i heq
    rw [heq]
    exact answers_dropAs h _ (by intro _; rfl) _ _
  · rename_i heq
    rw [heq]
    exact .goesOn

/-- The packet with its count against a destination port. -/
def portCounted (dport : UInt16) (s : PacketState) : PacketState :=
  { s with
    maps := (checkPortRate s.maps { protocol := s.pc.protocol, dport := dport } s.pc.nowNs).2 }

theorem portRateDrop_answers (h : Helpers) (ruleId : UInt16) {count : GlobalStats → GlobalStats}
    (hcount : ∀ st, tallyOf (count st) = tallyOf st) (protocol : UInt8) (dport : UInt16)
    (s : PacketState) :
    Answers (portCounted dport s) (portRateDrop h ruleId count protocol dport s) := by
  unfold portRateDrop portCounted
  split
  · rename_i heq
    rw [heq]
    exact answers_dropAs h _ hcount _ _
  · rename_i heq
    rw [heq]
    exact .goesOn

theorem checkFragmentDrop_answers (h : Helpers) (policy portRateEnabled : UInt8)
    (s : PacketState) :
    Answers s (checkFragmentDrop h policy portRateEnabled s) ∨
      s.pc.fragment = true ∧
        Answers (portCounted 0 s) (checkFragmentDrop h policy portRateEnabled s) := by
  unfold checkFragmentDrop
  split
  · exact .inl .goesOn
  · rename_i hfrag
    split
    · exact .inl (answers_dropAs h _ (by intro _; rfl) _ _)
    · split
      · refine .inr ⟨?_, portRateDrop_answers h _ (by intro _; rfl) _ _ _⟩
        simpa using fun h => hfrag (.inl h)
      · exact .inl .goesOn

/-- The packet under the flags of a project. -/
def withFlags (flags : UInt16) (s : PacketState) : PacketState :=
  { s with pc := { s.pc with projectFlags := flags } }

theorem checkProjectPolicy_answers (h : Helpers) (s : PacketState) :
    ∃ flags, Answers (withFlags flags s) (checkProjectPolicy h s) := by
  unfold checkProjectPolicy
  repeat' split
  all_goals first
    | exact ⟨s.pc.projectFlags, .goesOn⟩
    | exact ⟨s.pc.projectFlags, .passes (core_countPassed _ _)⟩
    | exact ⟨s.pc.projectFlags, answers_dropAs h _ (by intro _; rfl) _ s⟩
    | exact ⟨_, .goesOn⟩

theorem checkGeoipDrop_answers (h : Helpers) (geoipEnabled geoipDefaultAction : UInt8)
    (s : PacketState) : Answers s (checkGeoipDrop h geoipEnabled geoipDefaultAction s) := by
  unfold checkGeoipDrop
  split
  · exact .goesOn
  · split
    · exact answers_dropAs h _ (by intro _; rfl) _ _
    · exact .goesOn

theorem checkConnTrackDrop_answers (h : Helpers) (enabled : UInt8) (threshold : UInt32)
    (windowMs : UInt64) (s : PacketState) :
    ∃ m, (∃ connTrack, m.core = { s.maps.core with connTrack := connTrack }) ∧
      Answers { s with maps := m } (checkConnTrackDrop h enabled threshold windowMs s) := by
  unfold checkConnTrackDrop
  split
  · exact ⟨s.maps, ⟨_, rfl⟩, .goesOn⟩
  · split
    · exact ⟨s.maps, ⟨_, rfl⟩, .goesOn⟩
    · rename_i tcp _
      refine ⟨_, core_checkConnTrack s.maps s.pc.src (TcpHdr.flags s.ctx tcp) s.pc.nowNs
        (max threshold 1) (max windowMs 1), ?_⟩
      split
      · rename_i heq
        rw [heq]
        exact answers_dropAs h _ (by intro _; rfl) _ _
      · rename_i heq
        rw [heq]
        exact .goesOn

theorem checkL7Drop_answers (h : Helpers) (patternCount : UInt8) (s : PacketState) :
    Answers s (checkL7Drop h patternCount s) := by
  unfold checkL7Drop
  split
  · exact .goesOn
  · split
    · exact answers_dropAs h _ (by intro _; rfl) _ _
    · exact .goesOn

/-- The packet with its count in the SYN flood module. -/
def synCounted (tcp : Nat) (s : PacketState) : PacketState :=
  { s with
    pc := if TcpHdr.isSyn s.ctx tcp then { s.pc with rateCounted := true } else s.pc
    maps := (handleSynFlood s.maps s.pc.src (TcpHdr.flags s.ctx tcp) s.pc.nowNs).2 }

/-- The packet with its count in the UDP or ICMP flood module. -/
def floodCounted (handleFlood : Maps → IpKey → UInt64 → Bool × Maps) (s : PacketState) :
    PacketState :=
  { s with
    pc := { s.pc with rateCounted := true }
    maps := (handleFlood s.maps s.pc.src s.pc.nowNs).2 }

/-- The packet with its count in the global rate limit. -/
def rateLimited (s : PacketState) : PacketState :=
  { s with maps := (checkRateLimit s.maps s.pc.src s.pc.dport s.pc.nowNs).2 }

/-- The global limit counts the packets that no flood module has counted. -/
theorem checkRateLimitDrop_answers (h : Helpers) (s : PacketState) :
    ((s.pc.projectFlags &&& project_modules.RATE_LIMIT = 0 ∨ s.pc.rateCounted = true) ∧
        Answers s (checkRateLimitDrop h s)) ∨
      (s.pc.projectFlags &&& project_modules.RATE_LIMIT ≠ 0 ∧ s.pc.rateCounted = false ∧
        Answers (rateLimited s) (checkRateLimitDrop h s)) := by
  unfold checkRateLimitDrop rateLimited
  split
  · rename_i hflags
    exact .inl ⟨.inl hflags, .goesOn⟩
  · rename_i hflags
    split
    · rename_i hcounted
      exact .inl ⟨.inr hcounted, .goesOn⟩
    · rename_i hcounted
      refine .inr ⟨hflags, by simpa using hcounted, ?_⟩
      split
      · rename_i heq
        rw [heq]
        exact answers_dropAs h _ (by intro _; rfl) _ _
      · rename_i heq
        rw [heq]
        exact .goesOn

/-! ## The SYN proxy -/

/-- What the SYN proxy sees of the packet. -/
def PacketState.ref (s : PacketState) : PacketCtxRef :=
  { ipHdrLen := s.pc.ipHdrLen, nowNs := s.pc.nowNs }

/-- A challenge is sent, fails, or is not attempted and then leaves the frame as it is. -/
theorem synChallenge_cases (h : Helpers) (ctx : XdpContext) (m : Maps) (pc : PacketCtxRef)
    (ip tcp tcpHdrLen : Nat) :
    synChallenge h ctx m pc ip tcp tcpHdrLen = (none, ctx) ∨
      (synChallenge h ctx m pc ip tcp tcpHdrLen).1 = some .drop ∨
      (synChallenge h ctx m pc ip tcp tcpHdrLen).1 = some .tx := by
  simp only [synChallenge]
  split
  · exact .inl rfl
  · split
    · exact .inr (.inr rfl)
    · exact .inr (.inl rfl)

/-- A SYN is handed on with its frame as it is, dropped or challenged. -/
theorem handleSyn_cases (h : Helpers) (ctx : XdpContext) (m : Maps) (pc : PacketCtxRef)
    (ip tcp : Nat) :
    ((handleSyn h ctx m pc ip tcp).1 = none ∧ (handleSyn h ctx m pc ip tcp).2.1 = ctx) ∨
      (handleSyn h ctx m pc ip tcp).1 = some .drop ∨
      (handleSyn h ctx m pc ip tcp).1 = some .tx := by
  unfold handleSyn
  split
  · exact .inl ⟨rfl, rfl⟩
  split
  · exact .inl ⟨rfl, rfl⟩
  dsimp only
  split
  · exact .inr (.inl rfl)
  split
  · exact .inr (.inl rfl)
  split
  · exact .inr (.inl rfl)
  · refine (synChallenge_cases h ctx _ pc ip tcp _).imp_left fun hnone => ?_
    dsimp only
    rw [hnone]
    exact ⟨rfl, rfl⟩

/-- An ACK passes or is handed on. -/
theorem handleAck_cases (ctx : XdpContext) (m : Maps) (pc : PacketCtxRef) (ip tcp : Nat) :
    (handleAck ctx m pc ip tcp).1 = none ∨ (handleAck ctx m pc ip tcp).1 = some .pass := by
  simp only [handleAck]
  repeat' split
  all_goals simp

/-- The packet as `handleSyn` leaves it. -/
def synHandled (h : Helpers) (ip tcp : Nat) (s : PacketState) : PacketState :=
  { pc := if TcpHdr.isSyn s.ctx tcp then { s.pc with rateCounted := true } else s.pc
    maps := (handleSyn h s.ctx s.maps s.ref ip tcp).2.2
    ctx := s.ctx }

/-- The packet as `handleAck` leaves it. -/
def ackHandled (ip tcp : Nat) (s : PacketState) : PacketState :=
  { s with maps := (handleAck s.ctx s.maps s.ref ip tcp).2 }

/-- The SYN proxy on a frame with whole headers: a challenge is sent and not counted, or the packet is
dropped, or the ACK handler decides. -/
theorem synProxy_cases (h : Helpers) (s : PacketState) {ip tcp : Nat}
    (hip : s.ctx.ptrAt IP_HDR_LEN ETH_HDR_LEN = some ip)
    (htcp : s.ctx.ptrAt TCP_HDR_LEN (ETH_HDR_LEN + s.pc.ipHdrLen) = some tcp) :
    ((handleSyn h s.ctx s.maps s.ref ip tcp).1 = some .tx ∧ (synProxy h s).1 = some .tx ∧
        (synProxy h s).2.maps.core = (synHandled h ip tcp s).maps.core) ∨
      ((handleSyn h s.ctx s.maps s.ref ip tcp).1 = some .drop ∧ (synProxy h s).1 = some .drop ∧
        Answers (synHandled h ip tcp s) (synProxy h s)) ∨
      ((handleSyn h s.ctx s.maps s.ref ip tcp).1 = none ∧
        Answers (ackHandled ip tcp (synHandled h ip tcp s)) (synProxy h s)) := by
  obtain ⟨s₁, hs₁⟩ : ∃ s₁, (if TcpHdr.isSyn s.ctx tcp then
      { s with pc := { s.pc with rateCounted := true } } else s) = s₁ := ⟨_, rfl⟩
  have hctx : s₁.ctx = s.ctx := by rw [← hs₁]; split <;> rfl
  have hmaps : s₁.maps = s.maps := by rw [← hs₁]; split <;> rfl
  have href : s₁.ref = s.ref := by rw [← hs₁]; split <;> rfl
  have hpc : s₁.pc = (synHandled h ip tcp s).pc := by
    rw [← hs₁, synHandled]
    dsimp only
    split <;> rfl
  have hctx' := handleSyn_cases h s.ctx s.maps s.ref ip tcp
  obtain ⟨action, ctx', m', hsyn⟩ : ∃ action ctx' m',
      handleSyn h s.ctx s.maps s.ref ip tcp = (action, ctx', m') := ⟨_, _, _, rfl⟩
  have hhandled : synHandled h ip tcp s = { pc := s₁.pc, maps := m', ctx := s.ctx } := by
    rw [hpc, synHandled, hsyn]
  rw [hhandled]
  rw [hsyn] at hctx' ⊢
  unfold synProxy
  rw [hip]
  dsimp only
  rw [htcp]
  dsimp only
  rw [hs₁, hctx, hmaps, show { ipHdrLen := s₁.pc.ipHdrLen, nowNs := s₁.pc.nowNs } = s.ref from href,
    hsyn]
  dsimp only at hctx' ⊢
  rcases hctx' with ⟨rfl, rfl⟩ | rfl | rfl
  · refine .inr (.inr ⟨rfl, ?_⟩)
    rw [ackHandled, show PacketState.ref { pc := s₁.pc, maps := m', ctx := s.ctx } = s.ref from href]
    dsimp only
    have hack := handleAck_cases s.ctx m' s.ref ip tcp
    obtain ⟨answer, m'', heq⟩ : ∃ answer m'',
        handleAck s.ctx m' s.ref ip tcp = (answer, m'') := ⟨_, _, rfl⟩
    rw [heq] at hack ⊢
    dsimp only at hack ⊢
    rcases hack with rfl | rfl
    · exact .goesOn
    · exact .passes (core_countPassed _ _)
  · refine .inr (.inl ⟨rfl, rfl, ?_⟩)
    exact .drops (by decide) IPPROTO_TCP rfl
  · exact .inl ⟨rfl, rfl, core_withStats _ fun _ => rfl⟩

/-! ## The work of the stages -/

theorem worked_of_core {m : Maps} (hframe : m.frame = s.maps.frame) : Worked s { s with maps := m } :=
  ⟨rfl, rfl, hframe⟩

theorem worked_portCounted (dport : UInt16) (s : PacketState) : Worked s (portCounted dport s) := by
  obtain ⟨portRateMap, hcore⟩ :=
    core_checkPortRate s.maps { protocol := s.pc.protocol, dport := dport } s.pc.nowNs
  exact worked_of_core (by rw [Maps.frame, hcore]; rfl)

theorem worked_synCounted (tcp : Nat) (s : PacketState) : Worked s (synCounted tcp s) where
  ctx := rfl
  pc := by
    rw [synCounted]
    dsimp only
    split <;> rfl
  frame := by
    obtain ⟨rateMap, blacklist, hcore⟩ :=
      core_handleSynFlood s.maps s.pc.src (TcpHdr.flags s.ctx tcp) s.pc.nowNs
    rw [synCounted, Maps.frame, hcore]
    rfl

theorem worked_floodCounted {handleFlood : Maps → IpKey → UInt64 → Bool × Maps}
    {enabled : RuntimeConfig → UInt8} {reason : UInt16}
    (hflood : FloodHandler handleFlood enabled reason) (s : PacketState) :
    Worked s (floodCounted handleFlood s) where
  ctx := rfl
  pc := rfl
  frame := by
    obtain ⟨rateMap, blacklist, hcore⟩ := hflood.core s.maps s.pc.src s.pc.nowNs
    rw [floodCounted, Maps.frame, hcore]
    rfl

theorem worked_rateLimited (s : PacketState) : Worked s (rateLimited s) := by
  obtain ⟨rateMap, rateMapPort, blacklist, hcore⟩ :=
    core_checkRateLimit s.maps s.pc.src s.pc.dport s.pc.nowNs
  exact worked_of_core (by rw [Maps.frame, hcore]; rfl)

theorem worked_synHandled (h : Helpers) (ip tcp : Nat) (s : PacketState) :
    Worked s (synHandled h ip tcp s) where
  ctx := rfl
  pc := by
    rw [synHandled]
    dsimp only
    split <;> rfl
  frame := by
    obtain ⟨rateMap, synProxyConn, hcore⟩ := core_handleSyn h s.ctx s.maps s.ref ip tcp
    rw [synHandled, Maps.frame, hcore]
    rfl

theorem worked_ackHandled (ip tcp : Nat) (s : PacketState) : Worked s (ackHandled ip tcp s) := by
  obtain ⟨synProxyConn, hcore⟩ := core_handleAck s.ctx s.maps s.ref ip tcp
  exact worked_of_core (by rw [Maps.frame, hcore]; rfl)

/-! ## Runs -/

theorem runStages_append (h : Helpers)
    (pre post : List (PacketState → Option XdpAction × PacketState)) (s : PacketState) :
    runStages h (pre ++ post) s =
      match runStages h pre s with
      | (some action, t) => (some action, t)
      | (none, t) => runStages h post t := by
  induction pre generalizing s with
  | nil => rfl
  | cons f pre ih =>
    rw [List.cons_append, runStages, runStages]
    rcases f s with ⟨_ | action, t⟩
    · exact ih t
    · rfl

/-- If every stage does work of the kind `R` and answers, so does the run. -/
theorem runStages_answers (h : Helpers) {R : PacketState → PacketState → Prop}
    (hrefl : ∀ s, R s s) (htrans : ∀ {s t u}, R s t → R t u → R s u)
    (list : List (PacketState → Option XdpAction × PacketState))
    (hstage : ∀ f ∈ list, ∀ s, ∃ t, R s t ∧ Answers t (f s)) (s : PacketState) :
    ∃ t, R s t ∧ Answers t (runStages h list s) := by
  induction list generalizing s with
  | nil => exact ⟨s, hrefl s, .goesOn⟩
  | cons f list ih =>
    obtain ⟨t, hwork, hans⟩ := hstage f List.mem_cons_self s
    rw [runStages]
    generalize f s = r at hans
    cases hans with
    | goesOn =>
      obtain ⟨u, hu, hrest⟩ := ih (fun g hg => hstage g (List.mem_cons_of_mem f hg)) t
      exact ⟨u, htrans hwork hu, hrest⟩
    | passes hu => exact ⟨t, hwork, (Answers.passes hu).sampled h⟩
    | drops ha protocol hu => exact ⟨t, hwork, (Answers.drops ha protocol hu).sampled h⟩

/-! ## Parsed packets -/

/-- What the parser says of a frame of either family. -/
theorem parse_cases {ctx : XdpContext} {pc : PacketCtx} (hparse : parse ctx = some pc) :
    (EthHdr.proto ctx 0 = ETH_P_IP ∧ ETH_HDR_LEN + IP_HDR_LEN ≤ ctx.len ∧
        pc.src = srcKey (IpHdr.saddr ctx ETH_HDR_LEN) ∧
        pc.protocol = IpHdr.proto ctx ETH_HDR_LEN ∧
        pc.ipHdrLen = IpHdr.hdrLen ctx ETH_HDR_LEN) ∨
      (EthHdr.proto ctx 0 = ETH_P_IPV6 ∧ ETH_HDR_LEN + IPV6_HDR_LEN ≤ ctx.len ∧
        pc.src = .fromIpv6 (Ipv6Hdr.saddr ctx ETH_HDR_LEN) ∧
        pc.protocol = Ipv6Hdr.nextHeader ctx ETH_HDR_LEN ∧ pc.ipHdrLen = IPV6_HDR_LEN ∧
        pc.fragment = false) := by
  unfold parse at hparse
  obtain ⟨eth, heth, hparse⟩ := Option.bind_eq_some_iff.1 hparse
  obtain ⟨_, rfl⟩ := ptrAt_eq_some_iff.1 heth
  split at hparse
  · rename_i hproto
    obtain ⟨ip, hip, hparse⟩ := Option.bind_eq_some_iff.1 hparse
    obtain ⟨hlen, rfl⟩ := ptrAt_eq_some_iff.1 hip
    refine .inl ⟨hproto, hlen, ?_⟩
    dsimp only at hparse
    split at hparse
    · cases hparse
    split at hparse
    · cases hparse
      exact ⟨rfl, rfl, rfl⟩
    · obtain ⟨ports, _, rfl⟩ := Option.map_eq_some_iff.1 hparse
      exact ⟨rfl, rfl, rfl⟩
  · split at hparse
    · rename_i hproto
      obtain ⟨ip, hip, hparse⟩ := Option.bind_eq_some_iff.1 hparse
      obtain ⟨hlen, rfl⟩ := ptrAt_eq_some_iff.1 hip
      obtain ⟨ports, _, rfl⟩ := Option.map_eq_some_iff.1 hparse
      exact .inr ⟨hproto, hlen, rfl, rfl, rfl, rfl⟩
    · cases hparse

/-- The parser leaves the rest of the context as it is at the start. -/
theorem parse_fresh {ctx : XdpContext} {pc : PacketCtx} (hparse : parse ctx = some pc) :
    pc =
      { src := pc.src, protocol := pc.protocol, ipHdrLen := pc.ipHdrLen, sport := pc.sport
        dport := pc.dport, fragment := pc.fragment } := by
  unfold parse at hparse
  obtain ⟨eth, _, hparse⟩ := Option.bind_eq_some_iff.1 hparse
  split at hparse
  · obtain ⟨ip, _, hparse⟩ := Option.bind_eq_some_iff.1 hparse
    dsimp only at hparse
    split at hparse
    · cases hparse
    split at hparse
    · cases hparse
      rfl
    · obtain ⟨ports, _, rfl⟩ := Option.map_eq_some_iff.1 hparse
      rfl
  · split at hparse
    · obtain ⟨ip, _, hparse⟩ := Option.bind_eq_some_iff.1 hparse
      obtain ⟨ports, _, rfl⟩ := Option.map_eq_some_iff.1 hparse
      rfl
    · cases hparse

/-- A packet of an IPv4 source has its IP header in the frame. -/
theorem parse_ipv4 {ctx : XdpContext} {pc : PacketCtx} (hparse : parse ctx = some pc)
    (hfamily : pc.src.family = IpFamily.ipv4.toU8) :
    EthHdr.proto ctx 0 = ETH_P_IP ∧ ETH_HDR_LEN + IP_HDR_LEN ≤ ctx.len ∧
      pc.src = srcKey (IpHdr.saddr ctx ETH_HDR_LEN) ∧
      pc.protocol = IpHdr.proto ctx ETH_HDR_LEN ∧
      pc.ipHdrLen = IpHdr.hdrLen ctx ETH_HDR_LEN := by
  rcases parse_cases hparse with hv4 | ⟨_, _, hsrc, _⟩
  · exact hv4
  · rw [hsrc] at hfamily
    cases hfamily

end EShield.Ebpf
