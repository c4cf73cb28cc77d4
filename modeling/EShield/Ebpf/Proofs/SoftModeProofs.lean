import EShield.Ebpf.Proofs.RateOnceProofs

/-!
# Soft mode

Under the soft mode the global limit and the UDP and ICMP flood modules drop what exceeds the rate and
block nobody. SYN flood detection does not consult the mode; it is the one way to a new block.
-/

namespace EShield.Ebpf

variable {src : IpKey} {s t u : PacketState}

/-! ## The modules -/

/-- Only a refusal outside the soft mode writes BLACKLIST, and only the entry of its source. -/
theorem enforceRate_blacklist (r : Option RateUpdate × Maps) {source : IpKey} (nowNs : UInt64)
    (reason : UInt16) {soft : Bool}
    (hspared : soft = true ∨ src ≠ source ∨ (enforceRate r source nowNs reason soft).1 = false) :
    (enforceRate r source nowNs reason soft).2.blacklist src = r.2.blacklist src := by
  unfold enforceRate at hspared ⊢
  split
  · rfl
  · rename_i update m
    dsimp only at hspared ⊢
    split
    · rename_i hover
      rw [if_pos hover] at hspared
      rcases hspared with rfl | hne | hfalse
      · rfl
      · split
        · rfl
        · exact LruHashMap.insert_of_ne _ _ hne
      · cases hfalse
    · rfl

theorem updateRateCounter_blacklist (m : Maps) (source : IpKey) (nowNs : UInt64) :
    (updateRateCounter m source nowNs).2.blacklist = m.blacklist := by
  obtain ⟨rateMap, hcore⟩ := core_updateRateCounter m source nowNs
  exact (congrArg Maps.blacklist hcore :)

theorem updateRateCounterPort_blacklist (m : Maps) (source : IpKey) (dport : UInt16)
    (nowNs : UInt64) : (updateRateCounterPort m source dport nowNs).2.blacklist = m.blacklist := by
  obtain ⟨rateMapPort, hcore⟩ := core_updateRateCounterPort m source dport nowNs
  exact (congrArg Maps.blacklist hcore :)

theorem FloodHandler.blacklist_of_soft {handleFlood : Maps → IpKey → UInt64 → Bool × Maps}
    {enabled : RuntimeConfig → UInt8} {reason : UInt16}
    (hflood : FloodHandler handleFlood enabled reason) {m : Maps} (source : IpKey) (nowNs : UInt64)
    (hsoft : m.config.rateLimitSoft ≠ 0) :
    (handleFlood m source nowNs).2.blacklist src = m.blacklist src := by
  rw [hflood m source nowNs]
  split
  · rfl
  · rw [enforceRate_blacklist _ _ _ (.inl (bne_iff_ne.2 hsoft)), updateRateCounter_blacklist]

theorem checkRateLimit_blacklist_of_soft {m : Maps} (source : IpKey) (dport : UInt16)
    (nowNs : UInt64) (hsoft : m.config.rateLimitSoft ≠ 0) :
    (checkRateLimit m source dport nowNs).2.blacklist src = m.blacklist src := by
  simp only [checkRateLimit]
  split
  · rfl
  · rw [enforceRate_blacklist _ _ _ (.inl (bne_iff_ne.2 hsoft))]
    split
    · rw [updateRateCounterPort_blacklist]
    · rw [updateRateCounter_blacklist]

theorem handleSynFlood_blacklist {m : Maps} {source : IpKey} {tcpFlags : UInt8} {nowNs : UInt64}
    (hspared : src ≠ source ∨ (handleSynFlood m source tcpFlags nowNs).1 = false) :
    (handleSynFlood m source tcpFlags nowNs).2.blacklist src = m.blacklist src := by
  unfold handleSynFlood at hspared ⊢
  split
  · rfl
  · rename_i hsyn
    rw [if_neg hsyn] at hspared
    rw [enforceRate_blacklist _ _ _ (.inr hspared), updateRateCounter_blacklist]

/-! ## The stages -/

/-- SYN flood detection refuses the packet: the project leaves it on, the SYN proxy does not take the
packet, and its flags and the counter of its source say so. -/
def SynFloodExceeded (t : PacketState) : Prop :=
  t.pc.protocol = IPPROTO_TCP ∧ t.pc.projectFlags &&& project_modules.SYN_FLOOD ≠ 0 ∧
    t.pc.fragment = false ∧ ¬ ToSynProxy t.maps.config.synProxyEnabled t ∧
    ∃ tcp, t.ctx.ptrAt TCP_HDR_LEN (ETH_HDR_LEN + t.pc.ipHdrLen) = some tcp ∧
      (handleSynFlood t.maps t.pc.src (TcpHdr.flags t.ctx tcp) t.pc.nowNs).1 = true

theorem Answers.blacklist {r : Option XdpAction × PacketState} (hans : Answers t r) :
    r.2.maps.blacklist = t.maps.blacklist := by
  obtain ⟨_, hcore⟩ := hans.core
  exact (congrArg Maps.blacklist hcore :)

theorem FloodWork.blacklist_of_soft (hwork : FloodWork s t)
    (hsoft : s.maps.config.rateLimitSoft ≠ 0) (hfrag : s.pc.fragment = false)
    (hproxy : ¬ ToSynProxy s.maps.config.synProxyEnabled s)
    (hspared : ¬ (src = s.pc.src ∧ SynFloodExceeded s)) :
    t.maps.blacklist src = s.maps.blacklist src := by
  cases hwork with
  | idle => rfl
  | @syn tcp htcp hflags hptr =>
    refine handleSynFlood_blacklist ?_
    by_cases hsrc : src = s.pc.src
    · refine .inr (Bool.eq_false_iff.2 fun hover => hspared ⟨hsrc, ?_⟩)
      exact ⟨htcp, hflags, hfrag, hproxy, tcp, hptr, hover⟩
    · exact .inl hsrc
  | flood hflood => exact hflood.blacklist_of_soft s.pc.src s.pc.nowNs hsoft

theorem portCounted_blacklist (dport : UInt16) (s : PacketState) :
    (portCounted dport s).maps.blacklist = s.maps.blacklist := by
  obtain ⟨portRateMap, hcore⟩ :=
    core_checkPortRate s.maps { protocol := s.pc.protocol, dport := dport } s.pc.nowNs
  exact (congrArg Maps.blacklist hcore :)

theorem protocolStage_blacklist_of_soft (h : Helpers) (hip : HoldsIpHeader s)
    (hsoft : s.maps.config.rateLimitSoft ≠ 0)
    (hspared : ¬ (src = s.pc.src ∧ SynFloodExceeded s)) :
    (protocolStage h s.maps.config s).2.maps.blacklist src = s.maps.blacklist src := by
  rcases protocolStage_cases h s with
    ⟨hproxy, heq⟩ | ⟨_, heq⟩ | ⟨module, _, hfrag, hproxy, t, hwork, hans⟩
  · rw [heq]
    obtain ⟨_, _, _, hcore⟩ := synProxy_core h hip hproxy
    exact congrFun (congrArg Maps.blacklist hcore :) src
  · rw [heq]
  · have hflood := hwork.blacklist_of_soft hsoft hfrag hproxy hspared
    rcases hans.answers with hans | hans
    · rw [hans.blacklist, hflood]
    · rw [hans.blacklist, portCounted_blacklist, hflood]

theorem rateLimited_blacklist_of_soft (hsoft : s.maps.config.rateLimitSoft ≠ 0) :
    (rateLimited s).maps.blacklist src = s.maps.blacklist src :=
  checkRateLimit_blacklist_of_soft s.pc.src s.pc.dport s.pc.nowNs hsoft

/-! ## Packets -/

/-- SYN flood detection refuses this frame of `src`. -/
def TripsSynFlood (h : Helpers) (nowNs : UInt64) (ctx : XdpContext) (m : Maps) (src : IpKey) :
    Prop :=
  ∃ pc t, parse ctx = some pc ∧ pc.src = src ∧ isWhitelisted m pc.src = false ∧
    runStages h (stagesBeforeTcp h m.config) (enter nowNs ctx m pc) = (none, t) ∧
    SynFloodExceeded t

/-- A UDP or ICMP flood module refuses the packet. -/
def FloodExceeded (t : PacketState) : Prop :=
  t.pc.fragment = false ∧
    ((t.pc.protocol = IPPROTO_UDP ∧ t.maps.config.udpFloodEnabled ≠ 0 ∧
        t.pc.projectFlags &&& project_modules.UDP_FLOOD ≠ 0 ∧
        (handleUdpFlood t.maps t.pc.src t.pc.nowNs).1 = true) ∨
      ((t.pc.protocol = IPPROTO_ICMP ∨ t.pc.protocol = IPPROTO_ICMPV6) ∧
        t.maps.config.icmpFloodEnabled ≠ 0 ∧
        t.pc.projectFlags &&& project_modules.ICMP_FLOOD ≠ 0 ∧
        (handleIcmpFlood t.maps t.pc.src t.pc.nowNs).1 = true))

/-- The global limit refuses the packet. -/
def RateExceeded (t : PacketState) : Prop :=
  t.pc.projectFlags &&& project_modules.RATE_LIMIT ≠ 0 ∧ t.pc.rateCounted = false ∧
    (checkRateLimit t.maps t.pc.src t.pc.dport t.pc.nowNs).1 = true

/-- A module that consults the soft mode refuses this frame. -/
def OverThreshold (h : Helpers) (nowNs : UInt64) (ctx : XdpContext) (m : Maps) : Prop :=
  ∃ pc t, parse ctx = some pc ∧ isWhitelisted m pc.src = false ∧
    ((runStages h (stagesBeforeTcp h m.config) (enter nowNs ctx m pc) = (none, t) ∧
        FloodExceeded t) ∨
      (runStages h (stagesBeforeRateLimit h m.config) (enter nowNs ctx m pc) = (none, t) ∧
        RateExceeded t))

theorem logPacketSample_blacklist (h : Helpers) (action : XdpAction) (s : PacketState) :
    (logPacketSample h action s).maps.blacklist = s.maps.blacklist :=
  (congrArg Maps.blacklist (core_logPacketSample h action s) :)

theorem leave_blacklist (r : Option XdpAction × PacketState) :
    (leave r).2.2.blacklist = r.2.maps.blacklist := by
  obtain ⟨_, hcore⟩ := core_leave r
  exact (congrArg Maps.blacklist hcore :)

theorem stages_keepsBlock (h : Helpers) (hip : HoldsIpHeader s)
    (hsoft : s.maps.config.rateLimitSoft ≠ 0)
    (hspared : ∀ t, runStages h (stagesBeforeTcp h s.maps.config) s = (none, t) →
      ¬ (src = t.pc.src ∧ SynFloodExceeded t)) :
    KeepsBlock s.maps.blacklist (runStages h (stages h s.maps.config) s).2.maps.blacklist src := by
  have hpath := path_stages h hip
  generalize runStages h (stages h s.maps.config) s = r at hpath
  -- what the stage of the protocol leaves in the map of a packet that came to it
  have hprotocol : ∀ {t}, runStages h (stagesBeforeTcp h s.maps.config) s = (none, t) →
      Vetted s t →
      (protocolStage h t.maps.config t).2.maps.blacklist src = t.maps.blacklist src := by
    intro t hgo hvet
    exact protocolStage_blacklist_of_soft h (hip.worked hvet.worked)
      (hvet.worked.config ▸ hsoft) (hspared t hgo)
  cases hpath with
  | vetted _ hvet hans => exact (hvet.blocks src).trans (.of_eq (congrFun hans.blacklist src))
  | acted hgo hvet hstop =>
    have hstage := hprotocol hgo hvet
    rw [hstop] at hstage
    refine (hvet.blocks src).trans (.of_eq ?_)
    rw [logPacketSample_blacklist]
    exact hstage
  | @passedOn t u v _ hgo hvet hon hdet hlimit hans =>
    have hstage := hprotocol hgo hvet
    rw [hon] at hstage
    have hwork : v.maps.blacklist src = u.maps.blacklist src := by
      rcases hlimit with rfl | rfl
      · rfl
      · refine rateLimited_blacklist_of_soft ?_
        rw [hdet.config, hvet.worked.config]
        exact hsoft
    refine (hvet.blocks src).trans (.of_eq ?_)
    rw [hans.blacklist, hwork]
    exact hstage

/-- In the soft mode a packet blocks its source, or extends its block, only by way of SYN flood
detection. -/
theorem tryEshield_keepsBlock (h : Helpers) (nowNs : UInt64) (ctx : XdpContext) {m : Maps}
    (hsoft : m.config.rateLimitSoft ≠ 0) (hspared : ¬ TripsSynFlood h nowNs ctx m src) :
    KeepsBlock m.blacklist (tryEshield h nowNs ctx m).2.2.blacklist src := by
  cases hparse : parse ctx with
  | none =>
    rw [tryEshield, hparse]
    exact .of_eq rfl
  | some pc =>
    rw [tryEshield_of_parse hparse]
    split
    · rename_i hwhite
      exact .of_eq (congrFun
        (congrArg Maps.blacklist (core_countPassed (enter nowNs ctx m pc).maps
          (enter nowNs ctx m pc).pc) :) src)
    · rename_i hwhite
      have hip := holdsIpHeader_enter hparse nowNs m
      refine KeepsBlock.trans ?_ (.of_eq (congrFun (leave_blacklist _) src))
      refine stages_keepsBlock h hip hsoft fun t hgo hhit => hspared ?_
      obtain ⟨u, hvet, hans⟩ := runStages_beforeTcp h (enter nowNs ctx m pc).maps.config
        (enter nowNs ctx m pc)
      rw [hgo] at hans
      have hsrc : t.pc.src = pc.src := by
        rw [hans.eq_of_none]
        exact hvet.worked.src
      exact ⟨pc, t, hparse, (hhit.1.trans hsrc).symm, by simpa using hwhite, hgo, hhit.2⟩

/-- A stage stops the packet. -/
def Stops (r : Option XdpAction × PacketState) : Prop := ∃ a, r.1 = some a ∧ a ≠ .pass

theorem Stops.runStages {h : Helpers} {f : PacketState → Option XdpAction × PacketState}
    (hstop : Stops (f t)) (rest : List (PacketState → Option XdpAction × PacketState)) :
    (leave (runStages h (f :: rest) t)).1 ≠ .pass := by
  obtain ⟨a, heq, ha⟩ := hstop
  rw [EShield.Ebpf.runStages, show f t = (some a, (f t).2) from Prod.ext heq rfl]
  exact ha

theorem floodDrop_stops (h : Helpers) {enabled portRateEnabled : UInt8} {module : UInt16}
    {handleFlood : Maps → IpKey → UInt64 → Bool × Maps} (ruleId : UInt16)
    (count : GlobalStats → GlobalStats) (dport : UInt16) (henabled : enabled ≠ 0)
    (hflags : t.pc.projectFlags &&& module ≠ 0)
    (hflood : (handleFlood t.maps t.pc.src t.pc.nowNs).1 = true) :
    Stops (floodDrop h enabled portRateEnabled module handleFlood ruleId count dport t) := by
  unfold floodDrop
  dsimp only
  rw [if_pos ⟨henabled, hflags⟩, hflood]
  exact dropAs_fst h _ _ _ _

theorem FloodExceeded.stops (h : Helpers) (hflood : FloodExceeded t) :
    Stops (protocolStage h t.maps.config t) := by
  obtain ⟨hfrag, ⟨hudp, henabled, hflags, hover⟩ | ⟨hicmp, henabled, hflags, hover⟩⟩ := hflood
  · rw [protocolStage, if_neg (by rw [hudp]; decide), if_pos hudp, checkUdpDrop,
      if_neg (by simp [hudp, hfrag])]
    exact floodDrop_stops h _ _ _ henabled hflags hover
  · have htcp : t.pc.protocol ≠ IPPROTO_TCP := by
      rcases hicmp with hp | hp <;> rw [hp] <;> decide
    have hudp : t.pc.protocol ≠ IPPROTO_UDP := by
      rcases hicmp with hp | hp <;> rw [hp] <;> decide
    have hrun : ¬ ((t.pc.protocol ≠ IPPROTO_ICMP ∧ t.pc.protocol ≠ IPPROTO_ICMPV6) ∨
        t.pc.fragment = true) := by
      rw [hfrag]
      rcases hicmp with hp | hp <;> simp [hp]
    rw [protocolStage, if_neg htcp, if_neg hudp, checkIcmpDrop, if_neg hrun]
    exact floodDrop_stops h _ _ _ henabled hflags hover

theorem RateExceeded.stops (h : Helpers) (hrate : RateExceeded t) :
    Stops (checkRateLimitDrop h t) := by
  obtain ⟨hflags, hfresh, hover⟩ := hrate
  unfold checkRateLimitDrop
  rw [if_neg hflags, if_neg (by rw [hfresh]; decide)]
  split
  · exact dropAs_fst h _ _ _ _
  · rename_i heq
    rw [heq] at hover
    cases hover

/-- What a module refuses does not pass. -/
theorem tryEshield_ne_pass_of_overThreshold {h : Helpers} {nowNs : UInt64} {ctx : XdpContext}
    {m : Maps} (hover : OverThreshold h nowNs ctx m) : (tryEshield h nowNs ctx m).1 ≠ .pass := by
  obtain ⟨pc, t, hparse, hwhite, hover⟩ := hover
  have hip := holdsIpHeader_enter hparse nowNs m
  rw [tryEshield_of_parse hparse, if_neg (by rw [hwhite]; decide)]
  rcases hover with ⟨hgo, hflood⟩ | ⟨hgo, hrate⟩
  · have hpath := runStages_path h hip [l7Stage h m.config, checkRateLimitDrop h]
    rw [show (enter nowNs ctx m pc).maps.config = m.config from rfl, hgo] at hpath
    rw [stages_split, stagesAfterTcp_eq, hpath]
    exact (hflood.stops h).runStages _
  · rw [stages_eq_append_rateLimit, runStages_append, hgo]
    exact (hrate.stops h).runStages _

/-! ## Runs -/

/-- A packet in the soft mode that does not trip SYN flood detection for `src`, or a write of the
control plane that does not block `src`. -/
def SoftStep {Cpu : Type*} (src : IpKey) (w : DataPlane Cpu) : DataPlaneLabel Cpu → Prop
  | .packet cpu h nowNs ctx =>
    w.maps.config.rateLimitSoft ≠ 0 ∧ ¬ TripsSynFlood h nowNs ctx (w.mapsOn cpu) src
  | .control maps => KeepsBlock w.maps.blacklist maps.blacklist src

variable {Cpu : Type*} [DecidableEq Cpu] {w w' : DataPlane Cpu}

/-- In every run of packets under the soft mode, a source gets a BLACKLIST entry, or a later expiry,
only when SYN flood detection refuses one of its packets; what the other modules refuse does not
pass. -/
theorem soft_mode_keeps_blocks {labels : List (DataPlaneLabel Cpu)}
    (hsoft : Exec.Along dataPlaneStep (SoftStep src) w labels)
    (hrun : Exec.exec dataPlaneStep w labels = some w') :
    KeepsBlock w.maps.blacklist w'.maps.blacklist src ∧
      ∀ cpu h nowNs ctx, OverThreshold h nowNs ctx (w'.mapsOn cpu) →
        (tryEshield h nowNs ctx (w'.mapsOn cpu)).1 ≠ .pass := by
  refine ⟨?_, fun cpu h nowNs ctx hover => tryEshield_ne_pass_of_overThreshold hover⟩
  refine Exec.exec_invariant (I := fun v => KeepsBlock w.maps.blacklist v.maps.blacklist src)
    (fun v l v' hI hc hstep => ?_) (.of_eq rfl) hsoft hrun
  cases l with
  | control maps =>
    cases hstep
    exact hI.trans hc
  | packet cpu h nowNs ctx =>
    cases hstep
    exact hI.trans (tryEshield_keepsBlock h nowNs ctx (m := v.mapsOn cpu) hc.1 hc.2)

theorem TripsSynFlood.protocol {h : Helpers} {nowNs : UInt64} {ctx : XdpContext} {m : Maps}
    {pc : PacketCtx} (htrip : TripsSynFlood h nowNs ctx m src) (hparse : parse ctx = some pc) :
    pc.protocol = IPPROTO_TCP := by
  obtain ⟨pc', t, hparse', _, _, hgo, htcp, _⟩ := htrip
  cases hparse.symm.trans hparse'
  obtain ⟨u, hvet, hans⟩ := runStages_beforeTcp h m.config (enter nowNs ctx m pc)
  rw [hgo] at hans
  rw [hans.eq_of_none] at htcp
  exact hvet.worked.protocol.symm.trans htcp

/-- A bare SYN from 10.0.0.1 to 10.0.0.2. -/
def synFrame : XdpContext :=
  tcpFrame [0x30, 0x39, 0x00, 0x50, 0, 0, 0, 1, 0, 0, 0, 0, 0x50, 0x02, 0, 0, 0, 0, 0, 0]

/-- Maps in the soft mode under which every packet is over the rate. -/
def softMaps : Maps :=
  { config := { rateLimitSoft := 1, udpFloodEnabled := 1 }
    rateLimitCfg := { threshold := 0, tickMs := 100 } }

/-- Two packets of a UDP flood are dropped and block nobody. -/
theorem soft_mode_keeps_blocks_udp_flood :
    ∃ w', Exec.exec dataPlaneStep { maps := softMaps }
        [.packet () {} 5 udpFrame, .packet () {} 6 udpFrame] = some w' ∧
      w'.log.map PacketRecord.verdict = [.drop, .drop] ∧
      KeepsBlock .empty w'.maps.blacklist (.fromIpv4 0x0a000001#32) := by
  have hparse : parse udpFrame = some ((parse udpFrame).get (by decide)) := rfl
  have hudp : ∀ {h nowNs m src}, ¬ TripsSynFlood h nowNs udpFrame m src :=
    fun htrip => absurd (htrip.protocol hparse) (by decide)
  have hsoft : Exec.Along dataPlaneStep (SoftStep (.fromIpv4 0x0a000001#32)) { maps := softMaps }
      [.packet () {} 5 udpFrame, .packet () {} 6 udpFrame] :=
    .cons rfl ⟨by decide, hudp⟩ (.cons rfl ⟨by decide, hudp⟩ trivial)
  exact ⟨_, rfl, by decide, (soft_mode_keeps_blocks hsoft rfl).1⟩

/-- SYN flood detection blocks the source of a SYN in the soft mode too. -/
theorem syn_flood_blocks_in_soft_mode :
    softMaps.config.rateLimitSoft = 1 ∧
      ¬ KeepsBlock softMaps.blacklist (tryEshield {} 5 synFrame softMaps).2.2.blacklist
        (.fromIpv4 0x0a000001#32) := by
  refine ⟨rfl, fun hkeeps => ?_⟩
  have hblocked : ((tryEshield {} 5 synFrame softMaps).2.2.blacklist
    (.fromIpv4 0x0a000001#32)).isSome := by decide
  obtain ⟨e', he'⟩ := Option.isSome_iff_exists.1 hblocked
  obtain ⟨e, he, _⟩ := hkeeps e' he'
  cases he

end EShield.Ebpf
