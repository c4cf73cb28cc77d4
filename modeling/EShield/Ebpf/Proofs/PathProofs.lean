import EShield.Ebpf.DataPlane
import EShield.Ebpf.Proofs.StageProofs

/-!
# The path of a packet

A packet that nothing stops is vetted by six stages, goes through the one stage of its protocol, the
L7 scan and the global limit. For each part it is said what work it may do on the packet.
-/

namespace EShield.Ebpf

variable {s t u : PacketState}

/-! ## Vetting -/

/-- No entry of `src` is new or extended. -/
def KeepsBlock (before after : LruHashMap IpKey BlockEntry) (src : IpKey) : Prop :=
  ∀ e', after src = some e' → ∃ e, before src = some e ∧ e'.blockedUntilNs = e.blockedUntilNs

theorem KeepsBlock.of_eq {b b' : LruHashMap IpKey BlockEntry} {src : IpKey} (heq : b' src = b src) :
    KeepsBlock b b' src :=
  fun e' he => ⟨e', heq ▸ he, rfl⟩

theorem KeepsBlock.trans {b₁ b₂ b₃ : LruHashMap IpKey BlockEntry} {src : IpKey}
    (h₁ : KeepsBlock b₁ b₂ src) (h₂ : KeepsBlock b₂ b₃ src) : KeepsBlock b₁ b₃ src := by
  intro e₃ he₃
  obtain ⟨e₂, he₂, hu₂⟩ := h₂ e₃ he₃
  obtain ⟨e₁, he₁, hu₁⟩ := h₁ e₂ he₂
  exact ⟨e₁, he₁, hu₂.trans hu₁⟩

theorem isBlacklisted_keepsBlock (m : Maps) (src : IpKey) (nowNs : UInt64) (key : IpKey) :
    KeepsBlock m.blacklist (isBlacklisted m src nowNs).2.blacklist key := by
  unfold isBlacklisted
  split
  · rename_i entry hentry
    split
    · dsimp only
      split
      · by_cases hkey : key = src
        · intro e' he
          rw [hkey] at he ⊢
          cases (LruHashMap.insert_self m.blacklist src _).symm.trans he
          exact ⟨entry, hentry, rfl⟩
        · exact .of_eq (LruHashMap.insert_of_ne _ _ hkey)
      · exact .of_eq rfl
    · by_cases hkey : key = src
      · intro e' he
        rw [hkey] at he
        cases (LruHashMap.remove_self m.blacklist src).symm.trans he
      · exact .of_eq (LruHashMap.remove_of_ne _ hkey)
  · exact .of_eq rfl

/-- The window counter of a port after one more packet. -/
def portCounter (windowNs nowNs : UInt64) (prev : Option RateCounter) : RateCounter :=
  match prev with
  | some entry =>
    if nowNs.saturatingSub entry.lastDecayNs < windowNs then
      { counter := entry.counter.saturatingAdd 1, lastDecayNs := entry.lastDecayNs }
    else { counter := 1, lastDecayNs := nowNs }
  | none => { counter := 1, lastDecayNs := nowNs }

theorem checkPortRate_eq {m : Maps} (key : PortRateKey) (nowNs : UInt64)
    (htick : m.portRateLimitCfg.tickMs ≠ 0) :
    checkPortRate m key nowNs =
      (decide ((portCounter (msToNs m.portRateLimitCfg.tickMs) nowNs (m.portRateMap key)).counter >
          m.portRateLimitCfg.threshold),
        { m with
          portRateMap := m.portRateMap.insert key
            (portCounter (msToNs m.portRateLimitCfg.tickMs) nowNs (m.portRateMap key)) }) :=
  if_neg (mt msToNs_eq_zero_iff.1 htick)

/-- Some packets at `nowNs` have been counted in the window. -/
def PortTicks (cfg : RateLimitConfig) (nowNs : UInt64) :
    Option RateCounter → Option RateCounter → Prop :=
  Relation.ReflTransGen fun c c' => c' = some (portCounter (msToNs cfg.tickMs) nowNs c)

theorem checkPortRate_ticks (m : Maps) (counted : PortRateKey) (nowNs : UInt64)
    (key : PortRateKey) :
    PortTicks m.portRateLimitCfg nowNs (m.portRateMap key)
      ((checkPortRate m counted nowNs).2.portRateMap key) := by
  by_cases htick : m.portRateLimitCfg.tickMs = 0
  · rw [checkPortRate, if_pos (msToNs_eq_zero_iff.2 htick)]
    exact .refl
  · rw [checkPortRate_eq counted nowNs htick]
    by_cases hkey : key = counted
    · rw [hkey]
      exact .single (LruHashMap.insert_self _ _ _)
    · dsimp only
      rw [LruHashMap.insert_of_ne _ _ hkey]
      exact .refl

/-- The work of the stages before the protocol: they look the source up in BLACKLIST, count fragments
and connections, and apply the flags of a project. -/
structure Vetted (s t : PacketState) : Prop where
  ctx : t.ctx = s.ctx
  pc : t.pc = { s.pc with projectFlags := t.pc.projectFlags }
  core : t.maps.core =
    { s.maps.core with
      blacklist := t.maps.blacklist
      portRateMap := t.maps.portRateMap
      connTrack := t.maps.connTrack }
  blocks : ∀ src, KeepsBlock s.maps.blacklist t.maps.blacklist src
  ports : s.pc.fragment = false → t.maps.portRateMap = s.maps.portRateMap
  ticks : ∀ key, PortTicks s.maps.portRateLimitCfg s.pc.nowNs (s.maps.portRateMap key)
    (t.maps.portRateMap key)

namespace Vetted

theorem refl (s : PacketState) : Vetted s s :=
  ⟨rfl, rfl, rfl, fun _ => .of_eq rfl, fun _ => rfl, fun _ => .refl⟩

theorem worked (hst : Vetted s t) : Worked s t where
  ctx := hst.ctx
  pc := by
    rw [hst.pc]
  frame := by
    rw [Maps.frame, hst.core]
    rfl

theorem trans (hst : Vetted s t) (htu : Vetted t u) : Vetted s u where
  ctx := htu.ctx.trans hst.ctx
  pc := by
    rw [htu.pc, hst.pc]
  core := by
    rw [htu.core, hst.core]
  blocks src := (hst.blocks src).trans (htu.blocks src)
  ports hfrag := (htu.ports (hst.worked.fragment.trans hfrag)).trans (hst.ports hfrag)
  ticks key := by
    have hticks := htu.ticks key
    rw [hst.worked.portRateLimitCfg, hst.worked.nowNs] at hticks
    exact (hst.ticks key).trans hticks

theorem rateCounted (hst : Vetted s t) : t.pc.rateCounted = s.pc.rateCounted := by
  rw [hst.pc]

theorem rateMap (hst : Vetted s t) : t.maps.rateMap = s.maps.rateMap :=
  (congrArg Maps.rateMap hst.core :)

theorem rateMapPort (hst : Vetted s t) : t.maps.rateMapPort = s.maps.rateMapPort :=
  (congrArg Maps.rateMapPort hst.core :)

end Vetted

theorem vetted_of_core {m : Maps} {blacklist : LruHashMap IpKey BlockEntry}
    {portRateMap : LruHashMap PortRateKey RateCounter}
    {connTrack : LruHashMap IpKey ConnTrackEntry}
    (hcore : m.core =
      { s.maps.core with
        blacklist := blacklist, portRateMap := portRateMap, connTrack := connTrack })
    (hblocks : ∀ src, KeepsBlock s.maps.blacklist m.blacklist src)
    (hports : s.pc.fragment = false → m.portRateMap = s.maps.portRateMap)
    (hticks : ∀ key, PortTicks s.maps.portRateLimitCfg s.pc.nowNs (s.maps.portRateMap key)
      (m.portRateMap key)) :
    Vetted s { s with maps := m } where
  ctx := rfl
  pc := rfl
  core := by
    have hb : m.blacklist = blacklist := (congrArg Maps.blacklist hcore :)
    have hp : m.portRateMap = portRateMap := (congrArg Maps.portRateMap hcore :)
    have hc : m.connTrack = connTrack := (congrArg Maps.connTrack hcore :)
    dsimp only
    rw [hb, hp, hc]
    exact hcore
  blocks := hblocks
  ports := hports
  ticks := hticks

/-- Work that leaves the port counters alone. -/
theorem portTicks_of_eq {m : Maps} (heq : m.portRateMap = s.maps.portRateMap) (key : PortRateKey) :
    PortTicks s.maps.portRateLimitCfg s.pc.nowNs (s.maps.portRateMap key) (m.portRateMap key) := by
  rw [heq]
  exact .refl

theorem stagesBeforeTcp_answers (h : Helpers) (runtime : RuntimeConfig)
    {f : PacketState → Option XdpAction × PacketState} (hf : f ∈ stagesBeforeTcp h runtime)
    (s : PacketState) : ∃ t, Vetted s t ∧ Answers t (f s) := by
  simp only [stagesBeforeTcp, stages, List.take, List.mem_cons, List.not_mem_nil, or_false] at hf
  rcases hf with rfl | rfl | rfl | rfl | rfl | rfl
  · exact ⟨s, .refl s, checkPortAclDrop_answers h _ s⟩
  · obtain ⟨blacklist, hcore⟩ := core_isBlacklisted s.maps s.pc.src s.pc.nowNs
    have hports : (isBlacklisted s.maps s.pc.src s.pc.nowNs).2.portRateMap = s.maps.portRateMap :=
      (congrArg Maps.portRateMap hcore :)
    exact ⟨_, vetted_of_core hcore (isBlacklisted_keepsBlock s.maps s.pc.src s.pc.nowNs)
      (fun _ => hports) (portTicks_of_eq hports), checkBlacklistDrop_answers h s⟩
  · rcases checkFragmentDrop_answers h runtime.fragmentPolicy runtime.portRateLimitEnabled s with
      hans | ⟨hfrag, hans⟩
    · exact ⟨s, .refl s, hans⟩
    · obtain ⟨portRateMap, hcore⟩ :=
        core_checkPortRate s.maps { protocol := s.pc.protocol, dport := 0 } s.pc.nowNs
      have hblocks : (portCounted 0 s).maps.blacklist = s.maps.blacklist :=
        (congrArg Maps.blacklist hcore :)
      refine ⟨portCounted 0 s, vetted_of_core hcore (fun _ => .of_eq (congrFun hblocks _))
        (fun hnot => ?_) (checkPortRate_ticks s.maps _ s.pc.nowNs), hans⟩
      cases hfrag.symm.trans hnot
  · obtain ⟨flags, hans⟩ := checkProjectPolicy_answers h s
    exact ⟨withFlags flags s, ⟨rfl, rfl, rfl, fun _ => .of_eq rfl, fun _ => rfl, fun _ => .refl⟩,
      hans⟩
  · exact ⟨s, .refl s, checkGeoipDrop_answers h _ _ s⟩
  · obtain ⟨m, ⟨connTrack, hcore⟩, hans⟩ := checkConnTrackDrop_answers h runtime.connTrackEnabled
      runtime.connTrackThreshold runtime.connTrackWindowMs s
    have hblocks : m.blacklist = s.maps.blacklist := (congrArg Maps.blacklist hcore :)
    have hports : m.portRateMap = s.maps.portRateMap := (congrArg Maps.portRateMap hcore :)
    exact ⟨_, vetted_of_core hcore (fun _ => .of_eq (congrFun hblocks _)) (fun _ => hports)
      (portTicks_of_eq hports), hans⟩

theorem runStages_beforeTcp (h : Helpers) (runtime : RuntimeConfig) (s : PacketState) :
    ∃ t, Vetted s t ∧ Answers t (runStages h (stagesBeforeTcp h runtime) s) :=
  runStages_answers h Vetted.refl Vetted.trans (stagesBeforeTcp h runtime)
    (fun _ hf s => stagesBeforeTcp_answers h runtime hf s) s

/-! ## The flood modules -/

/-- The work of a flood module: it counts the packet, or is not asked. -/
inductive FloodWork (s : PacketState) : PacketState → Prop where
  | idle : FloodWork s s
  | syn {tcp : Nat} (htcp : s.pc.protocol = IPPROTO_TCP)
    (hflags : s.pc.projectFlags &&& project_modules.SYN_FLOOD ≠ 0)
    (hptr : s.ctx.ptrAt TCP_HDR_LEN (ETH_HDR_LEN + s.pc.ipHdrLen) = some tcp) :
    FloodWork s (synCounted tcp s)
  | flood {handleFlood : Maps → IpKey → UInt64 → Bool × Maps} {enabled : RuntimeConfig → UInt8}
    {reason : UInt16} (hflood : FloodHandler handleFlood enabled reason)
    (henabled : enabled s.maps.config ≠ 0) : FloodWork s (floodCounted handleFlood s)

theorem FloodWork.worked (hst : FloodWork s t) : Worked s t := by
  cases hst with
  | idle => exact .refl s
  | syn => exact worked_synCounted _ s
  | flood hflood => exact worked_floodCounted hflood s

theorem FloodWork.core (hst : FloodWork s t) :
    ∃ rateMap blacklist, t.maps.core =
      { s.maps.core with rateMap := rateMap, blacklist := blacklist } := by
  cases hst with
  | idle => exact ⟨_, _, rfl⟩
  | @syn tcp _ _ _ => exact core_handleSynFlood s.maps s.pc.src (TcpHdr.flags s.ctx tcp) s.pc.nowNs
  | flood hflood => exact hflood.core s.maps s.pc.src s.pc.nowNs

theorem FloodWork.projectFlags (hst : FloodWork s t) : t.pc.projectFlags = s.pc.projectFlags := by
  cases hst with
  | idle => rfl
  | syn =>
    rw [synCounted]
    dsimp only
    split <;> rfl
  | flood => rfl

/-- The answers of a flood module behind its work: a drop, or that of the limit of the destination
port `dport`, if that is asked. -/
inductive FloodAnswers (h : Helpers) (portRateEnabled : UInt8) (module dport : UInt16)
    (t : PacketState) : Option XdpAction × PacketState → Prop where
  | floods (ruleId : UInt16) {count : GlobalStats → GlobalStats}
    (hcount : ∀ st, tallyOf (count st) = tallyOf st) (protocol : UInt8) :
    FloodAnswers h portRateEnabled module dport t (dropAs h ruleId count protocol t)
  | unlimited (hoff : portRateEnabled = 0 ∨ t.pc.projectFlags &&& module = 0) :
    FloodAnswers h portRateEnabled module dport t (none, t)
  | limited (hon : portRateEnabled ≠ 0) (protocol : UInt8) :
    FloodAnswers h portRateEnabled module dport t
      (portRateDrop h rules.PORT_RATE countPortRate protocol dport t)

theorem FloodAnswers.answers {h : Helpers} {portRateEnabled : UInt8} {module dport : UInt16}
    {r : Option XdpAction × PacketState} (hr : FloodAnswers h portRateEnabled module dport t r) :
    Answers t r ∨ Answers (portCounted dport t) r := by
  cases hr with
  | floods ruleId hcount protocol => exact .inl (answers_dropAs h ruleId hcount protocol t)
  | unlimited => exact .inl .goesOn
  | limited hon protocol => exact .inr (portRateDrop_answers h _ (by intro _; rfl) protocol dport t)

/-- Behind a flood module that has not dropped the packet comes the limit of the port. -/
theorem floodAnswers_of_port (h : Helpers) (portRateEnabled : UInt8) (module dport : UInt16)
    (protocol : UInt8) (t : PacketState) :
    FloodAnswers h portRateEnabled module dport t
      (if portRateEnabled ≠ 0 ∧ t.pc.projectFlags &&& module ≠ 0 then
        portRateDrop h rules.PORT_RATE countPortRate protocol dport t
      else (none, t)) := by
  split
  · rename_i hon
    exact .limited hon.1 protocol
  · rename_i hoff
    exact .unlimited (by tauto)

theorem synFloodDrop_cases (h : Helpers) (portRateEnabled : UInt8)
    (htcp : s.pc.protocol = IPPROTO_TCP)
    (hflags : s.pc.projectFlags &&& project_modules.SYN_FLOOD ≠ 0) :
    ∃ t, FloodWork s t ∧
      FloodAnswers h portRateEnabled project_modules.SYN_FLOOD (bswap16 s.pc.dport) t
        (synFloodDrop h portRateEnabled s) := by
  have hport := floodAnswers_of_port h portRateEnabled project_modules.SYN_FLOOD
    (bswap16 s.pc.dport) IPPROTO_TCP
  unfold synFloodDrop
  cases hptr : s.ctx.ptrAt TCP_HDR_LEN (ETH_HDR_LEN + s.pc.ipHdrLen) with
  | none => exact ⟨s, .idle, hport s⟩
  | some tcp =>
    have hwork : FloodWork s (synCounted tcp s) := .syn htcp hflags hptr
    refine ⟨synCounted tcp s, hwork, ?_⟩
    dsimp only
    cases (handleSynFlood s.maps s.pc.src (TcpHdr.flags s.ctx tcp) s.pc.nowNs).1 with
    | true => exact .floods rules.SYN_FLOOD (by intro _; rfl) IPPROTO_TCP
    | false =>
      show FloodAnswers h portRateEnabled project_modules.SYN_FLOOD (bswap16 s.pc.dport)
        (synCounted tcp s)
        (if portRateEnabled ≠ 0 ∧
            (synCounted tcp s).pc.projectFlags &&& project_modules.SYN_FLOOD ≠ 0 then
          portRateDrop h rules.PORT_RATE countPortRate IPPROTO_TCP
            (bswap16 (synCounted tcp s).pc.dport) (synCounted tcp s)
        else (none, synCounted tcp s))
      rw [hwork.worked.dport]
      exact hport (synCounted tcp s)

theorem floodDrop_cases (h : Helpers) (portRateEnabled : UInt8) (module : UInt16)
    {handleFlood : Maps → IpKey → UInt64 → Bool × Maps} {enabled : RuntimeConfig → UInt8}
    {reason : UInt16} (hflood : FloodHandler handleFlood enabled reason) (ruleId : UInt16)
    {count : GlobalStats → GlobalStats} (hcount : ∀ st, tallyOf (count st) = tallyOf st)
    (dport : UInt16) (s : PacketState) :
    ∃ t, FloodWork s t ∧
      FloodAnswers h portRateEnabled module dport t
        (floodDrop h (enabled s.maps.config) portRateEnabled module handleFlood ruleId count dport
          s) := by
  have hport := floodAnswers_of_port h portRateEnabled module dport s.pc.protocol
  unfold floodDrop
  dsimp only
  by_cases hactive : enabled s.maps.config ≠ 0 ∧ s.pc.projectFlags &&& module ≠ 0
  · refine ⟨floodCounted handleFlood s, .flood hflood hactive.1, ?_⟩
    rw [if_pos hactive]
    cases hflooded : (handleFlood s.maps s.pc.src s.pc.nowNs).1 with
    | true => exact .floods ruleId hcount s.pc.protocol
    | false => exact hport (floodCounted handleFlood s)
  · rw [if_neg hactive]
    exact ⟨s, .idle, hport s⟩

/-! ## The stage of the protocol -/

/-- The SYN proxy takes the packet, or it has no flood module, or its flood module works on it. -/
theorem protocolStage_cases (h : Helpers) (s : PacketState) :
    (ToSynProxy s.maps.config.synProxyEnabled s ∧
        protocolStage h s.maps.config s = synProxy h s) ∨
      ((floodModule s.pc.protocol = none ∨ s.pc.fragment = true) ∧
        protocolStage h s.maps.config s = (none, s)) ∨
      ∃ module, floodModule s.pc.protocol = some module ∧ s.pc.fragment = false ∧
        ¬ ToSynProxy s.maps.config.synProxyEnabled s ∧ ∃ t, FloodWork s t ∧
          FloodAnswers h s.maps.config.portRateLimitEnabled module s.pc.limitedPort t
            (protocolStage h s.maps.config s) := by
  unfold protocolStage floodModule PacketCtx.limitedPort
  by_cases htcp : s.pc.protocol = IPPROTO_TCP
  · have hport : (s.pc.protocol = IPPROTO_TCP ∨ s.pc.protocol = IPPROTO_UDP) := .inl htcp
    rw [if_pos htcp, if_pos htcp, if_pos hport, checkTcpDrop]
    split
    · rename_i hskip
      rcases hskip with hflags | hfrag
      swap
      · exact .inr (.inl ⟨.inr hfrag, rfl⟩)
      cases hfrag : s.pc.fragment with
      | true => exact .inr (.inl ⟨.inr rfl, rfl⟩)
      | false =>
        exact .inr (.inr ⟨_, rfl, rfl, fun hproxy => hproxy.2.1 hflags, s, .idle,
          .unlimited (.inr hflags)⟩)
    · rename_i hskip
      obtain ⟨hflags, hfrag⟩ := not_or.1 hskip
      have hfrag : s.pc.fragment = false := by simpa using hfrag
      split
      · rename_i hproxy
        exact .inl ⟨⟨htcp, hflags, hfrag, hproxy⟩, rfl⟩
      · rename_i hproxy
        exact .inr (.inr ⟨_, rfl, hfrag, fun hp => hproxy hp.2.2.2,
          synFloodDrop_cases h _ htcp hflags⟩)
  have hproxy : ¬ ToSynProxy s.maps.config.synProxyEnabled s := fun hp => htcp hp.1
  rw [if_neg htcp, if_neg htcp]
  by_cases hudp : s.pc.protocol = IPPROTO_UDP
  · have hport : (s.pc.protocol = IPPROTO_TCP ∨ s.pc.protocol = IPPROTO_UDP) := .inr hudp
    rw [if_pos hudp, if_pos hudp, if_pos hport, checkUdpDrop]
    split
    · rename_i hskip
      exact .inr (.inl ⟨.inr (hskip.resolve_left (not_not.2 hudp)), rfl⟩)
    · rename_i hskip
      have hfrag : s.pc.fragment = false := by simpa using fun hf => hskip (.inr hf)
      exact .inr (.inr ⟨_, rfl, hfrag, hproxy,
        floodDrop_cases h _ _ handleUdpFlood_floodHandler _ (by intro _; rfl) _ s⟩)
  have hport : ¬ (s.pc.protocol = IPPROTO_TCP ∨ s.pc.protocol = IPPROTO_UDP) :=
    not_or.2 ⟨htcp, hudp⟩
  rw [if_neg hudp, if_neg hudp, if_neg hport, checkIcmpDrop]
  split
  · rename_i hskip
    refine .inr (.inl ⟨hskip.imp_left fun hicmp => if_neg (not_or.2 hicmp), rfl⟩)
  · rename_i hskip
    obtain ⟨hicmp, hfrag⟩ := not_or.1 hskip
    have hfrag : s.pc.fragment = false := by simpa using hfrag
    have hicmp : s.pc.protocol = IPPROTO_ICMP ∨ s.pc.protocol = IPPROTO_ICMPV6 := by tauto
    exact .inr (.inr ⟨_, if_pos hicmp, hfrag, hproxy,
      floodDrop_cases h _ _ handleIcmpFlood_floodHandler _ (by intro _; rfl) _ s⟩)

/-- The work of the stages from the protocol on, which keep the flags of the project. -/
structure Detected (s t : PacketState) : Prop extends Worked s t where
  projectFlags : t.pc.projectFlags = s.pc.projectFlags

theorem Detected.refl (s : PacketState) : Detected s s := ⟨.refl s, rfl⟩

theorem Detected.trans (hst : Detected s t) (htu : Detected t u) : Detected s u :=
  ⟨hst.toWorked.trans htu.toWorked, htu.projectFlags.trans hst.projectFlags⟩

theorem FloodWork.detected (hst : FloodWork s t) : Detected s t := ⟨hst.worked, hst.projectFlags⟩

theorem detected_portCounted (dport : UInt16) (s : PacketState) :
    Detected s (portCounted dport s) := ⟨worked_portCounted dport s, rfl⟩

theorem detected_rateLimited (s : PacketState) : Detected s (rateLimited s) :=
  ⟨worked_rateLimited s, rfl⟩

theorem detected_synHandled (h : Helpers) (ip tcp : Nat) (s : PacketState) :
    Detected s (synHandled h ip tcp s) where
  toWorked := worked_synHandled h ip tcp s
  projectFlags := by
    rw [synHandled]
    dsimp only
    split <;> rfl

theorem detected_ackHandled (ip tcp : Nat) (s : PacketState) : Detected s (ackHandled ip tcp s) :=
  ⟨worked_ackHandled ip tcp s, rfl⟩

/-- A packet of an IPv4 source has it in the IP header of its frame. -/
def HoldsIpHeader (s : PacketState) : Prop :=
  s.pc.src.family = IpFamily.ipv4.toU8 →
    EthHdr.proto s.ctx 0 = ETH_P_IP ∧ ETH_HDR_LEN + IP_HDR_LEN ≤ s.ctx.len ∧
      s.pc.src = srcKey (IpHdr.saddr s.ctx ETH_HDR_LEN)

theorem HoldsIpHeader.worked (hip : HoldsIpHeader s) (hwork : Worked s t) : HoldsIpHeader t := by
  unfold HoldsIpHeader
  rw [hwork.src, hwork.ctx]
  exact hip

theorem holdsIpHeader_enter {ctx : XdpContext} {pc : PacketCtx} (hparse : parse ctx = some pc)
    (nowNs : UInt64) (m : Maps) : HoldsIpHeader (enter nowNs ctx m pc) :=
  fun hfamily =>
    have hv4 := parse_ipv4 hparse hfamily
    ⟨hv4.1, hv4.2.1, hv4.2.2.1⟩

/-- What the SYN proxy may do: nothing without a TCP header, else as in `synProxy_cases`. -/
theorem synProxy_of_toSynProxy (h : Helpers) {synProxyEnabled : UInt8} (hip : HoldsIpHeader s)
    (hproxy : ToSynProxy synProxyEnabled s) :
    (s.ctx.ptrAt TCP_HDR_LEN (ETH_HDR_LEN + s.pc.ipHdrLen) = none ∧ synProxy h s = (none, s) ∧
        answersWithCookie h synProxyEnabled s = false) ∨
      ∃ tcp, s.ctx.ptrAt TCP_HDR_LEN (ETH_HDR_LEN + s.pc.ipHdrLen) = some tcp ∧
        ((answersWithCookie h synProxyEnabled s = true ∧ (synProxy h s).1 = some .tx ∧
            (synProxy h s).2.maps.core = (synHandled h ETH_HDR_LEN tcp s).maps.core) ∨
          (answersWithCookie h synProxyEnabled s = false ∧
            (handleSyn h s.ctx s.maps s.ref ETH_HDR_LEN tcp).1 = some .drop ∧
            (synProxy h s).1 = some .drop ∧
            Answers (synHandled h ETH_HDR_LEN tcp s) (synProxy h s)) ∨
          (answersWithCookie h synProxyEnabled s = false ∧
            (handleSyn h s.ctx s.maps s.ref ETH_HDR_LEN tcp).1 = none ∧
            Answers (ackHandled ETH_HDR_LEN tcp (synHandled h ETH_HDR_LEN tcp s))
              (synProxy h s))) := by
  have hptr := ptrAt_of_le (hip hproxy.2.2.2.1).2.1
  have hcookie : answersWithCookie h synProxyEnabled s =
      (s.ctx.ptrAt TCP_HDR_LEN (ETH_HDR_LEN + s.pc.ipHdrLen)).any fun tcp =>
        decide ((handleSyn h s.ctx s.maps s.ref ETH_HDR_LEN tcp).1 = some .tx) := by
    rw [answersWithCookie, if_pos hproxy, hptr]
    cases s.ctx.ptrAt TCP_HDR_LEN (ETH_HDR_LEN + s.pc.ipHdrLen) <;> rfl
  rw [hcookie]
  cases hhdr : s.ctx.ptrAt TCP_HDR_LEN (ETH_HDR_LEN + s.pc.ipHdrLen) with
  | none =>
    refine .inl ⟨rfl, ?_, rfl⟩
    unfold synProxy
    rw [hptr]
    dsimp only
    rw [hhdr]
  | some tcp =>
    refine .inr ⟨tcp, rfl, ?_⟩
    rcases synProxy_cases h s hptr hhdr with ⟨hsyn, htx, hcore⟩ | ⟨hsyn, hdrop, hans⟩ | ⟨hsyn, hans⟩
    · exact .inl ⟨decide_eq_true hsyn, htx, hcore⟩
    · exact .inr (.inl ⟨decide_eq_false (by rw [hsyn]; decide), hsyn, hdrop, hans⟩)
    · exact .inr (.inr ⟨decide_eq_false (by rw [hsyn]; decide), hsyn, hans⟩)

/-- The SYN proxy writes the rate counter of the source, its own map and the statistics. -/
theorem synProxy_core (h : Helpers) {synProxyEnabled : UInt8} (hip : HoldsIpHeader s)
    (hproxy : ToSynProxy synProxyEnabled s) :
    ∃ rateMap synProxyConn globalStats, (synProxy h s).2.maps.core =
      { s.maps.core with
        rateMap := rateMap, synProxyConn := synProxyConn, globalStats := globalStats } := by
  have hanswer : ∀ {t r}, Answers t r →
      ∃ globalStats, r.2.maps.core = { t.maps.core with globalStats := globalStats } := by
    intro t r hans
    cases hans with
    | goesOn => exact ⟨_, rfl⟩
    | passes hu => exact ⟨_, hu⟩
    | drops _ _ hu => exact ⟨_, hu⟩
  rcases synProxy_of_toSynProxy h hip hproxy with ⟨_, hnone, _⟩ | ⟨tcp, _, hsent⟩
  · rw [hnone]
    exact ⟨_, _, _, rfl⟩
  obtain ⟨rateMap, synProxyConn, hsyn⟩ := core_handleSyn h s.ctx s.maps s.ref ETH_HDR_LEN tcp
  have hhandled : (synHandled h ETH_HDR_LEN tcp s).maps.core =
      { s.maps.core with rateMap := rateMap, synProxyConn := synProxyConn } := hsyn
  rcases hsent with ⟨_, _, hcore⟩ | ⟨_, _, _, hans⟩ | ⟨_, _, hans⟩
  · exact ⟨_, _, _, hcore.trans hhandled⟩
  · obtain ⟨globalStats, hcore⟩ := hanswer hans
    exact ⟨rateMap, synProxyConn, globalStats, by rw [hcore, hhandled]⟩
  · obtain ⟨globalStats, hcore⟩ := hanswer hans
    obtain ⟨synProxyConn', hack⟩ := core_handleAck (synHandled h ETH_HDR_LEN tcp s).ctx
      (synHandled h ETH_HDR_LEN tcp s).maps (synHandled h ETH_HDR_LEN tcp s).ref ETH_HDR_LEN tcp
    have hacked : (ackHandled ETH_HDR_LEN tcp (synHandled h ETH_HDR_LEN tcp s)).maps.core =
        { (synHandled h ETH_HDR_LEN tcp s).maps.core with synProxyConn := synProxyConn' } := hack
    exact ⟨rateMap, synProxyConn', globalStats, by rw [hcore, hacked, hhandled]⟩

/-- The stage of the protocol sends a cookie, which it does not count, or answers as the others. -/
theorem protocolStage_answers (h : Helpers) (hip : HoldsIpHeader s) :
    (answersWithCookie h s.maps.config.synProxyEnabled s = true ∧
        (protocolStage h s.maps.config s).1 = some .tx ∧
        ∃ t, Detected s t ∧ (protocolStage h s.maps.config s).2.maps.core = t.maps.core) ∨
      (answersWithCookie h s.maps.config.synProxyEnabled s = false ∧
        ∃ t, Detected s t ∧ Answers t (protocolStage h s.maps.config s)) := by
  rcases protocolStage_cases h s with
    ⟨hproxy, heq⟩ | ⟨hskip, heq⟩ | ⟨module, hmodule, _, hproxy, t, hwork, hans⟩
  · rw [heq]
    rcases synProxy_of_toSynProxy h hip hproxy with
      ⟨_, hnone, hcookie⟩ | ⟨tcp, _, ⟨hcookie, htx, hcore⟩ | ⟨hcookie, _, _, hans⟩ |
        ⟨hcookie, _, hans⟩⟩
    · rw [hnone]
      exact .inr ⟨hcookie, s, .refl s, .goesOn⟩
    · exact .inl ⟨hcookie, htx, _, detected_synHandled h ETH_HDR_LEN tcp s, hcore⟩
    · exact .inr ⟨hcookie, _, detected_synHandled h ETH_HDR_LEN tcp s, hans⟩
    · exact .inr ⟨hcookie, _,
        (detected_synHandled h ETH_HDR_LEN tcp s).trans (detected_ackHandled _ _ _), hans⟩
  · rw [heq]
    refine .inr ⟨?_, s, .refl s, .goesOn⟩
    rw [answersWithCookie, if_neg]
    rintro ⟨htcp, _, hfrag, _⟩
    rcases hskip with hmodule | hfrag'
    · rw [floodModule, if_pos htcp] at hmodule
      cases hmodule
    · cases hfrag.symm.trans hfrag'
  · refine .inr ⟨by rw [answersWithCookie, if_neg hproxy], ?_⟩
    rcases hans.answers with hans | hans
    · exact ⟨t, hwork.detected, hans⟩
    · exact ⟨_, hwork.detected.trans (detected_portCounted _ t), hans⟩

theorem protocolStage_none {h : Helpers} (hip : HoldsIpHeader s)
    (hnone : protocolStage h s.maps.config s = (none, t)) : Detected s t := by
  rcases protocolStage_answers h hip with ⟨_, htx, _⟩ | ⟨_, u, hwork, hans⟩
  · rw [hnone] at htx
    cases htx
  · rw [hnone] at hans
    rw [hans.eq_of_none]
    exact hwork

theorem l7Stage_answers (h : Helpers) (runtime : RuntimeConfig) (s : PacketState) :
    Answers s (l7Stage h runtime s) := by
  unfold l7Stage
  split
  · exact checkL7Drop_answers h _ s
  · exact .goesOn

/-- Behind the protocol only the global limit may still do work. -/
theorem runStages_afterProtocol (h : Helpers) (runtime : RuntimeConfig) (s : PacketState) :
    ∃ t, (t = s ∨ t = rateLimited s) ∧
      Answers t (runStages h [l7Stage h runtime, checkRateLimitDrop h] s) := by
  have hl7 := l7Stage_answers h runtime s
  rw [runStages]
  rcases hr : l7Stage h runtime s with ⟨_ | action, t⟩
  · rw [hr] at hl7
    cases hl7
    have hlimit : ∃ t, (t = s ∨ t = rateLimited s) ∧ Answers t (checkRateLimitDrop h s) := by
      rcases checkRateLimitDrop_answers h s with ⟨_, hans⟩ | ⟨_, _, hans⟩
      · exact ⟨s, .inl rfl, hans⟩
      · exact ⟨_, .inr rfl, hans⟩
    obtain ⟨t, ht, hans⟩ := hlimit
    refine ⟨t, ht, ?_⟩
    dsimp only
    rw [runStages]
    rcases hr : checkRateLimitDrop h s with ⟨_ | action, u⟩
    · rw [hr] at hans
      exact hans
    · rw [hr] at hans
      exact hans.sampled h
  · rw [hr] at hl7
    exact ⟨s, .inl rfl, hl7.sampled h⟩

/-! ## The whole path -/

/-- From TCP on it is the stage of the packet's own protocol that counts. -/
theorem runStages_fromTcp (h : Helpers) (hip : HoldsIpHeader s)
    (rest : List (PacketState → Option XdpAction × PacketState)) :
    runStages h
        (tcpStage h s.maps.config ::
          checkUdpDrop h s.maps.config.udpFloodEnabled s.maps.config.portRateLimitEnabled ::
          checkIcmpDrop h s.maps.config.icmpFloodEnabled s.maps.config.portRateLimitEnabled :: rest)
        s =
      runStages h (protocolStage h s.maps.config :: rest) s := by
  have hudpSkip : ∀ t : PacketState, t.pc.protocol ≠ IPPROTO_UDP → ∀ e p,
      checkUdpDrop h e p t = (none, t) := fun t ht e p => if_pos (.inl ht)
  have hicmpSkip : ∀ t : PacketState, t.pc.protocol = IPPROTO_TCP ∨ t.pc.protocol = IPPROTO_UDP →
      ∀ e p, checkIcmpDrop h e p t = (none, t) := by
    intro t ht e p
    refine if_pos (.inl ?_)
    rcases ht with ht | ht <;> rw [ht] <;> decide
  have hkept := fun t => protocolStage_none (t := t) (h := h) hip
  unfold protocolStage at hkept
  simp only [runStages, tcpStage, protocolStage]
  by_cases htcp : s.pc.protocol = IPPROTO_TCP
  · rw [if_pos htcp] at hkept
    rw [if_pos htcp, if_pos htcp]
    generalize checkTcpDrop h s.maps.config.synProxyEnabled s.maps.config.portRateLimitEnabled s = r
      at hkept
    rcases r with ⟨_ | action, t⟩
    · have ht : t.pc.protocol = IPPROTO_TCP := (hkept t rfl).protocol.trans htcp
      dsimp only
      rw [hudpSkip t (by rw [ht]; decide)]
      dsimp only
      rw [hicmpSkip t (.inl ht)]
    · rfl
  rw [if_neg htcp] at hkept
  rw [if_neg htcp, if_neg htcp]
  dsimp only
  by_cases hudp : s.pc.protocol = IPPROTO_UDP
  · rw [if_pos hudp] at hkept
    rw [if_pos hudp]
    generalize checkUdpDrop h s.maps.config.udpFloodEnabled s.maps.config.portRateLimitEnabled s = r
      at hkept
    rcases r with ⟨_ | action, t⟩
    · have ht : t.pc.protocol = IPPROTO_UDP := (hkept t rfl).protocol.trans hudp
      dsimp only
      rw [hicmpSkip t (.inr ht)]
    · rfl
  · rw [if_neg hudp, hudpSkip s hudp]

/-- The path of a packet: vetting, the stage of its protocol, and the `rest` of the stages. -/
theorem runStages_path (h : Helpers) (hip : HoldsIpHeader s)
    (rest : List (PacketState → Option XdpAction × PacketState)) :
    runStages h
        (stagesBeforeTcp h s.maps.config ++ tcpStage h s.maps.config ::
          checkUdpDrop h s.maps.config.udpFloodEnabled s.maps.config.portRateLimitEnabled ::
          checkIcmpDrop h s.maps.config.icmpFloodEnabled s.maps.config.portRateLimitEnabled :: rest)
        s =
      match runStages h (stagesBeforeTcp h s.maps.config) s with
      | (some action, t) => (some action, t)
      | (none, t) => runStages h (protocolStage h t.maps.config :: rest) t := by
  obtain ⟨t, hvet, hans⟩ := runStages_beforeTcp h s.maps.config s
  rw [runStages_append]
  generalize runStages h (stagesBeforeTcp h s.maps.config) s = r at hans
  cases hans with
  | passes => rfl
  | drops => rfl
  | goesOn =>
    dsimp only
    rw [← hvet.worked.config, runStages_fromTcp h (hip.worked hvet.worked)]

/-- How far a packet comes: it is stopped while it is vetted, or by the stage of its protocol, or it
goes on from there. -/
inductive Path (h : Helpers) (s : PacketState) : Option XdpAction × PacketState → Prop where
  | vetted {t u : PacketState} {a : XdpAction}
    (hstop : runStages h (stagesBeforeTcp h s.maps.config) s = (some a, u)) (hvet : Vetted s t)
    (hans : Answers t (some a, u)) : Path h s (some a, u)
  | acted {t u : PacketState} {a : XdpAction}
    (hgo : runStages h (stagesBeforeTcp h s.maps.config) s = (none, t)) (hvet : Vetted s t)
    (hstop : protocolStage h t.maps.config t = (some a, u)) :
    Path h s (some a, logPacketSample h a u)
  | passedOn {t u v : PacketState} {r : Option XdpAction × PacketState}
    (hgo : runStages h (stagesBeforeTcp h s.maps.config) s = (none, t)) (hvet : Vetted s t)
    (hon : protocolStage h t.maps.config t = (none, u)) (hdet : Detected t u)
    (hlimit : v = u ∨ v = rateLimited u) (hans : Answers v r) : Path h s r

theorem path_stages (h : Helpers) (hip : HoldsIpHeader s) :
    Path h s (runStages h (stages h s.maps.config) s) := by
  obtain ⟨t, hvet, hbefore⟩ := runStages_beforeTcp h s.maps.config s
  rw [stages_split, stagesAfterTcp_eq, runStages_path h hip]
  rcases hr : runStages h (stagesBeforeTcp h s.maps.config) s with ⟨_ | a, u⟩
  · rw [hr] at hbefore
    rw [hbefore.eq_of_none] at hr
    rw [hbefore.eq_of_none]
    dsimp only
    rw [runStages]
    rcases hact : protocolStage h t.maps.config t with ⟨_ | a, v⟩
    · obtain ⟨v', hlimit, hans⟩ := runStages_afterProtocol h s.maps.config v
      exact .passedOn hr hvet hact (protocolStage_none (hip.worked hvet.worked) hact) hlimit hans
    · exact .acted hr hvet hact
  · rw [hr] at hbefore
    exact .vetted hr hvet hbefore

/-- The end of a run changes the statistics at most. -/
theorem core_leave (r : Option XdpAction × PacketState) :
    ∃ globalStats, (leave r).2.2.core = { r.2.maps.core with globalStats := globalStats } := by
  rcases r with ⟨_ | action, u⟩
  · exact ⟨_, core_countPassed u.maps u.pc⟩
  · exact ⟨_, rfl⟩

end EShield.Ebpf
