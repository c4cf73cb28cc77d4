import EShield.Ebpf.Proofs.ProjectProofs
import EShield.Lib.FixedWindow

/-!
# The limit of a destination port

Every packet of a protocol and destination port is counted in one fixed window, whatever its source,
except those that the SYN proxy takes. Without them at most twice the limit passes in any interval as
long as the window.
-/

namespace EShield.Ebpf

variable {s t u : PacketState} {key : PortRateKey}

/-! ## What a packet does to the port counters -/

theorem Answers.portRateMap {r : Option XdpAction × PacketState} (hans : Answers t r) :
    r.2.maps.portRateMap = t.maps.portRateMap := by
  obtain ⟨_, hcore⟩ := hans.core
  exact (congrArg Maps.portRateMap hcore :)

theorem FloodWork.portRateMap (hwork : FloodWork s t) :
    t.maps.portRateMap = s.maps.portRateMap := by
  obtain ⟨_, _, hcore⟩ := hwork.core
  exact (congrArg Maps.portRateMap hcore :)

theorem rateLimited_portRateMap (s : PacketState) :
    (rateLimited s).maps.portRateMap = s.maps.portRateMap := by
  obtain ⟨_, _, _, hcore⟩ := core_checkRateLimit s.maps s.pc.src s.pc.dport s.pc.nowNs
  exact (congrArg Maps.portRateMap hcore :)

theorem logPacketSample_portRateMap (h : Helpers) (action : XdpAction) (s : PacketState) :
    (logPacketSample h action s).maps.portRateMap = s.maps.portRateMap :=
  (congrArg Maps.portRateMap (core_logPacketSample h action s) :)

theorem leave_portRateMap (r : Option XdpAction × PacketState) :
    (leave r).2.2.portRateMap = r.2.maps.portRateMap := by
  obtain ⟨_, hcore⟩ := core_leave r
  exact (congrArg Maps.portRateMap hcore :)

theorem protocolStage_ticks (h : Helpers) (hip : HoldsIpHeader s) (key : PortRateKey) :
    PortTicks s.maps.portRateLimitCfg s.pc.nowNs (s.maps.portRateMap key)
      ((protocolStage h s.maps.config s).2.maps.portRateMap key) := by
  rcases protocolStage_cases h s with
    ⟨hproxy, heq⟩ | ⟨_, heq⟩ | ⟨module, _, _, _, t, hwork, hans⟩
  · rw [heq]
    obtain ⟨_, _, _, hcore⟩ := synProxy_core h hip hproxy
    exact portTicks_of_eq (congrArg Maps.portRateMap hcore :) key
  · rw [heq]
    exact .refl
  · rcases hans.answers with hans | hans
    · exact portTicks_of_eq (hans.portRateMap.trans hwork.portRateMap) key
    · have hticks := checkPortRate_ticks t.maps
        { protocol := t.pc.protocol, dport := s.pc.limitedPort } t.pc.nowNs key
      rw [hwork.worked.portRateLimitCfg, hwork.worked.nowNs, hwork.portRateMap] at hticks
      rw [hans.portRateMap, portCounted, hwork.worked.nowNs]
      exact hticks

/-- Every packet leaves every port counter as it is or counts in it. -/
theorem tryEshield_ticks (h : Helpers) (nowNs : UInt64) (ctx : XdpContext) (m : Maps)
    (key : PortRateKey) :
    PortTicks m.portRateLimitCfg nowNs (m.portRateMap key)
      ((tryEshield h nowNs ctx m).2.2.portRateMap key) := by
  cases hparse : parse ctx with
  | none =>
    rw [tryEshield, hparse]
    exact .refl
  | some pc =>
    rw [tryEshield_of_parse hparse]
    have hip := holdsIpHeader_enter hparse nowNs m
    split
    · have hcore := core_countPassed (enter nowNs ctx m pc).maps (enter nowNs ctx m pc).pc
      exact portTicks_of_eq (s := enter nowNs ctx m pc) (congrArg Maps.portRateMap hcore :) key
    · rw [leave_portRateMap]
      have hpath := path_stages h hip
      rw [show (enter nowNs ctx m pc).maps.config = m.config from rfl] at hpath
      generalize runStages h (stages h m.config) (enter nowNs ctx m pc) = r at hpath
      cases hpath with
      | vetted _ hvet hans =>
        rw [hans.portRateMap]
        exact hvet.ticks key
      | @acted t u a hgo hvet hstop =>
        have hstage := protocolStage_ticks h (hip.worked hvet.worked) key
        rw [hstop, hvet.worked.portRateLimitCfg, hvet.worked.nowNs] at hstage
        rw [logPacketSample_portRateMap]
        exact (hvet.ticks key).trans hstage
      | @passedOn t u v _ hgo hvet hon hdet hlimit hans =>
        have hstage := protocolStage_ticks h (hip.worked hvet.worked) key
        rw [hon, hvet.worked.portRateLimitCfg, hvet.worked.nowNs] at hstage
        have hwork : v.maps.portRateMap = u.maps.portRateMap := by
          rcases hlimit with rfl | rfl
          · rfl
          · exact rateLimited_portRateMap u
        rw [hans.portRateMap, hwork]
        exact (hvet.ticks key).trans hstage

/-! ## Packets that pass -/

/-- The frame carries a packet of this protocol and destination port that is no fragment. -/
def ofPort (key : PortRateKey) (ctx : XdpContext) : Bool :=
  match parse ctx with
  | some pc =>
    !pc.fragment && (floodModule pc.protocol).isSome &&
      decide (key = { protocol := pc.protocol, dport := pc.limitedPort })
  | none => false

theorem ofPort_iff {ctx : XdpContext} :
    ofPort key ctx = true ↔
      ∃ pc module, parse ctx = some pc ∧ pc.fragment = false ∧
        floodModule pc.protocol = some module ∧
        key = { protocol := pc.protocol, dport := pc.limitedPort } := by
  unfold ofPort
  cases parse ctx with
  | none => simp
  | some pc =>
    simp only [Bool.and_eq_true, Bool.not_eq_true', decide_eq_true_eq, Option.isSome_iff_exists,
      Option.some.injEq, exists_and_left, exists_eq_left']
    tauto

/-- A packet of the port that no whitelist and no project takes out, and that does not go to the SYN
proxy. -/
structure PortGuarded (m : Maps) (ctx : XdpContext) (pc : PacketCtx) (module : UInt16) : Prop where
  whitelist : isWhitelisted m pc.src = false
  project : ∀ policy, matchedProject (enter 0 ctx m pc) = some policy →
    policy.action ≠ project_action.PASS ∧
      (policy.action = project_action.DEFEND → policy.flags ≠ 0 → policy.flags &&& module ≠ 0)
  proxy : pc.protocol = IPPROTO_TCP → pc.src.family = IpFamily.ipv4.toU8 →
    m.config.synProxyEnabled = 0

theorem floodModule_flags_all {protocol : UInt8} {module : UInt16}
    (hmodule : floodModule protocol = some module) : PROJECT_FLAGS_ALL &&& module ≠ 0 := by
  unfold floodModule at hmodule
  repeat' split at hmodule
  all_goals
    cases hmodule
    try decide

/-- The project leaves the module of the packet's protocol on. -/
theorem projectFlagsFor_of_guarded {m : Maps} {ctx : XdpContext} {pc : PacketCtx}
    {module : UInt16} (nowNs : UInt64) (hparse : parse ctx = some pc)
    (hguard : PortGuarded m ctx pc module) (hall : PROJECT_FLAGS_ALL &&& module ≠ 0) :
    projectFlagsFor (enter nowNs ctx m pc) &&& module ≠ 0 := by
  have hown : (enter nowNs ctx m pc).pc.projectFlags = PROJECT_FLAGS_ALL :=
    (congrArg PacketCtx.projectFlags (parse_fresh hparse) :)
  have hproject := hguard.project
  rw [show matchedProject (enter 0 ctx m pc) = matchedProject (enter nowNs ctx m pc) from rfl]
    at hproject
  unfold projectFlagsFor
  cases hmatched : matchedProject (enter nowNs ctx m pc) with
  | none =>
    dsimp only
    rw [hown]
    exact hall
  | some policy =>
    dsimp only
    split
    · rename_i hdefend
      split
      · exact hall
      · rename_i hflags
        exact (hproject policy hmatched).2 hdefend hflags
    · rw [hown]
      exact hall

/-- A packet that the stage of its protocol lets go on has been counted in the window of its port,
and the count is within the limit. -/
theorem protocolStage_counts_port (h : Helpers) {module : UInt16}
    (hmodule : floodModule s.pc.protocol = some module) (hfrag : s.pc.fragment = false)
    (hproxy : ¬ ToSynProxy s.maps.config.synProxyEnabled s)
    (hflags : s.pc.projectFlags &&& module ≠ 0)
    (henabled : s.maps.config.portRateLimitEnabled ≠ 0)
    (htick : s.maps.portRateLimitCfg.tickMs ≠ 0) :
    let counter := portCounter (msToNs s.maps.portRateLimitCfg.tickMs) s.pc.nowNs
      (s.maps.portRateMap { protocol := s.pc.protocol, dport := s.pc.limitedPort })
    (protocolStage h s.maps.config s).1 ≠ some .pass ∧
      ∀ u, protocolStage h s.maps.config s = (none, u) →
        u.maps.portRateMap { protocol := s.pc.protocol, dport := s.pc.limitedPort } =
            some counter ∧
          counter.counter ≤ s.maps.portRateLimitCfg.threshold := by
  dsimp only
  rcases protocolStage_cases h s with
    ⟨hto, _⟩ | ⟨hskip, _⟩ | ⟨module', hmodule', _, _, t, hwork, hans⟩
  · exact absurd hto hproxy
  · rcases hskip with hnone | hfrag'
    · cases hmodule.symm.trans hnone
    · cases hfrag.symm.trans hfrag'
  cases hmodule.symm.trans hmodule'
  generalize protocolStage h s.maps.config s = r at hans
  cases hans with
  | floods ruleId hcount protocol =>
    exact ⟨fun heq => dropPacket_ne_pass h _ (Option.some.inj heq),
      fun u heq => absurd heq acted_ne_goesOn⟩
  | unlimited hoff =>
    rw [hwork.projectFlags] at hoff
    exact absurd hoff (not_or.2 ⟨henabled, hflags⟩)
  | limited hon protocol =>
    have htick' : t.maps.portRateLimitCfg.tickMs ≠ 0 := by
      rw [hwork.worked.portRateLimitCfg]
      exact htick
    unfold portRateDrop
    rw [checkPortRate_eq _ _ htick', hwork.worked.portRateLimitCfg, hwork.worked.nowNs,
      hwork.worked.protocol, hwork.portRateMap]
    split
    · refine ⟨fun heq => dropPacket_ne_pass h _ (Option.some.inj heq),
        fun u heq => absurd heq acted_ne_goesOn⟩
    · rename_i heq
      obtain ⟨hwithin, rfl⟩ := Prod.mk.inj heq
      refine ⟨fun heq => absurd heq.symm (Option.some_ne_none _), fun u hu => ?_⟩
      cases hu
      exact ⟨LruHashMap.insert_self _ _ _, not_lt.1 (of_decide_eq_false hwithin)⟩

theorem Worked.limitedPort (hst : Worked s t) : t.pc.limitedPort = s.pc.limitedPort := by
  unfold PacketCtx.limitedPort
  rw [hst.protocol, hst.dport]

/-- What `protocolStage_counts_port` says of a packet that has been vetted, in terms of the packet that
came in. -/
theorem vetted_counts_port (h : Helpers) {module : UInt16} (hvet : Vetted s t)
    (hmodule : floodModule s.pc.protocol = some module) (hfrag : s.pc.fragment = false)
    (hproxy : s.pc.protocol = IPPROTO_TCP → s.pc.src.family = IpFamily.ipv4.toU8 →
      s.maps.config.synProxyEnabled = 0)
    (hflags : t.pc.projectFlags &&& module ≠ 0)
    (henabled : s.maps.config.portRateLimitEnabled ≠ 0)
    (htick : s.maps.portRateLimitCfg.tickMs ≠ 0) :
    let counter := portCounter (msToNs s.maps.portRateLimitCfg.tickMs) s.pc.nowNs
      (s.maps.portRateMap { protocol := s.pc.protocol, dport := s.pc.limitedPort })
    (protocolStage h t.maps.config t).1 ≠ some .pass ∧
      ∀ u, protocolStage h t.maps.config t = (none, u) →
        u.maps.portRateMap { protocol := s.pc.protocol, dport := s.pc.limitedPort } =
            some counter ∧
          counter.counter ≤ s.maps.portRateLimitCfg.threshold := by
  have hwork := hvet.worked
  rw [← hwork.config] at hproxy henabled
  rw [← hwork.protocol] at hmodule hproxy
  rw [← hwork.src] at hproxy
  rw [← hwork.portRateLimitCfg] at htick
  have hto : ¬ ToSynProxy t.maps.config.synProxyEnabled t := fun hto =>
    hto.2.2.2.2 (hproxy hto.1 hto.2.2.2.1)
  have hcount := protocolStage_counts_port (s := t) h hmodule (hwork.fragment.trans hfrag) hto hflags
    henabled htick
  rw [hwork.portRateLimitCfg, hwork.nowNs, hwork.protocol, hwork.limitedPort, hvet.ports hfrag]
    at hcount
  exact hcount

/-- A packet of the port that passes all stages has been counted, within the limit. -/
theorem stages_count_port (h : Helpers) {module : UInt16} (hip : HoldsIpHeader s)
    (hmodule : floodModule s.pc.protocol = some module) (hfrag : s.pc.fragment = false)
    (hproxy : s.pc.protocol = IPPROTO_TCP → s.pc.src.family = IpFamily.ipv4.toU8 →
      s.maps.config.synProxyEnabled = 0)
    (hflags : projectFlagsFor s &&& module ≠ 0)
    (hpolicy : ∀ policy, matchedProject s = some policy → policy.action ≠ project_action.PASS)
    (henabled : s.maps.config.portRateLimitEnabled ≠ 0)
    (htick : s.maps.portRateLimitCfg.tickMs ≠ 0)
    (hpass : (leave (runStages h (stages h s.maps.config) s)).1 = .pass) :
    let key : PortRateKey := { protocol := s.pc.protocol, dport := s.pc.limitedPort }
    let counter := portCounter (msToNs s.maps.portRateLimitCfg.tickMs) s.pc.nowNs
      (s.maps.portRateMap key)
    (leave (runStages h (stages h s.maps.config) s)).2.2.portRateMap key = some counter ∧
      counter.counter ≤ s.maps.portRateLimitCfg.threshold := by
  dsimp only
  obtain ⟨hcarries, hlet⟩ := runStages_beforeTcp_project h s
  have hpath := path_stages h hip
  rw [leave_portRateMap]
  generalize runStages h (stages h s.maps.config) s = r at hpath hpass
  cases hpath with
  | vetted hstop hvet hans =>
    rw [hstop] at hlet
    obtain ⟨policy, hmatched, hact⟩ := hlet (congrArg some hpass :)
    exact absurd hact (hpolicy policy hmatched)
  | acted hgo hvet hstop =>
    obtain ⟨hnot, _⟩ := vetted_counts_port h hvet hmodule hfrag hproxy
      (hcarries _ hgo ▸ hflags) henabled htick
    rw [hstop] at hnot
    exact absurd (congrArg some hpass :) hnot
  | @passedOn t u v _ hgo hvet hon hdet hlimit hans =>
    obtain ⟨_, hcounted⟩ := vetted_counts_port h hvet hmodule hfrag hproxy
      (hcarries _ hgo ▸ hflags) henabled htick
    have hwork : v.maps.portRateMap = u.maps.portRateMap := by
      rcases hlimit with rfl | rfl
      · rfl
      · exact rateLimited_portRateMap u
    rw [hans.portRateMap, hwork]
    exact hcounted u hon

/-- A guarded packet of the port that passes has been counted, within the limit. -/
theorem tryEshield_counts_port {h : Helpers} {nowNs : UInt64} {ctx : XdpContext} {m : Maps}
    {pc : PacketCtx} {module : UInt16} (hparse : parse ctx = some pc)
    (hfrag : pc.fragment = false) (hmodule : floodModule pc.protocol = some module)
    (hguard : PortGuarded m ctx pc module) (henabled : m.config.portRateLimitEnabled ≠ 0)
    (htick : m.portRateLimitCfg.tickMs ≠ 0) (hpass : (tryEshield h nowNs ctx m).1 = .pass) :
    let key : PortRateKey := { protocol := pc.protocol, dport := pc.limitedPort }
    let counter := portCounter (msToNs m.portRateLimitCfg.tickMs) nowNs (m.portRateMap key)
    (tryEshield h nowNs ctx m).2.2.portRateMap key = some counter ∧
      counter.counter ≤ m.portRateLimitCfg.threshold := by
  rw [tryEshield_of_parse hparse, if_neg (by rw [hguard.whitelist]; decide)] at hpass ⊢
  exact stages_count_port (s := enter nowNs ctx m pc) h (holdsIpHeader_enter hparse nowNs m) hmodule
    hfrag hguard.proxy
    (projectFlagsFor_of_guarded nowNs hparse hguard (floodModule_flags_all hmodule))
    (fun policy hmatched => (hguard.project policy hmatched).1) henabled htick hpass

/-! ## Windows -/

/-- The window counter of a port as one of the library, which counts up to the last word. -/
def toCounter (e : RateCounter) : FixedWindow.Counter :=
  { count := e.counter.toNat, start := e.lastDecayNs.toNat }

theorem toCounter_portCounter (windowNs nowNs : UInt64) (prev : Option RateCounter) :
    toCounter (portCounter windowNs nowNs prev) =
      FixedWindow.tick windowNs.toNat (2 ^ 64 - 1) nowNs.toNat (prev.map toCounter) := by
  cases prev with
  | none => rfl
  | some e =>
    unfold portCounter FixedWindow.tick
    dsimp only [Option.map_some]
    have hopen : nowNs.saturatingSub e.lastDecayNs < windowNs ↔
        nowNs.toNat - (toCounter e).start < windowNs.toNat := by
      rw [UInt64.lt_iff_toNat_lt, UInt64.toNat_saturatingSub]
      rfl
    by_cases h : nowNs.saturatingSub e.lastDecayNs < windowNs
    · rw [if_pos h, if_pos (hopen.1 h)]
      simp only [toCounter, UInt64.toNat_saturatingAdd, UInt64.toNat_one]
    · rw [if_neg h, if_neg (mt hopen.2 h)]
      rfl

/-- Packets that are counted but do not pass keep the bound. -/
theorem within_of_ticks {cfg : RateLimitConfig} {nowNs : UInt64} {c c' : Option RateCounter}
    {limit lo now n : Nat} (hticks : PortTicks cfg nowNs c c')
    (h : FixedWindow.Within limit (msToNs cfg.tickMs).toNat lo (c.map toCounter) now n)
    (hle : now ≤ nowNs.toNat) (hcap : limit < 2 ^ 64 - 1) :
    FixedWindow.Within limit (msToNs cfg.tickMs).toNat lo (c'.map toCounter) nowNs.toNat n := by
  induction hticks with
  | refl => exact h.later hle
  | tail _ hstep ih =>
    rw [hstep, Option.map_some, toCounter_portCounter]
    exact ih.tick le_rfl hcap (.inl rfl)

/-! ## Runs -/

/-- A packet of the port that passed between `lo` and `lo + width`. -/
def passedIn (key : PortRateKey) (lo width : Nat) (r : PacketRecord) : Bool :=
  decide (r.verdict = .pass) && ofPort key r.ctx &&
    decide (lo ≤ r.nowNs.toNat ∧ r.nowNs.toNat < lo + width)

/-- The clock does not go back, the port limit is on, and packets of the port are guarded; the control
plane keeps the counter of the port. -/
def PortStep {Cpu : Type*} (key : PortRateKey) (threshold tickMs : UInt64) (w : DataPlane Cpu) :
    DataPlaneLabel Cpu → Prop
  | .packet cpu _ nowNs ctx =>
    (∀ r ∈ w.log, r.nowNs ≤ nowNs) ∧ w.maps.config.portRateLimitEnabled ≠ 0 ∧
      w.maps.portRateLimitCfg.threshold = threshold ∧ w.maps.portRateLimitCfg.tickMs = tickMs ∧
      ∀ pc module, parse ctx = some pc → pc.fragment = false →
        floodModule pc.protocol = some module →
        key = { protocol := pc.protocol, dport := pc.limitedPort } →
        PortGuarded (w.mapsOn cpu) ctx pc module
  | .control maps => maps.portRateMap key = w.maps.portRateMap key

variable {Cpu : Type*} [DecidableEq Cpu] {w w' : DataPlane Cpu}

/-- The packets of the port that have passed in the interval are within the bounds of its window. -/
def PortWithin (key : PortRateKey) (threshold tickMs : UInt64) (lo : Nat) (w : DataPlane Cpu) :
    Prop :=
  ∃ now, (now = 0 ∨ ∃ r ∈ w.log, r.nowNs.toNat = now) ∧
    FixedWindow.Within threshold.toNat (msToNs tickMs).toNat lo
      ((w.maps.portRateMap key).map toCounter) now
      (w.log.filter (passedIn key lo (msToNs tickMs).toNat)).length

theorem portWithin_step {threshold tickMs : UInt64} {lo : Nat} (htick : tickMs ≠ 0)
    (hcap : threshold.toNat < 2 ^ 64 - 1) (hI : PortWithin key threshold tickMs lo w)
    {l : DataPlaneLabel Cpu} (hc : PortStep key threshold tickMs w l)
    (hstep : dataPlaneStep w l = some w') : PortWithin key threshold tickMs lo w' := by
  obtain ⟨now, hnow, hwithin⟩ := hI
  cases l with
  | control maps =>
    cases hstep
    refine ⟨now, hnow, ?_⟩
    rw [show maps.portRateMap key = w.maps.portRateMap key from hc]
    exact hwithin
  | packet cpu h nowNs ctx =>
    obtain ⟨hclock, henabled, rfl, rfl, hguard⟩ := hc
    cases hstep
    have hle : now ≤ nowNs.toNat := by
      rcases hnow with rfl | ⟨r, hr, rfl⟩
      · exact Nat.zero_le _
      · exact UInt64.le_iff_toNat_le.1 (hclock r hr)
    refine ⟨nowNs.toNat, .inr ⟨_, List.mem_append_right _ (List.mem_singleton_self _), rfl⟩, ?_⟩
    dsimp only
    rw [List.filter_append, List.length_append, List.filter_singleton]
    cases hpassed : passedIn key lo (msToNs w.maps.portRateLimitCfg.tickMs).toNat
        { nowNs := nowNs, ctx := ctx, verdict := (tryEshield h nowNs ctx (w.mapsOn cpu)).1
          cookie := cookieAnswered h nowNs ctx (w.mapsOn cpu) } with
    | false =>
      exact within_of_ticks (tryEshield_ticks h nowNs ctx (w.mapsOn cpu) key) hwithin hle hcap
    | true =>
      simp only [passedIn, Bool.and_eq_true, decide_eq_true_eq] at hpassed
      obtain ⟨⟨hpass, hport⟩, hlo, hhi⟩ := hpassed
      obtain ⟨pc, module, hparse, hfrag, hmodule, hkey⟩ := ofPort_iff.1 hport
      obtain ⟨hentry, hcount⟩ := tryEshield_counts_port hparse hfrag hmodule
        (hguard pc module hparse hfrag hmodule hkey) henabled htick hpass
      rw [← hkey] at hentry hcount
      rw [hentry, Option.map_some, toCounter_portCounter]
      refine hwithin.tick hle hcap (.inr ⟨rfl, hlo, hhi, ?_⟩)
      rw [← toCounter_portCounter]
      exact UInt64.le_iff_toNat_le.1 hcount

/-- In every run in which the packets of a port do not go to the SYN proxy, at most twice the
threshold of them pass in any interval as long as the window, whatever their sources. -/
theorem port_rate_backstop {threshold tickMs : UInt64} {labels : List (DataPlaneLabel Cpu)}
    (hlog : w.log = []) (htick : tickMs ≠ 0) (hcap : threshold < 0xffffffffffffffff)
    (hports : Exec.Along dataPlaneStep (PortStep key threshold tickMs) w labels)
    (hrun : Exec.exec dataPlaneStep w labels = some w') (lo : Nat) :
    (w'.log.filter (passedIn key lo (msToNs tickMs).toNat)).length ≤ 2 * threshold.toNat := by
  have hinit : PortWithin key threshold tickMs lo w := by
    refine ⟨0, .inl rfl, ?_⟩
    rw [hlog]
    exact .init _ _ _ _ _
  have hcap : threshold.toNat < 2 ^ 64 - 1 := UInt64.lt_iff_toNat_lt.1 hcap
  obtain ⟨_, _, hwithin⟩ := Exec.exec_invariant
    (I := PortWithin key threshold tickMs lo)
    (fun _ _ _ hI hc hstep => portWithin_step htick hcap hI hc hstep) hinit hports hrun
  exact hwithin.total

/-- Maps under which a port may have one packet a second and the SYN proxy is on. -/
def portLimitedMaps : Maps :=
  { config := { portRateLimitEnabled := 1, synProxyEnabled := 1 }
    portRateLimitCfg := { threshold := 1, tickMs := 1000 } }

/-- Of three UDP packets in a second only the first passes, though the SYN proxy is on. -/
theorem port_rate_backstop_udp :
    ∃ w', Exec.exec dataPlaneStep { maps := portLimitedMaps }
        [.packet () {} 1 udpFrame, .packet () {} 2 udpFrame, .packet () {} 3 udpFrame] = some w' ∧
      w'.log.map PacketRecord.verdict = [.pass, .drop, .drop] ∧
      (w'.log.filter (passedIn { protocol := IPPROTO_UDP, dport := bswap16 53 } 0
        (msToNs 1000).toNat)).length ≤ 2 * 1 := by
  have hguard : ∀ (m : Maps) (pc : PacketCtx) (module : UInt16),
      m.whitelistV4 = [] → m.config.projectEnabled = 0 → parse udpFrame = some pc →
      PortGuarded m udpFrame pc module := by
    intro m pc module hwhite hproject hparse
    cases (show parse udpFrame = some _ from rfl).symm.trans hparse
    refine ⟨?_, fun policy hmatched => ?_, fun htcp => absurd htcp (by decide)⟩
    · exact (congrArg (fun v4 => (LpmTrie.get v4 ⟨32, 0x0a000001#32⟩).isSome) hwhite :)
    · rw [matchedProject, if_pos (.inl hproject)] at hmatched
      cases hmatched
  have hports : Exec.Along dataPlaneStep
      (PortStep { protocol := IPPROTO_UDP, dport := bswap16 53 } 1 1000)
      { maps := portLimitedMaps }
      [.packet () {} 1 udpFrame, .packet () {} 2 udpFrame, .packet () {} 3 udpFrame] := by
    refine .cons rfl ⟨by decide, by decide, rfl, rfl, ?_⟩ (.cons rfl ⟨by decide, by decide, rfl, rfl,
      ?_⟩ (.cons rfl ⟨by decide, by decide, rfl, rfl, ?_⟩ trivial))
    all_goals exact fun pc module hparse _ _ _ => hguard _ pc module rfl rfl hparse
  exact ⟨_, rfl, by decide, port_rate_backstop rfl (by decide) (by decide) hports rfl 0⟩

/-- With the SYN proxy on, three TCP packets to one port pass in a second, and the limit is one. -/
theorem syn_proxy_skips_port_rate :
    ∃ w', Exec.exec dataPlaneStep { maps := portLimitedMaps }
        [.packet () {} 1 (tcpFrame (List.replicate 20 0)),
          .packet () {} 2 (tcpFrame (List.replicate 20 0)),
          .packet () {} 3 (tcpFrame (List.replicate 20 0))] = some w' ∧
      ¬ (w'.log.filter (passedIn { protocol := IPPROTO_TCP, dport := 0 } 0
        (msToNs 1000).toNat)).length ≤ 2 * 1 :=
  ⟨_, rfl, by decide⟩

end EShield.Ebpf
