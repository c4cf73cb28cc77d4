import EShield.Ebpf.Pipeline
import EShield.Lib.Exec

/-!
# The data plane over time

Packets come to several CPUs. Each CPU has statistics of its own; the other maps are shared, and the
control plane may change them between two packets. Which packets came, and what became of them, is
recorded beside the state.
-/

namespace EShield.Ebpf

/-! ## The parts of `tryEshield` -/

/-- A parsed packet on its way to the first stage. -/
def enter (nowNs : UInt64) (ctx : XdpContext) (m : Maps) (pc : PacketCtx) : PacketState :=
  { pc :=
      { pc with
        nowNs := nowNs
        tcpResetOnDrop := m.config.tcpResetOnDrop
        trustAddDivisor := max m.config.trustAddDivisor 1
        trustSubDivisor := max m.config.trustSubDivisor 1 }
    maps := m.withStats fun st => { st with totalPackets := st.totalPackets + 1 }
    ctx := ctx }

/-- The end of a run: a packet on which no stage has acted passes. -/
def leave : Option XdpAction × PacketState → XdpAction × XdpContext × Maps
  | (some action, s) => (action, s.ctx, s.maps)
  | (none, s) => (.pass, s.ctx, countPassed s.maps s.pc)

theorem tryEshield_of_parse {h : Helpers} {nowNs : UInt64} {ctx : XdpContext} {m : Maps}
    {pc : PacketCtx} (hparse : parse ctx = some pc) :
    tryEshield h nowNs ctx m =
      if isWhitelisted m pc.src then
        (.pass, ctx, countPassed (enter nowNs ctx m pc).maps (enter nowNs ctx m pc).pc)
      else leave (runStages h (stages h m.config) (enter nowNs ctx m pc)) := by
  unfold tryEshield
  rw [hparse]
  rfl

/-- The stages before the one for TCP. -/
def stagesBeforeTcp (h : Helpers) (runtime : RuntimeConfig) :
    List (PacketState → Option XdpAction × PacketState) :=
  (stages h runtime).take 6

/-- The stage for TCP, behind the check of the protocol. -/
def tcpStage (h : Helpers) (runtime : RuntimeConfig) (s : PacketState) :
    Option XdpAction × PacketState :=
  if s.pc.protocol = IPPROTO_TCP then
    checkTcpDrop h runtime.synProxyEnabled runtime.portRateLimitEnabled s
  else (none, s)

/-- The stages behind the one for TCP. -/
def stagesAfterTcp (h : Helpers) (runtime : RuntimeConfig) :
    List (PacketState → Option XdpAction × PacketState) :=
  (stages h runtime).drop 7

theorem stages_split (h : Helpers) (runtime : RuntimeConfig) :
    stages h runtime =
      stagesBeforeTcp h runtime ++ tcpStage h runtime :: stagesAfterTcp h runtime := rfl

/-- The stage of the packet's protocol; the stages of the others pass it on. -/
def protocolStage (h : Helpers) (runtime : RuntimeConfig) (s : PacketState) :
    Option XdpAction × PacketState :=
  if s.pc.protocol = IPPROTO_TCP then
    checkTcpDrop h runtime.synProxyEnabled runtime.portRateLimitEnabled s
  else if s.pc.protocol = IPPROTO_UDP then
    checkUdpDrop h runtime.udpFloodEnabled runtime.portRateLimitEnabled s
  else checkIcmpDrop h runtime.icmpFloodEnabled runtime.portRateLimitEnabled s

/-- The L7 scan behind its switch. -/
def l7Stage (h : Helpers) (runtime : RuntimeConfig) (s : PacketState) :
    Option XdpAction × PacketState :=
  if runtime.l7ScanEnabled ≠ 0 then checkL7Drop h (min runtime.l7PatternCount 8) s else (none, s)

theorem stagesAfterTcp_eq (h : Helpers) (runtime : RuntimeConfig) :
    stagesAfterTcp h runtime =
      [ checkUdpDrop h runtime.udpFloodEnabled runtime.portRateLimitEnabled,
        checkIcmpDrop h runtime.icmpFloodEnabled runtime.portRateLimitEnabled,
        l7Stage h runtime,
        checkRateLimitDrop h ] := rfl

/-- The project module that guards a protocol. -/
def floodModule (protocol : UInt8) : Option UInt16 :=
  if protocol = IPPROTO_TCP then some project_modules.SYN_FLOOD
  else if protocol = IPPROTO_UDP then some project_modules.UDP_FLOOD
  else if protocol = IPPROTO_ICMP ∨ protocol = IPPROTO_ICMPV6 then some project_modules.ICMP_FLOOD
  else none

/-- The destination port that the port limit counts the packet under, in network order; zero for a
protocol without ports. -/
def PacketCtx.limitedPort (pc : PacketCtx) : UInt16 :=
  if pc.protocol = IPPROTO_TCP ∨ pc.protocol = IPPROTO_UDP then bswap16 pc.dport else 0

/-- The TCP stage leaves the packet to the SYN proxy. -/
def ToSynProxy (synProxyEnabled : UInt8) (s : PacketState) : Prop :=
  s.pc.protocol = IPPROTO_TCP ∧ s.pc.projectFlags &&& project_modules.SYN_FLOOD ≠ 0 ∧
    s.pc.fragment = false ∧ s.pc.src.family = IpFamily.ipv4.toU8 ∧ synProxyEnabled ≠ 0

instance (synProxyEnabled : UInt8) (s : PacketState) : Decidable (ToSynProxy synProxyEnabled s) :=
  inferInstanceAs (Decidable (_ ∧ _))

/-- The TCP stage answers this packet with a SYN cookie. -/
def answersWithCookie (h : Helpers) (synProxyEnabled : UInt8) (s : PacketState) : Bool :=
  if ToSynProxy synProxyEnabled s then
    match s.ctx.ptrAt IP_HDR_LEN ETH_HDR_LEN,
      s.ctx.ptrAt TCP_HDR_LEN (ETH_HDR_LEN + s.pc.ipHdrLen) with
    | some ip, some tcp =>
      (handleSyn h s.ctx s.maps { ipHdrLen := s.pc.ipHdrLen, nowNs := s.pc.nowNs } ip tcp).1 =
        some .tx
    | _, _ => false
  else false

/-- The program answers this frame with a SYN cookie. -/
def cookieAnswered (h : Helpers) (nowNs : UInt64) (ctx : XdpContext) (m : Maps) : Bool :=
  match parse ctx with
  | none => false
  | some pc =>
    !isWhitelisted m pc.src &&
      match runStages h (stagesBeforeTcp h m.config) (enter nowNs ctx m pc) with
      | (none, s) => answersWithCookie h m.config.synProxyEnabled s
      | (some _, _) => false

/-! ## Several CPUs -/

/-- A packet that has been through the program. -/
structure PacketRecord where
  nowNs : UInt64
  /-- The frame as it came. -/
  ctx : XdpContext
  verdict : XdpAction
  cookie : Bool

/-- The statistics of `maps` are not used; each CPU works with its own. -/
structure DataPlane (Cpu : Type*) where
  maps : Maps := {}
  stats : Cpu → GlobalStats := fun _ => {}
  log : List PacketRecord := []

inductive DataPlaneLabel (Cpu : Type*) where
  | packet (cpu : Cpu) (h : Helpers) (nowNs : UInt64) (ctx : XdpContext)
  /-- The control plane writes the maps, or an LRU map gives up entries. -/
  | control (maps : Maps)

variable {Cpu : Type*} [DecidableEq Cpu]

/-- The maps as a program on `cpu` sees them. -/
def DataPlane.mapsOn (w : DataPlane Cpu) (cpu : Cpu) : Maps :=
  { w.maps with globalStats := w.stats cpu }

def dataPlaneStep (w : DataPlane Cpu) : DataPlaneLabel Cpu → Option (DataPlane Cpu)
  | .packet cpu h nowNs ctx =>
    let r := tryEshield h nowNs ctx (w.mapsOn cpu)
    some
      { maps := r.2.2
        stats := Function.update w.stats cpu r.2.2.globalStats
        log := w.log ++
          [{ nowNs := nowNs, ctx := ctx, verdict := r.1
             cookie := cookieAnswered h nowNs ctx (w.mapsOn cpu) }] }
  | .control maps => some { w with maps := maps }

end EShield.Ebpf
