import EShield.Ebpf.DataPlane

/-!
# The program without a module

The modules that a protection project can select, and what the program does with one of them taken
out: the pipeline without the module's stage, or, for the reset, with the reset switched off.
-/

namespace EShield.Ebpf

inductive ProjectModule where
  | synFlood
  | udpFlood
  | icmpFlood
  | rateLimit
  | l7Scan
  | geoip
  | connTrack
  | tcpReset
  deriving DecidableEq, Repr

namespace ProjectModule

def bit : ProjectModule → UInt16
  | synFlood => project_modules.SYN_FLOOD
  | udpFlood => project_modules.UDP_FLOOD
  | icmpFlood => project_modules.ICMP_FLOOD
  | rateLimit => project_modules.RATE_LIMIT
  | l7Scan => project_modules.L7_SCAN
  | geoip => project_modules.GEOIP
  | connTrack => project_modules.CONN_TRACK
  | tcpReset => project_modules.TCP_RESET

/-- Where the module's stage stands; the reset has none of its own, it is part of every drop. -/
def stage : ProjectModule → Option Nat
  | geoip => some 4
  | connTrack => some 5
  | synFlood => some 6
  | udpFlood => some 7
  | icmpFlood => some 8
  | l7Scan => some 9
  | rateLimit => some 10
  | tcpReset => none

end ProjectModule

/-- The packet with the reset switched off. -/
def noReset (s : PacketState) : PacketState := { s with pc := { s.pc with tcpResetOnDrop := 0 } }

/-- The stages with one of them replaced by one that lets every packet go on. -/
def stagesWithout (h : Helpers) (runtime : RuntimeConfig) (module : ProjectModule) :
    List (PacketState → Option XdpAction × PacketState) :=
  match module.stage with
  | some i => (stages h runtime).set i fun s => (none, s)
  | none => stages h runtime

def enterWithout (module : ProjectModule) (s : PacketState) : PacketState :=
  if module = .tcpReset then noReset s else s

/-- The program on one frame, without a module. -/
def tryEshieldWithout (module : ProjectModule) (h : Helpers) (nowNs : UInt64) (ctx : XdpContext)
    (m : Maps) : XdpAction × XdpContext × Maps :=
  match parse ctx with
  | none => (.pass, ctx, m)
  | some pc =>
    let s := enterWithout module (enter nowNs ctx m pc)
    if isWhitelisted m pc.src then (.pass, ctx, countPassed s.maps s.pc)
    else leave (runStages h (stagesWithout h m.config module) s)

/-- With or without the module, the verdict, the frame and all maps are the same. -/
def HasNoEffect (module : ProjectModule) (h : Helpers) (nowNs : UInt64) (ctx : XdpContext)
    (m : Maps) : Prop :=
  tryEshield h nowNs ctx m = tryEshieldWithout module h nowNs ctx m

/-- A stage refuses the packet and leaves it to `drop_packet`, which all do but the SYN proxy: it gives
its verdicts itself. -/
def LeftToDropPacket (h : Helpers) (runtime : RuntimeConfig) (s : PacketState) : Prop :=
  ∃ i f t, (stages h runtime)[i]? = some f ∧
    runStages h ((stages h runtime).take i) s = (none, t) ∧
    (∃ a, (f t).1 = some a ∧ a ≠ .pass) ∧
    ¬ (i = 6 ∧ ToSynProxy runtime.synProxyEnabled t)

end EShield.Ebpf
