import EShield.Ebpf.DataPlane

/-!
# What the data plane keeps about one source

The rows of the maps that belong to a source, the part of the maps that the control plane sets, and
the traffic of several sources as a source sees it: its own packets and what the control plane writes.
-/

namespace EShield.Ebpf

/-! ## Rows of a source -/

/-- A block without its hit count, whose sampling the sources of a CPU share. -/
def unsampled (e : BlockEntry) : BlockEntry := { e with hitCount := 0 }

/-- The part of the maps that no packet changes. -/
def Maps.settings (m : Maps) : Maps :=
  { m with
    blacklist := .empty
    globalStats := {}
    topAttackers := .empty
    events := []
    packetSamples := []
    rateMap := .empty
    rateMapPort := .empty
    portRateMap := .empty
    synProxyConn := .empty
    connTrack := .empty
    trustMap := .empty }

/-- Two states of the maps are the same for a source: the same settings, the same rows. Trust and the
limits of destination ports are not compared; the sources share what feeds them. -/
structure SameFor (src : IpKey) (m u : Maps) : Prop where
  settings : m.settings = u.settings
  blacklist : (m.blacklist src).map unsampled = (u.blacklist src).map unsampled
  rateMap : m.rateMap src = u.rateMap src
  rateMapPort : ∀ dport, m.rateMapPort { ip := src, dport := dport } =
    u.rateMapPort { ip := src, dport := dport }
  synProxyConn : m.synProxyConn src = u.synProxyConn src
  connTrack : m.connTrack src = u.connTrack src

/-- Nothing changed but rows of `src`, and what no source sees. -/
def TouchesOnly (src : IpKey) (m m' : Maps) : Prop := ∀ other, other ≠ src → SameFor other m' m

/-- A write of the control plane makes of states that are the same for `src` states that are. -/
def KeepsApart (src : IpKey) (write : Maps → Maps) : Prop :=
  ∀ m u, SameFor src m u → SameFor src (write m) (write u)

/-! ## Traffic -/

variable {Cpu : Type*} [DecidableEq Cpu]

inductive TrafficLabel (Cpu : Type*) where
  | packet (cpu : Cpu) (h : Helpers) (nowNs : UInt64) (ctx : XdpContext)
  /-- The control plane writes the maps, or an LRU map gives up entries. -/
  | write (f : Maps → Maps)

def trafficStep (w : DataPlane Cpu) : TrafficLabel Cpu → Option (DataPlane Cpu)
  | .packet cpu h nowNs ctx => dataPlaneStep w (.packet cpu h nowNs ctx)
  | .write f => dataPlaneStep w (.control (f w.maps))

/-- The frame is a packet of `src`. -/
def FromSource (src : IpKey) (ctx : XdpContext) : Prop := (parse ctx).map PacketCtx.src = some src

instance (src : IpKey) (ctx : XdpContext) : Decidable (FromSource src ctx) :=
  inferInstanceAs (Decidable (_ = _))

/-- The packets of other sources, and the frames that are packets of none. -/
def foreign (src : IpKey) : TrafficLabel Cpu → Bool
  | .packet _ _ _ ctx => ¬ FromSource src ctx
  | .write _ => false

/-- What a packet of `src` gets: the verdict and the frame that leaves the program. -/
def answerTo (src : IpKey) (w : DataPlane Cpu) : TrafficLabel Cpu → Option (XdpAction × XdpContext)
  | .packet cpu h nowNs ctx =>
    if FromSource src ctx then
      let r := tryEshield h nowNs ctx (w.mapsOn cpu)
      some (r.1, r.2.1)
    else none
  | .write _ => none

/-- Neither of the two modules whose counters the sources share is on when a packet comes: thresholds
do not follow the trust score, and destination ports have no limit of their own. What is written
between packets keeps the source apart. -/
def Separate (src : IpKey) (w : DataPlane Cpu) : TrafficLabel Cpu → Prop
  | .packet _ _ _ _ => w.maps.config.trustEnabled = 0 ∧ w.maps.config.portRateLimitEnabled = 0
  | .write f => KeepsApart src f

end EShield.Ebpf
