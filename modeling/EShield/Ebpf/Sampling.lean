import EShield.Ebpf.Pipeline
import EShield.Lib.Exec

/-!
# Sampled counters over time

The calls of `is_blacklisted` and `drop_packet` on several CPUs, each of which has the sample counters
of its own statistics. Everything else may happen between two calls: the rest of the programs, the
control plane, evictions. The maps before and after each call are recorded beside the state.
-/

namespace EShield.Ebpf

/-- A call on a CPU, and whether it is one that is to be counted. -/
structure SampledCall (Cpu : Type*) where
  cpu : Cpu
  counted : Bool
  before : Maps
  after : Maps

/-- The statistics of `maps` are not used; each CPU works with its own. -/
structure SampledPlane (Cpu : Type*) where
  maps : Maps := {}
  stats : Cpu → GlobalStats := fun _ => {}
  lookups : List (SampledCall Cpu) := []
  drops : List (SampledCall Cpu) := []

inductive SampledLabel (Cpu : Type*) where
  | lookup (cpu : Cpu) (src : IpKey) (nowNs : UInt64)
  | drop (cpu : Cpu) (h : Helpers) (pc : PacketCtx) (ctx : XdpContext)
  /-- Anything else. Nothing else writes the two sample counters. -/
  | other (maps : Maps) (stats : Cpu → GlobalStats)

variable {Cpu : Type*} [DecidableEq Cpu]

/-- The maps as a program on `cpu` sees them. -/
def SampledPlane.mapsOn (w : SampledPlane Cpu) (cpu : Cpu) : Maps :=
  { w.maps with globalStats := w.stats cpu }

def sampledStep (w : SampledPlane Cpu) : SampledLabel Cpu → Option (SampledPlane Cpu)
  | .lookup cpu src nowNs =>
    let r := isBlacklisted (w.mapsOn cpu) src nowNs
    some
      { w with
        maps := r.2
        stats := Function.update w.stats cpu r.2.globalStats
        lookups := w.lookups ++
          [{ cpu := cpu, counted := r.1, before := w.mapsOn cpu, after := r.2 }] }
  | .drop cpu h pc ctx =>
    let r := dropPacket h { pc := pc, maps := w.mapsOn cpu, ctx := ctx }
    some
      { w with
        maps := r.2.maps
        stats := Function.update w.stats cpu r.2.maps.globalStats
        drops := w.drops ++
          [{ cpu := cpu, counted := true, before := w.mapsOn cpu, after := r.2.maps }] }
  | .other maps stats =>
    some
      { w with
        maps := maps
        stats := fun cpu =>
          { stats cpu with
            blacklistHitSample := (w.stats cpu).blacklistHitSample
            topAttackerSample := (w.stats cpu).topAttackerSample } }

end EShield.Ebpf
