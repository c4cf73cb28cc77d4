import EShield.Common.Types
import EShield.Lib.Exec
import EShield.Lib.Saturating

/-!
# The exported statistics

`sync_global_stats` reads the counters of the data plane once a second, adds them up over the CPUs and
exports the sums and their increase since the tick before. A read that fails leaves the sums at zero.
-/

namespace EShield.Node

/-- What this task writes of the exported statistics. -/
structure Stats where
  totalPackets : UInt64 := 0
  totalDropped : UInt64 := 0
  totalPassed : UInt64 := 0
  synFloodBlocked : UInt64 := 0
  rateLimited : UInt64 := 0
  l7Blocked : UInt64 := 0
  udpFloodBlocked : UInt64 := 0
  icmpFloodBlocked : UInt64 := 0
  geoipBlocked : UInt64 := 0
  connTrackBlocked : UInt64 := 0
  blacklistBlocked : UInt64 := 0
  tcpRstSent : UInt64 := 0
  tcpRstFail : UInt64 := 0
  tcpRstAttempt : UInt64 := 0
  tcpDropped : UInt64 := 0
  udpDropped : UInt64 := 0
  icmpDropped : UInt64 := 0
  otherDropped : UInt64 := 0
  fragmentBlocked : UInt64 := 0
  portRateBlocked : UInt64 := 0
  currentPps : UInt64 := 0
  currentDps : UInt64 := 0

/-- The loop of the task between two ticks. -/
structure StatsSync where
  stats : Stats := {}
  lastPackets : UInt64 := 0
  lastDropped : UInt64 := 0

/-- Adds the counters of one CPU. -/
def accumulate (acc v : GlobalStats) : GlobalStats :=
  { acc with
    totalPackets := acc.totalPackets + v.totalPackets
    totalDropped := acc.totalDropped + v.totalDropped
    totalPassed := acc.totalPassed + v.totalPassed
    synFloodBlocked := acc.synFloodBlocked + v.synFloodBlocked
    rateLimited := acc.rateLimited + v.rateLimited
    l7Blocked := acc.l7Blocked + v.l7Blocked
    udpFloodBlocked := acc.udpFloodBlocked + v.udpFloodBlocked
    icmpFloodBlocked := acc.icmpFloodBlocked + v.icmpFloodBlocked
    geoipBlocked := acc.geoipBlocked + v.geoipBlocked
    connTrackBlocked := acc.connTrackBlocked + v.connTrackBlocked
    blacklistBlocked := acc.blacklistBlocked + v.blacklistBlocked
    tcpRstSent := acc.tcpRstSent + v.tcpRstSent
    tcpRstFail := acc.tcpRstFail + v.tcpRstFail
    tcpRstAttempt := acc.tcpRstAttempt + v.tcpRstAttempt
    tcpDropped := acc.tcpDropped + v.tcpDropped
    udpDropped := acc.udpDropped + v.udpDropped
    icmpDropped := acc.icmpDropped + v.icmpDropped
    otherDropped := acc.otherDropped + v.otherDropped
    fragmentBlocked := acc.fragmentBlocked + v.fragmentBlocked
    portRateBlocked := acc.portRateBlocked + v.portRateBlocked
  }

/-- The sums over the CPUs. -/
def sumCpus (values : List GlobalStats) : GlobalStats := values.foldl accumulate {}

/-- One tick with what the read of GLOBAL_STATS returns. -/
def syncGlobalStats (s : StatsSync) (read : Option (List GlobalStats)) : StatsSync :=
  let acc :=
    match read with
    | some values => sumCpus values
    | none => {}
  { stats :=
      { totalPackets := acc.totalPackets
        totalDropped := acc.totalDropped
        totalPassed := acc.totalPassed
        synFloodBlocked := acc.synFloodBlocked
        rateLimited := acc.rateLimited
        l7Blocked := acc.l7Blocked
        udpFloodBlocked := acc.udpFloodBlocked
        icmpFloodBlocked := acc.icmpFloodBlocked
        geoipBlocked := acc.geoipBlocked
        connTrackBlocked := acc.connTrackBlocked
        blacklistBlocked := acc.blacklistBlocked
        tcpRstSent := acc.tcpRstSent
        tcpRstFail := acc.tcpRstFail
        tcpRstAttempt := acc.tcpRstAttempt
        tcpDropped := acc.tcpDropped
        udpDropped := acc.udpDropped
        icmpDropped := acc.icmpDropped
        otherDropped := acc.otherDropped
        fragmentBlocked := acc.fragmentBlocked
        portRateBlocked := acc.portRateBlocked
        currentPps := acc.totalPackets.saturatingSub s.lastPackets
        currentDps := acc.totalDropped.saturatingSub s.lastDropped }
    lastPackets := acc.totalPackets
    lastDropped := acc.totalDropped }

/-! ## Runs -/

/-- The task over time, and beside it the sums that the last successful read found. -/
structure StatsRun where
  sync : StatsSync := {}
  lastRead : GlobalStats := {}

/-- A tick, with what the map holds for each CPU, be it readable or not. -/
inductive StatsTick where
  | read (values : List GlobalStats)
  | failed (values : List GlobalStats)

def StatsTick.values : StatsTick → List GlobalStats
  | .read values => values
  | .failed values => values

def statsStep (w : StatsRun) : StatsTick → Option StatsRun
  | .read values =>
    some { sync := syncGlobalStats w.sync (some values), lastRead := sumCpus values }
  | .failed _ => some { w with sync := syncGlobalStats w.sync none }

/-! ## The counters -/

/-- A counter that is exported as a total. -/
inductive Counter where
  | totalPackets
  | totalDropped
  | totalPassed
  | synFloodBlocked
  | rateLimited
  | l7Blocked
  | udpFloodBlocked
  | icmpFloodBlocked
  | geoipBlocked
  | connTrackBlocked
  | blacklistBlocked
  | tcpRstSent
  | tcpRstFail
  | tcpRstAttempt
  | tcpDropped
  | udpDropped
  | icmpDropped
  | otherDropped
  | fragmentBlocked
  | portRateBlocked

/-- The counter in the sums of the kernel. -/
def Counter.kernel : Counter → GlobalStats → UInt64
  | .totalPackets => GlobalStats.totalPackets
  | .totalDropped => GlobalStats.totalDropped
  | .totalPassed => GlobalStats.totalPassed
  | .synFloodBlocked => GlobalStats.synFloodBlocked
  | .rateLimited => GlobalStats.rateLimited
  | .l7Blocked => GlobalStats.l7Blocked
  | .udpFloodBlocked => GlobalStats.udpFloodBlocked
  | .icmpFloodBlocked => GlobalStats.icmpFloodBlocked
  | .geoipBlocked => GlobalStats.geoipBlocked
  | .connTrackBlocked => GlobalStats.connTrackBlocked
  | .blacklistBlocked => GlobalStats.blacklistBlocked
  | .tcpRstSent => GlobalStats.tcpRstSent
  | .tcpRstFail => GlobalStats.tcpRstFail
  | .tcpRstAttempt => GlobalStats.tcpRstAttempt
  | .tcpDropped => GlobalStats.tcpDropped
  | .udpDropped => GlobalStats.udpDropped
  | .icmpDropped => GlobalStats.icmpDropped
  | .otherDropped => GlobalStats.otherDropped
  | .fragmentBlocked => GlobalStats.fragmentBlocked
  | .portRateBlocked => GlobalStats.portRateBlocked

/-- The counter as it is exported. -/
def Counter.exported : Counter → Stats → UInt64
  | .totalPackets => Stats.totalPackets
  | .totalDropped => Stats.totalDropped
  | .totalPassed => Stats.totalPassed
  | .synFloodBlocked => Stats.synFloodBlocked
  | .rateLimited => Stats.rateLimited
  | .l7Blocked => Stats.l7Blocked
  | .udpFloodBlocked => Stats.udpFloodBlocked
  | .icmpFloodBlocked => Stats.icmpFloodBlocked
  | .geoipBlocked => Stats.geoipBlocked
  | .connTrackBlocked => Stats.connTrackBlocked
  | .blacklistBlocked => Stats.blacklistBlocked
  | .tcpRstSent => Stats.tcpRstSent
  | .tcpRstFail => Stats.tcpRstFail
  | .tcpRstAttempt => Stats.tcpRstAttempt
  | .tcpDropped => Stats.tcpDropped
  | .udpDropped => Stats.udpDropped
  | .icmpDropped => Stats.icmpDropped
  | .otherDropped => Stats.otherDropped
  | .fragmentBlocked => Stats.fragmentBlocked
  | .portRateBlocked => Stats.portRateBlocked

end EShield.Node
