import EShield.Lib.BoundedLog
import EShield.Lib.Tally
import EShield.Node.Adaptive

/-!
# The consumer of drop events

The data plane puts an event into a ring buffer for a packet that it drops. `event_consumer.rs` takes
the events out in batches, counts them by destination port, keeps the newest for display and gives
their counts by source to the adaptive engine.
-/

namespace EShield.Node

open BoundedLog Exec Tally

/-- What the consumer reads and writes of the statistics. -/
structure EventStats where
  /-- The monotonic clock at the start of the program, 0 if unknown. -/
  programStartNs : UInt64 := 0
  portDropped : UInt16 → Option UInt64 := fun _ => none
  recentAttacks : List DropEvent := []

namespace EventStats

/-- `fetch_add`, which wraps around. -/
def fetchAdd (total : UInt64) (count : Nat) : UInt64 := total + UInt64.ofNat count

def addDroppedBatch (stats : EventStats) (byPort : List (UInt16 × Nat)) : EventStats :=
  { stats with
    portDropped := (byPort.filter fun e => e.1 ≠ 0).foldl (add fetchAdd 0) stats.portDropped }

def pushAttackEvents (stats : EventStats) (events : List DropEvent) : EventStats :=
  { stats with recentAttacks := pushMany 1000 stats.recentAttacks events }

/-- The newest events, the last one first. -/
def attackEvents (stats : EventStats) (limit : Nat) : List DropEvent :=
  stats.recentAttacks.reverse.take limit

end EventStats

/-- The event was left in the ring buffer before the program started. -/
def Stale (programStartNs : UInt64) (event : DropEvent) : Prop :=
  programStartNs ≠ 0 ∧ event.timestampNs.saturatingAdd 1000000000 < programStartNs

instance (programStartNs : UInt64) (event : DropEvent) : Decidable (Stale programStartNs event) :=
  inferInstanceAs (Decidable (_ ∧ _))

def eventSource (event : DropEvent) : Option IpKey :=
  match IpFamily.fromU8 event.family with
  | some .ipv4 => some (.fromIpv4 (event.srcIp.setWidth 32))
  | some .ipv6 => some (.fromIpv6 event.srcIp)
  | none => none

/-- The data plane has not dealt with the source itself. -/
def ForEngine (event : DropEvent) : Prop :=
  event.ruleId ≠ rules.GEOIP ∧ event.ruleId ≠ rules.SYN_FLOOD ∧ event.ruleId ≠ rules.UDP_FLOOD ∧
    event.ruleId ≠ rules.ICMP_FLOOD ∧ event.ruleId ≠ rules.BLACKLIST

instance (event : DropEvent) : Decidable (ForEngine event) :=
  inferInstanceAs (Decidable (_ ∧ _ ∧ _ ∧ _ ∧ _))

/-- The counts by port and by source that the loop over a batch fills. -/
def countEvents (enabled : Bool) (events : List DropEvent) :
    List (UInt16 × Nat) × List (IpKey × Nat) :=
  events.foldl
    (fun counts event =>
      match eventSource event with
      | none => counts
      | some srcKey =>
        (bump counts.1 event.dstPort,
          if enabled ∧ ForEngine event then bump counts.2 srcKey else counts.2))
    ([], [])

/-! ## Runs -/

/-- The ring buffer, the statistics and the adaptive engine. Beside them it is recorded what the data
plane has put into the buffer, which events the consumer has taken out, and which of these it took out
while the engine was enabled. -/
structure EventRun where
  stats : EventStats
  adaptive : AdaptiveRun
  ringBuf : List (Option DropEvent) := []
  arrived : List (Option DropEvent) := []
  taken : List DropEvent := []
  takenEnabled : List DropEvent := []

/-- A call of `on_events` for a source, with its count and its readings of the clock. -/
structure EngineCall where
  srcKey : IpKey
  count : Nat
  nowS : UInt64
  untilReadNs : UInt64
  nowNs : UInt64

def EngineCall.label (call : EngineCall) : AdaptiveLabel :=
  .events call.srcKey (UInt64.ofNat call.count) call.nowS call.untilReadNs call.nowNs

inductive EventLabel where
  /-- The data plane puts an item into the ring buffer; `none` is one too short for an event. -/
  | emit (item : Option DropEvent)
  /-- One call of `run`. Both maps of counts are iterated in an arbitrary order. -/
  | consume (byPort : List (UInt16 × Nat)) (calls : List EngineCall)
  | updateConfig (config : AdaptiveConfig)
  /-- The other tasks that touch the engine or the map. -/
  | other (label : AdaptiveLabel)

def eventBatch : Nat := 4096

def consume (w : EventRun) (byPort : List (UInt16 × Nat)) (calls : List EngineCall) :
    Option EventRun :=
  let (events, ringBuf) := drain eventBatch 0 w.ringBuf
  let validEvents := events.filter fun event => ¬ Stale w.stats.programStartNs event
  let stats := w.stats.pushAttackEvents validEvents
  let enabled := w.adaptive.engine.config.enabled
  let counts := countEvents enabled validEvents
  if byPort.Perm counts.1 ∧ (calls.map fun call => (call.srcKey, call.count)).Perm counts.2 then
    (exec adaptiveStep w.adaptive (calls.map EngineCall.label)).map fun adaptive =>
      { w with
        stats := stats.addDroppedBatch byPort
        adaptive := adaptive
        ringBuf := ringBuf
        taken := w.taken ++ events
        takenEnabled := w.takenEnabled ++ if enabled then events else [] }
  else none

def eventStep (w : EventRun) : EventLabel → Option EventRun
  | .emit item =>
    some { w with ringBuf := w.ringBuf ++ [item], arrived := w.arrived ++ [item] }
  | .consume byPort calls => consume w byPort calls
  | .updateConfig config =>
    some { w with adaptive.engine.config := config }
  | .other label =>
    match label with
    | .events .. => none
    | label => (adaptiveStep w.adaptive label).map fun adaptive => { w with adaptive := adaptive }

/-- The consumer before its first batch. -/
def EventRun.start (programStartNs : UInt64) (config : AdaptiveConfig) : EventRun :=
  { stats := { programStartNs := programStartNs }
    adaptive := { engine := .new config } }

end EShield.Node
