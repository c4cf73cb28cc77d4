import EShield.Lib.Exec
import EShield.Node.Ip
import EShield.Node.StatsSync

/-!
# The metrics series

`timeseries.rs` samples the statistics every ten seconds into a window of fixed capacity. Once a minute
the points that are new since the last time go into a table of the store, and what is older than the
retention period leaves it; at a restart the window is filled from the table.
-/

namespace EShield.Node

open Exec

structure MetricPoint where
  timestamp : UInt64
  totalPackets : UInt64
  totalPassed : UInt64
  totalDropped : UInt64
  blacklistBlocked : UInt64
  rateLimited : UInt64
  synFloodBlocked : UInt64
  l7Blocked : UInt64
  adaptiveBlocked : UInt64
  udpFloodBlocked : UInt64
  icmpFloodBlocked : UInt64
  geoipBlocked : UInt64
  /-- Dropped packets per second since the previous point, if any packet was seen. -/
  dps : Option UInt64
  pps : Option UInt64
  dpsMax : Option UInt64
  ppsMax : Option UInt64
  hasData : Bool
  topAttackers : List (String × UInt64)
  portDropped : List (UInt16 × UInt64)
  deriving DecidableEq

/-- What a sample reads of the statistics. -/
structure StatsReading where
  stats : Stats := {}
  adaptiveBlocked : UInt64 := 0
  topAttackers : List (IpKey × UInt64) := []
  portDropped : List (UInt16 × UInt64) := []

structure TimeSeriesWindow where
  slots : List MetricPoint := []
  capacity : Nat
  intervalS : UInt64
  /-- The time of the newest slot, 0 if there is none. -/
  headTimestamp : UInt64 := 0
  lastTotalPackets : UInt64 := 0
  lastTotalDropped : UInt64 := 0
  lastTotalPassed : UInt64 := 0

namespace TimeSeriesWindow

/-- The point for the present statistics. The first one has no rates. -/
def point (window : TimeSeriesWindow) (r : StatsReading) (nowS : UInt64) : MetricPoint :=
  let first := window.headTimestamp = 0
  let elapsed :=
    if first then window.intervalS else max (nowS.saturatingSub window.headTimestamp) 1
  let delta (total last : UInt64) := if first then 0 else total.saturatingSub last
  let hasData := ¬ first ∧ delta r.stats.totalPackets window.lastTotalPackets > 0
  let dps :=
    if hasData then some (delta r.stats.totalDropped window.lastTotalDropped / elapsed) else none
  let pps :=
    if hasData then some (delta r.stats.totalPassed window.lastTotalPassed / elapsed) else none
  { timestamp := nowS
    totalPackets := r.stats.totalPackets
    totalPassed := r.stats.totalPassed
    totalDropped := r.stats.totalDropped
    blacklistBlocked := r.stats.blacklistBlocked
    rateLimited := r.stats.rateLimited
    synFloodBlocked := r.stats.synFloodBlocked
    l7Blocked := r.stats.l7Blocked
    adaptiveBlocked := r.adaptiveBlocked
    udpFloodBlocked := r.stats.udpFloodBlocked
    icmpFloodBlocked := r.stats.icmpFloodBlocked
    geoipBlocked := r.stats.geoipBlocked
    dps := dps
    pps := pps
    dpsMax := dps
    ppsMax := pps
    hasData := hasData
    topAttackers := r.topAttackers.map fun e => (formatIpKey e.1, e.2)
    portDropped := r.portDropped }

/-- A second point in the same second is not taken. -/
def Skips (window : TimeSeriesWindow) (nowS : UInt64) : Prop :=
  nowS = window.headTimestamp ∧ window.slots ≠ []

instance (window : TimeSeriesWindow) (nowS : UInt64) : Decidable (window.Skips nowS) :=
  inferInstanceAs (Decidable (_ ∧ _))

def record (window : TimeSeriesWindow) (r : StatsReading) (nowS : UInt64) : TimeSeriesWindow :=
  if window.Skips nowS then window
  else
    let slots := if window.slots.length = window.capacity then window.slots.tail else window.slots
    { window with
      slots := slots ++ [window.point r nowS]
      headTimestamp := nowS
      lastTotalPackets := r.stats.totalPackets
      lastTotalDropped := r.stats.totalDropped
      lastTotalPassed := r.stats.totalPassed }

def lastTimestamp (window : TimeSeriesWindow) : UInt64 :=
  (window.slots.getLast?.map MetricPoint.timestamp).getD 0

def snapshotAfter (window : TimeSeriesWindow) (timestamp : UInt64) : List MetricPoint :=
  window.slots.filter fun p => p.timestamp > timestamp

/-- The points of the last `durationS` seconds, all of them for 0. -/
def snapshot (window : TimeSeriesWindow) (durationS nowS : UInt64) : List MetricPoint :=
  let cutoff := nowS.saturatingSub durationS
  if durationS = 0 then window.slots
  else window.slots.dropWhile fun p => p.timestamp < cutoff

/-- The newest `capacity` of the points that were kept. The counters of a new process start at 0. -/
def load (window : TimeSeriesWindow) (points : List MetricPoint) : TimeSeriesWindow :=
  if points = [] then window
  else
    let slots := points.drop (points.length - window.capacity)
    match slots.getLast? with
    | some last =>
      { window with
        slots := slots
        headTimestamp := last.timestamp
        lastTotalPackets := 0
        lastTotalDropped := 0
        lastTotalPassed := 0 }
    | none => { window with slots := slots }

end TimeSeriesWindow

/-! ## The table -/

/-- The TIMESERIES table: one row for each second, in order. -/
abbrev TimeSeriesTable := Std.ExtTreeMap UInt64 MetricPoint

namespace TimeSeriesTable

def loadTimeseries (table : TimeSeriesTable) (since : UInt64) : List MetricPoint :=
  ((table.toList.filter fun e => e.1 ≥ since).map Prod.snd).mergeSort fun a b =>
    a.timestamp ≤ b.timestamp

def saveTimeseries (table : TimeSeriesTable) (points : List MetricPoint) : TimeSeriesTable :=
  points.foldl (fun table p => table.insert p.timestamp p) table

def pruneTimeseries (table : TimeSeriesTable) (before : UInt64) : TimeSeriesTable :=
  table.filter fun timestamp _ => !decide (timestamp < before)

end TimeSeriesTable

/-! ## Runs -/

/-- The service with its restarts while the system is up. Beside the state, `history` is what was
recorded and is neither lost nor out of the retention period: a point is lost if the window drops it
before it was written, or if the service stops before. -/
structure SeriesRun where
  retentionS : UInt64
  window : TimeSeriesWindow
  table : TimeSeriesTable := ∅
  lastPersistedTs : UInt64 := 0
  clockS : UInt64
  history : List MetricPoint := []

inductive SeriesLabel where
  | record (r : StatsReading) (nowS : UInt64)
  /-- The minute's write, which may fail, and the clean-up behind it, which may fail too. -/
  | persist (saved pruned : Bool) (nowS : UInt64)
  | restart (nowS : UInt64)

def newWindow : TimeSeriesWindow := { capacity := 8640, intervalS := 10 }

/-- What the window drops for the next point. -/
def lostSlot (w : SeriesRun) : Option MetricPoint :=
  if w.window.slots.length = w.window.capacity then
    w.window.slots.head?.filter fun p => p.timestamp > w.lastPersistedTs
  else none

def recordPoint (w : SeriesRun) (r : StatsReading) (nowS : UInt64) : SeriesRun :=
  { w with
    window := w.window.record r nowS
    clockS := nowS
    history :=
      if w.window.Skips nowS then w.history
      else
        (w.history.filter fun p => ∀ lost ∈ lostSlot w, p.timestamp ≠ lost.timestamp) ++
          [w.window.point r nowS] }

def persist (w : SeriesRun) (saved pruned : Bool) (nowS : UInt64) : SeriesRun :=
  let points := w.window.snapshotAfter w.lastPersistedTs
  let before := nowS.saturatingSub w.retentionS
  let written :=
    match points.getLast? with
    | some last =>
      if saved then (w.table.saveTimeseries points, last.timestamp) else (w.table, w.lastPersistedTs)
    | none => (w.table, w.lastPersistedTs)
  { w with
    table := if pruned then written.1.pruneTimeseries before else written.1
    lastPersistedTs := written.2
    clockS := nowS }

def restartSeries (w : SeriesRun) (nowS : UInt64) : SeriesRun :=
  let since := nowS.saturatingSub w.retentionS
  let points := (w.table.loadTimeseries since).filter fun p => p.timestamp ≤ nowS
  let window := newWindow.load points
  { w with
    window := window
    lastPersistedTs := window.lastTimestamp
    clockS := nowS
    history := w.history.filter fun p => since ≤ p.timestamp ∧ p.timestamp ≤ w.lastPersistedTs }

/-- The monotonic clock does not go back while the system is up. -/
def seriesStep (w : SeriesRun) (label : SeriesLabel) : Option SeriesRun :=
  let nowS :=
    match label with
    | .record _ nowS => nowS
    | .persist _ _ nowS => nowS
    | .restart nowS => nowS
  if nowS < w.clockS then none
  else
    match label with
    | .record r nowS => some (recordPoint w r nowS)
    | .persist saved pruned nowS => some (persist w saved pruned nowS)
    | .restart nowS => some (restartSeries w nowS)

/-- The first start, a second or more after that of the system, with an empty table. At a restart the
table can always be read. -/
def SeriesRun.start (retentionS : UInt64) : SeriesRun :=
  { retentionS := retentionS, window := newWindow, clockS := 1 }

end EShield.Node
