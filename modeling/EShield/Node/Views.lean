import EShield.Ebpf.Maps
import EShield.Lib.Tally
import EShield.Lib.TopRows
import EShield.Node.EventConsumer
import EShield.Node.PacketLog

/-!
# Views of the traffic

What the web interface shows of an address, from the log of sampled packets, and its table of the ports
with the most dropped packets. Packets carry readings of the monotonic clock; they are shown in time of
day.
-/

namespace EShield.Node

open Ebpf (LruHashMap)
open Tally TopRows

/-- A reading of the monotonic clock as nanoseconds of Unix time, `as u64`. -/
def monotonicToWallNs (tsNs : UInt64) (offsetNs : Int) : Nat :=
  (max (tsNs.toNat + offsetNs) 0).toNat % 2 ^ 64

/-! ## One address -/

structure IpDetailResponse where
  ip : String
  blacklisted : Bool
  hitCount : Nat
  trustScore : Nat
  trustLevel : UInt8
  dropCount : Nat
  passCount : Nat
  recentSamples : List PacketSampleEntry
  topPorts : List (UInt16 × Nat)

/-- The counts that the loop over the samples fills: drops, passes, and samples by destination port. -/
def countSamples (samples : List PacketSampleEntry) : Nat × Nat × List (UInt16 × Nat) :=
  samples.foldl
    (fun counts s =>
      if s.action = 0 then (counts.1 + 1, counts.2.1, bump counts.2.2 s.dstPort)
      else (counts.1, counts.2.1 + 1, bump counts.2.2 s.dstPort))
    (0, 0, [])

/-- `byPort` is the map of counts in the order in which it is iterated. -/
def ipDetail (blacklist : LruHashMap IpKey BlockEntry) (trustMap : LruHashMap IpKey TrustEntry)
    (log : PacketLog) (ip : String) (offsetNs : Int) (byPort : List (UInt16 × Nat)) :
    Except String IpDetailResponse := do
  let key ← parseIp ip
  let (blacklisted, hitCount) :=
    match blacklist key with
    | some entry => (true, entry.hitCount.toNat)
    | none => (false, 0)
  let (trustScore, trustLevel) :=
    match trustMap key with
    | some entry => (min (entry.trustScore.toNat / 10) 100, entry.level)
    | none => (50, 0)
  let samples := (log.query { ip := some ip, limit := 100 }).map fun s =>
    { s with timestampNs := UInt64.ofNat (monotonicToWallNs s.timestampNs offsetNs) }
  let (dropCount, passCount, _) := countSamples samples
  return {
    ip := ip
    blacklisted := blacklisted
    hitCount := hitCount
    trustScore := trustScore
    trustLevel := trustLevel
    dropCount := dropCount
    passCount := passCount
    recentSamples := samples
    topPorts := topRows 10 byPort }

/-! ## One address over time -/

structure IpSeriesPoint where
  timestamp : Nat
  dropCount : Option Nat
  passCount : Option Nat
  deriving DecidableEq

def minuteNs : Nat := 60000000000

/-- Dropped and passed samples of each minute that has any. -/
def fillBuckets (offsetNs : Int) (samples : List PacketSampleEntry) : Nat → Option (Nat × Nat) :=
  samples.foldl
    (fun buckets s =>
      let minute := monotonicToWallNs s.timestampNs offsetNs / minuteNs
      let entry := (buckets minute).getD (0, 0)
      Function.update buckets minute
        (some (if s.action = 0 then (entry.1 + 1, entry.2) else (entry.1, entry.2 + 1))))
    fun _ => none

def seriesPoint (buckets : Nat → Option (Nat × Nat)) (minute : Nat) : IpSeriesPoint :=
  match buckets minute with
  | some (d, p) => ⟨minute * 60, some d, some p⟩
  | none => ⟨minute * 60, none, none⟩

/-- The time from which samples are shown. -/
def seriesFromNs (durationS nowNs : UInt64) : UInt64 :=
  nowNs.saturatingSub (max 60 (min durationS 86400) * 1000000000)

def seriesQuery (ip : String) (fromNs : UInt64) : PacketLogQuery :=
  { ip := some ip, fromNs := some fromNs, limit := 10000 }

/-- The samples of the last `durationS` seconds by minute, from the first to the present one. -/
def ipSeries (log : PacketLog) (ip : String) (durationS nowNs : UInt64) (wallNowNs : Nat) :
    Except String (List IpSeriesPoint) := do
  let _ ← parseIp ip
  let fromNs := seriesFromNs durationS nowNs
  let samples := log.query (seriesQuery ip fromNs)
  let offsetNs : Int := wallNowNs - nowNs.toNat
  let buckets := fillBuckets offsetNs samples
  let startMinute := monotonicToWallNs fromNs offsetNs / minuteNs
  let endMinute := wallNowNs % 2 ^ 64 / minuteNs
  return (List.range' startMinute (endMinute + 1 - startMinute)).map (seriesPoint buckets)

/-! ## The ports under attack -/

/-- `rows` are the totals in the order in which the map is iterated. -/
def topPorts (rows : List (UInt16 × UInt64)) : List (UInt16 × UInt64) := topRows 10 rows

/-- An iteration of a map comes on each of its entries once. -/
structure Iterates {κ ν : Type} (rows : List (κ × ν)) (m : κ → Option ν) : Prop where
  nodup : (rows.map Prod.fst).Nodup
  mem_iff : ∀ k v, (k, v) ∈ rows ↔ m k = some v

end EShield.Node
