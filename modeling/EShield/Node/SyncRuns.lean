import EShield.Lib.Exec
import EShield.Node.Adaptive
import EShield.Node.BlacklistSync

/-!
# Runs of blocks, hits, unblocks and passes

Here the operations do not overlap. The generations of additions and of hits are those the data plane
keeps in GLOBAL_STATS; the adaptive engine and `unblock_ip_key` write the map without counting.
-/

namespace EShield.Node

open Ebpf (Maps)

namespace SyncWorld

/-- The entries of the map that a pass looks at. -/
def syncSnapshot (s : SyncWorld) (nowNs : UInt64) (gens : Option (UInt64 × UInt64))
    (keys : List IpKey) : List (IpKey × BlockEntry) :=
  if s.needScan nowNs gens then keys.filterMap fun k => (s.blacklist k).map fun e => (k, e) else []

/-- Saves an entry and remembers it. -/
def savePending (updatedNs : IpKey → UInt64) (s : SyncWorld) (p : PendingSave) : SyncWorld :=
  { s with
    store :=
      s.store.saveBlacklist p.key p.entry.blockedUntilNs p.entry.blockReason p.entry.firstSeenNs
        p.origin (updatedNs p.key)
    cache := s.cache.insert p.key (cachedEntry p.entry) }

/-- `sync_once` as a whole; `keys` is the order in which the map is iterated. -/
def syncOnce (s : SyncWorld) (nowNs : UInt64) (gens : Option (UInt64 × UInt64))
    (keys : List IpKey) (updatedNs : IpKey → UInt64) : SyncWorld :=
  let pending := dropHubRows s.store (changedEntries s.cache (s.syncSnapshot nowNs gens keys))
  (pending.foldl (savePending updatedNs) s).finishPass
    { nowNs := nowNs, gens := gens, scanned := s.needScan nowNs gens }

end SyncWorld

/-- `insertedSince` records history: an entry was inserted since the last scan. -/
structure SyncNode where
  world : SyncWorld
  stats : GlobalStats := {}
  clockNs : UInt64 := 0
  insertedSince : Bool := true

namespace SyncNode

/-- The map and its statistics. -/
def maps (n : SyncNode) : Maps := { blacklist := n.world.blacklist, globalStats := n.stats }

def setMaps (n : SyncNode) (m : Maps) : SyncNode :=
  { n with world := { n.world with blacklist := m.blacklist }, stats := m.globalStats }

end SyncNode

/-- The operations, with the readings of the clock. -/
inductive SyncOp where
  | addToBlacklist (key : IpKey) (durationS : UInt64) (reason : UInt8) (nowNs : UInt64)
  | adaptiveBlock (key : IpKey) (durationS untilReadNs nowNs : UInt64)
  | isBlacklisted (key : IpKey) (nowNs : UInt64)
  | unblockIpKey (key : IpKey) (nowNs : UInt64)
  /-- A pass; `readable` says whether it can read the generations. -/
  | syncOnce (nowNs : UInt64) (readable : Bool) (keys : List IpKey) (updatedNs : IpKey → UInt64)

namespace SyncOp

def nowNs : SyncOp → UInt64
  | addToBlacklist _ _ _ nowNs => nowNs
  | adaptiveBlock _ _ _ nowNs => nowNs
  | isBlacklisted _ nowNs => nowNs
  | unblockIpKey _ nowNs => nowNs
  | syncOnce nowNs _ _ _ => nowNs

end SyncOp

/-- The generations that a pass reads. -/
def SyncNode.gens (n : SyncNode) (readable : Bool) : Option (UInt64 × UInt64) :=
  if readable then some (n.stats.blacklistGen, n.stats.blacklistHitGen) else none

open SyncNode in
/-- One operation as a whole. -/
def syncNodeStep (n : SyncNode) (op : SyncOp) : Option SyncNode :=
  if op.nowNs < n.clockNs then none
  else
    let n := { n with clockNs := op.nowNs }
    match op with
    | .addToBlacklist key durationS reason nowNs =>
      some
        { n.setMaps (Ebpf.addToBlacklist n.maps key nowNs durationS reason) with
          insertedSince := true }
    | .adaptiveBlock key durationS untilReadNs nowNs =>
      some
        { n with
          world :=
            { n.world with
              blacklist := Node.adaptiveBlock n.world.blacklist key durationS untilReadNs nowNs }
          insertedSince := true }
    | .isBlacklisted key nowNs =>
      let m := (Ebpf.isBlacklisted n.maps key nowNs).2
      -- Only a sampled hit writes its entry.
      let sampled := m.globalStats.blacklistHitGen ≠ n.stats.blacklistHitGen
      some { n.setMaps m with insertedSince := n.insertedSince || sampled }
    | .unblockIpKey key _ =>
      some
        { n with
          world :=
            { n.world with
              blacklist := n.world.blacklist.remove key
              store := n.world.store.removeBlacklist key } }
    | .syncOnce nowNs readable keys updatedNs =>
      let gens := n.gens readable
      some
        { n with
          world := n.world.syncOnce nowNs gens keys updatedNs
          insertedSince := n.insertedSince && !n.world.needScan nowNs gens }

end EShield.Node
