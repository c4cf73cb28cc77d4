import EShield.Lib.Tasks
import EShield.Node.Control

/-!
# Blacklist synchronisation

`sync_once` copies what the detection modules wrote to the BLACKLIST map into the store. Here it
runs beside the user operations: every task is cut into the steps that hold a lock or make a
transaction, and `step` takes one step of one task.
-/

namespace EShield.Node

open Ebpf (LruHashMap mergeInto)

/-! ## One pass -/

/-- What was last written to the store for an IP. -/
structure CachedEntry where
  blockedUntilNs : UInt64
  hitCount : UInt32
  blockReason : UInt8
  deriving DecidableEq

def cachedEntry (entry : BlockEntry) : CachedEntry :=
  { blockedUntilNs := entry.blockedUntilNs
    hitCount := entry.hitCount
    blockReason := entry.blockReason }

/-- The origin a rule identifier stands for; the other rules are not synchronised. -/
def blockReasonToOrigin (reason : UInt8) : Option BlockOrigin :=
  let rule := reason.toUInt16
  if rule = rules.RATE_LIMIT ∨ rule = rules.SYN_FLOOD ∨ rule = rules.UDP_FLOOD ∨
      rule = rules.ICMP_FLOOD then
    some .detected
  else if rule = rules.ADAPTIVE then some .adaptive
  else if rule = rules.API_BLOCK then some .api
  else if rule = rules.THREAT_INTEL then some .threatIntel
  else none

/-- An entry of the snapshot that is to be saved. -/
structure PendingSave where
  key : IpKey
  entry : BlockEntry
  origin : BlockOrigin

/-- The entries of publishable origin that differ from the cache. -/
def changedEntries (cache : Std.ExtTreeMap IpKey CachedEntry)
    (snapshot : List (IpKey × BlockEntry)) : List PendingSave :=
  snapshot.filterMap fun kv =>
    match blockReasonToOrigin kv.2.blockReason with
    | none => none
    | some origin =>
      if !origin.publishable then none
      else if cache[kv.1]? = some (cachedEntry kv.2) then none
      else some { key := kv.1, entry := kv.2, origin := origin }

/-- Rows that came from the hub keep their origin, so they are not overwritten. -/
def dropHubRows (store : RuleStore) (changed : List PendingSave) : List PendingSave :=
  changed.filter fun p =>
    !(p.origin ≠ .hub && store.loadBlacklistOrigin p.key = some .hub)

/-! ## Tasks -/

/-- What a pass keeps from its snapshot to its end. -/
structure SyncPass where
  nowNs : UInt64
  /-- Generations of additions and of hits, if they could be read. -/
  gens : Option (UInt64 × UInt64)
  scanned : Bool

/-- A task between two of its steps. -/
inductive SyncTask where
  /-- `block_ip_key` after the map. -/
  | blocking (key : IpKey) (durationS : UInt64) (reason : UInt8) (origin : BlockOrigin)
  /-- `unblock_ip_key` after the map. -/
  | unblocking (key : IpKey)
  /-- `sync_once` after the snapshot. -/
  | scanned (pass : SyncPass) (changed : List PendingSave)
  /-- `sync_once` with the origins loaded. -/
  | saving (pass : SyncPass) (rest : List PendingSave)

inductive UserOp where
  | block
  | unblock
  deriving DecidableEq

/-- The two copies of the blacklist, the state of the synchronisation and the tasks in flight.
`lastUser` and `blockedSince` record history: the last user operation on an IP to complete, and
whether the data plane has blocked it since. -/
structure SyncWorld where
  blacklist : LruHashMap IpKey BlockEntry := .empty
  store : RuleStore := ∅
  cache : Std.ExtTreeMap IpKey CachedEntry := ∅
  lastGen : UInt64 := 0
  lastHitGen : UInt64 := 0
  lastHitScanNs : UInt64 := 0
  lastPruneNs : UInt64 := 0
  tasks : TaskTable SyncTask := fun _ => none
  lastUser : IpKey → Option UserOp := fun _ => none
  blockedSince : IpKey → Bool := fun _ => false

namespace SyncWorld

/-- Additions are scanned at once; mere hits at most once a minute. -/
def needScan (s : SyncWorld) (nowNs : UInt64) : Option (UInt64 × UInt64) → Bool
  | none => true
  | some (addGen, hitGen) =>
    addGen ≠ s.lastGen ||
      (hitGen ≠ s.lastHitGen && nowNs.saturatingSub s.lastHitScanNs ≥ 60000000000) ||
      s.cache.isEmpty

/-- The end of a pass: the generations, and once a minute the expired rows. -/
def finishPass (s : SyncWorld) (pass : SyncPass) : SyncWorld :=
  let s :=
    match pass.scanned, pass.gens with
    | true, some (addGen, hitGen) =>
      { s with lastGen := addGen, lastHitGen := hitGen, lastHitScanNs := pass.nowNs }
    | _, _ => s
  if pass.nowNs.saturatingSub s.lastPruneNs ≥ 60000000000 then
    { s with store := s.store.pruneExpiredBlacklist pass.nowNs, lastPruneNs := pass.nowNs }
  else s

end SyncWorld

/-- The steps. Clock readings, statistics and the order in which the map is iterated are what the
environment supplies. -/
inductive SyncLabel where
  | blockMap (id : Nat) (key : IpKey) (durationS : UInt64) (reason : UInt8) (origin : BlockOrigin)
    (nowNs : UInt64)
  | blockStore (id : Nat) (rowNs updatedNs : UInt64)
  | unblockMap (id : Nat) (key : IpKey)
  | unblockStore (id : Nat)
  /-- A block by the data plane or by the adaptive engine, which write the map only. -/
  | dataPlaneBlock (key : IpKey) (nowNs untilNs : UInt64) (reason : UInt8)
  | snapshot (id : Nat) (nowNs : UInt64) (gens : Option (UInt64 × UInt64)) (keys : List IpKey)
  | loadOrigins (id : Nat)
  | save (id : Nat) (updatedNs : UInt64)
  | finish (id : Nat)

open SyncWorld in
/-- One step of one task. -/
def syncStep (s : SyncWorld) : SyncLabel → Option SyncWorld
  | .blockMap id key durationS reason origin nowNs =>
    match s.tasks id with
    | none =>
      some
        { s with
          blacklist := blockIpRaw s.blacklist key durationS reason nowNs
          tasks := s.tasks.set id (some (.blocking key durationS reason origin)) }
    | some _ => none
  | .blockStore id rowNs updatedNs =>
    match s.tasks id with
    | some (.blocking key durationS reason origin) =>
      some
        { s with
          store := persistBlock s.store key durationS reason origin rowNs updatedNs
          tasks := s.tasks.set id none
          lastUser := Function.update s.lastUser key (some .block)
          blockedSince := Function.update s.blockedSince key false }
    | _ => none
  | .unblockMap id key =>
    match s.tasks id with
    | none =>
      some
        { s with
          blacklist := s.blacklist.remove key
          tasks := s.tasks.set id (some (.unblocking key)) }
    | some _ => none
  | .unblockStore id =>
    match s.tasks id with
    | some (.unblocking key) =>
      some
        { s with
          store := s.store.removeBlacklist key
          tasks := s.tasks.set id none
          lastUser := Function.update s.lastUser key (some .unblock)
          blockedSince := Function.update s.blockedSince key false }
    | _ => none
  | .dataPlaneBlock key nowNs untilNs reason =>
    some
      { s with
        blacklist := mergeInto s.blacklist key nowNs untilNs reason false
        blockedSince := Function.update s.blockedSince key true }
  | .snapshot id nowNs gens keys =>
    match s.tasks id with
    | none =>
      let scanned := s.needScan nowNs gens
      let snapshot :=
        if scanned then keys.filterMap fun k => (s.blacklist k).map fun e => (k, e) else []
      some
        { s with
          tasks := s.tasks.set id
            (some (.scanned { nowNs := nowNs, gens := gens, scanned := scanned }
              (changedEntries s.cache snapshot))) }
    | some _ => none
  | .loadOrigins id =>
    match s.tasks id with
    | some (.scanned pass changed) =>
      some { s with tasks := s.tasks.set id (some (.saving pass (dropHubRows s.store changed))) }
    | _ => none
  | .save id updatedNs =>
    match s.tasks id with
    | some (.saving pass (p :: rest)) =>
      some
        { s with
          store :=
            s.store.saveBlacklist p.key p.entry.blockedUntilNs p.entry.blockReason
              p.entry.firstSeenNs p.origin updatedNs
          cache := s.cache.insert p.key (cachedEntry p.entry)
          tasks := s.tasks.set id (some (.saving pass rest)) }
    | _ => none
  | .finish id =>
    match s.tasks id with
    | some (.saving pass []) =>
      let s := s.finishPass pass
      some { s with tasks := s.tasks.set id none }
    | _ => none

end EShield.Node
