import EShield.Ebpf.Blacklist
import EShield.Hub.Models
import EShield.Node.Store

/-!
# The control plane of a node

Blocking and unblocking over the BLACKLIST map and the store, the reload of persisted rows, what is
published to the hub and what is applied from it. The map is behind one lock and the store behind
another, so each function here that changes only one of them is a step of its own for the tasks
that interleave; the clock readings between those steps are arguments.
-/

namespace EShield.Node

open Ebpf (LruHashMap Maps mergeInto)

/-- What the control plane of a node keeps about sources. -/
structure ControlState where
  maps : Maps := {}
  store : RuleStore := ∅

/-! ## Blocking -/

/-- The expiry of a block of `durationS` seconds from `nowNs` on; 0 seconds means permanent. -/
def blockUntil (nowNs durationS : UInt64) : UInt64 :=
  if durationS = 0 then BLOCK_PERMANENT
  else nowNs.saturatingAdd (durationS.saturatingMul 1000000000)

/-- Blocks by an administrator or the configuration, whose reason replaces the old one. -/
def isExplicit (reason : UInt8) : Bool :=
  reason = rules.API_BLOCK.toUInt8 || reason = rules.BLACKLIST.toUInt8

def blockIpRaw (blacklist : LruHashMap IpKey BlockEntry) (key : IpKey) (durationS : UInt64)
    (reason : UInt8) (nowNs : UInt64) : LruHashMap IpKey BlockEntry :=
  mergeInto blacklist key nowNs (blockUntil nowNs durationS) reason (isExplicit reason)

/-- The readings of the clock in one `block_ip_key`: at the map, before the row is built, and in the
store. -/
structure BlockClock where
  mapNs : UInt64
  rowNs : UInt64
  updatedNs : UInt64

/-- The second half of `block_ip_key`: the row. -/
def persistBlock (store : RuleStore) (key : IpKey) (durationS : UInt64) (reason : UInt8)
    (origin : BlockOrigin) (rowNs updatedNs : UInt64) : RuleStore :=
  store.saveBlacklist key (blockUntil rowNs durationS) reason rowNs origin updatedNs

def blockIpKey (s : ControlState) (key : IpKey) (durationS : UInt64) (reason : UInt8)
    (origin : BlockOrigin) (clock : BlockClock) : ControlState :=
  { maps :=
      { s.maps with blacklist := blockIpRaw s.maps.blacklist key durationS reason clock.mapNs }
    store := persistBlock s.store key durationS reason origin clock.rowNs clock.updatedNs }

/-- Blocks all of `keys` with one reading of the clock. The old reason is kept even if the new one is
explicit. -/
def blockIpKeysBatch (s : ControlState) (keys : List IpKey) (durationS : UInt64) (reason : UInt8)
    (origin : BlockOrigin) (nowNs updatedNs : UInt64) : ControlState :=
  let untilNs := blockUntil nowNs durationS
  { maps :=
      { s.maps with
        blacklist :=
          keys.foldl (fun blacklist key => mergeInto blacklist key nowNs untilNs reason false)
            s.maps.blacklist }
    store := s.store.saveBlacklistMany keys untilNs reason nowNs origin updatedNs }

def unblockIpKey (s : ControlState) (key : IpKey) : ControlState :=
  { maps := { s.maps with blacklist := s.maps.blacklist.remove key }
    store := s.store.removeBlacklist key }

/-! ## Reload -/

/-- One row of the reload that began at `nowNs`, written when the clock shows `readNs`. Rows of the
static configuration and expired rows are passed over. -/
def loadPersistedRow (nowNs : UInt64) (blacklist : LruHashMap IpKey BlockEntry) (key : IpKey)
    (row : BlacklistRow) (readNs : UInt64) : LruHashMap IpKey BlockEntry :=
  if row.blockReason = rules.BLACKLIST.toUInt8 then blacklist
  else if row.Expired nowNs then blacklist
  else
    let durationS :=
      if row.blockedUntilNs = BLOCK_PERMANENT then 0
      else row.blockedUntilNs.saturatingSub nowNs / 1000000000
    blockIpRaw blacklist key durationS row.blockReason readNs

/-- The blacklist part of `load_persisted_rules`; `readNs key` is the clock when the row of `key` is
written. -/
def loadPersistedRules (store : RuleStore) (nowNs : UInt64) (readNs : IpKey → UInt64)
    (blacklist : LruHashMap IpKey BlockEntry) : LruHashMap IpKey BlockEntry :=
  store.loadBlacklist.foldl
    (fun blacklist kv => loadPersistedRow nowNs blacklist kv.1 kv.2 (readNs kv.1)) blacklist

/-! ## Publishing to the hub -/

/-- The publishable rows whose IP the map holds, with the hit count there. -/
def publishableRows (rows : List (IpKey × BlacklistRow))
    (blacklist : LruHashMap IpKey BlockEntry) : List (IpKey × BlacklistRow × UInt32) :=
  rows.filterMap fun kv =>
    if kv.2.origin.publishable then
      (blacklist kv.1).map fun entry => (kv.1, kv.2, entry.hitCount)
    else none

/-- The trust score on the hub's scale of 0..=100; 0 for an unknown source. -/
def lookupTrustScore (trustMap : LruHashMap IpKey TrustEntry) (key : IpKey) : UInt32 :=
  match trustMap key with
  | some entry => min (entry.trustScore / 10) 100
  | none => 0

/-- The bounds on what is published. -/
structure PublishConfig where
  minHits : UInt32
  minTrust : UInt32
  limit : Nat

/-- The row goes out, unless it has expired with too few hits or its source is trusted. -/
def Publishes (cfg : PublishConfig) (trustMap : LruHashMap IpKey TrustEntry) (nowNs : UInt64)
    (c : IpKey × BlacklistRow × UInt32) : Prop :=
  ¬ (c.2.2 < cfg.minHits ∧ c.2.1.Expired nowNs) ∧ ¬ lookupTrustScore trustMap c.1 > cfg.minTrust

instance (cfg : PublishConfig) (trustMap : LruHashMap IpKey TrustEntry) (nowNs : UInt64)
    (c : IpKey × BlacklistRow × UInt32) : Decidable (Publishes cfg trustMap nowNs c) :=
  inferInstanceAs (Decidable (_ ∧ _))

/-- The policy of a row: its remaining whole seconds, 0 for a permanent one. -/
def nodePolicy (trustMap : LruHashMap IpKey TrustEntry) (nowNs : UInt64)
    (c : IpKey × BlacklistRow × UInt32) : NodePolicy :=
  let row := c.2.1
  { ip := c.1
    reason := row.blockReason
    hitCount := c.2.2
    trustScore := lookupTrustScore trustMap c.1
    blockedUntilNs := row.blockedUntilNs
    ttlS :=
      if row.blockedUntilNs = BLOCK_PERMANENT then 0
      else row.blockedUntilNs.saturatingSub nowNs / 1000000000 }

/-- The rows that may go out in one push. -/
def publishedRows (cfg : PublishConfig) (rows : List (IpKey × BlacklistRow)) (maps : Maps)
    (nowNs : UInt64) : List (IpKey × BlacklistRow × UInt32) :=
  (publishableRows rows maps.blacklist).filter fun c => Publishes cfg maps.trustMap nowNs c

/-- The rows that do go out. The length is compared with the limit after each policy, so at least
one does. -/
def collectedRows (cfg : PublishConfig) (rows : List (IpKey × BlacklistRow)) (maps : Maps)
    (nowNs : UInt64) : List (IpKey × BlacklistRow × UInt32) :=
  (publishedRows cfg rows maps nowNs).take (max cfg.limit 1)

/-- `collect_hub_publishable_policies` behind the read of the store. -/
def collectHubPublishablePolicies (cfg : PublishConfig) (rows : List (IpKey × BlacklistRow))
    (maps : Maps) (nowNs : UInt64) : List NodePolicy :=
  (collectedRows cfg rows maps nowNs).map (nodePolicy maps.trustMap nowNs)

/-! ## Applying what the hub shares -/

/-- `set_trust_score`, which does nothing while trust is disabled. -/
def setTrustScore (trustEnabled : Bool) (maps : Maps) (key : IpKey) (trustScore : UInt32)
    (nowNs : UInt64) : Maps :=
  if !trustEnabled then maps
  else
    let score := min trustScore 1000
    { maps with
      trustMap := maps.trustMap.insert key
        { trustScore := score, lastUpdateNs := nowNs, level := Ebpf.trustLevel score } }

/-- What `apply_hub_policies` reads of the configuration. -/
structure ApplyConfig where
  nodeName : String
  trustEnabled : Bool

/-- The policy is passed over: its IP was in the map when the call began, or this node contributed
to it. -/
def SkipsPolicy (cfg : ApplyConfig) (blacklist : LruHashMap IpKey BlockEntry)
    (policy : SharedPolicy) : Prop :=
  (blacklist policy.ip).isSome ∨ (cfg.nodeName ≠ "" ∧ cfg.nodeName ∈ policy.sourceNodes)

instance (cfg : ApplyConfig) (blacklist : LruHashMap IpKey BlockEntry) (policy : SharedPolicy) :
    Decidable (SkipsPolicy cfg blacklist policy) := inferInstanceAs (Decidable (_ ∨ _))

/-- One policy of the hub: a block of `ttlS` seconds, and the shared trust score. -/
def applyHubPolicy (cfg : ApplyConfig) (s : ControlState) (policy : SharedPolicy) (clock : BlockClock) :
    ControlState :=
  let s := blockIpKey s policy.ip policy.ttlS policy.reason .hub clock
  if policy.trustScore > 0 then
    { s with
      maps :=
        setTrustScore cfg.trustEnabled s.maps policy.ip (policy.trustScore * 10) clock.updatedNs }
  else s

/-- `clock i` are the readings for the `i`-th policy. -/
def applyHubPolicies (cfg : ApplyConfig) (s : ControlState) (policies : List SharedPolicy)
    (clock : Nat → BlockClock) : ControlState :=
  policies.zipIdx.foldl
    (fun s' p =>
      if SkipsPolicy cfg s.maps.blacklist p.1 then s' else applyHubPolicy cfg s' p.1 (clock p.2))
    s

/-- Unblocks those of `ips` whose row came from the hub. -/
def unblockHubPolicies (s : ControlState) (ips : List IpKey) : ControlState :=
  ips.foldl
    (fun s' ip => if s.store.loadBlacklistOrigin ip = some .hub then unblockIpKey s' ip else s') s

end EShield.Node
