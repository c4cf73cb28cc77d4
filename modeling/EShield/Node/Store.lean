import EShield.Common.Types

/-!
# The rule store of a node

The BLACKLIST table of the persistent store: one row for each IP, in the order of its key bytes.
Each operation of the source is one transaction of its own, so each is one function here.
-/

namespace EShield.Node

/-- Who decided a block. -/
inductive BlockOrigin where
  /-- `Local`: a detection module of this node. -/
  | detected
  | api
  | adaptive
  | threatIntel
  | hub
  deriving DecidableEq, Repr

/-- What came from the hub is not reported back to it. -/
def BlockOrigin.publishable : BlockOrigin → Bool
  | detected | api | adaptive | threatIntel => true
  | hub => false

structure BlacklistRow where
  blockedUntilNs : UInt64
  blockReason : UInt8
  firstSeenNs : UInt64
  origin : BlockOrigin := .api
  lastUpdatedNs : UInt64 := 0
  deriving DecidableEq, Repr

/-- A timed row whose time is over. -/
def BlacklistRow.Expired (row : BlacklistRow) (nowNs : UInt64) : Prop :=
  row.blockedUntilNs ≠ BLOCK_PERMANENT ∧ row.blockedUntilNs ≤ nowNs

instance (row : BlacklistRow) (nowNs : UInt64) : Decidable (row.Expired nowNs) :=
  inferInstanceAs (Decidable (_ ∧ _))

abbrev RuleStore := Std.ExtTreeMap IpKey BlacklistRow

namespace RuleStore

/-- `updatedNs` is the clock when the call was made, before its transaction began. -/
def saveBlacklist (store : RuleStore) (key : IpKey) (blockedUntilNs : UInt64) (blockReason : UInt8)
    (firstSeenNs : UInt64) (origin : BlockOrigin) (updatedNs : UInt64) : RuleStore :=
  store.insert key
    { blockedUntilNs := blockedUntilNs
      blockReason := blockReason
      firstSeenNs := firstSeenNs
      origin := origin
      lastUpdatedNs := updatedNs }

/-- The same row for each of `keys`, in one transaction. -/
def saveBlacklistMany (store : RuleStore) (keys : List IpKey) (blockedUntilNs : UInt64)
    (blockReason : UInt8) (firstSeenNs : UInt64) (origin : BlockOrigin) (updatedNs : UInt64) :
    RuleStore :=
  keys.foldl
    (fun store key =>
      store.saveBlacklist key blockedUntilNs blockReason firstSeenNs origin updatedNs) store

def removeBlacklist (store : RuleStore) (key : IpKey) : RuleStore := store.erase key

def loadBlacklist (store : RuleStore) : List (IpKey × BlacklistRow) := store.toList

/-- The rows changed after `sinceNs`. -/
def loadBlacklistSince (store : RuleStore) (sinceNs : UInt64) : List (IpKey × BlacklistRow) :=
  store.toList.filter fun kv => kv.2.lastUpdatedNs > sinceNs

/-- The origin of the row of `key`; the source asks for a batch of keys at once. -/
def loadBlacklistOrigin (store : RuleStore) (key : IpKey) : Option BlockOrigin :=
  store[key]?.map BlacklistRow.origin

def pruneExpiredBlacklist (store : RuleStore) (nowNs : UInt64) : RuleStore :=
  store.filter fun _ row => !decide (row.Expired nowNs)

/-! ## One row at a time -/

theorem getElem?_saveBlacklist (store : RuleStore) (key k : IpKey) (untilNs : UInt64)
    (reason : UInt8) (firstSeenNs : UInt64) (origin : BlockOrigin) (updatedNs : UInt64) :
    (store.saveBlacklist key untilNs reason firstSeenNs origin updatedNs)[k]? =
      if key = k then
        some
          { blockedUntilNs := untilNs, blockReason := reason, firstSeenNs := firstSeenNs
            origin := origin, lastUpdatedNs := updatedNs }
      else store[k]? := by
  simp [saveBlacklist, Std.ExtTreeMap.getElem?_insert]

theorem getElem?_removeBlacklist (store : RuleStore) (key k : IpKey) :
    (store.removeBlacklist key)[k]? = if key = k then none else store[k]? := by
  simp [removeBlacklist, Std.ExtTreeMap.getElem?_erase]

theorem getElem?_pruneExpiredBlacklist (store : RuleStore) (nowNs : UInt64) (k : IpKey) :
    (store.pruneExpiredBlacklist nowNs)[k]? =
      store[k]?.filter fun row => !decide (row.Expired nowNs) := by
  simp [pruneExpiredBlacklist, Std.ExtTreeMap.getElem?_filter, Option.pfilter_eq_filter]

theorem mem_loadBlacklist {store : RuleStore} {k : IpKey} {row : BlacklistRow} :
    (k, row) ∈ store.loadBlacklist ↔ store[k]? = some row :=
  Std.ExtTreeMap.mem_toList_iff_getElem?_eq_some

theorem mem_loadBlacklistSince {store : RuleStore} {sinceNs : UInt64} {k : IpKey}
    {row : BlacklistRow} :
    (k, row) ∈ store.loadBlacklistSince sinceNs ↔
      store[k]? = some row ∧ sinceNs < row.lastUpdatedNs := by
  simp [loadBlacklistSince, Std.ExtTreeMap.mem_toList_iff_getElem?_eq_some]

/-- No two rows loaded have the same key. -/
theorem nodup_keys_loadBlacklist (store : RuleStore) :
    (store.loadBlacklist.map Prod.fst).Nodup := by
  rw [loadBlacklist, Std.ExtTreeMap.map_fst_toList_eq_keys]
  exact Std.ExtTreeMap.nodup_keys

end RuleStore

end EShield.Node
