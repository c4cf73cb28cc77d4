import EShield.Lib.Tasks
import EShield.Node.Control

/-!
# Pushing to the hub

`push_once` beside the transactions of `save_blacklist`. A push reads the store, then the map and the
clock, posts what it has collected and, once the hub has accepted it, reads the clock again and
makes that reading its cursor. A save reads the clock for its row before its transaction begins.
-/

namespace EShield.Node

open Ebpf (Maps)

/-- What one POST carries, and the rows it was made from. -/
structure PushBatch where
  rows : List (IpKey × BlacklistRow)
  policies : List NodePolicy

/-- A push between two of its steps. -/
inductive PushTask where
  /-- The rows changed since the cursor have been read. -/
  | loaded (rows : List (IpKey × BlacklistRow))
  | posting (batch : PushBatch)
  /-- The hub has accepted the batch. -/
  | accepted (batch : PushBatch)

/-- A node that pushes. `accepted` records history: the batches the hub has accepted. -/
structure PushWorld where
  store : RuleStore := ∅
  maps : Maps := {}
  clockNs : UInt64 := 0
  lastPushNs : UInt64 := 0
  push : Option PushTask := none
  /-- Saves whose clock reading is made, each with the rows of its transaction. -/
  saves : TaskTable (List (IpKey × BlacklistRow)) := fun _ => none
  accepted : List PushBatch := []

inductive PushLabel where
  /-- A save, of one row or of several with the same reading. -/
  | beginSave (id : Nat) (keys : List IpKey) (untilNs : UInt64) (reason : UInt8)
    (firstSeenNs : UInt64) (origin : BlockOrigin) (updatedNs : UInt64)
  | commitSave (id : Nat)
  | remove (key : IpKey)
  /-- Blocks, evictions and trust scores change the maps. -/
  | setMaps (maps : Maps)
  | load
  | collect (nowNs : UInt64)
  | postSucceeds
  | postFails
  | advance (nowNs : UInt64)

/-- The rows that one save writes. -/
def savedRows (keys : List IpKey) (untilNs : UInt64) (reason : UInt8) (firstSeenNs : UInt64)
    (origin : BlockOrigin) (updatedNs : UInt64) : List (IpKey × BlacklistRow) :=
  keys.map fun key =>
    (key,
      { blockedUntilNs := untilNs
        blockReason := reason
        firstSeenNs := firstSeenNs
        origin := origin
        lastUpdatedNs := updatedNs })

def pushStep (cfg : PublishConfig) (s : PushWorld) : PushLabel → Option PushWorld
  | .beginSave id keys untilNs reason firstSeenNs origin updatedNs =>
    if s.saves id = none ∧ s.clockNs ≤ updatedNs then
      some
        { s with
          clockNs := updatedNs
          saves :=
            s.saves.set id (some (savedRows keys untilNs reason firstSeenNs origin updatedNs)) }
    else none
  | .commitSave id =>
    match s.saves id with
    | some rows =>
      some
        { s with
          store := rows.foldl (fun store kv => store.insert kv.1 kv.2) s.store
          saves := s.saves.set id none }
    | none => none
  | .remove key => some { s with store := s.store.removeBlacklist key }
  | .setMaps maps => some { s with maps := maps }
  | .load =>
    match s.push with
    | none => some { s with push := some (.loaded (s.store.loadBlacklistSince s.lastPushNs)) }
    | some _ => none
  | .collect nowNs =>
    match s.push with
    | some (.loaded rows) =>
      if s.clockNs ≤ nowNs then
        let batch : PushBatch :=
          { rows := (collectedRows cfg rows s.maps nowNs).map fun c => (c.1, c.2.1)
            policies := collectHubPublishablePolicies cfg rows s.maps nowNs }
        some
          { s with
            clockNs := nowNs
            -- nothing to push: the cursor stays
            push := if batch.policies.isEmpty then none else some (.posting batch) }
      else none
    | _ => none
  | .postSucceeds =>
    match s.push with
    | some (.posting batch) =>
      some { s with push := some (.accepted batch), accepted := s.accepted ++ [batch] }
    | _ => none
  | .postFails =>
    match s.push with
    | some (.posting _) => some { s with push := none }
    | _ => none
  | .advance nowNs =>
    match s.push with
    | some (.accepted _) =>
      if s.clockNs ≤ nowNs then some { s with clockNs := nowNs, lastPushNs := nowNs, push := none }
      else none
    | _ => none

end EShield.Node
