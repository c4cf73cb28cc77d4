import EShield.Hub.Store
import EShield.Lib.Exec
import EShield.Node.Control

/-!
# A node that follows the hub

The hub takes merges and deletions, each at a later reading of its clock. The node runs `pull_once`:
it pulls and applies a page of policies, then pulls and applies a page of deletions, with a cursor
for each of the two. The cursors are kept in memory, so a restart sets both to 0.
-/

namespace EShield.Fleet

open Node (ControlState ApplyConfig BlockClock)

/-- The page size that a node asks for. -/
def PULL_LIMIT : Nat := 100

structure ReplicaWorld where
  hub : Hub.Store := {}
  /-- The hub's latest clock reading. -/
  hubNs : UInt64 := 0
  node : ControlState := {}
  lastPullNs : UInt64 := 0
  lastDeletedNs : UInt64 := 0

inductive ReplicaLabel where
  | merge (nodeName : String) (chunk : List NodePolicy) (nowNs : UInt64)
  | delete (ips : List IpKey) (nowNs : UInt64)
  /-- The first half of `pull_once`; `clocks i` are the readings for the `i`-th policy. -/
  | pull (clocks : Nat → BlockClock)
  | pullDeleted
  /-- The node comes back with `node` in its map and store. -/
  | restart (node : ControlState)

def replicaStep (cfg : ApplyConfig) (s : ReplicaWorld) : ReplicaLabel → Option ReplicaWorld
  | .merge nodeName chunk nowNs =>
    if s.hubNs < nowNs then
      (s.hub.mergeChunk nodeName chunk nowNs).map fun hub => { s with hub := hub, hubNs := nowNs }
    else none
  | .delete ips nowNs =>
    if s.hubNs < nowNs then
      some { s with hub := s.hub.deletePolicies ips nowNs, hubNs := nowNs }
    else none
  | .pull clocks =>
    let r := s.hub.querySince s.lastPullNs PULL_LIMIT
    some
      { s with
        node := Node.applyHubPolicies cfg s.node r.1 clocks
        lastPullNs := r.2 }
  | .pullDeleted =>
    let r := s.hub.queryTombstonesSince s.lastDeletedNs PULL_LIMIT
    some
      { s with
        node := Node.unblockHubPolicies s.node r.1
        lastDeletedNs := r.2 }
  | .restart node => some { s with node := node, lastPullNs := 0, lastDeletedNs := 0 }

/-- Whole cycles of the node, one for each element of `cycles`. -/
def syncCycles (cycles : List (Nat → BlockClock)) : List ReplicaLabel :=
  cycles.flatMap fun clocks => [.pull clocks, .pullDeleted]

end EShield.Fleet
