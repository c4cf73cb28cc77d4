import EShield.Hub.Store
import EShield.Lib.Exec
import EShield.Node.Control

/-!
# Nodes that share blocks through the hub

Any number of nodes push to one hub and pull from it. A message that was sent stays in flight: it is
delivered late, twice or never, in any order with the others. The cursors of the clients are labels,
so a client may ask for anything at any time.
-/

namespace EShield.Fleet

open Node (ControlState BlockOrigin BlockClock)

/-- The settings of one node's hub client. -/
structure HubConfig where
  publish : Node.PublishConfig
  apply : Node.ApplyConfig

structure FleetWorld where
  nodes : Nat → ControlState := fun _ => {}
  hub : Hub.Store := {}
  /-- Chunks on their way to the hub, with the name of the node that reports them. -/
  pushes : List (String × List NodePolicy) := []
  /-- Pages of policies on their way to a node. -/
  pulls : List (Nat × List SharedPolicy) := []
  /-- Pages of deletions on their way to a node. -/
  deletions : List (Nat × List IpKey) := []

def FleetWorld.setNode (s : FleetWorld) (i : Nat) (node : ControlState) : FleetWorld :=
  { s with nodes := Function.update s.nodes i node }

inductive FleetLabel where
  /-- A block that node `i` decides itself. -/
  | block (i : Nat) (key : IpKey) (durationS : UInt64) (reason : UInt8) (origin : BlockOrigin)
    (clock : BlockClock)
  | unblock (i : Nat) (key : IpKey)
  | push (i : Nat) (sinceNs nowNs : UInt64)
  | merge (nodeName : String) (chunk : List NodePolicy) (nowNs : UInt64)
  | delete (ips : List IpKey) (nowNs : UInt64)
  | pull (i : Nat) (sinceNs : UInt64) (limit : Nat)
  | apply (i : Nat) (policies : List SharedPolicy) (clocks : Nat → BlockClock)
  | pullDeleted (i : Nat) (sinceNs : UInt64) (limit : Nat)
  | applyDeleted (i : Nat) (ips : List IpKey)

/-- What node `i` would push now. -/
def FleetWorld.collected (config : Nat → HubConfig) (s : FleetWorld) (i : Nat)
    (sinceNs nowNs : UInt64) : List (IpKey × Node.BlacklistRow × UInt32) :=
  Node.collectedRows (config i).publish ((s.nodes i).store.loadBlacklistSince sinceNs)
    (s.nodes i).maps nowNs

def fleetStep (config : Nat → HubConfig) (s : FleetWorld) : FleetLabel → Option FleetWorld
  | .block i key durationS reason origin clock =>
    if origin.publishable then
      some (s.setNode i (Node.blockIpKey (s.nodes i) key durationS reason origin clock))
    else none
  | .unblock i key => some (s.setNode i (Node.unblockIpKey (s.nodes i) key))
  | .push i sinceNs nowNs =>
    let policies :=
      Node.collectHubPublishablePolicies (config i).publish
        ((s.nodes i).store.loadBlacklistSince sinceNs) (s.nodes i).maps nowNs
    some
      { s with
        pushes :=
          s.pushes ++
            (Hub.Store.chunks policies).map fun chunk => ((config i).apply.nodeName, chunk) }
  | .merge nodeName chunk nowNs =>
    if (nodeName, chunk) ∈ s.pushes then
      (s.hub.mergeChunk nodeName chunk nowNs).map fun hub => { s with hub := hub }
    else none
  | .delete ips nowNs => some { s with hub := s.hub.deletePolicies ips nowNs }
  | .pull i sinceNs limit =>
    some { s with pulls := s.pulls ++ [(i, (s.hub.querySince sinceNs limit).1)] }
  | .apply i policies clocks =>
    if (i, policies) ∈ s.pulls then
      some (s.setNode i (Node.applyHubPolicies (config i).apply (s.nodes i) policies clocks))
    else none
  | .pullDeleted i sinceNs limit =>
    some
      { s with deletions := s.deletions ++ [(i, (s.hub.queryTombstonesSince sinceNs limit).1)] }
  | .applyDeleted i ips =>
    if (i, ips) ∈ s.deletions then
      some (s.setNode i (Node.unblockHubPolicies (s.nodes i) ips))
    else none

end EShield.Fleet
