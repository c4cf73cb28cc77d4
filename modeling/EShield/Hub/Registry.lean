import EShield.Lib.KeyedRows
import EShield.Lib.Saturating

/-!
# The nodes known to the hub

The last heartbeat of each node. Whether a node is online is computed when the list is asked for; a
task in the background removes the nodes that have been silent for too long.
-/

namespace EShield.Hub

open KeyedRows

structure NodeInfo where
  name : String
  lastSeenNs : UInt64
  online : Bool
  deriving DecidableEq, Repr

/-- The entries in the order in which the map is walked. -/
structure NodeRegistry where
  nodes : List NodeInfo
  keyed : Keyed NodeInfo.name nodes

namespace NodeRegistry

/-- The last heartbeat is not older than `timeoutNs`. -/
def Recent (nowNs timeoutNs lastSeenNs : UInt64) : Prop :=
  nowNs.saturatingSub lastSeenNs ≤ timeoutNs

instance (nowNs timeoutNs lastSeenNs : UInt64) : Decidable (Recent nowNs timeoutNs lastSeenNs) :=
  inferInstanceAs (Decidable (_ ≤ _))

def new : NodeRegistry := { nodes := [], keyed := keyed_nil }

def heartbeat (r : NodeRegistry) (name : String) (nowNs : UInt64) : NodeRegistry where
  nodes := upsert NodeInfo.name r.nodes { name := name, lastSeenNs := nowNs, online := true }
  keyed := r.keyed.upsert _

def list (r : NodeRegistry) (nowNs timeoutNs : UInt64) : List NodeInfo :=
  r.nodes.map fun info => { info with online := Recent nowNs timeoutNs info.lastSeenNs }

/-- One round of the task in the background. -/
def cleanup (r : NodeRegistry) (nowNs timeoutNs : UInt64) : NodeRegistry where
  nodes := r.nodes.filter fun info => Recent nowNs timeoutNs info.lastSeenNs
  keyed := r.keyed.filter _

end NodeRegistry

end EShield.Hub
