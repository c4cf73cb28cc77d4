import EShield.Node.BlacklistSync
import EShield.Node.HubClient

/-!
# Synchronisation and push on one node

`apply_hub_policies`, `sync_once` and `push_once` share the BLACKLIST map and the store. The world
here joins the tasks of the synchronisation and the state of the push: a push reads the map and the
store of the synchronisation, and both take their steps in any order.
-/

namespace EShield.Node

open Ebpf (LruHashMap Maps isBlacklisted)

/-- The store and the blacklist of `push` are not used: the view below puts those of `sync` there. -/
structure EchoWorld where
  sync : SyncWorld := {}
  push : PushWorld := {}

inductive EchoLabel where
  | sync (label : SyncLabel)
  /-- A step of `push_once`. -/
  | push (label : PushLabel)
  /-- A packet of `key`: a hit is counted, an expired entry removed. -/
  | packet (key : IpKey) (nowNs : UInt64)
  /-- The map is full and gives up an entry. -/
  | evict (key : IpKey)
  | setTrust (trustMap : LruHashMap IpKey TrustEntry)

/-- The labels of `push_once` itself. -/
def PushLabel.isPushOnce : PushLabel → Bool
  | load | collect _ | postSucceeds | postFails | advance _ => true
  | beginSave .. | commitSave _ | remove _ | setMaps _ => false

namespace EchoWorld

/-- The maps of the node, with the blacklist that the synchronisation works on. -/
def maps (w : EchoWorld) : Maps := { w.push.maps with blacklist := w.sync.blacklist }

/-- What a push sees of the node. -/
def pushView (w : EchoWorld) : PushWorld := { w.push with store := w.sync.store, maps := w.maps }

def setMaps (w : EchoWorld) (maps : Maps) : EchoWorld :=
  { sync := { w.sync with blacklist := maps.blacklist }
    push := { w.push with maps := maps } }

end EchoWorld

def echoStep (cfg : PublishConfig) (w : EchoWorld) : EchoLabel → Option EchoWorld
  | .sync label => (syncStep w.sync label).map fun sync => { w with sync := sync }
  | .push label =>
    if label.isPushOnce then (pushStep cfg w.pushView label).map fun push => { w with push := push }
    else none
  | .packet key nowNs => some (w.setMaps (isBlacklisted w.maps key nowNs).2)
  | .evict key => some (w.setMaps { w.maps with blacklist := w.sync.blacklist.remove key })
  | .setTrust trustMap => some (w.setMaps { w.maps with trustMap := trustMap })

end EShield.Node
