import EShield.Hub.Auth
import EShield.Hub.Feed
import EShield.Hub.Limiter
import EShield.Hub.Registry
import EShield.Hub.Store
import EShield.Lib.Tasks
import EShield.Node.RuleSets

/-!
# The API of the hub

What the hub does with a call, step by step. A call that changes the store or the registry goes through
the rate limiter first and then becomes a task: a push has one transaction for each of its chunks, and
between any two steps of a task the other calls and the tasks in the background go on.

A failing transaction leaves what was committed before it.
-/

namespace EShield.Hub

def MAX_DELETE_IPS : Nat := 10000
def MAX_NODE_NAME_LEN : Nat := 128

/-! ## Messages -/

/-- The rule sets that the hub hands out. -/
structure RuleBundle where
  portAcl : List Node.PortAclItem
  l7Patterns : List Node.L7PatternConfig
  protectionProjects : List Node.ProtectionProject
  updatedAtNs : UInt64
  deriving DecidableEq, Repr

inductive HubRequest where
  | pushPolicies (nodeName : String) (policies : List NodePolicy)
  | pullPolicies (since : UInt64) (limit : Option Nat)
  | deletePolicies (nodeName : String) (ips : List IpKey)
  | deletedPolicies (since : UInt64) (limit : Option Nat)
  | getRules
  | setRules (bundle : RuleBundle)
  | heartbeat (nodeName : String)
  | listNodes
  | stats

inductive HubReply where
  | unauthorized
  | badRequest
  | tooManyRequests
  | payloadTooLarge
  | internalServerError
  | ok
  | merged (count : Nat)
  | removed (count : Nat)
  | policies (policies : List SharedPolicy) (cursor deletedCursor : UInt64)
  | deleted (ips : List IpKey) (cursor : UInt64)
  | rules (rules : Option RuleBundle)
  | rulesSet (updatedAtNs : UInt64)
  | nodes (nodes : List NodeInfo)
  | stats (policyCount nodeCount onlineNodeCount : Nat)
  deriving DecidableEq

/-! ## Counting rows -/

namespace Store

def count (s : Store) : Nat := s.policies.size

/-- How many rows `deleteOne` removes. -/
def removedOne (s : Store) (ip : IpKey) : Nat :=
  match s.index[ip]? with
  | some composite => if composite ∈ s.policies then 1 else 0
  | none => (s.policies.toList.filter fun kv => kv.2.ip = ip).length

/-- What `delete_policies` returns. -/
def removed : Store → List IpKey → Nat
  | _, [] => 0
  | s, ip :: ips => s.removedOne ip + removed (s.deleteOne ip) ips

end Store

/-! ## State -/

structure AppState where
  store : Store
  /-- The bundle in the table of the rules. -/
  rules : Option RuleBundle
  registry : NodeRegistry
  auth : HubAuth
  rateLimiter : RateLimiter
  nodeTimeoutNs : UInt64
  feed : FeedConfig

/-- A call between two of its steps. -/
inductive HubTask where
  /-- The chunks that are still to be merged, and how many reports have been. -/
  | push (nodeName : String) (chunks : List (List NodePolicy)) (merged : Nat)
  | delete (ips : List IpKey)
  | heartbeat (nodeName : String)
  /-- The nodes have been counted. -/
  | stats (nodeCount onlineNodeCount : Nat)
  deriving DecidableEq

/-- The hub with its calls in flight. `replies` and `beats` record history: what has been answered, and the
heartbeats that have been entered. -/
structure HubWorld where
  app : AppState
  tasks : TaskTable HubTask := fun _ => none
  replies : List (Nat × HubReply) := []
  beats : List (String × UInt64) := []

/-- A hub that has been started on the store `store`. -/
def HubWorld.start (store : Store) (rules : Option RuleBundle) (auth : HubAuth)
    (nodeTimeoutNs : UInt64) (feed : FeedConfig) : HubWorld where
  app :=
    { store := store
      rules := rules
      registry := .new
      auth := auth
      rateLimiter := .new 100 200
      nodeTimeoutNs := nodeTimeoutNs
      feed := feed }

namespace HubWorld

/-- Ends the call `id`. -/
def reply (w : HubWorld) (id : Nat) (r : HubReply) : HubWorld :=
  { w with tasks := w.tasks.set id none, replies := w.replies ++ [(id, r)] }

def goOn (w : HubWorld) (id : Nat) (t : HubTask) : HubWorld := { w with tasks := w.tasks.set id (some t) }

def setStore (w : HubWorld) (store : Store) : HubWorld := { w with app := { w.app with store := store } }

/-- Asks the limiter; the call goes on by `next` if it grants the call. -/
def limited (w : HubWorld) (id : Nat) (nodeName : String) (nowNs : UInt64)
    (next : HubWorld → HubWorld) : HubWorld :=
  let r := w.app.rateLimiter.check nodeName nowNs
  let w := { w with app := { w.app with rateLimiter := r.2 } }
  if r.1 then next w else w.reply id .tooManyRequests

end HubWorld

/-- The limit of a query. -/
def pageLimit (limit : Option Nat) : Nat := max 1 (min (limit.getD 1000) 10000)

/-- The first step of a call whose token is that of `identity`, or the master token. -/
def handle (w : HubWorld) (id : Nat) (identity : Option String) (nowNs : UInt64) :
    HubRequest → HubWorld
  | .pushPolicies nodeName policies =>
    let nodeName := identity.getD nodeName
    w.limited id nodeName nowNs fun w => w.goOn id (.push nodeName (Store.chunks policies) 0)
  | .pullPolicies since limit =>
    let r := w.app.store.querySince since (pageLimit limit)
    w.reply id (.policies r.1 r.2 since)
  | .deletePolicies nodeName ips =>
    w.limited id (identity.getD nodeName) nowNs fun w =>
      if ips.length > MAX_DELETE_IPS then w.reply id .payloadTooLarge else w.goOn id (.delete ips)
  | .deletedPolicies since limit =>
    let r := w.app.store.queryTombstonesSince since (pageLimit limit)
    w.reply id (.deleted r.1 r.2)
  | .getRules => w.reply id (.rules w.app.rules)
  | .setRules bundle =>
    { w with app := { w.app with rules := some bundle } }.reply id (.rulesSet bundle.updatedAtNs)
  | .heartbeat nodeName =>
    let nodeName := identity.getD nodeName
    if nodeName = "" ∨ nodeName.utf8ByteSize > MAX_NODE_NAME_LEN then w.reply id .badRequest
    else w.limited id nodeName nowNs fun w => w.goOn id (.heartbeat nodeName)
  | .listNodes => w.reply id (.nodes (w.app.registry.list nowNs w.app.nodeTimeoutNs))
  | .stats =>
    let nodes := w.app.registry.list nowNs w.app.nodeTimeoutNs
    w.goOn id (.stats nodes.length (nodes.countP NodeInfo.online))

/-- The next step of a task. -/
def advance (w : HubWorld) (id : Nat) (nowNs : UInt64) : HubTask → HubWorld
  | .push _ [] merged => w.reply id (.merged merged)
  | .push nodeName (chunk :: chunks) merged =>
    match w.app.store.mergeChunk nodeName chunk nowNs with
    | some store => (w.setStore store).goOn id (.push nodeName chunks (merged + chunk.length))
    | none => w.reply id .internalServerError
  | .delete ips =>
    (w.setStore (w.app.store.deletePolicies ips nowNs)).reply id (.removed (w.app.store.removed ips))
  | .heartbeat nodeName =>
    { w with
      app := { w.app with registry := w.app.registry.heartbeat nodeName nowNs }
      beats := w.beats ++ [(nodeName, nowNs)] }.reply id .ok
  | .stats nodeCount onlineNodeCount =>
    w.reply id (.stats w.app.store.count nodeCount onlineNodeCount)

inductive HubLabel where
  /-- A new call with the token in its header. -/
  | call (id : Nat) (authorization : Option String) (request : HubRequest) (nowNs : UInt64)
  | advance (id : Nat) (nowNs : UInt64)
  /-- The threat feed has been fetched and read. -/
  | syncFeed (id : Nat) (entries : List IpKey)
  | prune (nowNs : UInt64)
  | cleanup (nowNs : UInt64)

/-- How long a tombstone is kept. -/
def TOMBSTONE_TTL_NS : UInt64 := 7 * 24 * 3600 * 1000000000

def hubStep (w : HubWorld) : HubLabel → Option HubWorld
  | .call id authorization request nowNs =>
    if (w.tasks id).isSome then none
    else
      match w.app.auth.authenticate authorization with
      | none => some (w.reply id .unauthorized)
      | some identity => some (handle w id identity nowNs request)
  | .advance id nowNs => (w.tasks id).map (advance w id nowNs)
  | .syncFeed id entries =>
    if (w.tasks id).isSome then none
    else
      match feedPolicies w.app.feed entries with
      | [] => some w
      | policies => some (w.goOn id (.push w.app.feed.name (Store.chunks policies) 0))
  | .prune nowNs => some (w.setStore (w.app.store.prune nowNs TOMBSTONE_TTL_NS))
  | .cleanup nowNs =>
    some
      { w with
        app := { w.app with registry := w.app.registry.cleanup nowNs w.app.nodeTimeoutNs } }

end EShield.Hub
