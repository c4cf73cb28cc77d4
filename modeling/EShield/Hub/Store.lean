import EShield.Hub.Models
import EShield.Lib.Feed

/-!
# The policy store of the hub

Policies and tombstones, each in a table ordered by time stamp and IP, with an index from IP to the
row of its policy. Merging, deleting and pruning are write transactions; the two queries page through
a table by stamp.
-/

namespace EShield.Hub

/-- `composite_key`: eight big-endian bytes of the stamp, then the IP. -/
structure CompositeKey where
  lastSeenNs : UInt64
  ip : IpKey
  deriving DecidableEq, Repr

namespace CompositeKey

/-- Keys are ordered as their twenty-five bytes are: by stamp, then by IP. -/
instance : Ord CompositeKey :=
  ⟨compareLex (compareOn CompositeKey.lastSeenNs) (compareOn CompositeKey.ip)⟩

instance : Std.TransOrd CompositeKey := inferInstanceAs (Std.TransCmp (compareLex _ _))

instance : Std.LawfulEqOrd CompositeKey where
  eq_of_compare {a b} h := by
    obtain ⟨hstamp, hip⟩ := compareLex_eq_eq.1 h
    cases a
    cases b
    simp_all [compareOn]

end CompositeKey

structure Store where
  policies : Std.ExtTreeMap CompositeKey SharedPolicy := ∅
  /-- IP to the key of its policy. -/
  index : Std.ExtTreeMap IpKey CompositeKey := ∅
  tombstones : Std.ExtTreeMap CompositeKey Unit := ∅

namespace Store

/-! ## Merging -/

def CHUNK : Nat := 1000

/-- The transactions into which `merge` splits a push. -/
def chunks (policies : List NodePolicy) : List (List NodePolicy) :=
  if policies.length ≤ CHUNK then [policies] else policies.toChunks CHUNK

/-- The policy after a report of `node`. -/
def mergePolicy (nodeName : String) (nowNs : UInt64) (old : Option SharedPolicy)
    (node : NodePolicy) : SharedPolicy :=
  match old with
  | some p =>
    { ip := p.ip
      reason := node.reason
      hitCount := max p.hitCount node.hitCount
      trustScore := min p.trustScore node.trustScore
      firstSeenNs := min p.firstSeenNs nowNs
      lastSeenNs := max p.lastSeenNs nowNs
      sourceNodes :=
        if nodeName ∈ p.sourceNodes then p.sourceNodes else p.sourceNodes ++ [nodeName]
      -- 0 is permanent and is not replaced by a shorter time
      ttlS := if p.ttlS = 0 ∨ node.ttlS = 0 then 0 else max p.ttlS node.ttlS }
  | none =>
    { ip := node.ip
      reason := node.reason
      hitCount := node.hitCount
      trustScore := node.trustScore
      firstSeenNs := nowNs
      lastSeenNs := nowNs
      sourceNodes := [nodeName]
      ttlS := node.ttlS }

/-- Writes a policy under its key, in place of the row at `oldKey`. -/
def putPolicy (s : Store) (oldKey : Option CompositeKey) (ip : IpKey) (policy : SharedPolicy) :
    Store :=
  let newKey : CompositeKey := { lastSeenNs := policy.lastSeenNs, ip := policy.ip }
  let policies :=
    match oldKey with
    | some oldKey => if oldKey ≠ newKey then s.policies.erase oldKey else s.policies
    | none => s.policies
  { s with policies := policies.insert newKey policy, index := s.index.insert ip newKey }

/-- One report; `none` is the error of an index entry that points to no row. -/
def mergeOne (nodeName : String) (nowNs : UInt64) (s : Store) (node : NodePolicy) : Option Store :=
  match s.index[node.ip]? with
  | some composite =>
    s.policies[composite]?.map fun p =>
      s.putPolicy (some composite) node.ip (mergePolicy nodeName nowNs (some p) node)
  | none => some (s.putPolicy none node.ip (mergePolicy nodeName nowNs none node))

/-- Fills an empty index from the rows of an old database. -/
def rebuildIndex (s : Store) : Store :=
  if s.index.isEmpty ∧ ¬ s.policies.isEmpty then
    { s with
      index := s.policies.toList.foldl (fun index kv => index.insert kv.2.ip kv.1) s.index }
  else s

/-- The transaction of a chunk whose clock reading is `nowNs`; `none` when it is aborted. -/
def mergeChunk (s : Store) (nodeName : String) (policies : List NodePolicy) (nowNs : UInt64) :
    Option Store :=
  policies.foldlM (mergeOne nodeName nowNs) s.rebuildIndex

/-- `merge`: a push, chunk by chunk; `clock i` is the reading for the `i`-th chunk. -/
def merge (s : Store) (nodeName : String) (policies : List NodePolicy) (clock : Nat → UInt64) :
    Option Store :=
  (chunks policies).zipIdx.foldlM (fun s c => s.mergeChunk nodeName c.1 (clock c.2)) s

/-! ## Queries -/

/-- The rows of a table with their stamps, in key order. -/
def stamped {V : Type} (table : Std.ExtTreeMap CompositeKey V) :
    List (UInt64 × CompositeKey × V) :=
  table.toList.map fun kv => (kv.1.lastSeenNs, kv.1, kv.2)

/-- A page of a table and the new cursor; limit 0 returns nothing. -/
def pageSince {V : Type} (table : Std.ExtTreeMap CompositeKey V) (sinceNs : UInt64)
    (limit : Nat) : List (CompositeKey × V) × UInt64 :=
  if limit = 0 then ([], sinceNs)
  else
    let page := Feed.page limit sinceNs (stamped table)
    (page.map Prod.snd, Feed.cursor sinceNs page)

/-- The policies stamped after `sinceNs`, in key order. -/
def querySince (s : Store) (sinceNs : UInt64) (limit : Nat) : List SharedPolicy × UInt64 :=
  let r := pageSince s.policies sinceNs limit
  (r.1.map Prod.snd, r.2)

/-- The IPs deleted after `sinceNs`. -/
def queryTombstonesSince (s : Store) (sinceNs : UInt64) (limit : Nat) : List IpKey × UInt64 :=
  let r := pageSince s.tombstones sinceNs limit
  (r.1.map fun kv => kv.1.ip, r.2)

/-! ## Deleting -/

/-- Removes the policy of one IP. Without an index entry the rows are searched. -/
def deleteOne (s : Store) (ip : IpKey) : Store :=
  let policies :=
    match s.index[ip]? with
    | some composite => s.policies.erase composite
    | none => s.policies.filter fun _ p => p.ip ≠ ip
  { s with policies := policies, index := s.index.erase ip }

/-- Removes the policies of `ips` and leaves a tombstone for each of them. -/
def deletePolicies (s : Store) (ips : List IpKey) (nowNs : UInt64) : Store :=
  if ips.isEmpty then s
  else
    let s := ips.foldl deleteOne s
    { s with
      tombstones :=
        ips.foldl (fun t ip => t.insert { lastSeenNs := nowNs, ip := ip } ()) s.tombstones }

/-- The time of a policy is over. -/
def Stale (policy : SharedPolicy) (nowNs : UInt64) : Prop :=
  policy.ttlS ≠ 0 ∧
    policy.lastSeenNs.saturatingAdd (policy.ttlS.saturatingMul 1000000000) < nowNs

instance (policy : SharedPolicy) (nowNs : UInt64) : Decidable (Stale policy nowNs) :=
  inferInstanceAs (Decidable (_ ∧ _))

/-- Removes stale policies and tombstones older than `tombstoneTtlNs`. -/
def prune (s : Store) (nowNs tombstoneTtlNs : UInt64) : Store :=
  let stale := s.policies.toList.filter fun kv => Stale kv.2 nowNs
  let s :=
    stale.foldl
      (fun s kv => { s with policies := s.policies.erase kv.1, index := s.index.erase kv.2.ip }) s
  { s with
    tombstones :=
      s.tombstones.filter fun k _ => ¬ k.lastSeenNs.saturatingAdd tombstoneTtlNs < nowNs }

/-! ## Runs -/

inductive StoreLabel where
  | merge (nodeName : String) (policies : List NodePolicy) (clock : Nat → UInt64)
  | delete (ips : List IpKey) (nowNs : UInt64)
  | prune (nowNs tombstoneTtlNs : UInt64)

/-- One call; a merge that fails ends the run. -/
def storeStep (s : Store) : StoreLabel → Option Store
  | .merge nodeName policies clock => s.merge nodeName policies clock
  | .delete ips nowNs => some (s.deletePolicies ips nowNs)
  | .prune nowNs tombstoneTtlNs => some (s.prune nowNs tombstoneTtlNs)

end Store

end EShield.Hub
