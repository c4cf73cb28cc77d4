import EShield.Hub.Store
import EShield.Lib.Bytes

/-!
# The tables of the hub as they are stored

The database keeps bytes: keys of twenty-five and of seventeen bytes, ordered byte by byte, and policies
as JSON text. These are the operations of the store on such tables, where a row that cannot be read is
an error.
-/

namespace EShield.Hub

open Bytes Std

/-- `serde_json` for policies: a text that has been written is read back. -/
structure PolicyJson (W : Type) where
  toVec : SharedPolicy → W
  fromSlice : W → Option SharedPolicy
  fromSlice_toVec : ∀ policy, fromSlice (toVec policy) = some policy

abbrev KeyBytes := List UInt8

/-! ## Keys -/

def ipIndexKey (ip : IpKey) : KeyBytes := ip.family :: (beBytes 16 ip.addr.toNat).toList

def compositeKey (lastSeenNs : UInt64) (ip : IpKey) : KeyBytes :=
  (beBytes 8 lastSeenNs.toNat).toList ++ ipIndexKey ip

/-- `u64::from_be_bytes(key[0..8])`. -/
def stampOf (key : KeyBytes) : UInt64 := UInt64.ofNat (beValue (key.take 8))

/-- The IP that a key of twenty-five bytes ends with. -/
def ipOf (key : KeyBytes) : IpKey :=
  { family := key.getD 8 0, addr := BitVec.ofNat 128 (beValue (key.drop 9)) }

structure ByteStore (W : Type) where
  policies : ExtTreeMap KeyBytes W := ∅
  policyIndex : ExtTreeMap KeyBytes KeyBytes := ∅
  /-- The values are empty. -/
  tombstones : ExtTreeMap KeyBytes Unit := ∅

namespace ByteStore

variable {W : Type} (json : PolicyJson W)

/-- The rows of the policies, read from the first to the last. -/
def rows (s : ByteStore W) : Option (List (KeyBytes × SharedPolicy)) :=
  s.policies.toList.mapM fun kv => (json.fromSlice kv.2).map fun policy => (kv.1, policy)

/-! ## Merging -/

def rebuildIndex (s : ByteStore W) : Option (ByteStore W) :=
  if s.policyIndex.isEmpty ∧ ¬ s.policies.isEmpty then
    (s.rows json).map fun rows =>
      { s with
        policyIndex :=
          rows.foldl (fun index kv => index.insert (ipIndexKey kv.2.ip) kv.1) s.policyIndex }
  else some s

def putPolicy (s : ByteStore W) (oldKey : Option KeyBytes) (indexKey : KeyBytes)
    (policy : SharedPolicy) : ByteStore W :=
  let newKey := compositeKey policy.lastSeenNs policy.ip
  let policies :=
    match oldKey with
    | some oldKey => if oldKey ≠ newKey then s.policies.erase oldKey else s.policies
    | none => s.policies
  { s with
    policies := policies.insert newKey (json.toVec policy)
    policyIndex := s.policyIndex.insert indexKey newKey }

def mergeOne (nodeName : String) (nowNs : UInt64) (s : ByteStore W) (node : NodePolicy) :
    Option (ByteStore W) :=
  let indexKey := ipIndexKey node.ip
  match s.policyIndex[indexKey]? with
  | some composite =>
    (s.policies[composite]?.bind json.fromSlice).map fun p =>
      s.putPolicy json (some composite) indexKey (Store.mergePolicy nodeName nowNs (some p) node)
  | none =>
    some (s.putPolicy json none indexKey (Store.mergePolicy nodeName nowNs none node))

def mergeChunk (s : ByteStore W) (nodeName : String) (policies : List NodePolicy)
    (nowNs : UInt64) : Option (ByteStore W) :=
  (s.rebuildIndex json).bind fun s => policies.foldlM (mergeOne json nodeName nowNs) s

def merge (s : ByteStore W) (nodeName : String) (policies : List NodePolicy)
    (clock : Nat → UInt64) : Option (ByteStore W) :=
  (Store.chunks policies).zipIdx.foldlM
    (fun s c => s.mergeChunk json nodeName c.1 (clock c.2)) s

/-! ## Queries -/

/-- `table.range(start..)`. -/
def rangeFrom {V : Type} (table : ExtTreeMap KeyBytes V) (start : KeyBytes) :
    List (KeyBytes × V) :=
  table.toList.filter fun kv => (compare start kv.1).isLE

/-- The loop of the two queries; `read` makes of a row what is returned of it. -/
def scan {A V : Type} (read : KeyBytes → V → Option A) (sinceNs : UInt64) (limit : Nat) :
    Option UInt64 → List A → UInt64 → List (KeyBytes × V) → Option (List A × UInt64)
  | _, found, cursor, [] => some (found, cursor)
  | cutoff, found, cursor, (key, v) :: rest =>
    let stampNs := stampOf key
    if stampNs ≤ sinceNs then scan read sinceNs limit cutoff found cursor rest
    else
      match cutoff with
      | some cutoffNs =>
        if stampNs ≠ cutoffNs then some (found, cursor)
        else
          (read key v).bind fun a =>
            scan read sinceNs limit (some cutoffNs) (found ++ [a]) stampNs rest
      | none =>
        (read key v).bind fun a =>
          scan read sinceNs limit (if found.length ≥ limit then some stampNs else none)
            (found ++ [a]) stampNs rest

def pageSince {A V : Type} (read : KeyBytes → V → Option A) (table : ExtTreeMap KeyBytes V)
    (sinceNs : UInt64) (limit : Nat) : Option (List A × UInt64) :=
  if limit = 0 then some ([], sinceNs)
  else
    let start := (beBytes 8 (sinceNs.saturatingAdd 1).toNat).toList ++ List.replicate 17 0
    scan read sinceNs limit none [] sinceNs (rangeFrom table start)

def querySince (s : ByteStore W) (sinceNs : UInt64) (limit : Nat) :
    Option (List SharedPolicy × UInt64) :=
  pageSince (fun _ v => json.fromSlice v) s.policies sinceNs limit

def queryTombstonesSince (s : ByteStore W) (sinceNs : UInt64) (limit : Nat) :
    Option (List IpKey × UInt64) :=
  pageSince (fun key _ => some (ipOf key)) s.tombstones sinceNs limit

/-! ## Deleting -/

def deleteOne (s : ByteStore W) (ip : IpKey) : Option (ByteStore W) :=
  let indexKey := ipIndexKey ip
  match s.policyIndex[indexKey]? with
  | some composite =>
    some
      { s with
        policies := s.policies.erase composite
        policyIndex := s.policyIndex.erase indexKey }
  | none =>
    (s.rows json).map fun rows =>
      let toRemove := (rows.filter fun kv => kv.2.ip = ip).map Prod.fst
      { s with
        policies := toRemove.foldl ExtTreeMap.erase s.policies
        policyIndex := s.policyIndex.erase indexKey }

def deletePolicies (s : ByteStore W) (ips : List IpKey) (nowNs : UInt64) :
    Option (ByteStore W) :=
  if ips.isEmpty then some s
  else
    (ips.foldlM (deleteOne json) s).map fun s =>
      { s with
        tombstones := ips.foldl (fun t ip => t.insert (compositeKey nowNs ip) ()) s.tombstones }

def prune (s : ByteStore W) (nowNs tombstoneTtlNs : UInt64) : Option (ByteStore W) :=
  (s.rows json).map fun rows =>
    let stale := rows.filter fun kv => Store.Stale kv.2 nowNs
    let s :=
      stale.foldl
        (fun s kv =>
          { s with
            policies := s.policies.erase kv.1
            policyIndex := s.policyIndex.erase (ipIndexKey kv.2.ip) }) s
    let stale :=
      (s.tombstones.toList.filter fun kv =>
        (stampOf kv.1).saturatingAdd tombstoneTtlNs < nowNs).map Prod.fst
    { s with tombstones := stale.foldl ExtTreeMap.erase s.tombstones }

/-! ## Runs -/

def step (s : ByteStore W) : Store.StoreLabel → Option (ByteStore W)
  | .merge nodeName policies clock => s.merge json nodeName policies clock
  | .delete ips nowNs => s.deletePolicies json ips nowNs
  | .prune nowNs tombstoneTtlNs => s.prune json nowNs tombstoneTtlNs

end ByteStore

end EShield.Hub
