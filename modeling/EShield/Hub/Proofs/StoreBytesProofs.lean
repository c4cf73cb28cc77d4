import EShield.Hub.StoreBytes
import EShield.Lib.Json
import EShield.Lib.KeyCodec
import EShield.Lib.Lockstep

/-!
# The stored tables are those of the store

The keys are ordered as their bytes are, so the tables of bytes hold the rows of the typed ones in the
same order. Each operation keeps this and fails where that of the store fails.
-/

namespace EShield.Hub

open Bytes Exec Std

/-! ## Keys -/

theorem compare_ipIndexKey (a b : IpKey) : compare (ipIndexKey a) (ipIndexKey b) = compare a b := by
  have haddr : compare a.addr b.addr = compare a.addr.toNat b.addr.toNat :=
    compareOfLessAndEq_toNat BitVec.lt_def BitVec.toNat_inj.symm
  rw [ipIndexKey, ipIndexKey, List.compare_cons_cons, compare_beBytes a.addr.isLt b.addr.isLt,
    ← haddr]
  rfl

def ipCodec : KeyCodec IpKey KeyBytes where
  encode := ipIndexKey
  compare_encode := compare_ipIndexKey

def compositeCodec : KeyCodec CompositeKey KeyBytes where
  encode k := compositeKey k.lastSeenNs k.ip
  compare_encode a b := by
    have hstamp : compare a.lastSeenNs b.lastSeenNs =
        compare a.lastSeenNs.toNat b.lastSeenNs.toNat :=
      compareOfLessAndEq_toNat UInt64.lt_iff_toNat_lt UInt64.toNat_inj.symm
    rw [compositeKey, compositeKey, compare_append (by simp), compare_ipIndexKey,
      compare_beBytes a.lastSeenNs.toNat_lt b.lastSeenNs.toNat_lt, ← hstamp]
    rfl

theorem stampOf_compositeKey (lastSeenNs : UInt64) (ip : IpKey) :
    stampOf (compositeKey lastSeenNs ip) = lastSeenNs := by
  have hlt : lastSeenNs.toNat < 256 ^ 8 := lastSeenNs.toNat_lt
  rw [stampOf, compositeKey, List.take_left' (by simp), beValue_beBytes, Nat.mod_eq_of_lt hlt,
    UInt64.ofNat_toNat]

theorem ipOf_compositeKey (lastSeenNs : UInt64) (ip : IpKey) :
    ipOf (compositeKey lastSeenNs ip) = ip := by
  have hlen : (beBytes 8 lastSeenNs.toNat).toList.length = 8 := by simp
  have hfamily : (compositeKey lastSeenNs ip).getD 8 0 = ip.family := by
    rw [compositeKey, List.getD_eq_getElem?_getD, List.getElem?_append_right hlen.le, hlen]
    rfl
  have haddr : (compositeKey lastSeenNs ip).drop 9 = (beBytes 16 ip.addr.toNat).toList := by
    simp [compositeKey, ipIndexKey, List.drop_append]
  have hlt : ip.addr.toNat < 256 ^ 16 := ip.addr.isLt
  rw [ipOf, hfamily, haddr, beValue_beBytes, Nat.mod_eq_of_lt hlt, BitVec.ofNat_toNat,
    BitVec.setWidth_eq]

/-! ## Tables -/

variable {W V A : Type} {json : PolicyJson W} {b : ByteStore W} {s : Store}

/-- The stored tables are those of the store. -/
structure Encodes (json : PolicyJson W) (b : ByteStore W) (s : Store) : Prop where
  policies : compositeCodec.Stores json.toVec b.policies s.policies
  policyIndex : ipCodec.Stores compositeCodec.encode b.policyIndex s.index
  tombstones : compositeCodec.Stores id b.tombstones s.tombstones

theorem encodes_empty : Encodes json {} {} where
  policies := KeyCodec.stores_empty
  policyIndex := KeyCodec.stores_empty
  tombstones := KeyCodec.stores_empty

/-- All rows can be read. -/
theorem Encodes.rows (h : Encodes json b s) :
    b.rows json = some (s.policies.toList.map fun kv => (compositeCodec.encode kv.1, kv.2)) := by
  rw [ByteStore.rows, show b.policies.toList = _ from h.policies, List.mapM_map]
  simp only [Function.comp_def, json.fromSlice_toVec, Option.map_some]
  exact List.mapM_pure

/-! ## Merging -/

theorem Encodes.rebuildIndex (h : Encodes json b s) :
    ∃ b', b.rebuildIndex json = some b' ∧ Encodes json b' s.rebuildIndex := by
  rw [ByteStore.rebuildIndex, Store.rebuildIndex, h.policyIndex.isEmpty, h.policies.isEmpty]
  split
  · refine ⟨_, by rw [h.rows]; rfl, ?_⟩
    refine { h with policyIndex := ?_ }
    dsimp only
    rw [List.foldl_map]
    exact List.foldl_rel h.policyIndex fun kv _ index index' hindex => hindex.insert kv.2.ip kv.1
  · exact ⟨b, rfl, h⟩

theorem Encodes.putPolicy (h : Encodes json b s) (oldKey : Option CompositeKey) (ip : IpKey)
    (policy : SharedPolicy) :
    Encodes json (b.putPolicy json (oldKey.map compositeCodec.encode) (ipIndexKey ip) policy)
      (s.putPolicy oldKey ip policy) where
  policies := by
    cases oldKey with
    | none => exact h.policies.insert ⟨policy.lastSeenNs, policy.ip⟩ policy
    | some oldKey =>
      let newKey : CompositeKey := ⟨policy.lastSeenNs, policy.ip⟩
      have hsame : compositeCodec.encode oldKey ≠ compositeCodec.encode newKey ↔ oldKey ≠ newKey :=
        not_congr compositeCodec.encode_inj
      change compositeCodec.Stores json.toVec
        (ExtTreeMap.insert
          (if compositeCodec.encode oldKey ≠ compositeCodec.encode newKey then
            b.policies.erase (compositeCodec.encode oldKey) else b.policies)
          (compositeCodec.encode newKey) (json.toVec policy))
        (ExtTreeMap.insert (if oldKey ≠ newKey then s.policies.erase oldKey else s.policies)
          newKey policy)
      simp only [hsame]
      split
      · exact (h.policies.erase oldKey).insert ⟨policy.lastSeenNs, policy.ip⟩ policy
      · exact h.policies.insert ⟨policy.lastSeenNs, policy.ip⟩ policy
  policyIndex := h.policyIndex.insert ip ⟨policy.lastSeenNs, policy.ip⟩
  tombstones := h.tombstones

theorem Encodes.mergeOne (h : Encodes json b s) (nodeName : String) (nowNs : UInt64)
    (node : NodePolicy) :
    Option.Rel (Encodes json) (b.mergeOne json nodeName nowNs node)
      (s.mergeOne nodeName nowNs node) := by
  have hindex : b.policyIndex[ipIndexKey node.ip]? = _ := h.policyIndex.getElem? node.ip
  simp only [ByteStore.mergeOne, Store.mergeOne, hindex]
  cases s.index[node.ip]? with
  | none => exact .some (h.putPolicy none node.ip _)
  | some composite =>
    have hrow := h.policies.getElem? composite
    simp only [Option.map_some, hrow]
    cases s.policies[composite]? with
    | none => exact .none
    | some p =>
      simp only [Option.map_some, Option.bind_some, json.fromSlice_toVec]
      exact .some (h.putPolicy (some composite) node.ip _)

theorem Encodes.merge (h : Encodes json b s) (nodeName : String) (policies : List NodePolicy)
    (clock : Nat → UInt64) :
    Option.Rel (Encodes json) (b.merge json nodeName policies clock)
      (s.merge nodeName policies clock) := by
  refine foldlM_rel (fun b s chunk h => ?_) h _
  obtain ⟨b', hb', h'⟩ := h.rebuildIndex
  rw [ByteStore.mergeChunk, hb']
  exact foldlM_rel (fun b s node h => h.mergeOne nodeName _ node) h' _

/-! ## Queries -/

theorem scan_cons (read : KeyBytes → W → Option A) (sinceNs : UInt64) (limit : Nat)
    (cutoff : Option UInt64) (found : List A) (cursor : UInt64) (key : KeyBytes) (w : W)
    (rest : List (KeyBytes × W)) :
    ByteStore.scan read sinceNs limit cutoff found cursor ((key, w) :: rest) =
      if stampOf key ≤ sinceNs then ByteStore.scan read sinceNs limit cutoff found cursor rest
      else
        match cutoff with
        | some cutoffNs =>
          if stampOf key ≠ cutoffNs then some (found, cursor)
          else
            (read key w).bind fun a =>
              ByteStore.scan read sinceNs limit (some cutoffNs) (found ++ [a]) (stampOf key) rest
        | none =>
          (read key w).bind fun a =>
            ByteStore.scan read sinceNs limit
              (if found.length ≥ limit then some (stampOf key) else none) (found ++ [a])
              (stampOf key) rest := rfl

/-- The loop of a query is the page behind the cursor. -/
theorem scan_eq {f : V → W} {read : KeyBytes → W → Option A} {value : CompositeKey × V → A}
    (hread : ∀ kv, read (compositeCodec.encode kv.1) (f kv.2) = some (value kv))
    (sinceNs : UInt64) (limit : Nat) (cutoff : Option UInt64) (found : List A) (cursor : UInt64)
    (table : List (CompositeKey × V)) :
    let page := Feed.fill limit cutoff found.length
      ((table.map fun kv => (kv.1.lastSeenNs, kv)).filter fun r => sinceNs < r.1)
    ByteStore.scan read sinceNs limit cutoff found cursor
        (table.map fun kv => (compositeCodec.encode kv.1, f kv.2)) =
      some (found ++ page.map fun r => value r.2, Feed.cursor cursor page) := by
  induction table generalizing cutoff found cursor with
  | nil => simp [ByteStore.scan, Feed.fill, Feed.cursor]
  | cons kv table ih =>
    have hstamp : stampOf (compositeCodec.encode kv.1) = kv.1.lastSeenNs :=
      stampOf_compositeKey _ _
    have hlast : ∀ page : List (UInt64 × CompositeKey × V),
        Feed.cursor cursor ((kv.1.lastSeenNs, kv) :: page) = Feed.cursor kv.1.lastSeenNs page := by
      intro page
      simp only [Feed.cursor, List.getLast?_cons]
      cases page.getLast? <;> rfl
    rw [List.map_cons, List.map_cons, scan_cons, hstamp]
    dsimp only
    by_cases hold : kv.1.lastSeenNs ≤ sinceNs
    · rw [if_pos hold, List.filter_cons_of_neg (by simpa using hold)]
      exact ih cutoff found cursor
    · rw [if_neg hold, List.filter_cons_of_pos (by simpa using hold)]
      cases cutoff with
      | none =>
        dsimp only
        rw [hread, Option.bind_some, ih, Feed.fill, hlast]
        simp
      | some cutoffNs =>
        dsimp only
        rw [Feed.fill]
        dsimp only
        split
        · simp [Feed.cursor]
        · rw [hread, Option.bind_some, ih, hlast]
          simp

/-- A range that begins behind the cursor leaves out nothing that a page could hold. -/
theorem isLE_of_lt {sinceNs : UInt64} {k : CompositeKey} (h : sinceNs < k.lastSeenNs) :
    (compare (⟨sinceNs.saturatingAdd 1, ⟨0, 0⟩⟩ : CompositeKey) k).isLE = true := by
  have hle : sinceNs.saturatingAdd 1 ≤ k.lastSeenNs := by
    rw [UInt64.le_iff_toNat_le, UInt64.toNat_saturatingAdd]
    rw [UInt64.lt_iff_toNat_lt] at h
    have hone : (1 : UInt64).toNat = 1 := rfl
    omega
  have hstamp : (compare (sinceNs.saturatingAdd 1) k.lastSeenNs).isLE = true :=
    LawfulOrderOrd.isLE_compare _ _ |>.2 hle
  have hfamily : (compare (0 : UInt8) k.ip.family).isLE = true :=
    LawfulOrderOrd.isLE_compare _ _ |>.2 (UInt8.zero_le)
  have haddr : (compare (0 : BitVec 128) k.ip.addr).isLE = true := by
    have hnat : compare (0 : BitVec 128) k.ip.addr = compare 0 k.ip.addr.toNat :=
      compareOfLessAndEq_toNat BitVec.lt_def BitVec.toNat_inj.symm
    rw [hnat]
    exact Nat.isLE_compare.2 (Nat.zero_le _)
  change ((compare _ _).then ((compare (0 : UInt8) _).then (compare (0 : BitVec 128) _))).isLE = true
  rw [Ordering.isLE_then_iff_and, Ordering.isLE_then_iff_and]
  exact ⟨hstamp, .inr ⟨hfamily, .inr haddr⟩⟩

theorem pageSince_stores {f : V → W} {table : ExtTreeMap KeyBytes W}
    {typed : ExtTreeMap CompositeKey V} (h : compositeCodec.Stores f table typed)
    {read : KeyBytes → W → Option A} {value : CompositeKey × V → A}
    (hread : ∀ kv, read (compositeCodec.encode kv.1) (f kv.2) = some (value kv))
    (sinceNs : UInt64) (limit : Nat) :
    ByteStore.pageSince read table sinceNs limit =
      some ((Store.pageSince typed sinceNs limit).1.map value,
        (Store.pageSince typed sinceNs limit).2) := by
  rw [ByteStore.pageSince, Store.pageSince]
  split
  · rfl
  · have hstart : (beBytes 8 (sinceNs.saturatingAdd 1).toNat).toList ++ List.replicate 17 0 =
        compositeCodec.encode ⟨sinceNs.saturatingAdd 1, ⟨0, 0⟩⟩ :=
      congrArg ((beBytes 8 (sinceNs.saturatingAdd 1).toNat).toList ++ ·)
        (show List.replicate 17 0 = ipIndexKey ⟨0, 0⟩ by decide)
    have hrange : ByteStore.rangeFrom table
        (compositeCodec.encode ⟨sinceNs.saturatingAdd 1, ⟨0, 0⟩⟩) =
        (typed.toList.filter fun kv =>
          (compare (⟨sinceNs.saturatingAdd 1, ⟨0, 0⟩⟩ : CompositeKey) kv.1).isLE).map
            fun kv => (compositeCodec.encode kv.1, f kv.2) := by
      rw [ByteStore.rangeFrom, show table.toList = _ from h, List.filter_map]
      simp only [Function.comp_def, compositeCodec.compare_encode]
    have hrows : (((typed.toList.filter fun kv =>
          (compare (⟨sinceNs.saturatingAdd 1, ⟨0, 0⟩⟩ : CompositeKey) kv.1).isLE).map
            fun kv => (kv.1.lastSeenNs, kv)).filter fun r => sinceNs < r.1) =
        (Store.stamped typed).filter fun r => sinceNs < r.1 := by
      rw [Store.stamped, List.filter_map, List.filter_map, List.filter_filter]
      refine congrArg _ (List.filter_congr fun kv _ => ?_)
      simp only [Function.comp_def, Bool.and_eq_left_iff_imp, decide_eq_true_eq]
      exact isLE_of_lt
    have hpage : Feed.page limit sinceNs (Store.stamped typed) =
        Feed.fill limit none 0 ((Store.stamped typed).filter fun r => sinceNs < r.1) := by
      rw [Feed.page]
      exact congrArg _ (List.filter_congr fun _ _ => decide_eq_decide.2 Iff.rfl)
    dsimp only
    rw [hstart, hrange, scan_eq hread, List.length_nil, hrows, hpage, List.nil_append, List.map_map]
    rfl

theorem Encodes.querySince (h : Encodes json b s) (sinceNs : UInt64) (limit : Nat) :
    b.querySince json sinceNs limit = some (s.querySince sinceNs limit) :=
  pageSince_stores h.policies (fun kv => json.fromSlice_toVec kv.2) sinceNs limit

theorem Encodes.queryTombstonesSince (h : Encodes json b s) (sinceNs : UInt64) (limit : Nat) :
    b.queryTombstonesSince sinceNs limit = some (s.queryTombstonesSince sinceNs limit) :=
  pageSince_stores h.tombstones
    (fun kv => congrArg some (ipOf_compositeKey kv.1.lastSeenNs kv.1.ip)) sinceNs limit

/-! ## Deleting -/

theorem Encodes.deleteOne (h : Encodes json b s) (ip : IpKey) :
    Option.Rel (Encodes json) (b.deleteOne json ip) (some (s.deleteOne ip)) := by
  have hindex : b.policyIndex[ipIndexKey ip]? = _ := h.policyIndex.getElem? ip
  have herased := h.policyIndex.erase ip
  simp only [ByteStore.deleteOne, Store.deleteOne, hindex]
  cases s.index[ip]? with
  | some composite =>
    exact .some { policies := h.policies.erase composite, policyIndex := herased
                  tombstones := h.tombstones }
  | none =>
    simp only [Option.map_none, h.rows, Option.map_some]
    refine .some { policies := ?_, policyIndex := herased, tombstones := h.tombstones }
    have hfilter := KeyCodec.foldl_erase_filter s.policies fun _ p => decide (p.ip = ip)
    have hnot : (fun (_ : CompositeKey) (p : SharedPolicy) => decide (p.ip ≠ ip)) =
        fun _ p => !decide (p.ip = ip) := by
      funext _ p
      exact decide_not
    dsimp only
    rw [hnot, ← hfilter, List.filter_map, List.map_map, List.foldl_map, List.foldl_map]
    exact List.foldl_rel h.policies fun kv _ t t' ht => ht.erase kv.1

theorem Encodes.deletePolicies (h : Encodes json b s) (ips : List IpKey) (nowNs : UInt64) :
    Option.Rel (Encodes json) (b.deletePolicies json ips nowNs)
      (some (s.deletePolicies ips nowNs)) := by
  rw [ByteStore.deletePolicies, Store.deletePolicies]
  split
  · exact .some h
  · have hdeleted : Option.Rel (Encodes json) (ips.foldlM (ByteStore.deleteOne json) b)
        (ips.foldlM (fun s ip => some (Store.deleteOne s ip)) s) :=
      foldlM_rel (fun b s ip h => h.deleteOne ip) h ips
    have htyped : ips.foldlM (fun s ip => some (Store.deleteOne s ip)) s =
        some (ips.foldl Store.deleteOne s) := List.foldlM_pure
    rw [htyped] at hdeleted
    generalize ips.foldlM (ByteStore.deleteOne json) b = r at hdeleted
    cases hdeleted with
    | some hbs =>
      exact .some
        { hbs with
          tombstones := List.foldl_rel hbs.tombstones fun ip _ t t' ht => ht.insert ⟨nowNs, ip⟩ () }

theorem Encodes.prune (h : Encodes json b s) (nowNs tombstoneTtlNs : UInt64) :
    Option.Rel (Encodes json) (b.prune json nowNs tombstoneTtlNs)
      (some (s.prune nowNs tombstoneTtlNs)) := by
  simp only [ByteStore.prune, Store.prune, h.rows, Option.map_some]
  rw [List.filter_map, List.foldl_map]
  refine .some ?_
  generalize hb : List.foldl _ b _ = b'
  generalize hs : List.foldl _ s _ = s'
  have hstale : Encodes json b' s' := by
    rw [← hb, ← hs]
    exact List.foldl_rel h fun kv _ b s h =>
      ⟨h.policies.erase kv.1, h.policyIndex.erase kv.2.ip, h.tombstones⟩
  have hold := KeyCodec.foldl_erase_filter b'.tombstones
    fun key _ => decide ((stampOf key).saturatingAdd tombstoneTtlNs < nowNs)
  refine { hstale with tombstones := ?_ }
  dsimp only
  rw [hold]
  refine hstale.tombstones.filter fun k _ => ?_
  rw [show stampOf (compositeCodec.encode k) = _ from stampOf_compositeKey _ _]
  exact decide_not.symm

/-! ## Runs -/

theorem Encodes.step (h : Encodes json b s) (label : Store.StoreLabel) :
    Option.Rel (Encodes json) (b.step json label) (s.storeStep label) := by
  cases label with
  | merge nodeName policies clock => exact h.merge nodeName policies clock
  | delete ips nowNs => exact h.deletePolicies ips nowNs
  | prune nowNs tombstoneTtlNs => exact h.prune nowNs tombstoneTtlNs

/-- Stored tables that answer as the store does. -/
structure Serves (json : PolicyJson W) (b : ByteStore W) (s : Store) : Prop where
  encodes : Encodes json b s
  querySince : ∀ sinceNs limit, b.querySince json sinceNs limit = some (s.querySince sinceNs limit)
  queryTombstonesSince : ∀ sinceNs limit,
    b.queryTombstonesSince sinceNs limit = some (s.queryTombstonesSince sinceNs limit)
  size : b.policies.size = s.policies.size

/-- In every run of calls on stored tables, whatever is stored before it: a call fails exactly where the
store has it fail, and as long as none does the tables stay those of the store, every row can be read,
both queries give the same pages and cursors, and as many policies are counted. -/
theorem stored_bytes_refine_store (json : PolicyJson W) {b : ByteStore W} {s : Store}
    (h : Encodes json b s) (labels : List Store.StoreLabel) :
    Option.Rel (Serves json) (exec (ByteStore.step json) b labels)
      (exec Store.storeStep s labels) := by
  have hrun : Option.Rel (Encodes json) (exec (ByteStore.step json) b labels)
      (exec Store.storeStep s labels) :=
    exec_rel (fun _ _ label h => h.step label) h labels
  generalize exec (ByteStore.step json) b labels = r at hrun
  generalize exec Store.storeStep s labels = r' at hrun
  cases hrun with
  | none => exact .none
  | some hbs => exact .some ⟨hbs, hbs.querySince, hbs.queryTombstonesSince, hbs.policies.size⟩

/-! ## Policies as JSON text -/

def byteValue (b : UInt8) : Json := .num (.posInt b.toUInt64)

/-- The fields of a policy in the order in which `serde_json` writes them. -/
def policyValue (p : SharedPolicy) : Json :=
  .obj
    [("ip", .obj
        [("family", byteValue p.ip.family),
          ("addr", .arr ((beBytes 16 p.ip.addr.toNat).toList.map byteValue)),
          ("padding", .arr (List.replicate 15 (byteValue 0)))]),
      ("reason", byteValue p.reason),
      ("hit_count", .num (.posInt p.hitCount.toUInt64)),
      ("trust_score", .num (.posInt p.trustScore.toUInt64)),
      ("first_seen_ns", .num (.posInt p.firstSeenNs)),
      ("last_seen_ns", .num (.posInt p.lastSeenNs)),
      ("source_nodes", .arr (p.sourceNodes.map fun node => .str node.toList)),
      ("ttl_s", .num (.posInt p.ttlS))]

theorem byteValue_injective : Function.Injective byteValue := by
  intro a b h
  simp only [byteValue, Json.num.injEq, Json.Number.posInt.injEq] at h
  exact UInt8.toUInt64_inj.1 h

theorem policyValue_injective : Function.Injective policyValue := by
  rintro ⟨⟨family, addr⟩, reason, hits, trust, firstSeenNs, lastSeenNs, nodes, ttlS⟩
    ⟨⟨family', addr'⟩, reason', hits', trust', firstSeenNs', lastSeenNs', nodes', ttlS'⟩ h
  simp only [policyValue, Json.obj.injEq, List.cons.injEq, Prod.mk.injEq, Json.arr.injEq,
    Json.num.injEq, Json.Number.posInt.injEq, byteValue_injective.eq_iff, true_and, and_true] at h
  obtain ⟨⟨hfamily, haddr⟩, hreason, hhits, htrust, hfirst, hlast, hnodes, httl⟩ := h
  have haddr : addr = addr' := by
    have hbytes := List.map_injective_iff.2 byteValue_injective haddr
    have hvalue := congrArg beValue hbytes
    have hlt : ∀ a : BitVec 128, a.toNat < 256 ^ 16 := BitVec.isLt
    rw [beValue_beBytes, beValue_beBytes, Nat.mod_eq_of_lt (hlt _), Nat.mod_eq_of_lt (hlt _)] at hvalue
    exact BitVec.toNat_inj.1 hvalue
  have hnodes : nodes = nodes' :=
    List.map_injective_iff.2 (fun a b hab => String.toList_inj.1 (Json.str.inj hab)) hnodes
  obtain rfl := UInt32.toUInt64_inj.1 hhits
  obtain rfl := UInt32.toUInt64_inj.1 htrust
  subst hfamily haddr hreason hfirst hlast hnodes httl
  rfl

/-- Policies as JSON text, and what reads back every text that is written. -/
noncomputable def textJson : PolicyJson (List Char) where
  toVec p := (policyValue p).print
  fromSlice := Function.partialInv fun p => (policyValue p).print
  fromSlice_toVec :=
    Function.partialInv_left fun _ _ h => policyValue_injective (Json.print_injective h)

/-- Two reports of one address, and the deletion of another. -/
def reportsAndDeletion : List Store.StoreLabel :=
  [.merge "a" [{ ip := .fromIpv4 1, reason := 3, hitCount := 5, trustScore := 9, blockedUntilNs := 0
                 ttlS := 60 }] fun _ => 100,
    .merge "b" [{ ip := .fromIpv4 1, reason := 3, hitCount := 7, trustScore := 4, blockedUntilNs := 0
                  ttlS := 90 }] fun _ => 200,
    .delete [.fromIpv4 2] 300]

theorem stored_bytes_refine_store_reports :
    Option.Rel (Serves textJson) (exec (ByteStore.step textJson) {} reportsAndDeletion)
        (exec Store.storeStep {} reportsAndDeletion) ∧
      (exec Store.storeStep {} reportsAndDeletion).isSome :=
  ⟨stored_bytes_refine_store textJson encodes_empty _, by decide⟩

end EShield.Hub
