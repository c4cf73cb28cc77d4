import EShield.Ebpf.Maps
import EShield.Lib.Attempt
import EShield.Node.GeoIp
import EShield.Node.RuleTables

/-!
# Address lists in the data plane

The functions of `control.rs` that write the whitelist, the static blacklist and the GeoIP lists to
their maps.
-/

namespace EShield.Node

open Checks Ebpf

/-! ## Whitelist -/

/-- The tries WHITELIST_V4 and WHITELIST_V6. -/
def whitelistTries (m : Maps) : CidrTries := ⟨m.whitelistV4, m.whitelistV6⟩

def setWhitelistTries (m : Maps) (t : CidrTries) : Maps :=
  { m with whitelistV4 := t.v4, whitelistV6 := t.v6 }

def allowCidrRaw (c : Cidr) : Attempt Maps String :=
  Attempt.commit fun m => do
    rejectIf (c.1.ipFamily = none) "unknown IP family"
    return setWhitelistTries m ((whitelistTries m).insert c)

/-- The part of `disallow_cidr` under the lock of the maps. Removing a prefix that is not there is an
error of the kernel. -/
def disallowCidrRaw (c : Cidr) : Attempt Maps String :=
  Attempt.commit fun m => do
    rejectIf (c.1.ipFamily = none) "unknown IP family"
    rejectIf (¬ (whitelistTries m).Holds c) "bpf_map_delete_elem"
    return setWhitelistTries m ((whitelistTries m).remove c)

@[simp] theorem whitelistTries_set (m : Maps) (t : CidrTries) :
    whitelistTries (setWhitelistTries m t) = t := rfl

theorem allowCidrRaw_passes {c : Cidr} (hfamily : c.1.ipFamily ≠ none) (m : Maps) :
    (allowCidrRaw c).Passes m (setWhitelistTries m ((whitelistTries m).insert c)) := by
  unfold allowCidrRaw
  rw [Attempt.passes_commit, rejectIf_neg hfamily]
  rfl

/-- The tries after the calls of `allow_cidr_raw` that store the blocks. -/
theorem allowCidrRaws_passes {cs : List Cidr} (hcs : ∀ c ∈ cs, c.1.ipFamily ≠ none) (m : Maps) :
    (Attempt.sequence (cs.map allowCidrRaw)).Passes m
      (setWhitelistTries m (cs.foldl CidrTries.insert (whitelistTries m))) := by
  induction cs generalizing m with
  | nil => exact Attempt.passes_nil m
  | cons c cs ih =>
    obtain ⟨hc, hrest⟩ := List.forall_mem_cons.1 hcs
    exact Attempt.passes_cons.2 ⟨_, allowCidrRaw_passes hc m, ih hrest _⟩

theorem allowCidrRaw_of_unknown {c : Cidr} (hfamily : c.1.ipFamily = none) (m : Maps) :
    (allowCidrRaw c m).2 = m := by
  unfold allowCidrRaw Attempt.commit
  rw [rejectIf_pos hfamily]
  rfl

theorem disallowCidrRaw_passes {c : Cidr} {m : Maps} (hholds : (whitelistTries m).Holds c) :
    (disallowCidrRaw c).Passes m (setWhitelistTries m ((whitelistTries m).remove c)) := by
  have hfamily : ¬ c.1.ipFamily = none := hholds.family
  unfold disallowCidrRaw
  rw [Attempt.passes_commit, rejectIf_neg hfamily, rejectIf_neg (not_not.2 hholds)]
  rfl

theorem disallowCidrRaw_of_absent {c : Cidr} {m : Maps} (hholds : ¬ (whitelistTries m).Holds c) :
    (disallowCidrRaw c m).2 = m := by
  unfold disallowCidrRaw Attempt.commit
  beta_reduce
  by_cases hfamily : c.1.ipFamily = none
  · rw [rejectIf_pos hfamily]
    rfl
  · rw [rejectIf_neg hfamily, rejectIf_pos hholds]
    rfl

/-! ## The whitelist of the configuration -/

/-- One change of the whitelist tries. -/
inductive TrieChange where
  | remove (c : Cidr)
  | insert (c : Cidr)

def TrieChange.apply : TrieChange → Attempt CidrTries String
  | .remove c =>
    Attempt.commit fun t => do
      rejectIf (¬ t.Holds c) "bpf_map_delete_elem"
      return t.remove c
  | .insert c => Attempt.write fun t => t.insert c

/-- The blocks of one family. -/
def ofFamily (family : IpFamily) (cs : List Cidr) : List Cidr :=
  cs.filter fun c => c.1.ipFamily = some family

/-- The changes that lead from `current` to `new`, the IPv4 trie before the IPv6 trie. -/
def whitelistChanges (current new : List Cidr) : List TrieChange :=
  let removed := current.filter (· ∉ new)
  let added := new.filter (· ∉ current)
  (ofFamily .ipv4 removed).map .remove ++ (ofFamily .ipv4 added).map .insert ++
    ((ofFamily .ipv6 removed).map .remove ++ (ofFamily .ipv6 added).map .insert)

/-- The blocks of the configuration, each once. -/
def configWhitelist (config : Config) : Except String (List Cidr) :=
  (config.whitelist.mapM parseCidr).map List.dedup

/-- Brings the tries from the tracked list `s.2` to the list of the configuration. -/
def applyWhitelistMap (config : Config) : Attempt (Maps × List Cidr) String := fun s =>
  match configWhitelist config with
  | .error e => (.error e, s)
  | .ok new =>
    match Attempt.sequence ((whitelistChanges s.2 new).map TrieChange.apply)
        (whitelistTries s.1) with
    | (.ok (), t) => (.ok (), setWhitelistTries s.1 t, new)
    | (.error e, t) => (.error e, setWhitelistTries s.1 t, s.2)

/-! ## The static blacklist -/

def configBlacklist (config : Config) : Except String (List IpKey) :=
  (config.blacklist.mapM parseIpOrCidr).map List.dedup

def staticEntry : BlockEntry :=
  { blockedUntilNs := BLOCK_PERMANENT
    firstSeenNs := 0
    hitCount := 0
    blockReason := rules.BLACKLIST.toUInt8
    lastReason := 0 }

/-- An address that has left the list loses its entry, unless the entry has another reason by now. -/
def removeStatic (new : List IpKey) (blacklist : LruHashMap IpKey BlockEntry) (key : IpKey) :
    LruHashMap IpKey BlockEntry :=
  if key ∈ new then blacklist
  else
    match blacklist key with
    | some entry =>
      if entry.blockReason = rules.BLACKLIST.toUInt8 then blacklist.remove key else blacklist
    | none => blacklist

def addStatic (current : List IpKey) (blacklist : LruHashMap IpKey BlockEntry) (key : IpKey) :
    LruHashMap IpKey BlockEntry :=
  if key ∈ current then blacklist else blacklist.insert key staticEntry

/-- BLACKLIST on the way from the tracked list `current` to `new`. -/
def changeStatic (current new : List IpKey) (blacklist : LruHashMap IpKey BlockEntry) :
    LruHashMap IpKey BlockEntry :=
  new.foldl (addStatic current) (current.foldl (removeStatic new) blacklist)

def applyBlacklistMap (config : Config) : Attempt (Maps × List IpKey) String :=
  Attempt.commit fun s => do
    let new ← configBlacklist config
    return ({ s.1 with blacklist := changeStatic s.2 new s.1.blacklist }, new)

/-! ## GeoIP -/

/-- The tries of the blocked and of the allowed networks, and what is tracked of each. -/
structure GeoipLists where
  blockTries : CidrTries := {}
  allowTries : CidrTries := {}
  blocks : List Cidr := []
  allows : List Cidr := []

/-- The blocks of both families in the order in which they are written. -/
def byFamily (cs : List Cidr) : List Cidr := ofFamily .ipv4 cs ++ ofFamily .ipv6 cs

/-- The tracked blocks that the new list does not have. -/
def staleBlocks (old new : List Cidr) : List Cidr :=
  (byFamily old).filter fun c => ¬ ∃ n ∈ new, n.SameKey c

/-- Loads the lists first, but forgets the tracked ones before; then writes the new blocks, of which
insertion number `insertFails` fails, and at last removes the old ones. -/
def applyGeoipMap (csv : CsvFiles) (config : GeoIpConfig) (insertFails : Option Nat) :
    Attempt GeoipLists String := fun g =>
  match loadGeoipLists csv config with
  | .error e => (.error e, { g with blocks := [], allows := [] })
  | .ok (blocks, allows) =>
    let newBlocks := byFamily blocks
    let newAllows := byFamily allows
    match insertFails with
    | some n =>
      if n < newBlocks.length + newAllows.length then
        (.error "bpf_map_update_elem",
          { blockTries := (newBlocks.take n).foldl CidrTries.insert g.blockTries
            allowTries := (newAllows.take (n - newBlocks.length)).foldl CidrTries.insert g.allowTries
            blocks := blocks
            allows := allows })
      else written g blocks allows
    | none => written g blocks allows
where
  written (g : GeoipLists) (blocks allows : List Cidr) : Except String Unit × GeoipLists :=
    let blockTries := (byFamily blocks).foldl CidrTries.insert g.blockTries
    let allowTries := (byFamily allows).foldl CidrTries.insert g.allowTries
    (.ok (),
      { blockTries := (staleBlocks g.blocks blocks).foldl CidrTries.remove blockTries
        allowTries := (staleBlocks g.allows allows).foldl CidrTries.remove allowTries
        blocks := blocks
        allows := allows })

end EShield.Node
