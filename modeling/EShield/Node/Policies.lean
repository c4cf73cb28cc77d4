import EShield.Ebpf.Maps
import EShield.Lib.Attempt
import EShield.Node.RuleSets

/-!
# Rule sets in the data plane

The functions of `control.rs` that write a rule set to its map: `init_l7_patterns_map`,
`init_port_acl_map` and `init_protection_projects_map`. Each also brings the count or the flag in
CONFIG up to date, which lets the data plane skip an empty table.
-/

namespace EShield.Node

open Checks Ebpf Text

/-! ## L7 patterns -/

/-- Up to eight bytes of a text as a little-endian number, zeros behind them. -/
def leBytes (bytes : List UInt8) : UInt64 :=
  bytes.foldr (fun b acc => (acc <<< 8) ||| b.toUInt64) 0

/-- The entry of pattern number `i`. Without a mask every byte of the pattern counts. -/
def l7Entry (i : Nat) (pat : L7PatternConfig) : Except String L7Pattern := do
  let pattern := pat.pattern.toUTF8.toList
  rejectIf (pattern.length > 8) s!"L7 pattern {i} exceeds 8 bytes"
  let mask ←
    match pat.mask with
    | some mask => do
      let mask := mask.toUTF8.toList
      rejectIf (mask.length ≠ pattern.length) s!"L7 pattern {i} mask length mismatch"
      pure mask
    | none => pure (pattern.map fun _ => 0xff)
  return {
    signature := leBytes pattern
    mask := leBytes mask
    length := pattern.length.toUInt8 }

/-- `list.len() as u8`, capped at the size of the table. -/
def tableCount (length size : Nat) : UInt8 := min length.toUInt8 size.toUInt8

/-- Writes the entries of the rules in order, up to the first that cannot be encoded. -/
def fillTable {α β : Type} {n : Nat} (encode : Nat → α → Except String β) :
    Nat → List α → Vector β n → Except String Unit × Vector β n
  | _, [], table => (.ok (), table)
  | i, a :: as, table =>
    match encode i a with
    | .ok entry => fillTable encode (i + 1) as (table.setIfInBounds i entry)
    | .error e => (.error e, table)

def initL7PatternsMap (patterns : List L7PatternConfig) : Attempt Maps String := fun m =>
  match fillTable l7Entry 0 (patterns.take MAX_L7_PATTERNS) (.replicate _ {}) with
  | (.ok (), table) =>
    (.ok (),
      { m with
        l7Patterns := table
        config := { m.config with l7PatternCount := tableCount patterns.length MAX_L7_PATTERNS } })
  | (.error e, table) => (.error e, { m with l7Patterns := table })

/-! ## Port ACL -/

def portAclEntry (i : Nat) (item : PortAclItem) : Except String PortAclEntry := do
  rejectIf (i ≥ MAX_PORT_ACL) s!"too many port_acl entries (max {MAX_PORT_ACL})"
  item.toEntry.mapError fun _ => s!"invalid port_acl entry {i}"

def initPortAclMap (items : List PortAclItem) : Attempt Maps String := fun m =>
  match fillTable portAclEntry 0 items (.replicate _ {}) with
  | (.ok (), table) =>
    (.ok (),
      { m with
        portAcl := table
        config := { m.config with portAclCount := tableCount items.length MAX_PORT_ACL } })
  | (.error e, table) => (.error e, { m with portAcl := table })

/-! ## Protection projects -/

/-- Capacity of PROJECT_POLICY. -/
def MAX_ENTRIES : Nat := 8192

abbrev ProjectEntry := ProjectPolicyKey × ProjectPolicy

/-- What the entries of one project have in common. -/
structure ProjectHead where
  protocol : UInt8
  dport : UInt16
  policy : ProjectPolicy

def projectHead (i : Nat) (proj : ProtectionProject) : Except String ProjectHead := do
  let protocol ← required (protocolNumber proj.protocol)
    s!"protection_projects[{i}]: invalid protocol '{proj.protocol}'"
  let dport ←
    if proj.dport = "any" then pure 0
    else required (parsePort proj.dport.toList) s!"protection_projects[{i}]: invalid dport"
  let action ← required (projectActionNumber proj.action)
    s!"protection_projects[{i}]: invalid action '{proj.action}'"
  let flags := (proj.enabledModules.filterMap moduleFlag).foldl (· ||| ·) 0
  return { protocol := protocol, dport := dport, policy := { flags := flags, action := action } }

/-- The block of a target; an address is a block of its own. -/
def parseTarget (i : Nat) (ip : String) : Except String Cidr :=
  match parseIp ip with
  | .ok key => return (key, 32)
  | .error _ => (parseCidr ip).mapError fun _ =>
      s!"protection_projects[{i}]: invalid target '{ip}'"

/-- The entries of the addresses of a block, one for each number of its host. -/
def expandBlock (head : ProjectHead) (base : BitVec 32) (count : Nat) : List ProjectEntry :=
  (List.range count).map fun host =>
    ({ addr := bswap32 (.ofBitVec (base ||| BitVec.ofNat 32 host))
       dport := bswap16 head.dport
       protocol := head.protocol },
      head.policy)

/-- Adds the entries of a target. IPv6 targets are passed over: the data plane knows IPv4 only. -/
def expandTarget (i : Nat) (head : ProjectHead) (entries : List ProjectEntry) (ip : String) :
    Except String (List ProjectEntry) := do
  let (key, prefixLen) ← parseTarget i ip
  if key.ipFamily ≠ some .ipv4 then return entries
  rejectIf (prefixLen < 24)
    s!"protection_projects[{i}]: target '{ip}' prefix /{prefixLen} too broad (min /24)"
  let count := 2 ^ (32 - prefixLen)
  rejectIf (entries.length + count > MAX_ENTRIES)
    s!"protection projects exceed PROJECT_POLICY map capacity ({MAX_ENTRIES} entries)"
  return entries ++ expandBlock head key.ipv4 count

def expandProject (entries : List ProjectEntry) (proj : ProtectionProject × Nat) :
    Except String (List ProjectEntry) := do
  let head ← projectHead proj.2 proj.1
  proj.1.targetIps.foldlM (expandTarget proj.2 head) entries

/-- The entries of all projects, worked out before the map is touched. -/
def expandProjects (projects : List ProtectionProject) : Except String (List ProjectEntry) :=
  projects.zipIdx.foldlM expandProject []

/-- Replaces the policies by those of `entries`; of two at one key the later one stays. -/
def writeProjects (entries : List ProjectEntry) (m : Maps) : Maps :=
  { m with
    projectPolicy := entries.foldl (fun policies e => policies.insert e.1 e.2) .empty
    config := { m.config with projectEnabled := if entries.length > 0 then 1 else 0 } }

def initProtectionProjectsMap (projects : List ProtectionProject) : Attempt Maps String :=
  Attempt.commit fun m => return writeProjects (← expandProjects projects) m

end EShield.Node
