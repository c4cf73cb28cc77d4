import EShield.Common.Pure
import EShield.Node.Ip

/-!
# Rule sets

The three lists of rules that both the configuration file and the API set: port ACL items, L7
patterns and protection projects. The checks are those that the file, the API and the rule bundles
of the hub share; `to_entry` encodes an ACL item for the data plane.
-/

namespace EShield.Node

open Checks Text

/-- The number of a protocol keyword, 0 for any protocol. -/
def protocolNumber (protocol : String) : Option UInt8 :=
  let word := lowercase protocol
  if word = "any".toList then some 0
  else if word = "tcp".toList then some 6
  else if word = "udp".toList then some 17
  else if word = "icmp".toList then some 1
  else if word = "icmpv6".toList then some 58
  else none

def parsePort (cs : List Char) : Option UInt16 := (parseUnsigned 16 cs).map UInt16.ofNat

/-! ## Port ACL -/

structure PortAclItem where
  protocol : String
  dport : String
  action : String
  deriving DecidableEq, Repr

/-- 1 = allow, 2 = drop. -/
def aclActionNumber (action : String) : Option UInt8 :=
  let word := lowercase action
  if word = "allow".toList then some 1
  else if word = "drop".toList then some 2
  else none

/-- The port of an item is a wildcard. -/
def PortAclItem.AnyPort (item : PortAclItem) : Prop := item.dport = "*" ∨ item.dport = "any"

instance (item : PortAclItem) : Decidable item.AnyPort := inferInstanceAs (Decidable (_ ∨ _))

def validatePortAclItem (i : Nat) (entry : PortAclItem) : Except String Unit := do
  rejectIf (protocolNumber entry.protocol = none)
    s!"port_acl[{i}]: invalid protocol '{entry.protocol}', expected tcp/udp/icmp/icmpv6/any"
  rejectIf (aclActionNumber entry.action = none)
    s!"port_acl[{i}]: invalid action '{entry.action}', expected allow/drop"
  if entry.AnyPort then return
  match splitOnce '-' entry.dport.toList with
  | some (low, high) =>
    let low ← required (parsePort low) s!"port_acl[{i}]: invalid dport low"
    let high ← required (parsePort high) s!"port_acl[{i}]: invalid dport high"
    rejectIf (low > high) s!"port_acl[{i}]: invalid port range {low}-{high}"
  | none =>
    let _ ← required (parsePort entry.dport.toList) s!"port_acl[{i}]: invalid dport"

def validatePortAclItems (items : List PortAclItem) : Except String Unit := do
  rejectIf (items.length > MAX_PORT_ACL) s!"too many port_acl entries (max {MAX_PORT_ACL})"
  all (fun entry => validatePortAclItem entry.2 entry.1) items.zipIdx

/-- The entry of the map. A wildcard port is encoded as 0 in both bounds. -/
def PortAclItem.toEntry (item : PortAclItem) : Except String PortAclEntry := do
  let protocol ← required (protocolNumber item.protocol) s!"invalid protocol: {item.protocol}"
  let action ← required (aclActionNumber item.action) s!"invalid action: {item.action}"
  let (low, high) ← ports
  return {
    protocol := protocol
    dportLow := bswap16 low
    dportHigh := bswap16 high
    action := action }
where
  ports : Except String (UInt16 × UInt16) :=
    if item.AnyPort then return (0, 0)
    else
      match splitOnce '-' item.dport.toList with
      | some (low, high) => do
        let low ← required (parsePort low) "invalid dport low"
        let high ← required (parsePort high) "invalid dport high"
        rejectIf (low > high) "invalid port range"
        return (low, high)
      | none => do
        let p ← required (parsePort item.dport.toList) "invalid dport"
        return (p, p)

/-! ## L7 patterns -/

structure L7PatternConfig where
  pattern : String
  mask : Option String := none
  deriving DecidableEq, Repr

def validateL7Pattern (i : Nat) (pat : L7PatternConfig) : Except String Unit := do
  rejectIf (pat.pattern.utf8ByteSize = 0) s!"L7 pattern {i} cannot be empty"
  rejectIf (pat.pattern.utf8ByteSize > 8) s!"L7 pattern {i} exceeds 8 bytes"
  match pat.mask with
  | some mask =>
    rejectIf (mask.utf8ByteSize ≠ pat.pattern.utf8ByteSize) s!"L7 pattern {i} mask length mismatch"
  | none => return

def validateL7Patterns (patterns : List L7PatternConfig) : Except String Unit := do
  rejectIf (patterns.length > MAX_L7_PATTERNS) s!"too many L7 patterns (max {MAX_L7_PATTERNS})"
  all (fun pat => validateL7Pattern pat.2 pat.1) patterns.zipIdx

/-! ## Protection projects -/

structure ProtectionProject where
  name : String
  description : String := ""
  protocol : String
  dport : String
  targetIps : List String := []
  enabledModules : List String := []
  action : String := "defend"
  deriving DecidableEq, Repr

def projectActionNumber (action : String) : Option UInt8 :=
  let word := lowercase action
  if word = "pass".toList then some project_action.PASS
  else if word = "drop".toList then some project_action.DROP
  else if word = "defend".toList then some project_action.DEFEND
  else none

/-- The flag of a module keyword. -/
def moduleFlag (m : String) : Option UInt16 :=
  if m = "syn_flood" then some project_modules.SYN_FLOOD
  else if m = "udp_flood" then some project_modules.UDP_FLOOD
  else if m = "icmp_flood" then some project_modules.ICMP_FLOOD
  else if m = "rate_limit" then some project_modules.RATE_LIMIT
  else if m = "adaptive" then some project_modules.ADAPTIVE
  else if m = "l7_scan" then some project_modules.L7_SCAN
  else if m = "geoip" then some project_modules.GEOIP
  else if m = "tcp_reset" then some project_modules.TCP_RESET
  else if m = "port_acl" then some project_modules.PORT_ACL
  else if m = "conn_track" then some project_modules.CONN_TRACK
  else none

/-- The target of number `j` is an address or a block of at most 256 of them; the result says whether
it is an IPv4 one. -/
def validateTarget (i j : Nat) (ip : String) : Except String Bool :=
  match parseIp ip with
  | .ok key => return key.ipFamily = some .ipv4
  | .error _ => do
    let (key, prefixLen) ← (parseCidr ip).mapError fun _ =>
      s!"protection_projects[{i}].target_ips[{j}]: invalid IP/CIDR"
    if key.ipFamily = some .ipv4 then
      rejectIf (prefixLen < 24)
        (s!"protection_projects[{i}].target_ips[{j}]: CIDR /{prefixLen} too broad " ++
          "(min /24, expanded to exact IPs)")
      return true
    else return false

def validateProtectionProject (i : Nat) (proj : ProtectionProject) : Except String Unit := do
  rejectIf (proj.name = "") s!"protection_projects[{i}]: name cannot be empty"
  rejectIf (protocolNumber proj.protocol = none)
    (s!"protection_projects[{i}]: invalid protocol '{proj.protocol}', " ++
      "expected tcp/udp/icmp/icmpv6/any")
  rejectIf (proj.dport = "") s!"protection_projects[{i}]: dport cannot be empty"
  rejectIf (proj.dport ≠ "any" ∧ parsePort proj.dport.toList = none)
    s!"protection_projects[{i}]: invalid dport"
  rejectIf (projectActionNumber proj.action = none)
    s!"protection_projects[{i}]: invalid action '{proj.action}', expected pass/drop/defend"
  all (fun m =>
    rejectIf (moduleFlag m.1 = none)
      s!"protection_projects[{i}].enabled_modules[{m.2}]: unknown module '{m.1}'")
    proj.enabledModules.zipIdx
  rejectIf (proj.targetIps = [])
    (s!"protection_projects[{i}]: target_ips cannot be empty " ++
      "(data plane matches exact IPv4 only)")
  let ipv4 ← proj.targetIps.zipIdx.mapM fun ip => validateTarget i ip.2 ip.1
  rejectIf (true ∉ ipv4)
    (s!"protection_projects[{i}]: at least one IPv4 target is required " ++
      "(data plane does not support IPv6 targets yet)")

def validateProtectionProjectsList (projects : List ProtectionProject) : Except String Unit := do
  rejectIf (projects.length > 256) "too many protection projects (max 256)"
  all (fun proj => validateProtectionProject proj.2 proj.1) projects.zipIdx

end EShield.Node
