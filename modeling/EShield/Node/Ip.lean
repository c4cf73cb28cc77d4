import EShield.Lib.Checks
import EShield.Lib.IpFormat
import EShield.Node.Cidr

/-!
# Textual addresses and CIDR blocks

`ip.rs`: the keys that addresses and CIDR blocks in the configuration stand for. An error is the text
of its outermost context.
-/

namespace EShield.Node

open Checks Text IpText

def IpAddr.key : IpAddr → IpKey
  | .v4 octets => .fromIpv4 octets
  | .v6 octets => .fromIpv6 octets

/-- The text of a key. -/
def formatIpKey (key : IpKey) : String :=
  match key.ipFamily with
  | some .ipv4 => String.ofList (formatIpv4 key.ipv4)
  | some .ipv6 => String.ofList (formatIpv6 key.addr)
  | none => s!"unknown(family={key.family})"

def parseIp (s : String) : Except String IpKey := do
  let addr ← required (parseIpAddr s.toList) "invalid IP address"
  return IpAddr.key addr

/-- The network of an IPv4 address: its first `prefixLen` bits. -/
def maskV4 (addr : BitVec 32) (prefixLen : Nat) : BitVec 32 :=
  let mask := if prefixLen = 0 then 0 else BitVec.allOnes 32 <<< (32 - prefixLen)
  addr &&& mask

/-- The network of an IPv6 address. Of the octet that holds the first bit behind the prefix the first
`bit` bits are kept, and all of it when `bit` is 0; the octets behind it are cleared. -/
def maskV6 (addr : BitVec 128) (prefixLen : Nat) : BitVec 128 :=
  if prefixLen = 0 then 0
  else
    let byte := prefixLen / 8
    let bit := prefixLen % 8
    let kept := 8 * byte + (if bit > 0 then bit else 8)
    addr &&& (BitVec.allOnes 128 <<< (128 - kept))

def parseCidr (s : String) : Except String Cidr :=
  match s.toList.splitOn '/' with
  | [network, length] => do
    let addr ← required (parseIpAddr network) "invalid IP address"
    let prefixLen ← required (parseUnsigned 32 length) "invalid prefix length"
    match addr with
    | .v4 addr =>
      rejectIf (prefixLen > 32) s!"invalid IPv4 prefix length: {prefixLen}"
      return (.fromIpv4 (maskV4 addr prefixLen), prefixLen)
    | .v6 addr =>
      rejectIf (prefixLen > 128) s!"invalid IPv6 prefix length: {prefixLen}"
      return (.fromIpv6 (maskV6 addr prefixLen), prefixLen)
  | _ => .error s!"invalid CIDR: {s}"

/-- An address, or a block that holds a single one. -/
def parseIpOrCidr (s : String) : Except String IpKey :=
  match parseIp s with
  | .ok key => .ok key
  | .error _ => do
    let (key, prefixLen) ← parseCidr s
    match key.ipFamily with
    | some family =>
      let expected := match family with | .ipv4 => 32 | .ipv6 => 128
      rejectIf (prefixLen ≠ expected)
        s!"exact host address required; use plain IP or /{expected}"
      return key
    | none => .error "unknown IP family"

/-! ## What the parsers return -/

@[simp] theorem ipFamily_fromIpv4 (octets : BitVec 32) :
    (IpKey.fromIpv4 octets).ipFamily = some .ipv4 := rfl

@[simp] theorem ipFamily_fromIpv6 (addr : BitVec 128) :
    (IpKey.fromIpv6 addr).ipFamily = some .ipv6 := rfl

@[simp] theorem ipv4_fromIpv4 (octets : BitVec 32) : (IpKey.fromIpv4 octets).ipv4 = octets := by
  simp [IpKey.fromIpv4, IpKey.ipv4]

theorem parseIp_of_some {s : String} {addr : IpAddr} (h : parseIpAddr s.toList = some addr) :
    parseIp s = .ok (IpAddr.key addr) := by
  rw [parseIp, h]
  rfl

theorem parseIp_of_none {s : String} (h : parseIpAddr s.toList = none) :
    parseIp s = .error "invalid IP address" := by
  rw [parseIp, h]
  rfl

/-- What a text that is accepted as a block consists of, and the block it stands for. -/
theorem parseCidr_spec {s : String} {c : Cidr} (h : parseCidr s = .ok c) :
    ∃ network length, s.toList.splitOn '/' = [network, length] ∧
      parseUnsigned 32 length = some c.2 ∧
      ((∃ addr, parseIpAddr network = some (.v4 addr) ∧ c.2 ≤ 32 ∧
          c.1 = .fromIpv4 (maskV4 addr c.2)) ∨
        ∃ addr, parseIpAddr network = some (.v6 addr) ∧ c.2 ≤ 128 ∧
          c.1 = .fromIpv6 (maskV6 addr c.2)) := by
  unfold parseCidr at h
  split at h
  · rename_i network length hsplit
    obtain ⟨addr, haddr, h⟩ := bind_eq_ok.1 h
    obtain ⟨prefixLen, hlength, h⟩ := bind_eq_ok.1 h
    rw [required_eq_ok] at haddr hlength
    cases addr with
    | v4 addr =>
      obtain ⟨hle, h⟩ := check_bind_eq_ok.1 h
      cases h
      exact ⟨network, length, hsplit, hlength,
        .inl ⟨addr, haddr, not_lt.1 (rejectIf_eq_ok.1 hle), rfl⟩⟩
    | v6 addr =>
      obtain ⟨hle, h⟩ := check_bind_eq_ok.1 h
      cases h
      exact ⟨network, length, hsplit, hlength,
        .inr ⟨addr, haddr, not_lt.1 (rejectIf_eq_ok.1 hle), rfl⟩⟩
  · cases h

end EShield.Node
