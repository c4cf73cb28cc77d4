import EShield.Node.Ip

/-!
# Addresses that are shown

An operator sees addresses and blocks as text and sends the text back. What is shown for a key is read
as that key again.
-/

namespace EShield.Node

open Checks Text IpText

/-- The text of a block, as the lists of the API show it. -/
def cidrText (c : Cidr) : String := s!"{formatIpKey c.1}/{c.2}"

/-- The key stands for an address, and holds nothing else. -/
def IsAddress (key : IpKey) : Prop := key = .fromIpv4 key.ipv4 ∨ key = .fromIpv6 key.addr

theorem isAddress_fromIpv4 (octets : BitVec 32) : IsAddress (.fromIpv4 octets) :=
  .inl (by rw [ipv4_fromIpv4])

theorem isAddress_fromIpv6 (addr : BitVec 128) : IsAddress (.fromIpv6 addr) := .inr rfl

theorem formatIpKey_fromIpv4 (octets : BitVec 32) :
    formatIpKey (.fromIpv4 octets) = String.ofList (formatIpv4 octets) := by
  simp [formatIpKey]

theorem formatIpKey_fromIpv6 (addr : BitVec 128) :
    formatIpKey (.fromIpv6 addr) = String.ofList (formatIpv6 addr) := rfl

/-- The key of an address is shown as the address is. -/
theorem formatIpKey_key (addr : IpAddr) :
    formatIpKey (IpAddr.key addr) = String.ofList (formatIpAddr addr) := by
  cases addr with
  | v4 octets => exact formatIpKey_fromIpv4 octets
  | v6 addr => exact formatIpKey_fromIpv6 addr

theorem parseIp_formatIpKey_key (addr : IpAddr) :
    parseIp (formatIpKey (IpAddr.key addr)) = .ok (IpAddr.key addr) := by
  rw [formatIpKey_key]
  exact parseIp_of_some (by rw [String.toList_ofList, parseIpAddr_format])

theorem isAddress_iff (key : IpKey) : IsAddress key ↔ ∃ addr, key = IpAddr.key addr := by
  constructor
  · rintro (h | h)
    · exact ⟨.v4 key.ipv4, h⟩
    · exact ⟨.v6 key.addr, h⟩
  · rintro ⟨octets | addr, rfl⟩
    · exact isAddress_fromIpv4 octets
    · exact isAddress_fromIpv6 addr

/-- What the parser returns is the key of an address. -/
theorem isAddress_of_parseIp {s : String} {key : IpKey} (h : parseIp s = .ok key) : IsAddress key := by
  cases haddr : parseIpAddr s.toList with
  | none =>
    rw [parseIp_of_none haddr] at h
    cases h
  | some addr =>
    rw [parseIp_of_some haddr] at h
    cases h
    exact (isAddress_iff _).2 ⟨addr, rfl⟩

/-- A key is read back from its text exactly if it stands for an address. -/
theorem parseIp_formatIpKey_iff (key : IpKey) :
    parseIp (formatIpKey key) = .ok key ↔ IsAddress key := by
  refine ⟨isAddress_of_parseIp, fun h => ?_⟩
  obtain ⟨addr, rfl⟩ := (isAddress_iff key).1 h
  exact parseIp_formatIpKey_key addr

/-- Two addresses are not shown alike. -/
theorem formatIpKey_injective {key key' : IpKey} (h : IsAddress key) (h' : IsAddress key')
    (heq : formatIpKey key = formatIpKey key') : key = key' := by
  have hread := (parseIp_formatIpKey_iff key).2 h
  rw [heq, (parseIp_formatIpKey_iff key').2 h'] at hread
  exact (Except.ok.inj hread).symm

/-! ## Blocks -/

theorem parseUnsigned_toDigits {bits n : Nat} (hn : n < 2 ^ bits) :
    parseUnsigned bits (Nat.toDigits 10 n) = some n := by
  have hplus : ∀ rest, Nat.toDigits 10 n ≠ '+' :: rest := by
    intro rest heq
    have hdigit := isDigit_of_mem_toDigits isRadix_ten (c := '+') (by rw [heq]; exact List.mem_cons_self)
    exact absurd hdigit (by decide)
  unfold parseUnsigned
  split
  · rename_i rest heq
    exact absurd heq (hplus rest)
  · simp [digitsVal_toDigits isRadix_ten, hn]

/-- The text of a block falls apart into those of its key and of its length. -/
theorem splitOn_cidrText (addr : IpAddr) (n : Nat) :
    (cidrText (IpAddr.key addr, n)).toList.splitOn '/' = [formatIpAddr addr, Nat.toDigits 10 n] := by
  have haddr : '/' ∉ formatIpAddr addr := by
    intro h
    rcases isAddressChar_format h with h | h | h
    · exact absurd h (by decide)
    · exact absurd h (by decide)
    · exact absurd h (by decide)
  have hlength : '/' ∉ Nat.toDigits 10 n := by
    intro h
    exact absurd (isDigit_of_mem_toDigits isRadix_ten h) (by decide)
  have htext : (cidrText (IpAddr.key addr, n)).toList = formatIpAddr addr ++ '/' :: Nat.toDigits 10 n := by
    simp [cidrText, formatIpKey_key, toString]
  rw [htext, List.splitOn_append_cons_self_of_not_mem haddr, List.splitOn_eq_singleton hlength]

theorem maskV4_maskV4 (addr : BitVec 32) (n : Nat) : maskV4 (maskV4 addr n) n = maskV4 addr n := by
  simp only [maskV4, BitVec.and_assoc, BitVec.and_self]

theorem maskV6_maskV6 (addr : BitVec 128) (n : Nat) : maskV6 (maskV6 addr n) n = maskV6 addr n := by
  unfold maskV6
  split
  · rfl
  · simp only [BitVec.and_assoc, BitVec.and_self]

/-- The text of an IPv4 block whose address is masked already. -/
theorem parseCidr_textV4 {addr : BitVec 32} {n : Nat} (hn : n ≤ 32) (hmask : maskV4 addr n = addr) :
    parseCidr (cidrText (.fromIpv4 addr, n)) = .ok (.fromIpv4 addr, n) := by
  have hsplit := splitOn_cidrText (.v4 addr) n
  unfold parseCidr
  rw [show IpKey.fromIpv4 addr = IpAddr.key (.v4 addr) from rfl, hsplit]
  dsimp only
  rw [parseIpAddr_format, parseUnsigned_toDigits (by omega)]
  change (do
    rejectIf (n > 32) s!"invalid IPv4 prefix length: {n}"
    return (IpKey.fromIpv4 (maskV4 addr n), n)) = _
  rw [rejectIf, if_neg (not_lt.2 hn), hmask]
  rfl

theorem parseCidr_textV6 {addr : BitVec 128} {n : Nat} (hn : n ≤ 128) (hmask : maskV6 addr n = addr) :
    parseCidr (cidrText (.fromIpv6 addr, n)) = .ok (.fromIpv6 addr, n) := by
  have hsplit := splitOn_cidrText (.v6 addr) n
  unfold parseCidr
  rw [show IpKey.fromIpv6 addr = IpAddr.key (.v6 addr) from rfl, hsplit]
  dsimp only
  rw [parseIpAddr_format, parseUnsigned_toDigits (by omega)]
  change (do
    rejectIf (n > 128) s!"invalid IPv6 prefix length: {n}"
    return (IpKey.fromIpv6 (maskV6 addr n), n)) = _
  rw [rejectIf, if_neg (not_lt.2 hn), hmask]
  rfl

/-- The text of a block that the parser has returned is parsed to that block. -/
theorem parseCidr_cidrText {s : String} {c : Cidr} (h : parseCidr s = .ok c) :
    parseCidr (cidrText c) = .ok c := by
  obtain ⟨network, length, -, -, hkind⟩ := parseCidr_spec h
  obtain ⟨key, n⟩ := c
  dsimp only at hkind
  rcases hkind with ⟨addr, -, hle, rfl⟩ | ⟨addr, -, hle, rfl⟩
  · exact parseCidr_textV4 hle (maskV4_maskV4 addr n)
  · exact parseCidr_textV6 hle (maskV6_maskV6 addr n)

/-- A host that is given as a block is a key of an address. -/
theorem isAddress_of_parseIpOrCidr {s : String} {key : IpKey} (h : parseIpOrCidr s = .ok key) :
    IsAddress key := by
  unfold parseIpOrCidr at h
  split at h
  · rename_i k hparse
    cases h
    exact isAddress_of_parseIp hparse
  · obtain ⟨c, hcidr, h⟩ := bind_eq_ok.1 h
    obtain ⟨network, length, -, -, hkind⟩ := parseCidr_spec hcidr
    obtain ⟨k, n⟩ := c
    dsimp only at h hkind
    split at h
    · obtain ⟨-, h⟩ := check_bind_eq_ok.1 h
      cases h
      rcases hkind with ⟨addr, -, -, rfl⟩ | ⟨addr, -, -, rfl⟩
      · exact isAddress_fromIpv4 _
      · exact isAddress_fromIpv6 _
    · cases h

/-- Whatever text a key or a block was given by, the text that it is shown by is read as the same key
or block; of two keys that were read, no two are shown alike. -/
theorem shown_addresses_read_back :
    (∀ s key, parseIpOrCidr s = .ok key →
        parseIp (formatIpKey key) = .ok key ∧ parseIpOrCidr (formatIpKey key) = .ok key) ∧
      (∀ s c, parseCidr s = .ok c → parseCidr (cidrText c) = .ok c) ∧
      ∀ s s' key key', parseIpOrCidr s = .ok key → parseIpOrCidr s' = .ok key' →
        formatIpKey key = formatIpKey key' → key = key' := by
  refine ⟨fun s key h => ?_, fun s c h => parseCidr_cidrText h, fun s s' key key' h h' heq => ?_⟩
  · have hread := (parseIp_formatIpKey_iff key).2 (isAddress_of_parseIpOrCidr h)
    exact ⟨hread, by rw [parseIpOrCidr, hread]⟩
  · exact formatIpKey_injective (isAddress_of_parseIpOrCidr h) (isAddress_of_parseIpOrCidr h') heq

end EShield.Node
