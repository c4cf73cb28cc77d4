import EShield.Common.Pure
import EShield.Lib.Bytes

/-!
# Keys in memory

The bytes of `IpKey` and of the keys of the prefix tries, as a little-endian host lays them out, and
the tries as the kernel sees them: it compares the leading bits of the key bytes.
-/

namespace EShield

open Bytes

/-- `u32::from_be_bytes`. -/
def fromBeBytes (b0 b1 b2 b3 : UInt8) : UInt32 :=
  (b0.toUInt32 <<< 24) ||| (b1.toUInt32 <<< 16) ||| (b2.toUInt32 <<< 8) ||| b3.toUInt32

/-- A `u32` in memory, which is also `u32::to_ne_bytes`. -/
def neBytes (x : UInt32) : Vector UInt8 4 :=
  #v[x.toUInt8, (x >>> 8).toUInt8, (x >>> 16).toUInt8, (x >>> 24).toUInt8]

structure IpKeyBytes where
  family : UInt8
  addr : Vector UInt8 16
  deriving DecidableEq

namespace IpKeyBytes

def fromIpv4 (octets : Vector UInt8 4) : IpKeyBytes :=
  { family := IpFamily.ipv4.toU8
    addr := #v[0, 0, 0, 0, 0, 0, 0, 0, 0, 0, 0, 0, octets[0], octets[1], octets[2], octets[3]] }

def fromIpv6 (addr : Vector UInt8 16) : IpKeyBytes := ⟨IpFamily.ipv6.toU8, addr⟩

def ipFamily (k : IpKeyBytes) : Option IpFamily := IpFamily.fromU8 k.family

def ipv4 (k : IpKeyBytes) : UInt32 := fromBeBytes k.addr[12] k.addr[13] k.addr[14] k.addr[15]

end IpKeyBytes

/-- The key as it stands in memory. -/
def IpKey.bytes (k : IpKey) : IpKeyBytes := ⟨k.family, beBytes 16 k.addr.toNat⟩

/-! ## Prefix tries -/

/-- A key of a prefix trie: the number of its leading bits that count, and the bytes. -/
structure LpmKeyBytes (n : Nat) where
  prefixLen : Nat
  data : Vector UInt8 n
  deriving DecidableEq

namespace LpmKeyBytes

variable {n : Nat}

/-- The prefix `p` covers `k`. -/
def Covers (p k : LpmKeyBytes n) : Prop :=
  p.prefixLen ≤ k.prefixLen ∧ AgreeUpTo p.prefixLen p.data.toList k.data.toList

instance (p k : LpmKeyBytes n) : Decidable (p.Covers k) := inferInstanceAs (Decidable (_ ∧ _))

/-- The same node of the trie. -/
def Same (p q : LpmKeyBytes n) : Prop :=
  p.prefixLen = q.prefixLen ∧ AgreeUpTo p.prefixLen p.data.toList q.data.toList

instance (p q : LpmKeyBytes n) : Decidable (p.Same q) := inferInstanceAs (Decidable (_ ∧ _))

end LpmKeyBytes

/-- The keys of a prefix trie; every value is 1. -/
abbrev LpmBytes (n : Nat) := List (LpmKeyBytes n)

namespace LpmBytes

variable {n : Nat}

def insert (t : LpmBytes n) (k : LpmKeyBytes n) : LpmBytes n := k :: t.filter fun e => ¬ e.Same k

/-- A lookup of `k` finds a value. -/
def contains (t : LpmBytes n) (k : LpmKeyBytes n) : Bool := t.any fun e => e.Covers k

end LpmBytes

/-- The IPv4 and the IPv6 trie of one list. -/
structure CidrBytes where
  v4 : LpmBytes 4 := []
  v6 : LpmBytes 16 := []

namespace CidrBytes

/-- `insert` of the control plane: the address of an IPv4 key is stored through `to_be`. -/
def insert (t : CidrBytes) (key : IpKeyBytes) (prefixLen : Nat) : CidrBytes :=
  match key.ipFamily with
  | some .ipv4 => { t with v4 := t.v4.insert ⟨prefixLen, neBytes (bswap32 key.ipv4)⟩ }
  | some .ipv6 => { t with v6 := t.v6.insert ⟨prefixLen, key.addr⟩ }
  | none => t

/-- The lookup of the data plane. -/
def contains (t : CidrBytes) (src : IpKeyBytes) : Bool :=
  match src.ipFamily with
  | some .ipv4 => t.v4.contains ⟨32, neBytes (bswap32 src.ipv4)⟩
  | some .ipv6 => t.v6.contains ⟨128, src.addr⟩
  | none => false

end CidrBytes

/-! ## What the bytes are -/

theorem toNat_toUInt32_shiftLeft (b : UInt8) {k : Nat} (h : k ≤ 24) :
    (b.toUInt32 <<< UInt32.ofNat k).toNat = 2 ^ k * b.toNat := by
  have hb := b.toNat_lt
  have hk : (UInt32.ofNat k).toNat % 32 = k := by
    rw [UInt32.toNat_ofNat_of_lt' (by show k < 2 ^ 32; omega)]
    omega
  have hlt : b.toNat * 2 ^ k < 2 ^ 32 := by
    have hpow : 2 ^ k ≤ 2 ^ 24 := Nat.pow_le_pow_right (by decide) h
    have hmul := Nat.mul_le_mul_left b.toNat hpow
    omega
  rw [UInt32.toNat_shiftLeft, UInt8.toNat_toUInt32, hk, Nat.shiftLeft_eq, Nat.mod_eq_of_lt hlt,
    Nat.mul_comm]

theorem toNat_fromBeBytes (b0 b1 b2 b3 : UInt8) :
    (fromBeBytes b0 b1 b2 b3).toNat = beValue [b0, b1, b2, b3] := by
  have h0 := b0.toNat_lt
  have h1 := b1.toNat_lt
  have h2 := b2.toNat_lt
  have h3 := b3.toNat_lt
  have e0 : (b0.toUInt32 <<< 24).toNat = 2 ^ 24 * b0.toNat :=
    toNat_toUInt32_shiftLeft b0 (k := 24) (by decide)
  have e1 : (b1.toUInt32 <<< 16).toNat = 2 ^ 16 * b1.toNat :=
    toNat_toUInt32_shiftLeft b1 (k := 16) (by decide)
  have e2 : (b2.toUInt32 <<< 8).toNat = 2 ^ 8 * b2.toNat :=
    toNat_toUInt32_shiftLeft b2 (k := 8) (by decide)
  have s1 : 2 ^ 24 * b0.toNat ||| 2 ^ 16 * b1.toNat = 2 ^ 16 * (256 * b0.toNat + b1.toNat) := by
    rw [← Nat.two_pow_add_eq_or_of_lt (by omega)]
    omega
  have s2 : 2 ^ 16 * (256 * b0.toNat + b1.toNat) ||| 2 ^ 8 * b2.toNat =
      2 ^ 8 * (256 * (256 * b0.toNat + b1.toNat) + b2.toNat) := by
    rw [← Nat.two_pow_add_eq_or_of_lt (by omega)]
    omega
  have s3 : 2 ^ 8 * (256 * (256 * b0.toNat + b1.toNat) + b2.toNat) ||| b3.toNat =
      256 * (256 * (256 * b0.toNat + b1.toNat) + b2.toNat) + b3.toNat := by
    rw [← Nat.two_pow_add_eq_or_of_lt (by omega)]
  rw [fromBeBytes, UInt32.toNat_or, UInt32.toNat_or, UInt32.toNat_or, e0, e1, e2,
    UInt8.toNat_toUInt32, s1, s2, s3]
  simp [beValue]

theorem ofNat_div_eq_shiftRight (x : UInt32) {k : Nat} (h : k < 32) :
    UInt8.ofNat (x.toNat / 2 ^ k) = (x >>> UInt32.ofNat k).toUInt8 := by
  apply UInt8.toNat_inj.1
  have hk : (UInt32.ofNat k).toNat % 32 = k := by
    rw [UInt32.toNat_ofNat_of_lt' (by show k < 2 ^ 32; omega)]
    omega
  rw [UInt32.toNat_toUInt8, UInt32.toNat_shiftRight, hk, Nat.shiftRight_eq_div_pow,
    UInt8.toNat_ofNat']

theorem getLsbD_bswap32 (x : UInt32) {i : Nat} (hi : i < 32) :
    (bswap32 x).toBitVec.getLsbD i = x.toBitVec.getLsbD (i % 8 + 8 * (3 - i / 8)) := by
  simp [bswap32]
  interval_cases i <;> simp

/-- The bytes change their places. -/
theorem toUInt8_bswap32 (x : UInt32) {k : Nat} (hk : k ≤ 3) :
    (bswap32 x >>> UInt32.ofNat (8 * k)).toUInt8 = UInt8.ofNat (x.toNat / 2 ^ (8 * (3 - k))) := by
  have hshift : ∀ n, n < 32 → (UInt32.ofNat n).toNat % (32 : BitVec 32).toNat = n := by
    intro n hn
    rw [UInt32.toNat_ofNat_of_lt' (by show n < 2 ^ 32; omega)]
    exact Nat.mod_eq_of_lt hn
  rw [ofNat_div_eq_shiftRight x (by omega)]
  apply UInt8.eq_of_toBitVec_eq
  apply BitVec.eq_of_getLsbD_eq
  intro i hi
  have hbit := getLsbD_bswap32 x (i := 8 * k + i) (by omega)
  have hplace : (8 * k + i) % 8 + 8 * (3 - (8 * k + i) / 8) = 8 * (3 - k) + i := by omega
  rw [hplace] at hbit
  simp only [UInt32.toBitVec_toUInt8, UInt32.toBitVec_shiftRight, BitVec.getLsbD_setWidth,
    BitVec.getLsbD_ushiftRight, BitVec.ushiftRight_eq', BitVec.toNat_umod, UInt32.toNat_toBitVec]
  rw [hshift _ (by omega), hshift _ (by omega), hbit]

/-- `to_be` and the memory order of the host together give the network order. -/
theorem neBytes_bswap32 (x : UInt32) : neBytes (bswap32 x) = beBytes 4 x.toNat := by
  have hbyte : ∀ k ≤ 3, (bswap32 x >>> UInt32.ofNat (8 * k)).toUInt8 =
      UInt8.ofNat (x.toNat / 256 ^ (3 - k)) := by
    intro k hk
    have hpow : (256 : Nat) ^ (3 - k) = 2 ^ (8 * (3 - k)) := (pow_mul 2 8 _).symm
    rw [toUInt8_bswap32 x hk, hpow]
  generalize bswap32 x = y at hbyte ⊢
  have h0 : y.toUInt8 = UInt8.ofNat (x.toNat / 256 ^ 3) := by
    have hfirst := hbyte 0 (by decide)
    simpa using hfirst
  have h1 : (y >>> 8).toUInt8 = UInt8.ofNat (x.toNat / 256 ^ 2) := hbyte 1 (by decide)
  have h2 : (y >>> 16).toUInt8 = UInt8.ofNat (x.toNat / 256 ^ 1) := hbyte 2 (by decide)
  have h3 : (y >>> 24).toUInt8 = UInt8.ofNat (x.toNat / 256 ^ 0) := hbyte 3 (by decide)
  apply Vector.toList_inj.1
  rw [toList_beBytes_succ, toList_beBytes_succ, toList_beBytes_succ, toList_beBytes_succ]
  simp only [neBytes, h0, h1, h2, h3]
  rfl

theorem beValue_neBytes_bswap32 (x : UInt32) : beValue (neBytes (bswap32 x)).toList = x.toNat := by
  rw [neBytes_bswap32, beValue_beBytes]
  exact Nat.mod_eq_of_lt x.toNat_lt

namespace IpKey

@[simp] theorem ipFamily_bytes (k : IpKey) : k.bytes.ipFamily = k.ipFamily := rfl

/-- `ipv4()` on the bytes is the address of the key. -/
theorem toNat_ipv4_bytes (k : IpKey) : k.bytes.ipv4.toNat = k.ipv4.toNat := by
  have hbytes : k.bytes.ipv4.toNat = beValue (beBytes 4 k.addr.toNat).toList := by
    rw [IpKeyBytes.ipv4, toNat_fromBeBytes]
    simp only [bytes, getElem_beBytes, toList_beBytes_succ]
    rfl
  rw [hbytes, beValue_beBytes, ipv4, BitVec.toNat_setWidth]
  rfl

/-- `from_ipv4` puts the octets where the key has them. -/
theorem bytes_fromIpv4 (octets : BitVec 32) :
    (fromIpv4 octets).bytes = .fromIpv4 (beBytes 4 octets.toNat) := by
  rw [bytes, IpKeyBytes.fromIpv4]
  congr 1
  apply Vector.toList_inj.1
  refine (beValue_inj (by simp)).1 ?_
  have hwidth : (octets.setWidth 128).toNat = octets.toNat := by
    rw [BitVec.toNat_setWidth]
    exact Nat.mod_eq_of_lt (lt_of_lt_of_le octets.isLt (by decide))
  have hlist : beValue (beBytes 4 octets.toNat).toList = octets.toNat := by
    rw [beValue_beBytes]
    exact Nat.mod_eq_of_lt octets.isLt
  show beValue (beBytes 16 (octets.setWidth 128).toNat).toList = _
  rw [hwidth, beValue_beBytes, Nat.mod_eq_of_lt (lt_of_lt_of_le octets.isLt (by decide))]
  simp only [toList_beBytes_succ] at hlist
  simp only [getElem_beBytes]
  refine hlist.symm.trans ?_
  simp [beValue]

theorem bytes_fromIpv6 (addr : BitVec 128) :
    (fromIpv6 addr).bytes = .fromIpv6 (beBytes 16 addr.toNat) := rfl

end IpKey

end EShield
