import EShield.Common.KeyBytes
import EShield.Ebpf.Proofs.ParserProofs
import EShield.Ebpf.Proofs.PipelineProofs
import EShield.Node.Proofs.GeoipProofs
import EShield.Node.Reload

/-!
# Prefixes from text to packet

A CIDR block is stored through `to_be` and the memory of a `u32`, and looked up by the bytes of the
packet; both give the network order, so the kernel compares leading bits of addresses. The tries of
the model are those of the memory, and a lookup is the numerical test of the blocks.
-/

namespace EShield.Node

open Bytes Checks Ebpf IpText Text

/-! ## Tries in memory -/

/-- The key in memory stands for the prefix: as long, and its bytes are the address. -/
def Stores {w n : Nat} (p : LpmKey w) (b : LpmKeyBytes n) : Prop :=
  b.prefixLen = p.prefixLen ∧ beValue b.data.toList = p.data.toNat

section Stores

variable {n : Nat} {p q : LpmKey (8 * n)} {b c : LpmKeyBytes n}

theorem agreeUpTo_iff_of_stores (hp : Stores p b) (hq : Stores q c) :
    AgreeUpTo b.prefixLen b.data.toList c.data.toList ↔
      p.data.toNat / 2 ^ (8 * n - p.prefixLen) = q.data.toNat / 2 ^ (8 * n - p.prefixLen) := by
  rw [agreeUpTo_iff (by simp), hp.2, hq.2, Vector.length_toList, hp.1]

theorem Stores.covers_iff (hp : Stores p b) (hq : Stores q c) : b.Covers c ↔ p.Covers q := by
  rw [LpmKeyBytes.Covers, agreeUpTo_iff_of_stores hp hq, hp.1, hq.1, LpmKey.covers_iff_toNat]

theorem Stores.same_iff (hp : Stores p b) (hq : Stores q c) : b.Same c ↔ p.Same q := by
  rw [LpmKeyBytes.Same, agreeUpTo_iff_of_stores hp hq, hp.1, hq.1, LpmKey.same_iff_toNat]

end Stores

/-- The memory of an IPv4 prefix. -/
def memoryV4 (p : LpmKey 32) : LpmKeyBytes 4 := ⟨p.prefixLen, beBytes 4 p.data.toNat⟩

def memoryV6 (p : LpmKey 128) : LpmKeyBytes 16 := ⟨p.prefixLen, beBytes 16 p.data.toNat⟩

theorem stores_memoryV4 (p : LpmKey 32) : Stores (w := 8 * 4) p (memoryV4 p) :=
  ⟨rfl, (beValue_beBytes 4 _).trans (Nat.mod_eq_of_lt p.data.isLt)⟩

theorem stores_memoryV6 (p : LpmKey 128) : Stores (w := 8 * 16) p (memoryV6 p) :=
  ⟨rfl, (beValue_beBytes 16 _).trans (Nat.mod_eq_of_lt p.data.isLt)⟩

/-- The tries as they stand in memory. -/
def CidrTries.memory (t : CidrTries) : CidrBytes :=
  { v4 := t.v4.map fun e => memoryV4 e.1
    v6 := t.v6.map fun e => memoryV6 e.1 }

/-- What `to_be` makes of the address of a key. -/
theorem memoryV4_keyV4 (c : Cidr) :
    memoryV4 c.keyV4 = ⟨c.2, neBytes (bswap32 c.1.bytes.ipv4)⟩ := by
  rw [neBytes_bswap32, IpKey.toNat_ipv4_bytes]
  rfl

section Memory

variable {w n : Nat} (mem : LpmKey w → LpmKeyBytes n)

theorem map_insert (hsame : ∀ p q, (mem p).Same (mem q) ↔ p.Same q) (t : LpmTrie w UInt8)
    (k : LpmKey w) (v : UInt8) :
    ((t.insert k v).map fun e => mem e.1) = LpmBytes.insert (t.map fun e => mem e.1) (mem k) := by
  rw [LpmTrie.insert, LpmBytes.insert, List.map_cons, LpmTrie.remove, List.filter_map]
  congr 2
  refine List.filter_congr fun e _ => ?_
  simp only [Function.comp, hsame]

theorem any_map_covers (hcovers : ∀ p q, (mem p).Covers (mem q) ↔ p.Covers q)
    (t : LpmTrie w UInt8) (k : LpmKey w) :
    LpmBytes.contains (t.map fun e => mem e.1) (mem k) = (t.get k).isSome := by
  rw [Bool.eq_iff_iff, LpmTrie.get_isSome_iff, LpmBytes.contains, List.any_map, List.any_eq_true]
  simp only [Function.comp, decide_eq_true_eq, hcovers]

end Memory

namespace CidrTries

/-- The insertion of the control plane, in memory. -/
theorem memory_insert (t : CidrTries) (c : Cidr) :
    (t.insert c).memory = t.memory.insert c.1.bytes c.2 := by
  unfold insert CidrBytes.insert
  rw [IpKey.ipFamily_bytes]
  cases hfamily : c.1.ipFamily with
  | none => rfl
  | some family =>
    cases family with
    | ipv4 =>
      have hmap := map_insert memoryV4
        (fun p q => (stores_memoryV4 p).same_iff (stores_memoryV4 q)) t.v4 c.keyV4 1
      rw [memoryV4_keyV4] at hmap
      simp only [memory, hmap]
    | ipv6 =>
      have hmap := map_insert memoryV6
        (fun p q => (stores_memoryV6 p).same_iff (stores_memoryV6 q)) t.v6 c.keyV6 1
      simp only [memory, hmap]
      rfl

/-- The lookup of the data plane, in memory. -/
theorem contains_memory (t : CidrTries) (src : IpKey) :
    t.memory.contains src.bytes = lpmContains t.v4 t.v6 src := by
  unfold CidrBytes.contains lpmContains
  rw [IpKey.ipFamily_bytes]
  cases hfamily : src.ipFamily with
  | none => rfl
  | some family =>
    cases family with
    | ipv4 =>
      have hany := any_map_covers memoryV4
        (fun p q => (stores_memoryV4 p).covers_iff (stores_memoryV4 q)) t.v4 ⟨32, src.ipv4⟩
      have hkey := memoryV4_keyV4 (src, 32)
      rw [Cidr.keyV4] at hkey
      rw [hkey] at hany
      exact hany
    | ipv6 =>
      exact any_map_covers memoryV6
        (fun p q => (stores_memoryV6 p).covers_iff (stores_memoryV6 q)) t.v6 ⟨128, src.addr⟩

theorem memory_foldl_insert (cs : List Cidr) (t : CidrTries) :
    (cs.foldl insert t).memory = cs.foldl (fun b c => b.insert c.1.bytes c.2) t.memory := by
  induction cs generalizing t with
  | nil => rfl
  | cons c cs ih => rw [List.foldl_cons, List.foldl_cons, ih, memory_insert]

end CidrTries

/-! ## Blocks as ranges of numbers -/

/-- The address agrees with the network on the first `prefixLen` bits, as numbers. -/
def NetworkHas {w : Nat} (network : BitVec w) (prefixLen : Nat) (addr : BitVec w) : Prop :=
  network.toNat / 2 ^ (w - prefixLen) = addr.toNat / 2 ^ (w - prefixLen)

/-- The block is of the family of the address and contains it. -/
def Cidr.Has (c : Cidr) : IpAddr → Prop
  | .v4 addr => c.1.ipFamily = some .ipv4 ∧ c.2 ≤ 32 ∧ NetworkHas c.1.ipv4 c.2 addr
  | .v6 addr => c.1.ipFamily = some .ipv6 ∧ c.2 ≤ 128 ∧ NetworkHas c.1.addr c.2 addr

/-- The text names a network of the family of the address that contains it. -/
def CidrTextHas (s : String) (addr : IpAddr) : Prop :=
  ∃ network length prefixLen, s.toList.splitOn '/' = [network, length] ∧
    parseUnsigned 32 length = some prefixLen ∧
    ((∃ net a, parseIpAddr network = some (.v4 net) ∧ addr = .v4 a ∧ prefixLen ≤ 32 ∧
        NetworkHas net prefixLen a) ∨
      ∃ net a, parseIpAddr network = some (.v6 net) ∧ addr = .v6 a ∧ prefixLen ≤ 128 ∧
        NetworkHas net prefixLen a)

theorem networkHas_iff {w : Nat} {network addr : BitVec w} {prefixLen : Nat} :
    NetworkHas network prefixLen addr ↔
      network >>> (w - prefixLen) = addr >>> (w - prefixLen) := by
  rw [NetworkHas, ← BitVec.toNat_inj, BitVec.toNat_ushiftRight, BitVec.toNat_ushiftRight,
    Nat.shiftRight_eq_div_pow, Nat.shiftRight_eq_div_pow]

/-- Clearing bits behind the prefix does not change what the network contains. -/
theorem networkHas_mask {w : Nat} (network addr : BitVec w) {prefixLen n : Nat}
    (h : n ≤ w - prefixLen) :
    NetworkHas (network &&& (BitVec.allOnes w <<< n)) prefixLen addr ↔
      NetworkHas network prefixLen addr := by
  have hmask : (network &&& (BitVec.allOnes w <<< n)) >>> (w - prefixLen) =
      network >>> (w - prefixLen) := by
    apply BitVec.eq_of_getLsbD_eq
    intro i hi
    simp only [BitVec.getLsbD_ushiftRight, BitVec.getLsbD_and, BitVec.getLsbD_shiftLeft,
      BitVec.getLsbD_allOnes]
    by_cases hw : w - prefixLen + i < w
    · have hn : ¬ w - prefixLen + i < n := by omega
      have hone : w - prefixLen + i - n < w := by omega
      simp [hw, hn, hone]
    · rw [BitVec.getLsbD_of_ge _ _ (by omega), Bool.false_and]
  rw [networkHas_iff, networkHas_iff, hmask]

theorem networkHas_zero {w : Nat} (network addr : BitVec w) : NetworkHas network 0 addr := by
  rw [NetworkHas, Nat.sub_zero, Nat.div_eq_of_lt network.isLt, Nat.div_eq_of_lt addr.isLt]

theorem networkHas_maskV4 (network addr : BitVec 32) (prefixLen : Nat) :
    NetworkHas (maskV4 network prefixLen) prefixLen addr ↔ NetworkHas network prefixLen addr := by
  by_cases hzero : prefixLen = 0
  · subst hzero
    exact iff_of_true (networkHas_zero _ _) (networkHas_zero _ _)
  · rw [maskV4, if_neg hzero]
    exact networkHas_mask network addr le_rfl

theorem networkHas_maskV6 (network addr : BitVec 128) (prefixLen : Nat) :
    NetworkHas (maskV6 network prefixLen) prefixLen addr ↔ NetworkHas network prefixLen addr := by
  by_cases hzero : prefixLen = 0
  · subst hzero
    exact iff_of_true (networkHas_zero _ _) (networkHas_zero _ _)
  · rw [maskV6, if_neg hzero]
    refine networkHas_mask network addr ?_
    -- At a multiple of eight a whole octet behind the prefix is kept.
    split
    · omega
    · omega

/-- An accepted text contains what its block contains. -/
theorem cidrTextHas_iff {s : String} {c : Cidr} (h : parseCidr s = .ok c) (addr : IpAddr) :
    CidrTextHas s addr ↔ c.Has addr := by
  obtain ⟨network, length, hsplit, hlength, hnet⟩ := parseCidr_spec h
  have hparts : ∀ network' length', s.toList.splitOn '/' = [network', length'] →
      network' = network ∧ length' = length := by
    intro network' length' hsplit'
    rw [hsplit] at hsplit'
    simp only [List.cons.injEq, and_true] at hsplit'
    exact ⟨hsplit'.1.symm, hsplit'.2.symm⟩
  rcases hnet with ⟨net, hnet, hle, hkey⟩ | ⟨net, hnet, hle, hkey⟩
  · constructor
    · rintro ⟨network', length', prefixLen, hsplit', hlength', hhas⟩
      obtain ⟨rfl, rfl⟩ := hparts network' length' hsplit'
      obtain rfl : c.2 = prefixLen := Option.some.inj (hlength.symm.trans hlength')
      rcases hhas with ⟨net', a, hnet', rfl, -, hhas⟩ | ⟨net', a, hnet', rfl, -, hhas⟩
      · rw [hnet] at hnet'
        cases hnet'
        refine ⟨by rw [hkey]; rfl, hle, ?_⟩
        rw [hkey, ipv4_fromIpv4, networkHas_maskV4]
        exact hhas
      · rw [hnet] at hnet'
        cases hnet'
    · cases addr with
      | v4 a =>
        rintro ⟨-, -, hhas⟩
        rw [hkey, ipv4_fromIpv4, networkHas_maskV4] at hhas
        exact ⟨network, length, c.2, hsplit, hlength, .inl ⟨net, a, hnet, rfl, hle, hhas⟩⟩
      | v6 a =>
        rintro ⟨hfamily, -⟩
        rw [hkey, ipFamily_fromIpv4] at hfamily
        cases hfamily
  · constructor
    · rintro ⟨network', length', prefixLen, hsplit', hlength', hhas⟩
      obtain ⟨rfl, rfl⟩ := hparts network' length' hsplit'
      obtain rfl : c.2 = prefixLen := Option.some.inj (hlength.symm.trans hlength')
      rcases hhas with ⟨net', a, hnet', rfl, -, hhas⟩ | ⟨net', a, hnet', rfl, -, hhas⟩
      · rw [hnet] at hnet'
        cases hnet'
      · rw [hnet] at hnet'
        cases hnet'
        refine ⟨by rw [hkey]; rfl, hle, ?_⟩
        rw [hkey]
        exact (networkHas_maskV6 _ _ _).2 hhas
    · cases addr with
      | v4 a =>
        rintro ⟨hfamily, -⟩
        rw [hkey, ipFamily_fromIpv6] at hfamily
        cases hfamily
      | v6 a =>
        rintro ⟨-, -, hhas⟩
        rw [hkey] at hhas
        have hhas := (networkHas_maskV6 _ _ _).1 hhas
        exact ⟨network, length, c.2, hsplit, hlength, .inr ⟨net, a, hnet, rfl, hle, hhas⟩⟩

theorem covers_full_iff {w : Nat} (p : LpmKey w) (addr : BitVec w) :
    p.Covers ⟨w, addr⟩ ↔ p.prefixLen ≤ w ∧ NetworkHas p.data p.prefixLen addr :=
  LpmKey.covers_iff_toNat p _

/-- A lookup in tries that hold the blocks `cs` is the test of the blocks. -/
theorem lpmContains_iff {t : CidrTries} {cs : List Cidr} (h : HoldsExactly t cs) (addr : IpAddr) :
    lpmContains t.v4 t.v6 (IpAddr.key addr) = true ↔ ∃ c ∈ cs, c.Has addr := by
  cases addr with
  | v4 a =>
    show (t.v4.get ⟨32, (IpKey.fromIpv4 a).ipv4⟩).isSome = true ↔ _
    rw [ipv4_fromIpv4, LpmTrie.get_isSome_iff_holds]
    constructor
    · rintro ⟨p, hp, hcovers⟩
      have hkey : Cidr.keyV4 (.fromIpv4 p.data, p.prefixLen) = p := by
        rw [Cidr.keyV4, ipv4_fromIpv4]
      have hholds : t.Holds (.fromIpv4 p.data, p.prefixLen) := by
        show t.v4.Holds _
        rw [hkey]
        exact hp
      obtain ⟨c, hc, hsame⟩ := (h _).1 hholds
      unfold Cidr.Same at hsame
      cases hfamily : c.1.ipFamily with
      | none => simp [hfamily] at hsame
      | some family =>
        cases family with
        | ipv4 =>
          simp only [hfamily, ipFamily_fromIpv4, hkey] at hsame
          have hboth := (covers_full_iff _ _).1 ((hsame.covers_iff _).2 hcovers)
          exact ⟨c, hc, hfamily, hboth⟩
        | ipv6 => simp [hfamily] at hsame
    · rintro ⟨c, hc, hfamily, hboth⟩
      have hholds := (h c).2 ⟨c, hc, Cidr.Same.refl (by rw [hfamily]; decide)⟩
      unfold CidrTries.Holds at hholds
      rw [hfamily] at hholds
      exact ⟨c.keyV4, hholds, (covers_full_iff _ _).2 hboth⟩
  | v6 a =>
    show (t.v6.get ⟨128, a⟩).isSome = true ↔ _
    rw [LpmTrie.get_isSome_iff_holds]
    constructor
    · rintro ⟨p, hp, hcovers⟩
      have hholds : t.Holds (.fromIpv6 p.data, p.prefixLen) := hp
      obtain ⟨c, hc, hsame⟩ := (h _).1 hholds
      unfold Cidr.Same at hsame
      cases hfamily : c.1.ipFamily with
      | none => simp [hfamily] at hsame
      | some family =>
        cases family with
        | ipv4 => simp [hfamily] at hsame
        | ipv6 =>
          simp only [hfamily, ipFamily_fromIpv6] at hsame
          have hboth := (covers_full_iff _ _).1 ((hsame.covers_iff _).2 hcovers)
          exact ⟨c, hc, hfamily, hboth⟩
    · rintro ⟨c, hc, hfamily, hboth⟩
      have hholds := (h c).2 ⟨c, hc, Cidr.Same.refl (by rw [hfamily]; decide)⟩
      unfold CidrTries.Holds at hholds
      rw [hfamily] at hholds
      exact ⟨c.keyV6, hholds, (covers_full_iff _ _).2 hboth⟩

/-! ## Packets -/

/-- The source in an IPv4 header, its bytes in network order. -/
def ipv4Source (ctx : XdpContext) : BitVec 32 :=
  BitVec.ofNat 32 (beValue ((List.range 4).map fun i => ctx.mem (ETH_HDR_LEN + 12 + i)))

def ipv6Source (ctx : XdpContext) : BitVec 128 :=
  BitVec.ofNat 128 (beValue ((List.range 16).map fun i => ctx.mem (ETH_HDR_LEN + 8 + i)))

/-- `pc` is what a parser makes of a frame whose header has the source `addr`. -/
inductive ParsedFrom (ctx : XdpContext) (pc : PacketCtx) : IpAddr → Prop where
  | v4 (h : parseIpv4 ctx = some pc) : ParsedFrom ctx pc (.v4 (ipv4Source ctx))
  | v6 (h : parseIpv6 ctx = some pc) : ParsedFrom ctx pc (.v6 (ipv6Source ctx))

/-- The memory of a loaded word is what was loaded. -/
theorem neBytes_u32 (ctx : XdpContext) (p : Nat) :
    (neBytes (ctx.u32 p)).toList = (List.range 4).map fun i => ctx.mem (p + i) := by
  have hword := XdpContext.toNat_u32 ctx p
  rw [XdpContext.toNat_u16, XdpContext.toNat_u16] at hword
  have h0 := (ctx.mem p).toNat_lt
  have h1 := (ctx.mem (p + 1)).toNat_lt
  have h2 := (ctx.mem (p + 2)).toNat_lt
  have h3 := (ctx.mem (p + 2 + 1)).toNat_lt
  have hbyte : ∀ (k : Nat) (b : UInt8), k < 32 → (ctx.u32 p).toNat / 2 ^ k % 256 = b.toNat →
      (ctx.u32 p >>> UInt32.ofNat k).toUInt8 = b := by
    intro k b hk hb
    rw [← ofNat_div_eq_shiftRight _ hk]
    apply UInt8.toNat_inj.1
    rw [UInt8.toNat_ofNat']
    exact hb
  have e0 : (ctx.u32 p).toUInt8 = ctx.mem p := by
    have hfirst := hbyte 0 (ctx.mem p) (by decide) (by omega)
    simpa using hfirst
  have e1 : (ctx.u32 p >>> 8).toUInt8 = ctx.mem (p + 1) := hbyte 8 _ (by decide) (by omega)
  have e2 : (ctx.u32 p >>> 16).toUInt8 = ctx.mem (p + 2) := hbyte 16 _ (by decide) (by omega)
  have e3 : (ctx.u32 p >>> 24).toUInt8 = ctx.mem (p + 2 + 1) := hbyte 24 _ (by decide) (by omega)
  simp only [neBytes, e0, e1, e2, e3]
  rfl

/-- A native load and `to_ne_bytes` give the bytes back in the order of the packet. -/
theorem toNeBytes_u32 (ctx : XdpContext) (p : Nat) :
    toNeBytes (ctx.u32 p) =
      BitVec.ofNat 32 (beValue ((List.range 4).map fun i => ctx.mem (p + i))) := by
  have hvalue := beValue_neBytes_bswap32 (bswap32 (ctx.u32 p))
  rw [bswap32_bswap32, neBytes_u32] at hvalue
  rw [hvalue, toNeBytes]
  exact (BitVec.ofNat_toNat 32 (bswap32 (ctx.u32 p)).toBitVec).symm

theorem shiftLeft_or_byte (n : Nat) (b : UInt8) :
    (BitVec.ofNat 128 n <<< 8) ||| b.toBitVec.setWidth 128 =
      BitVec.ofNat 128 (256 * n + b.toNat) := by
  apply BitVec.eq_of_toNat_eq
  have hb := b.toNat_lt
  have hshift : n % 2 ^ 128 * 2 ^ 8 % 2 ^ 128 = 2 ^ 8 * (n % 2 ^ 120) := by omega
  have hbyte : b.toBitVec.toNat % 2 ^ 128 = b.toNat := Nat.mod_eq_of_lt (by
    show b.toNat < 2 ^ 128
    omega)
  rw [BitVec.toNat_or, BitVec.toNat_shiftLeft, BitVec.toNat_ofNat, BitVec.toNat_setWidth,
    BitVec.toNat_ofNat, Nat.shiftLeft_eq, hshift, hbyte, ← Nat.two_pow_add_eq_or_of_lt hb]
  omega

theorem foldl_addr (bytes : List UInt8) :
    bytes.foldl (fun (acc : BitVec 128) b => (acc <<< 8) ||| b.toBitVec.setWidth 128) 0 =
      BitVec.ofNat 128 (beValue bytes) := by
  induction bytes using List.reverseRecOn with
  | nil => rfl
  | append_singleton bytes b ih =>
    rw [List.foldl_append, ih, List.foldl_cons, List.foldl_nil, shiftLeft_or_byte, beValue,
      beValue, List.foldl_append]
    rfl

theorem addr16_eq (ctx : XdpContext) (p : Nat) :
    ctx.addr16 p = BitVec.ofNat 128 (beValue ((List.range 16).map fun i => ctx.mem (p + i))) := by
  rw [← foldl_addr, List.foldl_map]
  rfl

theorem ParsedFrom.src_eq {ctx : XdpContext} {pc : PacketCtx} {addr : IpAddr}
    (h : ParsedFrom ctx pc addr) : pc.src = IpAddr.key addr := by
  cases h with
  | v4 h =>
    unfold parseIpv4 at h
    obtain ⟨ip, hip, h⟩ := Option.bind_eq_some_iff.1 h
    obtain ⟨-, rfl⟩ := ptrAt_eq_some_iff.1 hip
    have hsrc : srcKey (IpHdr.saddr ctx ETH_HDR_LEN) = IpAddr.key (.v4 (ipv4Source ctx)) :=
      congrArg IpKey.fromIpv4 (toNeBytes_u32 ctx _)
    rw [← hsrc]
    dsimp only at h
    split at h
    · cases h
    · split at h
      · cases h
        rfl
      · obtain ⟨ports, -, rfl⟩ := Option.map_eq_some_iff.1 h
        rfl
  | v6 h =>
    unfold parseIpv6 at h
    obtain ⟨ip, hip, h⟩ := Option.bind_eq_some_iff.1 h
    obtain ⟨-, rfl⟩ := ptrAt_eq_some_iff.1 hip
    obtain ⟨ports, -, rfl⟩ := Option.map_eq_some_iff.1 h
    exact congrArg IpKey.fromIpv6 (addr16_eq ctx _)

/-! ## From text to packet -/

theorem holdsExactly_foldl_insert (cs : List Cidr) :
    HoldsExactly (cs.foldl CidrTries.insert {}) cs := by
  intro d
  rw [CidrTries.holds_foldl_insert]
  exact or_iff_left (CidrTries.not_holds_empty d)

section Match

variable {cidrs : List String} {cs : List Cidr} {ctx : XdpContext} {pc : PacketCtx}
  {addr : IpAddr}

theorem family_of_accepted (hcs : cidrs.mapM parseCidr = .ok cs) :
    ∀ c ∈ cs, c.1.ipFamily ≠ none := by
  intro c hc
  obtain ⟨s, -, hparse⟩ := mapM_eq_ok_mem_result hcs hc
  obtain ⟨network, length, -, -, hnet⟩ := parseCidr_spec hparse
  rcases hnet with ⟨net, -, -, hkey⟩ | ⟨net, -, -, hkey⟩
  · rw [hkey, ipFamily_fromIpv4]
    decide
  · rw [hkey, ipFamily_fromIpv6]
    decide

/-- The texts contain what their blocks contain. -/
theorem exists_text_iff (hcs : cidrs.mapM parseCidr = .ok cs) (addr : IpAddr) :
    (∃ c ∈ cs, c.Has addr) ↔ ∃ s ∈ cidrs, CidrTextHas s addr := by
  constructor
  · rintro ⟨c, hc, hhas⟩
    obtain ⟨s, hs, hparse⟩ := mapM_eq_ok_mem_result hcs hc
    exact ⟨s, hs, (cidrTextHas_iff hparse addr).2 hhas⟩
  · rintro ⟨s, hs, hhas⟩
    obtain ⟨c, hparse⟩ := mapM_eq_ok_mem hcs hs
    exact ⟨c, mapM_eq_ok_of_mem hcs hs hparse, (cidrTextHas_iff hparse addr).1 hhas⟩

/-- The blocks that a call writes into fresh GeoIP lists are the ones they hold. -/
theorem geoip_holds {csv : CsvFiles} {config : GeoIpConfig} {insertFails : Option Nat}
    {g : GeoipLists} {blocks allows : List Cidr}
    (hload : loadGeoipLists csv config = .ok (blocks, allows))
    (hpass : (applyGeoipMap csv config insertFails).Passes {} g) :
    HoldsExactly g.blockTries blocks ∧ HoldsExactly g.allowTries allows := by
  have hnone : ¬ InsertFails insertFails blocks allows := by
    rintro ⟨n, rfl, hn⟩
    rw [Attempt.Passes, applyGeoipMap_of_full hload hn] at hpass
    cases hpass
  rw [Attempt.Passes, applyGeoipMap_of_written hload hnone] at hpass
  cases hpass
  exact ⟨holdsExactly_of_tracks (fun d hd => absurd hd (CidrTries.not_holds_empty d))
      fun c hc => (by cases hc),
    holdsExactly_of_tracks (fun d hd => absurd hd (CidrTries.not_holds_empty d))
      fun c hc => (by cases hc)⟩

/-- For accepted texts and every parsed packet: after the texts have been stored in the whitelist, or
loaded as blocked or allowed networks, the lookup of the packet's source answers whether one of the
texts contains the source numerically. The first part is about the tries in memory: keys built from
the bytes of `IpKey` through `to_be`, and compared by their leading bits. -/
theorem prefixes_match_exactly (hcs : cidrs.mapM parseCidr = .ok cs)
    (hsrc : ParsedFrom ctx pc addr) :
    ((cs.foldl (fun t c => t.insert c.1.bytes c.2) ({} : CidrBytes)).contains pc.src.bytes = true ↔
      ∃ s ∈ cidrs, CidrTextHas s addr) ∧
    (∀ m m', whitelistTries m = {} → (Attempt.sequence (cs.map allowCidrRaw)).Passes m m' →
      (isWhitelisted m' pc.src = true ↔ ∃ s ∈ cidrs, CidrTextHas s addr)) ∧
    (∀ csv config insertFails blocks allows s t,
      loadGeoipLists csv config = .ok (blocks, allows) → ControlPlane.geoipLists s = {} →
      (ControlPlane.onGeoip (applyGeoipMap csv config insertFails)).Passes s t →
      (blocks = cs →
        (isGeoipBlocked t.maps pc.src = true ↔ ∃ s ∈ cidrs, CidrTextHas s addr)) ∧
      (allows = cs →
        (isGeoipAllowed t.maps pc.src = true ↔ ∃ s ∈ cidrs, CidrTextHas s addr))) := by
  rw [hsrc.src_eq]
  refine ⟨?_, ?_, ?_⟩
  · have hmemory : (cs.foldl (fun t c => t.insert c.1.bytes c.2) ({} : CidrBytes)) =
        (cs.foldl CidrTries.insert {}).memory := (CidrTries.memory_foldl_insert cs {}).symm
    rw [hmemory, CidrTries.contains_memory, lpmContains_iff (holdsExactly_foldl_insert cs),
      exists_text_iff hcs]
  · intro m m' hempty hpass
    cases congrArg Prod.snd ((allowCidrRaws_passes (family_of_accepted hcs) m).symm.trans hpass)
    rw [hempty]
    exact (lpmContains_iff (holdsExactly_foldl_insert cs) addr).trans (exists_text_iff hcs addr)
  · intro csv config insertFails blocks allows s t hload hfresh hpass
    obtain ⟨g, hcall, rfl⟩ := Attempt.passes_zoom.1 hpass
    rw [hfresh] at hcall
    obtain ⟨hblocks, hallows⟩ := geoip_holds hload hcall
    constructor
    · rintro rfl
      exact (lpmContains_iff hblocks addr).trans (exists_text_iff hcs addr)
    · rintro rfl
      exact (lpmContains_iff hallows addr).trans (exists_text_iff hcs addr)

end Match

/-- A bare IPv4 header from 10.1.2.3. -/
def frameFromTen : XdpContext :=
  .ofBytes (List.replicate 14 0 ++
    [0x45, 0, 0, 20, 0, 0, 0, 0, 64, 0, 0, 0, 10, 1, 2, 3, 0, 0, 0, 0])

/-- It matches the network 10.0.0.0/8. -/
theorem prefixes_match_exactly_ten :
    ∃ pc, parseIpv4 frameFromTen = some pc ∧
      ([(IpKey.fromIpv4 0x0a000000, 8)].foldl (fun t c => t.insert c.1.bytes c.2)
        ({} : CidrBytes)).contains pc.src.bytes = true ∧
      ∃ s ∈ ["10.0.0.0/8"], CidrTextHas s (.v4 (ipv4Source frameFromTen)) := by
  have hparse : (parseIpv4 frameFromTen).map PacketCtx.src = some (.fromIpv4 0x0a010203) := by
    decide +kernel
  obtain ⟨pc, hpc, hsrc⟩ := Option.map_eq_some_iff.1 hparse
  have hcs : ["10.0.0.0/8"].mapM parseCidr = .ok [(IpKey.fromIpv4 0x0a000000, 8)] := by
    decide +kernel
  have hfound : ([(IpKey.fromIpv4 0x0a000000, 8)].foldl (fun t c => t.insert c.1.bytes c.2)
      ({} : CidrBytes)).contains pc.src.bytes = true := by
    rw [hsrc]
    decide +kernel
  exact ⟨pc, hpc, hfound, (prefixes_match_exactly hcs (.v4 hpc)).1.1 hfound⟩

end EShield.Node
