import EShield.Node.Proofs.PrefixProofs
import EShield.Node.Proofs.ReloadPartsProofs

/-!
# Blocks that are told apart by their keys

The kernel tells two prefixes apart by their leading bits, the control plane by the whole key. The
two agree on keys with nothing behind the prefix, and then the difference of two lists is right. An
IPv6 prefix of whole octets leaves the octet behind it in its key.
-/

namespace EShield.Node

open Attempt Checks Ebpf IpText Text

/-! ## Keys and leading bits -/

/-- `kept` is the first `n` bits of the address, and zero behind them. -/
def FirstBits {w : Nat} (n : Nat) (addr kept : BitVec w) : Prop :=
  ∀ i < w, kept.getMsbD i = (decide (i < n) && addr.getMsbD i)

/-- The key of the block is the first bits of the address. -/
def Canonical (c : Cidr) : IpAddr → Prop
  | .v4 addr => ∃ kept, c.1 = .fromIpv4 kept ∧ FirstBits c.2 addr kept
  | .v6 addr => ∃ kept, c.1 = .fromIpv6 kept ∧ FirstBits c.2 addr kept

/-- The text is this address and this prefix length. -/
def Writes (s : String) (addr : IpAddr) (prefixLen : Nat) : Prop :=
  ∃ network length, s.toList.splitOn '/' = [network, length] ∧
    parseIpAddr network = some addr ∧ parseUnsigned 32 length = some prefixLen

/-- Behind an IPv6 prefix of whole octets the text has a zero octet. -/
def OctetClear (s : String) : Prop :=
  ∀ addr prefixLen, Writes s (.v6 addr) prefixLen → prefixLen ≠ 0 → prefixLen % 8 = 0 →
    ∀ i, prefixLen ≤ i → i < prefixLen + 8 → addr.getMsbD i = false

theorem Writes.unique {s : String} {addr addr' : IpAddr} {n n' : Nat} (h : Writes s addr n)
    (h' : Writes s addr' n') : addr = addr' ∧ n = n' := by
  obtain ⟨network, length, hsplit, haddr, hlength⟩ := h
  obtain ⟨network', length', hsplit', haddr', hlength'⟩ := h'
  rw [hsplit] at hsplit'
  simp only [List.cons.injEq, and_true] at hsplit'
  obtain ⟨rfl, rfl⟩ := hsplit'
  exact ⟨Option.some.inj (haddr.symm.trans haddr'), Option.some.inj (hlength.symm.trans hlength')⟩

/-- What an accepted text writes, and the block it stands for. -/
theorem writes_of_accepted {s : String} {c : Cidr} (h : parseCidr s = .ok c) :
    (∃ addr, Writes s (.v4 addr) c.2 ∧ c.2 ≤ 32 ∧ c.1 = .fromIpv4 (maskV4 addr c.2)) ∨
      ∃ addr, Writes s (.v6 addr) c.2 ∧ c.2 ≤ 128 ∧ c.1 = .fromIpv6 (maskV6 addr c.2) := by
  obtain ⟨network, length, hsplit, hlength, hnet⟩ := parseCidr_spec h
  rcases hnet with ⟨addr, haddr, hle, hkey⟩ | ⟨addr, haddr, hle, hkey⟩
  · exact .inl ⟨addr, ⟨network, length, hsplit, haddr, hlength⟩, hle, hkey⟩
  · exact .inr ⟨addr, ⟨network, length, hsplit, haddr, hlength⟩, hle, hkey⟩

theorem parseCidr_of_writes {s : String} {addr : BitVec 128} {n : Nat}
    (h : Writes s (.v6 addr) n) (hle : n ≤ 128) :
    parseCidr s = .ok (.fromIpv6 (maskV6 addr n), n) := by
  obtain ⟨network, length, hsplit, haddr, hlength⟩ := h
  unfold parseCidr
  rw [hsplit]
  dsimp only
  rw [haddr, hlength]
  exact check_bind_eq_ok.2 ⟨rejectIf_neg (not_lt.2 hle) _, rfl⟩

/-- The bits that a mask of `n` leading ones keeps. -/
theorem getMsbD_keep {w : Nat} (addr : BitVec w) (n i : Nat) :
    (addr &&& (BitVec.allOnes w <<< (w - n))).getMsbD i = (decide (i < n) && addr.getMsbD i) := by
  rw [BitVec.getMsbD_and, BitVec.getMsbD_shiftLeft, BitVec.getMsbD_allOnes]
  by_cases hi : i < w
  · have hkeep : i + (w - n) < w ↔ i < n := by omega
    rw [decide_eq_decide.2 hkeep, Bool.and_comm]
  · rw [BitVec.getMsbD_of_ge _ _ (not_lt.1 hi), Bool.false_and, Bool.and_false]

theorem firstBits_zero {w : Nat} (addr : BitVec w) : FirstBits 0 addr 0#w := by
  intro i _
  rw [BitVec.getMsbD_zero, decide_eq_false (Nat.not_lt_zero i), Bool.false_and]

theorem firstBits_maskV4 (addr : BitVec 32) (n : Nat) : FirstBits n addr (maskV4 addr n) := by
  unfold maskV4
  by_cases hzero : n = 0
  · subst hzero
    rw [if_pos rfl]
    simpa using firstBits_zero addr
  · rw [if_neg hzero]
    exact fun i _ => getMsbD_keep addr n i

theorem getMsbD_maskV6 (addr : BitVec 128) {n : Nat} (hzero : n ≠ 0) (i : Nat) :
    (maskV6 addr n).getMsbD i =
      (decide (i < if n % 8 = 0 then n + 8 else n) && addr.getMsbD i) := by
  have hkept : 8 * (n / 8) + (if n % 8 > 0 then n % 8 else 8) =
      if n % 8 = 0 then n + 8 else n := by
    split <;> split <;> omega
  rw [maskV6, if_neg hzero]
  dsimp only
  rw [hkept, getMsbD_keep]

/-- The mask of an IPv6 address is right unless a set bit stands in the octet behind whole octets. -/
theorem firstBits_maskV6 {addr : BitVec 128} {n : Nat}
    (hclear : n ≠ 0 → n % 8 = 0 → ∀ i, n ≤ i → i < n + 8 → addr.getMsbD i = false) :
    FirstBits n addr (maskV6 addr n) := by
  by_cases hzero : n = 0
  · subst hzero
    exact firstBits_zero addr
  · intro i hi
    rw [getMsbD_maskV6 addr hzero]
    by_cases hwhole : n % 8 = 0
    · rw [if_pos hwhole]
      by_cases hlt : i < n
      · rw [decide_eq_true hlt, decide_eq_true (by omega)]
      · by_cases hbehind : i < n + 8
        · rw [hclear hzero hwhole i (not_lt.1 hlt) hbehind, Bool.and_false, Bool.and_false]
        · rw [decide_eq_false hlt, decide_eq_false hbehind]
    · rw [if_neg hwhole]

/-- A text with a clear octet stands for a block with a canonical key. -/
theorem canonical_of_octetClear {s : String} {c : Cidr} {addr : IpAddr}
    (h : parseCidr s = .ok c) (haddr : Writes s addr c.2) (hclear : OctetClear s) :
    Canonical c addr := by
  rcases writes_of_accepted h with ⟨a, hwrites, -, hkey⟩ | ⟨a, hwrites, -, hkey⟩
  · obtain ⟨rfl, -⟩ := haddr.unique hwrites
    exact ⟨_, hkey, firstBits_maskV4 a c.2⟩
  · obtain ⟨rfl, -⟩ := haddr.unique hwrites
    exact ⟨_, hkey, firstBits_maskV6 (hclear a c.2 hwrites)⟩

/-- A canonical key for every text it is parsed from means a clear octet. -/
theorem octetClear_of_canonical {s : String}
    (h : ∀ c addr, parseCidr s = .ok c → Writes s addr c.2 → Canonical c addr) :
    OctetClear s := by
  intro addr n hwrites hzero hwhole i hle hlt
  by_cases hi : i < 128
  · have haccepted := parseCidr_of_writes hwrites (by omega)
    obtain ⟨kept, hkey, hfirst⟩ := h _ (.v6 addr) haccepted hwrites
    have hkept : kept = maskV6 addr n := (congrArg IpKey.addr hkey).symm
    have hbit := hfirst i hi
    rw [hkept, getMsbD_maskV6 addr hzero, if_pos hwhole, decide_eq_true hlt,
      decide_eq_false (not_lt.2 hle), Bool.true_and, Bool.false_and] at hbit
    exact hbit
  · exact BitVec.getMsbD_of_ge _ _ (not_lt.1 hi)

/-! ## Keys and sets of addresses -/

namespace Cidr

/-- The length of the block is one of its family. -/
def Valid (c : Cidr) : Prop :=
  c.1.ipFamily = some .ipv4 ∧ c.2 ≤ 32 ∨ c.1.ipFamily = some .ipv6 ∧ c.2 ≤ 128

theorem has_v4_iff (c : Cidr) (a : BitVec 32) :
    c.Has (.v4 a) ↔ c.1.ipFamily = some .ipv4 ∧ c.keyV4.Covers ⟨32, a⟩ := by
  rw [covers_full_iff]
  rfl

theorem has_v6_iff (c : Cidr) (a : BitVec 128) :
    c.Has (.v6 a) ↔ c.1.ipFamily = some .ipv6 ∧ c.keyV6.Covers ⟨128, a⟩ := by
  rw [covers_full_iff]
  rfl

theorem same_iff {c d : Cidr} :
    c.Same d ↔
      c.1.ipFamily = some .ipv4 ∧ d.1.ipFamily = some .ipv4 ∧ c.keyV4.Same d.keyV4 ∨
        c.1.ipFamily = some .ipv6 ∧ d.1.ipFamily = some .ipv6 ∧ c.keyV6.Same d.keyV6 := by
  unfold Same
  cases c.1.ipFamily with
  | none => simp
  | some fc =>
    cases d.1.ipFamily with
    | none => simp
    | some fd => cases fc <;> cases fd <;> simp

/-- The kernel takes a valid block and another for one prefix exactly when they contain the same
addresses. -/
theorem same_iff_has {c d : Cidr} (hc : c.Valid) :
    c.Same d ↔ ∀ addr, c.Has addr ↔ d.Has addr := by
  constructor
  · intro h
    rcases same_iff.1 h with ⟨hcfamily, hdfamily, hsame⟩ | ⟨hcfamily, hdfamily, hsame⟩
    · rintro (a | a)
      · rw [has_v4_iff, has_v4_iff]
        exact and_congr (iff_of_true hcfamily hdfamily) (hsame.covers_iff _)
      · rw [has_v6_iff, has_v6_iff, hcfamily, hdfamily]
        simp
    · rintro (a | a)
      · rw [has_v4_iff, has_v4_iff, hcfamily, hdfamily]
        simp
      · rw [has_v6_iff, has_v6_iff]
        exact and_congr (iff_of_true hcfamily hdfamily) (hsame.covers_iff _)
  · intro h
    rcases hc with ⟨hcfamily, hcle⟩ | ⟨hcfamily, hcle⟩
    · -- The network of `c` itself shows that `d` is of its family.
      have hown : d.Has (.v4 c.1.ipv4) := (h _).1 ⟨hcfamily, hcle, rfl⟩
      refine same_iff.2 (.inl ⟨hcfamily, hown.1, ?_⟩)
      refine (LpmKey.same_iff_covers (p := c.keyV4) (q := d.keyV4) hcle hown.2.1).2 fun a => ?_
      have haddr := h (.v4 a)
      rw [has_v4_iff, has_v4_iff] at haddr
      exact ⟨fun hcov => (haddr.1 ⟨hcfamily, hcov⟩).2, fun hcov => (haddr.2 ⟨hown.1, hcov⟩).2⟩
    · have hown : d.Has (.v6 c.1.addr) := (h _).1 ⟨hcfamily, hcle, rfl⟩
      refine same_iff.2 (.inr ⟨hcfamily, hown.1, ?_⟩)
      refine (LpmKey.same_iff_covers (p := c.keyV6) (q := d.keyV6) hcle hown.2.1).2 fun a => ?_
      have haddr := h (.v6 a)
      rw [has_v6_iff, has_v6_iff] at haddr
      exact ⟨fun hcov => (haddr.1 ⟨hcfamily, hcov⟩).2, fun hcov => (haddr.2 ⟨hown.1, hcov⟩).2⟩

end Cidr

theorem valid_of_accepted {s : String} {c : Cidr} (h : parseCidr s = .ok c) : c.Valid := by
  rcases writes_of_accepted h with ⟨a, -, hle, hkey⟩ | ⟨a, -, hle, hkey⟩
  · exact .inl ⟨by rw [hkey, ipFamily_fromIpv4], hle⟩
  · exact .inr ⟨by rw [hkey, ipFamily_fromIpv6], hle⟩

/-- Words with the same leading bits and zeros behind them are equal. -/
theorem firstBits_inj {w n : Nat} {addr addr' kept kept' : BitVec w} (hn : n ≤ w)
    (h : FirstBits n addr kept) (h' : FirstBits n addr' kept')
    (hsame : kept >>> (w - n) = kept' >>> (w - n)) : kept = kept' := by
  refine BitVec.eq_of_getMsbD_eq fun i hi => ?_
  by_cases hlt : i < n
  · exact (ushiftRight_eq_iff_getMsbD kept kept' hn).1 hsame i hlt
  · rw [h i hi, h' i hi, decide_eq_false hlt, Bool.false_and, Bool.false_and]

/-- Canonical keys of one prefix are equal. -/
theorem eq_of_same {c d : Cidr} {addr addr' : IpAddr} (hc : c.Valid) (hcanon : Canonical c addr)
    (hcanon' : Canonical d addr') (hsame : c.Same d) : c = d := by
  obtain ⟨key, n⟩ := c
  obtain ⟨key', n'⟩ := d
  rcases Cidr.same_iff.1 hsame with ⟨hfamily, hfamily', hsame⟩ | ⟨hfamily, hfamily', hsame⟩
  · have hle : n ≤ 32 := by
      rcases hc with hc | hc
      · exact hc.2
      · cases hfamily.symm.trans hc.1
    cases addr with
    | v6 a =>
      obtain ⟨kept, rfl, -⟩ := hcanon
      cases hfamily
    | v4 a =>
      cases addr' with
      | v6 a' =>
        obtain ⟨kept', rfl, -⟩ := hcanon'
        cases hfamily'
      | v4 a' =>
        obtain ⟨kept, rfl, hfirst⟩ := hcanon
        obtain ⟨kept', rfl, hfirst'⟩ := hcanon'
        obtain ⟨rfl, hbits⟩ : n = n' ∧ _ := hsame
        simp only [Cidr.keyV4, ipv4_fromIpv4] at hbits
        rw [firstBits_inj hle hfirst hfirst' hbits]
  · have hle : n ≤ 128 := by
      rcases hc with hc | hc
      · cases hfamily.symm.trans hc.1
      · exact hc.2
    cases addr with
    | v4 a =>
      obtain ⟨kept, rfl, -⟩ := hcanon
      cases hfamily
    | v6 a =>
      cases addr' with
      | v4 a' =>
        obtain ⟨kept', rfl, -⟩ := hcanon'
        cases hfamily'
      | v6 a' =>
        obtain ⟨kept, rfl, hfirst⟩ := hcanon
        obtain ⟨kept', rfl, hfirst'⟩ := hcanon'
        obtain ⟨rfl, hbits⟩ : n = n' ∧ _ := hsame
        rw [firstBits_inj hle hfirst hfirst' hbits]

/-- Among texts with a clear octet, one prefix has one key. -/
theorem eq_of_same_of_octetClear {s t : String} {c d : Cidr} (hs : parseCidr s = .ok c)
    (ht : parseCidr t = .ok d) (hsclear : OctetClear s) (htclear : OctetClear t)
    (hsame : c.Same d) : c = d := by
  have hwrites : ∀ {u : String} {e : Cidr}, parseCidr u = .ok e → ∃ addr, Writes u addr e.2 := by
    intro u e hu
    rcases writes_of_accepted hu with ⟨a, hwrites, -⟩ | ⟨a, hwrites, -⟩
    · exact ⟨_, hwrites⟩
    · exact ⟨_, hwrites⟩
  obtain ⟨addr, haddr⟩ := hwrites hs
  obtain ⟨addr', haddr'⟩ := hwrites ht
  exact eq_of_same (valid_of_accepted hs) (canonical_of_octetClear hs haddr hsclear)
    (canonical_of_octetClear ht haddr' htclear) hsame

/-! ## The difference of two lists -/

theorem remove_mem_whitelistChanges {current new : List Cidr} {c : Cidr} :
    .remove c ∈ whitelistChanges current new ↔
      c ∈ current ∧ c ∉ new ∧ c.1.ipFamily ≠ none := by
  simp only [whitelistChanges, ofFamily, List.mem_append, List.mem_map, List.mem_filter,
    decide_eq_true_eq, TrieChange.remove.injEq, reduceCtorEq, and_false, exists_false, or_false,
    exists_eq_right]
  cases c.1.ipFamily with
  | none => simp
  | some family => cases family <;> simp

theorem insert_mem_whitelistChanges {current new : List Cidr} {c : Cidr} :
    .insert c ∈ whitelistChanges current new ↔
      c ∈ new ∧ c ∉ current ∧ c.1.ipFamily ≠ none := by
  simp only [whitelistChanges, ofFamily, List.mem_append, List.mem_map, List.mem_filter,
    decide_eq_true_eq, TrieChange.insert.injEq, reduceCtorEq, and_false, exists_false, false_or,
    exists_eq_right]
  cases c.1.ipFamily with
  | none => simp
  | some family => cases family <;> simp

/-- What is held after changes among which no prefix is both stored and removed. -/
theorem holds_foldl_effect {changes : List TrieChange}
    (h : ∀ c e, .insert c ∈ changes → .remove e ∈ changes → ¬ e.Same c) (t : CidrTries)
    (d : Cidr) :
    (changes.foldl TrieChange.effect t).Holds d ↔
      (∃ c, .insert c ∈ changes ∧ c.Same d) ∨
        t.Holds d ∧ ∀ e, .remove e ∈ changes → ¬ e.Same d := by
  induction changes generalizing t with
  | nil => simp
  | cons change changes ih =>
    have hrest := ih fun c e hc he =>
      h c e (List.mem_cons_of_mem _ hc) (List.mem_cons_of_mem _ he)
    rw [List.foldl_cons, hrest]
    cases change with
    | remove e =>
      rw [TrieChange.effect, CidrTries.holds_remove]
      simp only [List.mem_cons, reduceCtorEq, false_or, TrieChange.remove.injEq]
      constructor
      · rintro (hins | ⟨⟨hheld, he⟩, hrem⟩)
        · exact .inl hins
        · refine .inr ⟨hheld, ?_⟩
          rintro e' (rfl | he')
          · exact he
          · exact hrem e' he'
      · rintro (hins | ⟨hheld, hrem⟩)
        · exact .inl hins
        · exact .inr ⟨⟨hheld, hrem e (.inl rfl)⟩, fun e' he' => hrem e' (.inr he')⟩
    | insert c =>
      rw [TrieChange.effect, CidrTries.holds_insert]
      simp only [List.mem_cons, reduceCtorEq, false_or, TrieChange.insert.injEq]
      constructor
      · rintro (⟨c', hc', hsame⟩ | ⟨hsame | hheld, hrem⟩)
        · exact .inl ⟨c', .inr hc', hsame⟩
        · exact .inl ⟨c, .inl rfl, hsame⟩
        · exact .inr ⟨hheld, hrem⟩
      · rintro (⟨c', rfl | hc', hsame⟩ | ⟨hheld, hrem⟩)
        · refine .inr ⟨.inl hsame, fun e he heq => ?_⟩
          exact h c' e (List.mem_cons_self) (List.mem_cons_of_mem _ he) (heq.trans hsame.symm)
        · exact .inl ⟨c', hc', hsame⟩
        · exact .inr ⟨.inr hheld, hrem⟩

/-- Removals of stored prefixes, each of them once, all find theirs. -/
theorem possible_of_held {changes : List TrieChange}
    (hpairs : changes.Pairwise fun x y => ∀ e e', x = .remove e → y = .remove e' → ¬ e.Same e')
    {t : CidrTries} (hheld : ∀ e, .remove e ∈ changes → t.Holds e) : Possible t changes := by
  induction changes generalizing t with
  | nil => trivial
  | cons change changes ih =>
    obtain ⟨hfirst, hrest⟩ := List.pairwise_cons.1 hpairs
    cases change with
    | remove e =>
      refine ⟨hheld e List.mem_cons_self, ih hrest fun e' he' => ?_⟩
      exact CidrTries.holds_remove.2
        ⟨hheld e' (List.mem_cons_of_mem _ he'), hfirst _ he' e e' rfl rfl⟩
    | insert c =>
      refine ⟨trivial, ih hrest fun e he => ?_⟩
      exact CidrTries.holds_insert.2 (.inr (hheld e (List.mem_cons_of_mem _ he)))

theorem nodup_whitelistChanges {current new : List Cidr} (hcurrent : current.Nodup)
    (hnew : new.Nodup) : (whitelistChanges current new).Nodup := by
  have hremove : ∀ family cs, cs.Nodup → ((ofFamily family cs).map TrieChange.remove).Nodup :=
    fun family cs hcs => (hcs.filter _).map fun c d h => TrieChange.remove.inj h
  have hinsert : ∀ family cs, cs.Nodup → ((ofFamily family cs).map TrieChange.insert).Nodup :=
    fun family cs hcs => (hcs.filter _).map fun c d h => TrieChange.insert.inj h
  have hkinds : ∀ cs ds : List Cidr,
      (cs.map TrieChange.remove).Disjoint (ds.map TrieChange.insert) := by
    intro cs ds change hc hd
    obtain ⟨c, -, rfl⟩ := List.mem_map.1 hc
    obtain ⟨d, -, hd⟩ := List.mem_map.1 hd
    cases hd
  have hfamilies : ∀ cs : List Cidr, (ofFamily .ipv4 cs).Disjoint (ofFamily .ipv6 cs) := by
    intro cs c h4 h6
    have hv4 := of_decide_eq_true (List.mem_filter.1 h4).2
    have hv6 := of_decide_eq_true (List.mem_filter.1 h6).2
    cases hv4.symm.trans hv6
  have hremoved := hcurrent.filter (fun c => decide (c ∉ new))
  have hadded := hnew.filter (fun c => decide (c ∉ current))
  unfold whitelistChanges
  refine List.Nodup.append
    (List.Nodup.append (hremove _ _ hremoved) (hinsert _ _ hadded) (hkinds _ _))
    (List.Nodup.append (hremove _ _ hremoved) (hinsert _ _ hadded) (hkinds _ _)) ?_
  rw [List.disjoint_append_left, List.disjoint_append_right, List.disjoint_append_right]
  refine ⟨⟨?_, hkinds _ _⟩, (hkinds _ _).symm, ?_⟩
  · exact List.disjoint_map (fun c d h => TrieChange.remove.inj h) (hfamilies _)
  · exact List.disjoint_map (fun c d h => TrieChange.insert.inj h) (hfamilies _)

/-- The tries after the changes, or after those before the one that fails. -/
theorem applyWhitelistMap_cases {config : Config} {new : List Cidr}
    (hnew : configWhitelist config = .ok new) (m : Maps) (current : List Cidr) :
    Possible (whitelistTries m) (whitelistChanges current new) ∧
        applyWhitelistMap config (m, current) =
          (.ok (), setWhitelistTries m
            ((whitelistChanges current new).foldl TrieChange.effect (whitelistTries m)), new) ∨
      ∃ pre c, StopsAfter (whitelistTries m) (whitelistChanges current new) pre c ∧
        applyWhitelistMap config (m, current) =
          (.error "bpf_map_delete_elem",
            setWhitelistTries m (pre.foldl TrieChange.effect (whitelistTries m)), current) := by
  unfold applyWhitelistMap
  rw [hnew]
  rcases possible_or_stops (whitelistTries m) (whitelistChanges current new) with
    hpossible | ⟨pre, c, hstops⟩
  · have hrun := applyChanges_of_possible hpossible
    unfold Passes at hrun
    left
    dsimp only
    rw [hrun]
    exact ⟨hpossible, rfl⟩
  · right
    refine ⟨pre, c, hstops, ?_⟩
    dsimp only
    rw [applyChanges_of_stops hstops]

/-- The change from the tracked list to that of the configuration removes no prefix of the latter,
and from tries with exactly the tracked blocks it leads to exactly the new ones. -/
structure DiffExact (current : List Cidr) (config : Config) : Prop where
  kept : ∀ m, ∀ s ∈ config.whitelist, ∀ d, parseCidr s = .ok d → (whitelistTries m).Holds d →
    (whitelistTries (applyWhitelistMap config (m, current)).2.1).Holds d
  exact : ∀ m new, configWhitelist config = .ok new → HoldsExactly (whitelistTries m) current →
    (applyWhitelistMap config (m, current)).1 = .ok () ∧
      HoldsExactly (whitelistTries (applyWhitelistMap config (m, current)).2.1) new

/-- The blocks of a list are those of its texts. -/
theorem mem_configWhitelist {config : Config} {cs : List Cidr}
    (h : configWhitelist config = .ok cs) (c : Cidr) :
    c ∈ cs ↔ ∃ s ∈ config.whitelist, parseCidr s = .ok c := by
  unfold configWhitelist at h
  cases hmap : config.whitelist.mapM parseCidr with
  | error e =>
    rw [hmap] at h
    cases h
  | ok blocks =>
    rw [hmap] at h
    cases h
    rw [List.mem_dedup]
    constructor
    · exact mapM_eq_ok_mem_result hmap
    · rintro ⟨s, hs, hparse⟩
      exact mapM_eq_ok_of_mem hmap hs hparse

theorem nodup_configWhitelist {config : Config} {cs : List Cidr}
    (h : configWhitelist config = .ok cs) : cs.Nodup := by
  unfold configWhitelist at h
  cases hmap : config.whitelist.mapM parseCidr with
  | error e =>
    rw [hmap] at h
    cases h
  | ok blocks =>
    rw [hmap] at h
    cases h
    exact List.nodup_dedup blocks

/-- Each prefix has one key in both lists. -/
def OneKey (current new : List Cidr) : Prop :=
  ∀ c ∈ current ++ new, ∀ d ∈ current ++ new, c.Same d → c = d

section OneKey

variable {current new : List Cidr} {m : Maps} {t : CidrTries} {config : Config}

/-- A removed block is not the prefix of a new one. -/
theorem OneKey.not_same (hone : OneKey current new) {e c : Cidr}
    (he : .remove e ∈ whitelistChanges current new) (hc : c ∈ new) : ¬ e.Same c := by
  obtain ⟨he, hne, -⟩ := remove_mem_whitelistChanges.1 he
  intro hsame
  obtain rfl := hone e (List.mem_append_left _ he) c (List.mem_append_right _ hc) hsame
  exact hne hc

/-- Nor that of one that is inserted. -/
theorem OneKey.changes_apart (hone : OneKey current new) {c e : Cidr}
    (hc : .insert c ∈ whitelistChanges current new)
    (he : .remove e ∈ whitelistChanges current new) : ¬ e.Same c :=
  hone.not_same he (insert_mem_whitelistChanges.1 hc).1

/-- However far the change gets, it keeps what is still configured. -/
theorem OneKey.kept (hone : OneKey current new) (hnew : configWhitelist config = .ok new) {d : Cidr}
    (hd : d ∈ new) (hheld : (whitelistTries m).Holds d) :
    (whitelistTries (applyWhitelistMap config (m, current)).2.1).Holds d := by
  rcases applyWhitelistMap_cases hnew m current with ⟨-, hrun⟩ | ⟨pre, c, hstops, hrun⟩
  · rw [hrun]
    exact (holds_foldl_effect (fun c e hc he => hone.changes_apart hc he) _ _).2
      (.inr ⟨hheld, fun e he => hone.not_same he hd⟩)
  · obtain ⟨post, hsplit⟩ := hstops.split
    have hmem : ∀ {change : TrieChange}, change ∈ pre →
        change ∈ whitelistChanges current new := by
      intro change hchange
      rw [hsplit]
      exact List.mem_append_left _ hchange
    rw [hrun]
    exact (holds_foldl_effect (fun c e hc he => hone.changes_apart (hmem hc) (hmem he)) _ _).2
      (.inr ⟨hheld, fun e he => hone.not_same (hmem he) hd⟩)

theorem OneKey.possible (hone : OneKey current new) (hcurrent : current.Nodup) (hnew : new.Nodup)
    (hholds : HoldsExactly t current) : Possible t (whitelistChanges current new) := by
  have hremoved : ∀ {e}, .remove e ∈ whitelistChanges current new → e ∈ current :=
    fun he => (remove_mem_whitelistChanges.1 he).1
  refine possible_of_held ?_ ?_
  · refine (nodup_whitelistChanges hcurrent hnew).pairwise_of_forall_ne ?_
    rintro x hx y hy hne e e' rfl rfl hsame
    exact hne (congrArg _ (hone e (List.mem_append_left _ (hremoved hx)) e'
      (List.mem_append_left _ (hremoved hy)) hsame))
  · intro e he
    have hfamily := (remove_mem_whitelistChanges.1 he).2.2
    exact (hholds e).2 ⟨e, hremoved he, Cidr.Same.refl hfamily⟩

/-- The whole change leads from the tracked blocks to the new ones. -/
theorem OneKey.holdsExactly (hone : OneKey current new) (hholds : HoldsExactly t current) :
    HoldsExactly ((whitelistChanges current new).foldl TrieChange.effect t) new := by
  intro d
  rw [holds_foldl_effect (fun c e hc he => hone.changes_apart hc he), hholds]
  constructor
  · rintro (⟨c, hc, hsame⟩ | ⟨⟨c, hc, hsame⟩, hspared⟩)
    · exact ⟨c, (insert_mem_whitelistChanges.1 hc).1, hsame⟩
    · by_cases hcn : c ∈ new
      · exact ⟨c, hcn, hsame⟩
      · exact absurd hsame
          (hspared c (remove_mem_whitelistChanges.2 ⟨hc, hcn, hsame.family_left⟩))
  · rintro ⟨c, hc, hsame⟩
    by_cases hcc : c ∈ current
    · refine .inr ⟨⟨c, hcc, hsame⟩, fun e he heq => ?_⟩
      exact hone.not_same he hc (heq.trans hsame.symm)
    · exact .inl ⟨c, insert_mem_whitelistChanges.2 ⟨hc, hcc, hsame.family_left⟩, hsame⟩

end OneKey

/-- One key for each prefix of both lists makes the change exact. -/
theorem diffExact_of_oneKey {old config : Config} {current : List Cidr}
    (hcurrent : configWhitelist old = .ok current)
    (hone : ∀ s ∈ old.whitelist ++ config.whitelist, ∀ t ∈ old.whitelist ++ config.whitelist,
      ∀ c d, parseCidr s = .ok c → parseCidr t = .ok d → c.Same d → c = d) :
    DiffExact current config := by
  have hblocks : ∀ {new : List Cidr}, configWhitelist config = .ok new → OneKey current new := by
    intro new hnew
    have htext : ∀ c ∈ current ++ new,
        ∃ s ∈ old.whitelist ++ config.whitelist, parseCidr s = .ok c := by
      intro c hc
      rcases List.mem_append.1 hc with hc | hc
      · obtain ⟨s, hs, hparse⟩ := (mem_configWhitelist hcurrent c).1 hc
        exact ⟨s, List.mem_append_left _ hs, hparse⟩
      · obtain ⟨s, hs, hparse⟩ := (mem_configWhitelist hnew c).1 hc
        exact ⟨s, List.mem_append_right _ hs, hparse⟩
    intro c hc d hd hsame
    obtain ⟨s, hs, hparse⟩ := htext c hc
    obtain ⟨t, ht, hparse'⟩ := htext d hd
    exact hone s hs t ht c d hparse hparse' hsame
  constructor
  · intro m s hs d hparse hheld
    cases hnew : configWhitelist config with
    | error e =>
      have hunchanged : (applyWhitelistMap config (m, current)).2 = (m, current) := by
        unfold applyWhitelistMap
        rw [hnew]
      rw [hunchanged]
      exact hheld
    | ok new =>
      have hd : d ∈ new := (mem_configWhitelist hnew d).2 ⟨s, hs, hparse⟩
      exact (hblocks hnew).kept hnew hd hheld
  · intro m new hnew hholds
    rcases applyWhitelistMap_cases hnew m current with ⟨-, hrun⟩ | ⟨pre, c, hstops, -⟩
    · rw [hrun]
      refine ⟨rfl, ?_⟩
      rw [whitelistTries_set]
      exact (hblocks hnew).holdsExactly hholds
    · have hpossible := (hblocks hnew).possible (nodup_configWhitelist hcurrent)
        (nodup_configWhitelist hnew) hholds
      exact absurd hpossible (not_possible_of_stops hstops)

/-! ## Canonical parsing -/

/-- For every set of texts: all of them are parsed to canonical keys, so that two texts denote the
same addresses exactly when their blocks are equal and the difference of two lists of them removes no
prefix that is still configured, exactly when none of them is an IPv6 prefix of whole octets with a
set bit in the octet behind it. -/
theorem parse_cidr_canonical_iff (texts : Set String) :
    ((∀ s ∈ texts, ∀ c addr, parseCidr s = .ok c → Writes s addr c.2 → Canonical c addr) ∧
      (∀ s ∈ texts, ∀ t ∈ texts, ∀ c d, parseCidr s = .ok c → parseCidr t = .ok d →
        ((∀ addr, CidrTextHas s addr ↔ CidrTextHas t addr) ↔ c = d)) ∧
      ∀ old config : Config, (∀ s ∈ old.whitelist ++ config.whitelist, s ∈ texts) →
        ∀ current, configWhitelist old = .ok current → DiffExact current config) ↔
      ∀ s ∈ texts, OctetClear s := by
  constructor
  · rintro ⟨hcanon, -, -⟩ s hs
    exact octetClear_of_canonical (hcanon s hs)
  · intro hclear
    have hone : ∀ s ∈ texts, ∀ t ∈ texts, ∀ c d, parseCidr s = .ok c → parseCidr t = .ok d →
        c.Same d → c = d := by
      intro s hs t ht c d hsc htd hsame
      exact eq_of_same_of_octetClear hsc htd (hclear s hs) (hclear t ht) hsame
    refine ⟨?_, ?_, ?_⟩
    · intro s hs c addr hparse hwrites
      exact canonical_of_octetClear hparse hwrites (hclear s hs)
    · intro s hs t ht c d hsc htd
      constructor
      · intro hset
        refine hone s hs t ht c d hsc htd ((Cidr.same_iff_has (valid_of_accepted hsc)).2 ?_)
        intro addr
        rw [← cidrTextHas_iff hsc, ← cidrTextHas_iff htd]
        exact hset addr
      · rintro rfl addr
        rw [cidrTextHas_iff hsc, cidrTextHas_iff htd]
    · intro old config htexts current hcurrent
      exact diffExact_of_oneKey hcurrent fun s hs t ht c d hsc htd =>
        hone s (htexts s hs) t (htexts t ht) c d hsc htd

/-- The /64 network 2001:db8:: and the block that "2001:db8:0:0:1200::/64" is parsed to. -/
def networkDb8 : Cidr := (.fromIpv6 0x20010db8000000000000000000000000, 64)

def networkDb8Spelled : Cidr := (.fromIpv6 0x20010db8000000001200000000000000, 64)

/-- Two texts of one /64 network get different blocks, the key of the second with a bit behind the
prefix; and once the second is no longer configured, its removal takes the first from the trie. -/
theorem whole_octets_keep_next_octet :
    parseCidr "2001:db8::/64" = .ok networkDb8 ∧
      parseCidr "2001:db8:0:0:1200::/64" = .ok networkDb8Spelled ∧
      (64 ≤ 67 ∧ networkDb8Spelled.1.addr.getMsbD 67 = true) ∧
      (∀ addr, CidrTextHas "2001:db8::/64" addr ↔ CidrTextHas "2001:db8:0:0:1200::/64" addr) ∧
      networkDb8 ≠ networkDb8Spelled ∧
      ∀ config : Config, config.whitelist = ["2001:db8::/64"] →
        ∀ m, whitelistTries m = [networkDb8, networkDb8Spelled].foldl CidrTries.insert {} →
          (whitelistTries m).Holds networkDb8 ∧
            ¬ (whitelistTries (applyWhitelistMap config
              (m, [networkDb8, networkDb8Spelled])).2.1).Holds networkDb8 := by
  have hfirst : parseCidr "2001:db8::/64" = .ok networkDb8 := by decide +kernel
  have hsecond : parseCidr "2001:db8:0:0:1200::/64" = .ok networkDb8Spelled := by decide +kernel
  refine ⟨hfirst, hsecond, by decide +kernel, ?_, by decide +kernel, ?_⟩
  · intro addr
    rw [cidrTextHas_iff hfirst, cidrTextHas_iff hsecond]
    have hsame : networkDb8.Same networkDb8Spelled := by decide +kernel
    exact (Cidr.same_iff_has (valid_of_accepted hfirst)).1 hsame addr
  · intro config hconfig m hm
    have hnew : configWhitelist config = .ok [networkDb8] := by
      unfold configWhitelist
      rw [hconfig]
      decide +kernel
    have hchanges : whitelistChanges [networkDb8, networkDb8Spelled] [networkDb8] =
        [.remove networkDb8Spelled] := rfl
    have hpossible : Possible (whitelistTries m) [.remove networkDb8Spelled] := by
      rw [hm]
      exact ⟨by decide +kernel, trivial⟩
    rcases applyWhitelistMap_cases hnew m [networkDb8, networkDb8Spelled] with
      ⟨-, hrun⟩ | ⟨pre, c, hstops, -⟩
    · rw [hrun, hchanges, whitelistTries_set, hm]
      exact ⟨by decide +kernel, by decide +kernel⟩
    · rw [hchanges] at hstops
      exact absurd hpossible (not_possible_of_stops hstops)

end EShield.Node
