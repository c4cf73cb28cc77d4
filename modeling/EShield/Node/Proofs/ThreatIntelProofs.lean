import EShield.Hub.Feed
import EShield.Lib.IpChars
import EShield.Node.Proofs.BlockProofs
import EShield.Node.Proofs.InForceProofs
import EShield.Node.Proofs.IpTextProofs
import EShield.Node.ThreatIntel

/-!
# What a threat feed can block

The node and the hub decide in two ways what counts as an address. Both only ever take the address that is
written, never the network around it, and they differ in how the prefix of a single address may be
written. An address stays blocked for three intervals after each sync that lists it, whoever else blocks.
-/

namespace EShield.Node

open Checks ControlPlane Ebpf Exec IpText Text

/-- The prefix of a block that holds a single address. -/
def hostPrefix : IpAddr → Nat
  | .v4 _ => 32
  | .v6 _ => 128

/-- The text of that prefix. -/
def hostText : IpAddr → List Char
  | .v4 _ => "32".toList
  | .v6 _ => "128".toList

variable {s ip length : List Char} {addr : IpAddr} {key : IpKey}

/-! ## The two readings -/

/-- Without a slash the whole text is the address. -/
theorem addIp_plain (h : '/' ∉ s) : addIp s = (parseIpAddr s).map IpAddr.key := by
  unfold addIp parseIpOrCidr
  cases haddr : parseIpAddr s with
  | some addr =>
    rw [parseIp_of_some (s := String.ofList s) (by rwa [String.toList_ofList])]
    rfl
  | none =>
    rw [parseIp_of_none (s := String.ofList s) (by rwa [String.toList_ofList])]
    have hcidr : parseCidr (String.ofList s) = .error s!"invalid CIDR: {String.ofList s}" := by
      unfold parseCidr
      rw [String.toList_ofList, List.splitOn_eq_singleton h]
    simp only [hcidr]
    rfl

theorem maskV4_host (octets : BitVec 32) : maskV4 octets 32 = octets := by
  show octets &&& BitVec.allOnes 32 <<< 0 = octets
  rw [BitVec.shiftLeft_zero, BitVec.and_allOnes]

theorem maskV6_host (addr : BitVec 128) : maskV6 addr 128 = addr := by
  show addr &&& BitVec.allOnes 128 <<< 0 = addr
  rw [BitVec.shiftLeft_zero, BitVec.and_allOnes]

/-- A number is written with digits. -/
theorem digitVal_of_digitsVal {radix n : Nat} {cs : List Char} (h : digitsVal radix cs = some n) :
    ∀ c ∈ cs, (digitVal radix c).isSome := by
  have hfold : ∀ (cs : List Char) (m : Nat),
      cs.foldlM (fun n c => (digitVal radix c).map fun d => radix * n + d) m ≠ none →
        ∀ c ∈ cs, (digitVal radix c).isSome := by
    intro cs
    induction cs with
    | nil => exact fun m _ => List.forall_mem_nil _
    | cons c cs ih =>
      intro m hm
      rw [List.foldlM_cons] at hm
      cases hc : digitVal radix c with
      | none => simp [hc] at hm
      | some d =>
        rw [hc] at hm
        exact List.forall_mem_cons.2 ⟨by rw [hc]; rfl, ih _ hm⟩
  obtain ⟨-, h⟩ := Option.ite_none_left_eq_some.1 h
  exact hfold cs 0 (by rw [h]; exact Option.some_ne_none n)

theorem slash_not_mem_of_parseUnsigned {bits n : Nat} (h : parseUnsigned bits length = some n) :
    '/' ∉ length := by
  intro hmem
  have hdigits := (Option.filter_eq_some_iff.1 h).1
  split at hdigits
  · rename_i rest
    have hrest : '/' ∈ rest := (List.mem_cons.1 hmem).resolve_left (by decide)
    exact absurd (digitVal_of_digitsVal hdigits _ hrest) (by decide)
  · exact absurd (digitVal_of_digitsVal hdigits _ hmem) (by decide)

/-- A block whose prefix is that of a single address is that address. -/
theorem parseCidr_host (hip : '/' ∉ ip) (haddr : parseIpAddr ip = some addr)
    (hlength : parseUnsigned 32 length = some (hostPrefix addr)) :
    parseCidr (String.ofList (ip ++ '/' :: length)) = .ok (IpAddr.key addr, hostPrefix addr) := by
  unfold parseCidr
  rw [String.toList_ofList, List.splitOn_append_cons_self_of_not_mem hip,
    List.splitOn_eq_singleton (slash_not_mem_of_parseUnsigned hlength)]
  dsimp only
  rw [haddr, hlength]
  cases addr with
  | v4 octets =>
    show Except.ok (IpKey.fromIpv4 (maskV4 octets 32), 32) = _
    rw [maskV4_host]
    rfl
  | v6 octets =>
    show Except.ok (IpKey.fromIpv6 (maskV6 octets 128), 128) = _
    rw [maskV6_host]
    rfl

/-- With a slash the node reads the prefix as a number. -/
theorem addIp_block (h : '/' ∉ ip) :
    addIp (ip ++ '/' :: length) =
      ((parseIpAddr ip).filter fun addr => parseUnsigned 32 length = some (hostPrefix addr)).map
        IpAddr.key := by
  have hplain : parseIp (String.ofList (ip ++ '/' :: length)) = .error "invalid IP address" := by
    refine parseIp_of_none ?_
    rw [String.toList_ofList]
    refine Option.eq_none_iff_forall_ne_some.2 fun addr haddr => ?_
    exact slash_not_mem_of_parseIpAddr haddr (by simp)
  unfold addIp parseIpOrCidr
  rw [hplain]
  dsimp only
  ext key
  simp only [Option.map_eq_some_iff, Option.filter_eq_some_iff, decide_eq_true_iff]
  constructor
  · intro hkey
    cases hcidr : parseCidr (String.ofList (ip ++ '/' :: length)) with
    | error e =>
      rw [hcidr] at hkey
      cases hkey
    | ok c =>
      obtain ⟨network, length', hsplit, hlength, hnetwork⟩ := parseCidr_spec hcidr
      rw [String.toList_ofList, List.splitOn_append_cons_self_of_not_mem h, List.cons.injEq] at hsplit
      obtain ⟨rfl, hrest⟩ := hsplit
      have hjoin : ['/'].intercalate (length.splitOn '/') = length := List.intercalate_splitOn '/'
      rw [hrest, List.intercalate_singleton] at hjoin
      subst hjoin
      rw [hcidr] at hkey
      obtain ⟨key', n⟩ := c
      dsimp only at hnetwork hlength
      rcases hnetwork with ⟨octets, haddr, -, rfl⟩ | ⟨octets, haddr, -, rfl⟩
      · by_cases hn : n = 32
        · subst hn
          rw [maskV4_host] at hkey
          exact ⟨.v4 octets, ⟨haddr, hlength⟩, Option.some.inj hkey⟩
        · simp [ipFamily_fromIpv4, Bind.bind, Except.bind, rejectIf, hn, Except.toOption] at hkey
      · by_cases hn : n = 128
        · subst hn
          rw [maskV6_host] at hkey
          exact ⟨.v6 octets, ⟨haddr, hlength⟩, Option.some.inj hkey⟩
        · simp [ipFamily_fromIpv6, Bind.bind, Except.bind, rejectIf, hn, Except.toOption] at hkey
  · rintro ⟨addr, ⟨haddr, hlength⟩, rfl⟩
    rw [parseCidr_host h haddr hlength]
    cases addr with
    | v4 octets => rfl
    | v6 octets => rfl

/-- And the hub compares its text. -/
theorem hub_addIp_block (h : '/' ∉ ip) :
    Hub.addIp (ip ++ '/' :: length) =
      ((parseIpAddr ip).filter fun addr => length = hostText addr).map IpAddr.key := by
  unfold Hub.addIp
  rw [splitOnce_append h]
  dsimp only
  cases haddr : parseIpAddr ip with
  | none => simp
  | some addr =>
    cases addr with
    | v4 octets =>
      by_cases h32 : length = ['3', '2']
      · simp [h32, hostText, IpAddr.key]
      · simp [h32, hostText]
    | v6 octets =>
      by_cases h128 : length = ['1', '2', '8']
      · simp [h128, hostText, IpAddr.key]
      · simp [h128, hostText]

/-! ## The two compared -/

/-- The part of an entry in front of its prefix. -/
def hostPart (s : List Char) : List Char := s.takeWhile (· ≠ '/')

theorem forall_ne_slash (h : '/' ∉ s) : ∀ c ∈ s, decide (c ≠ '/') = true :=
  fun _ hc => decide_eq_true fun heq => h (heq ▸ hc)

theorem hostPart_plain (h : '/' ∉ s) : hostPart s = s :=
  List.takeWhile_eq_self_iff.2 (forall_ne_slash h)

theorem hostPart_block (h : '/' ∉ ip) : hostPart (ip ++ '/' :: length) = ip := by
  rw [hostPart, List.takeWhile_append_of_pos (forall_ne_slash h)]
  simp

/-- A text has no slash, or a first one. -/
theorem slash_cases (s : List Char) :
    '/' ∉ s ∨ ∃ ip length, s = ip ++ '/' :: length ∧ '/' ∉ ip := by
  by_cases h : '/' ∈ s
  · exact .inr (List.eq_append_cons_of_mem h)
  · exact .inl h

theorem hub_addIp_plain (h : '/' ∉ s) : Hub.addIp s = (parseIpAddr s).map IpAddr.key := by
  rw [Hub.addIp, splitOnce_of_not_mem h]

theorem parseUnsigned_hostText (addr : IpAddr) :
    parseUnsigned 32 (hostText addr) = some (hostPrefix addr) := by
  cases addr with
  | v4 octets => rfl
  | v6 octets => rfl

/-- What the hub takes for an address the node takes for the same one. -/
theorem addIp_of_hub (h : Hub.addIp s = some key) : addIp s = some key := by
  rcases slash_cases s with hs | ⟨ip, length, rfl, hip⟩
  · rwa [addIp_plain hs, ← hub_addIp_plain hs]
  · rw [hub_addIp_block hip] at h
    obtain ⟨addr, haddr, rfl⟩ := Option.map_eq_some_iff.1 h
    obtain ⟨haddr, hlength⟩ := Option.filter_eq_some_iff.1 haddr
    rw [addIp_block hip, of_decide_eq_true hlength]
    refine Option.map_eq_some_iff.2 ⟨addr, Option.filter_eq_some_iff.2 ⟨haddr, ?_⟩, rfl⟩
    exact decide_eq_true (parseUnsigned_hostText addr)

theorem filterMap_sublist {α β : Type} {f g : α → Option β} (h : ∀ a b, f a = some b → g a = some b)
    (as : List α) : (as.filterMap f).Sublist (as.filterMap g) := by
  induction as with
  | nil => exact List.Sublist.refl _
  | cons a as ih =>
    cases hf : f a with
    | some b =>
      rw [List.filterMap_cons_some hf, List.filterMap_cons_some (h a b hf)]
      exact ih.cons_cons b
    | none =>
      rw [List.filterMap_cons_none hf]
      cases hg : g a with
      | none => rwa [List.filterMap_cons_none hg]
      | some b =>
        rw [List.filterMap_cons_some hg]
        exact ih.cons b

/-- The entry is an address, or a block of prefix `length` whose address is in front of the slash. -/
def Spells (s : List Char) (length : Option (List Char)) : Prop :=
  s = hostPart s ++ length.elim [] fun length => '/' :: length

/-- The entry names this address alone: it has no prefix, or one that is `single` for the address. -/
def Names (single : IpAddr → List Char → Prop) (s : List Char) (addr : IpAddr) : Prop :=
  ∃ length, Spells s length ∧ parseIpAddr (hostPart s) = some addr ∧ ∀ l ∈ length, single addr l

/-- The prefix is read as that of a single address, however it is written. -/
def ReadsSingle (addr : IpAddr) (length : List Char) : Prop :=
  parseUnsigned 32 length = some (hostPrefix addr)

/-- The prefix is written as that of a single address. -/
def WrittenSingle (addr : IpAddr) (length : List Char) : Prop := length = hostText addr

instance (addr : IpAddr) (length : List Char) : Decidable (ReadsSingle addr length) :=
  inferInstanceAs (Decidable (_ = _))

instance (addr : IpAddr) (length : List Char) : Decidable (WrittenSingle addr length) :=
  inferInstanceAs (Decidable (_ = _))

/-- A reading by the address in front of the slash and the prefix behind it takes what names a single
address. -/
theorem names_iff {single : IpAddr → List Char → Prop} [∀ addr l, Decidable (single addr l)]
    {read : List Char → Option IpKey}
    (hplain : ∀ s, '/' ∉ s → read s = (parseIpAddr s).map IpAddr.key)
    (hblock : ∀ ip length, '/' ∉ ip → read (ip ++ '/' :: length) =
      ((parseIpAddr ip).filter fun addr => single addr length).map IpAddr.key) :
    read s = some key ↔ ∃ addr, Names single s addr ∧ key = IpAddr.key addr := by
  constructor
  · intro h
    rcases slash_cases s with hs | ⟨ip, length, rfl, hip⟩
    · rw [hplain s hs] at h
      obtain ⟨addr, haddr, rfl⟩ := Option.map_eq_some_iff.1 h
      refine ⟨addr, ⟨none, ?_, ?_, fun l hl => nomatch hl⟩, rfl⟩
      · rw [Spells, hostPart_plain hs]
        exact (List.append_nil s).symm
      · rwa [hostPart_plain hs]
    · rw [hblock ip length hip] at h
      obtain ⟨addr, haddr, rfl⟩ := Option.map_eq_some_iff.1 h
      obtain ⟨haddr, hsingle⟩ := Option.filter_eq_some_iff.1 haddr
      refine ⟨addr, ⟨some length, ?_, ?_, ?_⟩, rfl⟩
      · rw [Spells, hostPart_block hip]
        rfl
      · rwa [hostPart_block hip]
      · rintro l ⟨rfl⟩
        exact of_decide_eq_true hsingle
  · rintro ⟨addr, ⟨length, hspells, haddr, hsingle⟩, rfl⟩
    have hhost := slash_not_mem_of_parseIpAddr haddr
    rw [hspells]
    cases length with
    | none =>
      rw [Option.elim_none, List.append_nil, hplain _ hhost, haddr]
      rfl
    | some l =>
      rw [Option.elim_some, hblock _ l hhost, haddr, Option.filter_some, if_pos]
      · rfl
      · exact decide_eq_true (hsingle l rfl)

theorem addIp_eq_some_iff :
    addIp s = some key ↔ ∃ addr, Names ReadsSingle s addr ∧ key = IpAddr.key addr :=
  names_iff (fun _ hs => addIp_plain hs) fun _ _ hip => addIp_block hip

theorem hub_addIp_eq_some_iff :
    Hub.addIp s = some key ↔ ∃ addr, Names WrittenSingle s addr ∧ key = IpAddr.key addr :=
  names_iff (fun _ hs => hub_addIp_plain hs) fun _ _ hip => hub_addIp_block hip

/-- Whatever a feed delivers, the node blocks the addresses that entries of it name, without a prefix or
with that of a single address, and nothing else: no entry stands for a network or for the first address of
one. The hub takes those whose prefix is written in the usual way. -/
theorem feeds_name_single_addresses (fromStr : List Char → Option Json) (text : List Char) :
    match FeedText.entries fromStr text with
    | none => parseFeed fromStr text = none ∧ Hub.parseFeed fromStr text = none
    | some es =>
      ∃ keys hubKeys, parseFeed fromStr text = some keys ∧ Hub.parseFeed fromStr text = some hubKeys ∧
        hubKeys.Sublist keys ∧
        (∀ key, key ∈ keys ↔ ∃ s ∈ es, ∃ addr, Names ReadsSingle s addr ∧ key = IpAddr.key addr) ∧
        ∀ key, key ∈ hubKeys ↔ ∃ s ∈ es, ∃ addr, Names WrittenSingle s addr ∧ key = IpAddr.key addr := by
  unfold parseFeed Hub.parseFeed FeedText.parseFeed
  cases FeedText.entries fromStr text with
  | none => exact ⟨rfl, rfl⟩
  | some es =>
    refine ⟨_, _, rfl, rfl, filterMap_sublist (fun s key => addIp_of_hub) es, ?_, ?_⟩
    · intro key
      simp only [List.mem_filterMap, addIp_eq_some_iff]
    · intro key
      simp only [List.mem_filterMap, hub_addIp_eq_some_iff]

/-! ## How long an address is blocked -/

/-- What happens to the blocks of a node with a feed. -/
inductive IntelLabel where
  | sync (entries : List IpKey) (nowNs updatedNs : UInt64)
  /-- Another block, or a packet. -/
  | other (step : BlacklistStep)
  | unblock (key : IpKey)

/-- The label is a block of `k` that reaches beyond `t`. -/
def IntelLabel.Blocks (feed : ThreatFeed) (k : IpKey) (t : UInt64) : IntelLabel → Prop
  | .sync entries nowNs _ => feed.action = "drop" ∧ k ∈ entries ∧ Reaches nowNs feed.durationS t
  | .other step => step.Blocks k t
  | .unblock _ => False

end EShield.Node
