import EShield.Ebpf.Proofs.ParserProofs
import EShield.Ebpf.Proofs.ProjectProofs
import EShield.Lib.LastWrite
import EShield.Node.Policies

/-!
# Protection projects from text to policy

The lookup of the data plane is compared with the projects as they are written: a project covers a
packet by destination, port and protocol, and the most specific one that does governs it, of equally
specific ones the last.
-/

namespace EShield.Node

open Checks Ebpf IpText LastWrite Text

/-! ## What a project says -/

/-- The IPv4 block that a target names, as it is written. -/
def targetBlock (ip : String) : Option (BitVec 32 × Nat) :=
  match parseIpAddr ip.toList with
  | some (.v4 addr) => some (addr, 32)
  | some (.v6 _) => none
  | none =>
    match ip.toList.splitOn '/' with
    | [network, length] =>
      match parseIpAddr network, parseUnsigned 32 length with
      | some (.v4 addr), some prefixLen => some (addr, prefixLen)
      | _, _ => none
    | _ => none

/-- The two addresses agree on the bits of the block's prefix. -/
def BlockContains (block : BitVec 32 × Nat) (addr : BitVec 32) : Prop :=
  addr >>> (32 - block.2) = block.1 >>> (32 - block.2)

/-- The number of addresses that a target stands for in the map. -/
def targetSize (ip : String) : Nat :=
  match targetBlock ip with
  | some block => 2 ^ (32 - block.2)
  | none => 0

namespace ProtectionProject

/-- The port of a project, 0 for every port. -/
def portNumber (proj : ProtectionProject) : UInt16 :=
  if proj.dport = "any" then 0 else (parsePort proj.dport.toList).getD 0

/-- The protocol of a project, 0 for every protocol. -/
def protoNumber (proj : ProtectionProject) : UInt8 := (protocolNumber proj.protocol).getD 0

def policy (proj : ProtectionProject) : ProjectPolicy :=
  { flags := (proj.enabledModules.filterMap moduleFlag).foldl (· ||| ·) 0
    action := (projectActionNumber proj.action).getD 0 }

def CoversAddr (proj : ProtectionProject) (addr : BitVec 32) : Prop :=
  ∃ ip ∈ proj.targetIps, ∃ block, targetBlock ip = some block ∧ BlockContains block addr

/-- The project covers packets of `protocol` to `addr` and `dport`. -/
def Covers (proj : ProtectionProject) (addr : BitVec 32) (dport : UInt16) (protocol : UInt8) :
    Prop :=
  proj.CoversAddr addr ∧ (proj.portNumber = 0 ∨ proj.portNumber = dport) ∧
    (proj.protoNumber = 0 ∨ proj.protoNumber = protocol)

/-- An exact port counts more than an exact protocol. -/
def specificity (proj : ProtectionProject) : Nat :=
  (if proj.portNumber = 0 then 0 else 2) + (if proj.protoNumber = 0 then 0 else 1)

/-- The number of addresses that a project takes in the map. -/
def size (proj : ProtectionProject) : Nat := (proj.targetIps.map targetSize).sum

end ProtectionProject

/-- Project number `i` is the most specific one that covers the packet, the last of several. -/
def Governs (projects : List ProtectionProject) (addr : BitVec 32) (dport : UInt16)
    (protocol : UInt8) (i : Nat) (proj : ProtectionProject) : Prop :=
  projects[i]? = some proj ∧ proj.Covers addr dport protocol ∧
    ∀ j other, projects[j]? = some other → other.Covers addr dport protocol →
      other.specificity < proj.specificity ∨ other.specificity = proj.specificity ∧ j ≤ i

/-! ## Blocks -/

/-- The addresses of a block are those that its expansion runs through. -/
theorem mem_block_iff (a addr : BitVec 32) (n : Nat) :
    (∃ host < 2 ^ n, (addr &&& (BitVec.allOnes 32 <<< n)) ||| BitVec.ofNat 32 host = a) ↔
      a >>> n = addr >>> n := by
  constructor
  · rintro ⟨host, hhost, rfl⟩
    refine BitVec.eq_of_getLsbD_eq fun k hk => ?_
    have hlow : host.testBit (n + k) = false :=
      Nat.testBit_lt_two_pow (lt_of_lt_of_le hhost (Nat.pow_le_pow_right (by omega) (by omega)))
    simp only [BitVec.getLsbD_ushiftRight, BitVec.getLsbD_or, BitVec.getLsbD_and,
      BitVec.getLsbD_shiftLeft, BitVec.getLsbD_allOnes, BitVec.getLsbD_ofNat, hlow]
    by_cases hn : n + k < 32
    · simp [hn, hk]
    · simp [hn, BitVec.getLsbD_of_ge addr (n + k) (not_lt.1 hn)]
  · intro h
    refine ⟨a.toNat % 2 ^ n, Nat.mod_lt _ (Nat.two_pow_pos n), ?_⟩
    refine BitVec.eq_of_getLsbD_eq fun k hk => ?_
    simp only [BitVec.getLsbD_or, BitVec.getLsbD_and, BitVec.getLsbD_shiftLeft,
      BitVec.getLsbD_allOnes, BitVec.getLsbD_ofNat, Nat.testBit_mod_two_pow,
      BitVec.testBit_toNat]
    by_cases hkn : k < n
    · simp [hkn, hk]
    · have hbit := congrArg (fun x => BitVec.getLsbD x (k - n)) h
      simp only [BitVec.getLsbD_ushiftRight] at hbit
      rw [Nat.add_sub_cancel' (not_lt.1 hkn)] at hbit
      have hshift : k - n < 32 := by omega
      rw [hbit]
      simp [hkn, hk, hshift]

/-- A target of an accepted project is an IPv4 block of at most 256 addresses, or none at all. -/
theorem parseTarget_of_valid {i j : Nat} {ip : String} {ipv4 : Bool}
    (h : validateTarget i j ip = .ok ipv4) :
    (∃ addr prefixLen, targetBlock ip = some (addr, prefixLen) ∧ 24 ≤ prefixLen ∧
        ∀ i, parseTarget i ip = .ok (.fromIpv4 (maskV4 addr prefixLen), prefixLen)) ∨
      targetBlock ip = none ∧ ∀ i, ∃ c, parseTarget i ip = .ok c ∧ c.1.ipFamily ≠ some .ipv4 := by
  unfold validateTarget at h
  unfold parseTarget targetBlock
  cases haddr : parseIpAddr ip.toList with
  | some addr =>
    rw [parseIp_of_some haddr] at h ⊢
    cases addr with
    | v4 addr =>
      refine .inl ⟨addr, 32, rfl, by omega, fun i => ?_⟩
      have hmask : maskV4 addr 32 = addr := by
        show addr &&& BitVec.allOnes 32 = addr
        exact BitVec.and_allOnes
      rw [hmask]
      rfl
    | v6 addr => exact .inr ⟨rfl, fun i => ⟨_, rfl, by simp [IpAddr.key]⟩⟩
  | none =>
    rw [parseIp_of_none haddr] at h ⊢
    obtain ⟨⟨key, prefixLen⟩, hcidr, h⟩ := bind_eq_ok.1 h
    dsimp only at h
    have hparsed : parseCidr ip = .ok (key, prefixLen) := by
      cases hp : parseCidr ip with
      | error e =>
        rw [hp] at hcidr
        cases hcidr
      | ok c =>
        rw [hp] at hcidr
        exact hcidr
    have htarget : ∀ i : Nat, (parseCidr ip).mapError (fun _ =>
        s!"protection_projects[{i}]: invalid target '{ip}'") = .ok (key, prefixLen) := fun i => by
      rw [hparsed]
      rfl
    obtain ⟨network, length, hsplit, hlength, hkey⟩ := parseCidr_spec hparsed
    rcases hkey with ⟨addr, hnetwork, -, hkey⟩ | ⟨addr, hnetwork, -, hkey⟩
    · have hfamily : key.ipFamily = some .ipv4 := by
        rw [show key = .fromIpv4 (maskV4 addr prefixLen) from hkey]
        rfl
      rw [if_pos hfamily] at h
      obtain ⟨hbroad, -⟩ := check_bind_eq_ok.1 h
      refine .inl ⟨addr, prefixLen, ?_, not_lt.1 (rejectIf_eq_ok.1 hbroad), fun i => ?_⟩
      · rw [hsplit]
        simp only [hnetwork, hlength]
      · rw [htarget i, show key = .fromIpv4 (maskV4 addr prefixLen) from hkey]
    · refine .inr ⟨?_, fun i => ⟨_, htarget i, ?_⟩⟩
      · rw [hsplit]
        simp only [hnetwork]
      · rw [show key = .fromIpv6 (maskV6 addr prefixLen) from hkey]
        simp

/-! ## Expansion -/

/-- The entries of a target. -/
def targetEntries (head : ProjectHead) (ip : String) : List ProjectEntry :=
  match targetBlock ip with
  | some (addr, prefixLen) => expandBlock head (maskV4 addr prefixLen) (2 ^ (32 - prefixLen))
  | none => []

theorem length_targetEntries (head : ProjectHead) (ip : String) :
    (targetEntries head ip).length = targetSize ip := by
  unfold targetEntries targetSize
  cases targetBlock ip with
  | none => rfl
  | some block => simp [expandBlock]

/-- The entries of a project. -/
def ProtectionProject.entries (proj : ProtectionProject) : List ProjectEntry :=
  proj.targetIps.flatMap
    (targetEntries
      { protocol := proj.protoNumber, dport := proj.portNumber, policy := proj.policy })

theorem ProtectionProject.length_entries (proj : ProtectionProject) :
    proj.entries.length = proj.size := by
  unfold entries size
  rw [List.length_flatMap]
  congr 1
  exact List.map_congr_left fun ip _ => length_targetEntries _ ip

theorem expandTarget_of_valid {i j k : Nat} {ip : String} {ipv4 : Bool}
    (h : validateTarget i j ip = .ok ipv4) (head : ProjectHead) (entries : List ProjectEntry)
    (hfits : entries.length + targetSize ip ≤ MAX_ENTRIES) :
    expandTarget k head entries ip = .ok (entries ++ targetEntries head ip) := by
  unfold expandTarget targetEntries
  unfold targetSize at hfits
  rcases parseTarget_of_valid h with ⟨addr, prefixLen, hblock, hlen, hparse⟩ | ⟨hblock, hparse⟩
  · rw [hblock] at hfits ⊢
    rw [hparse k]
    have hroom : ¬ entries.length + 2 ^ (32 - prefixLen) > MAX_ENTRIES := not_lt.2 hfits
    show (do
      rejectIf (prefixLen < 24) _
      rejectIf (entries.length + 2 ^ (32 - prefixLen) > MAX_ENTRIES) _
      return entries ++ expandBlock head
        (IpKey.fromIpv4 (maskV4 addr prefixLen)).ipv4 (2 ^ (32 - prefixLen))) = Except.ok _
    rw [rejectIf_neg (not_lt.2 hlen), rejectIf_neg hroom, ipv4_fromIpv4]
    rfl
  · obtain ⟨c, hc, hfamily⟩ := hparse k
    rw [hblock, hc, List.append_nil]
    show (if c.1.ipFamily ≠ some .ipv4 then pure entries else _) = _
    rw [if_pos hfamily]
    rfl

theorem expandTargets_of_valid {i k : Nat} {ips : List String}
    (h : ∀ ip ∈ ips, ∃ j ipv4, validateTarget i j ip = .ok ipv4) (head : ProjectHead)
    (entries : List ProjectEntry)
    (hfits : entries.length + (ips.map targetSize).sum ≤ MAX_ENTRIES) :
    ips.foldlM (expandTarget k head) entries =
      .ok (entries ++ ips.flatMap (targetEntries head)) := by
  induction ips generalizing entries with
  | nil => exact congrArg Except.ok (List.append_nil entries).symm
  | cons ip ips ih =>
    obtain ⟨⟨j, ipv4, hvalid⟩, hips⟩ := List.forall_mem_cons.1 h
    rw [List.map_cons, List.sum_cons] at hfits
    have hfirst : entries.length + targetSize ip ≤ MAX_ENTRIES := by omega
    have hrest : (entries ++ targetEntries head ip).length + (ips.map targetSize).sum ≤
        MAX_ENTRIES := by
      rw [List.length_append, length_targetEntries]
      omega
    rw [List.foldlM_cons, expandTarget_of_valid hvalid head entries hfirst, List.flatMap_cons,
      ← List.append_assoc]
    exact ih hips _ hrest

/-- What the checks of a project establish. -/
theorem validateProtectionProject_spec {i : Nat} {proj : ProtectionProject}
    (h : validateProtectionProject i proj = .ok ()) :
    projectHead i proj =
        .ok { protocol := proj.protoNumber, dport := proj.portNumber, policy := proj.policy } ∧
      ∀ ip ∈ proj.targetIps, ∃ j ipv4, validateTarget i j ip = .ok ipv4 := by
  unfold validateProtectionProject at h
  obtain ⟨-, h⟩ := check_bind_eq_ok.1 h
  obtain ⟨hproto, h⟩ := check_bind_eq_ok.1 h
  obtain ⟨-, h⟩ := check_bind_eq_ok.1 h
  obtain ⟨hport, h⟩ := check_bind_eq_ok.1 h
  obtain ⟨haction, h⟩ := check_bind_eq_ok.1 h
  obtain ⟨-, h⟩ := check_bind_eq_ok.1 h
  obtain ⟨-, h⟩ := check_bind_eq_ok.1 h
  obtain ⟨families, hfamilies, -⟩ := bind_eq_ok.1 h
  rw [rejectIf_eq_ok] at hproto hport haction
  obtain ⟨protocol, hproto⟩ := Option.ne_none_iff_exists'.1 hproto
  obtain ⟨action, haction⟩ := Option.ne_none_iff_exists'.1 haction
  constructor
  · unfold projectHead ProtectionProject.protoNumber ProtectionProject.portNumber
      ProtectionProject.policy
    rw [hproto, haction]
    by_cases hany : proj.dport = "any"
    · simp only [if_pos hany]
      rfl
    · obtain ⟨dport, hport⟩ := Option.ne_none_iff_exists'.1 fun hnone => hport ⟨hany, hnone⟩
      simp only [if_neg hany, hport]
      rfl
  · intro ip hip
    obtain ⟨j, hj⟩ := List.getElem?_of_mem hip
    have hmem : (ip, j) ∈ proj.targetIps.zipIdx := List.mem_zipIdx_iff_getElem?.2 hj
    obtain ⟨ipv4, hipv4⟩ := mapM_eq_ok_mem hfamilies hmem
    exact ⟨j, ipv4, hipv4⟩

theorem foldlM_expandProject {projects : List (ProtectionProject × Nat)}
    (hvalid : ∀ proj ∈ projects, validateProtectionProject proj.2 proj.1 = .ok ())
    (entries : List ProjectEntry)
    (hfits : entries.length + (projects.map fun proj => proj.1.size).sum ≤ MAX_ENTRIES) :
    projects.foldlM expandProject entries =
      .ok (entries ++ projects.flatMap fun proj => proj.1.entries) := by
  induction projects generalizing entries with
  | nil => exact congrArg Except.ok (List.append_nil entries).symm
  | cons proj projects ih =>
    obtain ⟨hproj, hprojects⟩ := List.forall_mem_cons.1 hvalid
    obtain ⟨hhead, htargets⟩ := validateProtectionProject_spec hproj
    rw [List.map_cons, List.sum_cons] at hfits
    have hfirst : entries.length + proj.1.size ≤ MAX_ENTRIES := by omega
    have hexpand : expandProject entries proj = .ok (entries ++ proj.1.entries) := by
      unfold expandProject
      rw [hhead]
      exact expandTargets_of_valid htargets _ _ hfirst
    rw [List.foldlM_cons, hexpand, List.flatMap_cons, ← List.append_assoc]
    refine ih hprojects _ ?_
    rw [List.length_append, ProtectionProject.length_entries]
    omega

/-- The expansion of a valid list that fits into the map. -/
theorem expandProjects_of_valid {projects : List ProtectionProject}
    (hvalid : validateProtectionProjectsList projects = .ok ())
    (hfits : (projects.map ProtectionProject.size).sum ≤ MAX_ENTRIES) :
    expandProjects projects = .ok (projects.flatMap ProtectionProject.entries) := by
  obtain ⟨-, hvalid⟩ := check_bind_eq_ok.1 hvalid
  have hentries := List.flatMap_map Prod.fst ProtectionProject.entries projects.zipIdx
  have hsize := List.map_map (f := Prod.fst) (g := ProtectionProject.size) (l := projects.zipIdx)
  rw [List.zipIdx_map_fst] at hentries hsize
  rw [hsize] at hfits
  rw [hentries]
  have hroom : ([] : List ProjectEntry).length +
      (projects.zipIdx.map fun proj => proj.1.size).sum ≤ MAX_ENTRIES := by
    rw [List.length_nil, Nat.zero_add]
    exact hfits
  exact foldlM_expandProject (all_eq_ok.1 hvalid) [] hroom

/-! ## The map -/

/-- The key of an address, a port and a protocol, in the byte order of the packet. -/
def projectKey (addr : BitVec 32) (dport : UInt16) (protocol : UInt8) : ProjectPolicyKey :=
  { addr := bswap32 (.ofBitVec addr), dport := bswap16 dport, protocol := protocol }

theorem projectKey_inj {a a' : BitVec 32} {p p' : UInt16} {q q' : UInt8} :
    projectKey a p q = projectKey a' p' q' ↔ a = a' ∧ p = p' ∧ q = q' := by
  constructor
  · intro h
    have haddr := congrArg (fun k => (bswap32 k.addr).toBitVec) h
    have hdport := congrArg (fun k => bswap16 k.dport) h
    have hprotocol := congrArg ProjectPolicyKey.protocol h
    simp only [projectKey, bswap32_bswap32, bswap16_bswap16] at haddr hdport hprotocol
    exact ⟨haddr, hdport, hprotocol⟩
  · rintro ⟨rfl, rfl, rfl⟩
    rfl

theorem mem_targetEntries_iff (head : ProjectHead) (ip : String) (e : ProjectEntry) :
    e ∈ targetEntries head ip ↔
      ∃ addr, (∃ block, targetBlock ip = some block ∧ BlockContains block addr) ∧
        e = (projectKey addr head.dport head.protocol, head.policy) := by
  unfold targetEntries
  cases targetBlock ip with
  | none => simp
  | some block =>
    obtain ⟨network, prefixLen⟩ := block
    have hmask : maskV4 network prefixLen =
        network &&& BitVec.allOnes 32 <<< (32 - prefixLen) := by
      unfold maskV4
      split
      · rename_i hzero
        rw [hzero]
        rfl
      · rfl
    have hmem := fun addr => mem_block_iff addr network (32 - prefixLen)
    unfold expandBlock
    simp only [List.mem_map, List.mem_range, hmask, Option.some.injEq, exists_eq_left']
    constructor
    · rintro ⟨host, hhost, rfl⟩
      exact ⟨_, (hmem _).1 ⟨host, hhost, rfl⟩, rfl⟩
    · rintro ⟨addr, hcontains, rfl⟩
      obtain ⟨host, hhost, rfl⟩ := (hmem addr).2 hcontains
      exact ⟨host, hhost, rfl⟩

theorem ProtectionProject.mem_entries_iff (proj : ProtectionProject) (e : ProjectEntry) :
    e ∈ proj.entries ↔
      ∃ addr, proj.CoversAddr addr ∧
        e = (projectKey addr proj.portNumber proj.protoNumber, proj.policy) := by
  unfold entries CoversAddr
  simp only [List.mem_flatMap, mem_targetEntries_iff]
  constructor
  · rintro ⟨ip, hip, addr, hblock, he⟩
    exact ⟨addr, ⟨ip, hip, hblock⟩, he⟩
  · rintro ⟨addr, ⟨ip, hip, hblock⟩, he⟩
    exact ⟨ip, hip, addr, hblock, he⟩

/-- The entries of the project stand under this port and protocol, one of them for the address. -/
def ProtectionProject.InClass (addr : BitVec 32) (dport : UInt16) (protocol : UInt8)
    (proj : ProtectionProject) : Prop :=
  proj.CoversAddr addr ∧ proj.portNumber = dport ∧ proj.protoNumber = protocol

open scoped Classical in
/-- What a project leaves at a key. -/
theorem foldl_insert_entries (proj : ProtectionProject)
    (policies : LruHashMap ProjectPolicyKey ProjectPolicy) (addr : BitVec 32) (dport : UInt16)
    (protocol : UInt8) :
    proj.entries.foldl (fun policies e => policies.insert e.1 e.2) policies
        (projectKey addr dport protocol) =
      if proj.InClass addr dport protocol then some proj.policy
      else policies (projectKey addr dport protocol) := by
  have hlast := foldl_eq_lastOf (p := fun e : ProjectEntry => e.1 = projectKey addr dport protocol)
    (fun policies e => policies.insert e.1 e.2)
    (fun policies : LruHashMap ProjectPolicyKey ProjectPolicy =>
      policies (projectKey addr dport protocol))
    (fun e => some e.2) (fun policies e he => by rw [← he, LruHashMap.insert_self])
    (fun policies e he => LruHashMap.insert_of_ne policies e.2 (Ne.symm he)) policies proj.entries
  rw [hlast]
  by_cases hclass : proj.InClass addr dport protocol
  · obtain ⟨haddr, rfl, rfl⟩ := hclass
    rw [if_pos ⟨haddr, rfl, rfl⟩]
    cases hfound : lastOf (fun e : ProjectEntry =>
        e.1 = projectKey addr proj.portNumber proj.protoNumber) proj.entries with
    | none =>
      have hmem := (proj.mem_entries_iff _).2 ⟨addr, haddr, rfl⟩
      exact absurd rfl (lastOf_eq_none_iff.1 hfound _ hmem)
    | some e =>
      obtain ⟨pre, post, hsplit, -, -⟩ := lastOf_eq_some_iff.1 hfound
      have hmem : e ∈ proj.entries := by
        rw [hsplit]
        simp
      obtain ⟨-, -, rfl⟩ := (proj.mem_entries_iff e).1 hmem
      rfl
  · rw [if_neg hclass]
    have hnone : lastOf (fun e : ProjectEntry => e.1 = projectKey addr dport protocol)
        proj.entries = none := by
      refine lastOf_eq_none_iff.2 fun e he hkey => hclass ?_
      obtain ⟨a, haddr, rfl⟩ := (proj.mem_entries_iff e).1 he
      obtain ⟨rfl, rfl, rfl⟩ := projectKey_inj.1 hkey
      exact ⟨haddr, rfl, rfl⟩
    rw [hnone]
    rfl

open scoped Classical in
/-- The map holds the policy of the last project whose entries have the key. -/
theorem projectPolicy_writeProjects (projects : List ProtectionProject) (m : Maps)
    (addr : BitVec 32) (dport : UInt16) (protocol : UInt8) :
    (writeProjects (projects.flatMap ProtectionProject.entries) m).projectPolicy
        (projectKey addr dport protocol) =
      (lastOf (ProtectionProject.InClass addr dport protocol) projects).map
        ProtectionProject.policy := by
  unfold writeProjects
  dsimp only
  rw [List.foldl_flatMap]
  have hlast := foldl_eq_lastOf (p := ProtectionProject.InClass addr dport protocol)
    (fun policies (proj : ProtectionProject) =>
      proj.entries.foldl (fun policies e => policies.insert e.1 e.2) policies)
    (fun policies : LruHashMap ProjectPolicyKey ProjectPolicy =>
      policies (projectKey addr dport protocol))
    (fun proj => some proj.policy)
    (fun policies proj hclass => by rw [foldl_insert_entries, if_pos hclass])
    (fun policies proj hclass => by rw [foldl_insert_entries, if_neg hclass]) .empty projects
  rw [hlast]
  cases lastOf (ProtectionProject.InClass addr dport protocol) projects with
  | none => rfl
  | some proj => rfl

/-! ## The lookup -/

section Lookup

variable {projects : List ProtectionProject} {addr : BitVec 32} {dport : UInt16}
  {protocol : UInt8} {proj : ProtectionProject}

/-- The keys of a lookup, the most specific one first. -/
def lookupClasses (dport : UInt16) (protocol : UInt8) : List (UInt16 × UInt8) :=
  [(dport, protocol), (dport, 0), (0, protocol), (0, 0)]

theorem covers_iff :
    proj.Covers addr dport protocol ↔
      ∃ k ∈ lookupClasses dport protocol, proj.InClass addr k.1 k.2 := by
  unfold ProtectionProject.Covers ProtectionProject.InClass lookupClasses
  constructor
  · rintro ⟨haddr, hport, hproto⟩
    refine ⟨(proj.portNumber, proj.protoNumber), ?_, haddr, rfl, rfl⟩
    rcases hport with hport | hport <;> rcases hproto with hproto | hproto <;>
      simp [hport, hproto]
  · rintro ⟨⟨p, q⟩, hk, haddr, rfl, rfl⟩
    simp only [List.mem_cons, List.not_mem_nil, or_false, Prod.mk.injEq] at hk
    refine ⟨haddr, ?_, ?_⟩
    · rcases hk with hk | hk | hk | hk
      · exact .inr hk.1
      · exact .inr hk.1
      · exact .inl hk.1
      · exact .inl hk.1
    · rcases hk with hk | hk | hk | hk
      · exact .inr hk.2
      · exact .inl hk.2
      · exact .inr hk.2
      · exact .inl hk.2

/-- The specificity of the projects of a key. -/
def classSpecificity (k : UInt16 × UInt8) : Nat :=
  (if k.1 = 0 then 0 else 2) + (if k.2 = 0 then 0 else 1)

theorem specificity_of_inClass {k : UInt16 × UInt8} (h : proj.InClass addr k.1 k.2) :
    proj.specificity = classSpecificity k := by
  unfold ProtectionProject.specificity classSpecificity
  rw [h.2.1, h.2.2]

/-- A key is less specific than those in front of it, unless it is one of them. -/
theorem classSpecificity_lt {pre post : List (UInt16 × UInt8)} {k k' : UInt16 × UInt8}
    (hsplit : lookupClasses dport protocol = pre ++ k :: post) (hk' : k' ∈ post)
    (hpre : k' ∉ pre) (hne : k' ≠ k) : classSpecificity k' < classSpecificity k := by
  unfold lookupClasses at hsplit
  obtain ⟨p', q'⟩ := k'
  rcases pre with _ | ⟨a, _ | ⟨b, _ | ⟨c, _ | ⟨d, pre⟩⟩⟩⟩
  · cases hsplit
    unfold classSpecificity
    grind
  · cases hsplit
    unfold classSpecificity
    grind
  · cases hsplit
    unfold classSpecificity
    grind
  · cases hsplit
    cases hk'
  · simp at hsplit

/-- What the data plane has to find for a packet: the policy of the governing project, or none. -/
def PolicyFor (projects : List ProtectionProject) (addr : BitVec 32) (dport : UInt16)
    (protocol : UInt8) : Option ProjectPolicy → Prop
  | some policy => ∃ i proj, Governs projects addr dport protocol i proj ∧ proj.policy = policy
  | none => ∀ proj ∈ projects, ¬ proj.Covers addr dport protocol

/-- The last project of the first key that has one governs the packet. -/
theorem governs_of_lastOf {pre post : List (UInt16 × UInt8)} {k : UInt16 × UInt8}
    (hsplit : lookupClasses dport protocol = pre ++ k :: post)
    (hpre : ∀ k' ∈ pre, ∀ other ∈ projects, ¬ other.InClass addr k'.1 k'.2)
    {i : Nat} (hi : projects[i]? = some proj) (hclass : proj.InClass addr k.1 k.2)
    (hlast : ∀ (j : Nat) other, projects[j]? = some other → other.InClass addr k.1 k.2 → j ≤ i) :
    Governs projects addr dport protocol i proj := by
  have hk : k ∈ lookupClasses dport protocol := by
    rw [hsplit]
    simp
  refine ⟨hi, covers_iff.2 ⟨k, hk, hclass⟩, fun j other hj hcovers => ?_⟩
  obtain ⟨k', hk', hother⟩ := covers_iff.1 hcovers
  have hnotpre : k' ∉ pre := fun hmem => hpre k' hmem other (List.mem_of_getElem? hj) hother
  rw [specificity_of_inClass hclass, specificity_of_inClass hother]
  by_cases hsame : k' = k
  · rw [hsame] at hother
    exact .inr ⟨congrArg classSpecificity hsame, hlast j other hj hother⟩
  · rw [hsplit] at hk'
    have hpost : k' ∈ post := by
      simpa [hnotpre, hsame] using hk'
    exact .inl (classSpecificity_lt hsplit hpost hnotpre hsame)

theorem lookupProject_writeProjects (projects : List ProtectionProject) (m : Maps)
    (addr : UInt32) (dport : UInt16) (protocol : UInt8) :
    PolicyFor projects (toNeBytes addr) dport protocol
      (lookupProject (writeProjects (projects.flatMap ProtectionProject.entries) m) addr
        (bswap16 dport) protocol) := by
  classical
  have hread : ∀ k : UInt16 × UInt8,
      (writeProjects (projects.flatMap ProtectionProject.entries) m).projectPolicy
          { addr := addr, dport := bswap16 k.1, protocol := k.2 } =
        (lastOf (ProtectionProject.InClass (toNeBytes addr) k.1 k.2) projects).map
          ProtectionProject.policy := by
    intro k
    rw [← projectPolicy_writeProjects projects m]
    congr 1
    unfold projectKey toNeBytes
    rw [UInt32.ofBitVec_toBitVec, bswap32_bswap32]
  have hlookup :
      lookupProject (writeProjects (projects.flatMap ProtectionProject.entries) m) addr
          (bswap16 dport) protocol =
        (lookupClasses dport protocol).findSome? fun k =>
          (lastOf (ProtectionProject.InClass (toNeBytes addr) k.1 k.2) projects).map
            ProtectionProject.policy := by
    have hkeys : [(bswap16 dport, protocol), (bswap16 dport, 0), (0, protocol), (0, 0)] =
        (lookupClasses dport protocol).map fun k => (bswap16 k.1, k.2) := by
      have hzero : bswap16 0 = 0 := by decide
      simp [lookupClasses, hzero]
    unfold lookupProject
    rw [hkeys, List.findSome?_map, ← funext hread]
    rfl
  rw [hlookup]
  cases hfound : (lookupClasses dport protocol).findSome? fun k =>
      (lastOf (ProtectionProject.InClass (toNeBytes addr) k.1 k.2) projects).map
        ProtectionProject.policy with
  | none =>
    intro proj hproj hcovers
    obtain ⟨k, hk, hclass⟩ := covers_iff.1 hcovers
    have hnone := Option.map_eq_none_iff.1 (List.findSome?_eq_none_iff.1 hfound k hk)
    exact lastOf_eq_none_iff.1 hnone proj hproj hclass
  | some policy =>
    obtain ⟨pre, k, post, hsplit, hk, hpre⟩ := List.findSome?_eq_some_iff.1 hfound
    obtain ⟨proj, hproj, rfl⟩ := Option.map_eq_some_iff.1 hk
    obtain ⟨i, hi, hlast⟩ := lastOf_index hproj
    refine ⟨i, proj, governs_of_lastOf hsplit (fun k' hk' other hother => ?_) hi
      (lastOf_sat hproj) hlast, rfl⟩
    exact lastOf_eq_none_iff.1 (Option.map_eq_none_iff.1 (hpre k' hk')) other hother

end Lookup

/-! ## The stage -/

/-- What the project stage does with the policy it finds. -/
def actOnPolicy (h : Helpers) (s : PacketState) :
    Option ProjectPolicy → Option XdpAction × PacketState
  | none => (none, s)
  | some policy =>
    if policy.action = project_action.PASS then
      let pc := { s.pc with ruleId := rules.PROJECT_POLICY }
      (some .pass, { s with pc := pc, maps := countPassed s.maps pc })
    else if policy.action = project_action.DROP then
      dropAs h rules.PROJECT_POLICY id s.pc.protocol s
    else if policy.action = project_action.DEFEND then
      (none, withFlags (if policy.flags = 0 then PROJECT_FLAGS_ALL else policy.flags) s)
    else (none, s)

/-- The stage finds the policy of the maps and acts on it. -/
theorem checkProjectPolicy_finds (h : Helpers) {s : PacketState} {ip : Nat}
    (henabled : s.maps.config.projectEnabled ≠ 0) (hfragment : s.pc.fragment = false)
    (hfamily : s.pc.src.ipFamily = some .ipv4)
    (hip : s.ctx.ptrAt IP_HDR_LEN ETH_HDR_LEN = some ip) :
    checkProjectPolicy h s =
      actOnPolicy h s
        (lookupProject s.maps (IpHdr.daddr s.ctx ip) (bswap16 s.pc.dport) s.pc.protocol) := by
  unfold checkProjectPolicy actOnPolicy
  rw [if_neg (by simp [henabled, hfragment]), if_neg (by simp [hfamily]), hip]
  dsimp only
  cases lookupProject s.maps (IpHdr.daddr s.ctx ip) (bswap16 s.pc.dport) s.pc.protocol with
  | none => rfl
  | some policy => rfl

/-- A list that covers some packet has an entry. -/
theorem length_entries_pos {projects : List ProtectionProject} {addr : BitVec 32}
    {dport : UInt16} {protocol : UInt8} {proj : ProtectionProject} (hproj : proj ∈ projects)
    (hcovers : proj.Covers addr dport protocol) :
    (projects.flatMap ProtectionProject.entries).length > 0 := by
  have hentry := (proj.mem_entries_iff _).2 ⟨addr, hcovers.1, rfl⟩
  exact List.length_pos_of_mem (List.mem_flatMap.2 ⟨proj, hproj, hentry⟩)

/-- The stage finds the policy of a list in the map for every packet of IPv4 that is no fragment. -/
theorem checkProjectPolicy_writeProjects (projects : List ProtectionProject) {m : Maps} (h : Helpers)
    {nowNs : UInt64} {ctx : XdpContext} {pc : PacketCtx} {s : PacketState}
    (hparse : parse ctx = some pc) (hipv4 : EthHdr.proto ctx 0 = ETH_P_IP)
    (hfragment : pc.fragment = false)
    (hwork : Worked
      (enter nowNs ctx (writeProjects (projects.flatMap ProtectionProject.entries) m) pc) s) :
    ∃ found,
      PolicyFor projects (toNeBytes (IpHdr.daddr ctx ETH_HDR_LEN)) pc.dport pc.protocol found ∧
      checkProjectPolicy h s = actOnPolicy h s found := by
  have hheader : ETH_HDR_LEN + IP_HDR_LEN ≤ ctx.len ∧
      pc.src = srcKey (IpHdr.saddr ctx ETH_HDR_LEN) := by
    rcases parse_cases hparse with ⟨-, hlen, hsrc, -⟩ | ⟨hipv6, -⟩
    · exact ⟨hlen, hsrc⟩
    · exact absurd (hipv4.symm.trans hipv6) (by decide)
  have hfamily : s.pc.src.ipFamily = some .ipv4 := by
    rw [hwork.src, show (enter nowNs ctx _ pc).pc.src = pc.src from rfl, hheader.2]
    rfl
  have hip : s.ctx.ptrAt IP_HDR_LEN ETH_HDR_LEN = some ETH_HDR_LEN := by
    rw [hwork.ctx]
    exact ptrAt_eq_some_iff.2 ⟨hheader.1, rfl⟩
  by_cases hempty : (projects.flatMap ProtectionProject.entries).length > 0
  · have henabled : s.maps.config.projectEnabled ≠ 0 := by
      rw [hwork.config]
      show (if _ > 0 then (1 : UInt8) else 0) ≠ 0
      rw [if_pos hempty]
      decide
    refine ⟨_, ?_, checkProjectPolicy_finds h henabled (hwork.fragment.trans hfragment) hfamily hip⟩
    have hmap : lookupProject s.maps = lookupProject
        (writeProjects (projects.flatMap ProtectionProject.entries) m) := by
      unfold lookupProject
      rw [hwork.projectPolicy]
      rfl
    rw [hmap, hwork.ctx, hwork.dport, hwork.protocol]
    exact lookupProject_writeProjects projects m _ _ _
  · refine ⟨none, fun proj hproj hcovers => hempty (length_entries_pos hproj hcovers), ?_⟩
    have hdisabled : s.maps.config.projectEnabled = 0 := by
      rw [hwork.config]
      show (if _ > 0 then (1 : UInt8) else 0) = 0
      rw [if_neg hempty]
    unfold checkProjectPolicy
    rw [if_pos (.inl hdisabled)]
    rfl

/-! ## The list -/

theorem initProtectionProjectsMap_passes {projects : List ProtectionProject}
    {entries : List ProjectEntry} (h : expandProjects projects = .ok entries) (m : Maps) :
    (initProtectionProjectsMap projects).Passes m (writeProjects entries m) := by
  refine Attempt.passes_commit.2 ?_
  rw [h]
  rfl

theorem initProtectionProjectsMap_of_error {projects : List ProtectionProject} {e : String}
    (h : expandProjects projects = .error e) (m : Maps) :
    initProtectionProjectsMap projects m = (.error e, m) := by
  unfold initProtectionProjectsMap Attempt.commit
  rw [h]
  rfl

/-- A list that is accepted and fits governs every packet as it is written; one that is refused on
the way to the map leaves the map alone. -/
theorem protection_projects_exact :
    (∀ (projects : List ProtectionProject) (m : Maps),
      validateProtectionProjectsList projects = .ok () →
      (projects.map ProtectionProject.size).sum ≤ MAX_ENTRIES →
      ∃ m', (initProtectionProjectsMap projects).Passes m m' ∧
        ∀ (h : Helpers) (nowNs : UInt64) (ctx : XdpContext) (pc : PacketCtx) (s : PacketState),
          parse ctx = some pc → EthHdr.proto ctx 0 = ETH_P_IP → pc.fragment = false →
          Worked (enter nowNs ctx m' pc) s →
          ∃ found,
            PolicyFor projects (toNeBytes (IpHdr.daddr ctx ETH_HDR_LEN)) pc.dport pc.protocol
              found ∧
            checkProjectPolicy h s = actOnPolicy h s found) ∧
    ∀ (projects : List ProtectionProject) (m m' : Maps) (e : String),
      initProtectionProjectsMap projects m = (.error e, m') → m' = m := by
  constructor
  · intro projects m hvalid hfits
    have hexpand := expandProjects_of_valid hvalid hfits
    refine ⟨_, initProtectionProjectsMap_passes hexpand m, ?_⟩
    intro h nowNs ctx pc s hparse hipv4 hfragment hwork
    exact checkProjectPolicy_writeProjects projects h hparse hipv4 hfragment hwork
  · intro projects m m' e hfail
    cases hexpand : expandProjects projects with
    | error e' =>
      rw [initProtectionProjectsMap_of_error hexpand] at hfail
      cases hfail
      rfl
    | ok entries =>
      have hpasses := initProtectionProjectsMap_passes hexpand m
      cases hpasses.symm.trans hfail

/-- A port of one host inside a network that is let through. -/
def nestedProjects : List ProtectionProject :=
  [{ name := "dns", protocol := "udp", dport := "53", targetIps := ["10.0.0.2"], action := "drop" },
    { name := "lan", protocol := "any", dport := "0", targetIps := ["10.0.0.0/30"],
      action := "pass" }]

theorem protection_projects_exact_nested :
    ∃ m' pc found, (initProtectionProjectsMap nestedProjects).Passes {} m' ∧
      parse udpFrame = some pc ∧ PolicyFor nestedProjects 0x0a000002#32 53 IPPROTO_UDP found ∧
      checkProjectPolicy {} (enter 5 udpFrame m' pc) =
        actOnPolicy {} (enter 5 udpFrame m' pc) found := by
  have hvalid : validateProtectionProjectsList nestedProjects = .ok () := by decide
  have hfits : (nestedProjects.map ProtectionProject.size).sum ≤ MAX_ENTRIES := by decide
  obtain ⟨m', hpasses, hfinds⟩ := protection_projects_exact.1 nestedProjects {} hvalid hfits
  obtain ⟨found, hfound, hstage⟩ := hfinds {} 5 udpFrame _ _ rfl (by decide) rfl (Worked.refl _)
  exact ⟨m', _, found, hpasses, rfl, hfound, hstage⟩

end EShield.Node
