import EShield.Node.Proofs.PortAclProofs
import EShield.Node.Proofs.ProtectionProjectsProofs
import EShield.Node.Reload

/-!
# Rule sets in force

What writing an accepted rule set does to the maps: it fills one table and brings its count up to
date, and it touches nothing else. A list is in force when writing it again would change nothing.
-/

namespace EShield.Node

open Attempt Checks ControlPlane Ebpf

/-! ## Filling a table -/

theorem fillTable_eq_ok {α β : Type} {n : Nat} {encode : Nat → α → Except String β} {as : List α}
    (i : Nat) (h : ∀ (j : Nat) a, as[j]? = some a → ∃ b, encode (i + j) a = .ok b)
    (table : Vector β n) : (fillTable encode i as table).1 = .ok () := by
  induction as generalizing i table with
  | nil => rfl
  | cons a as ih =>
    obtain ⟨b, hb⟩ := h 0 a rfl
    rw [Nat.add_zero] at hb
    rw [fillTable, hb]
    refine ih (i + 1) (fun j a' ha' => ?_) _
    have hnext := h (j + 1) a' ha'
    rwa [← Nat.add_assoc, Nat.add_right_comm] at hnext

theorem onMaps_passes {a : Attempt Maps String} {s : ControlPlane} {m : Maps}
    (h : a.Passes s.maps m) : (onMaps a).Passes s { s with maps := m } := passes_zoom.2 ⟨m, h, rfl⟩

/-! ## Port ACL -/

/-- The table of an accepted ACL. -/
def portAclTable (items : List PortAclItem) : Vector PortAclEntry MAX_PORT_ACL :=
  (fillTable portAclEntry 0 items (.replicate _ {})).2

/-- The maps after an accepted ACL has been written. -/
def writePortAcl (items : List PortAclItem) (m : Maps) : Maps :=
  { m with
    portAcl := portAclTable items
    config := { m.config with portAclCount := tableCount items.length MAX_PORT_ACL } }

theorem portAclEntry_ok {items : List PortAclItem} (h : validatePortAclItems items = .ok ())
    {i : Nat} {item : PortAclItem} (hi : items[i]? = some item) :
    ∃ entry, portAclEntry i item = .ok entry := by
  obtain ⟨hlen, h⟩ := check_bind_eq_ok.1 h
  obtain ⟨hlt, -⟩ := List.getElem?_eq_some_iff.1 hi
  have hmax := not_lt.1 (rejectIf_eq_ok.1 hlen)
  obtain ⟨entry, hentry⟩ := exists_encodes (all_zipIdx_eq_ok.1 h i item hi)
  exact ⟨entry, portAclEntry_of_encodes i item entry (by omega) hentry⟩

theorem initPortAclMap_passes {items : List PortAclItem} (h : validatePortAclItems items = .ok ())
    (m : Maps) : (initPortAclMap items).Passes m (writePortAcl items m) := by
  have hfill : (fillTable portAclEntry 0 items (.replicate MAX_PORT_ACL {})).1 = .ok () := by
    refine fillTable_eq_ok 0 (fun i item hi => ?_) _
    rw [Nat.zero_add]
    exact portAclEntry_ok h hi
  unfold Passes initPortAclMap writePortAcl portAclTable
  rcases hrun : fillTable portAclEntry 0 items (.replicate MAX_PORT_ACL {}) with ⟨r, table⟩
  rw [hrun] at hfill
  cases hfill
  rfl

/-! ## L7 patterns -/

/-- The table of accepted patterns. -/
def l7Table (patterns : List L7PatternConfig) : Vector L7Pattern MAX_L7_PATTERNS :=
  (fillTable l7Entry 0 (patterns.take MAX_L7_PATTERNS) (.replicate _ {})).2

def writeL7Patterns (patterns : List L7PatternConfig) (m : Maps) : Maps :=
  { m with
    l7Patterns := l7Table patterns
    config := { m.config with l7PatternCount := tableCount patterns.length MAX_L7_PATTERNS } }

theorem toList_loop (bs : ByteArray) (i : Nat) (r : List UInt8) :
    ByteArray.toList.loop bs i r = r.reverse ++ bs.data.toList.drop i := by
  fun_induction ByteArray.toList.loop bs i r with
  | case1 i r hlt ih =>
    have hi : i < bs.data.toList.length := by
      rw [Array.length_toList]
      exact hlt
    have hget : bs.get! i = bs.data.toList[i] := by
      rw [Array.getElem_toList]
      exact getElem!_pos bs.data i hlt
    rw [ih, List.reverse_cons, List.append_assoc, List.singleton_append, hget,
      ← List.drop_eq_getElem_cons hi]
  | case2 i r hge =>
    have hdrop : bs.data.toList.drop i = [] := by
      rw [List.drop_eq_nil_iff, Array.length_toList]
      exact not_lt.1 hge
    rw [hdrop, List.append_nil]

/-- The bytes of a text are those of its characters. -/
theorem toList_toUTF8 (s : String) : s.toUTF8.toList = s.toList.flatMap String.utf8EncodeChar := by
  have hencode : s.toUTF8 = (s.toList.flatMap String.utf8EncodeChar).toByteArray :=
    String.utf8Encode_toList.symm
  rw [ByteArray.toList, toList_loop, List.reverse_nil, List.nil_append, List.drop_zero, hencode,
    List.toList_data_toByteArray]

theorem length_toUTF8 (s : String) : s.toUTF8.toList.length = s.utf8ByteSize := by
  rw [ByteArray.toList, toList_loop, List.reverse_nil, List.nil_append, List.drop_zero,
    Array.length_toList]
  rfl

namespace L7PatternConfig

def bytes (pat : L7PatternConfig) : List UInt8 := pat.pattern.toUTF8.toList

/-- The bytes of the mask, all ones if there is none. -/
def maskBytes (pat : L7PatternConfig) : List UInt8 :=
  match pat.mask with
  | some mask => mask.toUTF8.toList
  | none => pat.bytes.map fun _ => 0xff

/-- Up to eight bytes, and as many of the mask. -/
structure Accepted (pat : L7PatternConfig) : Prop where
  nonempty : pat.bytes ≠ []
  short : pat.bytes.length ≤ 8
  mask : pat.maskBytes.length = pat.bytes.length

/-- What is written for an accepted pattern. -/
def entry (pat : L7PatternConfig) : L7Pattern :=
  { signature := leBytes pat.bytes
    mask := leBytes pat.maskBytes
    length := pat.bytes.length.toUInt8 }

end L7PatternConfig

section L7

variable {patterns : List L7PatternConfig} {pat : L7PatternConfig}

theorem accepted_of_mem (h : validateL7Patterns patterns = .ok ()) (hpat : pat ∈ patterns) :
    pat.Accepted := by
  obtain ⟨-, h⟩ := check_bind_eq_ok.1 h
  obtain ⟨i, hi⟩ := List.getElem?_of_mem hpat
  have hvalid := all_zipIdx_eq_ok.1 h i pat hi
  unfold validateL7Pattern at hvalid
  obtain ⟨hnonempty, hvalid⟩ := check_bind_eq_ok.1 hvalid
  obtain ⟨hshort, hvalid⟩ := check_bind_eq_ok.1 hvalid
  rw [rejectIf_eq_ok, ← length_toUTF8] at hnonempty hshort
  refine ⟨fun hnil => hnonempty (congrArg List.length hnil), not_lt.1 hshort, ?_⟩
  unfold L7PatternConfig.maskBytes
  cases hmask : pat.mask with
  | none => exact List.length_map _
  | some mask =>
    dsimp only at hvalid
    rw [hmask] at hvalid
    have hsame := not_not.1 (rejectIf_eq_ok.1 hvalid)
    rw [← length_toUTF8, ← length_toUTF8] at hsame
    exact hsame

theorem l7Entry_of_accepted (h : pat.Accepted) (i : Nat) : l7Entry i pat = .ok pat.entry := by
  have hshort : ¬ pat.pattern.toUTF8.toList.length > 8 := not_lt.2 h.short
  have hlen := h.mask
  unfold L7PatternConfig.maskBytes at hlen
  unfold l7Entry L7PatternConfig.entry L7PatternConfig.maskBytes
  dsimp only
  rw [rejectIf_neg hshort]
  cases hmask : pat.mask with
  | none => rfl
  | some mask =>
    rw [hmask] at hlen
    have hsame : ¬ mask.toUTF8.toList.length ≠ pat.pattern.toUTF8.toList.length := not_not.2 hlen
    dsimp only
    rw [rejectIf_neg hsame]
    rfl

end L7

theorem initL7PatternsMap_passes {patterns : List L7PatternConfig}
    (h : validateL7Patterns patterns = .ok ()) (m : Maps) :
    (initL7PatternsMap patterns).Passes m (writeL7Patterns patterns m) := by
  have hfill : (fillTable l7Entry 0 (patterns.take MAX_L7_PATTERNS)
      (.replicate MAX_L7_PATTERNS {})).1 = .ok () := by
    refine fillTable_eq_ok 0 (fun i pat hi => ?_) _
    rw [List.getElem?_take] at hi
    split at hi
    · rw [Nat.zero_add]
      exact ⟨_, l7Entry_of_accepted (accepted_of_mem h (List.mem_of_getElem? hi)) i⟩
    · cases hi
  unfold Passes initL7PatternsMap writeL7Patterns l7Table
  rcases hrun : fillTable l7Entry 0 (patterns.take MAX_L7_PATTERNS)
    (.replicate MAX_L7_PATTERNS {}) with ⟨r, table⟩
  rw [hrun] at hfill
  cases hfill
  rfl

/-! ## Protection projects -/

/-- PROJECT_POLICY of the entries. -/
def projectTable (entries : List ProjectEntry) : LruHashMap ProjectPolicyKey ProjectPolicy :=
  entries.foldl (fun policies e => policies.insert e.1 e.2) .empty

/-! ## Lists in force -/

theorem writePortAcl_eq_self {items : List PortAclItem} {m : Maps} :
    writePortAcl items m = m ↔
      m.portAcl = portAclTable items ∧
        m.config.portAclCount = tableCount items.length MAX_PORT_ACL := by
  constructor
  · intro h
    exact ⟨(congrArg Maps.portAcl h).symm, (congrArg (fun m => m.config.portAclCount) h).symm⟩
  · rintro ⟨htable, hcount⟩
    unfold writePortAcl
    rw [← htable, ← hcount]

theorem writeL7Patterns_eq_self {patterns : List L7PatternConfig} {m : Maps} :
    writeL7Patterns patterns m = m ↔
      m.l7Patterns = l7Table patterns ∧
        m.config.l7PatternCount = tableCount patterns.length MAX_L7_PATTERNS := by
  constructor
  · intro h
    exact ⟨(congrArg Maps.l7Patterns h).symm, (congrArg (fun m => m.config.l7PatternCount) h).symm⟩
  · rintro ⟨htable, hcount⟩
    unfold writeL7Patterns
    rw [← htable, ← hcount]

theorem writeProjects_eq_self {entries : List ProjectEntry} {m : Maps} :
    writeProjects entries m = m ↔
      m.projectPolicy = projectTable entries ∧
        m.config.projectEnabled = if entries.length > 0 then 1 else 0 := by
  constructor
  · intro h
    exact ⟨(congrArg Maps.projectPolicy h).symm, (congrArg (fun m => m.config.projectEnabled) h).symm⟩
  · rintro ⟨htable, henabled⟩
    unfold writeProjects
    rw [← henabled]
    show { m with projectPolicy := projectTable entries } = m
    rw [← htable]

/-! ## What the rule sets do not touch -/

/-- The state with the rule sets and the whitelist tries blanked out. -/
def outsideRules (s : ControlPlane) : ControlPlane :=
  { s with
    maps :=
      { s.maps with
        portAcl := .replicate _ {}
        l7Patterns := .replicate _ {}
        projectPolicy := .empty
        whitelistV4 := []
        whitelistV6 := []
        config :=
          { s.maps.config with portAclCount := 0, l7PatternCount := 0, projectEnabled := 0 } }
    runtime :=
      { s.runtime with
        portAcl := []
        l7Scan := { s.runtime.l7Scan with patterns := [] }
        protectionProjects := []
        protectionProjectsEnabled := false }
    tables := {} }

theorem onMaps_keeps {a : Attempt Maps String}
    (h : ∀ s : ControlPlane, outsideRules { s with maps := (a s.maps).2 } = outsideRules s) :
    KeepsView outsideRules (onMaps a) := h

theorem initL7PatternsMap_keeps (patterns : List L7PatternConfig) :
    KeepsView outsideRules (onMaps (initL7PatternsMap patterns)) := by
  refine onMaps_keeps fun s => ?_
  unfold initL7PatternsMap
  split
  · rfl
  · rfl

theorem initPortAclMap_keeps (items : List PortAclItem) :
    KeepsView outsideRules (onMaps (initPortAclMap items)) := by
  refine onMaps_keeps fun s => ?_
  unfold initPortAclMap
  split
  · rfl
  · rfl

theorem initProtectionProjectsMap_keeps (projects : List ProtectionProject) :
    KeepsView outsideRules (onMaps (initProtectionProjectsMap projects)) := by
  refine onMaps_keeps fun s => ?_
  cases h : expandProjects projects with
  | error e => rw [initProtectionProjectsMap_of_error h]
  | ok entries =>
    have hrun := initProtectionProjectsMap_passes h s.maps
    unfold Passes at hrun
    rw [hrun]
    rfl

theorem allowCidrRaw_keeps (c : Cidr) : KeepsView outsideRules (onMaps (allowCidrRaw c)) := by
  refine onMaps_keeps fun s => ?_
  by_cases hfamily : c.1.ipFamily = none
  · rw [allowCidrRaw_of_unknown hfamily]
  · have hrun := allowCidrRaw_passes hfamily s.maps
    unfold Passes at hrun
    rw [hrun]
    rfl

theorem check_keeps (r : Except String Unit) : KeepsView outsideRules (check r) := by
  refine keeps_commit fun s t h => ?_
  obtain ⟨-, h⟩ := check_bind_eq_ok.1 h
  cases h
  rfl

/-- A list is checked, written to its map and recorded. -/
theorem keeps_set {r : Except String Unit} {a : Attempt Maps String}
    {record : ControlPlane → ControlPlane} (ha : KeepsView outsideRules (onMaps a))
    (hrecord : ∀ s, outsideRules (record s) = outsideRules s) :
    KeepsView outsideRules (.sequence [check r, onMaps a, .write record]) := by
  refine keeps_sequence fun b hb => ?_
  simp only [List.mem_cons, List.not_mem_nil, or_false] at hb
  rcases hb with rfl | rfl | rfl
  · exact check_keeps _
  · exact ha
  · exact hrecord

theorem setStored_keeps {α : Type} {set : List α → Attempt ControlPlane String} (stored : List α)
    (h : KeepsView outsideRules (set stored)) : KeepsView outsideRules (setStored set stored) := by
  unfold setStored
  split
  · exact fun _ => rfl
  · exact h

/-- The state with another BLACKLIST. -/
def withBlocks (blacklist : LruHashMap IpKey BlockEntry) (s : ControlPlane) : ControlPlane :=
  { s with maps := { s.maps with blacklist := blacklist } }

/-- Outside the rule sets, the persisted rules change only BLACKLIST. -/
theorem outsideRules_loadPersisted (nowNs : UInt64) (readNs : IpKey → UInt64) (s : ControlPlane) :
    outsideRules (loadPersisted nowNs readNs s).2 =
      outsideRules (withBlocks (loadPersistedRules s.store nowNs readNs s.maps.blacklist) s) := by
  unfold loadPersisted
  rw [List.append_assoc, List.singleton_append, (onMaps_passes (passes_write.2 rfl)).sequence_cons]
  refine keeps_sequence (fun a ha => ?_) _
  simp only [List.mem_append, List.mem_cons, List.mem_map, List.not_mem_nil, or_false] at ha
  rcases ha with ⟨c, -, rfl⟩ | rfl | rfl | rfl
  · exact allowCidrRaw_keeps c
  · exact setStored_keeps _ (keeps_set (initPortAclMap_keeps _) fun _ => rfl)
  · exact setStored_keeps _ (keeps_set (initL7PatternsMap_keeps _) fun _ => rfl)
  · exact setStored_keeps _ (keeps_set (initProtectionProjectsMap_keeps _) fun _ => rfl)

end EShield.Node
