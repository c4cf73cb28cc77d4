import EShield.Node.Proofs.LimiterProofs

/-!
# Rule sets across reloads

A rule set that the API sets is stored, and what is stored is applied over the file at the end of
every reload and start. An empty stored list is passed over like an absent one, so then the file's
list comes back.
-/

namespace EShield.Node

open Attempt Checks ControlPlane Ebpf Exec

/-! ## Accepted projects have entries -/

theorem expandTarget_grows {i : Nat} {head : ProjectHead} {entries entries' : List ProjectEntry}
    {ip : String} (h : expandTarget i head entries ip = .ok entries') :
    entries.length ≤ entries'.length ∧
      ((∀ c, parseTarget i ip = .ok c → c.1.ipFamily = some .ipv4) →
        entries.length < entries'.length) := by
  obtain ⟨⟨key, prefixLen⟩, hparse, h⟩ := bind_eq_ok.1 h
  dsimp only at h
  by_cases hfamily : key.ipFamily = some .ipv4
  · rw [if_neg (not_not.2 hfamily)] at h
    obtain ⟨-, h⟩ := check_bind_eq_ok.1 h
    obtain ⟨-, h⟩ := check_bind_eq_ok.1 h
    cases h
    have hpos : 0 < 2 ^ (32 - prefixLen) := Nat.two_pow_pos _
    rw [List.length_append, expandBlock, List.length_map, List.length_range]
    exact ⟨by omega, fun _ => by omega⟩
  · rw [if_pos hfamily] at h
    cases h
    exact ⟨le_rfl, fun hall => absurd (hall _ hparse) hfamily⟩

theorem validateTarget_ipv4 {i j : Nat} {ip : String} (h : validateTarget i j ip = .ok true)
    (k : Nat) : ∀ c, parseTarget k ip = .ok c → c.1.ipFamily = some .ipv4 := by
  intro c hc
  unfold validateTarget at h
  unfold parseTarget at hc
  cases hip : parseIp ip with
  | ok key =>
    rw [hip] at h hc
    cases hc
    exact of_decide_eq_true (Except.ok.inj h)
  | error e =>
    rw [hip] at h hc
    dsimp only at h hc
    cases hcidr : parseCidr ip with
    | error e =>
      rw [hcidr] at hc
      cases hc
    | ok d =>
      rw [hcidr] at h hc
      cases hc
      by_cases hfamily : c.1.ipFamily = some .ipv4
      · exact hfamily
      · obtain ⟨d', hd, h⟩ := bind_eq_ok.1 h
        cases hd
        rw [if_neg hfamily] at h
        cases h

theorem expandProject_grows {entries entries' : List ProjectEntry} {proj : ProtectionProject × Nat}
    (h : expandProject entries proj = .ok entries') : entries.length ≤ entries'.length := by
  obtain ⟨head, -, h⟩ := bind_eq_ok.1 h
  exact foldlM_le (fun _ _ _ hstep => (expandTarget_grows hstep).1) h

theorem expandProject_adds {entries entries' : List ProjectEntry} {proj : ProtectionProject × Nat}
    (hvalid : validateProtectionProject proj.2 proj.1 = .ok ())
    (h : expandProject entries proj = .ok entries') : entries.length < entries'.length := by
  unfold validateProtectionProject at hvalid
  obtain ⟨-, hvalid⟩ := check_bind_eq_ok.1 hvalid
  obtain ⟨-, hvalid⟩ := check_bind_eq_ok.1 hvalid
  obtain ⟨-, hvalid⟩ := check_bind_eq_ok.1 hvalid
  obtain ⟨-, hvalid⟩ := check_bind_eq_ok.1 hvalid
  obtain ⟨-, hvalid⟩ := check_bind_eq_ok.1 hvalid
  obtain ⟨-, hvalid⟩ := check_bind_eq_ok.1 hvalid
  obtain ⟨-, hvalid⟩ := check_bind_eq_ok.1 hvalid
  obtain ⟨families, hfamilies, hipv4⟩ := bind_eq_ok.1 hvalid
  have htrue := not_not.1 (rejectIf_eq_ok.1 hipv4)
  obtain ⟨⟨ip, j⟩, hmem, htarget⟩ := mapM_eq_ok_mem_result hfamilies htrue
  obtain ⟨head, -, h⟩ := bind_eq_ok.1 h
  have hip : ip ∈ proj.1.targetIps := (List.mem_zipIdx hmem).2.2 ▸ List.getElem_mem _
  exact foldlM_lt (f := expandTarget proj.2 head)
    (fun _ _ _ hstep => (expandTarget_grows hstep).1) hip
    (fun _ _ hstep => (expandTarget_grows hstep).2 (validateTarget_ipv4 htarget _)) h

/-- The flag in CONFIG says the same whether it is taken from the projects or from their entries. -/
theorem projectEnabled_eq {projects : List ProtectionProject} {entries : List ProjectEntry}
    (hvalid : validateProtectionProjectsList projects = .ok ())
    (h : expandProjects projects = .ok entries) :
    (decide (projects ≠ [])).toUInt8 = if entries.length > 0 then 1 else 0 := by
  cases projects with
  | nil =>
    cases h
    rfl
  | cons proj projects =>
    obtain ⟨-, hvalid⟩ := check_bind_eq_ok.1 hvalid
    have hfirst : (proj, 0) ∈ (proj :: projects).zipIdx := List.mem_cons_self
    have hpos : entries.length > 0 :=
      foldlM_lt (f := expandProject) (fun _ _ _ hstep => expandProject_grows hstep) hfirst
        (fun _ _ hstep => expandProject_adds (all_eq_ok.1 hvalid _ hfirst) hstep) h
    rw [if_pos hpos]
    rfl

/-! ## Active lists -/

/-- The ACL `items` is in the map, counted in CONFIG and shown in the snapshot. -/
structure PortAclActive (items : List PortAclItem) (s : ControlPlane) : Prop where
  table : s.maps.portAcl = portAclTable items
  count : s.maps.config.portAclCount = tableCount items.length MAX_PORT_ACL
  snapshot : s.runtime.portAcl = items

structure L7Active (patterns : List L7PatternConfig) (s : ControlPlane) : Prop where
  table : s.maps.l7Patterns = l7Table patterns
  count : s.maps.config.l7PatternCount = tableCount patterns.length MAX_L7_PATTERNS
  snapshot : s.runtime.l7Scan.patterns = patterns

structure ProjectsActive (projects : List ProtectionProject) (s : ControlPlane) : Prop where
  table : ∃ entries, expandProjects projects = .ok entries ∧
    s.maps.projectPolicy = projectTable entries ∧
    s.maps.config.projectEnabled = if entries.length > 0 then 1 else 0
  snapshot : s.runtime.protectionProjects = projects
  enabled : s.runtime.protectionProjectsEnabled = decide (projects ≠ [])

/-- A list that the API may set: it is accepted and its entries fit into the map. -/
structure Settable (projects : List ProtectionProject) : Prop where
  valid : validateProtectionProjectsList projects = .ok ()
  fits : ∃ entries, expandProjects projects = .ok entries

/-- The saved lists are acceptable, and the whitelist rows come from `parse_cidr`. -/
structure StoredRules (tables : RuleTables) : Prop where
  portAcl : ∀ items, tables.portAcl = some items → validatePortAclItems items = .ok ()
  l7Patterns : ∀ patterns, tables.l7Patterns = some patterns → validateL7Patterns patterns = .ok ()
  protectionProjects : ∀ projects, tables.protectionProjects = some projects → Settable projects
  whitelist : ∀ c ∈ tables.whitelist.loadWhitelist, c.1.ipFamily ≠ none

/-! ## Setting a list -/

/-- The state after `set_port_acl` has passed. -/
def withPortAcl (items : List PortAclItem) (s : ControlPlane) : ControlPlane :=
  { s with
    maps := writePortAcl items s.maps
    runtime := { s.runtime with portAcl := items }
    tables := s.tables.savePortAclItems items }

def withL7Patterns (patterns : List L7PatternConfig) (s : ControlPlane) : ControlPlane :=
  { s with
    maps := writeL7Patterns patterns s.maps
    runtime := { s.runtime with l7Scan := { s.runtime.l7Scan with patterns := patterns } }
    tables := s.tables.saveL7Patterns patterns }

def withProjects (projects : List ProtectionProject) (entries : List ProjectEntry)
    (s : ControlPlane) : ControlPlane :=
  { s with
    maps := writeProjects entries s.maps
    runtime :=
      { s.runtime with
        protectionProjects := projects
        protectionProjectsEnabled := projects ≠ [] }
    tables := s.tables.saveProtectionProjects projects }

theorem check_passes {r : Except String Unit} (h : r = .ok ()) (s : ControlPlane) :
    (check r).Passes s s := by
  rw [h]
  rfl

theorem check_of_error {r : Except String Unit} {e : String} (h : r = .error e)
    (s : ControlPlane) : check r s = (.error e, s) := by
  rw [h]
  rfl

theorem setPortAcl_passes {items : List PortAclItem} (h : validatePortAclItems items = .ok ())
    (s : ControlPlane) : (setPortAcl items).Passes s (withPortAcl items s) := by
  unfold Passes setPortAcl
  rw [(check_passes h s).sequence_cons, (onMaps_passes (initPortAclMap_passes h _)).sequence_cons]
  rfl

theorem setL7Patterns_passes {patterns : List L7PatternConfig}
    (h : validateL7Patterns patterns = .ok ()) (s : ControlPlane) :
    (setL7Patterns patterns).Passes s (withL7Patterns patterns s) := by
  unfold Passes setL7Patterns
  rw [(check_passes h s).sequence_cons, (onMaps_passes (initL7PatternsMap_passes h _)).sequence_cons]
  rfl

theorem setProtectionProjects_passes {projects : List ProtectionProject}
    {entries : List ProjectEntry} (hvalid : validateProtectionProjectsList projects = .ok ())
    (hentries : expandProjects projects = .ok entries) (s : ControlPlane) :
    (setProtectionProjects projects).Passes s (withProjects projects entries s) := by
  unfold Passes setProtectionProjects
  rw [(check_passes hvalid s).sequence_cons,
    (onMaps_passes (initProtectionProjectsMap_passes hentries _)).sequence_cons]
  rfl

/-- A list that is refused changes nothing. -/
theorem setProtectionProjects_of_not_settable {projects : List ProtectionProject}
    (h : ¬ Settable projects) (s : ControlPlane) :
    ∃ e, setProtectionProjects projects s = (.error e, s) := by
  unfold setProtectionProjects
  cases hvalid : validateProtectionProjectsList projects with
  | error e => exact ⟨e, sequence_cons_of_error (check_of_error rfl s) _⟩
  | ok u =>
    rw [(check_passes rfl s).sequence_cons]
    cases hentries : expandProjects projects with
    | ok entries => exact absurd ⟨hvalid, entries, hentries⟩ h
    | error e =>
      refine ⟨e, sequence_cons_of_error ?_ _⟩
      unfold onMaps Attempt.zoom
      rw [initProtectionProjectsMap_of_error hentries]

/-! ## The stored lists over those of the file -/

/-- The three active lists. -/
structure Active (items : List PortAclItem) (patterns : List L7PatternConfig)
    (projects : List ProtectionProject) (s : ControlPlane) : Prop where
  portAcl : PortAclActive items s
  l7Patterns : L7Active patterns s
  protectionProjects : ProjectsActive projects s

/-- What `load_persisted_rules` makes of a stored list: an empty one is passed over. -/
def overStored {α : Type} (stored file : List α) : List α := if stored = [] then file else stored

section Stored

variable {items : List PortAclItem} {patterns : List L7PatternConfig}
  {projects : List ProtectionProject} {s : ControlPlane} {tables : RuleTables}

theorem Active.withPortAcl (h : Active items patterns projects s) (new : List PortAclItem) :
    Active new patterns projects (withPortAcl new s) where
  portAcl := ⟨rfl, rfl, rfl⟩
  l7Patterns := ⟨h.l7Patterns.table, h.l7Patterns.count, h.l7Patterns.snapshot⟩
  protectionProjects :=
    ⟨h.protectionProjects.table, h.protectionProjects.snapshot, h.protectionProjects.enabled⟩

theorem Active.withL7Patterns (h : Active items patterns projects s)
    (new : List L7PatternConfig) : Active items new projects (withL7Patterns new s) where
  portAcl := ⟨h.portAcl.table, h.portAcl.count, h.portAcl.snapshot⟩
  l7Patterns := ⟨rfl, rfl, rfl⟩
  protectionProjects :=
    ⟨h.protectionProjects.table, h.protectionProjects.snapshot, h.protectionProjects.enabled⟩

theorem Active.withProjects (h : Active items patterns projects s) {new : List ProtectionProject}
    {entries : List ProjectEntry} (hentries : expandProjects new = .ok entries) :
    Active items patterns new (withProjects new entries s) where
  portAcl := ⟨h.portAcl.table, h.portAcl.count, h.portAcl.snapshot⟩
  l7Patterns := ⟨h.l7Patterns.table, h.l7Patterns.count, h.l7Patterns.snapshot⟩
  protectionProjects := ⟨⟨entries, hentries, rfl, rfl⟩, rfl, rfl⟩

theorem Active.withAddresses (h : Active items patterns projects s)
    (blacklist : LruHashMap IpKey BlockEntry) (tries : CidrTries) :
    Active items patterns projects (withTries tries (withBlocks blacklist s)) :=
  ⟨⟨h.portAcl.table, h.portAcl.count, h.portAcl.snapshot⟩,
    ⟨h.l7Patterns.table, h.l7Patterns.count, h.l7Patterns.snapshot⟩,
    ⟨h.protectionProjects.table, h.protectionProjects.snapshot, h.protectionProjects.enabled⟩⟩

/-- A list that is not empty is that of a row. -/
theorem eq_some_of_getD_ne {α : Type} {o : Option (List α)} (h : o.getD [] ≠ []) :
    o = some (o.getD []) := by
  cases o with
  | none => exact absurd rfl h
  | some as => rfl

theorem storedPortAcl_passes (hs : s.tables = tables) (hstored : StoredRules tables)
    (h : Active items patterns projects s) :
    ∃ t, (setStored setPortAcl tables.loadPortAclItems).Passes s t ∧ t.tables = tables ∧
      Active (overStored tables.loadPortAclItems items) patterns projects t := by
  unfold setStored overStored
  by_cases hempty : tables.loadPortAclItems = []
  · rw [if_pos hempty, if_pos hempty]
    exact ⟨s, rfl, hs, h⟩
  · have hrow := eq_some_of_getD_ne hempty
    rw [if_neg hempty, if_neg hempty]
    refine ⟨_, setPortAcl_passes (hstored.portAcl _ hrow) s, ?_, h.withPortAcl _⟩
    show { s.tables with portAcl := some (tables.portAcl.getD []) } = tables
    rw [hs, ← hrow]

theorem storedL7Patterns_passes (hs : s.tables = tables) (hstored : StoredRules tables)
    (h : Active items patterns projects s) :
    ∃ t, (setStored setL7Patterns tables.loadL7Patterns).Passes s t ∧ t.tables = tables ∧
      Active items (overStored tables.loadL7Patterns patterns) projects t := by
  unfold setStored overStored
  by_cases hempty : tables.loadL7Patterns = []
  · rw [if_pos hempty, if_pos hempty]
    exact ⟨s, rfl, hs, h⟩
  · have hrow := eq_some_of_getD_ne hempty
    rw [if_neg hempty, if_neg hempty]
    refine ⟨_, setL7Patterns_passes (hstored.l7Patterns _ hrow) s, ?_, h.withL7Patterns _⟩
    show { s.tables with l7Patterns := some (tables.l7Patterns.getD []) } = tables
    rw [hs, ← hrow]

theorem storedProjects_passes (hs : s.tables = tables) (hstored : StoredRules tables)
    (h : Active items patterns projects s) :
    ∃ t, (setStored setProtectionProjects tables.loadProtectionProjects).Passes s t ∧
      t.tables = tables ∧
      Active items patterns (overStored tables.loadProtectionProjects projects) t := by
  unfold setStored overStored
  by_cases hempty : tables.loadProtectionProjects = []
  · rw [if_pos hempty, if_pos hempty]
    exact ⟨s, rfl, hs, h⟩
  · have hrow := eq_some_of_getD_ne hempty
    obtain ⟨hvalid, entries, hentries⟩ := hstored.protectionProjects _ hrow
    rw [if_neg hempty, if_neg hempty]
    refine ⟨_, setProtectionProjects_passes hvalid hentries s, ?_, h.withProjects hentries⟩
    show { s.tables with protectionProjects := some (tables.protectionProjects.getD []) } =
      tables
    rw [hs, ← hrow]

/-- The stored whitelist goes into the tries and touches nothing else. -/
theorem storedWhitelist_passes {rows : List Cidr} (hrows : ∀ c ∈ rows, c.1.ipFamily ≠ none)
    (s : ControlPlane) :
    ∃ tries, (Attempt.sequence (rows.map fun c => onMaps (allowCidrRaw c))).Passes s
      (withTries tries s) := by
  induction rows generalizing s with
  | nil => exact ⟨whitelistTries s.maps, rfl⟩
  | cons c rows ih =>
    obtain ⟨hc, hrows⟩ := List.forall_mem_cons.1 hrows
    obtain ⟨tries, hrest⟩ := ih hrows (withTries ((whitelistTries s.maps).insert c) s)
    exact ⟨tries, passes_cons.2 ⟨_, onMaps_passes (allowCidrRaw_passes hc s.maps), hrest⟩⟩

/-- What is stored is active afterwards, an empty list apart. -/
theorem active_loadPersisted (nowNs : UInt64) (readNs : IpKey → UInt64)
    (hstored : StoredRules s.tables) (h : Active items patterns projects s) :
    ∃ t, (loadPersisted nowNs readNs).Passes s t ∧ t.tables = s.tables ∧
      Active (overStored s.tables.loadPortAclItems items)
        (overStored s.tables.loadL7Patterns patterns)
        (overStored s.tables.loadProtectionProjects projects) t := by
  let blacklist := loadPersistedRules s.store nowNs readNs s.maps.blacklist
  have hblacklist : (onMaps (.write fun m =>
      { m with blacklist := loadPersistedRules s.store nowNs readNs m.blacklist })).Passes s
      (withBlocks blacklist s) := onMaps_passes (passes_write.2 rfl)
  obtain ⟨tries, hwhitelist⟩ :=
    storedWhitelist_passes hstored.whitelist (withBlocks blacklist s)
  have htables₁ : (withTries tries (withBlocks blacklist s)).tables = s.tables := rfl
  have h₁ := h.withAddresses blacklist tries
  obtain ⟨s₂, hpasses₂, htables₂, h₂⟩ := storedPortAcl_passes htables₁ hstored h₁
  obtain ⟨s₃, hpasses₃, htables₃, h₃⟩ := storedL7Patterns_passes htables₂ hstored h₂
  obtain ⟨s₄, hpasses₄, htables₄, h₄⟩ := storedProjects_passes htables₃ hstored h₃
  have htail := passes_cons.2 ⟨s₂, hpasses₂, passes_cons.2 ⟨s₃, hpasses₃,
    passes_cons.2 ⟨s₄, hpasses₄, passes_nil s₄⟩⟩⟩
  refine ⟨s₄, ?_, htables₄, h₄⟩
  have hfirst := passes_cons.2 ⟨_, hblacklist, passes_nil (withBlocks blacklist s)⟩
  exact passes_append.2 ⟨_, passes_append.2 ⟨_, hfirst, hwhitelist⟩, htail⟩

end Stored

/-! ## What a file does to the lists -/

section File

variable {csv : CsvFiles} {config : Config} {insertFails : Option Nat} {s t : ControlPlane}

/-- The rule sets of the file are those in the maps already. -/
structure RuleSetsInForce (config : Config) (s : ControlPlane) : Prop where
  portAcl : writePortAcl config.portAcl s.maps = s.maps
  l7Patterns : writeL7Patterns config.l7Scan.patterns s.maps = s.maps
  projects : ∀ entries, expandProjects config.protectionProjects = .ok entries →
    writeProjects entries s.maps = s.maps

/-- An applied file leaves its own lists. -/
theorem active_of_applied (haccepted : Accepted config)
    (hout : ReloadOutcome csv config insertFails s (.ok (), t)) {u : ControlPlane}
    (hmaps : u.maps = t.maps) {level : UInt8}
    (hruntime : u.runtime =
      { RuntimeConfigSnapshot.fromConfig config with dangerLevel := level }) :
    Active config.portAcl config.l7Scan.patterns config.protectionProjects u := by
  cases hout with
  | applied hentries hnew hpossible hstatic hgeoip hfails =>
    have henabled := projectEnabled_eq haccepted.protectionProjects hentries
    refine ⟨⟨?_, ?_, ?_⟩, ⟨?_, ?_, ?_⟩, ⟨⟨_, hentries, ?_, ?_⟩, ?_, ?_⟩⟩
    · rw [hmaps]; rfl
    · rw [hmaps]; rfl
    · rw [hruntime]; rfl
    · rw [hmaps]; rfl
    · rw [hmaps]; rfl
    · rw [hruntime]; rfl
    · rw [hmaps]; rfl
    · rw [hmaps, ← henabled]; rfl
    · rw [hruntime]; rfl
    · rw [hruntime]; rfl

/-- No part of a file writes the store or the snapshot. -/
theorem kept_of_outcome {r : Except String Unit × ControlPlane}
    (hout : ReloadOutcome csv config insertFails s r) :
    r.2.tables = s.tables ∧ r.2.runtime = s.runtime := by
  cases hout with
  | tooManyEntries => exact ⟨rfl, rfl⟩
  | prefixAbsent => exact ⟨rfl, rfl⟩
  | listUnreadable => exact ⟨rfl, rfl⟩
  | trieFull => exact ⟨rfl, rfl⟩
  | applied => exact ⟨rfl, rfl⟩

/-- The maps of the rule sets after a failure. -/
theorem maps_of_failed {e : String} (hforce : RuleSetsInForce config s)
    (hout : ReloadOutcome csv config insertFails s (.error e, t)) :
    (t.maps.portAcl = s.maps.portAcl ∧ t.maps.config.portAclCount = s.maps.config.portAclCount) ∧
      (t.maps.l7Patterns = s.maps.l7Patterns ∧
        t.maps.config.l7PatternCount = s.maps.config.l7PatternCount) ∧
      t.maps.projectPolicy = s.maps.projectPolicy ∧
        t.maps.config.projectEnabled = s.maps.config.projectEnabled := by
  obtain ⟨hacl, haclCount⟩ := writePortAcl_eq_self.1 hforce.portAcl
  obtain ⟨hl7, hl7Count⟩ := writeL7Patterns_eq_self.1 hforce.l7Patterns
  cases hout with
  | tooManyEntries =>
    exact ⟨⟨hacl.symm, haclCount.symm⟩, ⟨hl7.symm, hl7Count.symm⟩, rfl, rfl⟩
  | prefixAbsent hentries =>
    obtain ⟨hpolicy, henabled⟩ := writeProjects_eq_self.1 (hforce.projects _ hentries)
    exact ⟨⟨hacl.symm, haclCount.symm⟩, ⟨hl7.symm, hl7Count.symm⟩, hpolicy.symm, henabled.symm⟩
  | listUnreadable hentries =>
    obtain ⟨hpolicy, henabled⟩ := writeProjects_eq_self.1 (hforce.projects _ hentries)
    exact ⟨⟨hacl.symm, haclCount.symm⟩, ⟨hl7.symm, hl7Count.symm⟩, hpolicy.symm, henabled.symm⟩
  | trieFull hentries =>
    obtain ⟨hpolicy, henabled⟩ := writeProjects_eq_self.1 (hforce.projects _ hentries)
    exact ⟨⟨hacl.symm, haclCount.symm⟩, ⟨hl7.symm, hl7Count.symm⟩, hpolicy.symm, henabled.symm⟩

theorem active_of_failed {items : List PortAclItem} {patterns : List L7PatternConfig}
    {projects : List ProtectionProject} {e : String} (h : Active items patterns projects s)
    (hforce : RuleSetsInForce config s)
    (hout : ReloadOutcome csv config insertFails s (.error e, t)) :
    Active items patterns projects t := by
  obtain ⟨⟨hacl, haclCount⟩, ⟨hl7, hl7Count⟩, hpolicy, henabled⟩ := maps_of_failed hforce hout
  have hruntime : t.runtime = s.runtime := (kept_of_outcome hout).2
  obtain ⟨⟨entries, hentries, htable, hflag⟩, hprojects, hprojectsEnabled⟩ := h.protectionProjects
  refine ⟨⟨hacl.trans h.portAcl.table, haclCount.trans h.portAcl.count, ?_⟩,
    ⟨hl7.trans h.l7Patterns.table, hl7Count.trans h.l7Patterns.count, ?_⟩,
    ⟨⟨entries, hentries, hpolicy.trans htable, henabled.trans hflag⟩, ?_, ?_⟩⟩
  · rw [hruntime, h.portAcl.snapshot]
  · rw [hruntime, h.l7Patterns.snapshot]
  · rw [hruntime, hprojects]
  · rw [hruntime, hprojectsEnabled]

end File

/-! ## Runs -/

/-- What has been asked for: the file applied last, and for each kind the list that the API set last. -/
structure RuleHistory where
  config : Config
  portAcl : Option (List PortAclItem) := none
  l7Patterns : Option (List L7PatternConfig) := none
  protectionProjects : Option (List ProtectionProject) := none

structure RuleRun where
  node : ControlPlane
  history : RuleHistory

inductive RuleEvent where
  | setPortAcl (items : List PortAclItem)
  | setL7Patterns (patterns : List L7PatternConfig)
  | setProtectionProjects (projects : List ProtectionProject)
  | reload (env : ReloadEnv) (file : Except String Config)
  /-- The process ends and starts again with the store as it is. -/
  | restart (env : ReloadEnv) (file : Except String Config)

/-- A list or a file counts when the call returns without an error; after a start that fails there is
no node. -/
def ruleStep (r : RuleRun) : RuleEvent → Option RuleRun
  | .setPortAcl items =>
    match setPortAcl items r.node with
    | (.ok (), node) => some { node, history := { r.history with portAcl := some items } }
    | (.error _, node) => some { r with node }
  | .setL7Patterns patterns =>
    match setL7Patterns patterns r.node with
    | (.ok (), node) => some { node, history := { r.history with l7Patterns := some patterns } }
    | (.error _, node) => some { r with node }
  | .setProtectionProjects projects =>
    match setProtectionProjects projects r.node with
    | (.ok (), node) =>
      some { node, history := { r.history with protectionProjects := some projects } }
    | (.error _, node) => some { r with node }
  | .reload env file =>
    match file, reloadConfigFile env file r.node with
    | .ok config, (.ok (), node) => some { node, history := { r.history with config } }
    | _, (_, node) => some { r with node }
  | .restart env file =>
    match file, startUp env file r.node.store r.node.tables with
    | .ok config, .ok node => some { node, history := { r.history with config } }
    | _, _ => none

/-- The active set of each kind is the last list that the API set, and otherwise the file's list. -/
def RuleRun.Exact (r : RuleRun) : Prop :=
  Active (r.history.portAcl.getD r.history.config.portAcl)
    (r.history.l7Patterns.getD r.history.config.l7Scan.patterns)
    (r.history.protectionProjects.getD r.history.config.protectionProjects) r.node

/-- Where the API has set an empty list, the file's list is empty too. -/
structure RuleHistory.EmptyInFile (h : RuleHistory) (config : Config) : Prop where
  portAcl : h.portAcl = some [] → config.portAcl = []
  l7Patterns : h.l7Patterns = some [] → config.l7Scan.patterns = []
  protectionProjects : h.protectionProjects = some [] → config.protectionProjects = []

/-- A file that is applied brings no list back that the API has emptied, and one that cannot be
applied to the end has the rule sets that are in force. -/
def KeepsApiLists (r : RuleRun) : RuleEvent → Prop
  | .reload env file =>
    ∀ config, acceptedFile env.host file = .ok config →
      (Applies env.csv config env.insertFails r.node → r.history.EmptyInFile config) ∧
        (¬ Applies env.csv config env.insertFails r.node → RuleSetsInForce config r.node)
  | .restart env file =>
    ∀ config, acceptedFile env.host file = .ok config → r.history.EmptyInFile config
  | _ => True

/-! ## What holds of every state -/

/-- The store has the lists that the API has set. -/
structure RuleRun.Inv (r : RuleRun) : Prop where
  exact : r.Exact
  stored : StoredRules r.node.tables
  portAcl : r.node.tables.portAcl = r.history.portAcl
  l7Patterns : r.node.tables.l7Patterns = r.history.l7Patterns
  protectionProjects : r.node.tables.protectionProjects = r.history.protectionProjects

theorem overStored_eq {α : Type} {o : Option (List α)} {file : List α}
    (h : o = some [] → file = []) : overStored (o.getD []) file = o.getD file := by
  cases o with
  | none => rfl
  | some as =>
    by_cases hempty : as = []
    · subst hempty
      exact h rfl
    · exact if_neg hempty

theorem file_of_accepted {host : Host} {file : Except String Config} {config : Config}
    (h : acceptedFile host file = .ok config) : file = .ok config := by
  obtain ⟨c, hc, h⟩ := bind_eq_ok.1 h
  obtain ⟨-, h⟩ := check_bind_eq_ok.1 h
  cases h
  exact hc

/-- The end of every reload and start: the stored lists over those of the file. -/
theorem inv_loadPersisted {u : ControlPlane} {config : Config} {h : RuleHistory}
    (nowNs : UInt64) (readNs : IpKey → UInt64)
    (hactive : Active config.portAcl config.l7Scan.patterns config.protectionProjects u)
    (hstored : StoredRules u.tables) (hacl : u.tables.portAcl = h.portAcl)
    (hl7 : u.tables.l7Patterns = h.l7Patterns)
    (hprojects : u.tables.protectionProjects = h.protectionProjects)
    (hempty : h.EmptyInFile config) :
    RuleRun.Inv ⟨(loadPersisted nowNs readNs u).2, { h with config }⟩ := by
  obtain ⟨t, hpasses, htables, ht⟩ := active_loadPersisted nowNs readNs hstored hactive
  unfold Passes at hpasses
  rw [hpasses]
  refine ⟨?_, htables ▸ hstored, htables ▸ hacl, htables ▸ hl7, htables ▸ hprojects⟩
  have haclList := overStored_eq hempty.portAcl
  have hl7List := overStored_eq hempty.l7Patterns
  have hprojectsList := overStored_eq hempty.protectionProjects
  rw [← hacl] at haclList
  rw [← hl7] at hl7List
  rw [← hprojects] at hprojectsList
  unfold RuleRun.Exact
  rw [← hacl, ← hl7, ← hprojects, ← haclList, ← hl7List, ← hprojectsList]
  exact ht

theorem inv_setPortAcl {r : RuleRun} (h : r.Inv) {items : List PortAclItem}
    (hvalid : validatePortAclItems items = .ok ()) :
    RuleRun.Inv ⟨withPortAcl items r.node, { r.history with portAcl := some items }⟩ where
  exact := h.exact.withPortAcl items
  stored :=
    { h.stored with
      portAcl := fun items' heq => by
        cases heq
        exact hvalid }
  portAcl := rfl
  l7Patterns := h.l7Patterns
  protectionProjects := h.protectionProjects

theorem inv_setL7Patterns {r : RuleRun} (h : r.Inv) {patterns : List L7PatternConfig}
    (hvalid : validateL7Patterns patterns = .ok ()) :
    RuleRun.Inv ⟨withL7Patterns patterns r.node,
      { r.history with l7Patterns := some patterns }⟩ where
  exact := h.exact.withL7Patterns patterns
  stored :=
    { h.stored with
      l7Patterns := fun patterns' heq => by
        cases heq
        exact hvalid }
  portAcl := h.portAcl
  l7Patterns := rfl
  protectionProjects := h.protectionProjects

theorem inv_setProtectionProjects {r : RuleRun} (h : r.Inv) {projects : List ProtectionProject}
    {entries : List ProjectEntry} (hvalid : validateProtectionProjectsList projects = .ok ())
    (hentries : expandProjects projects = .ok entries) :
    RuleRun.Inv ⟨withProjects projects entries r.node,
      { r.history with protectionProjects := some projects }⟩ where
  exact := h.exact.withProjects hentries
  stored :=
    { h.stored with
      protectionProjects := fun projects' heq => by
        cases heq
        exact ⟨hvalid, entries, hentries⟩ }
  portAcl := h.portAcl
  l7Patterns := h.l7Patterns
  protectionProjects := rfl

theorem inv_reload {r r' : RuleRun} {env : ReloadEnv} {file : Except String Config} (h : r.Inv)
    (hcond : KeepsApiLists r (.reload env file)) (hstep : ruleStep r (.reload env file) = some r') :
    r'.Inv := by
  cases hfile : acceptedFile env.host file with
  | error e =>
    dsimp only [ruleStep] at hstep
    rw [reloadConfigFile_of_refused hfile] at hstep
    cases file <;> cases hstep <;> exact h
  | ok config =>
    obtain ⟨hempty, hforce⟩ := hcond config hfile
    rw [file_of_accepted hfile] at hstep hfile
    dsimp only [ruleStep] at hstep
    by_cases happlies : Applies env.csv config env.insertFails r.node
    · obtain ⟨t, hout, hrun⟩ := reloadConfigFile_of_applies hfile happlies
      rw [hrun] at hstep
      cases hstep
      obtain ⟨htables, -⟩ := kept_of_outcome hout
      have hactive : Active config.portAcl config.l7Scan.patterns config.protectionProjects
          (replaceSnapshot config t) :=
        active_of_applied (accepted_of_acceptedFile hfile) hout rfl rfl
      have htables' : (replaceSnapshot config t).tables = r.node.tables := htables
      exact inv_loadPersisted _ _ hactive (htables' ▸ h.stored) (htables' ▸ h.portAcl)
        (htables' ▸ h.l7Patterns) (htables' ▸ h.protectionProjects) (hempty happlies)
    · obtain ⟨e, t, hout, hrun⟩ := reloadConfigFile_of_not_applies hfile happlies
      rw [hrun] at hstep
      cases hstep
      have htables : t.tables = r.node.tables := (kept_of_outcome hout).1
      exact ⟨active_of_failed h.exact (hforce happlies) hout, htables ▸ h.stored,
        htables ▸ h.portAcl, htables ▸ h.l7Patterns, htables ▸ h.protectionProjects⟩

/-- A start from a store with the lists of the history. -/
theorem inv_startUp {env : ReloadEnv} {config : Config} {store : RuleStore} {tables : RuleTables}
    {s : ControlPlane} {h : RuleHistory} (hstart : startUp env (.ok config) store tables = .ok s)
    (hstored : StoredRules tables) (hacl : tables.portAcl = h.portAcl)
    (hl7 : tables.l7Patterns = h.l7Patterns)
    (hprojects : tables.protectionProjects = h.protectionProjects)
    (hempty : h.EmptyInFile config) : RuleRun.Inv ⟨s, { h with config }⟩ := by
  obtain ⟨config', t, hfile, hout, rfl⟩ := startUp_outcome hstart
  cases file_of_accepted hfile
  obtain ⟨htables, hruntime⟩ := kept_of_outcome hout
  have htables' : t.tables = tables := htables
  have hactive : Active config.portAcl config.l7Scan.patterns config.protectionProjects t :=
    active_of_applied (accepted_of_acceptedFile hfile) hout rfl hruntime
  exact inv_loadPersisted _ _ hactive (htables' ▸ hstored) (htables' ▸ hacl) (htables' ▸ hl7)
    (htables' ▸ hprojects) hempty

theorem inv_step {r r' : RuleRun} {event : RuleEvent} (h : r.Inv) (hcond : KeepsApiLists r event)
    (hstep : ruleStep r event = some r') : r'.Inv := by
  cases event with
  | setPortAcl items =>
    dsimp only [ruleStep] at hstep
    cases hvalid : validatePortAclItems items with
    | error e =>
      rw [show setPortAcl items r.node = (.error e, r.node) from
        sequence_cons_of_error (check_of_error hvalid _) _] at hstep
      cases hstep
      exact h
    | ok u =>
      rw [show setPortAcl items r.node = _ from setPortAcl_passes hvalid _] at hstep
      cases hstep
      exact inv_setPortAcl h hvalid
  | setL7Patterns patterns =>
    dsimp only [ruleStep] at hstep
    cases hvalid : validateL7Patterns patterns with
    | error e =>
      rw [show setL7Patterns patterns r.node = (.error e, r.node) from
        sequence_cons_of_error (check_of_error hvalid _) _] at hstep
      cases hstep
      exact h
    | ok u =>
      rw [show setL7Patterns patterns r.node = _ from setL7Patterns_passes hvalid _] at hstep
      cases hstep
      exact inv_setL7Patterns h hvalid
  | setProtectionProjects projects =>
    dsimp only [ruleStep] at hstep
    by_cases hsettable : Settable projects
    · obtain ⟨hvalid, entries, hentries⟩ := hsettable
      rw [show setProtectionProjects projects r.node = _ from
        setProtectionProjects_passes hvalid hentries _] at hstep
      cases hstep
      exact inv_setProtectionProjects h hvalid hentries
    · obtain ⟨e, hrefused⟩ := setProtectionProjects_of_not_settable hsettable r.node
      rw [hrefused] at hstep
      cases hstep
      exact h
  | reload env file => exact inv_reload h hcond hstep
  | restart env file =>
    dsimp only [ruleStep] at hstep
    cases file with
    | error e => cases hstep
    | ok config =>
      cases hstart : startUp env (.ok config) r.node.store r.node.tables with
      | error e =>
        rw [hstart] at hstep
        cases hstep
      | ok node =>
        rw [hstart] at hstep
        cases hstep
        obtain ⟨config', t, hfile, -, -⟩ := startUp_outcome hstart
        cases file_of_accepted hfile
        exact inv_startUp hstart h.stored h.portAcl h.l7Patterns h.protectionProjects
          (hcond config hfile)

/-- A store in which no rule set has been saved yet; its whitelist rows come from `parse_cidr`, which
knows two families. -/
structure FreshRules (tables : RuleTables) : Prop where
  portAcl : tables.portAcl = none
  l7Patterns : tables.l7Patterns = none
  protectionProjects : tables.protectionProjects = none
  whitelist : ∀ c ∈ tables.whitelist.loadWhitelist, c.1.ipFamily ≠ none

theorem FreshRules.stored {tables : RuleTables} (h : FreshRules tables) : StoredRules tables where
  portAcl items heq := by cases h.portAcl.symm.trans heq
  l7Patterns patterns heq := by cases h.l7Patterns.symm.trans heq
  protectionProjects projects heq := by cases h.protectionProjects.symm.trans heq
  whitelist := h.whitelist

/-- After every run from a start in which no file brings back a list that the API has emptied, and no
reload fails behind a rule set that it has changed. -/
theorem api_rule_sets_survive {env : ReloadEnv} {config : Config} {store : RuleStore}
    {tables : RuleTables} {s : ControlPlane} {events : List RuleEvent} {r : RuleRun}
    (hfresh : FreshRules tables) (hstart : startUp env (.ok config) store tables = .ok s)
    (hcond : Along ruleStep KeepsApiLists ⟨s, { config }⟩ events)
    (hrun : exec ruleStep ⟨s, { config }⟩ events = some r) : r.Exact := by
  have hempty : RuleHistory.EmptyInFile { config } config :=
    ⟨fun h => (by cases h), fun h => (by cases h), fun h => (by cases h)⟩
  have hinit : RuleRun.Inv ⟨s, { config }⟩ :=
    inv_startUp (h := { config }) hstart hfresh.stored hfresh.portAcl hfresh.l7Patterns
      hfresh.protectionProjects hempty
  exact (exec_invariant (I := RuleRun.Inv) (fun _ _ _ => inv_step) hinit hcond hrun).exact

/-- A file with one ACL item. -/
def aclFile : Config :=
  { limiterOff with portAcl := [{ protocol := "tcp", dport := "22", action := "drop" }] }

/-- A run from a start with the file. -/
def aclRun (events : List RuleEvent) : Option RuleRun :=
  (startUp plainEnv (.ok aclFile) ∅ {}).toOption.bind fun s =>
    exec ruleStep ⟨s, { config := aclFile }⟩ events

theorem aclRun_eq_some {events : List RuleEvent} {r : RuleRun} (h : aclRun events = some r) :
    ∃ s, startUp plainEnv (.ok aclFile) ∅ {} = .ok s ∧
      exec ruleStep ⟨s, { config := aclFile }⟩ events = some r := by
  unfold aclRun at h
  cases hstart : startUp plainEnv (.ok aclFile) ∅ {} with
  | error e =>
    rw [hstart] at h
    cases h
  | ok s =>
    rw [hstart] at h
    exact ⟨s, rfl, h⟩

/-- The API empties the ACL, and the next reload brings the item of the file back. -/
theorem emptied_acl_comes_back :
    ∃ s r, startUp plainEnv (.ok aclFile) ∅ {} = .ok s ∧
      exec ruleStep ⟨s, { config := aclFile }⟩
        [.setPortAcl [], .reload plainEnv (.ok aclFile)] = some r ∧ ¬ r.Exact := by
  have hview : (aclRun [.setPortAcl [], .reload plainEnv (.ok aclFile)]).map
      (fun r => (r.history.portAcl, r.node.runtime.portAcl)) = some (some [], aclFile.portAcl) := by
    decide +kernel
  obtain ⟨r, hr, hview⟩ := Option.map_eq_some_iff.1 hview
  obtain ⟨s, hstart, hrun⟩ := aclRun_eq_some hr
  obtain ⟨hapi, hactive⟩ := Prod.mk.inj hview
  refine ⟨s, r, hstart, hrun, fun h => ?_⟩
  have hsnapshot := h.portAcl.snapshot
  rw [hapi, hactive] at hsnapshot
  cases hsnapshot

/-- The item that the API sets instead. -/
def apiItem : PortAclItem := { protocol := "udp", dport := "53", action := "drop" }

/-- A list with an item survives a restart. -/
theorem api_rule_sets_survive_item :
    ∃ s r, startUp plainEnv (.ok aclFile) ∅ {} = .ok s ∧
      exec ruleStep ⟨s, { config := aclFile }⟩
        [.setPortAcl [apiItem], .restart plainEnv (.ok aclFile)] = some r ∧
      r.history.portAcl = some [apiItem] ∧ r.Exact := by
  have hview : (aclRun [.setPortAcl [apiItem], .restart plainEnv (.ok aclFile)]).map
      (fun r => r.history.portAcl) = some (some [apiItem]) := by decide +kernel
  obtain ⟨r, hr, hapi⟩ := Option.map_eq_some_iff.1 hview
  obtain ⟨s, hstart, hrun⟩ := aclRun_eq_some hr
  have hfresh : FreshRules {} := ⟨rfl, rfl, rfl, fun c hc => by cases hc⟩
  have hcond : Along ruleStep KeepsApiLists ⟨s, { config := aclFile }⟩
      [.setPortAcl [apiItem], .restart plainEnv (.ok aclFile)] := by
    refine ⟨trivial, fun r₁ hr₁ => ⟨fun config _ => ?_, fun _ _ => trivial⟩⟩
    dsimp only [ruleStep] at hr₁
    split at hr₁
    · cases hr₁
      exact ⟨fun h => (by cases h), fun h => (by cases h), fun h => (by cases h)⟩
    · cases hr₁
      exact ⟨fun h => (by cases h), fun h => (by cases h), fun h => (by cases h)⟩
  exact ⟨s, r, hstart, hrun, hapi, api_rule_sets_survive hfresh hstart hcond hrun⟩

end EShield.Node
