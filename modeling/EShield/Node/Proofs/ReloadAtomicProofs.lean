import EShield.Node.Proofs.LimiterProofs

/-!
# Reloads that fail

A file is checked before anything is written, but three parts of it can still fail after that: the
projects, the whitelist and the GeoIP lists. What the parts before have written stays, so a failed
reload changes nothing exactly when all of that was in force already.
-/

namespace EShield.Node

open Attempt ControlPlane Ebpf

/-! ## The same policies -/

/-- `t` has the policy maps, the snapshots and the tracking lists of `s`. A trie is the set of its
prefixes, a tracking list the set of its members. -/
structure SamePolicies (s t : ControlPlane) : Prop where
  config : t.maps.config = s.maps.config
  rateLimit : t.maps.rateLimitCfg = s.maps.rateLimitCfg
  portRateLimit : t.maps.portRateLimitCfg = s.maps.portRateLimitCfg
  portAcl : t.maps.portAcl = s.maps.portAcl
  l7Patterns : t.maps.l7Patterns = s.maps.l7Patterns
  projects : t.maps.projectPolicy = s.maps.projectPolicy
  whitelistTries : ∀ c, (whitelistTries t.maps).Holds c ↔ (whitelistTries s.maps).Holds c
  blacklistMap : t.maps.blacklist = s.maps.blacklist
  geoipBlockTries : ∀ c, t.geoipLists.blockTries.Holds c ↔ s.geoipLists.blockTries.Holds c
  geoipAllowTries : ∀ c, t.geoipLists.allowTries.Holds c ↔ s.geoipLists.allowTries.Holds c
  runtime : t.runtime = s.runtime
  adaptive : t.adaptive = s.adaptive
  whitelist : ∀ c, c ∈ t.whitelist ↔ c ∈ s.whitelist
  blacklist : ∀ key, key ∈ t.blacklist ↔ key ∈ s.blacklist
  geoipBlocks : ∀ c, c ∈ t.geoipBlocks ↔ c ∈ s.geoipBlocks
  geoipAllows : ∀ c, c ∈ t.geoipAllows ↔ c ∈ s.geoipAllows

theorem SamePolicies.refl (s : ControlPlane) : SamePolicies s s where
  config := rfl
  rateLimit := rfl
  portRateLimit := rfl
  portAcl := rfl
  l7Patterns := rfl
  projects := rfl
  whitelistTries _ := Iff.rfl
  blacklistMap := rfl
  geoipBlockTries _ := Iff.rfl
  geoipAllowTries _ := Iff.rfl
  runtime := rfl
  adaptive := rfl
  whitelist _ := Iff.rfl
  blacklist _ := Iff.rfl
  geoipBlocks _ := Iff.rfl
  geoipAllows _ := Iff.rfl

/-! ## What is in force already -/

/-- The limiters' parameters, the L7 patterns and the port ACL of the file are those in the maps. -/
structure EarlyInForce (config : Config) (s : ControlPlane) : Prop where
  limits : fileLimits config = (s.maps.rateLimitCfg, s.maps.portRateLimitCfg)
  l7Patterns : writeL7Patterns config.l7Scan.patterns s.maps = s.maps
  portAcl : writePortAcl config.portAcl s.maps = s.maps

/-- So are its projects. -/
structure RulesInForce (config : Config) (entries : List ProjectEntry) (s : ControlPlane) :
    Prop extends EarlyInForce config s where
  projects : writeProjects entries s.maps = s.maps

section InForce

variable {config : Config} {entries : List ProjectEntry} {s t : ControlPlane}

theorem EarlyInForce.eq (h : EarlyInForce config s) : withEarlyParts config s = s := by
  obtain ⟨hrate, hport⟩ := Prod.mk.inj h.limits
  obtain ⟨hl7, hl7Count⟩ := writeL7Patterns_eq_self.1 h.l7Patterns
  obtain ⟨hacl, haclCount⟩ := writePortAcl_eq_self.1 h.portAcl
  have hrate' : (initRateLimitMap config s.maps).rateLimitCfg = s.maps.rateLimitCfg := hrate
  have hport' : (initPortRateMap config s.maps).portRateLimitCfg = s.maps.portRateLimitCfg := hport
  unfold withEarlyParts
  rw [hrate', hport', ← hl7, ← hl7Count, ← hacl, ← haclCount]

theorem RulesInForce.eq (h : RulesInForce config entries s) : withRules config entries s = s := by
  unfold withRules
  rw [h.toEarlyInForce.eq, h.projects]

/-- The parts of `t` that the early parts of a file write. -/
theorem earlyInForce_of_same (h : SamePolicies s t)
    (hrate : t.maps.rateLimitCfg = (fileLimits config).1)
    (hport : t.maps.portRateLimitCfg = (fileLimits config).2)
    (hl7 : t.maps.l7Patterns = l7Table config.l7Scan.patterns)
    (hl7Count : t.maps.config.l7PatternCount =
      tableCount config.l7Scan.patterns.length MAX_L7_PATTERNS)
    (hacl : t.maps.portAcl = portAclTable config.portAcl)
    (haclCount : t.maps.config.portAclCount = tableCount config.portAcl.length MAX_PORT_ACL) :
    EarlyInForce config s where
  limits := Prod.ext (hrate.symm.trans h.rateLimit) (hport.symm.trans h.portRateLimit)
  l7Patterns :=
    writeL7Patterns_eq_self.2 ⟨h.l7Patterns.symm.trans hl7, by rw [← h.config, hl7Count]⟩
  portAcl := writePortAcl_eq_self.2 ⟨h.portAcl.symm.trans hacl, by rw [← h.config, haclCount]⟩

theorem rulesInForce_of_same (h : SamePolicies s t)
    (hmaps : ∃ tries blacklist,
      t.maps =
        setWhitelistTries { (withRules config entries s).maps with blacklist := blacklist } tries) :
    RulesInForce config entries s := by
  obtain ⟨tries, blacklist, hmaps⟩ := hmaps
  refine ⟨earlyInForce_of_same h ?_ ?_ ?_ ?_ ?_ ?_, writeProjects_eq_self.2 ⟨?_, ?_⟩⟩
  · rw [hmaps]; rfl
  · rw [hmaps]; rfl
  · rw [hmaps]; rfl
  · rw [hmaps]; rfl
  · rw [hmaps]; rfl
  · rw [hmaps]; rfl
  · rw [← h.projects, hmaps]; rfl
  · rw [← h.config, hmaps]; rfl

end InForce

/-! ## Lists that stay -/

section Lists

variable {config : Config} {entries : List ProjectEntry} {s : ControlPlane} {new : List Cidr}
  {static : List IpKey}

theorem whitelistChanges_of_same {current new : List Cidr} (h : ∀ c, c ∈ new ↔ c ∈ current) :
    whitelistChanges current new = [] := by
  have hremoved : current.filter (· ∉ new) = [] :=
    List.filter_eq_nil_iff.2 fun c hc => by simpa using (h c).2 hc
  have hadded : new.filter (· ∉ current) = [] :=
    List.filter_eq_nil_iff.2 fun c hc => by simpa using (h c).1 hc
  unfold whitelistChanges
  rw [hremoved, hadded]
  rfl

theorem changeStatic_of_same {current new : List IpKey} (h : ∀ key, key ∈ new ↔ key ∈ current)
    (blacklist : LruHashMap IpKey BlockEntry) : changeStatic current new blacklist = blacklist := by
  have hremove : ∀ keys : List IpKey, (∀ key ∈ keys, key ∈ new) →
      keys.foldl (removeStatic new) blacklist = blacklist := by
    intro keys hkeys
    induction keys with
    | nil => rfl
    | cons key keys ih =>
      obtain ⟨hkey, hrest⟩ := List.forall_mem_cons.1 hkeys
      rw [List.foldl_cons, show removeStatic new blacklist key = blacklist from if_pos hkey]
      exact ih hrest
  have hadd : ∀ keys : List IpKey, (∀ key ∈ keys, key ∈ current) →
      keys.foldl (addStatic current) blacklist = blacklist := by
    intro keys hkeys
    induction keys with
    | nil => rfl
    | cons key keys ih =>
      obtain ⟨hkey, hrest⟩ := List.forall_mem_cons.1 hkeys
      rw [List.foldl_cons, show addStatic current blacklist key = blacklist from if_pos hkey]
      exact ih hrest
  unfold changeStatic
  rw [hremove current fun key hkey => (h key).2 hkey]
  exact hadd new fun key hkey => (h key).1 hkey

/-- With its rules in force and its lists those tracked, a file changes only the tracking lists, to
the same members. -/
theorem withLists_of_same (hrules : RulesInForce config entries s)
    (hnew : ∀ c, c ∈ new ↔ c ∈ s.whitelist) (hstatic : ∀ key, key ∈ static ↔ key ∈ s.blacklist) :
    withLists config entries new static s = { s with whitelist := new, blacklist := static } := by
  unfold withLists
  rw [hrules.eq]
  unfold withWhitelist withBlacklist
  rw [whitelistChanges_of_same hnew]
  dsimp only [List.foldl_nil]
  rw [changeStatic_of_same hstatic]
  rfl

end Lists

/-! ## Failing without harm -/

/-- Wherever the file fails, all that comes before is in force already: nothing that a failing part
leaves behind differs from what was there. -/
structure FailsHarmlessly (csv : CsvFiles) (config : Config) (s : ControlPlane) : Prop where
  tooManyEntries : ∀ e, expandProjects config.protectionProjects = .error e →
    EarlyInForce config s
  /-- The changes before the first removal of an absent prefix cancel out. -/
  prefixAbsent : ∀ entries new pre c, expandProjects config.protectionProjects = .ok entries →
    configWhitelist config = .ok new →
    StopsAfter (whitelistTries s.maps) (whitelistChanges s.whitelist new) pre c →
      RulesInForce config entries s ∧
        ∀ d, (pre.foldl TrieChange.effect (whitelistTries s.maps)).Holds d ↔
          (whitelistTries s.maps).Holds d
  /-- The tracked GeoIP lists are forgotten before the files are read. -/
  listUnreadable : ∀ entries new static e, expandProjects config.protectionProjects = .ok entries →
    configWhitelist config = .ok new →
    Possible (whitelistTries s.maps) (whitelistChanges s.whitelist new) →
    configBlacklist config = .ok static → loadGeoipLists csv config.geoip = .error e →
      RulesInForce config entries s ∧ (∀ c, c ∈ new ↔ c ∈ s.whitelist) ∧
        (∀ key, key ∈ static ↔ key ∈ s.blacklist) ∧ s.geoipBlocks = [] ∧ s.geoipAllows = []

section Outcome

variable {csv : CsvFiles} {config : Config} {s t : ControlPlane} {e : String}

theorem same_of_failsHarmlessly (hout : ReloadOutcome csv config none s (.error e, t))
    (h : FailsHarmlessly csv config s) : SamePolicies s t := by
  cases hout with
  | tooManyEntries hentries =>
    rw [(h.tooManyEntries _ hentries).eq]
    exact SamePolicies.refl s
  | prefixAbsent hentries hnew hstops =>
    obtain ⟨hrules, hheld⟩ := h.prefixAbsent _ _ _ _ hentries hnew hstops
    rw [hrules.eq]
    exact { SamePolicies.refl s with whitelistTries := hheld }
  | listUnreadable hentries hnew hpossible hstatic hgeoip =>
    obtain ⟨hrules, hwhitelist, hblacklist, hblocks, hallows⟩ :=
      h.listUnreadable _ _ _ _ hentries hnew hpossible hstatic hgeoip
    rw [withLists_of_same hrules hwhitelist hblacklist]
    exact
      { SamePolicies.refl s with
        whitelist := hwhitelist
        blacklist := hblacklist
        geoipBlocks := fun c => by rw [hblocks]
        geoipAllows := fun c => by rw [hallows] }
  | trieFull _ _ _ _ _ hfails =>
    obtain ⟨n, hn, -⟩ := hfails
    cases hn

theorem failsHarmlessly_of_same (hout : ReloadOutcome csv config none s (.error e, t))
    (h : SamePolicies s t) : FailsHarmlessly csv config s := by
  cases hout with
  | tooManyEntries hentries =>
    have hearly := earlyInForce_of_same h rfl rfl rfl rfl rfl rfl
    refine ⟨fun _ _ => hearly, fun _ _ _ _ hok => ?_, fun _ _ _ _ hok => ?_⟩
    · rw [hentries] at hok
      cases hok
    · rw [hentries] at hok
      cases hok
  | prefixAbsent hentries hnew hstops =>
    refine ⟨fun _ herror => ?_, fun _ _ _ _ hentries' hnew' hstops' => ?_,
      fun _ _ _ _ _ hnew' hpossible => ?_⟩
    · rw [hentries] at herror
      cases herror
    · rw [hentries] at hentries'
      rw [hnew] at hnew'
      cases hentries'
      cases hnew'
      refine ⟨rulesInForce_of_same h ⟨_, _, rfl⟩, ?_⟩
      have hrun := (applyChanges_of_stops hstops').symm.trans (applyChanges_of_stops hstops)
      rw [(Prod.mk.inj hrun).2]
      exact h.whitelistTries
    · rw [hnew] at hnew'
      cases hnew'
      exact absurd hpossible (not_possible_of_stops hstops)
  | listUnreadable hentries hnew hpossible hstatic hgeoip =>
    refine ⟨fun _ herror => ?_, fun _ _ _ _ _ hnew' hstops => ?_,
      fun _ _ _ _ hentries' hnew' _ hstatic' _ => ?_⟩
    · rw [hentries] at herror
      cases herror
    · rw [hnew] at hnew'
      cases hnew'
      exact absurd hpossible (not_possible_of_stops hstops)
    · rw [hentries] at hentries'
      rw [hnew] at hnew'
      rw [hstatic] at hstatic'
      cases hentries'
      cases hnew'
      cases hstatic'
      refine ⟨rulesInForce_of_same h ⟨_, _, rfl⟩, h.whitelist, h.blacklist, ?_, ?_⟩
      · exact List.eq_nil_iff_forall_not_mem.2 fun c hc => by
          cases (h.geoipBlocks c).2 hc
      · exact List.eq_nil_iff_forall_not_mem.2 fun c hc => by
          cases (h.geoipAllows c).2 hc
  | trieFull _ _ _ _ _ hfails =>
    obtain ⟨n, hn, -⟩ := hfails
    cases hn

/-- A file that is applied does not fail at all. -/
theorem failsHarmlessly_of_applies (h : Applies csv config none s) :
    FailsHarmlessly csv config s := by
  obtain ⟨⟨entries, hentries⟩, hwhitelist, blocks, allows, hgeoip, -⟩ := h
  refine ⟨fun _ herror => ?_, fun _ _ _ _ _ hnew hstops => ?_, fun _ _ _ _ _ _ _ _ herror => ?_⟩
  · rw [hentries] at herror
    cases herror
  · exact absurd (hwhitelist _ hnew) (not_possible_of_stops hstops)
  · rw [hgeoip] at herror
    cases herror

end Outcome

/-- A reload that fails, insertions into the GeoIP tries aside, leaves every policy as it was exactly
when its file fails harmlessly. -/
theorem reload_all_or_nothing {env : ReloadEnv} {file : Except String Config} {s : ControlPlane}
    (hinserts : env.insertFails = none) :
    ((∃ e, (reloadConfigFile env file s).1 = .error e) →
        SamePolicies s (reloadConfigFile env file s).2) ↔
      ∀ config, acceptedFile env.host file = .ok config → FailsHarmlessly env.csv config s := by
  cases hfile : acceptedFile env.host file with
  | error e =>
    rw [reloadConfigFile_of_refused hfile]
    exact ⟨fun _ _ h => (by cases h), fun _ _ => SamePolicies.refl s⟩
  | ok config =>
    by_cases happlies : Applies env.csv config env.insertFails s
    · obtain ⟨t, -, hrun⟩ := reloadConfigFile_of_applies hfile happlies
      rw [hrun]
      refine ⟨fun _ c h => ?_, fun _ ⟨e, he⟩ => by cases he⟩
      cases h
      rw [hinserts] at happlies
      exact failsHarmlessly_of_applies happlies
    · obtain ⟨e, t, hout, hrun⟩ := reloadConfigFile_of_not_applies hfile happlies
      rw [hinserts] at hout
      rw [hrun]
      constructor
      · intro h c hc
        cases hc
        exact failsHarmlessly_of_same hout (h ⟨e, rfl⟩)
      · intro h _
        exact same_of_failsHarmlessly hout (h config rfl)

/-- A host whose GeoIP file cannot be parsed. -/
def brokenCsv : ReloadEnv := { plainEnv with csv := fun _ => some (.error "CSV error") }

/-- The file of before with a country to block and a new threshold. -/
def withCountry (threshold : UInt64) : Config :=
  { limiterOff with
    rateLimit := { limiterOff.rateLimit with threshold := threshold }
    geoip :=
      { enabled := true, countryBlocksCsv := some "country.csv", blockCountries := ["XX"]
        defaultAction := "pass" } }

/-- The reload fails and the new threshold is there. -/
theorem failed_reload_changes_threshold :
    ∃ s, startUp plainEnv (.ok limiterOff) ∅ {} = .ok s ∧
      (∃ e, (reloadConfigFile brokenCsv (.ok (withCountry 5)) s).1 = .error e) ∧
      ¬ SamePolicies s (reloadConfigFile brokenCsv (.ok (withCountry 5)) s).2 := by
  refine ⟨_, rfl, ⟨_, rfl⟩, fun h => ?_⟩
  exact absurd (congrArg RateLimitConfig.threshold h.rateLimit) (by decide)

/-- With the threshold of before, nothing has changed. -/
theorem reload_all_or_nothing_same_threshold :
    ∃ s, startUp plainEnv (.ok limiterOff) ∅ {} = .ok s ∧
      SamePolicies s (reloadConfigFile brokenCsv (.ok (withCountry 0)) s).2 := by
  obtain ⟨s, hs⟩ : ∃ s, startUp plainEnv (.ok limiterOff) ∅ {} = .ok s := ⟨_, rfl⟩
  have hharmless : FailsHarmlessly brokenCsv.csv (withCountry 0) s := by
    cases hs
    refine ⟨fun _ herror => (by cases herror), fun _ _ pre c _ hnew hstops => ?_,
      fun _ new static _ hentries hnew _ hstatic _ => ?_⟩
    · cases hnew
      obtain ⟨post, hsplit⟩ := hstops.split
      cases pre <;> cases hsplit
    · cases hentries
      cases hnew
      cases hstatic
      exact ⟨⟨⟨rfl, writeL7Patterns_eq_self.2 ⟨rfl, rfl⟩, writePortAcl_eq_self.2 ⟨rfl, rfl⟩⟩,
        writeProjects_eq_self.2 ⟨rfl, rfl⟩⟩, fun _ => Iff.rfl, fun _ => Iff.rfl, rfl, rfl⟩
  refine ⟨s, hs, (reload_all_or_nothing rfl).2 (fun config hfile => ?_) ?_⟩
  · cases hfile
    exact hharmless
  · cases hs
    exact ⟨_, rfl⟩

end EShield.Node
