import EShield.Node.Proofs.GeoipProofs
import EShield.Node.Proofs.InForceProofs

/-!
# What a reload does, part by part

The parts of an accepted file run in order, and only three of them can fail: the projects, the
whitelist and the GeoIP lists. `ReloadOutcome` has one case for each way to end, with the state that
is left behind.
-/

namespace EShield.Node

open Attempt Checks ControlPlane Ebpf

/-! ## Changes of the whitelist tries -/

/-- A change once it is known to be possible. -/
def TrieChange.effect (t : CidrTries) : TrieChange → CidrTries
  | .remove c => t.remove c
  | .insert c => t.insert c

/-- Each removal finds its prefix in the tries. -/
def Possible : CidrTries → List TrieChange → Prop
  | _, [] => True
  | t, change :: changes =>
    (match change with
      | .remove c => t.Holds c
      | .insert _ => True) ∧ Possible (change.effect t) changes

/-- The changes stop at a removal, that of `c`, after those of `pre`. -/
structure StopsAfter (t : CidrTries) (changes pre : List TrieChange) (c : Cidr) : Prop where
  split : ∃ post, changes = pre ++ .remove c :: post
  possible : Possible t pre
  absent : ¬ (pre.foldl TrieChange.effect t).Holds c

theorem TrieChange.apply_remove_of_held {t : CidrTries} {c : Cidr} (h : t.Holds c) :
    (TrieChange.remove c).apply.Passes t (t.remove c) := by
  refine passes_commit.2 ?_
  rw [rejectIf_neg (not_not.2 h)]
  rfl

theorem TrieChange.apply_remove_of_absent {t : CidrTries} {c : Cidr} (h : ¬ t.Holds c) :
    (TrieChange.remove c).apply t = (.error "bpf_map_delete_elem", t) := by
  unfold TrieChange.apply
  dsimp only [Attempt.commit]
  rw [rejectIf_pos h]
  rfl

theorem apply_of_possible {t : CidrTries} {change : TrieChange} {changes : List TrieChange}
    (h : Possible t (change :: changes)) : change.apply.Passes t (change.effect t) := by
  cases change with
  | remove c => exact TrieChange.apply_remove_of_held h.1
  | insert c => exact passes_write.2 rfl

theorem applyChanges_of_possible {t : CidrTries} {changes : List TrieChange}
    (h : Possible t changes) :
    (Attempt.sequence (changes.map TrieChange.apply)).Passes t
      (changes.foldl TrieChange.effect t) := by
  induction changes generalizing t with
  | nil => rfl
  | cons change changes ih =>
    exact passes_cons.2 ⟨_, apply_of_possible h, ih h.2⟩

theorem applyChanges_of_stops {t : CidrTries} {changes pre : List TrieChange} {c : Cidr}
    (h : StopsAfter t changes pre c) :
    Attempt.sequence (changes.map TrieChange.apply) t =
      (.error "bpf_map_delete_elem", pre.foldl TrieChange.effect t) := by
  obtain ⟨⟨post, rfl⟩, hpossible, habsent⟩ := h
  induction pre generalizing t with
  | nil => exact sequence_cons_of_error (TrieChange.apply_remove_of_absent habsent) _
  | cons change pre ih =>
    have hfirst := apply_of_possible hpossible
    rw [List.cons_append, List.map_cons, hfirst.sequence_cons]
    exact ih hpossible.2 habsent

theorem possible_or_stops (t : CidrTries) (changes : List TrieChange) :
    Possible t changes ∨ ∃ pre c, StopsAfter t changes pre c := by
  induction changes generalizing t with
  | nil => exact .inl trivial
  | cons change changes ih =>
    by_cases hfirst : Possible t [change]
    · rcases ih (change.effect t) with hrest | ⟨pre, c, ⟨post, rfl⟩, hpossible, habsent⟩
      · exact .inl ⟨hfirst.1, hrest⟩
      · exact .inr ⟨change :: pre, c, ⟨post, rfl⟩, ⟨hfirst.1, hpossible⟩, habsent⟩
    · right
      cases change with
      | remove c => exact ⟨[], c, ⟨changes, rfl⟩, trivial, fun h => hfirst ⟨h, trivial⟩⟩
      | insert c => exact absurd ⟨trivial, trivial⟩ hfirst

theorem not_possible_of_stops {t : CidrTries} {changes pre : List TrieChange} {c : Cidr}
    (h : StopsAfter t changes pre c) : ¬ Possible t changes := by
  intro hpossible
  have hpasses := applyChanges_of_possible hpossible
  unfold Passes at hpasses
  rw [applyChanges_of_stops h] at hpasses
  cases hpasses

/-! ## The whitelist and the static blacklist -/

theorem configWhitelist_eq_ok {config : Config} (h : Accepted config) :
    ∃ new, configWhitelist config = .ok new := by
  obtain ⟨cs, hcs⟩ := exists_forall₂ h.whitelist
  exact ⟨cs.dedup, congrArg (Except.map List.dedup) (mapM_eq_ok.2 hcs)⟩

theorem configBlacklist_eq_ok {config : Config} (h : Accepted config) :
    ∃ new, configBlacklist config = .ok new := by
  obtain ⟨keys, hkeys⟩ := exists_forall₂ h.blacklist
  exact ⟨keys.dedup, congrArg (Except.map List.dedup) (mapM_eq_ok.2 hkeys)⟩

section Lists

variable {config : Config} {s : ControlPlane} {new : List Cidr}

/-- The state with other whitelist tries. -/
def withTries (t : CidrTries) (s : ControlPlane) : ControlPlane :=
  { s with maps := setWhitelistTries s.maps t }

/-- The whitelist of the file in the tries and tracked. -/
def withWhitelist (new : List Cidr) (s : ControlPlane) : ControlPlane :=
  { s with
    maps :=
      setWhitelistTries s.maps
        ((whitelistChanges s.whitelist new).foldl TrieChange.effect (whitelistTries s.maps))
    whitelist := new }

def withBlacklist (new : List IpKey) (s : ControlPlane) : ControlPlane :=
  { s with
    maps := { s.maps with blacklist := changeStatic s.blacklist new s.maps.blacklist }
    blacklist := new }

theorem onWhitelist_of_possible (hnew : configWhitelist config = .ok new)
    (h : Possible (whitelistTries s.maps) (whitelistChanges s.whitelist new)) :
    (onWhitelist (applyWhitelistMap config)).Passes s (withWhitelist new s) := by
  refine passes_zoom.2 ⟨((withWhitelist new s).maps, new), ?_, rfl⟩
  have hrun := applyChanges_of_possible h
  unfold Passes at hrun ⊢
  unfold applyWhitelistMap
  rw [hnew]
  dsimp only
  rw [hrun]
  rfl

theorem onWhitelist_of_stops {pre : List TrieChange} {c : Cidr}
    (hnew : configWhitelist config = .ok new)
    (h : StopsAfter (whitelistTries s.maps) (whitelistChanges s.whitelist new) pre c) :
    onWhitelist (applyWhitelistMap config) s =
      (.error "bpf_map_delete_elem",
        withTries (pre.foldl TrieChange.effect (whitelistTries s.maps)) s) := by
  unfold onWhitelist Attempt.zoom applyWhitelistMap
  rw [hnew]
  dsimp only
  rw [applyChanges_of_stops h]
  rfl

theorem onBlacklist_passes {new : List IpKey} (hnew : configBlacklist config = .ok new)
    (s : ControlPlane) :
    (onBlacklist (applyBlacklistMap config)).Passes s (withBlacklist new s) := by
  refine passes_zoom.2 ⟨((withBlacklist new s).maps, new), passes_commit.2 ?_, rfl⟩
  rw [hnew]
  rfl

theorem onGeoip_of_eq {a : Attempt GeoipLists String} {r : Except String Unit} {g : GeoipLists}
    (h : a s.geoipLists = (r, g)) : onGeoip a s = (r, setGeoipLists s g) := by
  unfold onGeoip Attempt.zoom
  rw [h]

end Lists

/-! ## The outcome -/

/-- The parts that an accepted file cannot fail in: the parameters of the limiters, the L7 patterns
and the port ACL. -/
def withEarlyParts (config : Config) (s : ControlPlane) : ControlPlane :=
  { s with
    maps :=
      { s.maps with
        rateLimitCfg := (initRateLimitMap config s.maps).rateLimitCfg
        portRateLimitCfg := (initPortRateMap config s.maps).portRateLimitCfg
        l7Patterns := l7Table config.l7Scan.patterns
        portAcl := portAclTable config.portAcl
        config :=
          { s.maps.config with
            l7PatternCount := tableCount config.l7Scan.patterns.length MAX_L7_PATTERNS
            portAclCount := tableCount config.portAcl.length MAX_PORT_ACL } } }

/-- The same and the projects. -/
def withRules (config : Config) (entries : List ProjectEntry) (s : ControlPlane) : ControlPlane :=
  { s with maps := writeProjects entries (withEarlyParts config s).maps }

theorem whitelistTries_withRules (config : Config) (entries : List ProjectEntry)
    (s : ControlPlane) : whitelistTries (withRules config entries s).maps = whitelistTries s.maps :=
  rfl

/-- The rules and both lists of addresses. -/
def withLists (config : Config) (entries : List ProjectEntry) (new : List Cidr)
    (static : List IpKey) (s : ControlPlane) : ControlPlane :=
  withBlacklist static (withWhitelist new (withRules config entries s))

/-- The GeoIP lists and CONFIG, which come last. -/
def withGeoip (config : Config) (blocks allows : List Cidr) (s : ControlPlane) : ControlPlane :=
  let t := setGeoipLists s (applyGeoipMap.written s.geoipLists blocks allows).2
  { t with maps := initConfigMap config t.maps }

/-- How the parts of a file may end. -/
inductive ReloadOutcome (csv : CsvFiles) (config : Config) (insertFails : Option Nat)
    (s : ControlPlane) : Except String Unit × ControlPlane → Prop where
  | tooManyEntries {e : String} (hentries : expandProjects config.protectionProjects = .error e) :
    ReloadOutcome csv config insertFails s (.error e, withEarlyParts config s)
  | prefixAbsent {entries : List ProjectEntry} {new : List Cidr} {pre : List TrieChange} {c : Cidr}
    (hentries : expandProjects config.protectionProjects = .ok entries)
    (hnew : configWhitelist config = .ok new)
    (hstops : StopsAfter (whitelistTries s.maps) (whitelistChanges s.whitelist new) pre c) :
    ReloadOutcome csv config insertFails s
      (.error "bpf_map_delete_elem",
        withTries (pre.foldl TrieChange.effect (whitelistTries s.maps))
          (withRules config entries s))
  | listUnreadable {entries : List ProjectEntry} {new : List Cidr} {static : List IpKey} {e : String}
    (hentries : expandProjects config.protectionProjects = .ok entries)
    (hnew : configWhitelist config = .ok new)
    (hpossible : Possible (whitelistTries s.maps) (whitelistChanges s.whitelist new))
    (hstatic : configBlacklist config = .ok static)
    (hgeoip : loadGeoipLists csv config.geoip = .error e) :
    ReloadOutcome csv config insertFails s
      (.error e, { withLists config entries new static s with geoipBlocks := [], geoipAllows := [] })
  | trieFull {entries : List ProjectEntry} {new : List Cidr} {static : List IpKey}
    {blocks allows : List Cidr} {g : GeoipLists}
    (hentries : expandProjects config.protectionProjects = .ok entries)
    (hnew : configWhitelist config = .ok new)
    (hpossible : Possible (whitelistTries s.maps) (whitelistChanges s.whitelist new))
    (hstatic : configBlacklist config = .ok static)
    (hgeoip : loadGeoipLists csv config.geoip = .ok (blocks, allows))
    (hfails : InsertFails insertFails blocks allows) :
    ReloadOutcome csv config insertFails s
      (.error "bpf_map_update_elem", setGeoipLists (withLists config entries new static s) g)
  | applied {entries : List ProjectEntry} {new : List Cidr} {static : List IpKey}
    {blocks allows : List Cidr}
    (hentries : expandProjects config.protectionProjects = .ok entries)
    (hnew : configWhitelist config = .ok new)
    (hpossible : Possible (whitelistTries s.maps) (whitelistChanges s.whitelist new))
    (hstatic : configBlacklist config = .ok static)
    (hgeoip : loadGeoipLists csv config.geoip = .ok (blocks, allows))
    (hfails : ¬ InsertFails insertFails blocks allows) :
    ReloadOutcome csv config insertFails s
      (.ok (), withGeoip config blocks allows (withLists config entries new static s))

section Outcome

variable {csv : CsvFiles} {config : Config} {insertFails : Option Nat} {s : ControlPlane}

theorem earlyParts_run (h : Accepted config) (rest : List (Attempt ControlPlane String)) :
    Attempt.sequence (onMaps (.write (initRateLimitMap config)) ::
      onMaps (.write (initPortRateMap config)) ::
      onMaps (initL7PatternsMap config.l7Scan.patterns) ::
      onMaps (initPortAclMap config.portAcl) :: rest) s =
      Attempt.sequence rest (withEarlyParts config s) := by
  rw [(onMaps_passes (passes_write.2 rfl)).sequence_cons,
    (onMaps_passes (passes_write.2 rfl)).sequence_cons,
    (onMaps_passes (initL7PatternsMap_passes h.l7Patterns _)).sequence_cons,
    (onMaps_passes (initPortAclMap_passes h.portAcl _)).sequence_cons]
  rfl

/-- The two parts behind the lists of addresses. -/
def lastParts (csv : CsvFiles) (config : Config) (insertFails : Option Nat) :
    List (Attempt ControlPlane String) :=
  [onGeoip (applyGeoipMap csv config.geoip insertFails), onMaps (.write (initConfigMap config))]

theorem lastParts_of_unreadable {e : String} (h : loadGeoipLists csv config.geoip = .error e) :
    Attempt.sequence (lastParts csv config insertFails) s =
      (.error e, { s with geoipBlocks := [], geoipAllows := [] }) :=
  sequence_cons_of_error (onGeoip_of_eq (applyGeoipMap_of_unreadable h)) _

theorem lastParts_of_full {blocks allows : List Cidr}
    (h : loadGeoipLists csv config.geoip = .ok (blocks, allows))
    (hfails : InsertFails insertFails blocks allows) :
    ∃ g, Attempt.sequence (lastParts csv config insertFails) s =
      (.error "bpf_map_update_elem", setGeoipLists s g) := by
  obtain ⟨n, rfl, hn⟩ := hfails
  exact ⟨_, sequence_cons_of_error (onGeoip_of_eq (applyGeoipMap_of_full h hn)) _⟩

theorem lastParts_of_written {blocks allows : List Cidr}
    (h : loadGeoipLists csv config.geoip = .ok (blocks, allows))
    (hfails : ¬ InsertFails insertFails blocks allows) :
    (Attempt.sequence (lastParts csv config insertFails)).Passes s
      (withGeoip config blocks allows s) := by
  have hrun : (onGeoip (applyGeoipMap csv config.geoip insertFails)).Passes s
      (setGeoipLists s (applyGeoipMap.written s.geoipLists blocks allows).2) :=
    onGeoip_of_eq (applyGeoipMap_of_written h hfails)
  exact (hrun.sequence_cons _).trans rfl

theorem reloadParts_outcome (h : Accepted config) :
    ReloadOutcome csv config insertFails s
      (Attempt.sequence (reloadParts csv config insertFails) s) := by
  unfold reloadParts
  rw [earlyParts_run h]
  cases hentries : expandProjects config.protectionProjects with
  | error e =>
    have hrun : onMaps (initProtectionProjectsMap config.protectionProjects)
        (withEarlyParts config s) = (.error e, withEarlyParts config s) := by
      unfold onMaps Attempt.zoom
      rw [initProtectionProjectsMap_of_error hentries]
    rw [sequence_cons_of_error hrun]
    exact .tooManyEntries hentries
  | ok entries =>
    have hrules : (onMaps (initProtectionProjectsMap config.protectionProjects)).Passes
        (withEarlyParts config s) (withRules config entries s) :=
      onMaps_passes (initProtectionProjectsMap_passes hentries _)
    rw [hrules.sequence_cons]
    obtain ⟨new, hnew⟩ := configWhitelist_eq_ok h
    obtain ⟨static, hstatic⟩ := configBlacklist_eq_ok h
    rcases possible_or_stops (whitelistTries s.maps) (whitelistChanges s.whitelist new) with
      hpossible | ⟨pre, c, hstops⟩
    · have hwhitelist : (onWhitelist (applyWhitelistMap config)).Passes (withRules config entries s)
          (withWhitelist new (withRules config entries s)) := by
        refine onWhitelist_of_possible hnew ?_
        rw [whitelistTries_withRules]
        exact hpossible
      have hblacklist : (onBlacklist (applyBlacklistMap config)).Passes
          (withWhitelist new (withRules config entries s)) (withLists config entries new static s) :=
        onBlacklist_passes hstatic _
      rw [hwhitelist.sequence_cons, hblacklist.sequence_cons]
      show ReloadOutcome csv config insertFails s
        (Attempt.sequence (lastParts csv config insertFails) _)
      cases hgeoip : loadGeoipLists csv config.geoip with
      | error e =>
        rw [lastParts_of_unreadable hgeoip]
        exact .listUnreadable hentries hnew hpossible hstatic hgeoip
      | ok lists =>
        obtain ⟨blocks, allows⟩ := lists
        by_cases hfails : InsertFails insertFails blocks allows
        · obtain ⟨g, hrun⟩ := lastParts_of_full (s := withLists config entries new static s)
            hgeoip hfails
          rw [hrun]
          exact .trieFull hentries hnew hpossible hstatic hgeoip hfails
        · have hrun := lastParts_of_written (s := withLists config entries new static s) hgeoip hfails
          unfold Passes at hrun
          rw [hrun]
          exact .applied hentries hnew hpossible hstatic hgeoip hfails
    · have hrun : onWhitelist (applyWhitelistMap config) (withRules config entries s) =
          (.error "bpf_map_delete_elem",
            withTries (pre.foldl TrieChange.effect (whitelistTries s.maps))
              (withRules config entries s)) := by
        rw [← whitelistTries_withRules config entries s] at hstops ⊢
        exact onWhitelist_of_stops hnew hstops
      rw [sequence_cons_of_error hrun]
      exact .prefixAbsent hentries hnew hstops

/-- The two lists of addresses may change places. -/
theorem passes_swap {rest : List (Attempt ControlPlane String)} {t : ControlPlane}
    (h : Accepted config)
    (hrun : (Attempt.sequence (onBlacklist (applyBlacklistMap config) ::
      onWhitelist (applyWhitelistMap config) :: rest)).Passes s t) :
    (Attempt.sequence (onWhitelist (applyWhitelistMap config) ::
      onBlacklist (applyBlacklistMap config) :: rest)).Passes s t := by
  obtain ⟨new, hnew⟩ := configWhitelist_eq_ok h
  obtain ⟨static, hstatic⟩ := configBlacklist_eq_ok h
  unfold Passes at hrun ⊢
  rw [(onBlacklist_passes hstatic s).sequence_cons] at hrun
  rcases possible_or_stops (whitelistTries s.maps) (whitelistChanges s.whitelist new) with
    hpossible | ⟨pre, c, hstops⟩
  · have hlast : (onWhitelist (applyWhitelistMap config)).Passes (withBlacklist static s)
        (withWhitelist new (withBlacklist static s)) := onWhitelist_of_possible hnew hpossible
    rw [hlast.sequence_cons] at hrun
    rw [(onWhitelist_of_possible hnew hpossible).sequence_cons,
      (onBlacklist_passes hstatic _).sequence_cons]
    exact hrun
  · have hfails : onWhitelist (applyWhitelistMap config) (withBlacklist static s) =
        (.error "bpf_map_delete_elem",
          withTries (pre.foldl TrieChange.effect (whitelistTries s.maps))
            (withBlacklist static s)) := onWhitelist_of_stops hnew hstops
    rw [sequence_cons_of_error hfails] at hrun
    cases hrun

/-- A start has the static blacklist before the whitelist, which makes no difference. -/
theorem reloadParts_of_startParts {t : ControlPlane} (h : Accepted config)
    (hrun : (Attempt.sequence (startParts csv config insertFails)).Passes s t) :
    (Attempt.sequence (reloadParts csv config insertFails)).Passes s t := by
  unfold Passes startParts at hrun
  unfold Passes reloadParts
  rw [earlyParts_run h] at hrun ⊢
  obtain ⟨u, hprojects, hrun⟩ := passes_cons.1 hrun
  exact passes_cons.2 ⟨u, hprojects, passes_swap h hrun⟩

/-! ## When a file is applied -/

/-- Nothing stands in the way of the file: its projects fit, the prefixes that leave the whitelist
are there, and the GeoIP lists can be read and written. -/
structure Applies (csv : CsvFiles) (config : Config) (insertFails : Option Nat)
    (s : ControlPlane) : Prop where
  projects : ∃ entries, expandProjects config.protectionProjects = .ok entries
  whitelist : ∀ new, configWhitelist config = .ok new →
    Possible (whitelistTries s.maps) (whitelistChanges s.whitelist new)
  geoip : ∃ blocks allows, loadGeoipLists csv config.geoip = .ok (blocks, allows) ∧
    ¬ InsertFails insertFails blocks allows

theorem ReloadOutcome.applies_iff {r : Except String Unit × ControlPlane}
    (h : ReloadOutcome csv config insertFails s r) :
    Applies csv config insertFails s ↔ r.1 = .ok () := by
  cases h with
  | tooManyEntries hentries =>
    refine ⟨fun happlies => ?_, fun hok => by cases hok⟩
    obtain ⟨entries, h⟩ := happlies.projects
    rw [hentries] at h
    cases h
  | prefixAbsent hentries hnew hstops =>
    refine ⟨fun happlies => ?_, fun hok => by cases hok⟩
    exact absurd (happlies.whitelist _ hnew) (not_possible_of_stops hstops)
  | listUnreadable hentries hnew hpossible hstatic hgeoip =>
    refine ⟨fun happlies => ?_, fun hok => by cases hok⟩
    obtain ⟨blocks, allows, h, -⟩ := happlies.geoip
    rw [hgeoip] at h
    cases h
  | trieFull hentries hnew hpossible hstatic hgeoip hfails =>
    refine ⟨fun happlies => ?_, fun hok => by cases hok⟩
    obtain ⟨blocks, allows, h, hwritten⟩ := happlies.geoip
    rw [hgeoip] at h
    cases h
    exact absurd hfails hwritten
  | applied hentries hnew hpossible hstatic hgeoip hfails =>
    refine ⟨fun _ => rfl, fun _ => ⟨⟨_, hentries⟩, fun new h => ?_, _, _, hgeoip, hfails⟩⟩
    rw [hnew] at h
    cases h
    exact hpossible

end Outcome

section Reload

variable {env : ReloadEnv} {file : Except String Config} {config : Config} {s : ControlPlane}

theorem reloadConfigFile_of_applies (hfile : acceptedFile env.host file = .ok config)
    (happlies : Applies env.csv config env.insertFails s) :
    ∃ t, ReloadOutcome env.csv config env.insertFails s (.ok (), t) ∧
      reloadConfigFile env file s =
        (.ok (), (loadPersisted env.nowNs env.readNs (replaceSnapshot config t)).2) := by
  have hout : ReloadOutcome env.csv config env.insertFails s _ :=
    reloadParts_outcome (accepted_of_acceptedFile hfile)
  rcases hrun : Attempt.sequence (reloadParts env.csv config env.insertFails) s with ⟨r, t⟩
  rw [hrun] at hout
  obtain rfl : r = .ok () := hout.applies_iff.1 happlies
  exact ⟨t, hout, reloadConfigFile_of_applied hfile hrun⟩

/-- A reload that does not apply its file fails, and leaves what its parts have done. -/
theorem reloadConfigFile_of_not_applies (hfile : acceptedFile env.host file = .ok config)
    (happlies : ¬ Applies env.csv config env.insertFails s) :
    ∃ e t, ReloadOutcome env.csv config env.insertFails s (.error e, t) ∧
      reloadConfigFile env file s = (.error e, t) := by
  have hout : ReloadOutcome env.csv config env.insertFails s _ :=
    reloadParts_outcome (accepted_of_acceptedFile hfile)
  rcases hrun : Attempt.sequence (reloadParts env.csv config env.insertFails) s with ⟨r, t⟩
  rw [hrun] at hout
  cases r with
  | ok u => exact absurd (hout.applies_iff.2 rfl) happlies
  | error e => exact ⟨e, t, hout, reloadConfigFile_of_failed hfile hrun⟩

/-- A start ends like a reload of the fresh state. -/
theorem startUp_outcome {store : RuleStore} {tables : RuleTables}
    (h : startUp env file store tables = .ok s) :
    ∃ config t, acceptedFile env.host file = .ok config ∧
      ReloadOutcome env.csv config env.insertFails
        (fresh config store tables (some config.adaptive)) (.ok (), t) ∧
      s = (loadPersisted env.nowNs env.readNs t).2 := by
  obtain ⟨config, t, hfile, hrun, hs⟩ := startUp_eq_ok h
  have haccepted := accepted_of_acceptedFile hfile
  have hout : ReloadOutcome env.csv config env.insertFails
      (fresh config store tables (some config.adaptive)) _ := reloadParts_outcome haccepted
  have hparts := reloadParts_of_startParts haccepted hrun
  unfold Passes at hparts
  rw [hparts] at hout
  exact ⟨config, t, hfile, hout, hs⟩

end Reload

end EShield.Node
