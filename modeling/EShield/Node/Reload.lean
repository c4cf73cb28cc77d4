import EShield.Node.Lists
import EShield.Node.Runtime

/-!
# Loading and reloading the configuration

The whole state of the control plane, the functions that replace a rule set, and the two that apply a
configuration file: `ControlState::new` and `reload_config_file`. Both end by applying what the store
holds over the file.
-/

namespace EShield.Node

open Checks Ebpf

/-- The control plane with its snapshot, its tracking lists and all tables of the store. -/
structure ControlPlane extends ControlState where
  runtime : RuntimeConfigSnapshot
  whitelist : List Cidr := []
  blacklist : List IpKey := []
  geoipBlocks : List Cidr := []
  geoipAllows : List Cidr := []
  tables : RuleTables := {}
  adaptive : Option AdaptiveConfig := none

namespace ControlPlane

/-! ## Parts of the state -/

def onMaps (a : Attempt Maps String) : Attempt ControlPlane String :=
  a.zoom (fun s => s.maps) fun s m => { s with maps := m }

def onWhitelist (a : Attempt (Maps × List Cidr) String) : Attempt ControlPlane String :=
  a.zoom (fun s => (s.maps, s.whitelist)) fun s p => { s with maps := p.1, whitelist := p.2 }

def onBlacklist (a : Attempt (Maps × List IpKey) String) : Attempt ControlPlane String :=
  a.zoom (fun s => (s.maps, s.blacklist)) fun s p => { s with maps := p.1, blacklist := p.2 }

def geoipLists (s : ControlPlane) : GeoipLists :=
  { blockTries := ⟨s.maps.geoipBlockedV4, s.maps.geoipBlockedV6⟩
    allowTries := ⟨s.maps.geoipAllowedV4, s.maps.geoipAllowedV6⟩
    blocks := s.geoipBlocks
    allows := s.geoipAllows }

def setGeoipLists (s : ControlPlane) (g : GeoipLists) : ControlPlane :=
  { s with
    maps :=
      { s.maps with
        geoipBlockedV4 := g.blockTries.v4
        geoipBlockedV6 := g.blockTries.v6
        geoipAllowedV4 := g.allowTries.v4
        geoipAllowedV6 := g.allowTries.v6 }
    geoipBlocks := g.blocks
    geoipAllows := g.allows }

def onGeoip (a : Attempt GeoipLists String) : Attempt ControlPlane String :=
  a.zoom geoipLists setGeoipLists

/-! ## Replacing a rule set -/

/-- Checks a list before anything is changed. -/
def check (result : Except String Unit) : Attempt ControlPlane String :=
  .commit fun s => do
    result
    return s

def setL7Patterns (patterns : List L7PatternConfig) : Attempt ControlPlane String :=
  .sequence [
    check (validateL7Patterns patterns),
    onMaps (initL7PatternsMap patterns),
    .write fun s =>
      { s with
        runtime := { s.runtime with l7Scan := { s.runtime.l7Scan with patterns := patterns } }
        tables := s.tables.saveL7Patterns patterns }]

def setPortAcl (items : List PortAclItem) : Attempt ControlPlane String :=
  .sequence [
    check (validatePortAclItems items),
    onMaps (initPortAclMap items),
    .write fun s =>
      { s with
        runtime := { s.runtime with portAcl := items }
        tables := s.tables.savePortAclItems items }]

def setProtectionProjects (projects : List ProtectionProject) : Attempt ControlPlane String :=
  .sequence [
    check (validateProtectionProjectsList projects),
    onMaps (initProtectionProjectsMap projects),
    .write fun s =>
      { s with
        runtime :=
          { s.runtime with
            protectionProjects := projects
            protectionProjectsEnabled := projects ≠ [] }
        tables := s.tables.saveProtectionProjects projects }]

/-! ## Persisted rules -/

/-- Sets a list that the store holds; an empty one is passed over. -/
def setStored {α : Type} (set : List α → Attempt ControlPlane String) (stored : List α) :
    Attempt ControlPlane String :=
  if stored = [] then .write id else set stored

/-- `load_persisted_rules`; the clock is read at the start and once for each blacklist row. -/
def loadPersisted (nowNs : UInt64) (readNs : IpKey → UInt64) : Attempt ControlPlane String :=
  fun s =>
    Attempt.sequence (
      [onMaps (.write fun m =>
        { m with blacklist := loadPersistedRules s.store nowNs readNs m.blacklist })] ++
      s.tables.whitelist.loadWhitelist.map (fun c => onMaps (allowCidrRaw c)) ++
      [setStored setPortAcl s.tables.loadPortAclItems,
        setStored setL7Patterns s.tables.loadL7Patterns,
        setStored setProtectionProjects s.tables.loadProtectionProjects]) s

/-! ## Applying a file -/

/-- The parts of a reload up to the maps' last one, in their order. -/
def reloadParts (csv : CsvFiles) (config : Config) (insertFails : Option Nat) :
    List (Attempt ControlPlane String) :=
  [onMaps (.write (initRateLimitMap config)),
    onMaps (.write (initPortRateMap config)),
    onMaps (initL7PatternsMap config.l7Scan.patterns),
    onMaps (initPortAclMap config.portAcl),
    onMaps (initProtectionProjectsMap config.protectionProjects),
    onWhitelist (applyWhitelistMap config),
    onBlacklist (applyBlacklistMap config),
    onGeoip (applyGeoipMap csv config.geoip insertFails),
    onMaps (.write (initConfigMap config))]

/-- The snapshot of the file; the danger level is that of before. -/
def replaceSnapshot (config : Config) (s : ControlPlane) : ControlPlane :=
  { s with
    runtime := { RuntimeConfigSnapshot.fromConfig config with dangerLevel := s.runtime.dangerLevel }
    adaptive := s.adaptive.map fun _ => config.adaptive }

/-- The file as it is applied: read, parsed and accepted. -/
def acceptedFile (host : Host) (file : Except String Config) : Except String Config := do
  let config ← file
  validate host config
  return config

/-- What a reload meets in its surroundings: the CSV files, an insertion into the GeoIP tries that
fails, and the clock. -/
structure ReloadEnv where
  host : Host
  csv : CsvFiles
  insertFails : Option Nat := none
  nowNs : UInt64 := 0
  readNs : IpKey → UInt64 := fun _ => 0

/-- `file` is what reading and parsing the configuration file returns. A failure of the persisted
rules is only logged. -/
def reloadConfigFile (env : ReloadEnv) (file : Except String Config) :
    Attempt ControlPlane String := fun s =>
  match acceptedFile env.host file with
  | .error e => (.error e, s)
  | .ok config =>
    match Attempt.sequence (reloadParts env.csv config env.insertFails) s with
    | (.error e, s) => (.error e, s)
    | (.ok (), s) => (.ok (), (loadPersisted env.nowNs env.readNs (replaceSnapshot config s)).2)

/-- `ControlState::new` in a fresh process: nothing in the maps, and the store as it was left. -/
def fresh (config : Config) (store : RuleStore) (tables : RuleTables)
    (adaptive : Option AdaptiveConfig) : ControlPlane :=
  { store := store
    runtime := .fromConfig config
    tables := tables
    adaptive := adaptive }

/-- The blacklist comes before the whitelist here. -/
def startParts (csv : CsvFiles) (config : Config) (insertFails : Option Nat) :
    List (Attempt ControlPlane String) :=
  [onMaps (.write (initRateLimitMap config)),
    onMaps (.write (initPortRateMap config)),
    onMaps (initL7PatternsMap config.l7Scan.patterns),
    onMaps (initPortAclMap config.portAcl),
    onMaps (initProtectionProjectsMap config.protectionProjects),
    onBlacklist (applyBlacklistMap config),
    onWhitelist (applyWhitelistMap config),
    onGeoip (applyGeoipMap csv config.geoip insertFails),
    onMaps (.write (initConfigMap config))]

/-- A start: a failure ends the process, except one of the persisted rules. -/
def startUp (env : ReloadEnv) (file : Except String Config) (store : RuleStore)
    (tables : RuleTables) : Except String ControlPlane := do
  let config ← acceptedFile env.host file
  match Attempt.sequence (startParts env.csv config env.insertFails)
      (fresh config store tables (some config.adaptive)) with
  | (.error e, _) => .error e
  | (.ok (), s) => return (loadPersisted env.nowNs env.readNs s).2

theorem startUp_eq_ok {env : ReloadEnv} {file : Except String Config} {store : RuleStore}
    {tables : RuleTables} {s : ControlPlane} (h : startUp env file store tables = .ok s) :
    ∃ config t, acceptedFile env.host file = .ok config ∧
      (Attempt.sequence (startParts env.csv config env.insertFails)).Passes
        (fresh config store tables (some config.adaptive)) t ∧
      s = (loadPersisted env.nowNs env.readNs t).2 := by
  obtain ⟨config, hfile, h⟩ := bind_eq_ok.1 h
  split at h
  · cases h
  · rename_i t hrun
    cases h
    exact ⟨config, t, hfile, hrun, rfl⟩

section Reload

variable {env : ReloadEnv} {file : Except String Config} {config : Config} {s t : ControlPlane}
  {e : String}

theorem reloadConfigFile_of_refused (h : acceptedFile env.host file = .error e) :
    reloadConfigFile env file s = (.error e, s) := by
  unfold reloadConfigFile
  rw [h]

theorem reloadConfigFile_of_failed (h : acceptedFile env.host file = .ok config)
    (hrun : Attempt.sequence (reloadParts env.csv config env.insertFails) s = (.error e, t)) :
    reloadConfigFile env file s = (.error e, t) := by
  unfold reloadConfigFile
  rw [h]
  dsimp only
  rw [hrun]

theorem reloadConfigFile_of_applied (h : acceptedFile env.host file = .ok config)
    (hrun : Attempt.sequence (reloadParts env.csv config env.insertFails) s = (.ok (), t)) :
    reloadConfigFile env file s =
      (.ok (), (loadPersisted env.nowNs env.readNs (replaceSnapshot config t)).2) := by
  unfold reloadConfigFile
  rw [h]
  dsimp only
  rw [hrun]

/-- The file that is applied has passed the checks. -/
theorem accepted_of_acceptedFile {host : Host} (h : acceptedFile host file = .ok config) :
    Accepted config := by
  obtain ⟨c, -, h⟩ := bind_eq_ok.1 h
  obtain ⟨hvalid, h⟩ := check_bind_eq_ok.1 h
  cases h
  exact accepted_of_validate hvalid

end Reload

/-! ## Patching -/

/-- `patch_runtime` when no other call comes between its steps. -/
def patchRuntime (patch : RuntimeConfigPatch) : Attempt ControlPlane String :=
  .commit fun s => do
    validateRuntimePatch patch
    let next := patch.applyTo s.runtime
    return {
      s with
      runtime := next
      maps := patch.writeMaps next s.maps
      adaptive := s.adaptive.map fun old => patch.adaptive.getD old }

/-- `set_danger_level`, likewise. -/
def setDangerLevel (level : UInt8) : Attempt ControlPlane String :=
  .write fun s =>
    { s with
      runtime := { s.runtime with dangerLevel := clampDangerLevel level }
      maps := writeDangerLevel (clampDangerLevel level) s.maps }

end ControlPlane

end EShield.Node
