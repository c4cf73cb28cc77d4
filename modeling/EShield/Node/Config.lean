import EShield.Lib.Lines
import EShield.Node.Adaptive
import EShield.Node.RuleSets

/-!
# The configuration file

The sections of `config.toml` and the checks a configuration has to pass before it is applied. The
defaults are those of a section that the file leaves out.
-/

namespace EShield.Node

open Checks IpText Text

/-! ## Sections -/

structure XdpConfig where
  mode : String := "auto"
  /-- `pass`, `rate_limit` or `drop`. -/
  fragmentPolicy : String := "rate_limit"

namespace config

structure RateLimitConfig where
  enabled : Bool := true
  threshold : UInt64 := 2000
  tickMs : UInt64 := 100
  decayNum : UInt64 := 7
  decayDen : UInt64 := 8
  blockDurationS : UInt64 := 120
  dportGrouping : Bool := false
  /-- `hard` or `soft`. -/
  blockMode : String := "hard"

structure PortRateLimitConfig where
  enabled : Bool := true
  threshold : UInt64 := 2000
  tickMs : UInt64 := 100

end config

structure SynProxyConfig where
  enabled : Bool := false

structure L7ScanConfig where
  enabled : Bool := false
  patterns : List L7PatternConfig := []

structure TrustScoreConfig where
  enabled : Bool := false
  addDivisor : UInt32 := 100
  subDivisor : UInt32 := 3

structure DangerSignalConfig where
  enabled : Bool := false
  sampleIntervalS : UInt64 := 5
  anomalyMultiplier : Float := 2.0

structure ConnTrackConfig where
  enabled : Bool := false
  threshold : UInt32 := 20
  windowMs : UInt64 := 10000

structure PacketLogConfig where
  enabled : Bool := false
  sampleRate : UInt16 := 10000
  memoryMaxEntries : Nat := 50000

structure GeoIpConfig where
  enabled : Bool := false
  countryBlocksCsv : Option String := none
  asnBlocksCsv : Option String := none
  blockCountries : List String := []
  allowCountries : List String := []
  blockAsns : List UInt32 := []
  allowAsns : List UInt32 := []
  /-- `pass` or `drop`. -/
  defaultAction : String := ""

structure ThreatFeed where
  name : String
  url : String
  intervalS : UInt64 := 3600
  confidence : UInt8 := 80
  action : String := "drop"

structure ThreatIntelConfig where
  enabled : Bool := false
  feeds : List ThreatFeed := []

structure HubConfig where
  enabled : Bool := false
  urls : List String := []
  nodeName : String := ""
  token : String := ""
  syncPullIntervalS : UInt64 := 10
  syncPushIntervalS : UInt64 := 5
  pushMinHitCount : UInt32 := 10
  syncRulesIntervalS : UInt64 := 30

structure Config where
  interface : String
  whitelist : List String
  blacklist : List String
  udpFloodEnabled : Bool := false
  icmpFloodEnabled : Bool := false
  tcpResetOnDrop : Bool := false
  rateLimit : config.RateLimitConfig := {}
  portRateLimit : config.PortRateLimitConfig := {}
  synProxy : SynProxyConfig := {}
  l7Scan : L7ScanConfig := {}
  adaptive : AdaptiveConfig :=
    { enabled := false, windowS := 5, threshold := 10, blockDurationS := 300 }
  portAcl : List PortAclItem := []
  protectionProjects : List ProtectionProject := []
  geoip : GeoIpConfig := {}
  threatIntel : ThreatIntelConfig := {}
  webPort : UInt16 := 8720
  webBind : Option String := none
  storePath : String := "/var/lib/eshield/rules.redb"
  trustScore : TrustScoreConfig := {}
  dangerSignal : DangerSignalConfig := {}
  connTrack : ConnTrackConfig := {}
  hub : HubConfig := {}
  packetLog : PacketLogConfig := {}
  xdp : XdpConfig := {}

/-! ## Checks -/

/-- What the host answers to the checks. -/
structure Host where
  interfaceExists : String → Bool
  /-- The directory exists or could be created. -/
  storeDirReady : String → Bool

/-- The text in lower case is one of the words. -/
def IsKeyword (words : List String) (s : String) : Prop := lowercase s ∈ words.map String.toList

instance (words : List String) (s : String) : Decidable (IsKeyword words s) :=
  inferInstanceAs (Decidable (_ ∈ _))

def fragmentPolicies : List String := ["pass", "rate_limit", "drop"]

def blockModes : List String := ["hard", "soft"]

/-- The directory of the store must be there, or be created. -/
def validateStoreDir (host : Host) (storePath : String) : Except String Unit :=
  match parentPath storePath.toList with
  | some parent =>
    rejectIf (!host.storeDirReady (String.ofList parent))
      s!"cannot create store directory: {String.ofList parent}"
  | none => return

def validateInterface (host : Host) (interface : String) : Except String Unit := do
  rejectIf (interface = "") "interface cannot be empty"
  rejectIf (!host.interfaceExists interface)
    s!"network interface '{interface}' does not exist or is not visible"

def validateModes (config : Config) : Except String Unit := do
  rejectIf (¬ IsKeyword ["auto", "native", "drv", "generic", "skb"] config.xdp.mode)
    (s!"invalid [xdp].mode '{String.ofList (lowercase config.xdp.mode)}' " ++
      "(expected auto | native | generic)")
  rejectIf (¬ IsKeyword fragmentPolicies config.xdp.fragmentPolicy)
    (s!"invalid [xdp].fragment_policy '{String.ofList (lowercase config.xdp.fragmentPolicy)}' " ++
      "(expected pass | rate_limit | drop)")
  rejectIf (¬ IsKeyword blockModes config.rateLimit.blockMode)
    (s!"invalid [rate_limit].block_mode '{String.ofList (lowercase config.rateLimit.blockMode)}' " ++
      "(expected hard | soft)")

def validateLists (config : Config) : Except String Unit := do
  all (fun cidr => succeeds (parseCidr cidr) s!"invalid whitelist CIDR: {cidr}") config.whitelist
  all (fun ip => succeeds (parseIpOrCidr ip) s!"invalid blacklist IP/CIDR: {ip}") config.blacklist

def validateRateLimit (rl : config.RateLimitConfig) : Except String Unit :=
  if rl.enabled then do
    rejectIf (rl.threshold = 0) "rate_limit.threshold must be > 0"
    rejectIf (rl.tickMs = 0) "rate_limit.tick_ms must be > 0"
    rejectIf (rl.decayDen = 0) "rate_limit.decay_den must be > 0"
  else return

def validatePortRateLimit (prl : config.PortRateLimitConfig) : Except String Unit :=
  if prl.enabled then do
    rejectIf (prl.threshold = 0) "port_rate_limit.threshold must be > 0"
    rejectIf (prl.tickMs = 0) "port_rate_limit.tick_ms must be > 0"
  else return

def validateAdaptive (adaptive : AdaptiveConfig) : Except String Unit :=
  if adaptive.enabled then do
    rejectIf (adaptive.threshold = 0) "adaptive.threshold must be > 0"
    rejectIf (adaptive.windowS = 0) "adaptive.window_s must be > 0"
  else return

def validateConnTrack (connTrack : ConnTrackConfig) : Except String Unit :=
  if connTrack.enabled then do
    rejectIf (connTrack.threshold = 0) "conn_track.threshold must be > 0"
    rejectIf (connTrack.windowMs = 0) "conn_track.window_ms must be > 0"
  else return

def validateTrustScore (trustScore : TrustScoreConfig) : Except String Unit :=
  if trustScore.enabled then do
    rejectIf (trustScore.addDivisor = 0) "trust_score.add_divisor must be > 0"
    rejectIf (trustScore.subDivisor = 0) "trust_score.sub_divisor must be > 0"
  else return

def validateDangerSignal (danger : DangerSignalConfig) : Except String Unit :=
  if danger.enabled then do
    rejectIf (danger.sampleIntervalS = 0) "danger_signal.sample_interval_s must be > 0"
    rejectIf (¬ (danger.anomalyMultiplier.isFinite ∧ danger.anomalyMultiplier > 0.0))
      "danger_signal.anomaly_multiplier must be a positive finite number"
  else return

def validatePacketLog (packetLog : PacketLogConfig) : Except String Unit :=
  if packetLog.enabled then do
    rejectIf (packetLog.sampleRate = 0) "packet_log.sample_rate must be > 0 when enabled"
    rejectIf (packetLog.memoryMaxEntries = 0)
      "packet_log.memory_max_entries must be > 0 when enabled"
  else return

def validateWeb (webPort : UInt16) (webBind : Option String) : Except String Unit := do
  rejectIf (webPort = 0) "web_port cannot be 0"
  match webBind with
  | some bind =>
    rejectIf (Lines.trim bind.toList = []) "web_bind cannot be empty"
    rejectIf (parseSocketAddr bind.toList = none)
      s!"web_bind must be in host:port form, got '{bind}'"
  | none => return

def validateGeoip (geoip : GeoIpConfig) : Except String Unit :=
  if geoip.enabled then do
    rejectIf (geoip.defaultAction ∉ ["pass", "drop"])
      s!"geoip.default_action must be 'pass' or 'drop', got '{geoip.defaultAction}'"
    all (fun code => rejectIf (code.utf8ByteSize ≠ 2)
      s!"geoip block country code must be ISO-3166-1 alpha-2: {code}") geoip.blockCountries
    all (fun code => rejectIf (code.utf8ByteSize ≠ 2)
      s!"geoip allow country code must be ISO-3166-1 alpha-2: {code}") geoip.allowCountries
  else return

def validateFeed (i : Nat) (feed : ThreatFeed) : Except String Unit := do
  rejectIf (feed.name = "") s!"threat_intel.feeds[{i}]: name cannot be empty"
  rejectIf (feed.url = "") s!"threat_intel.feeds[{i}]: url cannot be empty"
  rejectIf (feed.intervalS = 0) s!"threat_intel.feeds[{i}]: interval_s must be > 0"
  rejectIf (feed.confidence > 100) s!"threat_intel.feeds[{i}]: confidence must be 0-100"
  rejectIf (feed.action ∉ ["drop", "allow"])
    s!"threat_intel.feeds[{i}]: action must be 'drop' or 'allow', got '{feed.action}'"

def validateThreatIntel (threatIntel : ThreatIntelConfig) : Except String Unit :=
  if threatIntel.enabled then all (fun feed => validateFeed feed.2 feed.1) threatIntel.feeds.zipIdx
  else return

def validateHubUrl (i : Nat) (url : String) : Except String Unit := do
  rejectIf (url = "") s!"hub.urls[{i}] cannot be empty"
  rejectIf (¬ ("http://".toList <+: url.toList ∨ "https://".toList <+: url.toList))
    s!"hub.urls[{i}] must start with http:// or https://"

def validateHub (hub : HubConfig) : Except String Unit :=
  if hub.enabled then do
    rejectIf (hub.nodeName = "") "hub.node_name cannot be empty when hub is enabled"
    rejectIf (hub.urls = []) "hub.urls cannot be empty when hub is enabled"
    rejectIf (hub.token = "") "hub.token cannot be empty when hub is enabled"
    all (fun url => validateHubUrl url.2 url.1) hub.urls.zipIdx
    rejectIf (hub.syncPullIntervalS = 0) "hub.sync_pull_interval_s must be > 0"
    rejectIf (hub.syncPushIntervalS = 0) "hub.sync_push_interval_s must be > 0"
    rejectIf (hub.pushMinHitCount = 0) "hub.push_min_hit_count must be > 0"
    rejectIf (hub.syncRulesIntervalS = 0) "hub.sync_rules_interval_s must be > 0"
  else return

/-- The checks in the order of the source. -/
def validate (host : Host) (config : Config) : Except String Unit := do
  validateInterface host config.interface
  validateModes config
  validateLists config
  validateStoreDir host config.storePath
  validatePortAclItems config.portAcl
  validateRateLimit config.rateLimit
  validatePortRateLimit config.portRateLimit
  validateAdaptive config.adaptive
  validateL7Patterns config.l7Scan.patterns
  validateConnTrack config.connTrack
  validateTrustScore config.trustScore
  validateDangerSignal config.dangerSignal
  validatePacketLog config.packetLog
  validateWeb config.webPort config.webBind
  validateGeoip config.geoip
  validateThreatIntel config.threatIntel
  validateProtectionProjectsList config.protectionProjects
  validateHub config.hub

/-- What the checks establish about the parts that are applied to the maps. -/
structure Accepted (config : Config) : Prop where
  whitelist : ∀ cidr ∈ config.whitelist, ∃ c, parseCidr cidr = .ok c
  blacklist : ∀ ip ∈ config.blacklist, ∃ key, parseIpOrCidr ip = .ok key
  portAcl : validatePortAclItems config.portAcl = .ok ()
  rateLimit : config.rateLimit.enabled →
    config.rateLimit.threshold ≠ 0 ∧ config.rateLimit.tickMs ≠ 0 ∧ config.rateLimit.decayDen ≠ 0
  portRateLimit : config.portRateLimit.enabled →
    config.portRateLimit.threshold ≠ 0 ∧ config.portRateLimit.tickMs ≠ 0
  l7Patterns : validateL7Patterns config.l7Scan.patterns = .ok ()
  protectionProjects : validateProtectionProjectsList config.protectionProjects = .ok ()

theorem accepted_of_validate {host : Host} {config : Config} (h : validate host config = .ok ()) :
    Accepted config := by
  unfold validate at h
  obtain ⟨-, h⟩ := check_bind_eq_ok.1 h
  obtain ⟨-, h⟩ := check_bind_eq_ok.1 h
  obtain ⟨hlists, h⟩ := check_bind_eq_ok.1 h
  obtain ⟨-, h⟩ := check_bind_eq_ok.1 h
  obtain ⟨hportAcl, h⟩ := check_bind_eq_ok.1 h
  obtain ⟨hrate, h⟩ := check_bind_eq_ok.1 h
  obtain ⟨hportRate, h⟩ := check_bind_eq_ok.1 h
  obtain ⟨-, h⟩ := check_bind_eq_ok.1 h
  obtain ⟨hl7, h⟩ := check_bind_eq_ok.1 h
  obtain ⟨-, h⟩ := check_bind_eq_ok.1 h
  obtain ⟨-, h⟩ := check_bind_eq_ok.1 h
  obtain ⟨-, h⟩ := check_bind_eq_ok.1 h
  obtain ⟨-, h⟩ := check_bind_eq_ok.1 h
  obtain ⟨-, h⟩ := check_bind_eq_ok.1 h
  obtain ⟨-, h⟩ := check_bind_eq_ok.1 h
  obtain ⟨-, h⟩ := check_bind_eq_ok.1 h
  obtain ⟨hprojects, -⟩ := check_bind_eq_ok.1 h
  obtain ⟨hwhitelist, hblacklist⟩ := check_bind_eq_ok.1 hlists
  refine
    { whitelist := fun cidr hcidr => succeeds_eq_ok.1 (all_eq_ok.1 hwhitelist cidr hcidr)
      blacklist := fun ip hip => succeeds_eq_ok.1 (all_eq_ok.1 hblacklist ip hip)
      portAcl := hportAcl
      rateLimit := fun henabled => ?_
      portRateLimit := fun henabled => ?_
      l7Patterns := hl7
      protectionProjects := hprojects }
  · unfold validateRateLimit at hrate
    rw [if_pos henabled] at hrate
    obtain ⟨hthreshold, hrate⟩ := check_bind_eq_ok.1 hrate
    obtain ⟨htick, hden⟩ := check_bind_eq_ok.1 hrate
    exact ⟨rejectIf_eq_ok.1 hthreshold, rejectIf_eq_ok.1 htick, rejectIf_eq_ok.1 hden⟩
  · unfold validatePortRateLimit at hportRate
    rw [if_pos henabled] at hportRate
    obtain ⟨hthreshold, htick⟩ := check_bind_eq_ok.1 hportRate
    exact ⟨rejectIf_eq_ok.1 hthreshold, rejectIf_eq_ok.1 htick⟩

end EShield.Node
