import EShield.Node.Config
import EShield.Node.Policies

/-!
# The runtime configuration

What the control plane keeps of the configuration at run time, its copy in the CONFIG map, and the
two ways to change it without a reload: `patch_runtime` and `set_danger_level`. Both take several
locks one after the other, so each is given here by its steps.
-/

namespace EShield.Node

open Checks Ebpf Text

/-! ## The snapshot -/

structure RateLimitParams where
  enabled : Bool := false
  threshold : UInt64 := 0
  tickMs : UInt64 := 0
  decayNum : UInt64 := 0
  decayDen : UInt64 := 0
  blockDurationS : UInt64 := 0
  dportGrouping : Bool := false
  deriving DecidableEq, Repr

/-- The part of the snapshot that is shown and changed at run time. -/
structure RuntimeConfigSnapshot where
  rateLimitEnabled : Bool
  synProxyEnabled : Bool
  l7ScanEnabled : Bool
  udpFloodEnabled : Bool
  icmpFloodEnabled : Bool
  geoipEnabled : Bool
  tcpResetOnDrop : Bool
  trustEnabled : Bool
  connTrackEnabled : Bool
  connTrackThreshold : UInt32
  connTrackWindowMs : UInt64
  trustAddDivisor : UInt32
  trustSubDivisor : UInt32
  geoipDefaultAction : UInt8
  dangerLevel : UInt8
  rateLimit : RateLimitParams
  portRateLimit : RateLimitParams
  adaptive : AdaptiveConfig
  portAcl : List PortAclItem
  protectionProjects : List ProtectionProject
  l7Scan : L7ScanConfig
  geoip : GeoIpConfig
  packetLogEnabled : Bool
  packetLogSampleRate : UInt16
  protectionProjectsEnabled : Bool
  fragmentPolicy : String
  rateLimitBlockMode : String

def geoipDefaultActionToU8 (action : String) : UInt8 := if action = "drop" then 1 else 0

/-- 0 = pass, 1 = rate limit, 2 = drop. -/
def fragmentPolicyToU8 (policy : String) : UInt8 :=
  if lowercase policy = "rate_limit".toList then 1
  else if lowercase policy = "drop".toList then 2
  else 0

def RuntimeConfigSnapshot.fromConfig (config : Config) : RuntimeConfigSnapshot :=
  { rateLimitEnabled := config.rateLimit.enabled
    synProxyEnabled := config.synProxy.enabled
    l7ScanEnabled := config.l7Scan.enabled
    udpFloodEnabled := config.udpFloodEnabled
    icmpFloodEnabled := config.icmpFloodEnabled
    geoipEnabled := config.geoip.enabled
    tcpResetOnDrop := config.tcpResetOnDrop
    trustEnabled := config.trustScore.enabled
    connTrackEnabled := config.connTrack.enabled
    connTrackThreshold := max config.connTrack.threshold 1
    connTrackWindowMs := max config.connTrack.windowMs 1
    trustAddDivisor := max config.trustScore.addDivisor 1
    trustSubDivisor := max config.trustScore.subDivisor 1
    geoipDefaultAction := geoipDefaultActionToU8 config.geoip.defaultAction
    dangerLevel := 0
    adaptive := config.adaptive
    rateLimit :=
      { enabled := config.rateLimit.enabled
        threshold := config.rateLimit.threshold
        tickMs := config.rateLimit.tickMs
        decayNum := config.rateLimit.decayNum
        decayDen := config.rateLimit.decayDen
        blockDurationS := config.rateLimit.blockDurationS
        dportGrouping := config.rateLimit.dportGrouping }
    portRateLimit :=
      { enabled := config.portRateLimit.enabled
        threshold := config.portRateLimit.threshold
        tickMs := config.portRateLimit.tickMs }
    fragmentPolicy := config.xdp.fragmentPolicy
    rateLimitBlockMode := config.rateLimit.blockMode
    portAcl := config.portAcl
    protectionProjects := config.protectionProjects
    l7Scan := config.l7Scan
    geoip := config.geoip
    packetLogEnabled := config.packetLog.enabled
    packetLogSampleRate := config.packetLog.sampleRate
    protectionProjectsEnabled := config.protectionProjects ≠ [] }

/-! ## Writing a configuration to the maps -/

def initConfigMap (config : Config) (m : Maps) : Maps :=
  { m with
    config :=
      { trustAddDivisor := max config.trustScore.addDivisor 1
        trustSubDivisor := max config.trustScore.subDivisor 1
        packetLogSampleRate := config.packetLog.sampleRate
        rateLimitEnabled := config.rateLimit.enabled.toUInt8
        synProxyEnabled := config.synProxy.enabled.toUInt8
        l7ScanEnabled := config.l7Scan.enabled.toUInt8
        udpFloodEnabled := config.udpFloodEnabled.toUInt8
        icmpFloodEnabled := config.icmpFloodEnabled.toUInt8
        geoipEnabled := config.geoip.enabled.toUInt8
        geoipDefaultAction := geoipDefaultActionToU8 config.geoip.defaultAction
        tcpResetOnDrop := config.tcpResetOnDrop.toUInt8
        trustEnabled := config.trustScore.enabled.toUInt8
        connTrackEnabled := config.connTrack.enabled.toUInt8
        connTrackThreshold := max config.connTrack.threshold 1
        connTrackWindowMs := max config.connTrack.windowMs 1
        dangerLevel := 0
        packetLogEnabled := config.packetLog.enabled.toUInt8
        projectEnabled := (decide (config.protectionProjects ≠ [])).toUInt8
        portAclCount := tableCount config.portAcl.length MAX_PORT_ACL
        l7PatternCount := tableCount config.l7Scan.patterns.length MAX_L7_PATTERNS
        portRateLimitEnabled := config.portRateLimit.enabled.toUInt8
        rateLimitDportGrouping := config.rateLimit.dportGrouping.toUInt8
        fragmentPolicy := fragmentPolicyToU8 config.xdp.fragmentPolicy
        rateLimitSoft :=
          (decide (lowercase config.rateLimit.blockMode = "soft".toList)).toUInt8 } }

def initRateLimitMap (config : Config) (m : Maps) : Maps :=
  { m with
    rateLimitCfg :=
      { threshold := config.rateLimit.threshold
        tickMs := config.rateLimit.tickMs
        decayNum := config.rateLimit.decayNum
        decayDen := config.rateLimit.decayDen
        blockDurationS := config.rateLimit.blockDurationS } }

def initPortRateMap (config : Config) (m : Maps) : Maps :=
  { m with
    portRateLimitCfg :=
      { threshold := config.portRateLimit.threshold
        tickMs := config.portRateLimit.tickMs
        decayNum := 0
        decayDen := 1
        blockDurationS := 0 } }

/-! ## `patch_runtime` -/

structure RuntimeConfigPatch where
  rateLimitEnabled : Option Bool := none
  synProxyEnabled : Option Bool := none
  l7ScanEnabled : Option Bool := none
  udpFloodEnabled : Option Bool := none
  icmpFloodEnabled : Option Bool := none
  geoipEnabled : Option Bool := none
  tcpResetOnDrop : Option Bool := none
  trustEnabled : Option Bool := none
  connTrackEnabled : Option Bool := none
  connTrackThreshold : Option UInt32 := none
  connTrackWindowMs : Option UInt64 := none
  trustAddDivisor : Option UInt32 := none
  trustSubDivisor : Option UInt32 := none
  geoipDefaultAction : Option UInt8 := none
  rateLimit : Option RateLimitParams := none
  portRateLimit : Option RateLimitParams := none
  adaptive : Option AdaptiveConfig := none
  fragmentPolicy : Option String := none
  rateLimitBlockMode : Option String := none

/-- Checks a field that the patch sets. -/
def checkField {α : Type} (field : Option α) (check : α → Except String Unit) :
    Except String Unit :=
  match field with
  | some a => check a
  | none => return

@[simp] theorem checkField_some {α : Type} (a : α) (check : α → Except String Unit) :
    checkField (some a) check = check a := rfl

def validateRuntimePatch (patch : RuntimeConfigPatch) : Except String Unit := do
  checkField patch.rateLimit fun rl =>
    if rl.enabled then do
      rejectIf (rl.threshold = 0) "rate_limit.threshold must be > 0"
      rejectIf (rl.tickMs = 0) "rate_limit.tick_ms must be > 0"
      rejectIf (rl.decayDen = 0) "rate_limit.decay_den must be > 0"
    else return
  checkField patch.portRateLimit fun prl =>
    if prl.enabled then do
      rejectIf (prl.threshold = 0) "port_rate_limit.threshold must be > 0"
      rejectIf (prl.tickMs = 0) "port_rate_limit.tick_ms must be > 0"
    else return
  checkField patch.adaptive fun ad => do
    rejectIf (ad.windowS = 0) "adaptive.window_s must be > 0"
    if ad.enabled then rejectIf (ad.threshold = 0) "adaptive.threshold must be > 0"
    else return
  checkField patch.connTrackThreshold fun threshold =>
    rejectIf (threshold = 0) "conn_track_threshold must be > 0"
  checkField patch.connTrackWindowMs fun windowMs =>
    rejectIf (windowMs = 0) "conn_track_window_ms must be > 0"
  checkField patch.trustAddDivisor fun d => rejectIf (d = 0) "trust_add_divisor must be > 0"
  checkField patch.trustSubDivisor fun d => rejectIf (d = 0) "trust_sub_divisor must be > 0"
  checkField patch.geoipDefaultAction fun action =>
    rejectIf (action > 1) "geoip_default_action must be 0 or 1"
  checkField patch.fragmentPolicy fun policy =>
    rejectIf (¬ IsKeyword fragmentPolicies policy)
      "fragment_policy must be pass | rate_limit | drop"
  checkField patch.rateLimitBlockMode fun mode =>
    rejectIf (¬ IsKeyword blockModes mode) "rate_limit_block_mode must be hard | soft"

def toAsciiLowercase (s : String) : String := String.ofList (lowercase s)

/-- What the patch makes of the snapshot it has read, before it takes the lock of the maps. -/
def RuntimeConfigPatch.applySwitches (patch : RuntimeConfigPatch) (s : RuntimeConfigSnapshot) :
    RuntimeConfigSnapshot :=
  { s with
    rateLimitEnabled := patch.rateLimitEnabled.getD s.rateLimitEnabled
    rateLimit :=
      { s.rateLimit with enabled := patch.rateLimitEnabled.getD s.rateLimit.enabled }
    synProxyEnabled := patch.synProxyEnabled.getD s.synProxyEnabled
    l7ScanEnabled := patch.l7ScanEnabled.getD s.l7ScanEnabled
    udpFloodEnabled := patch.udpFloodEnabled.getD s.udpFloodEnabled
    icmpFloodEnabled := patch.icmpFloodEnabled.getD s.icmpFloodEnabled
    geoipEnabled := patch.geoipEnabled.getD s.geoipEnabled
    tcpResetOnDrop := patch.tcpResetOnDrop.getD s.tcpResetOnDrop
    trustEnabled := patch.trustEnabled.getD s.trustEnabled
    connTrackEnabled := patch.connTrackEnabled.getD s.connTrackEnabled
    connTrackThreshold := patch.connTrackThreshold.getD s.connTrackThreshold
    connTrackWindowMs := patch.connTrackWindowMs.getD s.connTrackWindowMs
    trustAddDivisor := patch.trustAddDivisor.getD s.trustAddDivisor
    trustSubDivisor := patch.trustSubDivisor.getD s.trustSubDivisor
    geoipDefaultAction := patch.geoipDefaultAction.getD s.geoipDefaultAction
    fragmentPolicy := (patch.fragmentPolicy.map toAsciiLowercase).getD s.fragmentPolicy
    rateLimitBlockMode :=
      (patch.rateLimitBlockMode.map toAsciiLowercase).getD s.rateLimitBlockMode
    adaptive := patch.adaptive.getD s.adaptive }

/-- What it makes of it under the lock: the parameters of the two limiters. -/
def RuntimeConfigPatch.applyLimits (patch : RuntimeConfigPatch) (s : RuntimeConfigSnapshot) :
    RuntimeConfigSnapshot :=
  { s with
    rateLimit := patch.rateLimit.getD s.rateLimit
    rateLimitEnabled := (patch.rateLimit.map RateLimitParams.enabled).getD s.rateLimitEnabled
    portRateLimit := patch.portRateLimit.getD s.portRateLimit }

/-- The whole change. -/
def RuntimeConfigPatch.applyTo (patch : RuntimeConfigPatch) (s : RuntimeConfigSnapshot) :
    RuntimeConfigSnapshot := patch.applyLimits (patch.applySwitches s)

/-- CONFIG after a patch: the fields of the snapshot over the present value. The danger level and the
two counts stay. -/
def RuntimeConfigSnapshot.writeConfig (s : RuntimeConfigSnapshot) (cfg : RuntimeConfig) :
    RuntimeConfig :=
  { cfg with
    rateLimitEnabled := s.rateLimitEnabled.toUInt8
    synProxyEnabled := s.synProxyEnabled.toUInt8
    l7ScanEnabled := s.l7ScanEnabled.toUInt8
    udpFloodEnabled := s.udpFloodEnabled.toUInt8
    icmpFloodEnabled := s.icmpFloodEnabled.toUInt8
    geoipEnabled := s.geoipEnabled.toUInt8
    geoipDefaultAction := s.geoipDefaultAction
    tcpResetOnDrop := s.tcpResetOnDrop.toUInt8
    trustEnabled := s.trustEnabled.toUInt8
    connTrackEnabled := s.connTrackEnabled.toUInt8
    connTrackThreshold := max s.connTrackThreshold 1
    connTrackWindowMs := max s.connTrackWindowMs 1
    trustAddDivisor := max s.trustAddDivisor 1
    trustSubDivisor := max s.trustSubDivisor 1
    packetLogEnabled := s.packetLogEnabled.toUInt8
    packetLogSampleRate := s.packetLogSampleRate
    projectEnabled := s.protectionProjectsEnabled.toUInt8
    portRateLimitEnabled := s.portRateLimit.enabled.toUInt8
    rateLimitDportGrouping := s.rateLimit.dportGrouping.toUInt8
    fragmentPolicy := fragmentPolicyToU8 s.fragmentPolicy
    rateLimitSoft := (decide (s.rateLimitBlockMode = "soft")).toUInt8 }

/-- The maps after a patch whose snapshot is `s` in the end. -/
def RuntimeConfigPatch.writeMaps (patch : RuntimeConfigPatch) (s : RuntimeConfigSnapshot)
    (m : Maps) : Maps :=
  { m with
    rateLimitCfg :=
      (patch.rateLimit.map fun rl =>
        { threshold := rl.threshold, tickMs := rl.tickMs, decayNum := rl.decayNum
          decayDen := rl.decayDen, blockDurationS := rl.blockDurationS }).getD m.rateLimitCfg
    portRateLimitCfg :=
      (patch.portRateLimit.map fun prl =>
        { threshold := prl.threshold, tickMs := prl.tickMs, decayNum := 0, decayDen := 1
          blockDurationS := 0 }).getD m.portRateLimitCfg
    config := s.writeConfig m.config }

/-! ## `set_danger_level` -/

/-- The level that is stored. -/
def clampDangerLevel (level : UInt8) : UInt8 := min level 2

def writeDangerLevel (level : UInt8) (m : Maps) : Maps :=
  { m with config := { m.config with dangerLevel := level } }

end EShield.Node
