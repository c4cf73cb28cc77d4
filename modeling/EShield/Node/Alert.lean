import EShield.Lib.Cooldown
import EShield.Lib.TopRows
import EShield.Node.TimeSeries

/-!
# Alerts

Once a minute the drops of the minute are compared with a threshold; above it an event goes to the
webhook, unless the last one went out less than a cooldown ago.
-/

namespace EShield.Node

open Exec TopRows

structure AlertConfig where
  webhookUrl : Option String
  /-- Dropped packets per second. -/
  thresholdDps : UInt64
  cooldownS : UInt64
  interface : String

structure AlertAttacker where
  ip : String
  count : UInt64

structure AlertEvent where
  timestamp : UInt64
  interface : String
  alertType : String
  totalDropped : UInt64
  dps : UInt64
  thresholdDps : UInt64
  cooldownS : UInt64
  message : String
  ruleBreakdown : List (String × UInt64)
  topAttackers : List AlertAttacker

structure AlertManager where
  config : AlertConfig
  lastAlertS : UInt64 := 0

namespace AlertManager

/-- The event for the present statistics; `r.topAttackers` are in the order of their iteration. -/
def event (manager : AlertManager) (r : StatsReading) (dps nowS : UInt64) : AlertEvent :=
  { timestamp := nowS
    interface := manager.config.interface
    alertType := "drop_rate"
    totalDropped := r.stats.totalDropped
    dps := dps
    thresholdDps := manager.config.thresholdDps
    cooldownS := manager.config.cooldownS
    message := s!"eShield [{manager.config.interface}] 告警：DROP 速率 {dps} pps 超过阈值 {manager.config.thresholdDps} pps"
    ruleBreakdown :=
      [("blacklist", r.stats.blacklistBlocked), ("rate_limit", r.stats.rateLimited),
        ("syn_flood", r.stats.synFloodBlocked), ("l7", r.stats.l7Blocked),
        ("adaptive", r.adaptiveBlocked), ("udp_flood", r.stats.udpFloodBlocked),
        ("icmp_flood", r.stats.icmpFloodBlocked), ("geoip", r.stats.geoipBlocked)]
    topAttackers := topRows 5 (r.topAttackers.map fun e => (formatIpKey e.1, e.2)) |>.map fun e =>
      ⟨e.1, e.2⟩ }

def check (manager : AlertManager) (r : StatsReading) (delta windowS nowS : UInt64) :
    AlertManager × Option AlertEvent :=
  if windowS = 0 ∨ manager.config.webhookUrl.isNone then (manager, none)
  else
    let dps := delta / windowS
    if dps < manager.config.thresholdDps then (manager, none)
    else if nowS.saturatingSub manager.lastAlertS < manager.config.cooldownS then (manager, none)
    else ({ manager with lastAlertS := nowS }, some (manager.event r dps nowS))

end AlertManager

/-! ## Runs -/

end EShield.Node
