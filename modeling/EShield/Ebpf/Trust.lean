import EShield.Ebpf.Maps

/-!
# Reputation

The trust score of a source: raised slowly by passed packets, lowered fast by dropped ones, and read
back as a factor on the rate threshold.
-/

namespace EShield.Ebpf

def trustLevel (score : UInt32) : UInt8 :=
  if score ≥ 700 then 1 else if score ≥ 300 then 2 else if score ≥ 100 then 3 else 4

/-- The entry of a source, or that of a new one. -/
def trustEntry (m : Maps) (src : IpKey) : TrustEntry :=
  (m.trustMap src).getD { trustScore := TRUST_DEFAULT }

/-- A passed packet, standing for `weight` of them, adds to the score. -/
def trustPass (m : Maps) (src : IpKey) (nowNs : UInt64) (addDivisor weight : UInt32) : Maps :=
  let weight := max weight 1
  let entry := trustEntry m src
  let divisor := if addDivisor = 0 then TRUST_ADD_DIVISOR else addDivisor
  let delta := TRUST_MAX.saturatingSub entry.trustScore / divisor
  let score := min (entry.trustScore + delta.saturatingMul weight) TRUST_MAX
  { m with
    trustMap := m.trustMap.insert src
      { lastUpdateNs := nowNs
        trustScore := score
        passCount := entry.passCount.saturatingAdd weight
        dropCount := entry.dropCount
        level := trustLevel score } }

/-- A dropped packet lowers the score. Once it is zero only every sixteenth drop is written. -/
def trustDrop (m : Maps) (src : IpKey) (nowNs : UInt64) (subDivisor : UInt32) : Maps :=
  let entry := trustEntry m src
  let dropCount := entry.dropCount.saturatingAdd 1
  let divisor := if subDivisor = 0 then TRUST_SUB_DIVISOR else subDivisor
  let score := entry.trustScore.saturatingSub (entry.trustScore / divisor)
  let entry := { entry with trustScore := score, lastUpdateNs := nowNs, level := trustLevel score }
  if score = TRUST_MIN then
    let m := m.withStats fun s => { s with trustDropSample := s.trustDropSample + 1 }
    if m.globalStats.trustDropSample &&& 0xf = 0 then
      { m with
        trustMap := m.trustMap.insert src { entry with dropCount := dropCount.saturatingAdd 15 } }
    else m
  else { m with trustMap := m.trustMap.insert src { entry with dropCount := dropCount } }

/-- `(500 + trust) * 1000 / 1500`. -/
def trustFactor (m : Maps) (src : IpKey) : UInt64 :=
  let trust := (trustEntry m src).trustScore.toUInt64
  (500 + trust) * 1000 / 1500

def dangerFactor (dangerLevel : UInt8) : UInt64 :=
  if dangerLevel = 2 then 500 else if dangerLevel = 1 then 750 else 1000

/-- Every sixty-fourth passed packet is written, with weight 64. -/
def trustPassSampled (m : Maps) (src : IpKey) (nowNs : UInt64) (addDivisor : UInt32) : Maps :=
  let m := m.withStats fun s => { s with trustPassSample := s.trustPassSample + 1 }
  if m.globalStats.trustPassSample &&& 0x3f = 0 then trustPass m src nowNs addDivisor 64 else m

end EShield.Ebpf
