import EShield.Common.FeedText
import EShield.Node.Reload

/-!
# Threat feeds of a node

A node fetches each of its feeds in an interval of its own. The addresses of a feed that drops are blocked
for three intervals, an hour at least; those of a feed that allows go to the whitelist.
-/

namespace EShield.Node

open Checks ControlPlane

def addIp (s : List Char) : Option IpKey := (parseIpOrCidr (String.ofList s)).toOption

def parseFeed (fromStr : List Char → Option Json) (text : List Char) : Option (List IpKey) :=
  FeedText.parseFeed fromStr addIp text

/-- Each address as a block of its own. -/
def entriesCidr (entries : List IpKey) : List Cidr :=
  entries.map fun key =>
    match key.ipFamily with
    | some .ipv4 => (key, 32)
    | some .ipv6 => (key, 128)
    | none => (key, 128)

/-- How long a block lasts, longer than until the next sync. -/
def ThreatFeed.durationS (feed : ThreatFeed) : UInt64 := max (feed.intervalS.saturatingMul 3) 3600

def allowCidrKey (c : Cidr) : Attempt ControlPlane String :=
  Attempt.sequence
    [onMaps (allowCidrRaw c),
      .write fun s =>
        { s with
          tables :=
            { s.tables with whitelist := s.tables.whitelist.saveWhitelist c.1 c.2 } }]

/-- `sync_feed` behind the parser. Without an address nothing is written, and an address that cannot be
allowed is passed over. -/
def syncFeed (feed : ThreatFeed) (entries : List IpKey) (nowNs updatedNs : UInt64) :
    Attempt ControlPlane String :=
  if feed.action = "drop" then
    .write fun s =>
      if entries = [] then s
      else
        { s with
          toControlState :=
            blockIpKeysBatch s.toControlState entries feed.durationS rules.THREAT_INTEL.toUInt8
              .threatIntel nowNs updatedNs }
  else if feed.action = "allow" then
    .write fun s => (entriesCidr entries).foldl (fun s c => (allowCidrKey c s).2) s
  else fun s => (.error s!"unsupported threat intel action: {feed.action}", s)

end EShield.Node
