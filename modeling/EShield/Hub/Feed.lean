import EShield.Common.FeedText
import EShield.Hub.Models
import EShield.Node.Ip

/-!
# The threat feed of the hub

The hub fetches one feed for all nodes and merges its addresses like the reports of a node.
-/

namespace EShield.Hub

open Text IpText
open Node (IpAddr.key)

structure FeedConfig where
  name : String := "hub-threat-feed"
  action : String := "drop"
  ttlS : UInt64 := 86400

/-- An address, or a block whose prefix is written as that of a single one. -/
def addIp (s : List Char) : Option IpKey :=
  match splitOnce '/' s with
  | some (ip, length) =>
    if length ≠ "32".toList ∧ length ≠ "128".toList then none
    else
      match parseIpAddr ip with
      | some (.v4 octets) => if length = "32".toList then some (.fromIpv4 octets) else none
      | some (.v6 octets) => if length = "128".toList then some (.fromIpv6 octets) else none
      | none => none
  | none => (parseIpAddr s).map IpAddr.key

def parseFeed (fromStr : List Char → Option Json) (text : List Char) : Option (List IpKey) :=
  FeedText.parseFeed fromStr addIp text

/-- What `sync_once` merges: nothing unless the action is to drop. -/
def feedPolicies (config : FeedConfig) (entries : List IpKey) : List NodePolicy :=
  if config.action ≠ "drop" then []
  else
    entries.map fun ip =>
      { ip := ip
        reason := rules.THREAT_INTEL.toUInt8
        hitCount := 1
        trustScore := 0
        blockedUntilNs := 0
        ttlS := config.ttlS }

end EShield.Hub
