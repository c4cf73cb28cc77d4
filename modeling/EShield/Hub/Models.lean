import EShield.Common.Types

/-!
# Messages between nodes and hub
-/

namespace EShield

/-- One policy as a node reports it. -/
structure NodePolicy where
  ip : IpKey
  reason : UInt8
  hitCount : UInt32
  trustScore : UInt32
  blockedUntilNs : UInt64
  /-- Seconds left; 0 means permanent. -/
  ttlS : UInt64
  deriving DecidableEq, Repr

/-- One policy as the hub shares it. -/
structure SharedPolicy where
  ip : IpKey
  reason : UInt8
  hitCount : UInt32
  trustScore : UInt32
  firstSeenNs : UInt64
  lastSeenNs : UInt64
  sourceNodes : List String
  /-- 0 means permanent. -/
  ttlS : UInt64
  deriving DecidableEq, Repr

end EShield
