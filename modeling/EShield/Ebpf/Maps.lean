import EShield.Ebpf.Parser
import EShield.Lib.LpmTrie

/-!
# BPF maps

The state of all maps as one program run sees it. A hash map is a partial function on its keys; the
eviction that an LRU map may make when it is full is a step of its environment. An array map has
all its slots from the start, so a one-slot array is the value of that slot and the source's `None`
branches for it are dead. `globalStats` is the slot of the CPU the run is on.
-/

namespace EShield.Ebpf

/-- A hash map. -/
abbrev LruHashMap (K V : Type) := K → Option V

namespace LruHashMap

variable {K V : Type} [DecidableEq K]

def empty : LruHashMap K V := fun _ => none

def insert (m : LruHashMap K V) (k : K) (v : V) : LruHashMap K V := Function.update m k (some v)

def remove (m : LruHashMap K V) (k : K) : LruHashMap K V := Function.update m k none

@[simp] theorem insert_self (m : LruHashMap K V) (k : K) (v : V) : m.insert k v k = some v := by
  simp [insert]

theorem insert_of_ne (m : LruHashMap K V) {k k' : K} (v : V) (h : k' ≠ k) :
    m.insert k v k' = m k' := by
  simp [insert, h]

@[simp] theorem remove_self (m : LruHashMap K V) (k : K) : m.remove k k = none := by
  simp [remove]

theorem remove_of_ne (m : LruHashMap K V) {k k' : K} (h : k' ≠ k) : m.remove k k' = m k' := by
  simp [remove, h]

theorem isSome_of_remove (m : LruHashMap K V) {k k' : K} (h : (m.remove k k').isSome) :
    (m k').isSome := by
  by_cases hk : k' = k
  · rw [hk, remove_self] at h
    cases h
  · rwa [remove_of_ne _ hk] at h

end LruHashMap

structure Maps where
  whitelistV4 : LpmTrie 32 UInt8 := []
  whitelistV6 : LpmTrie 128 UInt8 := []
  geoipBlockedV4 : LpmTrie 32 UInt8 := []
  geoipBlockedV6 : LpmTrie 128 UInt8 := []
  geoipAllowedV4 : LpmTrie 32 UInt8 := []
  geoipAllowedV6 : LpmTrie 128 UInt8 := []
  blacklist : LruHashMap IpKey BlockEntry := .empty
  globalStats : GlobalStats := {}
  topAttackers : LruHashMap IpKey UInt64 := .empty
  events : List DropEvent := []
  packetSamples : List PacketSample := []
  config : RuntimeConfig := {}
  rateLimitCfg : RateLimitConfig := {}
  rateMap : LruHashMap IpKey RateCounter := .empty
  portRateLimitCfg : RateLimitConfig := {}
  rateMapPort : LruHashMap RateLimitPortKey RateCounter := .empty
  portRateMap : LruHashMap PortRateKey RateCounter := .empty
  cookieSecrets : CookieSecret := { current := 0, previous := 0, bucketIndex := 0 }
  l7Patterns : Vector L7Pattern MAX_L7_PATTERNS := .replicate _ {}
  portAcl : Vector PortAclEntry MAX_PORT_ACL := .replicate _ {}
  projectPolicy : LruHashMap ProjectPolicyKey ProjectPolicy := .empty
  /-- Source → time it entered challenge mode. -/
  synProxyConn : LruHashMap IpKey UInt64 := .empty
  connTrack : LruHashMap IpKey ConnTrackEntry := .empty
  trustMap : LruHashMap IpKey TrustEntry := .empty

/-- `with_stats`: updates this CPU's statistics. -/
def Maps.withStats (m : Maps) (f : GlobalStats → GlobalStats) : Maps :=
  { m with globalStats := f m.globalStats }

end EShield.Ebpf
