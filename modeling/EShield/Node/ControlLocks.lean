import EShield.Lib.Locks

/-!
# The locks of the control plane

Each operation of `ControlState` as the order in which it locks and unlocks. `RwLock` guards of the
runtime snapshot are shared when they read. An operation ends early by leaving: by `?`, or because its
future is dropped.
-/

namespace EShield.Node.ControlLocks

open Locks

inductive ControlLock where
  | ebpf
  | whitelist
  | blacklist
  | geoipBlocks
  | geoipAllows
  | runtime
  /-- `MemoryAuditBackend::entries`. -/
  | auditEntries
  /-- `FileAuditBackend::write_lock`. -/
  | auditWrite
  /-- `FileAuditBackend::file`. -/
  | auditFile
  deriving DecidableEq

/-- `lock`, or `write` of the runtime snapshot. -/
def mutex (lock : ControlLock) : Guard ControlLock := ⟨lock, false⟩

/-- `read` of the runtime snapshot. -/
def readRuntime : Guard ControlLock := ⟨.runtime, true⟩

abbrev Sections := List (List (LockAct ControlLock))

/-- `auditor: Option<Auditor>`, with its backend. -/
inductive AuditSink where
  | absent
  | memory
  | file

/-- `audit`: the backend's `append`. -/
def audit : AuditSink → Sections
  | .absent => []
  | .memory => [scope (mutex .auditEntries) []]
  | .file => [scope (mutex .auditWrite) (scope (mutex .auditFile) [])]

/-! ## Operations -/

def blockIpRaw : List (LockAct ControlLock) := scope (mutex .ebpf) []

def allowCidrRaw : List (LockAct ControlLock) := scope (mutex .ebpf) []

def lookupTrustScore : List (LockAct ControlLock) := scope (mutex .ebpf) []

def setTrustScore (trustEnabled : Bool) : Sections :=
  scope readRuntime [] :: if trustEnabled then [scope (mutex .ebpf) []] else []

def setL7Patterns (sink : AuditSink) : Sections :=
  scope (mutex .ebpf) [] :: scope (mutex .runtime) [] :: audit sink

def setPortAcl (sink : AuditSink) : Sections :=
  scope (mutex .ebpf) [] :: scope (mutex .runtime) [] :: audit sink

def setProtectionProjects (sink : AuditSink) : Sections :=
  scope (mutex .ebpf) [] :: scope (mutex .runtime) [] :: scope (mutex .runtime) [] :: audit sink

def blockIpKey (sink : AuditSink) : Sections := blockIpRaw :: audit sink

/-- What `load_persisted_rules` finds in the store: blocks that are live and dynamic, networks, and
which of the rule sets are not empty. -/
structure StoredRules where
  blocks : Nat := 0
  cidrs : Nat := 0
  portAcl : Bool := false
  l7Patterns : Bool := false
  protectionProjects : Bool := false

def loadPersistedRules (sink : AuditSink) (stored : StoredRules) : Sections :=
  List.replicate stored.blocks blockIpRaw ++ List.replicate stored.cidrs allowCidrRaw ++
    (if stored.portAcl then setPortAcl sink else []) ++
    (if stored.l7Patterns then setL7Patterns sink else []) ++
    if stored.protectionProjects then setProtectionProjects sink else []

/-- What a reload of the configuration file does under the eBPF handle. -/
def applyConfig : List (LockAct ControlLock) :=
  [.acquire (mutex .ebpf), .acquire (mutex .whitelist), .acquire (mutex .blacklist),
      .acquire (mutex .geoipBlocks), .acquire (mutex .geoipAllows)] ++
    scope readRuntime [] ++ scope (mutex .runtime) [] ++
    [.release (mutex .ebpf), .release (mutex .whitelist), .release (mutex .blacklist)]

/-- `restored` is how many sections of `load_persisted_rules` are gone through; its error is logged
only. The GeoIP guards live to the end. -/
def reloadConfigFile (sink : AuditSink) (stored : StoredRules) (restored : Nat) :
    List (LockAct ControlLock) :=
  applyConfig ++ ((loadPersistedRules sink stored).take restored).flatten ++ (audit sink).flatten ++
    [.release (mutex .geoipAllows), .release (mutex .geoipBlocks)]

def reloadGeoip (sink : AuditSink) : List (LockAct ControlLock) :=
  scope (mutex .ebpf) (scope (mutex .geoipBlocks) (scope (mutex .geoipAllows)
    (scope (mutex .runtime) [] ++ (audit sink).flatten)))

def patchRuntime (sink : AuditSink) : List (LockAct ControlLock) :=
  scope readRuntime [] ++
    scope (mutex .ebpf) (scope (mutex .runtime) [] ++ (audit sink).flatten)

def unblockIpKey (sink : AuditSink) : Sections :=
  scope (mutex .ebpf) [] :: scope (mutex .blacklist) [] :: audit sink

/-- `applied` says of each policy that is blocked whether it has a trust score, and then whether trust
is enabled. -/
def applyHubPolicies (sink : AuditSink) (applied : List (Option Bool)) : Sections :=
  scope (mutex .ebpf) [] ::
    applied.flatMap fun trust =>
      blockIpKey sink ++ match trust with
        | none => []
        | some trustEnabled => setTrustScore trustEnabled

inductive ControlOp where
  | reloadConfigFile (stored : StoredRules) (restored : Nat)
  | reloadGeoip
  | loadPersistedRules (stored : StoredRules)
  | patchRuntime
  | setDangerLevel
  | setL7Patterns
  | setPortAcl
  | setProtectionProjects
  | applyHubRules
  | blockIpKey
  | blockIpKeysBatch
  | unblockIpKey
  | allowCidrKey
  | disallowCidr
  | applyHubPolicies (applied : List (Option Bool))
  | unblockHubPolicies (unblocked : Nat)
  /-- With the number of hits whose trust score is looked up. -/
  | collectHubPublishablePolicies (hits : Nat)
  | statsSnapshotJson
  /-- The handler that lists the whitelist. -/
  | listWhitelist
  /-- The tasks and handlers that lock nothing but the eBPF handle. -/
  | useEbpf

def ControlOp.program (sink : AuditSink) : ControlOp → List (LockAct ControlLock)
  | .reloadConfigFile stored restored => ControlLocks.reloadConfigFile sink stored restored
  | .reloadGeoip => ControlLocks.reloadGeoip sink
  | .loadPersistedRules stored => (ControlLocks.loadPersistedRules sink stored).flatten
  | .patchRuntime => ControlLocks.patchRuntime sink
  | .setDangerLevel => scope (mutex .runtime) [] ++ scope (mutex .ebpf) []
  | .setL7Patterns => (ControlLocks.setL7Patterns sink).flatten
  | .setPortAcl => (ControlLocks.setPortAcl sink).flatten
  | .setProtectionProjects => (ControlLocks.setProtectionProjects sink).flatten
  | .applyHubRules =>
    (ControlLocks.setPortAcl sink ++ ControlLocks.setL7Patterns sink ++
      ControlLocks.setProtectionProjects sink ++ audit sink).flatten
  | .blockIpKey => (ControlLocks.blockIpKey sink).flatten
  | .blockIpKeysBatch => (scope (mutex .ebpf) [] :: audit sink).flatten
  | .unblockIpKey => (ControlLocks.unblockIpKey sink).flatten
  | .allowCidrKey => (allowCidrRaw :: audit sink).flatten
  | .disallowCidr =>
    (scope (mutex .ebpf) [] :: scope (mutex .whitelist) [] :: audit sink).flatten
  | .applyHubPolicies applied => (ControlLocks.applyHubPolicies sink applied).flatten
  | .unblockHubPolicies unblocked =>
    (List.replicate unblocked (ControlLocks.unblockIpKey sink)).flatten.flatten
  | .collectHubPublishablePolicies hits =>
    (scope (mutex .ebpf) [] :: List.replicate hits lookupTrustScore).flatten
  | .statsSnapshotJson => scope readRuntime []
  | .listWhitelist => scope (mutex .whitelist) []
  | .useEbpf => scope (mutex .ebpf) []

/-- One operation goes on. -/
def controlLockStep (sink : AuditSink) :
    List (Locks.Task ControlLock) → Event ControlOp → Option (List (Locks.Task ControlLock)) :=
  lockStep (ControlOp.program sink)

end EShield.Node.ControlLocks
